import Mathlib.Data.Finset.Card
import Mathlib.Data.List.Basic
import Mathlib.Logic.Relation

/-! What can be reached from a node. -/

namespace Reach

structure Walk (α : Type*) where
  found : Finset α
  stack : List α

variable {α : Type*} [DecidableEq α] (next : α → List α)

namespace Walk

def discover (walk : Walk α) (node : α) : Walk α :=
  if node ∈ walk.found then walk else ⟨insert node walk.found, node :: walk.stack⟩

def step (walk : Walk α) : Walk α :=
  match walk.stack with
  | [] => walk
  | node :: rest => (next node).foldl discover ⟨walk.found, rest⟩

def run : Nat → Walk α → Walk α
  | 0, walk => walk
  | fuel + 1, walk => run fuel (walk.step next)

end Walk

def traverse (count : Nat) (start : α) : Finset α :=
  (Walk.run next (count + 1) ⟨∅, [start]⟩).found

variable {next} {walk : Walk α} {ground : Finset α} {nodes rest : List α} {node start : α}

section Termination

def Walk.work (ground : Finset α) (walk : Walk α) : Nat :=
  (ground \ walk.found).card + walk.stack.length

theorem Walk.work_discover (inside : node ∈ ground) :
    (walk.discover node).work ground ≤ walk.work ground := by
  grind [work, discover]

theorem Walk.work_foldl_discover (inside : ∀ node ∈ nodes, node ∈ ground) :
    (nodes.foldl discover walk).work ground ≤ walk.work ground := by
  induction nodes generalizing walk with
  | nil => exact le_refl _
  | cons node nodes ih => grind [work_discover]

theorem Walk.work_step (closed : ∀ node, ∀ other ∈ next node, other ∈ ground)
    (more : walk.stack ≠ []) :
    (walk.step next).work ground + 1 ≤ walk.work ground := by
  grind [work_foldl_discover, work, step]

theorem Walk.run_of_empty (empty : walk.stack = []) (fuel : Nat) : walk.run next fuel = walk := by
  induction fuel with
  | zero => rfl
  | succ fuel ih =>
    have same : walk.step next = walk := by simp [Walk.step, empty]
    rw [run, same, ih]

theorem Walk.stack_run (closed : ∀ node, ∀ other ∈ next node, other ∈ ground) {fuel : Nat}
    (enough : walk.work ground ≤ fuel) : (walk.run next fuel).stack = [] := by
  induction fuel generalizing walk with
  | zero => grind [List.length_eq_zero_iff, run, work]
  | succ fuel ih =>
    by_cases more : walk.stack = []
    · rw [run_of_empty more]
      exact more
    · have less := @Walk.work_step _ _ next walk ground closed more
      exact ih (by omega)

end Termination

structure Walk.Sound (next : α → List α) (start : α) (walk : Walk α) : Prop where
  reached : ∀ node ∈ walk.found, Relation.TransGen (fun node other => other ∈ next node) start node
  stacked : ∀ node ∈ walk.stack, node = start ∨ node ∈ walk.found
  looked : ∀ node, node = start ∨ node ∈ walk.found → node ∈ walk.stack ∨
    ∀ other ∈ next node, other ∈ walk.found

@[simp] theorem Walk.mem_foldl_discover {target : α} :
    target ∈ (nodes.foldl discover walk).found ↔ target ∈ walk.found ∨ target ∈ nodes := by
  induction nodes generalizing walk with
  | nil => simp
  | cons node nodes ih => grind [discover]

theorem Walk.mem_stack_foldl_discover {target : α} :
    target ∈ (nodes.foldl discover walk).stack ↔ target ∈ walk.stack ∨ target ∈ nodes ∧
    target ∉ walk.found := by
  induction nodes generalizing walk with
  | nil => simp
  | cons node nodes ih =>
    rw [List.foldl_cons, ih]
    unfold Walk.discover
    split
    · grind
    · grind

theorem Walk.Sound.step (sound : Walk.Sound next start walk) :
    (walk.step next).Sound next start := by
  obtain ⟨found, stack⟩ := walk
  cases stack with
  | nil => exact sound
  | cons node rest =>
    grind [mem_foldl_discover, mem_stack_foldl_discover, Walk.step, Sound]

theorem Walk.Sound.run (sound : Walk.Sound next start walk) (fuel : Nat) :
    (walk.run next fuel).Sound next start := by
  induction fuel generalizing walk with
  | zero => exact sound
  | succ fuel ih => exact ih sound.step

theorem mem_traverse (closed : ∀ node, ∀ other ∈ next node, other ∈ ground) {count : Nat}
    (size : ground.card ≤ count) {target : α} :
    target ∈ traverse next count start ↔ Relation.TransGen (fun node other => other ∈ next node)
      start target := by
  have begun : Walk.Sound next start ⟨∅, [start]⟩ := ⟨by simp, by simp, by simp⟩
  have sound := begun.run (count + 1)
  have ended : (Walk.run next (count + 1) ⟨∅, [start]⟩).stack = [] :=
    Walk.stack_run closed (by simpa [Walk.work] using size)
  have closedUnder : ∀ node, node = start ∨ node ∈ traverse next count start → ∀ other ∈ next node,
      other ∈ traverse next count start := by
    intro node known
    refine (sound.looked node known).resolve_left ?_
    simp [ended]
  refine ⟨sound.reached target, fun path => ?_⟩
  induction path with
  | single isNext => exact closedUnder start (.inl rfl) _ isNext
  | tail _ isNext ih => exact closedUnder _ (.inr ih) _ isNext

end Reach

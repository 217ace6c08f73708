import Mathlib.Algebra.BigOperators.Intervals
import Mathlib.Algebra.Order.BigOperators.Group.Finset
import Mathlib.Data.List.Basic
import Mathlib.Logic.Function.Basic
import Mathlib.Logic.Relation
import Mathlib.Order.Bounds.Basic

/-! Levels of a graph by a depth-first search with an explicit stack. -/

namespace Levels

structure Search where
  levelOf : Nat → Option Nat
  onStack : Nat → Bool
  stack : List (Nat × Bool)

variable (deps : Nat → List (Option Nat))

def settledLevel (levelOf : Nat → Option Nat) (node : Nat) : Nat :=
  ((deps node).map fun dep => (dep.bind levelOf).getD 0 + 1).foldl max 0

def pending (levelOf : Nat → Option Nat) (onStack : Nat → Bool) (node : Nat) : List Nat :=
  (deps node).filterMap fun dep => dep.filter fun other => (levelOf other).isNone && !onStack other

namespace Search

variable (search : Search)

def enter (node : Nat) (rest : List (Nat × Bool)) : Search :=
  let onStack := Function.update search.onStack node true
  { search with
    onStack := onStack
    stack := (pending deps search.levelOf onStack node).reverse.map (·, false) ++
      (node, true) :: rest }

def settle (node : Nat) (rest : List (Nat × Bool)) : Search :=
  { levelOf := Function.update search.levelOf node (some (settledLevel deps search.levelOf node))
    onStack := Function.update search.onStack node false
    stack := rest }

def step : Search :=
  match search.stack with
  | [] => search
  | (node, true) :: rest => search.settle deps node rest
  | (node, false) :: rest =>
      if (search.levelOf node).isSome || search.onStack node then { search with stack := rest }
      else search.enter deps node rest

def run : Nat → Search → Search
  | 0, search => search
  | fuel + 1, search => run fuel (search.step deps)

end Search

def fuel (count : Nat) : Nat :=
  ∑ node ∈ Finset.range count, ((deps node).length + 2) + 1

def visit (count : Nat) (search : Search) (root : Nat) : Search :=
  if (search.levelOf root).isSome then search
  else Search.run deps (fuel deps count) { search with stack := [(root, false)] }

def search (count : Nat) : Search :=
  (List.range count).foldl (visit deps count) ⟨fun _ => none, fun _ => false, []⟩

def levelOf (count : Nat) : Nat → Option Nat :=
  (search deps count).levelOf

variable {deps} {search : Search} {count node other : Nat} {rest : List (Nat × Bool)}

section Termination

def Search.workOf (deps : Nat → List (Option Nat)) (search : Search) (node : Nat) : Nat :=
  if (search.levelOf node).isNone && !search.onStack node then (deps node).length + 2 else 0

def Search.work (deps : Nat → List (Option Nat)) (count : Nat) (search : Search) : Nat :=
  ∑ node ∈ Finset.range count, search.workOf deps node + search.stack.length

theorem mem_pending {levelOf : Nat → Option Nat} {onStack : Nat → Bool} :
    other ∈ pending deps levelOf onStack node ↔
      some other ∈ deps node ∧ levelOf other = none ∧ onStack other = false := by
  simp only [pending, List.mem_filterMap, Option.filter_eq_some_iff, Bool.and_eq_true,
    Option.isNone_iff_eq_none, Bool.not_eq_true']
  simp

def Search.Bounded (count : Nat) (search : Search) : Prop :=
  ∀ entry ∈ search.stack, entry.1 < count

theorem Search.Bounded.step (closed : ∀ node < count, ∀ other, some other ∈ deps node →
    other < count)
    (bounded : search.Bounded count) : (search.step deps).Bounded count := by
  obtain ⟨levelOf, onStack, stack⟩ := search
  rcases stack with _ | ⟨⟨node, settled⟩, rest⟩
  · exact bounded
  have isNode : node < count := bounded _ List.mem_cons_self
  have isRest : ∀ entry ∈ rest, entry.1 < count := fun entry mem => bounded entry
    (List.mem_cons_of_mem _ mem)
  cases settled with
  | true => exact isRest
  | false => grind [mem_pending, Bounded, Search.step, enter]

theorem sum_add_le {pre after : Nat → Nat} {gain : Nat} (inside : node < count)
    (gained : after node + gain ≤ pre node) (kept : ∀ other ≠ node, after other ≤ pre other) :
    ∑ other ∈ Finset.range count, after other + gain ≤ ∑ other ∈ Finset.range count, pre other := by
  have mem : node ∈ Finset.range count := Finset.mem_range.mpr inside
  have others : ∑ other ∈ (Finset.range count).erase node, after other ≤
      ∑ other ∈ (Finset.range count).erase node, pre other :=
    Finset.sum_le_sum fun other isOther => kept other (Finset.ne_of_mem_erase isOther)
  rw [← Finset.add_sum_erase _ after mem, ← Finset.add_sum_erase _ pre mem]
  omega

theorem Search.work_step (bounded : search.Bounded count) (more : search.stack ≠ []) :
    (search.step deps).work deps count + 1 ≤ search.work deps count := by
  obtain ⟨levelOf, onStack, stack⟩ := search
  rcases stack with _ | ⟨⟨node, settled⟩, rest⟩
  · exact absurd rfl more
  have isNode : node < count := bounded _ List.mem_cons_self
  have pre : (Search.mk levelOf onStack ((node, settled) :: rest)).work deps count =
      ∑ other ∈ Finset.range count, (Search.mk levelOf onStack rest).workOf deps other +
        (rest.length + 1) := rfl
  rw [pre]
  cases settled with
  | true =>
    have sums : ∑ other ∈ Finset.range count,
        ((Search.mk levelOf onStack rest).settle deps node rest).workOf deps other
        + 0 ≤ ∑ other ∈ Finset.range count, (Search.mk levelOf onStack rest).workOf deps other := by
      refine sum_add_le isNode ?_ fun other different => ?_
      · simp [Search.workOf, Search.settle]
      · simp [Search.workOf, Search.settle, different]
    grind [work, step, settle]
  | false =>
    simp only [Search.step]
    split
    · exact le_refl _
    · rename_i unseen
      simp only [Bool.or_eq_true, not_or, Bool.not_eq_true, Option.isSome_eq_false_iff] at unseen
      have sums : ∑ other ∈ Finset.range count,
          ((Search.mk levelOf onStack rest).enter deps node rest).workOf deps other
          + ((deps node).length + 2) ≤
          ∑ other ∈ Finset.range count, (Search.mk levelOf onStack rest).workOf deps other := by
        refine sum_add_le isNode ?_ fun other different => ?_
        · simp [Search.workOf, Search.enter, unseen]
        · simp [Search.workOf, Search.enter, different]
      grind [pending, work, enter]

theorem Search.run_of_empty (empty : search.stack = []) (fuel : Nat) : run deps fuel search =
    search := by
  induction fuel with
  | zero => rfl
  | succ fuel ih =>
    have same : search.step deps = search := by simp [Search.step, empty]
    rw [run, same, ih]

theorem Search.stack_run (closed : ∀ node < count, ∀ other, some other ∈ deps node → other < count)
    {fuel : Nat} (bounded : search.Bounded count) (enough : search.work deps count ≤ fuel) :
    (run deps fuel search).stack = [] := by
  induction fuel generalizing search with
  | zero => grind [List.length_eq_zero_iff, run, work]
  | succ fuel ih =>
    grind [run_of_empty, work_step, Bounded.step, run]

theorem stack_start (closed : ∀ node < count, ∀ other, some other ∈ deps node → other < count)
    {root : Nat} (inside : root < count) (search : Search) :
    (Search.run deps (fuel deps count) { search with stack := [(root, false)] }).stack = [] := by
  refine Search.stack_run closed (fun entry mem => ?_)
    (Nat.add_le_add_right (Finset.sum_le_sum fun node _ => ?_) 1)
  · rw [List.mem_singleton.mp mem]
    exact inside
  · unfold Search.workOf
    split <;> omega

theorem stack_visit (closed : ∀ node < count, ∀ other, some other ∈ deps node → other < count)
    {root : Nat} (inside : root < count)
    (idle : search.stack = []) : (visit deps count search root).stack =
    [] := by
  unfold visit
  split
  · exact idle
  · exact stack_start closed inside search

theorem stack_foldl_visit (closed : ∀ node < count, ∀ other, some other ∈ deps node → other < count)
    {roots : List Nat} (inside : ∀ root ∈ roots, root < count) (idle : search.stack = []) :
    (roots.foldl (visit deps count) search).stack = [] := by
  induction roots generalizing search with
  | nil => exact idle
  | cons root roots ih => grind [stack_visit]

end Termination

section Acyclic

theorem le_foldl_max {bound start : Nat} {vals : List Nat} (below : bound ≤ start ∨ bound ∈ vals) :
    bound ≤ vals.foldl max start := by
  induction vals generalizing start with
  | nil => simpa using below
  | cons value vals ih => grind

theorem lt_settledLevel {levelOf : Nat → Option Nat} {level : Nat} (isDep : some other ∈ deps node)
    (found : levelOf other = some level) : level < settledLevel deps levelOf node := by
  refine le_foldl_max (.inr (List.mem_map.mpr ⟨some other, isDep, ?_⟩))
  rw [Option.bind_some, found, Option.getD_some]

theorem split_of_pushed {pushed above below : List (Nat × Bool)}
    (flags : ∀ entry ∈ pushed, entry.2 = false)
    (split : pushed ++ rest = above ++ (node, true) :: below) :
    ∃ between, above = pushed ++ between ∧ rest = between ++ (node, true) :: below := by
  induction pushed generalizing above with
  | nil => exact ⟨above, rfl, split⟩
  | cons entry pushed ih =>
    rcases above with _ | ⟨first, above⟩
    · grind
    · simp_all

structure Search.Invariant (deps : Nat → List (Option Nat)) (rank : Nat → Nat)
    (search : Search) : Prop where
  onStack : ∀ node, search.onStack node = true ↔ (node, true) ∈ search.stack
  unset : ∀ node, (node, true) ∈ search.stack → search.levelOf node = none
  ordered : search.stack.Pairwise fun upper lower => lower.2 = true → rank upper.1 < rank lower.1
  awaited : ∀ above node below, search.stack = above ++ (node, true) :: below →
    ∀ other, some other ∈ deps node →
    (search.levelOf other).isSome ∨ ∃ settled, (other, settled) ∈ above
  levelled : ∀ node level, search.levelOf node = some level → ∀ other, some other ∈ deps node →
    ∃ lower < level, search.levelOf other = some lower
  settled : ∀ node level, search.levelOf node = some level →
    settledLevel deps search.levelOf node = level

theorem settledLevel_congr {levelOf pre : Nat → Option Nat}
    (same : ∀ other, some other ∈ deps node → levelOf other = pre other) :
    settledLevel deps levelOf node = settledLevel deps pre node := by
  unfold settledLevel
  congr 1
  refine List.map_congr_left fun dep mem => ?_
  cases dep with
  | none => rfl
  | some other => rw [Option.bind_some, Option.bind_some, same other mem]

namespace Search.Invariant

variable {rank : Nat → Nat} (acyclic : ∀ node other, some other ∈ deps node →
  rank other < rank node)

include acyclic

theorem settle (held : Invariant deps rank ⟨search.levelOf, search.onStack, (node, true) :: rest⟩) :
    Invariant deps rank (search.settle deps node rest) := by
  obtain ⟨onStack, unset, ordered, awaited, levelled, settled⟩ := held
  obtain ⟨above, restOrdered⟩ := List.pairwise_cons.mp ordered
  have isUnset : search.levelOf node = none := unset node List.mem_cons_self
  have absent : (node, true) ∉ rest := fun mem => lt_irrefl _ (above (node, true) mem rfl)
  have known (other : Nat) (isDep : some other ∈ deps node) : ∃ level, search.levelOf other =
    some level := by
    rcases awaited [] node rest rfl other isDep with isSome | ⟨settled, mem⟩
    · exact Option.isSome_iff_exists.mp isSome
    · cases mem
  refine ⟨fun other => ?_, fun other mem => ?_, restOrdered,
    fun above' other below split next isDep => ?_,
    fun other level found next isDep => ?_, fun other level found => ?_⟩
  · by_cases same : other = node
    · subst same
      simp [Search.settle, absent]
    · have pre := onStack other
      simp only [List.mem_cons, Prod.mk.injEq, same, false_and, false_or] at pre
      simp only [Search.settle, Function.update_of_ne same]
      exact pre
  · have different : other ≠ node := fun same => absent (same ▸ mem)
    simp only [Search.settle, Function.update_of_ne different]
    exact unset other (List.mem_cons_of_mem _ mem)
  · by_cases same : next = node
    · subst same
      exact .inl (by simp [Search.settle])
    · simp only [Search.settle, Function.update_of_ne same]
      have split' : (node, true) :: rest = ((node, true) :: above') ++ (other, true) :: below := by
        rw [List.cons_append]
        exact congrArg _ split
      rcases awaited _ other below split' next isDep with isSome | ⟨settled, mem⟩
      · exact .inl isSome
      · grind
  · by_cases same : other = node
    · subst same
      simp only [Search.settle, Function.update_self, Option.some.injEq] at found
      obtain ⟨lower, isLower⟩ := known next isDep
      have different : next ≠ other := fun same => lt_irrefl _ (same ▸ acyclic other next isDep)
      refine ⟨lower, found ▸ lt_settledLevel isDep isLower, ?_⟩
      simp only [Search.settle, Function.update_of_ne different]
      exact isLower
    · simp only [Search.settle, Function.update_of_ne same] at found
      obtain ⟨lower, isLower, foundLower⟩ := levelled other level found next isDep
      have different : next ≠ node := by
        rintro rfl
        simp [isUnset] at foundLower
      refine ⟨lower, isLower, ?_⟩
      simp only [Search.settle, Function.update_of_ne different]
      exact foundLower
  · -- No node with a level depends on the one that gets its level here.
    have kept : settledLevel deps (search.settle deps node rest).levelOf other =
        settledLevel deps search.levelOf other := by
      refine settledLevel_congr fun next isDep => Function.update_of_ne ?_ _ _
      rintro rfl
      by_cases same : other = next
      · exact lt_irrefl _ (same ▸ acyclic other next isDep)
      · simp only [Search.settle, Function.update_of_ne same] at found
        grind
    rw [kept]
    by_cases same : other = node
    · subst same
      simpa [Search.settle] using found
    · simp only [Search.settle, Function.update_of_ne same] at found
      exact settled other level found

omit acyclic in
theorem skip {levelOf : Nat → Option Nat} {onStack : Nat → Bool}
    (held : Invariant deps rank ⟨levelOf, onStack, (node, false) :: rest⟩)
    (seen : (levelOf node).isSome || onStack node) : Invariant deps rank ⟨levelOf,
      onStack, rest⟩ := by
  obtain ⟨isOnStack, unset, ordered, awaited, levelled, settled⟩ := held
  obtain ⟨above, restOrdered⟩ := List.pairwise_cons.mp ordered
  have isLevelled : (levelOf node).isSome := by grind
  refine ⟨fun other => (isOnStack other).trans (by simp),
    fun other member => unset other (List.mem_cons_of_mem _ member),
    restOrdered, fun between other below split next isDep => ?_, levelled, settled⟩
  have split' : (node, false) :: rest = ((node, false) :: between) ++ (other, true) :: below := by
    rw [List.cons_append]
    exact congrArg _ split
  grind

theorem enter {levelOf : Nat → Option Nat} {onStack : Nat → Bool}
    (held : Invariant deps rank ⟨levelOf, onStack, (node, false) :: rest⟩)
    (isUnset : levelOf node = none) :
    Invariant deps rank (Search.enter deps ⟨levelOf, onStack, (node, false) :: rest⟩
      node rest) := by
  obtain ⟨isOnStack, unset, ordered, awaited, levelled, settled⟩ := held
  obtain ⟨above, restOrdered⟩ := List.pairwise_cons.mp ordered
  have flags : ∀ entry ∈ (pending deps levelOf (Function.update onStack node true) node).reverse.map
      (·, false), entry.2 = false := by
    intro entry mem
    obtain ⟨other, -, rfl⟩ := List.mem_map.mp mem
    rfl
  refine ⟨fun other => ?_, fun other mem => ?_, ?_, fun upper other below split next isDep => ?_,
    levelled, settled⟩
  · by_cases same : other = node
    · subst same
      simp [Search.enter]
    · simpa [Search.enter, Function.update_of_ne same, same] using isOnStack other
  · grind [Search.enter]
  · refine List.pairwise_append.mpr ⟨?_, List.pairwise_cons.mpr ⟨above, restOrdered⟩, ?_⟩
    · refine List.pairwise_of_forall_mem_list fun _ _ lower isLower settled => ?_
      rw [flags lower isLower] at settled
      cases settled
    grind [mem_pending]
  · obtain ⟨between, rfl, isRest⟩ := split_of_pushed flags split
    rcases between with _ | ⟨top, between⟩
    · cases isRest
      cases isLevel : levelOf next with
      | some level => exact .inl (by simp [Search.enter, isLevel])
      | none => grind [pending]
    · obtain ⟨rfl, tails⟩ := List.cons.inj isRest
      have split' : (node, false) :: rest = ((node, false) :: between) ++
        (other, true) :: below := by
        rw [List.cons_append]
        exact congrArg _ tails
      rcases awaited _ other below split' next isDep with isSome | ⟨settled, mem⟩
      · exact .inl isSome
      · grind

theorem step (held : Invariant deps rank search) : Invariant deps rank (search.step deps) := by
  obtain ⟨levelOf, onStack, stack⟩ := search
  rcases stack with _ | ⟨⟨node, settled⟩, rest⟩
  · exact held
  cases settled with
  | true => exact held.settle acyclic
  | false =>
    simp only [Search.step]
    split
    · rename_i seen
      exact held.skip seen
    · rename_i unseen
      simp only [Bool.or_eq_true, not_or, Option.not_isSome_iff_eq_none] at unseen
      exact held.enter acyclic unseen.1

theorem run (held : Invariant deps rank search) (fuel : Nat) :
    Invariant deps rank (Search.run deps fuel search) := by
  induction fuel generalizing search with
  | zero => exact held
  | succ fuel ih => exact ih (held.step acyclic)

end Search.Invariant

variable {rank : Nat → Nat}

def Search.Reaches (search : Search) (node : Nat) : Prop :=
  (search.levelOf node).isSome ∨ ∃ settled, (node, settled) ∈ search.stack

theorem Search.Reaches.step {target : Nat} (held : search.Invariant deps rank)
    (reaches : search.Reaches target) :
    (search.step deps).Reaches target := by
  obtain ⟨levelOf, onStack, stack⟩ := search
  rcases stack with _ | ⟨⟨node, settled⟩, rest⟩
  · exact reaches
  cases settled with
  | true =>
    by_cases same : target = node
    · exact .inl (by simp [Search.step, Search.settle, same])
    · rcases reaches with isSome | ⟨settled, mem⟩
      · exact .inl (by simpa [Search.step, Search.settle, Function.update_of_ne same] using isSome)
      · refine .inr ⟨settled, ?_⟩
        simpa [Search.step, Search.settle, same] using mem
  | false => grind [Reaches, Search.step, enter, Invariant]

theorem Search.Reaches.run (acyclic : ∀ node other, some other ∈ deps node → rank other < rank node)
    {target : Nat} (held : search.Invariant deps rank) (reaches : search.Reaches target)
    (fuel : Nat) :
    (Search.run deps fuel search).Reaches target := by
  induction fuel generalizing search with
  | zero => exact reaches
  | succ fuel ih => exact ih (held.step acyclic) (reaches.step held)

section Visit

variable (acyclic : ∀ node other, some other ∈ deps node → rank other < rank node)
  (closed : ∀ node < count, ∀ other, some other ∈ deps node → other < count)

include acyclic closed

theorem visit_spec {root : Nat} (inside : root < count) (held : search.Invariant deps rank)
    (idle : search.stack = []) :
    (visit deps count search root).Invariant deps rank ∧ (visit deps count search root).stack = [] ∧
      ((visit deps count search root).levelOf root).isSome ∧
      ∀ node, (search.levelOf node).isSome →
        ((visit deps count search root).levelOf node).isSome := by
  unfold visit
  split
  · rename_i isSome
    exact ⟨held, idle, isSome, fun node found => found⟩
  · have started : Search.Invariant deps rank { search with stack := [(root, false)] } := by
      grind [Search.Invariant]
    have ended := stack_start closed inside search
    have reached (node : Nat)
      (reaches : Search.Reaches { search with stack := [(root, false)] } node) :
        ((Search.run deps (fuel deps count) { search with stack := [(root, false)] }).levelOf
          node).isSome := by
      rcases reaches.run acyclic started (fuel deps count) with isSome | ⟨settled, mem⟩
      · exact isSome
      · rw [ended] at mem
        cases mem
    exact ⟨started.run acyclic _, ended, reached root (.inr ⟨false, List.mem_singleton_self _⟩),
      fun node found => reached node (.inl found)⟩

theorem search_spec (roots : List Nat) (inside : ∀ root ∈ roots, root < count)
    (held : search.Invariant deps rank) (idle : search.stack = []) :
    (roots.foldl (visit deps count) search).Invariant deps rank ∧
      ∀ node, (search.levelOf node).isSome ∨ node ∈ roots →
        ((roots.foldl (visit deps count) search).levelOf node).isSome := by
  induction roots generalizing search with
  | nil => exact ⟨held, fun node found => found.resolve_right List.not_mem_nil⟩
  | cons root roots ih =>
    obtain ⟨after, ended, isRoot, kept⟩ := visit_spec acyclic closed
      (inside root List.mem_cons_self) held idle
    obtain ⟨final, levelled⟩ := ih (fun other mem => inside other (List.mem_cons_of_mem _ mem))
      after ended
    refine ⟨final, fun node found => levelled node ?_⟩
    rcases found with isSome | mem
    · exact .inl (kept node isSome)
    · rcases List.mem_cons.mp mem with rfl | later
      · exact .inl isRoot
      · exact .inr later

theorem levelOf_spec (inside : node < count) :
    ∃ level, levelOf deps count node = some level ∧ settledLevel deps (levelOf deps count) node =
      level ∧
      ∀ other, some other ∈ deps node → ∃ lower < level, levelOf deps count other = some lower := by
  have start : Search.Invariant deps rank ⟨fun _ => none, fun _ => false, []⟩ := by
    refine ⟨fun node => by simp, fun node mem => by simp at mem, List.Pairwise.nil,
      fun above node below split => ?_, fun node level found => by simp at found,
      fun node level found => by simp at found⟩
    rcases above with _ | ⟨top, above⟩ <;> cases split
  obtain ⟨final, levelled⟩ := search_spec acyclic closed (List.range count)
    (fun _ => List.mem_range.mp) start rfl
  obtain ⟨level, found⟩ := Option.isSome_iff_exists.mp
    (levelled node (.inr (List.mem_range.mpr inside)))
  exact ⟨level, found, final.settled node level found, final.levelled node level found⟩

end Visit

inductive Chain (deps : Nat → List (Option Nat)) : Nat → Nat → Prop where
  | stop (node : Nat) : Chain deps node 0
  | unknown {node : Nat} (isDep : none ∈ deps node) : Chain deps node 1
  | link {node other length : Nat} (isDep : some other ∈ deps node)
      (rest : Chain deps other length) :
      Chain deps node (length + 1)

theorem foldl_max_eq (vals : List Nat) (start : Nat) :
    vals.foldl max start = start ∨ vals.foldl max start ∈ vals := by
  induction vals generalizing start with
  | nil => exact .inl rfl
  | cons value vals ih => grind

theorem isGreatest_levelOf (acyclic : ∀ node other, some other ∈ deps node → rank other < rank node)
    (closed : ∀ node < count, ∀ other, some other ∈ deps node → other < count)
    (inside : node < count) :
    IsGreatest {length | Chain deps node length} ((levelOf deps count node).getD 0) := by
  induction height : rank node using Nat.strong_induction_on generalizing node with
  | _ height ih =>
    subst height
    obtain ⟨level, found, settled, below⟩ := levelOf_spec acyclic closed inside
    have greatest (other : Nat) (isDep : some other ∈ deps node) :
        IsGreatest {length | Chain deps other length} ((levelOf deps count other).getD 0) :=
      ih _ (acyclic node other isDep) (closed node inside other isDep) rfl
    rw [found, Option.getD_some, ← settled]
    constructor
    · rcases foldl_max_eq ((deps node).map fun dep => (dep.bind (levelOf deps count)).getD 0 + 1)
        0 with zero | mem
      · rw [settledLevel, zero]
        exact .stop node
      · obtain ⟨dep, isDep, isLevel⟩ := List.mem_map.mp mem
        rw [settledLevel, ← isLevel]
        cases dep with
        | none => exact .unknown isDep
        | some other => exact .link isDep (greatest other isDep).1
    · rintro length chain
      cases chain with
      | stop => exact Nat.zero_le _
      | unknown isDep => exact le_foldl_max (.inr (List.mem_map.mpr ⟨none, isDep, rfl⟩))
      | @link _ other length isDep rest =>
        refine le_trans (Nat.succ_le_succ ((greatest other isDep).2 rest)) ?_
        exact le_foldl_max (.inr (List.mem_map.mpr ⟨some other, isDep, rfl⟩))

theorem exists_rank (closed : ∀ node other, some other ∈ deps node → other < count)
    (acyclic : ∀ node, ¬Relation.TransGen (fun node other => some other ∈ deps node) node node) :
    ∃ rank : Nat → Nat, ∀ node other, some other ∈ deps node → rank other < rank node := by
  classical
  let reached (node : Nat) : Finset Nat :=
    (Finset.range count).filter (Relation.TransGen (fun node other => some other ∈ deps node) node)
  refine ⟨fun node => (reached node).card, fun node other isDep => Finset.card_lt_card ?_⟩
  refine Finset.ssubset_iff_of_subset ?_ |>.mpr ⟨other, ?_, ?_⟩
  · intro next mem
    obtain ⟨inside, path⟩ := Finset.mem_filter.mp mem
    exact Finset.mem_filter.mpr ⟨inside, path.head isDep⟩
  · grind
  · intro mem
    exact acyclic other (Finset.mem_filter.mp mem).2

end Acyclic

end Levels

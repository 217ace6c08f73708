import Mathlib.Data.List.Induction
import Mathlib.Order.WithBot

/-! The newest of a list of timed items. -/

namespace Newest

variable {α τ : Type*} [LinearOrder τ] (time : α → τ)

def newer (held : Option α) (item : α) : Option α :=
  match held with
  | none => some item
  | some old => if time old ≤ time item then some item else some old

def newest (items : List α) : Option α :=
  items.foldl (newer time) none

def latest (held : Option α) : WithBot τ :=
  held.elim ⊥ fun item => (time item : WithBot τ)

variable {time} {items others : List α} {item : α} {held : Option α}

theorem newest_snoc (items : List α) (item : α) :
    newest time (items ++ [item]) = newer time (newest time items) item := by
  rw [newest, List.foldl_append]
  rfl

theorem newest_filterMap_snoc {β : Type*} (stamp : β → Option α) (items : List β) (last : β) :
    newest time ((items ++ [last]).filterMap stamp) =
      (stamp last).elim (newest time (items.filterMap stamp))
        (newer time (newest time (items.filterMap stamp))) := by
  grind [newest_snoc]

@[simp] theorem newest_nil : newest time [] = none := rfl

@[simp] theorem newest_singleton : newest time [item] = some item := rfl

omit [LinearOrder τ] in
@[simp] theorem latest_none : latest time none = ⊥ := rfl

omit [LinearOrder τ] in
@[simp] theorem latest_some : latest time (some item) = (time item : WithBot τ) := rfl

theorem newer_eq :
    newer time held item = if latest time held ≤ (time item : WithBot τ) then some item
      else held := by
  cases held with
  | none => simp [newer]
  | some old => simp [newer]

theorem latest_newer : latest time (newer time held item) =
    max (latest time held) (time item : WithBot τ) := by
  grind [newer_eq, latest_some]

theorem newest_eq_none_iff : newest time items = none ↔ items = [] := by
  induction items using List.reverseRecOn with
  | nil => simp
  | append_singleton items item ih =>
    rw [newest_snoc, newer_eq]
    split
    · simp
    · rename_i older
      have some : newest time items ≠ none := fun none => older (by simp [none])
      simp [some]

theorem newest_spec (found : newest time items = some item) :
    item ∈ items ∧ ∀ other ∈ items, time other ≤ time item := by
  induction items using List.reverseRecOn generalizing item with
  | nil => cases found
  | append_singleton items last ih =>
    rw [newest_snoc, newer_eq] at found
    split at found
    · rename_i order
      cases found
      refine ⟨by simp, fun other mem => ?_⟩
      rcases List.mem_append.mp mem with old | same
      · cases pre : newest time items with
        | none => simp [newest_eq_none_iff.mp pre] at old
        | some held =>
          rw [pre, latest_some, WithBot.coe_le_coe] at order
          exact le_trans ((ih pre).2 other old) order
      · rw [List.mem_singleton.mp same]
    · rename_i older
      obtain ⟨mem, bound⟩ := ih found
      refine ⟨List.mem_append_left _ mem, fun other inside => ?_⟩
      rcases List.mem_append.mp inside with old | same
      · exact bound other old
      · rw [found, latest_some, WithBot.coe_le_coe, not_le] at older
        rw [List.mem_singleton.mp same]
        exact le_of_lt older

theorem newest_filterMap {β : Type*} {itemTime : β → τ} {stamp : β → Option α}
    (timed : ∀ item mark, stamp item = some mark → time mark = itemTime item) (items : List β) :
    newest time (items.filterMap stamp) =
      (newest itemTime (items.filter fun item => (stamp item).isSome)).bind stamp := by
  induction items using List.reverseRecOn with
  | nil => rfl
  | append_singleton items item ih =>
    rw [newest_filterMap_snoc, List.filter_append]
    cases stamped : stamp item with
    | none => simp [stamped, ih]
    | some mark =>
      have sameTime : latest time (newest time (items.filterMap stamp)) =
          latest itemTime (newest itemTime (items.filter fun item => (stamp item).isSome)) := by
        rw [ih]
        cases found : newest itemTime (items.filter fun item => (stamp item).isSome) with
        | none => rfl
        | some held =>
          obtain ⟨heldMark, isMark⟩ := Option.isSome_iff_exists.mp
            (List.mem_filter.mp (newest_spec found).1).2
          simp [isMark, timed held heldMark isMark]
      grind [newer_eq, newest_snoc]

theorem le_latest_newest (mem : item ∈ items) :
    (time item : WithBot τ) ≤ latest time (newest time items) := by
  cases found : newest time items with
  | none => simp [newest_eq_none_iff.mp found] at mem
  | some held => exact WithBot.coe_le_coe.mpr ((newest_spec found).2 item mem)

theorem latest_newest_lt_iff {bound : τ} :
    latest time (newest time items) < (bound : WithBot τ) ↔ ∀ item ∈ items, time item < bound := by
  constructor
  · intro below item mem
    exact WithBot.coe_lt_coe.mp ((le_latest_newest mem).trans_lt below)
  · intro below
    cases found : newest time items with
    | none => exact WithBot.bot_lt_coe bound
    | some item => exact WithBot.coe_lt_coe.mpr (below item (newest_spec found).1)

theorem newest_congr (dist : ∀ left ∈ others, ∀ right ∈ others, time left = time right →
    left = right)
    (included : ∀ item ∈ items, item ∈ others)
    (dominated : ∀ other ∈ others, ∃ item ∈ items, time other ≤ time item) :
    newest time items = newest time others := by
  cases found : newest time items with
  | none =>
    rw [newest_eq_none_iff.mp found] at dominated
    cases others with
    | nil => rfl
    | cons other others => simpa using dominated other List.mem_cons_self
  | some item =>
    obtain ⟨mem, bound⟩ := newest_spec found
    cases same : newest time others with
    | none =>
      have inside := included item mem
      simp [newest_eq_none_iff.mp same] at inside
    | some other =>
      obtain ⟨otherMem, otherBound⟩ := newest_spec same
      grind

end Newest

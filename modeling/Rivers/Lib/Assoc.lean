import Mathlib.Data.List.Induction
import Mathlib.Data.List.Nodup
import Mathlib.Data.List.Perm.Basic

/-! Association lists in order of arrival. -/

namespace Assoc

variable {κ β α : Type} [DecidableEq κ]

theorem lookup_eq_some_iff_mem {entries : List (κ × β)} (nodup : (entries.map (·.1)).Nodup)
    {key : κ} {value : β} :
    entries.lookup key = some value ↔ (key, value) ∈ entries := by
  grind [List.lookup_eq_some_iff, List.append_of_mem]

theorem map_find?_eq_some_iff_mem {entries : List (κ × β)} (nodup : (entries.map (·.1)).Nodup)
    {key : κ} {value : β} :
    (entries.find? fun entry => entry.1 = key).map (·.2) = some value ↔ (key, value) ∈ entries := by
  grind [Option.map_eq_some_iff, List.find?_isSome, Option.isSome_iff_exists,
    List.inj_on_of_nodup_map]

section Pairs

variable {left : List α} {right : List β} {related : α → β → Prop}

theorem exists_left_of_forall₂ (pairs : List.Forall₂ related left right) {item : β}
    (mem : item ∈ right) :
    ∃ other ∈ left, related other item := by
  induction pairs with
  | nil => cases mem
  | cons first _ ih => grind

theorem exists_right_of_forall₂ (pairs : List.Forall₂ related left right) {item : α}
    (mem : item ∈ left) :
    ∃ other ∈ right, related item other :=
  exists_left_of_forall₂ pairs.flip mem

theorem map_eq_of_forall₂ {γ : Type} {leftKey : α → γ} {rightKey : β → γ}
    (same : ∀ item other, related item other → leftKey item = rightKey other)
    (pairs : List.Forall₂ related left right) : left.map leftKey = right.map rightKey := by
  induction pairs with
  | nil => rfl
  | cons first _ ih => rw [List.map_cons, List.map_cons, ih, same _ _ first]

end Pairs

def upsert (key : κ) (update : Option β → β) : List (κ × β) → List (κ × β)
  | [] => [(key, update none)]
  | entry :: rest =>
      if entry.1 = key then (key, update (some entry.2)) :: rest else entry ::
        upsert key update rest

variable {key : κ} {update : Option β → β} {entries : List (κ × β)}

theorem mem_keys_upsert {other : κ} :
    other ∈ (upsert key update entries).map (·.1) ↔ other ∈ entries.map (·.1) ∨ other = key := by
  induction entries with
  | nil => simp [upsert]
  | cons entry rest ih => grind [upsert]

theorem nodup_upsert (nodup : (entries.map (·.1)).Nodup) :
    ((upsert key update entries).map (·.1)).Nodup := by
  induction entries with
  | nil => simp [upsert]
  | cons entry rest ih => grind [mem_keys_upsert, upsert]

theorem forall_upsert {valid : κ → β → Prop} (old : ∀ entry ∈ entries, valid entry.1 entry.2)
    (fresh : valid key (update none)) (changed : ∀ value, valid key value →
      valid key (update (some value))) :
    ∀ entry ∈ upsert key update entries, valid entry.1 entry.2 := by
  induction entries with
  | nil => simpa [upsert] using fresh
  | cons entry rest ih => grind [upsert]

theorem mem_upsert_self (value : β) : (key, value) ∈ upsert key (fun _ => value) entries := by
  induction entries with
  | nil => exact List.mem_singleton.mpr rfl
  | cons entry rest ih =>
    unfold upsert
    split
    · exact List.mem_cons_self
    · exact List.mem_cons_of_mem _ ih

theorem mem_upsert_of_ne {entry : κ × β} (mem : entry ∈ entries) (other : entry.1 ≠ key) :
    entry ∈ upsert key update entries := by
  induction entries with
  | nil => cases mem
  | cons first rest ih => grind [upsert]

theorem of_mem_upsert {entry : κ × β} (nodup : (entries.map (·.1)).Nodup)
    (mem : entry ∈ upsert key update entries) :
    entry ∈ entries ∧ entry.1 ≠ key ∨ ∃ old, entry = (key, update old) := by
  induction entries with
  | nil => exact .inr ⟨none, List.mem_singleton.mp mem⟩
  | cons first rest ih => grind [upsert]

theorem filter_upsert {selects : κ × β → Bool} (never : ∀ value, selects (key, value) = false) :
    (upsert key update entries).filter selects = entries.filter selects := by
  induction entries with
  | nil => simp [upsert, never]
  | cons entry rest ih => grind [upsert]

section Group

variable (keyOf : α → κ)

def group (items : List α) : List (κ × List α) :=
  items.foldl (fun groups item => upsert (keyOf item) (fun old => old.getD [] ++ [item]) groups) []

variable {keyOf}

theorem flatMap_upsert_perm (groups : List (κ × List α)) (key : κ) (item : α) :
    ((upsert key (fun old => old.getD [] ++ [item]) groups).flatMap (·.2)).Perm
      (groups.flatMap (·.2) ++ [item]) := by
  induction groups with
  | nil => simp [upsert]
  | cons entry rest ih =>
    unfold upsert
    split
    · grind [List.perm_append_comm]
    · simp only [List.flatMap_cons, List.append_assoc]
      exact ih.append_left entry.2

structure Grouped (keyOf : α → κ) (items : List α) (groups : List (κ × List α)) : Prop where
  perm : (groups.flatMap (·.2)).Perm items
  keyed : ∀ entry ∈ groups, ∀ item ∈ entry.2, keyOf item = entry.1
  distinct : (groups.map (·.1)).Nodup

theorem Grouped.push {items : List α} {groups : List (κ × List α)}
    (grouped : Grouped keyOf items groups) (item : α) :
    Grouped keyOf (items ++ [item])
      (upsert (keyOf item) (fun old => old.getD [] ++ [item]) groups) := by
  refine ⟨(flatMap_upsert_perm groups _ item).trans (grouped.perm.append_right [item]), ?_,
    nodup_upsert grouped.distinct⟩
  refine @forall_upsert _ _ _ _ _ _ (fun key items => ∀ item ∈ items, keyOf item = key)
    grouped.keyed (by simp) ?_
  grind

theorem grouped_group (items : List α) : Grouped keyOf items (group keyOf items) := by
  induction items using List.reverseRecOn with
  | nil => exact ⟨by simp [group], by simp [group], by simp [group]⟩
  | append_singleton items item ih =>
    rw [group, List.foldl_append]
    exact ih.push item

omit [DecidableEq κ] in
theorem Grouped.same_group_iff {items : List α} {groups : List (κ × List α)}
    (grouped : Grouped keyOf items groups) {left right : α} (leftMember : left ∈ items)
    (rightMember : right ∈ items) :
    (∃ entry ∈ groups, left ∈ entry.2 ∧ right ∈ entry.2) ↔ keyOf left = keyOf right := by
  constructor
  · rintro ⟨entry, member, inLeft, inRight⟩
    rw [grouped.keyed entry member left inLeft, grouped.keyed entry member right inRight]
  · intro same
    obtain ⟨entry, member, inLeft⟩ := List.mem_flatMap.mp (grouped.perm.mem_iff.mpr leftMember)
    obtain ⟨other, otherMember, inRight⟩ := List.mem_flatMap.mp (grouped.perm.mem_iff.mpr rightMember)
    have sameKey : entry.1 = other.1 := by
      rw [← grouped.keyed entry member left inLeft, same, grouped.keyed other otherMember right inRight]
    have sameEntry : entry = other := List.inj_on_of_nodup_map grouped.distinct member otherMember sameKey
    exact ⟨entry, member, inLeft, sameEntry ▸ inRight⟩

end Group

end Assoc

import Mathlib.Data.Finset.Card

/-! A set that keeps the order in which its items came in. -/

structure OrderSet (α : Type) where
  items : List α
  nodup : items.Nodup

namespace OrderSet

variable {α : Type} [DecidableEq α] {set : OrderSet α} {item other : α}

def empty : OrderSet α :=
  ⟨[], List.nodup_nil⟩

def insert (set : OrderSet α) (item : α) : OrderSet α × Bool :=
  if known : item ∈ set.items then (set, false)
  else (⟨set.items.concat item, List.Nodup.concat known set.nodup⟩, true)

def ofList (items : List α) : OrderSet α :=
  items.foldl (fun set item => (set.insert item).1) empty

theorem mem_insert : other ∈ (set.insert item).1.items ↔ other ∈ set.items ∨ other = item := by
  grind [insert]

theorem insert_unchanged (same : (set.insert item).2 = false) : (set.insert item).1 = set := by
  grind [insert]

theorem mem_foldl_insert (items : List α) :
    other ∈ (items.foldl (fun set item => (set.insert item).1) set).items ↔ other ∈ set.items ∨
    other ∈ items := by
  induction items generalizing set with
  | nil => simp
  | cons item items ih => rw [List.foldl_cons, ih, mem_insert, List.mem_cons, or_assoc]

theorem mem_ofList {items : List α} : item ∈ (ofList items).items ↔ item ∈ items := by
  rw [ofList, mem_foldl_insert]
  simp [empty]

theorem card_eq (set : OrderSet α) : set.items.toFinset.card = set.items.length :=
  List.toFinset_card_of_nodup set.nodup

end OrderSet

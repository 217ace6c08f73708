import Rivers.Condition.PartitionCore

/-! Selections as sets of keys. -/

namespace Rivers.PartitionSelection

open PartitionSelection

variable (left right selection : PartitionSelection) (key : PartitionKey)

@[simp] theorem covers_all : all.covers key = true := rfl

@[simp] theorem covers_empty : empty.covers key = false := rfl

@[simp] theorem covers_keys (sel : Finset PartitionKey) :
    (keys sel).covers key = decide (key ∈ sel) := rfl

@[simp] theorem covers_fromKeys (sel : Finset PartitionKey) :
    (fromKeys sel).covers key = decide (key ∈ sel) := by
  unfold fromKeys
  split
  · rename_i none
    simp [none]
  · rfl

@[simp] theorem covers_fromBool (value : Bool) : (fromBool value).covers key = value := by
  cases value <;> rfl

@[simp] theorem covers_union : (left.union right).covers key =
    (left.covers key || right.covers key) := by
  cases left <;> cases right <;> simp [union]

@[simp] theorem covers_intersect :
    (left.intersect right).covers key = (left.covers key && right.covers key) := by
  cases left <;> cases right <;> simp [intersect]

theorem covers_complement {allKeys} (live : key ∈ allKeys) :
    (selection.complement allKeys).covers key = !selection.covers key := by
  cases selection with
  | all => rfl
  | empty =>
    simp only [complement]
    split
    · rename_i none
      simp [none] at live
    · simp [live]
  | keys sel => simp [complement, live]

theorem covers_difference {allKeys} (live : key ∈ allKeys) :
    (left.difference right allKeys).covers key = (left.covers key && !right.covers key) := by
  cases left <;> cases right <;> simp [difference, complement, live]

theorem covers_restrictTo {allKeys} (live : key ∈ allKeys) :
    (selection.restrictTo allKeys).covers key = selection.covers key := by
  cases selection <;> simp [restrictTo, live]

theorem covers_of_isEmpty (empty : selection.isEmpty = true) : selection.covers key = false := by
  cases selection with
  | all => simp [isEmpty] at empty
  | empty => rfl
  | keys sel => simp_all [isEmpty]

theorem covers_of_isAll (all : selection.isAll = true) : selection.covers key = true := by
  cases selection <;> simp_all [isAll]

end Rivers.PartitionSelection

import Mathlib.Algebra.BigOperators.Group.List.Basic
import Mathlib.Tactic.Ring

/-! Counting with one limit per digit. -/

namespace Odometer

def advance : (limits digits : List Nat) → Option (List Nat)
  | limit :: limits, digit :: digits =>
      match advance limits digits with
      | some next => some (digit :: next)
      | none => if digit + 1 < limit then some ((digit + 1) :: digits.map fun _ => 0) else none
  | _, _ => none

def readings (limits : List Nat) : (fuel : Nat) → (digits : List Nat) → List (List Nat)
  | 0, _ => []
  | fuel + 1, digits =>
      digits :: match advance limits digits with
        | none => []
        | some next => readings limits fuel next

def all (limits : List Nat) : List (List Nat) :=
  readings limits limits.prod (limits.map fun _ => 0)

def Within (limits digits : List Nat) : Prop :=
  List.Forall₂ (fun digit limit => digit < limit) digits limits

def value : (limits digits : List Nat) → Nat
  | _ :: limits, digit :: digits => digit * limits.prod + value limits digits
  | _, _ => 0

variable {limits digits other : List Nat}

theorem value_zeros (limits : List Nat) {α : Type} (digits : List α) :
    value limits (digits.map fun _ => 0) = 0 := by
  induction digits generalizing limits with
  | nil => cases limits <;> rfl
  | cons digit digits ih =>
    cases limits with
    | nil => rfl
    | cons limit limits => simp only [List.map_cons, value, ih, Nat.zero_mul]

theorem value_lt (within : Within limits digits) : value limits digits < limits.prod := by
  induction within with
  | nil => simp [value]
  | @cons digit limit digits limits below _ ih =>
    rw [value, List.prod_cons]
    calc digit * limits.prod + value limits digits
        < (digit + 1) * limits.prod := by rw [Nat.add_mul]; omega
      _ ≤ limit * limits.prod := Nat.mul_le_mul_right _ below

theorem value_inj (within : Within limits digits) (otherWithin : Within limits other)
    (same : value limits digits = value limits other) : digits = other := by
  induction within generalizing other with
  | nil => cases otherWithin; rfl
  | @cons digit limit digits limits below within ih =>
    cases otherWithin with
    | @cons otherDigit _ others _ otherBelow otherWithin =>
      simp only [value] at same
      have bound := value_lt within
      have otherBound := value_lt otherWithin
      have positive : 0 < limits.prod := by omega
      have sameDigit : digit = otherDigit := by
        have quotient := congrArg (· / limits.prod) same
        simpa [Nat.mul_comm _ limits.prod, Nat.mul_add_div positive, Nat.div_eq_of_lt bound,
          Nat.div_eq_of_lt otherBound] using quotient
      subst sameDigit
      rw [ih otherWithin (by omega)]

theorem within_zeros (within : Within limits digits) : Within limits (digits.map fun _ => 0) := by
  induction within with
  | nil => exact .nil
  | cons below _ ih => exact .cons (Nat.zero_lt_of_lt below) ih

theorem advance_spec (within : Within limits digits) :
    match advance limits digits with
    | none => value limits digits + 1 = limits.prod
    | some next => Within limits next ∧ value limits next = value limits digits + 1 := by
  induction within with
  | nil => simp [advance, value]
  | @cons digit limit digits limits below within ih =>
    unfold advance
    cases step : advance limits digits with
    | some next =>
      rw [step] at ih
      exact ⟨.cons below ih.1, by simp only [value]; omega⟩
    | none =>
      rw [step] at ih
      by_cases room : digit + 1 < limit
      · simp only [room, if_true]
        refine ⟨.cons room (within_zeros within), ?_⟩
        simp only [value, value_zeros, Nat.add_mul]
        omega
      · simp only [room, if_false]
        have last : limit = digit + 1 := by omega
        simp only [value, List.prod_cons, last, Nat.add_mul]
        omega

theorem mem_readings (within : Within limits digits) (fuel : Nat)
    (enough : limits.prod ≤ value limits digits + fuel) :
    other ∈ readings limits fuel digits ↔ Within limits other ∧ value limits digits ≤
      value limits other := by
  induction fuel generalizing digits with
  | zero =>
    have := value_lt within
    omega
  | succ fuel ih =>
    unfold readings
    rw [List.mem_cons]
    have spec := advance_spec within
    have split : (Within limits other ∧ value limits digits ≤ value limits other) ↔
        other = digits ∨ Within limits other ∧ value limits digits + 1 ≤ value limits other := by
      grind [value_inj]
    rw [split]
    refine or_congr_right ?_
    cases step : advance limits digits with
    | none =>
      rw [step] at spec
      simp only [List.not_mem_nil, false_iff, not_and]
      intro otherWithin after
      have := value_lt otherWithin
      omega
    | some next =>
      rw [step] at spec
      rw [← spec.2]
      exact ih spec.1 (by omega)

theorem mem_all (positive : ∀ limit ∈ limits, 0 < limit) : other ∈ all limits ↔
    Within limits other := by
  have zeros : Within limits (limits.map fun _ => 0) := by
    induction limits with
    | nil => exact .nil
    | cons limit limits ih =>
      exact .cons (positive limit (List.mem_cons_self ..))
        (ih fun other mem => positive other (List.mem_cons_of_mem _ mem))
  rw [all, mem_readings zeros _ (by omega), value_zeros]
  simp

end Odometer

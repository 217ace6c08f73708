import Mathlib.Logic.Basic

/-! Computations that return a value or an error. -/

namespace Fallible

variable {ε α β : Type} {result : Except ε α} {output : β}

theorem map_eq_ok {f : α → β} : result.map f = .ok output ↔ ∃ input, result = .ok input ∧
    f input = output := by
  cases result with
  | error reason => simp [Except.map]
  | ok input => simp [Except.map]

theorem bind_eq_ok {next : α → Except ε β} :
    (result >>= next) = .ok output ↔ ∃ input, result = .ok input ∧ next input = .ok output := by
  cases result with
  | error reason => simp [bind, Except.bind]
  | ok input => simp [bind, Except.bind]

theorem forM_eq_ok {check : α → Except ε Unit} {items : List α}
    (passed : items.forM check = .ok ()) :
    ∀ item ∈ items, check item = .ok () := by
  induction items with
  | nil => simp
  | cons first items ih =>
    obtain ⟨_, firstPassed, restPassed⟩ := bind_eq_ok.mp passed
    exact List.forall_mem_cons.mpr ⟨firstPassed, ih restPassed⟩

end Fallible

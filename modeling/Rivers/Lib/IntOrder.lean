import Mathlib.Order.WithBot
import Mathlib.Data.Int.Order.Basic

/-! The order of the integers that computes. -/

namespace Rivers

instance intLinearOrder : LinearOrder Int :=
  Int.instLinearOrder

instance intPartialOrder : PartialOrder Int :=
  Int.instLinearOrder.toPartialOrder

instance intPreorder : Preorder Int :=
  Int.instLinearOrder.toPreorder

end Rivers

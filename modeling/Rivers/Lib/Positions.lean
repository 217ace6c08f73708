import Mathlib.Data.List.Nodup
import Mathlib.Logic.Function.Basic

/-! Buffers filled by the positions in a list. -/

namespace Positions

variable {β : Type*} (value : Nat → Nat → β)

def fill (nodes : List Nat) (buffer : Nat → β) : Nat → β :=
  nodes.zipIdx.foldl (fun buffer entry => Function.update buffer entry.1 (value entry.1 entry.2))
    buffer

variable {value} {nodes : List Nat} {node : Nat}

theorem foldl_update_of_notMem (absent : node ∉ nodes) (start : Nat) (buffer : Nat → β) :
    (nodes.zipIdx start).foldl (fun buffer entry => Function.update buffer entry.1
      (value entry.1 entry.2)) buffer
      node = buffer node := by
  induction nodes generalizing start buffer with
  | nil => rfl
  | cons other rest ih =>
    rw [List.zipIdx_cons, List.foldl_cons, ih (fun later => absent (.tail _ later)),
      Function.update_of_ne (List.ne_of_not_mem_cons absent)]

theorem foldl_update_of_mem (distinct : nodes.Nodup) (member : node ∈ nodes) (start : Nat)
    (buffer : Nat → β) :
    (nodes.zipIdx start).foldl (fun buffer entry => Function.update buffer entry.1
      (value entry.1 entry.2)) buffer
      node = value node (start + nodes.idxOf node) := by
  induction nodes generalizing start buffer with
  | nil => cases member
  | cons first rest ih =>
    obtain ⟨absent, restDistinct⟩ := List.nodup_cons.mp distinct
    rw [List.zipIdx_cons, List.foldl_cons]
    by_cases same : first = node
    · subst same
      rw [foldl_update_of_notMem absent, Function.update_self, List.idxOf_cons_self, Nat.add_zero]
    · rw [ih restDistinct ((List.mem_cons.mp member).resolve_left (Ne.symm same)),
        List.idxOf_cons_ne _ same]
      congr 1
      omega

theorem fill_eq (distinct : nodes.Nodup) (member : node ∈ nodes) (buffer : Nat → β) :
    fill value nodes buffer node = value node (nodes.idxOf node) := by
  rw [fill, foldl_update_of_mem distinct member, Nat.zero_add]

end Positions

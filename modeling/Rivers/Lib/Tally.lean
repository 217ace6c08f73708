import Rivers.Lib.FiniteMap

/-! Counting the items of a fold by a key of theirs. -/

namespace Tally

open FiniteMap

variable {σ ε κ : Type} [DecidableEq κ]

structure Counts (read : σ → κ → Option Nat) (step : σ → ε → σ) (keyOf : ε → κ) : Prop where
  each : ∀ state item key,
    read (step state item) key =
      if key = keyOf item then some ((read state key).getD 0 + 1) else read state key

variable {read : σ → κ → Option Nat} {step : σ → ε → σ} {keyOf : ε → κ}

theorem Counts.foldl (counts : Counts read step keyOf) (items : List ε) (state : σ) (key : κ) :
    read (items.foldl step state) key =
      if items.countP (keyOf · = key) = 0 then read state key
      else some ((read state key).getD 0 + items.countP (keyOf · = key)) := by
  induction items generalizing state with
  | nil => simp
  | cons item items ih => grind [Counts]

theorem Counts.getD_foldl (counts : Counts read step keyOf) (items : List ε) (state : σ) (key : κ) :
    (read (items.foldl step state) key).getD 0 = (read state key).getD 0 + items.countP
      (keyOf · = key) := by
  rw [counts.foldl]
  split
  · rename_i none
    rw [none, Nat.add_zero]
  · rw [Option.getD_some]

def bump (map : HashMap κ Nat) (key : κ) : HashMap κ Nat :=
  map.insert key ((map.lookup key).getD 0 + 1)

theorem lookup_bump (map : HashMap κ Nat) (key other : κ) :
    (bump map key).lookup other =
      if other = key then some ((map.lookup other).getD 0 + 1) else map.lookup other := by
  rw [bump, lookup_insert_ite]
  split
  · rename_i same
    rw [same]
  · rfl

variable {ν : Type} [DecidableEq ν]

def lookupIn (map : HashMap κ (HashMap ν Nat)) (key : κ) (value : ν) : Option Nat :=
  (map.lookup key).bind (·.lookup value)

def bumpIn (map : HashMap κ (HashMap ν Nat)) (key : κ) (value : ν) : HashMap κ (HashMap ν Nat) :=
  map.insert key (bump ((map.lookup key).getD ∅) value)

theorem lookupIn_bumpIn (map : HashMap κ (HashMap ν Nat)) (key : κ) (value : ν) (other : κ × ν) :
    lookupIn (bumpIn map key value) other.1 other.2 =
      if other = (key, value) then some ((lookupIn map other.1 other.2).getD 0 + 1)
      else lookupIn map other.1 other.2 := by
  obtain ⟨otherKey, otherValue⟩ := other
  simp only [lookupIn, bumpIn, lookup_insert_ite, Prod.mk.injEq]
  by_cases sameKey : otherKey = key
  · subst sameKey
    simp only [if_true, Option.bind_some, lookup_bump, true_and]
    cases map.lookup otherKey <;> simp
  · simp [sameKey]

end Tally

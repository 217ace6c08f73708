import Mathlib.Order.MinMax

/-! The floor that a sequence of attempts leaves. -/

namespace Floor

variable {ρ τ : Type} [LinearOrder τ] {time : ρ → τ} {fails clears : ρ → Prop}

def IsFloor (time : ρ → τ) (fails clears : ρ → Prop) (attempts : List ρ) : Option τ → Prop
  | none => ∀ failed ∈ attempts, fails failed →
      ∃ clear ∈ attempts, clears clear ∧ time failed ≤ time clear
  | some floor =>
      (∃ failed ∈ attempts, fails failed ∧ time failed = floor) ∧
        (∀ failed ∈ attempts, fails failed → time failed ≤ floor) ∧
        ∀ clear ∈ attempts, clears clear → time clear < floor

theorem IsFloor.unique {attempts : List ρ} {left right : Option τ}
    (first : IsFloor time fails clears attempts left)
    (second : IsFloor time fails clears attempts right) : left = right := by
  have apart : ∀ floor, IsFloor time fails clears attempts none →
      IsFloor time fails clears attempts (some floor) → False := by grind [IsFloor]
  cases left with
  | none =>
    cases right with
    | none => rfl
    | some floor => exact (apart floor first second).elim
  | some floor =>
    cases right with
    | none => exact (apart floor second first).elim
    | some other => grind [IsFloor]

theorem IsFloor.congr {attempts others : List ρ} {floor : Option τ} {fails₁ clears₁ : ρ → Prop}
    (isFloor : IsFloor time fails clears attempts floor)
    (sameFails : ∀ att, att ∈ others ∧ fails₁ att ↔ att ∈ attempts ∧ fails att)
    (sameClears : ∀ att, att ∈ others ∧ clears₁ att ↔ att ∈ attempts ∧ clears att) :
    IsFloor time fails₁ clears₁ others floor := by
  cases floor with
  | none => grind [IsFloor]
  | some floor => grind [IsFloor]

def add (failed : Option (τ × Bool)) (floor : Option τ) : Option τ :=
  match failed with
  | none => floor
  | some (time, true) => if floor.all (· ≤ time) then none else floor
  | some (time, false) => some (floor.elim time (max · time))

def remove (succeeded floor : Option τ) : Option τ :=
  match succeeded with
  | none => floor
  | some time => if floor.any (time < ·) then floor else none

def IsNewest (time : ρ → τ) (counts : ρ → Prop) (attempts : List ρ) : Option ρ → Prop
  | none => ∀ attempt ∈ attempts, ¬ counts attempt
  | some found =>
      found ∈ attempts ∧ counts found ∧ ∀ other ∈ attempts, counts other → time other ≤ time found

theorem isNewest_nil {counts : ρ → Prop} : IsNewest time counts [] none :=
  fun _ mem => absurd mem List.not_mem_nil

section Newest

variable {counts : ρ → Prop} {attempts : List ρ} {found : Option ρ} {next : ρ}

theorem IsNewest.skip (newest : IsNewest time counts attempts found) (other : ¬ counts next) :
    IsNewest time counts (attempts ++ [next]) found := by
  cases found with
  | none => grind [IsNewest]
  | some found => grind [IsNewest]

def newer (time : ρ → τ) (found : Option ρ) (next : ρ) : ρ :=
  found.elim next fun held => if time held < time next then next else held

theorem IsNewest.snoc (newest : IsNewest time counts attempts found) (isCounted : counts next) :
    IsNewest time counts (attempts ++ [next]) (some (newer time found next)) := by
  have last : next ∈ attempts ++ [next] := List.mem_append_right _ (List.mem_singleton_self next)
  cases found with
  | none => grind [newer, IsNewest]
  | some held => grind [IsNewest, newer]

theorem newer_newer : newer time (some (newer time found next)) next = newer time found next := by
  cases found with
  | none => simp [newer]
  | some held =>
    simp only [newer, Option.elim_some]
    split
    · simp
    · simp [*]

theorem time_newer (time : ρ → τ) (found : Option ρ) (next : ρ) :
    time (newer time found next) = (found.map time).elim (time next) (max (time next)) := by
  cases found with
  | none => rfl
  | some held => grind [newer]

end Newest

section Batch

variable {failure itself success : ρ → Prop} {earlier batch : List ρ} {floor : Option τ}

def ClearsEarly (clears failure itself : ρ → Prop) (earlier batch : List ρ) (attempt : ρ) : Prop :=
  attempt ∈ earlier ∧ clears attempt ∨ attempt ∈ batch ∧ failure attempt ∧ itself attempt

theorem add_none (isFloor : IsFloor time fails clears earlier floor)
    (failsIff : ∀ att, fails att ↔ failure att ∧ ¬ itself att)
    (quiet : IsNewest time failure batch none) :
    IsFloor time fails (ClearsEarly clears failure itself earlier batch) (earlier ++ batch)
      (add none floor) := by
  have old : ∀ failed ∈ earlier ++ batch, fails failed → failed ∈ earlier := by grind [IsNewest]
  cases floor with
  | none => grind [ClearsEarly, IsFloor, add]
  | some floor => grind [IsFloor, ClearsEarly, add, IsNewest]

theorem add_cleared (isFloor : IsFloor time fails clears earlier floor)
    (failsIff : ∀ att, fails att ↔ failure att ∧ ¬ itself att) {newest : ρ}
    (isNewest : IsNewest time failure batch (some newest)) (own : itself newest) :
    IsFloor time fails (ClearsEarly clears failure itself earlier batch) (earlier ++ batch)
      (add (some (time newest, true)) floor) := by
  obtain ⟨inBatch, isFailure, bound⟩ := isNewest
  have early : ClearsEarly clears failure itself earlier batch newest :=
    .inr ⟨inBatch, isFailure, own⟩
  have inAll : newest ∈ earlier ++ batch := List.mem_append_right _ inBatch
  have recent : ∀ failed ∈ batch, fails failed → time failed ≤ time newest :=
    fun failed mem fresh => bound failed mem ((failsIff failed).mp fresh).1
  cases floor with
  | none => grind [ClearsEarly, IsFloor, add]
  | some floor => grind [IsFloor, ClearsEarly, add]

theorem add_failed (isFloor : IsFloor time fails clears earlier floor)
    (failsIff : ∀ att, fails att ↔ failure att ∧ ¬ itself att) {newest : ρ}
    (isNewest : IsNewest time failure batch (some newest)) (own : ¬ itself newest)
    (inOrder : ∀ clear ∈ earlier, clears clear → time clear < time newest)
    (apart : ∀ other ∈ batch, failure other → itself other → time other ≠ time newest) :
    IsFloor time fails (ClearsEarly clears failure itself earlier batch) (earlier ++ batch)
      (add (some (time newest, false)) floor) := by
  obtain ⟨inBatch, isFailure, bound⟩ := isNewest
  have fresh : fails newest := (failsIff newest).mpr ⟨isFailure, own⟩
  have inAll : newest ∈ earlier ++ batch := List.mem_append_right _ inBatch
  have recent : ∀ failed ∈ batch, fails failed → time failed ≤ time newest :=
    fun failed mem fresh => bound failed mem ((failsIff failed).mp fresh).1
  have below : ∀ clear, ClearsEarly clears failure itself earlier batch clear →
      time clear < time newest := by grind [ClearsEarly]
  cases floor with
  | none => grind [IsFloor, add]
  | some floor => grind [IsFloor, add]

theorem remove_succeeded {attempts : List ρ} {early : ρ → Prop} {newest : Option ρ}
    (isFloor : IsFloor time fails early attempts floor)
    (clearsIff : ∀ att ∈ attempts, clears att ↔ early att ∨ success att)
    (isNewest : IsNewest time success attempts newest) :
    IsFloor time fails clears attempts (remove (newest.map time) floor) := by
  cases newest with
  | none =>
    have same : ∀ att ∈ attempts, clears att ↔ early att := fun att mem =>
      (clearsIff att mem).trans (or_iff_left (isNewest att mem))
    exact isFloor.congr (fun _ => Iff.rfl) fun att => and_congr_right (same att)
  | some last =>
    obtain ⟨inside, isSuccess, bound⟩ := isNewest
    have lastClears : clears last := (clearsIff last inside).mpr (.inr isSuccess)
    cases floor with
    | none => grind [IsFloor, remove]
    | some floor => grind [IsFloor, remove]

theorem IsFloor.append (isFloor : IsFloor time fails clears earlier floor)
    (failsIff : ∀ att, fails att ↔ failure att ∧ ¬ itself att)
    (clearsIff : ∀ att, clears att ↔ success att ∨ failure att ∧ itself att)
    (inOrder : ∀ failed ∈ batch, fails failed → ∀ clear ∈ earlier, clears clear →
      time clear < time failed)
    (apart : ∀ failed ∈ batch, fails failed → ∀ other ∈ batch, failure other → itself other →
      time other ≠ time failed) {failed succ : Option ρ} {flag : ρ → Bool}
    (flagIff : ∀ run ∈ failed, flag run ↔ itself run)
    (newestFailed : IsNewest time failure batch failed)
    (newestSucceeded : IsNewest time success batch succ) :
    IsFloor time fails clears (earlier ++ batch)
      (remove (succ.map time) (add (failed.map fun run => (time run, flag run)) floor)) := by
  have added : IsFloor time fails (ClearsEarly clears failure itself earlier batch)
      (earlier ++ batch) (add (failed.map fun run => (time run, flag run)) floor) := by
    cases failed with
    | none => exact add_none isFloor failsIff newestFailed
    | some newest => grind [add_cleared, add_failed, IsNewest]
  have late : IsNewest time (fun att => att ∈ batch ∧ success att) (earlier ++ batch)
      succ := by
    cases succ with
    | none => exact fun att _ counted => newestSucceeded att counted.1 counted.2
    | some last => grind [IsNewest]
  grind [remove_succeeded, ClearsEarly]

end Batch

end Floor

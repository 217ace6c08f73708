import Mathlib.Data.List.Basic

/-! Left folds that keep a view of their state, or an invariant of it. -/

namespace Fold

variable {σ β γ : Type}

theorem foldl_keeps_of_mem (view : σ → γ) (step : σ → β → σ) (items : List β)
    (keeps : ∀ state, ∀ item ∈ items, view (step state item) = view state) (state : σ) :
    view (items.foldl step state) = view state := by
  induction items generalizing state with
  | nil => rfl
  | cons item rest ih =>
    rw [List.foldl_cons, ih fun state later mem => keeps state later (List.mem_cons_of_mem _ mem)]
    exact keeps state item (List.mem_cons_self ..)

theorem foldl_keeps (view : σ → γ) (step : σ → β → σ)
    (keeps : ∀ state item, view (step state item) = view state) (items : List β) (state : σ) :
    view (items.foldl step state) = view state :=
  foldl_keeps_of_mem view step items (fun state item _ => keeps state item) state

theorem foldl_once [DecidableEq β] (view : σ → γ) (step : σ → β → σ) (key : β) (turn : γ → γ)
    (idem : ∀ seen, turn (turn seen) = turn seen)
    (each : ∀ state item, view (step state item) = if key = item then turn (view state)
      else view state)
    (items : List β) (state : σ) :
    view (items.foldl step state) = if key ∈ items then turn (view state) else view state := by
  induction items generalizing state with
  | nil => simp
  | cons item rest ih => grind

theorem foldl_invariant (inv : σ → Prop) (step : σ → β → σ) (items : List β)
    (keeps : ∀ state, ∀ item ∈ items, inv state → inv (step state item)) (state : σ)
    (holds : inv state) : inv (items.foldl step state) := by
  induction items generalizing state with
  | nil => exact holds
  | cons item rest ih => simp_all

theorem foldl_adds {ε : Type} (has : σ → ε → Prop) (adds : β → ε → Prop) (inv : σ → Prop)
    (step : σ → β → σ) (keeps : ∀ state item, inv state → inv (step state item))
    (each : ∀ state item entry, inv state → (has (step state item) entry ↔ has state entry ∨
      adds item entry))
    (items : List β) (state : σ) (holds : inv state) (entry : ε) :
    has (items.foldl step state) entry ↔ has state entry ∨ ∃ item ∈ items, adds item entry := by
  induction items generalizing state with
  | nil => simp
  | cons item rest ih => grind

section Latch

variable (on : σ → Prop) (sets clears : β → Prop) (step : σ → β → σ)
  (each : ∀ state item, on (step state item) ↔ sets item ∨ on state ∧ ¬ clears item)

include each

theorem foldl_latch_source (items : List β) (state : σ) (after : on (items.foldl step state)) :
    on state ∨ ∃ item ∈ items, sets item := by
  induction items generalizing state with
  | nil => exact .inl after
  | cons item rest ih => grind

theorem foldl_latch_on (items : List β) (state : σ) (kept : ∀ item ∈ items, ¬ clears item)
    (source : on state ∨ ∃ item ∈ items, sets item) : on (items.foldl step state) := by
  induction items generalizing state with
  | nil => simpa using source
  | cons item rest ih =>
    refine ih _ (fun later mem => kept later (List.mem_cons_of_mem item mem)) ?_
    rcases source with before | ⟨later, mem, isSet⟩
    · simp_all
    · grind

theorem foldl_latch_off (items : List β) (state : σ) (unset : ∀ item ∈ items, ¬ sets item)
    (source : ¬ on state ∨ ∃ item ∈ items, clears item) : ¬ on (items.foldl step state) := by
  induction items generalizing state with
  | nil => simpa using source
  | cons item rest ih =>
    have restUnset : ∀ later ∈ rest, ¬ sets later :=
      fun later mem => unset later (List.mem_cons_of_mem item mem)
    refine ih _ restUnset ?_
    rcases source with off | ⟨later, mem, isClear⟩
    · simp_all
    · grind

end Latch

end Fold

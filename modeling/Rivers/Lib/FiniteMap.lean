import Mathlib.Data.Finmap

/-! Finite maps with one value type, read through `lookup`. -/

namespace FiniteMap

abbrev HashMap (α β : Type) := Finmap fun _ : α => β

variable {α β γ : Type} [DecidableEq α]

def collect (candidates : Finset α) (value : α → Option β) : HashMap α β :=
  Finmap.keysLookupEquiv.symm
    ⟨(candidates.filter (fun key => (value key).isSome),
      fun key => if key ∈ candidates then value key else none), by
        intro key
        by_cases candidate : key ∈ candidates <;> simp [candidate]⟩

@[simp] theorem lookup_collect (candidates : Finset α) (value : α → Option β) (key : α) :
    (collect candidates value).lookup key = if key ∈ candidates then value key else none := by
  simp [collect]

theorem lookup_collect_eq (candidates : Finset α) (value : α → Option β) (key : α)
    (outside : key ∉ candidates → value key = none) :
    (collect candidates value).lookup key = value key := by simp_all

theorem lookup_insert_ite (map : HashMap α β) (key other : α) (value : β) :
    (map.insert key value).lookup other = if other = key then some value else map.lookup other := by
  by_cases same : other = key
  · subst same
    simp
  · simp [same]

theorem lookup_erase_ite (map : HashMap α β) (key other : α) :
    (map.erase key).lookup other = if other = key then none else map.lookup other := by
  by_cases same : other = key
  · subst same
    simp
  · simp [same]

theorem lookup_collect_keys (map : HashMap α β) (change : α → β → γ) (key : α) :
    (collect map.keys fun key => (map.lookup key).map (change key)).lookup key =
      (map.lookup key).map (change key) := by
  simp [Finmap.lookup_eq_none, Finmap.mem_keys]

def mapValues (map : HashMap α β) (f : β → γ) : HashMap α γ :=
  collect map.keys fun key => (map.lookup key).map f

@[simp] theorem lookup_mapValues (map : HashMap α β) (f : β → γ) (key : α) :
    (mapValues map f).lookup key = (map.lookup key).map f := by
  by_cases present : key ∈ map
  · simp [mapValues, Finmap.mem_keys, present]
  · have absent : map.lookup key = none := Finmap.lookup_eq_none.mpr present
    simp [mapValues, Finmap.mem_keys, present, absent]

def getD (map : HashMap α β) (key : α) (default : β) : β :=
  (map.lookup key).getD default

def extend (earlier later : HashMap α β) : HashMap α β :=
  later ∪ earlier

theorem lookup_extend (early later : HashMap α β) (key : α) :
    (extend early later).lookup key = (later.lookup key).or (early.lookup key) := by
  by_cases present : key ∈ later
  · obtain ⟨value, found⟩ := Finmap.mem_iff.mp present
    simp [extend, Finmap.lookup_union_left present, found]
  · have absent : later.lookup key = none := Finmap.lookup_eq_none.mpr present
    simp [extend, Finmap.lookup_union_right present, absent]

def retain (map : HashMap α β) (keep : α → β → Bool) : HashMap α β :=
  collect map.keys fun key => (map.lookup key).filter (keep key)

theorem lookup_retain (map : HashMap α β) (keep : α → β → Bool) (key : α) :
    (retain map keep).lookup key = (map.lookup key).filter (keep key) := by
  by_cases present : key ∈ map
  · simp [retain, Finmap.mem_keys, present]
  · have absent : map.lookup key = none := Finmap.lookup_eq_none.mpr present
    simp [retain, Finmap.mem_keys, present, absent]

theorem retain_empty (keep : α → β → Bool) : retain (∅ : HashMap α β) keep = ∅ := by
  apply Finmap.ext_lookup
  intro key
  simp [lookup_retain]

theorem mem_retain (map : HashMap α β) (keep : α → β → Bool) (key : α) :
    key ∈ retain map keep ↔ ∃ value, map.lookup key = some value ∧ keep key value := by
  rw [Finmap.mem_iff]
  simp only [lookup_retain, Option.filter_eq_some_iff]

omit [DecidableEq α] in
theorem notMem_of_keys_empty {map : HashMap α β} (empty : map.keys = ∅) (key : α) : key ∉ map := by
  intro member
  have present := Finmap.mem_keys.mpr member
  rw [empty] at present
  exact absurd present (Finset.notMem_empty key)

def insertAll (map : HashMap α β) (entries : List (α × β)) : HashMap α β :=
  entries.foldl (fun map entry => map.insert entry.1 entry.2) map

theorem mem_insertAll (map : HashMap α β) (ents : List (α × β)) (key : α) :
    key ∈ insertAll map ents ↔ key ∈ map ∨ ∃ value, (key, value) ∈ ents := by
  induction ents generalizing map with
  | nil => simp [insertAll]
  | cons entry rest ih =>
    have step := ih (map.insert entry.1 entry.2)
    grind [Finmap.mem_insert, insertAll]

theorem lookup_insertAll {map : HashMap α β} {ents : List (α × β)} {key : α} {value : β}
    (found : (insertAll map ents).lookup key = some value) :
    map.lookup key = some value ∨ (key, value) ∈ ents := by
  induction ents generalizing map with
  | nil => exact .inl found
  | cons entry rest ih =>
    rcases ih found with before | later
    · grind [lookup_insert_ite]
    · exact .inr (List.mem_cons_of_mem entry later)

end FiniteMap

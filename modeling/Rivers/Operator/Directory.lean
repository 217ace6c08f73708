import Rivers.Operator.CodeLocationCore

/-! The code location directory of `codelocation/directory.rs`. -/

namespace Rivers

open FiniteMap

structure EntryKey where
  ns : String
  name : String
  deriving DecidableEq, Repr

structure CodeLocationEntry where
  ns : String
  name : String
  grpcEndpoint : String
  image : String
  module : String
  phase : String
  observedGeneration : Int
  identity : String
  resolvedCommit : String
  resolvedRef : String
  deriving DecidableEq, Repr

inductive EntryEventType where
  | added
  | modified
  | deleted
  deriving DecidableEq, Repr

structure CodeLocationEvent where
  type : EntryEventType
  entry : CodeLocationEntry
  deriving DecidableEq, Repr

structure DirectoryState where
  entries : HashMap EntryKey CodeLocationEntry := ∅
  codeLocations : HashMap EntryKey CodeLocation := ∅
  sent : List CodeLocationEvent := []

inductive WatchEvent where
  | init
  | initApply (object : CodeLocation)
  | initDone
  | apply (object : CodeLocation)
  | delete (object : CodeLocation)
  | error
  deriving DecidableEq

def CodeLocation.key (object : CodeLocation) : EntryKey where
  ns := object.ns.getD ""
  name := object.name

def projectEntry (object : CodeLocation) : Option CodeLocationEntry :=
  object.status.bind fun status => object.ns.map fun ns =>
    { ns := ns
      name := object.name
      grpcEndpoint := status.grpcEndpoint.getD ""
      image := status.resolvedImage.getD ""
      module := object.spec.module
      phase := (status.phase.map CodeLocationPhase.asStr).getD "Unknown"
      observedGeneration := status.observedGeneration.getD 0
      identity := object.spec.identity
      resolvedCommit := status.resolvedCommit.getD ""
      resolvedRef := status.resolvedRef.getD "" }

namespace DirectoryState

variable (state : DirectoryState)

def upsert (entry : CodeLocationEntry) : DirectoryState :=
  let key : EntryKey := ⟨entry.ns, entry.name⟩
  match state.entries.lookup key with
  | some prior =>
      if prior = entry then state
      else
        { state with
          entries := state.entries.insert key entry
          sent := state.sent ++ [⟨.modified, entry⟩] }
  | none =>
      { state with
        entries := state.entries.insert key entry
        sent := state.sent ++ [⟨.added, entry⟩] }

def upsertCodeLocation (object : CodeLocation) : DirectoryState :=
  let cached := { state with codeLocations := state.codeLocations.insert object.key object }
  match projectEntry object with
  | some entry => cached.upsert entry
  | none => cached

def delete (key : EntryKey) : DirectoryState :=
  { entries := state.entries.erase key
    codeLocations := state.codeLocations.erase key
    sent := state.sent ++ ((state.entries.lookup key).map (⟨.deleted, ·⟩)).toList }

def watch : WatchEvent → DirectoryState
  | .apply object | .initApply object => state.upsertCodeLocation object
  | .delete object => state.delete object.key
  | .init | .initDone | .error => state

def runWatcher (events : List WatchEvent) : DirectoryState :=
  events.foldl watch state

end DirectoryState

def listingEvents (listing : List CodeLocation) : List WatchEvent :=
  .init :: listing.map .initApply ++ [.initDone]

def expectedObjects (listing : List CodeLocation) (later : List WatchEvent) :
    HashMap EntryKey CodeLocation :=
  later.foldl
    (fun objects event =>
      match event with
      | .apply object | .initApply object => objects.insert object.key object
      | .delete object => objects.erase object.key
      | .init | .initDone | .error => objects)
    (listing.foldl (fun objects object => objects.insert object.key object) ∅)

structure DirectoryState.Shows (state : DirectoryState) (objects : HashMap EntryKey CodeLocation) :
    Prop where
  cached : state.codeLocations = objects
  published : ∀ key, state.entries.lookup key = (objects.lookup key).bind projectEntry

namespace WatchEvent

def shown : WatchEvent → Option CodeLocation
  | .apply object | .initApply object => some object
  | .init | .initDone | .delete _ | .error => none

def Deletes (key : EntryKey) (event : WatchEvent) : Prop :=
  ∃ object, event = .delete object ∧ object.key = key

def ShowsKey (key : EntryKey) (event : WatchEvent) : Prop :=
  ∃ object, event.shown = some object ∧ object.key = key

def Publishes (key : EntryKey) (event : WatchEvent) : Prop :=
  ∃ object, event.shown = some object ∧ object.key = key ∧ (projectEntry object).isSome

end WatchEvent

def Outstanding (property : WatchEvent → Prop) (key : EntryKey) (history : List WatchEvent) :
    Prop :=
  ∃ before event after, history = before ++ event :: after ∧ property event ∧
    ∀ later ∈ after, ¬later.Deletes key

structure NothingMissed (earlier : List WatchEvent) (listing : List CodeLocation)
    (later : List WatchEvent) :
    Prop where
  listed : ∀ key, Outstanding (·.ShowsKey key) key earlier →
    (∃ object ∈ listing, object.key = key) ∨ ∃ event ∈ later, event.ShowsKey key ∨ event.Deletes key
  statuses : ∀ key object, (expectedObjects listing later).lookup key = some object →
    projectEntry object = none →
    ¬Outstanding (·.Publishes key) key (earlier ++ listingEvents listing ++ later)

section Keys

variable {key : EntryKey} {event : WatchEvent} {state : DirectoryState}

def stepAt {β : Type} (sets : CodeLocation → Option β) (key : EntryKey) (found : Option β) :
    WatchEvent → Option β
  | .apply object | .initApply object => if object.key = key then (sets object).or found else found
  | .delete object => if object.key = key then none else found
  | .init | .initDone | .error => found

theorem lookup_entries_upsert (entry : CodeLocationEntry) :
    (state.upsert entry).entries.lookup key =
      if key = ⟨entry.ns, entry.name⟩ then some entry else state.entries.lookup key := by
  grind [lookup_insert_ite, DirectoryState.upsert]

theorem key_of_projectEntry {object entry} (projected : projectEntry object = some entry) :
    (⟨entry.ns, entry.name⟩ : EntryKey) = object.key := by
  grind [Option.bind_eq_some_iff, Option.map_eq_some_iff, CodeLocation.key, projectEntry]

theorem lookup_codeLocations_watch :
    (state.watch event).codeLocations.lookup key =
      stepAt some key (state.codeLocations.lookup key) event := by
  have shown : ∀ object, (state.upsertCodeLocation object).codeLocations.lookup key =
      if object.key = key then some object else state.codeLocations.lookup key := by
    grind [lookup_insert_ite, DirectoryState.upsertCodeLocation, DirectoryState.upsert]
  cases event with
  | init | initDone | error => rfl
  | apply object | initApply object => exact (shown object).trans rfl
  | delete object =>
    refine (lookup_erase_ite _ _ _).trans ?_
    exact if_congr eq_comm rfl rfl

theorem lookup_entries_watch :
    (state.watch event).entries.lookup key = stepAt projectEntry key (state.entries.lookup key)
      event := by
  have shown : ∀ object, (state.upsertCodeLocation object).entries.lookup key =
      if object.key = key then (projectEntry object).or (state.entries.lookup key) else
        state.entries.lookup key := by
    grind [lookup_entries_upsert, key_of_projectEntry, DirectoryState.upsertCodeLocation]
  cases event with
  | init | initDone | error => rfl
  | apply object | initApply object => exact shown object
  | delete object =>
    refine (lookup_erase_ite _ _ _).trans ?_
    exact if_congr eq_comm rfl rfl

theorem lookup_codeLocations_runWatcher (events : List WatchEvent) :
    (state.runWatcher events).codeLocations.lookup key =
      events.foldl (stepAt some key) (state.codeLocations.lookup key) := by
  induction events generalizing state with
  | nil => rfl
  | cons event events ih =>
    rw [List.foldl_cons, ← lookup_codeLocations_watch]
    exact ih

theorem lookup_entries_runWatcher (events : List WatchEvent) :
    (state.runWatcher events).entries.lookup key =
      events.foldl (stepAt projectEntry key) (state.entries.lookup key) := by
  induction events generalizing state with
  | nil => rfl
  | cons event events ih =>
    rw [List.foldl_cons, ← lookup_entries_watch]
    exact ih

theorem lookup_expectedObjects (listing : List CodeLocation) (later : List WatchEvent) :
    (expectedObjects listing later).lookup key =
      (listingEvents listing ++ later).foldl (stepAt some key) none := by
  have listed : ∀ objects : HashMap EntryKey CodeLocation,
      (listing.foldl (fun objects object => objects.insert object.key object) objects).lookup key =
        (listing.map WatchEvent.initApply).foldl (stepAt some key) (objects.lookup key) := by
    induction listing with
    | nil => exact fun _ => rfl
    | cons object listing ih => grind [lookup_insert_ite, stepAt]
  have applied : ∀ objects : HashMap EntryKey CodeLocation,
      (later.foldl
        (fun objects event =>
          match event with
          | .apply object | .initApply object => objects.insert object.key object
          | .delete object => objects.erase object.key
          | .init | .initDone | .error => objects) objects).lookup key =
        later.foldl (stepAt some key) (objects.lookup key) := by
    induction later with
    | nil => exact fun _ => rfl
    | cons event later ih =>
      intro objects
      rw [List.foldl_cons, ih, List.foldl_cons]
      congr 1
      cases event with
      | init | initDone | error => rfl
      | apply object | initApply object =>
        refine (lookup_insert_ite _ _ _ _).trans ?_
        exact if_congr eq_comm rfl rfl
      | delete object =>
        refine (lookup_erase_ite _ _ _).trans ?_
        exact if_congr eq_comm rfl rfl
  rw [expectedObjects, applied, listed, listingEvents, List.foldl_append, List.foldl_append]
  rfl

theorem outstanding_nil {property} : ¬Outstanding property key [] := by
  rintro ⟨pre, event, after, isNil, _⟩
  cases pre <;> cases isNil

theorem outstanding_concat {property hist} :
    Outstanding property key (hist ++ [event]) ↔
      property event ∨ Outstanding property key hist ∧ ¬event.Deletes key := by
  constructor
  · rintro ⟨pre, found, after, split, holds, kept⟩
    cases after using List.reverseRecOn with
    | nil => simp_all
    | append_singleton after last _ => grind [List.append_inj', Outstanding]
  · grind [Outstanding]

theorem isSome_foldl_stepAt {β : Type} (sets : CodeLocation → Option β) (hist : List WatchEvent) :
    (hist.foldl (stepAt sets key) none).isSome = true ↔
      Outstanding (fun event => ∃ object, event.shown = some object ∧ object.key = key ∧
        (sets object).isSome) key
        hist := by
  induction hist using List.reverseRecOn with
  | nil => simp [outstanding_nil]
  | append_singleton hist event ih =>
    rw [outstanding_concat, ← ih, List.foldl_append, List.foldl_cons, List.foldl_nil]
    cases event with
    | init | initDone | error => simp [stepAt, WatchEvent.shown, WatchEvent.Deletes]
    | apply object | initApply object => grind [stepAt, WatchEvent.shown, WatchEvent.Deletes]
    | delete object => grind [stepAt, WatchEvent.shown, WatchEvent.Deletes]

theorem foldl_stepAt_of_touched {events : List WatchEvent}
    (touched : ∃ event ∈ events, event.ShowsKey key ∨ event.Deletes key)
    (found : Option CodeLocation) :
    events.foldl (stepAt some key) found = events.foldl (stepAt some key) none := by
  induction events generalizing found with
  | nil =>
    obtain ⟨_, mem, _⟩ := touched
    cases mem
  | cons event events ih =>
    obtain ⟨found', mem, touches⟩ := touched
    rcases List.mem_cons.mp mem with rfl | later
    · have settled : ∀ pre, stepAt some key pre found' = stepAt some key none found' := by
        intro pre
        rcases touches with ⟨object, isShown, rfl⟩ | ⟨object, rfl, rfl⟩
        · cases found' with
          | init | initDone | error | delete _ => cases isShown
          | apply shown | initApply shown =>
            cases isShown
            simp [stepAt]
        · simp [stepAt]
      rw [List.foldl_cons, List.foldl_cons, settled]
    · rw [List.foldl_cons, List.foldl_cons, ih ⟨found', later, touches⟩,
        ← ih ⟨found', later, touches⟩ (stepAt some key none event)]

theorem foldl_stepAt_of_untouched {events : List WatchEvent}
    (untouched : ¬∃ event ∈ events, event.ShowsKey key ∨ event.Deletes key)
    (found : Option CodeLocation) :
    events.foldl (stepAt some key) found = found := by
  induction events with
  | nil => rfl
  | cons event events ih =>
    have here : stepAt some key found event = found := by
      have apart : ¬(event.ShowsKey key ∨ event.Deletes key) := fun touches =>
        untouched ⟨event, List.mem_cons_self, touches⟩
      cases event with
      | init | initDone | error => rfl
      | apply object | initApply object =>
        exact if_neg fun same => apart (.inl ⟨object, rfl, same⟩)
      | delete object => exact if_neg fun same => apart (.inr ⟨object, rfl, same⟩)
    grind

theorem entry_of_cached (hist : List WatchEvent) :
    match hist.foldl (stepAt some key) none with
    | none => hist.foldl (stepAt projectEntry key) none = none
    | some object => (projectEntry object).isSome →
        hist.foldl (stepAt projectEntry key) none = projectEntry object := by
  induction hist using List.reverseRecOn with
  | nil => rfl
  | append_singleton hist event ih =>
    simp only [List.foldl_append, List.foldl_cons, List.foldl_nil]
    cases event with
    | init | initDone | error => exact ih
    | apply object | initApply object =>
      by_cases same : object.key = key
      · simp only [stepAt, if_pos same, Option.some_or]
        intro projected
        obtain ⟨entry, isEntry⟩ := Option.isSome_iff_exists.mp projected
        rw [isEntry, Option.some_or]
      · simp only [stepAt, if_neg same]
        exact ih
    | delete object =>
      by_cases same : object.key = key
      · simp only [stepAt, if_pos same]
      · simp only [stepAt, if_neg same]
        exact ih

theorem touched_listing {listing later} :
    (∃ event ∈ listingEvents listing ++ later, event.ShowsKey key ∨ event.Deletes key) ↔
      (∃ object ∈ listing, object.key = key) ∨ ∃ event ∈ later, event.ShowsKey key ∨
      event.Deletes key := by
  simp [listingEvents, WatchEvent.ShowsKey, WatchEvent.Deletes, WatchEvent.shown,
    or_and_right, exists_or]

end Keys

variable (earlier : List WatchEvent) (listing : List CodeLocation) (later : List WatchEvent)

def listedDirectory : DirectoryState :=
  DirectoryState.runWatcher {} (earlier ++ listingEvents listing ++ later)

variable {earlier listing later}

theorem lookup_codeLocations_listed (key : EntryKey) :
    (listedDirectory earlier listing later).codeLocations.lookup key =
      (listingEvents listing ++ later).foldl (stepAt some key)
        (earlier.foldl (stepAt some key) none) := by
  rw [listedDirectory, lookup_codeLocations_runWatcher, List.append_assoc, List.foldl_append]
  rfl

theorem cached_iff :
    (listedDirectory earlier listing later).codeLocations = expectedObjects listing later ↔
      ∀ key, Outstanding (·.ShowsKey key) key earlier →
        (∃ object ∈ listing, object.key = key) ∨ ∃ event ∈ later, event.ShowsKey key ∨
        event.Deletes key := by
  have outstanding : ∀ key, (earlier.foldl (stepAt some key) none).isSome = true ↔
      Outstanding (·.ShowsKey key) key earlier := by
    intro key
    rw [isSome_foldl_stepAt]
    simp only [Option.isSome_some, and_true]
    rfl
  constructor
  · intro same key seen
    rw [← touched_listing]
    by_contra untouched
    have here := @lookup_codeLocations_listed earlier listing later key
    grind [foldl_stepAt_of_untouched, lookup_expectedObjects]
  · intro listed
    refine Finmap.ext_lookup fun key => ?_
    rw [lookup_codeLocations_listed, lookup_expectedObjects]
    by_cases seen : Outstanding (·.ShowsKey key) key earlier
    · exact foldl_stepAt_of_touched (touched_listing.mpr (listed key seen)) _
    · rw [← outstanding, Option.not_isSome_iff_eq_none] at seen
      rw [seen]

theorem published_iff (key : EntryKey) :
    ((listedDirectory earlier listing later).entries.lookup key).isSome = true ↔
      Outstanding (·.Publishes key) key (earlier ++ listingEvents listing ++ later) := by
  rw [listedDirectory, lookup_entries_runWatcher]
  exact isSome_foldl_stepAt projectEntry _

theorem lookup_entries_listed (key : EntryKey) :
    match (listedDirectory earlier listing later).codeLocations.lookup key with
    | none => (listedDirectory earlier listing later).entries.lookup key = none
    | some object => (projectEntry object).isSome →
        (listedDirectory earlier listing later).entries.lookup key = projectEntry object := by
  rw [listedDirectory, lookup_codeLocations_runWatcher, lookup_entries_runWatcher]
  exact entry_of_cached _

/-- The directory shows a listing with the later events applied if and only if nothing was missed
before it. -/
theorem directory_shows_iff (earlier : List WatchEvent) (listing : List CodeLocation)
    (later : List WatchEvent) :
    (listedDirectory earlier listing later).Shows (expectedObjects listing later) ↔
      NothingMissed earlier listing later := by
  constructor
  · grind [cached_iff, published_iff, DirectoryState.Shows, NothingMissed]
  · rintro ⟨listed, statuses⟩
    have cached := cached_iff.mpr listed
    refine ⟨cached, fun key => ?_⟩
    have shown := @lookup_entries_listed earlier listing later key
    rw [cached] at shown
    cases found : (expectedObjects listing later).lookup key with
    | none =>
      rw [found] at shown
      exact shown
    | some object =>
      rw [found] at shown
      grind [Option.not_isSome_iff_eq_none, published_iff]

def servingObject : CodeLocation where
  ns := some "data"
  name := "analytics"
  spec := { identity := "id", image := some "ghcr.io/acme/analytics", module := "analytics" }
  status := some { phase := some .ready, resolvedImage := some "ghcr.io/acme/analytics@sha256:0" }

/-- A code location deleted while the watch was down is cached and published after the next listing.
-/
theorem deleted_while_down_shown :
    let state := listedDirectory (listingEvents [servingObject] ++ [.error]) [] []
    (expectedObjects [] []).lookup servingObject.key = none ∧
      state.codeLocations.lookup servingObject.key = some servingObject ∧
      state.entries.lookup servingObject.key = projectEntry servingObject ∧
      (projectEntry servingObject).isSome = true := by
  refine ⟨Finmap.lookup_empty _, ?_, ?_, by decide⟩
  · rw [lookup_codeLocations_listed]
    decide
  · rw [listedDirectory, lookup_entries_runWatcher]
    decide

end Rivers

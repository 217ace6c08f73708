import Rivers.Storage.RunQueueCore

/-! When the batch writes of the run queue are all or nothing. -/

namespace Rivers

open QueryFault Statement

def AllOrNothing (stored : RunStore → Prop) (before : RunStore)
    (result : Except StorageError Unit × RunStore) :
    Prop :=
  match result.1 with
  | .ok _ => stored result.2
  | .error _ => result.2 = before ∨ stored result.2

def RunStore.Enqueued (store : RunStore) (records : List (RunRow × String)) : Prop :=
  ∀ record ∈ records, record.1 ∈ store.runs ∧ ∃ row ∈ store.events, row.event =
    runQueuedEvent record.1

def RunStore.Created (store : RunStore) (runs : List RunRow) : Prop :=
  ∀ run ∈ runs, run ∈ store.runs

namespace QueryFault

def commits (statements : Nat) : QueryFault → Bool
  | .notExecuted _ => false
  | .executed failing conflict _ => !conflict && (List.range statements).all (· ∉ failing)

def surviving (failing : List Nat) : (index : Nat) → List RunRow → List RunRow
  | _, [] => []
  | index, run :: runs =>
      if index ∈ failing then surviving failing (index + 1) runs
      else run :: surviving failing (index + 1) runs

def attempted (runs : List RunRow) : QueryFault → List RunRow
  | .notExecuted _ => []
  | .executed failing _ _ => surviving failing 0 runs

end QueryFault

namespace Outage

variable (outage : Outage)

def made : List QueryFault :=
  outage.pattern.made outage.maxRetries 0

def last : QueryFault :=
  outage.faults (outage.pattern.lastAttempt outage.maxRetries 0)

def reportsSuccess : Bool :=
  match outage.last.answer with
  | .ok _ | .error .uniqueIndexViolation => true
  | .error _ => false

theorem withRetry_eq (effect : QueryFault → RunStore → RunStore) (store : RunStore) :
    outage.withRetry effect store =
      (outage.last.answer, outage.made.foldl (fun store fault => effect fault store) store) :=
  Retry.Pattern.run_eq

theorem allOrNothing_swallow (stored : RunStore → Prop) (before after : RunStore) :
    AllOrNothing stored before (swallowPhantomCommit (outage.last.answer, after)) ↔
      (outage.reportsSuccess = true → stored after) ∧
        (outage.reportsSuccess = false → after = before ∨ stored after) := by
  unfold reportsSuccess
  rcases outage.last.answer with error | value
  · cases error <;> simp [swallowPhantomCommit, AllOrNothing]
  · simp [swallowPhantomCommit, AllOrNothing]

end Outage

section Enqueue

variable {outage : Outage} {store before : RunStore} {records : List (RunRow × String)}
  {fault : QueryFault} {faults : List QueryFault}

def RunStore.New (store : RunStore) (records : List (RunRow × String)) : Prop :=
  newIds (records.map (·.1.runId)) (store.runs.map (·.runId)) = true ∧
    newIds (records.map (·.2)) (store.events.map (·.recordId)) = true

instance (store : RunStore) (records : List (RunRow × String)) : Decidable (store.New records) :=
  inferInstanceAs (Decidable (_ ∧ _))

def RunStore.enqueue (store : RunStore) (records : List (RunRow × String)) : RunStore :=
  { runs := store.runs ++ records.map (·.1)
    events := store.events ++ records.map fun record => ⟨record.2, runQueuedEvent record.1⟩ }

theorem RunStore.enqueued_enqueue (store : RunStore) (records : List (RunRow × String)) :
    (store.enqueue records).Enqueued records := by
  intro record mem
  refine ⟨List.mem_append_right _ (List.mem_map_of_mem mem), ⟨record.2, runQueuedEvent record.1⟩,
    ?_, rfl⟩
  exact List.mem_append_right _ (List.mem_map.mpr ⟨record, mem, rfl⟩)

theorem applyAll_enqueue (failing : List Nat) :
    applyAll failing 0 (enqueueStatements records) store =
      if (0 ∉ failing ∧ 1 ∉ failing) ∧ store.New records then some (store.enqueue records)
        else none := by
  simp only [enqueueStatements, applyAll, apply, List.map_map, Function.comp_def,
    RunStore.New, RunStore.enqueue]
  grind

theorem transaction_enqueue :
    fault.transaction (enqueueStatements records) store =
      if fault.commits 2 = true ∧ store.New records then store.enqueue records else store := by
  cases fault with
  | notExecuted error => simp [transaction, commits]
  | executed failing conflict lost => grind [applyAll_enqueue, transaction, commits]

def enqueueAttempts (records : List (RunRow × String)) (faults : List QueryFault)
    (store : RunStore) : RunStore :=
  faults.foldl (fun store fault => fault.transaction (enqueueStatements records) store) store

theorem enqueueAttempts_of_enqueued (enqueued : store.Enqueued records) :
    (enqueueAttempts records faults store).Enqueued records := by
  induction faults generalizing store with
  | nil => exact enqueued
  | cons fault faults ih =>
    refine ih ?_
    simp only [transaction_enqueue]
    split
    · exact store.enqueued_enqueue records
    · exact enqueued

theorem enqueueAttempts_of_never
    (never : ¬(store.New records ∧ ∃ fault ∈ faults, fault.commits 2 = true)) :
    enqueueAttempts records faults store = store := by
  induction faults with
  | nil => rfl
  | cons fault faults ih => grind [transaction_enqueue, enqueueAttempts]

theorem enqueueAttempts_of_commits (new : store.New records)
    (commits : ∃ fault ∈ faults, fault.commits 2 = true) :
    (enqueueAttempts records faults store).Enqueued records := by
  induction faults with
  | nil => simp at commits
  | cons fault faults ih =>
    rw [enqueueAttempts, List.foldl_cons, transaction_enqueue]
    by_cases now : fault.commits 2 = true
    · rw [if_pos ⟨now, new⟩]
      exact enqueueAttempts_of_enqueued (store.enqueued_enqueue records)
    · rw [if_neg fun both => now both.1]
      exact ih (by simpa [now] using commits)

def Outage.EnqueuesAll (outage : Outage) (store : RunStore) (records : List (RunRow × String)) :
    Prop :=
  store.Enqueued records ∨ (store.New records ∧ ∃ fault ∈ outage.made, fault.commits 2 = true)

theorem enqueueAttempts_enqueued_iff :
    (enqueueAttempts records outage.made store).Enqueued records ↔
    outage.EnqueuesAll store records := by
  grind [enqueueAttempts_of_commits, enqueueAttempts_of_never, Outage.EnqueuesAll, RunStore.New]

theorem enqueue_allOrNothing_iff :
    AllOrNothing (·.Enqueued records) store
        (swallowPhantomCommit (outage.withRetry (transaction (enqueueStatements records)) store)) ↔
      (outage.reportsSuccess = true → outage.EnqueuesAll store records) := by
  rw [Outage.withRetry_eq, Outage.allOrNothing_swallow, ← enqueueAttempts_enqueued_iff]
  refine ⟨fun both => both.1, fun success => ⟨success, fun _ => ?_⟩⟩
  by_cases committed : store.New records ∧ ∃ fault ∈ outage.made, fault.commits 2 = true
  · exact .inr (enqueueAttempts_of_commits committed.1 committed.2)
  · exact .inl (enqueueAttempts_of_never committed)

end Enqueue

section Create

variable {outage : Outage} {store : RunStore} {runs stored : List RunRow} {run : RunRow}
  {faults : List QueryFault}

def createRun (stored : List RunRow) (run : RunRow) : List RunRow :=
  if run.runId ∈ stored.map (·.runId) then stored else stored ++ [run]

theorem apply_insertRuns_singleton :
    ((insertRuns [run]).apply store).getD store =
      { store with runs := createRun store.runs run } := by
  have isNew : newIds [run.runId] (store.runs.map (·.runId)) =
    decide (run.runId ∉ store.runs.map (·.runId)) := by
    simp [newIds]
  simp only [apply, List.map_cons, List.map_nil, isNew, createRun, decide_eq_true_eq]
  by_cases old : run.runId ∈ store.runs.map (·.runId)
  · simp only [old, not_true_eq_false, if_false, if_true, Option.getD_none]
  · simp only [old, not_false_eq_true, if_true, if_false, Option.getD_some]

theorem applyEach_insertRuns (failing : List Nat) (index : Nat) :
    applyEach failing index (runs.map fun run => .insertRuns [run]) store =
      { store with runs := (surviving failing index runs).foldl createRun store.runs } := by
  induction runs generalizing index store with
  | nil => rfl
  | cons run runs ih =>
    rw [List.map_cons, Statement.applyEach, ih, QueryFault.surviving]
    split
    · rfl
    · rw [apply_insertRuns_singleton, List.foldl_cons]

def Outage.written (outage : Outage) (runs : List RunRow) : List RunRow :=
  outage.made.flatMap (attempted runs)

theorem foldl_query :
    faults.foldl (fun store fault => fault.query (runs.map fun run => .insertRuns [run]) store)
      store =
      { store with runs := (faults.flatMap (attempted runs)).foldl createRun store.runs } := by
  induction faults generalizing store with
  | nil => rfl
  | cons fault faults ih =>
    rw [List.foldl_cons, ih, List.flatMap_cons, List.foldl_append]
    cases fault with
    | notExecuted error => rfl
    | executed failing conflict lost => rw [query, applyEach_insertRuns, attempted]

theorem mem_foldl_createRun {written : List RunRow} :
    run ∈ written.foldl createRun stored ↔
      run ∈ stored ∨ (run.runId ∉ stored.map (·.runId) ∧
        written.find? (fun other => other.runId = run.runId) = some run) := by
  induction written generalizing stored with
  | nil => simp
  | cons first written ih =>
    rw [List.foldl_cons, ih, createRun, List.find?_cons]
    by_cases same : first.runId = run.runId
    · grind
    · grind

theorem mem_ids_foldl_createRun {written : List RunRow} {runId}
    (mem : runId ∈ stored.map (·.runId) ∨ runId ∈ written.map (·.runId)) :
    runId ∈ (written.foldl createRun stored).map (·.runId) := by
  induction written generalizing stored with
  | nil => simpa using mem
  | cons first written ih =>
    refine ih ?_
    grind [createRun]

theorem foldl_createRun_eq_self_iff {written : List RunRow} :
    written.foldl createRun stored = stored ↔ ∀ run ∈ written, run.runId ∈
      stored.map (·.runId) := by
  constructor
  · grind [mem_ids_foldl_createRun]
  · intro old
    induction written with
    | nil => rfl
    | cons first written ih => grind [createRun]

def Outage.CreatesAll (outage : Outage) (store : RunStore) (runs : List RunRow) : Prop :=
  ∀ run ∈ runs, run ∈ store.runs ∨ (run.runId ∉ store.runs.map (·.runId) ∧
    (outage.written runs).find? (fun other => other.runId = run.runId) = some run)

def Outage.CreatesNone (outage : Outage) (store : RunStore) (runs : List RunRow) : Prop :=
  ∀ run ∈ outage.written runs, run.runId ∈ store.runs.map (·.runId)

theorem create_allOrNothing_iff :
    AllOrNothing (·.Created runs) store
        (swallowPhantomCommit
          (outage.withRetry (query (runs.map fun run => .insertRuns [run])) store)) ↔
      (outage.reportsSuccess = true → outage.CreatesAll store runs) ∧
        (outage.reportsSuccess = false → outage.CreatesNone store runs ∨
          outage.CreatesAll store runs) := by
  have created : RunStore.Created { store with runs := (outage.written runs).foldl createRun store.runs } runs ↔
      outage.CreatesAll store runs := forall₂_congr fun run _ => mem_foldl_createRun
  have unchanged : { store with runs := (outage.written runs).foldl createRun store.runs } = store ↔
      outage.CreatesNone store runs := by
    rw [Outage.CreatesNone, ← foldl_createRun_eq_self_iff]
    exact ⟨congrArg RunStore.runs, fun same => by rw [same]⟩
  rw [Outage.withRetry_eq, Outage.allOrNothing_swallow, foldl_query]
  exact and_congr (imp_congr_right fun _ => created)
    (imp_congr_right fun _ => or_congr unchanged created)

end Create

/-- When the writes of the run queue are all or nothing, for every pattern of failures. -/
theorem runQueue_writes_allOrNothing_iff (outage : Outage) (store : RunStore) :
    (∀ record eventId, AllOrNothing (·.Enqueued [(record, eventId)]) store
        (enqueueRun outage store record eventId) ↔
      (outage.reportsSuccess = true → outage.EnqueuesAll store [(record, eventId)])) ∧
    (∀ records, AllOrNothing (·.Enqueued records) store (enqueueRuns outage store records) ↔
      (outage.reportsSuccess = true → outage.EnqueuesAll store records)) ∧
    (∀ runs, AllOrNothing (·.Created runs) store (createRuns outage store runs) ↔
      (outage.reportsSuccess = true → outage.CreatesAll store runs) ∧
        (outage.reportsSuccess = false → outage.CreatesNone store runs ∨
          outage.CreatesAll store runs)) := by
  refine ⟨fun record eventId => enqueue_allOrNothing_iff, fun records => ?_, fun runs => ?_⟩
  · unfold enqueueRuns
    split
    · rename_i empty
      subst empty
      exact iff_of_true (by simp [AllOrNothing, RunStore.Enqueued]) fun _ =>
        .inl (by simp [RunStore.Enqueued])
    · exact enqueue_allOrNothing_iff
  · unfold createRuns
    split
    · rename_i empty
      subst empty
      have all : outage.CreatesAll store [] := by simp [Outage.CreatesAll]
      exact iff_of_true (by simp [AllOrNothing, RunStore.Created]) ⟨fun _ => all, fun _ => .inr all⟩
    · exact create_allOrNothing_iff

section Unchecked

def nightlyRun (runId : String) : RunRow :=
  { runId, tags := [], priority := 0, startTime := 0, status := .queued }

def secondFails : Outage :=
  { maxRetries := 10, outOfTime := fun _ => false, faults := fun _ => .executed [1] false none }

/-- The calls report success: the enqueued run is not stored, and of the created runs only the first
is. -/
theorem failed_statement_unnoticed :
    enqueueRun secondFails ⟨[], []⟩ (nightlyRun "r1") "e1" = (.ok (), ⟨[], []⟩) ∧
    enqueueRuns secondFails ⟨[], []⟩ [(nightlyRun "r1", "e1"), (nightlyRun "r2", "e2")] =
      (.ok (), ⟨[], []⟩) ∧
    createRuns secondFails ⟨[], []⟩ [nightlyRun "r1", nightlyRun "r2"] =
      (.ok (), ⟨[nightlyRun "r1"], []⟩) := by
  decide +kernel

end Unchecked

end Rivers

import Rivers.Backfill.ExecutionCore
import Rivers.Backfill.Settlement

/-! How a backfill ends. -/

namespace Rivers

open BackfillStore GroupOutcome BackfillStatus

section Plan

def GroupOutcome.isRun : GroupOutcome → Bool
  | .ran _ _ _ _ _ => true
  | .linkRefused _ | .linkError | .launchError _ => false

/-- The row of the run is left as `Started`. -/
def GroupOutcome.leavesStarted : GroupOutcome → Bool
  | .launchError startedAt => startedAt.isSome
  | .linkRefused _ | .linkError | .ran _ _ _ _ _ => false

def GroupOutcome.isLinked : GroupOutcome → Bool
  | .ran _ _ _ _ _ | .launchError _ => true
  | .linkRefused _ | .linkError => false

def GroupOutcome.stops : GroupOutcome → Bool
  | .launchError _ => true
  | .ran _ _ cancelled succeeded _ => finalizeStatus cancelled succeeded ≠ .success
  | .linkRefused _ | .linkError => false

/-- The groups that the loop links or tries to, the groups it skips, and the cancellation that makes
a link be refused, if any. -/
structure LoopPlan where
  reached : List GroupStep := []
  skipped : List GroupStep := []
  refused : Option Int := none

def loopPlan (policy : BackfillFailurePolicy) : List GroupStep → LoopPlan
  | [] => {}
  | step :: steps =>
      match step.outcome with
      | .linkRefused canceledAt => { skipped := step :: steps, refused := some canceledAt }
      | outcome =>
          if policy = .stopOnFailure ∧ outcome.stops then { reached := [step], skipped := steps }
          else
            let rest := loopPlan policy steps
            { rest with reached := step :: rest.reached }

def keysOf (steps : List GroupStep) : List PartitionKey :=
  steps.flatMap (·.group)

def ranKeys (steps : List GroupStep) : List PartitionKey :=
  keysOf (steps.filter fun step => step.outcome.isRun)

def unlaunchedKeys (steps : List GroupStep) : List PartitionKey :=
  keysOf (steps.filter fun step => !step.outcome.isRun)

variable {policy : BackfillFailurePolicy} {steps : List GroupStep}

theorem reached_append_skipped :
    (loopPlan policy steps).reached ++ (loopPlan policy steps).skipped = steps := by
  induction steps with
  | nil => rfl
  | cons step steps ih =>
    unfold loopPlan
    grind

theorem not_refused_of_reached {step} (mem : step ∈ (loopPlan policy steps).reached) :
    ∀ canceledAt, step.outcome ≠ .linkRefused canceledAt := by
  induction steps with
  | nil => cases mem
  | cons first steps ih => grind [loopPlan]

end Plan

section Reached

variable (toJson : PartitionKey → String)

def applyStep (store : BackfillStore) (step : GroupStep) : BackfillStore :=
  match step.outcome with
  | .linkRefused _ => store
  | .linkError => store.updateBackfillProgress [] [] step.group []
  | .launchError startedAt =>
      (store.linkBackfillRun step.runId).1.launchFailed toJson step.runId step.group startedAt
  | .ran startedAt endedAt cancelled succeeded stepFailed =>
      (store.linkBackfillRun step.runId).1.runLinked toJson step.runId step.group startedAt endedAt
        (finalizeStatus cancelled succeeded) stepFailed

def finishedRun (backfill : BackfillRecord) (step : GroupStep) : Option StoredRun :=
  match step.outcome with
  | .ran startedAt endedAt cancelled succeeded _ =>
      some { BackfillProcess.childRun toJson backfill step.runId step.group .started startedAt with
        status := finalizeStatus cancelled succeeded
        endTime := some endedAt }
  | .linkRefused _ | .linkError | .launchError _ => none

def storedRun (backfill : BackfillRecord) (step : GroupStep) : Option StoredRun :=
  match step.outcome with
  | .launchError startedAt =>
      startedAt.map (BackfillProcess.childRun toJson backfill step.runId step.group .started)
  | .linkRefused _ | .linkError | .ran _ _ _ _ _ => finishedRun toJson backfill step

structure Advances (start : BackfillStore) (steps : List GroupStep) (store : BackfillStore) :
    Prop where
  backfill : store.backfill = { start.backfill with
    runIds := start.backfill.runIds ++ (steps.filter fun step => step.outcome.isLinked).map
      (·.runId)
    outcomes := store.backfill.outcomes }
  runs : store.runs = start.runs ++ steps.filterMap (storedRun toJson start.backfill)
  keys : ∀ key, key ∈ store.backfill.outcomes.map (·.1) ↔
    key ∈ start.backfill.outcomes.map (·.1) ∨ key ∈ membersOf (ranKeys steps) ∨
    key ∈ unlaunchedKeys steps
  unique : (start.backfill.outcomes.map (·.1)).Nodup → (store.backfill.outcomes.map (·.1)).Nodup
  failed : ∀ key ∈ unlaunchedKeys steps,
    (key, .failed) ∈ store.backfill.outcomes ∨ key ∈ membersOf (ranKeys steps)
  kept : ∀ row ∈ start.backfill.outcomes, row.1 ∉ membersOf (ranKeys steps) →
    row.1 ∉ unlaunchedKeys steps →
    row ∈ store.backfill.outcomes

structure FreshIds (store : BackfillStore) (steps : List GroupStep) : Prop where
  distinct : (steps.map (·.runId)).Nodup
  links : ∀ step ∈ steps, step.runId ∉ store.backfill.runIds
  runs : ∀ step ∈ steps, ∀ run ∈ store.runs, run.runId ≠ step.runId

variable {toJson} {start middle store : BackfillStore} {steps later : List GroupStep}
  {step : GroupStep}

theorem keysOf_append : keysOf (steps ++ later) = keysOf steps ++ keysOf later :=
  List.flatMap_append

theorem mem_ranKeys_append {key} :
    key ∈ membersOf (ranKeys (steps ++ later)) ↔ key ∈ membersOf (ranKeys steps) ∨
    key ∈ membersOf (ranKeys later) := by
  rw [ranKeys, List.filter_append, keysOf_append, membersOf, List.flatMap_append, List.mem_append]
  rfl

theorem mem_unlaunchedKeys_append {key} :
    key ∈ unlaunchedKeys (steps ++ later) ↔ key ∈ unlaunchedKeys steps ∨
    key ∈ unlaunchedKeys later := by
  rw [unlaunchedKeys, List.filter_append, keysOf_append, List.mem_append]
  rfl

theorem storedRun_congr {backfill other} (sameId : backfill.backfillId = other.backfillId)
    (sameTags : backfill.tags = other.tags) (samePriority : backfill.priority = other.priority) :
    storedRun toJson backfill = storedRun toJson other := by
  funext step
  unfold storedRun finishedRun BackfillProcess.childRun
  rw [sameId, sameTags, samePriority]

theorem advances_refl : Advances toJson store [] store where
  backfill := by simp
  runs := by simp
  keys key := by simp [ranKeys, unlaunchedKeys, keysOf, membersOf]
  unique nodup := nodup
  failed key member := by simp [unlaunchedKeys, keysOf] at member
  kept row member _ _ := member

theorem Advances.trans (first : Advances toJson start steps middle)
    (second : Advances toJson middle later store) :
    Advances toJson start (steps ++ later) store where
  backfill := by
    rw [second.backfill, first.backfill]
    simp [List.append_assoc]
  runs := by
    have sameRows : storedRun toJson middle.backfill = storedRun toJson start.backfill := by
      apply storedRun_congr <;> rw [first.backfill]
    rw [second.runs, first.runs, sameRows, List.filterMap_append, List.append_assoc]
  keys key := by
    rw [second.keys, first.keys, mem_ranKeys_append, mem_unlaunchedKeys_append]
    tauto
  unique nodup := second.unique (first.unique nodup)
  failed key member := by grind [mem_ranKeys_append, mem_unlaunchedKeys_append, failed, kept]
  kept row member notRan notFailed := by grind [kept, mem_ranKeys_append, mem_unlaunchedKeys_append]

theorem linkRuns_fresh {links runId} (fresh : runId ∉ links) :
    linkRuns links [runId] = links ++ [runId] := by
  simp [linkRuns, fresh]

theorem link_of_inProgress (inProgress : start.backfill.status = .inProgress) {runId}
    (fresh : runId ∉ start.backfill.runIds) :
    (start.linkBackfillRun runId).1 =
      { start with backfill := { start.backfill with runIds := start.backfill.runIds ++ [runId] }
        } := by
  rw [linkBackfillRun, if_pos inProgress, linkRuns_fresh fresh]

theorem keysOf_singleton : keysOf [step] = step.group :=
  List.flatMap_singleton _ _

theorem advances_unlaunched (notRun : step.outcome.isRun = false) :
    Advances toJson start [step]
      { start with
        runs := start.runs ++ [step].filterMap (storedRun toJson start.backfill)
        backfill := { start.backfill with
          runIds := start.backfill.runIds ++ ([step].filter fun step => step.outcome.isLinked).map
            (·.runId)
          outcomes := recordOutcomes start.backfill.outcomes (settledRows [] step.group []) }
            } := by
  have ran : ranKeys [step] = [] := by simp [ranKeys, keysOf, notRun]
  have unlaunched : unlaunchedKeys [step] = step.group := by
    rw [unlaunchedKeys, List.filter_singleton, notRun, Bool.not_false, cond_true, keysOf_singleton]
  refine ⟨rfl, rfl, fun key => ?_, fun nodup => nodup_recordOutcomes nodup, fun key mem => ?_,
    fun row mem _ notFailed => ?_⟩
  · rw [mem_keys_recordOutcomes, mem_keys_settledRows, ran, unlaunched]
    simp [membersOf]
  · rw [unlaunched] at mem
    exact .inl (mem_recordOutcomes_of_all (settledRows_failed _)
      (.inr (mem_keys_settledRows.mpr (.inr (.inl mem)))))
  grind [mem_recordOutcomes_of_not_mem, mem_keys_settledRows]

theorem updateRunStatus_last {runs run status endTime}
    (fresh : ∀ other ∈ runs, other.runId ≠ run.runId) :
    updateRunStatus (runs ++ [run]) run.runId status (some endTime) =
      runs ++ [{ run with status, endTime := some endTime }] := by
  have others : updateRunStatus runs run.runId status (some endTime) = runs := by
    refine (List.map_congr_left fun other mem => ?_).trans (List.map_id runs)
    simp_all
  rw [updateRunStatus, updateWhere, List.map_append]
  exact congrArg₂ (· ++ ·) others (by simp)

theorem runLinked_spec (toJson : PartitionKey → String) (start : BackfillStore) (runId : String)
    (group : List PartitionKey) (startedAt endedAt : Int) (cancelled succ : Bool)
    (stepFailed : List PartitionKey) (fresh : ∀ run ∈ start.runs, run.runId ≠ runId) :
    let run := BackfillProcess.childRun toJson start.backfill runId group .started startedAt
    let status := finalizeStatus cancelled succ
    ∃ rows failures,
      start.runLinked toJson runId group startedAt endedAt status stepFailed =
        { backfill := { start.backfill with outcomes := recordOutcomes start.backfill.outcomes rows
          }
          runs := start.runs ++ [{ run with status, endTime := some endedAt }]
          stepFailures := failures } ∧
      ∀ key, key ∈ rows.map (·.1) ↔ key ∈ membersOf group := by
  intro run status
  let finished : StoredRun := { run with status, endTime := some endedAt }
  let failures := start.stepFailures ++ stepFailed.map fun key => (runId, key)
  let settled := SettledRunKeys.ofRun finished fun key => (runId, key) ∈ failures
  refine ⟨settledRows settled.completed settled.failed settled.canceled, failures, ?_,
    fun key => ?_⟩
  · have runs : updateRunStatus (start.runs ++ [run]) runId status (some endedAt) =
        start.runs ++ [finished] :=
      updateRunStatus_last fresh
    have own : (start.runs ++ [finished]).filter (fun other => other.runId ∈ [runId]) =
      [finished] := by
      rw [List.filter_append, List.filter_eq_nil_iff.mpr fun other mem => by simpa using fresh other mem]
      simp [finished, run, BackfillProcess.childRun]
    have term : status.isTerminal = true := finalizeStatus_isTerminal _ _
    simp only [runLinked, getRunsByIds]
    rw [runs, own, List.foldl_cons, List.foldl_nil, recordBackfillRunOutcome, if_pos ⟨rfl, term⟩]
    rfl
  · have isKey : (∃ runKey, finished.partitionKey = some runKey ∧ key ∈ runKey.members) ↔
      key ∈ membersOf group := by
      have bundled : finished.partitionKey = some (bundleKeys toJson group) := rfl
      grind [mem_members_bundleKeys, mem_membersOf]
    rw [mem_keys_settledRows, ← isKey]
    exact mem_settledRunKeys (finalizeStatus_isTerminal _ _)

theorem advances_ran {startedAt endedAt cancelled succ stepFailed}
    (isRan : step.outcome = .ran startedAt endedAt cancelled succ stepFailed)
    (inProgress : start.backfill.status = .inProgress)
    (unlinked : step.runId ∉ start.backfill.runIds)
    (fresh : ∀ run ∈ start.runs, run.runId ≠ step.runId) : Advances toJson start [step]
    (applyStep toJson start step) := by
  obtain ⟨rows, failures, isLinked, keys⟩ := runLinked_spec toJson
    { start with backfill := { start.backfill with runIds := start.backfill.runIds ++ [step.runId] }
      }
    step.runId step.group startedAt endedAt cancelled succ stepFailed fresh
  have after : applyStep toJson start step =
      { backfill := { start.backfill with
          runIds := start.backfill.runIds ++ [step.runId]
          outcomes := recordOutcomes start.backfill.outcomes rows }
        runs := start.runs ++ (finishedRun toJson start.backfill step).toList
        stepFailures := failures } := by
    simp only [applyStep, finishedRun, isRan, link_of_inProgress inProgress unlinked, isLinked]
    rfl
  have isRun : step.outcome.isRun = true := by rw [isRan]; rfl
  have ran : ranKeys [step] = step.group := by simp [ranKeys, keysOf, isRun]
  have unlaunched : unlaunchedKeys [step] = [] := by simp [unlaunchedKeys, keysOf, isRun]
  rw [after]
  refine ⟨?_, ?_, fun key => ?_, fun nodup => nodup_recordOutcomes nodup, fun key mem => ?_,
    fun row mem notRan _ => ?_⟩
  · simp [isRan, GroupOutcome.isLinked]
  · simp [storedRun, finishedRun, isRan]
  · rw [mem_keys_recordOutcomes, keys, ran, unlaunched]
    simp
  · rw [unlaunched] at mem
    cases mem
  grind [mem_recordOutcomes_of_not_mem]

theorem applyStep_advances (inProgress : start.backfill.status = .inProgress)
    (granted : ∀ canceledAt, step.outcome ≠ .linkRefused canceledAt)
    (unlinked : step.runId ∉ start.backfill.runIds)
    (fresh : ∀ run ∈ start.runs, run.runId ≠ step.runId) :
    Advances toJson start [step] (applyStep toJson start step) := by
  cases outcome : step.outcome with
  | linkRefused canceledAt => exact absurd outcome (granted canceledAt)
  | linkError =>
    have failed := @advances_unlaunched toJson start step (by rw [outcome]; rfl)
    simpa [applyStep, outcome, updateBackfillProgress, linkRuns, isLinked, storedRun,
      finishedRun] using failed
  | launchError startedAt =>
    have failed := @advances_unlaunched toJson start step (by rw [outcome]; rfl)
    cases startedAt <;>
      simpa [applyStep, outcome, link_of_inProgress inProgress unlinked, updateBackfillProgress,
        linkRuns, isLinked, launchFailed, storedRun, BackfillProcess.childRun] using failed
  | ran startedAt endedAt cancelled succ stepFailed =>
    exact advances_ran outcome inProgress unlinked fresh

theorem Advances.status (advances : Advances toJson start steps store) :
    store.backfill.status = start.backfill.status := by
  rw [advances.backfill]

theorem Advances.partitionKeys (advances : Advances toJson start steps store) :
    store.backfill.partitionKeys = start.backfill.partitionKeys := by
  rw [advances.backfill]

theorem storedRun_runId {backfill run} (isStored : storedRun toJson backfill step = some run) :
    run.runId = step.runId := by
  unfold storedRun finishedRun at isStored
  split at isStored
  · obtain ⟨startedAt, -, rfl⟩ := Option.map_eq_some_iff.mp isStored
    rfl
  all_goals
    rename_i outcome
    rw [outcome] at isStored
    cases isStored
  rfl

theorem FreshIds.tail (fresh : FreshIds start (step :: steps))
    (advances : Advances toJson start [step] store) :
    FreshIds store steps := by
  obtain ⟨notLater, dist⟩ := List.nodup_cons.mp fresh.distinct
  have differ {other : GroupStep} (mem : other ∈ steps) : step.runId ≠ other.runId :=
    fun same => notLater (List.mem_map.mpr ⟨other, mem, same.symm⟩)
  refine ⟨dist, fun other mem linked => ?_, fun other mem run stored => ?_⟩
  · rw [advances.backfill] at linked
    grind [links]
  · rw [advances.runs] at stored
    grind [runs, storedRun_runId]

theorem foldl_applyStep_advances (inProgress : start.backfill.status = .inProgress)
    (granted : ∀ step ∈ steps, ∀ canceledAt, step.outcome ≠ .linkRefused canceledAt)
    (fresh : FreshIds start steps) : Advances toJson start steps
    (steps.foldl (applyStep toJson) start) := by
  induction steps generalizing start with
  | nil => exact advances_refl
  | cons step steps ih =>
    obtain ⟨first, rest⟩ := List.forall_mem_cons.mp granted
    have advances := @applyStep_advances toJson _ _ inProgress first
      (fresh.links step List.mem_cons_self) (fresh.runs step List.mem_cons_self)
    exact advances.trans (ih (advances.status.trans inProgress) rest (fresh.tail advances))

end Reached

section Loop

variable {toJson : PartitionKey → String} {state : LoopState} {steps : List GroupStep}
  {step : GroupStep}

theorem runGroup_halted (halted : (state.cancel || state.stop) = true) :
    runGroup toJson state step =
      { state with canceledKeys := state.canceledKeys ++ step.group } := by
  rw [runGroup, if_pos halted]

theorem foldl_runGroup_halted (halted : (state.cancel || state.stop) = true) :
    steps.foldl (runGroup toJson) state =
      { state with canceledKeys := state.canceledKeys ++ keysOf steps } := by
  induction steps generalizing state with
  | nil => simp [keysOf]
  | cons step steps ih =>
    have rest := @ih { state with canceledKeys := state.canceledKeys ++ step.group } halted
    rw [List.foldl_cons, runGroup_halted halted, rest]
    simp [keysOf]

theorem runGroup_refused {canceledAt} (refused : step.outcome = .linkRefused canceledAt)
    (goesOn : (state.cancel || state.stop) = false)
    (inProgress : state.store.backfill.status = .inProgress) :
    runGroup toJson state step =
      { state with
        store := state.store.cancelIfOpen canceledAt
        cancel := true
        canceledKeys := state.canceledKeys ++ step.group } := by
  grind [linkBackfillRun, cancelIfOpen, updateBackfillStatus, runGroup]

theorem runGroup_granted (granted : ∀ canceledAt, step.outcome ≠ .linkRefused canceledAt)
    (goesOn : (state.cancel || state.stop) = false) :
    runGroup toJson state step =
      { state with
        store := applyStep toJson state.store step
        stop := state.store.backfill.failurePolicy = .stopOnFailure ∧ step.outcome.stops } := by
  grind [runGroup, applyStep, stops]

theorem foldl_runGroup (goesOn : (state.cancel || state.stop) = false)
    (inProgress : state.store.backfill.status = .inProgress) (fresh : FreshIds state.store steps) :
    let plan := loopPlan state.store.backfill.failurePolicy steps
    let after := plan.reached.foldl (applyStep toJson) state.store
    let looped := steps.foldl (runGroup toJson) state
    looped.store = plan.refused.elim after after.cancelIfOpen ∧
      looped.canceledKeys = state.canceledKeys ++ keysOf plan.skipped ∧
      looped.cancel = plan.refused.isSome := by
  induction steps generalizing state with
  | nil =>
    have canceled := (Bool.or_eq_false_iff.mp goesOn).1
    simp [loopPlan, keysOf, canceled]
  | cons step steps ih =>
    rw [List.foldl_cons]
    unfold loopPlan
    split
    · rename_i canceledAt refused
      rw [runGroup_refused refused goesOn inProgress, foldl_runGroup_halted rfl]
      simp [keysOf, List.append_assoc]
    · rename_i granted
      rw [runGroup_granted granted goesOn]
      have canceled := (Bool.or_eq_false_iff.mp goesOn).1
      split
      · rename_i stops
        rw [foldl_runGroup_halted (by simp [stops])]
        simp [canceled]
      · rename_i goesOnAfter
        have advances := @applyStep_advances toJson _ _ inProgress granted
          (fresh.links step List.mem_cons_self) (fresh.runs step List.mem_cons_self)
        have samePolicy : (applyStep toJson state.store step).backfill.failurePolicy =
            state.store.backfill.failurePolicy := by rw [advances.backfill]
        have rest := @ih { state with
            store := applyStep toJson state.store step
            stop := state.store.backfill.failurePolicy = .stopOnFailure ∧ step.outcome.stops }
          (by simp [canceled, goesOnAfter]) (advances.status.trans inProgress) (fresh.tail advances)
        simp only [samePolicy] at rest
        exact rest

end Loop

section Finish

variable {toJson : PartitionKey → String} {start store : BackfillStore} {steps : List GroupStep}
  {extraCanceled : List PartitionKey} {key : PartitionKey}

theorem finishedRun_isSome {backfill step} :
    (finishedRun toJson backfill step).isSome = step.outcome.isRun := by
  unfold finishedRun
  split <;> rename_i outcome <;> rw [outcome] <;> rfl

theorem finishedRun_spec {backfill step run} (fin : finishedRun toJson backfill step = some run) :
    run.status.isTerminal = true ∧ run.partitionKey = some (bundleKeys toJson step.group) := by
  grind [BackfillProcess.childRun, finalizeStatus, RunStatus.isTerminal, finishedRun]

theorem getRunsByIds_advances (advances : Advances toJson start steps store)
    (unlinked : start.backfill.runIds = []) (fresh : FreshIds start steps) :
    store.getRunsByIds store.backfill.runIds =
      steps.filterMap (storedRun toJson start.backfill) := by
  have links : store.backfill.runIds = (steps.filter fun step => step.outcome.isLinked).map
    (·.runId) := by
    rw [advances.backfill, unlinked]
    rfl
  rw [getRunsByIds, advances.runs, List.filter_append, links]
  have others : start.runs.filter (fun run =>
      run.runId ∈ (steps.filter fun step => step.outcome.isLinked).map (·.runId)) = [] := by
    grind [List.filter_eq_nil_iff, FreshIds.runs]
  grind [List.filter_eq_self, storedRun_runId, isLinked, storedRun, finishedRun]

theorem storedRun_of_ended {backfill step} (ended : step.outcome.leavesStarted = false) :
    storedRun toJson backfill step = finishedRun toJson backfill step := by
  unfold storedRun
  split
  · rename_i startedAt outcome
    rw [outcome, leavesStarted, Option.isSome_eq_false_iff, Option.isNone_iff_eq_none] at ended
    rw [ended, finishedRun, outcome, Option.map_none]
  all_goals rfl

theorem storedRun_of_leavesStarted {backfill step} (started : step.outcome.leavesStarted = true) :
    ∃ run, storedRun toJson backfill step = some run ∧ run.status = .started := by
  unfold leavesStarted at started
  split at started
  · rename_i startedAt outcome
    obtain ⟨time, isTime⟩ := Option.isSome_iff_exists.mp started
    refine ⟨BackfillProcess.childRun toJson backfill step.runId step.group .started time, ?_, rfl⟩
    rw [storedRun, outcome, isTime]
    rfl
  all_goals cases started

theorem mem_ranMembers_finished {backfill} :
    key ∈ ranMembers (steps.filterMap (finishedRun toJson backfill)) ↔
    key ∈ membersOf (ranKeys steps) := by
  simp only [mem_ranMembers, List.mem_filterMap, mem_membersOf, ranKeys, keysOf, List.mem_flatMap,
    List.mem_filter]
  constructor
  · rintro ⟨run, ⟨step, mem, fin⟩, runKey, isKey, inKey⟩
    rw [(finishedRun_spec fin).2, Option.some.injEq] at isKey
    grind [mem_members_bundleKeys, finishedRun_isSome]
  · rintro ⟨asked, ⟨step, ⟨mem, isRun⟩, inGroup⟩, isMem⟩
    rw [← @finishedRun_isSome toJson backfill] at isRun
    obtain ⟨run, fin⟩ := Option.isSome_iff_exists.mp isRun
    exact ⟨run, ⟨step, mem, fin⟩, _, (finishedRun_spec fin).2,
      mem_members_bundleKeys.mpr ⟨asked, inGroup, isMem⟩⟩

theorem settledWithoutRun_of_unlaunched (advances : Advances toJson start steps store)
    (mem : key ∈ membersOf (unlaunchedKeys steps)) (notRan : key ∉ membersOf (ranKeys steps))
    (notExtra : key ∉ membersOf extraCanceled) :
    key ∈ settledWithoutRun store.backfill (steps.filterMap (finishedRun toJson start.backfill))
      extraCanceled
      .failed := by
  obtain ⟨asked, unlaunched, isMem⟩ := mem_membersOf.mp mem
  have settled : asked ∈ store.backfill.settledAs .failed := by
    rcases advances.failed asked unlaunched with row | ran
    · exact List.mem_map.mpr ⟨_, List.mem_filter.mpr ⟨row, decide_eq_true rfl⟩, rfl⟩
    grind [mem_membersOf, PartitionKey.members_of_mem]
  grind [mem_ranMembers_finished, membersOf, settledWithoutRun]

def BackfillRecord.EndsSettled (backfill : BackfillRecord) : Prop :=
  backfill.status.isTerminal = true ∧
    ∀ key ∈ membersOf backfill.partitionKeys, (backfill.outcomes.map (·.1)).count key = 1

theorem endsSettled_iff {backfill : BackfillRecord} (unique : (backfill.outcomes.map (·.1)).Nodup) :
    backfill.EndsSettled ↔ backfill.status.isTerminal = true ∧
      ∀ key ∈ membersOf backfill.partitionKeys, key ∈ backfill.outcomes.map (·.1) := by
  grind [BackfillRecord.EndsSettled]

theorem filterMap_finishedRun_eq_nil {backfill} :
    steps.filterMap (finishedRun toJson backfill) = [] ↔
    ¬∃ step ∈ steps, step.outcome.isRun = true := by
  grind [List.filterMap_eq_nil_iff, finishedRun, isRun]

variable {now : Int}

theorem tryComplete_endsSettled_iff (advances : Advances toJson start steps store)
    (inProgress : start.backfill.status = .inProgress) (unlinked : start.backfill.runIds = [])
    (fresh : FreshIds start steps) (asked : ∀ key, key ∈ membersOf start.backfill.partitionKeys ↔
      key ∈ membersOf (ranKeys steps) ∨ key ∈ membersOf (unlaunchedKeys steps) ∨
      key ∈ membersOf extraCanceled) :
    (store.tryCompleteBackfill extraCanceled now).1.backfill.EndsSettled ↔
      (∀ step ∈ steps, step.outcome.leavesStarted = false) ∧
        ((∃ step ∈ steps, step.outcome.isRun = true) ∨ extraCanceled ≠ []) ∧
        ∀ key ∈ membersOf extraCanceled, key ∈ membersOf (ranKeys steps) ∨ key ∈ extraCanceled := by
  have linkedRuns := getRunsByIds_advances advances unlinked fresh
  have status : store.backfill.status = .inProgress := advances.status.trans inProgress
  have keys := advances.partitionKeys
  have unsettled (incomplete : ¬mayComplete store.backfill
    (store.getRunsByIds store.backfill.runIds)
      extraCanceled = true) : ¬(store.tryCompleteBackfill extraCanceled
        now).1.backfill.EndsSettled := by
    rw [tryCompleteBackfill_of_not incomplete]
    rintro ⟨terminal, -⟩
    rw [status] at terminal
    cases terminal
  by_cases ended : ∀ step ∈ steps, step.outcome.leavesStarted = false
  swap
  -- a row left as `Started` keeps the backfill from completing
  · push Not at ended
    obtain ⟨step, reached, started⟩ := ended
    obtain ⟨run, isStored, isStarted⟩ :=
      @storedRun_of_leavesStarted toJson start.backfill step (Bool.ne_false_iff.mp started)
    refine iff_of_false (unsettled fun complete => ?_) fun settles =>
      started (settles.1 step reached)
    have terminal := (mayComplete_iff.mp complete).2.1 run
      (linkedRuns ▸ List.mem_filterMap.mpr ⟨step, reached, isStored⟩)
    rw [isStarted] at terminal
    cases terminal
  have runs : store.getRunsByIds store.backfill.runIds =
      steps.filterMap (finishedRun toJson start.backfill) :=
    linkedRuns.trans (List.filterMap_congr fun step reached => storedRun_of_ended
      (ended step reached))
  rw [and_iff_right ended]
  by_cases some : (∃ step ∈ steps, step.outcome.isRun = true) ∨ extraCanceled ≠ []
  · have compl : mayComplete store.backfill (store.getRunsByIds store.backfill.runIds)
      extraCanceled = true := by
      rw [runs, mayComplete_iff]
      refine ⟨status, fun run mem => ?_, fun ⟨noRun, noExtra⟩ => ?_,
        fun key mem => decide_eq_true ?_⟩
      · obtain ⟨step, -, fin⟩ := List.mem_filterMap.mp mem
        exact (finishedRun_spec fin).1
      · exact some.elim (filterMap_finishedRun_eq_nil.mp noRun) (· noExtra)
      grind [mem_ranMembers_finished, settledWithoutRun_of_unlaunched]
    obtain ⟨term, unique, rows⟩ := @tryCompleteBackfill_of_mayComplete _ _ now compl
    have sameKeys : (store.tryCompleteBackfill extraCanceled now).1.backfill.partitionKeys =
        start.backfill.partitionKeys := by
      rw [← keys, tryCompleteBackfill, if_pos compl]
      rfl
    rw [endsSettled_iff unique, sameKeys]
    simp only [term, true_and, some, rows, runs, mem_ranMembers_finished]
    grind [settledWithoutRun_of_unlaunched, settledWithoutRun]
  · have incomplete : ¬mayComplete store.backfill (store.getRunsByIds store.backfill.runIds)
      extraCanceled = true := by
      grind [mayComplete_iff, filterMap_finishedRun_eq_nil]
    exact iff_of_false (unsettled incomplete) fun settles => some settles.1

end Finish

section Execution

def LoopPlan.Settles (plan : LoopPlan) (backfill : BackfillRecord) : Prop :=
  match plan.refused with
  | some _ =>
      ∀ key ∈ membersOf backfill.partitionKeys,
        key ∈ backfill.outcomes.map (·.1) ∨ key ∈ membersOf (ranKeys plan.reached) ∨
          key ∈ unlaunchedKeys plan.reached
  | none =>
      (∀ step ∈ plan.reached, step.outcome.leavesStarted = false) ∧
        ((∃ step ∈ plan.reached, step.outcome.isRun = true) ∨ keysOf plan.skipped ≠ []) ∧
        ∀ key ∈ membersOf (keysOf plan.skipped),
          key ∈ membersOf (ranKeys plan.reached) ∨ key ∈ keysOf plan.skipped

variable {toJson : PartitionKey → String} {store : BackfillStore} {newId : Nat → String}
  {outcome : Nat → GroupOutcome} {now : Int} {key : PartitionKey}

theorem FreshIds.of_append {steps later} (fresh : FreshIds store (steps ++ later)) :
    FreshIds store steps where
  distinct := (List.nodup_append.mp (List.map_append ▸ fresh.distinct)).1
  links step member := fresh.links step (List.mem_append_left _ member)
  runs step member := fresh.runs step (List.mem_append_left _ member)

theorem freshIds_groupSteps {backfill} (unlinked : store.backfill.runIds = [])
    (dist : Function.Injective newId)
    (fresh : ∀ index, ∀ run ∈ store.runs, run.runId ≠ newId index) :
    FreshIds store (groupSteps backfill newId outcome) := by
  refine ⟨?_, fun step _ => by simp [unlinked], fun step mem => ?_⟩
  · rw [groupSteps, List.map_map]
    have ids : ((groupIntoRuns backfill.strategy backfill.partitionKeys).zipIdx.map fun entry =>
        newId entry.2) =
        (((groupIntoRuns backfill.strategy backfill.partitionKeys).zipIdx.map (·.2)).map
          newId) := by
      rw [List.map_map]
      rfl
    grind [List.zipIdx_map_snd, List.nodup_range']
  · obtain ⟨entry, -, rfl⟩ := List.mem_map.mp mem
    exact fresh entry.2

theorem mem_requested {backfill} :
    key ∈ membersOf backfill.partitionKeys ↔
    key ∈ membersOf (keysOf (groupSteps backfill newId outcome)) := by
  have groups : (groupSteps backfill newId outcome).map (·.group) =
      groupIntoRuns backfill.strategy backfill.partitionKeys := by
    rw [groupSteps, List.map_map]
    exact List.zipIdx_map_fst 0 _
  grind [flatten_groupIntoRuns_perm, membersOf, keysOf]

theorem mem_membersOf_keysOf {steps} :
    key ∈ membersOf (keysOf steps) ↔ key ∈ membersOf (ranKeys steps) ∨
    key ∈ membersOf (unlaunchedKeys steps) := by
  simp only [mem_membersOf, ranKeys, unlaunchedKeys, keysOf, List.mem_flatMap, List.mem_filter]
  grind

theorem finish_of_canceled {canceled : BackfillStore} {skipped}
    (status : canceled.backfill.status = .canceled) :
    let settled := (canceled.tryCompleteBackfill skipped now).1
    let after := if skipped ≠ [] then settled.updateBackfillStatus .canceled (some now) else settled
    after.backfill.status = .canceled ∧ after.backfill.partitionKeys =
      canceled.backfill.partitionKeys ∧
      after.backfill.outcomes = canceled.backfill.outcomes := by
  intro settled after
  have unsettled : settled = canceled := by
    refine tryCompleteBackfill_of_not fun compl => ?_
    have inProgress := (mayComplete_iff.mp compl).1
    simp_all
  simp only [after, unsettled]
  split
  · exact ⟨rfl, rfl, rfl⟩
  · exact ⟨status, rfl, rfl⟩

theorem executeBackfillWith_endsSettled_iff (asked : store.backfill.status = .requested)
    (unlinked : store.backfill.runIds = []) (unique : (store.backfill.outcomes.map (·.1)).Nodup)
    (dist : Function.Injective newId)
    (fresh : ∀ index, ∀ run ∈ store.runs, run.runId ≠ newId index) :
    ∃ after, executeBackfillWith toJson store newId outcome now = some after ∧
      (after.backfill.EndsSettled ↔
        (loopPlan store.backfill.failurePolicy (groupSteps store.backfill newId outcome)).Settles
          store.backfill) := by
  let started := store.updateBackfillStatus .inProgress none
  let steps := groupSteps store.backfill newId outcome
  have freshIds : FreshIds started steps := freshIds_groupSteps unlinked dist fresh
  obtain ⟨looped, canceledKeys, cancel⟩ := @foldl_runGroup toJson { store := started } steps rfl
    rfl freshIds
  set plan := loopPlan started.backfill.failurePolicy steps with isPlan
  have split : plan.reached ++ plan.skipped = steps := reached_append_skipped
  have reachedIds : FreshIds started plan.reached := by
    rw [← split] at freshIds
    exact freshIds.of_append
  have advances : Advances toJson started plan.reached
      (plan.reached.foldl (applyStep toJson) started) :=
    foldl_applyStep_advances rfl (fun _ mem => not_refused_of_reached mem) reachedIds
  have inPlan (key : PartitionKey) : key ∈ membersOf started.backfill.partitionKeys ↔
      key ∈ membersOf (ranKeys plan.reached) ∨ key ∈ membersOf (unlaunchedKeys plan.reached) ∨
        key ∈ membersOf (keysOf plan.skipped) := by
    have all := @mem_requested newId outcome key store.backfill
    rw [← or_assoc, ← mem_membersOf_keysOf]
    refine all.trans ?_
    grind [membersOf, keysOf]
  simp only [List.nil_append] at canceledKeys
  set loop := steps.foldl (runGroup toJson) { store := started } with isLoop
  have execution : executeBackfillWith toJson store newId outcome now =
      some (if loop.cancel = true ∧ loop.canceledKeys ≠ [] then
        (loop.store.tryCompleteBackfill loop.canceledKeys now).1.updateBackfillStatus
          .canceled (some now)
      else (loop.store.tryCompleteBackfill loop.canceledKeys now).1) := by
    rw [executeBackfillWith, if_neg (not_not.mpr asked)]
    exact (apply_ite some _ _ _).symm
  have samePlan : loopPlan store.backfill.failurePolicy (groupSteps store.backfill newId outcome) = plan := rfl
  refine ⟨_, execution, ?_⟩
  rw [looped, canceledKeys, cancel, samePlan]
  unfold LoopPlan.Settles
  cases refused : plan.refused with
  | none =>
    simp only [Option.isSome_none, Bool.false_eq_true, false_and, if_false, Option.elim_none]
    exact tryComplete_endsSettled_iff advances rfl unlinked reachedIds inPlan
  | some canceledAt =>
    simp only [Option.isSome_some, true_and, Option.elim_some]
    set reached := plan.reached.foldl (applyStep toJson) started
    have canceled : reached.cancelIfOpen canceledAt = reached.updateBackfillStatus .canceled
      (some canceledAt) := by
      rw [cancelIfOpen, if_pos (by rw [advances.status]; exact List.mem_cons_of_mem _ List.mem_cons_self)]
    obtain ⟨status, keys, outcomes⟩ := @finish_of_canceled now (reached.cancelIfOpen canceledAt)
      (keysOf plan.skipped) (by rw [canceled]; rfl)
    have rows : (reached.cancelIfOpen canceledAt).backfill.outcomes =
      reached.backfill.outcomes := by rw [canceled]; rfl
    have requestedKeys : (reached.cancelIfOpen canceledAt).backfill.partitionKeys =
      store.backfill.partitionKeys := by
      rw [canceled]
      exact advances.partitionKeys
    grind [Advances.unique, Advances.keys, BackfillRecord.EndsSettled,
      updateBackfillStatus, isTerminal]

end Execution

section Monitor

variable {store : BackfillStore} {stalled : Bool} {times : List Int} {first second : Int}

theorem foldl_monitorPass_closed (closed : store.backfill.status ≠ .inProgress) :
    (times.foldl monitorPass (store, stalled)).1 = store := by
  induction times generalizing stalled with
  | nil => rfl
  | cons now times ih =>
    rw [List.foldl_cons, monitorPass, if_pos closed]
    exact ih

theorem foldl_monitorPass_stuck (inProgress : store.backfill.status = .inProgress)
    (linked : store.backfill.runIds ≠ [])
    (incomplete : ¬mayComplete store.backfill (store.getRunsByIds store.backfill.runIds) [] =
      true) :
    (times.foldl monitorPass (store, stalled)).1 = store := by
  induction times generalizing stalled with
  | nil => rfl
  | cons now times ih =>
    rw [List.foldl_cons, monitorPass, if_neg (not_not.mpr inProgress), if_neg linked,
      tryCompleteBackfill_of_not incomplete]
    exact ih

theorem monitorPasses_unlinked (inProgress : store.backfill.status = .inProgress)
    (unlinked : store.backfill.runIds = [])
    (late : ∀ time ∈ first :: second :: times, backfillResumeGraceNs <
      time - store.backfill.createTime) :
    (monitorPasses store (first :: second :: times)).backfill.status = .requested := by
  grind [foldl_monitorPass_closed, monitorPasses, monitorPass, resumeStalledBackfill,
    updateBackfillStatus]

theorem monitorPasses_status_iff (inProgress : store.backfill.status = .inProgress)
    (late : ∀ time ∈ first :: second :: times, backfillResumeGraceNs <
      time - store.backfill.createTime) :
    (monitorPasses store (first :: second :: times)).backfill.status ≠ .inProgress ↔
      store.backfill.runIds = [] ∨
        store.getRunsByIds store.backfill.runIds ≠ [] ∧
          (∀ run ∈ store.getRunsByIds store.backfill.runIds, run.status.isTerminal = true) ∧
          ∀ key ∈ membersOf store.backfill.partitionKeys,
            accounted store.backfill (store.getRunsByIds store.backfill.runIds) [] key = true := by
  by_cases unlinked : store.backfill.runIds = []
  · rw [monitorPasses_unlinked inProgress unlinked late]
    exact iff_of_true (by simp) (.inl unlinked)
  · have complete_iff : mayComplete store.backfill (store.getRunsByIds store.backfill.runIds) [] =
        true ↔
        store.getRunsByIds store.backfill.runIds ≠ [] ∧
          (∀ run ∈ store.getRunsByIds store.backfill.runIds, run.status.isTerminal = true) ∧
          ∀ key ∈ membersOf store.backfill.partitionKeys,
            accounted store.backfill (store.getRunsByIds store.backfill.runIds) [] key = true := by
      grind [mayComplete_iff]
    rw [or_iff_right unlinked, ← complete_iff]
    by_cases compl : mayComplete store.backfill (store.getRunsByIds store.backfill.runIds) [] = true
    · obtain ⟨term, -⟩ := @tryCompleteBackfill_of_mayComplete _ _ first compl
      grind [foldl_monitorPass_closed, isTerminal, monitorPasses, monitorPass]
    · rw [monitorPasses, foldl_monitorPass_stuck inProgress unlinked compl]
      exact iff_of_false (not_not.mpr inProgress) compl

end Monitor

def firstDay : PartitionKey := .single ["d1"]

def secondDay : PartitionKey := .single ["d2"]

def twoDays : BackfillRecord :=
  { backfillId := "b1", partitionKeys := [firstDay, secondDay] }

def runName (index : Nat) : String :=
  String.ofList (List.replicate index 'r')

theorem runName_injective : Function.Injective runName := by
  intro left right same
  simpa [runName] using congrArg String.length same

def oneFails : Nat → GroupOutcome
  | 0 => .ran 1 2 false true []
  | _ => .ran 3 4 false false []

end Rivers

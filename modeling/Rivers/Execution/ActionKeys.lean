import Rivers.Backfill.Grouping
import Rivers.Execution.ActionKeysCore

/-! Which members of a run's key an action's bodies are called with. -/

namespace Rivers

open Transitions TargetRecord ActionProgress ActionScope ExecutionStep

namespace TargetRecord

variable {record : TargetRecord} {key : PartitionKey}

theorem completed_iff : record.completed key = true ↔
    ∃ kind, .completion kind key ∈ record.events := by
  grind [completed]

theorem succeeded_iff : record.succeeded = true ↔ .stepSuccess ∈ record.events :=
  decide_eq_true_iff

structure Fresh (record : TargetRecord) : Prop where
  handed : record.handed = []
  cancelled : record.cancelled = false
  events : record.events = []

structure Settled (record : TargetRecord) : Prop where
  marked : ∀ key ∈ record.marked, key ∈ record.failedMembers
  completed : ∀ key, record.completed key = true ↔
    key ∈ record.handed ∧ key ∉ record.marked ∧ record.succeeded = true

theorem Settled.of_failure (failure : ∀ event ∈ record.events, ∃ error, event = .stepFailure error)
    (marked : ∀ key ∈ record.marked, key ∈ record.failedMembers) : record.Settled := by
  grind [TargetRecord.completed, TargetRecord.succeeded, TargetRecord.Settled]

theorem Fresh.settled (fresh : record.Fresh)
    (marked : ∀ key ∈ record.marked, key ∈ record.failedMembers) :
    record.Settled :=
  .of_failure (by simp [fresh.events]) marked

theorem Fresh.settled_recordFailure (fresh : record.Fresh)
    (marked : ∀ key ∈ record.marked, key ∈ record.failedMembers) (error : String) :
    (record.recordFailure error).Settled :=
  .of_failure (by simp [recordFailure, fresh.events]) marked

end TargetRecord

namespace ActionScope

variable {scope : ActionScope} {records : String → TargetRecord} {step other : ExecutionStep}
  {key : PartitionKey} {record : TargetRecord}

theorem mem_planDependencies {dep} (isStep : step ∈ scope.plan.steps) :
    dep ∈ step.planDependencies ↔ dep ∈ scope.targets ∧
    scope.ordering.Precedes scope.graph dep step.name := by
  obtain ⟨target, isTarget, rfl⟩ := mem_steps_forAction.mp isStep
  simp [mem_waitsFor]

theorem eventNamesOf_eq (scope : ActionScope) (dep : String) : scope.eventNamesOf dep = [dep] := by
  unfold eventNamesOf
  cases found : scope.plan.steps.find? fun step => step.name = dep with
  | none => rfl
  | some step => grind [eventNames, forAction, plan]

theorem mem_foldl_firstEntries {ents out : List (PartitionKey × String)} :
    key ∈ (ents.foldl (fun out entry => if entry.1 ∈ out.map Prod.fst then out else out ++ [entry])
      out).map Prod.fst ↔
      key ∈ out.map Prod.fst ∨ key ∈ ents.map Prod.fst := by
  induction ents generalizing out with
  | nil => simp
  | cons entry ents ih =>
    rw [List.foldl_cons, ih]
    split
    · grind
    · grind

theorem mem_dependencyFailedMembers :
    key ∈ (scope.dependencyFailedMembers records step).map Prod.fst ↔
      ∃ dep ∈ step.planDependencies, key ∈ (records dep).failedMembers := by
  simp [mem_foldl_firstEntries, eventNamesOf_eq, dependencyFailedMembers]

theorem classifyTarget_execute (classified : scope.classifyTarget records step =
    (record, .execute)) :
    step.name ∉ scope.completedSteps ∧
    (∀ dep ∈ step.planDependencies, (records dep).failed = false) ∧
      (∀ dep ∈ step.planDependencies, ∀ key ∈ (records dep).failedMembers, key ∈
        record.failedMembers) ∧
      ∃ blocked, record = { records step.name with failedPartitions :=
        (records step.name).failedPartitions ++ blocked } := by
  unfold classifyTarget at classified
  dsimp only at classified
  split at classified
  · cases classified
  rename_i fresh
  split at classified
  · cases classified
  split at classified
  · cases classified
  split at classified
  · cases classified
  rename_i unfailed
  have quiet : ∀ dep ∈ step.planDependencies, (records dep).failed = false := by grind
  have blocked (dep : String) (isDep : dep ∈ step.planDependencies) (key : PartitionKey)
      (isKey : key ∈ (records dep).failedMembers) : key ∈
      (scope.dependencyFailedMembers records step).map Prod.fst :=
    mem_dependencyFailedMembers.mpr ⟨dep, isDep, isKey⟩
  split at classified
  · rename_i none
    cases classified
    refine ⟨fresh, quiet, fun dep isDep key isKey => ?_, [], by simp⟩
    grind
  · grind [failedMembers]

theorem classifyTarget_handled (classified : scope.classifyTarget records step =
    (record, .handled)) :
    record = records step.name ∨ record = { records step.name with failed := true } ∨
      ∃ error, record = (records step.name).recordFailure error := by grind [classifyTarget]

theorem mem_actionStepPartitionKey :
    key ∈ (scope.actionStepPartitionKey record).members ↔ key ∈ scope.members ∧
    key ∉ record.failedMembers := by
  unfold actionStepPartitionKey
  split
  · rename_i none
    simp [members, failedMembers, none]
  · rw [mem_members_bundleKeys]
    constructor
    · grind [PartitionKey.members_of_mem, members]
    · rintro ⟨isMem, unfailed⟩
      exact ⟨key, List.mem_filter.mpr ⟨isMem, decide_eq_true unfailed⟩, by
        rw [PartitionKey.members_of_mem isMem]
        exact List.mem_singleton_self key⟩

theorem mem_survivingMembers :
    key ∈ (scope.survivingMembers record).2 ↔ key ∈ scope.members ∧ key ∉ record.failedMembers := by
  simp only [survivingMembers, failedMembers, List.mem_filter, Option.isNone_iff_eq_none,
    Option.map_eq_none_iff, List.find?_eq_none, List.mem_reverse, decide_eq_true_eq, List.mem_map,
    not_exists, not_and]

theorem handed_handleActionResult {marks report} :
    (scope.handleActionResult step record marks report).handed = record.handed := by
  unfold handleActionResult
  dsimp only
  split
  · rfl
  · split
    · rfl
    · split <;> rfl
    · rfl
    · rfl

theorem handed_processOutcome {out} (unhanded : record.handed = [])
    (isHanded : key ∈ (scope.processOutcome step record out).handed) :
    key ∈ scope.members ∧ key ∉ record.failedMembers := by
  cases out with
  | cancelled => simp [processOutcome, unhanded] at isHanded
  | error begun message =>
    cases begun with
    | false => simp [processOutcome, recordFailure, unhanded] at isHanded
    | true => exact mem_actionStepPartitionKey.mp isHanded
  | fullResult marks report =>
    rw [processOutcome, handed_handleActionResult] at isHanded
    exact mem_actionStepPartitionKey.mp isHanded

theorem settled_emitCompleted {marks} (kind : Completion) (unrecorded : record.events = []) :
    (scope.emitCompleted
      { scope.callBody record with
        marked := marks.map Prod.fst, failedPartitions :=
  record.failedPartitions ++ marks } kind).Settled := by
  have failedMembers : (record.failedPartitions ++ marks).map Prod.fst = record.failedMembers ++
      marks.map Prod.fst :=
    List.map_append
  refine ⟨fun key isMarked => ?_, fun key => ?_⟩
  · show key ∈ (record.failedPartitions ++ marks).map Prod.fst
    rw [failedMembers]
    exact List.mem_append_right _ isMarked
  · have surviving := @mem_survivingMembers scope key
      { scope.callBody record with marked := marks.map Prod.fst, failedPartitions :=
        record.failedPartitions ++ marks }
    have handed := @mem_actionStepPartitionKey scope key record
    simp only [TargetRecord.failedMembers, failedMembers, List.mem_append, not_or] at surviving
    rw [completed_iff, succeeded_iff]
    simp only [emitCompleted, emit, callBody, unrecorded, List.nil_append, List.mem_append,
      List.mem_map, List.mem_singleton, handed]
    constructor
    · rintro ⟨other, (isFailure | ⟨held, isSurvivor, isKey⟩) | isSuccess⟩
      · simp only [survivingMembers, List.mem_filterMap, Option.map_eq_some_iff] at isFailure
        grind
      · grind [failedMembers, callBody]
      · cases isSuccess
    · grind [failedMembers, callBody]

theorem settled_processOutcome (out : WorkOutcome) (fresh : record.Fresh)
    (unmarked : record.marked = []) :
    (scope.processOutcome step record out).Settled := by
  cases out with
  | cancelled =>
    exact .of_failure (by simp [processOutcome, fresh.events]) (by simp [processOutcome, unmarked])
  | error begun message =>
    refine .of_failure ?_ ?_
    · cases begun <;> simp [processOutcome, recordFailure, callBody, fresh.events]
    · cases begun <;> simp [processOutcome, recordFailure, callBody, unmarked]
  | fullResult marks report =>
    have refused (error : String) : ({ scope.callBody record with
        marked := marks.map Prod.fst
        failedPartitions := record.failedPartitions ++ marks }.recordFailure error).Settled := by
      grind [TargetRecord.Settled.of_failure, TargetRecord.Fresh.events, recordFailure, callBody,
        failedMembers]
    unfold processOutcome handleActionResult
    grind [settled_emitCompleted, TargetRecord.Fresh.events, callBody]

end ActionScope

namespace ActionProgress

variable {scope : ActionScope} {progress next : ActionProgress} {index position : Nat}
  {step other : ExecutionStep} {record : TargetRecord}

structure Sound (scope : ActionScope) (progress : ActionProgress) : Prop where
  lower : ∀ index < scope.plan.steps.length, scope.plan.levelOf index + 1 < progress.level →
    index ∈ progress.finished
  taken : ∀ index, index ∈ progress.ready ∨ index ∈ progress.finished → scope.plan.levelOf index <
    progress.level
  apart : ∀ index ∈ progress.ready, index ∉ progress.finished
  fresh : ∀ (index : Nat) (step : ExecutionStep), scope.plan.steps[index]? = some step →
    index ∉ progress.finished →
    (progress.records step.name).Fresh ∧
      (step.name ∉ scope.completedSteps → (progress.records step.name).marked = [])
  foreign : ∀ name ∉ scope.targets, (progress.records name).Fresh
  ready : ∀ index ∈ progress.ready, ∀ step : ExecutionStep, scope.plan.steps[index]? = some step →
    step.name ∉ scope.completedSteps ∧ ∀ dep ∈ step.planDependencies,
    (progress.records dep).failed = false ∧
      (progress.records dep).cancelled = false ∧
      ∀ key ∈ (progress.records dep).failedMembers, key ∈ (progress.records step.name).failedMembers
  handed : ∀ (index : Nat) (step : ExecutionStep), scope.plan.steps[index]? = some step →
    ∀ key ∈ (progress.records step.name).handed, ∀ dep ∈ step.planDependencies,
      (progress.records dep).failed = false ∧
      (progress.records dep).cancelled = false ∧ key ∉ (progress.records dep).failedMembers
  settled : ∀ name, (progress.records name).Settled
  cancelled : progress.stopped = false → ∀ (index : Nat) (step : ExecutionStep),
    scope.plan.steps[index]? = some step →
    (progress.records step.name).cancelled = true → scope.plan.levelOf index + 1 = progress.level

theorem exists_dependency {dep} (isStep : scope.plan.steps[index]? = some step)
    (isDep : dep ∈ step.planDependencies) :
    ∃ (position : Nat) (other : ExecutionStep), scope.plan.steps[position]? = some other ∧
      other.name = dep ∧
      scope.plan.levelOf position < scope.plan.levelOf index := by
  have mem := List.mem_of_getElem? isStep
  obtain ⟨isTarget, precedes⟩ := (mem_planDependencies mem).mp isDep
  obtain ⟨position, other, found, rfl, -⟩ := exists_step_forAction scope.graph scope.action
    scope.ordering isTarget
  exact ⟨position, other, found, rfl,
    distinctNames_forAction.levelOf_lt acyclic_forAction isStep found
    ((dependsOn_forAction mem).mpr ⟨List.mem_of_getElem? found, mem_waitsFor.mpr precedes⟩)⟩

theorem index_unique_of_name (isStep : scope.plan.steps[index]? = some step)
    (isOther : scope.plan.steps[position]? = some other) (same : step.name = other.name) : index =
    position :=
  distinctNames_forAction.index_unique isStep isOther (mem_names.mpr (.inl rfl))
    (mem_names.mpr (.inl same))

namespace Sound

theorem dependency_ne (sound : Sound scope progress) {dep}
    (isStep : scope.plan.steps[index]? = some step) (unfin : index ∉ progress.finished)
    (isOther : scope.plan.steps[position]? = some other)
    (level : scope.plan.levelOf position < progress.level) (isDep : dep ∈ other.planDependencies) :
    dep ≠ step.name := by
  grind [exists_dependency, lower, index_unique_of_name]

theorem finish (sound : Sound scope progress) (isStep : scope.plan.steps[index]? = some step)
    (unfinished : index ∉ progress.finished) (level : scope.plan.levelOf index + 1 = progress.level)
    (settled : record.Settled)
    (handed : ∀ key ∈ record.handed, ∀ dep ∈ step.planDependencies, (progress.records dep).failed =
      false ∧
      (progress.records dep).cancelled = false ∧ key ∉ (progress.records dep).failedMembers) :
    Sound scope
      { progress.set step.name record with
        ready := progress.ready.erase index, finished := insert index progress.finished } := by
  have isTarget : step.name ∈ scope.targets := by
    obtain ⟨target, isTarget, rfl⟩ := mem_steps_forAction.mp (List.mem_of_getElem? isStep)
    exact isTarget
  have kept {name : String} (different : name ≠ step.name) :
      (progress.set step.name record).records name = progress.records name :=
    Function.update_of_ne different _ _
  have own : (progress.set step.name record).records step.name = record :=
    Function.update_self _ _ _
  refine ⟨fun place inside below => ?_, fun place isTaken => ?_, fun place isReady => ?_,
    fun place held isHeld unfinishedPlace => ?_, fun name foreign => ?_,
    fun place isReady held isHeld => ?_,
    fun place held isHeld key isKey dep isDep => ?_, fun name => ?_,
    fun running place held isHeld isCancelled => ?_⟩
  · exact Finset.mem_insert_of_mem (sound.lower place inside below)
  · rcases isTaken with isReady | isFinished
    · exact sound.taken place (.inl (Finset.mem_of_mem_erase isReady))
    · rcases Finset.mem_insert.mp isFinished with rfl | old
      · exact Nat.lt_of_succ_le level.le
      · exact sound.taken place (.inr old)
  · grind [apart]
  · grind [index_unique_of_name, fresh]
  · dsimp only
    have different : name ≠ step.name := fun same => foreign (same ▸ isTarget)
    rw [kept different]
    exact sound.foreign name foreign
  · obtain ⟨different, wasReady⟩ := Finset.mem_erase.mp isReady
    have otherName : held.name ≠ step.name := fun same => different
      (index_unique_of_name isHeld isStep same)
    obtain ⟨incomplete, before⟩ := sound.ready place wasReady held isHeld
    grind [dependency_ne, taken]
  · dsimp only at isKey ⊢
    by_cases same : held.name = step.name
    · grind [index_unique_of_name, dependency_ne]
    · rw [kept same] at isKey
      have isTaken : place ∈ progress.finished := by
        by_contra absent
        rw [(sound.fresh place held isHeld absent).1.handed] at isKey
        cases isKey
      grind [dependency_ne, taken, handed]
  · dsimp only
    by_cases same : name = step.name
    · rw [same, own]
      exact settled
    · rw [kept same]
      exact sound.settled name
  · dsimp only at isCancelled
    by_cases same : held.name = step.name
    · rw [index_unique_of_name isHeld isStep same]
      exact level
    · rw [kept same] at isCancelled
      exact sound.cancelled running place held isHeld isCancelled

theorem prepare (sound : Sound scope progress) (isStep : scope.plan.steps[index]? = some step)
    (unfin : index ∉ progress.finished) (running : progress.stopped = false)
    (level : scope.plan.levelOf index + 1 = progress.level)
    (classified : scope.classifyTarget progress.records step = (record, .execute)) :
    Sound scope { progress.set step.name record with ready := insert index progress.ready } := by
  obtain ⟨incomplete, unfailed, blocked, added, rfl⟩ := classifyTarget_execute classified
  obtain ⟨fresh, unmarked⟩ := sound.fresh index step isStep unfin
  have pre (dep : String) (isDep : dep ∈ step.planDependencies) : (progress.records dep).cancelled =
    false := by
    by_contra isCancelled
    obtain ⟨position, other, found, rfl, below⟩ := exists_dependency isStep isDep
    have current := sound.cancelled running position other found (by simpa using isCancelled)
    omega
  have isTarget : step.name ∈ scope.targets := by
    obtain ⟨target, isTarget, rfl⟩ := mem_steps_forAction.mp (List.mem_of_getElem? isStep)
    exact isTarget
  generalize isRecord : { progress.records step.name with
    failedPartitions := (progress.records step.name).failedPartitions ++ added } =
      record at blocked ⊢
  have sameFresh : record.Fresh := isRecord ▸ ⟨fresh.handed, fresh.cancelled, fresh.events⟩
  have sameMarked : record.marked = [] := isRecord ▸ unmarked incomplete
  have kept {name : String} (different : name ≠ step.name) :
      (progress.set step.name record).records name = progress.records name :=
    Function.update_of_ne different _ _
  have own : (progress.set step.name record).records step.name = record :=
    Function.update_self _ _ _
  have apart {place : Nat} {held : ExecutionStep} (isHeld : scope.plan.steps[place]? = some held)
      (isTaken : scope.plan.levelOf place < progress.level) {dep : String}
      (isDep : dep ∈ held.planDependencies) :
      dep ≠ step.name := sound.dependency_ne isStep unfin isHeld isTaken isDep
  refine ⟨sound.lower, fun place isTaken => ?_, fun place isReady => ?_,
    fun place held isHeld unfinishedPlace => ?_,
    fun name foreign => ?_, fun place isReady held isHeld => ?_,
    fun place held isHeld key isKey dep isDep => ?_,
    fun name => ?_, fun running place held isHeld isCancelled => ?_⟩
  · rcases isTaken with isReady | isFinished
    · rcases Finset.mem_insert.mp isReady with rfl | old
      · exact Nat.lt_of_succ_le level.le
      · exact sound.taken place (.inl old)
    · exact sound.taken place (.inr isFinished)
  · rcases Finset.mem_insert.mp isReady with rfl | old
    · exact unfin
    · exact sound.apart place old
  · dsimp only
    by_cases same : held.name = step.name
    · grind
    · rw [kept same]
      exact sound.fresh place held isHeld unfinishedPlace
  · dsimp only
    have different : name ≠ step.name := fun same => foreign (same ▸ isTarget)
    rw [kept different]
    exact sound.foreign name foreign
  · dsimp only
    by_cases same : held.name = step.name
    · grind [index_unique_of_name]
    · have wasReady : place ∈ progress.ready :=
        (Finset.mem_insert.mp isReady).resolve_left fun samePlace => same (by
          rw [samePlace, isStep] at isHeld
          cases isHeld
          rfl)
      grind [ready, taken]
  · dsimp only at isKey ⊢
    by_cases same : held.name = step.name
    · rw [same, own, sameFresh.handed] at isKey
      cases isKey
    · rw [kept same] at isKey
      have isFinished : place ∈ progress.finished := by
        by_contra absent
        rw [(sound.fresh place held isHeld absent).1.handed] at isKey
        cases isKey
      grind [taken, handed]
  · dsimp only
    by_cases same : name = step.name
    · rw [same, own]
      exact sameFresh.settled (by simp [sameMarked])
    · rw [kept same]
      exact sound.settled name
  · dsimp only at isCancelled
    by_cases same : held.name = step.name
    · rw [same, own, sameFresh.cancelled] at isCancelled
      cases isCancelled
    · rw [kept same] at isCancelled
      exact sound.cancelled running place held isHeld isCancelled

theorem start (scope : ActionScope) : Sound scope (start scope) := by
  have fresh (name : String) : ((ActionProgress.start scope).records name).Fresh := by
    dsimp only [ActionProgress.start]
    split
    · exact ⟨rfl, rfl, rfl⟩
    · exact ⟨rfl, rfl, rfl⟩
  refine ⟨fun index inside below => absurd below (Nat.not_lt_zero _), fun index isTaken => ?_,
    fun index isReady => ?_,
    fun index step isStep unfin => ⟨fresh step.name, fun incomplete => ?_⟩,
    fun name _ => fresh name,
    fun index isReady => ?_, fun index step isStep key isKey => ?_, fun name =>
      (fresh name).settled ?_,
    fun _ index step isStep isCancelled => ?_⟩
  · simp [ActionProgress.start] at isTaken
  · simp [ActionProgress.start] at isReady
  · simp [ActionProgress.start, incomplete]
  · simp [ActionProgress.start] at isReady
  · rw [(fresh step.name).handed] at isKey
    cases isKey
  · grind [ActionProgress.start, failedMembers]
  · rw [(fresh step.name).cancelled] at isCancelled
    cases isCancelled

theorem beginLevel (sound : Sound scope progress) {cancelled}
    (reads : ReadsCancel scope progress (.beginLevel cancelled))
    (stepped : progress.step scope (.beginLevel cancelled) = some next) : Sound scope next := by
  simp only [step] at stepped
  split at stepped
  · rename_i enabled
    simp only [Bool.and_eq_true, Bool.not_eq_true', decide_eq_true_eq] at enabled
    split at stepped
    · cases stepped
      exact ⟨sound.lower, sound.taken, sound.apart, sound.fresh, sound.foreign, sound.ready,
        sound.handed, sound.settled, fun running => by cases running⟩
    · rename_i unread
      cases stepped
      have done : ∀ index < scope.plan.steps.length, scope.plan.levelOf index < progress.level →
          index ∈ progress.finished := by grind [levelDone]
      refine ⟨fun index inside below => done index inside (by dsimp only at below; omega),
        fun index isTaken => Nat.lt_succ_of_lt (sound.taken index isTaken), sound.apart,
        sound.fresh, sound.foreign,
        sound.ready, sound.handed, sound.settled, fun running index step isStep isCancelled => ?_⟩
      obtain ⟨target, isTarget, isNamed⟩ := mem_steps_forAction.mp (List.mem_of_getElem? isStep)
      grind [ReadsCancel]
  · cases stepped

end Sound

theorem isOpen_spec (isOpen : progress.isOpen scope index = true) :
    progress.stopped = false ∧ scope.plan.levelOf index + 1 = progress.level ∧
    index ∉ progress.ready ∧
      index ∉ progress.finished := by
  simpa [ActionProgress.isOpen, and_assoc] using isOpen

theorem Sound.after (sound : Sound scope progress) {action}
    (reads : ReadsCancel scope progress action)
    (stepped : progress.step scope action = some next) : Sound scope next := by
  cases action with
  | beginLevel cancelled => exact sound.beginLevel reads stepped
  | refuse index message =>
    simp only [step] at stepped
    split at stepped
    · rename_i step isStep
      split at stepped
      · rename_i isOpen
        cases stepped
        obtain ⟨-, level, unready, unfinished⟩ := isOpen_spec isOpen
        have fresh := (sound.fresh index step isStep unfinished).1
        have after := sound.finish isStep unfinished level
          (fresh.settled_recordFailure (sound.settled step.name).marked message) fun key isKey => by
            simp [recordFailure, fresh.handed] at isKey
        rwa [Finset.erase_eq_of_notMem unready] at after
      · cases stepped
    · cases stepped
  | classify index =>
    simp only [step] at stepped
    split at stepped
    · rename_i step isStep
      split at stepped
      · rename_i isOpen
        obtain ⟨running, level, unready, unfinished⟩ := isOpen_spec isOpen
        split at stepped
        · rename_i record classified
          cases stepped
          have fresh := (sound.fresh index step isStep unfinished).1
          have marked := (sound.settled step.name).marked
          have unhanded : record.handed = [] ∧ record.Settled := by
            rcases classifyTarget_handled classified with rfl | rfl | ⟨error, rfl⟩
            · exact ⟨fresh.handed, sound.settled step.name⟩
            · exact ⟨fresh.handed, .of_failure (by simp [fresh.events]) marked⟩
            · exact ⟨fresh.handed, fresh.settled_recordFailure marked error⟩
          have after := sound.finish isStep unfinished level unhanded.2 fun key isKey => by
            simp [unhanded.1] at isKey
          rwa [Finset.erase_eq_of_notMem unready] at after
        · rename_i record classified
          cases stepped
          exact sound.prepare isStep unfinished running level classified
      · cases stepped
    · cases stepped
  | process index outcome =>
    simp only [step] at stepped
    split at stepped
    · rename_i step isStep
      split at stepped
      · rename_i enabled
        cases stepped
        have unfinished := sound.apart index enabled.1
        obtain ⟨fresh, unmarked⟩ := sound.fresh index step isStep unfinished
        obtain ⟨incomplete, before⟩ := sound.ready index enabled.1 step isStep
        have inside := (List.getElem?_eq_some_iff.mp isStep).1
        have level : scope.plan.levelOf index + 1 = progress.level := by
          have taken := sound.taken index (.inl enabled.1)
          by_contra other
          exact unfinished (sound.lower index inside (by omega))
        refine sound.finish isStep unfinished level
          (settled_processOutcome outcome fresh (unmarked incomplete)) fun key isKey dep isDep => ?_
        obtain ⟨-, unfailed⟩ := handed_processOutcome fresh.handed isKey
        grind
      · cases stepped
    · cases stepped

theorem Sound.keysOrdered (sound : Sound scope progress) : progress.KeysOrdered scope := by
  refine ⟨fun target key isHanded first isFirst precedes withheld => ?_,
    fun target key => (sound.settled target).completed key⟩
  have isTarget : target ∈ scope.targets := by
    by_contra foreign
    rw [(sound.foreign target foreign).handed] at isHanded
    cases isHanded
  obtain ⟨index, step, isStep, rfl, -⟩ := exists_step_forAction scope.graph scope.action
    scope.ordering isTarget
  have pre (dep : String) (isDep : dep ∈ scope.targets)
    (precedes : scope.ordering.Precedes scope.graph dep step.name) :=
    sound.handed index step isStep key isHanded dep
      ((mem_planDependencies (List.mem_of_getElem? isStep)).mpr ⟨isDep, precedes⟩)
  induction withheld with
  | failed isFailed => simp [(pre _ isFirst precedes).1] at isFailed
  | cancelled isCancelled => simp [(pre _ isFirst precedes).2.1] at isCancelled
  | marked isMarked => exact (pre _ isFirst precedes).2.2 ((sound.settled _).marked key isMarked)
  | through isEarlier early _ ih => exact ih isEarlier (early.trans precedes)

/-- Where levels read a cancel that skipped a target, bodies get only keys that nothing before them
failed. -/
theorem keys_ordered (scope : ActionScope) (actions : List Action) (final : ActionProgress)
    (performed : perform (ActionProgress.step scope) (ActionProgress.start scope) actions =
      some final)
    (reads : Stepwise (ActionProgress.step scope) (fun before action _ => ReadsCancel scope
      before action)
      (ActionProgress.start scope) actions) : final.KeysOrdered scope :=
  (reads.invariant (fun stepped sound assumed => sound.after assumed stepped) performed
    (Sound.start scope)).keysOrdered

def deletesDownstreamFirst : ActionScope where
  graph := ⟨[("a", []), ("b", ["a"])], by decide, by decide⟩
  action := "delete"
  targets := ["a", "b"]
  ordering := .downstreamFirst
  partitionKey := .single ["1", "2"]
  toJson _ := ""
  declared _ := some .unmaterialize

def marksFirstDay : List Action :=
  [.beginLevel none, .classify 1, .process 1 (.fullResult [(.single ["1"], "locked")] .completed),
    .beginLevel (some false), .classify 0, .process 0 (.fullResult [] .completed)]

/-- The body of `b` marks the first day as failed, so that of `a` is called with the second alone.
-/
theorem keys_ordered_marked :
    ∃ final, perform (ActionProgress.step deletesDownstreamFirst)
      (ActionProgress.start deletesDownstreamFirst)
        marksFirstDay = some final ∧ (final.records "a").handed = [.single ["2"]] ∧
      (final.records "b").marked = [.single ["1"]] ∧ final.KeysOrdered deletesDownstreamFirst := by
  have read : (perform (step deletesDownstreamFirst) (start deletesDownstreamFirst)
      marksFirstDay).map (fun final => ((final.records "a").handed, (final.records "b").marked)) =
        some ([.single ["2"]], [.single ["1"]]) := by decide +kernel
  obtain ⟨final, performed, records⟩ := Option.map_eq_some_iff.mp read
  obtain ⟨handed, marked⟩ := Prod.mk.inj records
  exact ⟨final, performed, handed, marked,
    keys_ordered deletesDownstreamFirst marksFirstDay final performed
    (by decide +kernel)⟩

/-- A cancel skips `b`. -/
theorem handed_after_cancelled :
    (perform (ActionProgress.step deletesDownstreamFirst)
      (ActionProgress.start deletesDownstreamFirst)
        [.beginLevel (some false), .classify 1, .process 1 .cancelled, .beginLevel none,
          .classify 0, .process 0 (.fullResult [] .completed)]).map
        (fun final => ((final.records "b").cancelled, (final.records "a").handed)) =
      some (true, [.single ["1"], .single ["2"]]) ∧
    deletesDownstreamFirst.ordering.Precedes deletesDownstreamFirst.graph "b" "a" := by
  refine ⟨by decide +kernel, ?_⟩
  exact .single ⟨("b", ["a"]), by decide, rfl, by decide⟩

end ActionProgress

end Rivers

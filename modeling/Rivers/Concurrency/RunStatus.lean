import Rivers.Concurrency.Coordinator
import Rivers.Concurrency.RunStatusCore
import Rivers.Lib.Transitions

/-! When a run keeps a terminal status. -/

namespace Rivers

open Transitions

structure HasStatus (runs : List StoredRun) (runId : String) (status : RunStatus) : Prop where
  present : ∃ run ∈ runs, run.runId = runId
  only : ∀ run ∈ runs, run.runId = runId → run.status = status

/-- The runs that the tick has yet to write as `NotStarted`. -/
def CoordinatorPhase.toDequeue : CoordinatorPhase → List String
  | .dequeuing toLaunch _ => toLaunch.map (·.runId)
  | _ => []

/-- The runs that the tick has written and the loop has yet to launch. -/
def CoordinatorPhase.toLaunch : CoordinatorPhase → List String
  | .dequeuing _ written => written.map (·.runId)
  | .launching launched => launched.map (·.runId)
  | _ => []

/-- What an executor of the run may still do leaves it with the status. -/
def RunSystem.Spares (system : RunSystem) (runId : String) (status : RunStatus) :
    ExecutorPhase → Prop
  | .launched => status = .canceled
  | .executing => status = .canceled ∧ runId ∈ system.cancelRequested
  | .finalizing written => written = status

/-- No daemon acts on an earlier reading of the run in a way that ends in another status. -/
structure RunSystem.Released (system : RunSystem) (runId : String) (status : RunStatus) : Prop where
  dequeued : runId ∉ system.coordinator.toDequeue
  launched : runId ∈ system.coordinator.toLaunch → status = .canceled ∧ system.kubernetes = false
  reaped : system.coordinator = .reaping runId → status = .canceled
  active : runId ∈ system.activeRuns → status = .canceled
  executors : ∀ phase, (runId, phase) ∈ system.executors → system.Spares runId status phase
  canceling : runId ∈ system.canceling → status = .canceled
  operated : runId ∉ system.operated
  syncing : ∀ written, (runId, written) ∈ system.syncing → written = status

variable {config : RunQueueConfig} {system next : RunSystem} {action : RunAction}
  {runs : List StoredRun} {runId : String} {status : RunStatus}

namespace HasStatus

theorem statusOf (stored : HasStatus runs runId status) : Rivers.statusOf runs runId =
    some status := by
  obtain ⟨run, member, isRun⟩ := stored.present
  obtain ⟨first, found⟩ : ∃ first, (runs.find? fun run => run.runId = runId) = some first := by
    rw [← Option.isSome_iff_exists, List.find?_isSome]
    exact ⟨run, member, decide_eq_true isRun⟩
  have same := List.find?_some found
  rw [Rivers.statusOf, found, Option.map_some,
    stored.only first (List.mem_of_find?_eq_some found) (of_decide_eq_true same)]

theorem updateWhere {other : String} {guard : RunStatus → Bool} {written : RunStatus}
    {endTime : Option Int} (stored : HasStatus runs runId status)
    (keeps : other = runId → guard status = true → written = status) :
    HasStatus (updateWhere runs other guard written endTime) runId status := by
  constructor
  · obtain ⟨run, member, isRun⟩ := stored.present
    refine ⟨_, List.mem_map_of_mem member, ?_⟩
    split <;> exact isRun
  · intro after member isRun
    obtain ⟨run, inTable, rfl⟩ := List.mem_map.mp member
    split at isRun
    · rename_i written
      rw [if_pos written]
      have same := stored.only run inTable isRun
      exact keeps (written.1.symm.trans isRun) (same ▸ written.2)
    · rename_i kept
      rw [if_neg kept]
      exact stored.only run inTable isRun

theorem updateRunStatus {other : String} {written : RunStatus} {endTime : Option Int}
    (stored : HasStatus runs runId status) (keeps : other = runId → written = status) :
    HasStatus (updateRunStatus runs other written endTime) runId status := by
  unfold Rivers.updateRunStatus
  exact stored.updateWhere fun isRun _ => keeps isRun

theorem tryStartRun {other : String} (stored : HasStatus runs runId status)
    (canceled : other = runId → status = .canceled) :
    HasStatus (tryStartRun runs other).1 runId status := by
  simp only [Rivers.tryStartRun]
  refine stored.updateWhere fun isRun guarded => ?_
  simp [canceled isRun] at guarded

theorem cancelQueuedRun {other : String} {now : Int} (stored : HasStatus runs runId status)
    (terminal : status.isTerminal = true) :
    HasStatus (cancelQueuedRun runs other now).1 runId status := by
  simp only [Rivers.cancelQueuedRun]
  refine stored.updateWhere fun _ guarded => ?_
  cases status with
  | success | failure | canceled => cases guarded
  | queued | notStarted | started => cases terminal

theorem failRunIfActive {other : String} {now : Int} (stored : HasStatus runs runId status)
    (terminal : status.isTerminal = true) :
    HasStatus (failRunIfActive runs other now).1 runId status := by
  simp only [Rivers.failRunIfActive]
  refine stored.updateWhere fun _ guarded => ?_
  cases status with
  | success | failure | canceled => cases guarded
  | queued | notStarted | started => cases terminal

theorem append {run : StoredRun} (stored : HasStatus runs runId status)
    (fresh : Rivers.statusOf runs run.runId = none) : HasStatus (runs ++ [run]) runId status := by
  obtain ⟨old, member, isOld⟩ := stored.present
  refine ⟨⟨old, List.mem_append_left _ member, isOld⟩, fun other inTable isRun => ?_⟩
  rcases List.mem_append.mp inTable with before | isNew
  · exact stored.only other before isRun
  · rw [List.mem_singleton] at isNew
    rw [isNew] at isRun
    rw [isRun, stored.statusOf] at fresh
    cases fresh

end HasStatus

namespace CoordinatorPhase

theorem toDequeue_afterWrite (written toLaunch : List CoordinatorRunInfo) :
    (afterWrite written toLaunch).toDequeue = toLaunch.map (·.runId) := by
  cases toLaunch with
  | nil => cases written <;> rfl
  | cons run toLaunch => rfl

theorem toLaunch_afterLaunch (launched : List CoordinatorRunInfo) :
    (afterLaunch launched).toLaunch = launched.map (·.runId) := by
  cases launched <;> rfl

theorem toLaunch_afterWrite (written toLaunch : List CoordinatorRunInfo) :
    (afterWrite written toLaunch).toLaunch = written.map (·.runId) := by
  cases toLaunch with
  | nil => exact toLaunch_afterLaunch written
  | cons run toLaunch => rfl

theorem afterLaunch_ne_reaping (launched : List CoordinatorRunInfo) :
    afterLaunch launched ≠ .reaping runId := by
  cases launched <;> nofun

theorem afterWrite_ne_reaping (written toLaunch : List CoordinatorRunInfo) :
    afterWrite written toLaunch ≠ .reaping runId := by
  cases toLaunch with
  | nil => exact afterLaunch_ne_reaping written
  | cons run toLaunch => nofun

end CoordinatorPhase

theorem launched_subset_queue {written : String → Bool}
    {inProgress queue : List CoordinatorRunInfo} :
    (tick written config inProgress queue).launched.getD [] ⊆ queue := by
  obtain ⟨launched, isLaunched, sublist⟩ := @toLaunch_append (config.slotsAvailable inProgress)
    (startState config.tagConcurrencyLimits inProgress) queue
  rw [startState, List.nil_append] at isLaunched
  simp only [tick]
  split
  · exact List.nil_subset _
  · dsimp only
    split
    · rw [Option.getD_some, isLaunched]
      exact sublist.subset
    · exact List.nil_subset _

namespace RunSystem

theorem not_mem_runsWith (stored : HasStatus system.runs runId status) {statuses : List RunStatus}
    (other : status ∉ statuses) : runId ∉ (system.runsWith statuses).map (·.runId) := by
  intro member
  obtain ⟨info, answered, isRun⟩ := List.mem_map.mp member
  obtain ⟨run, found, rfl⟩ := List.mem_map.mp answered
  obtain ⟨inTable, hasStatus⟩ := List.mem_filter.mp found
  rw [stored.only run inTable isRun] at hasStatus
  exact other (of_decide_eq_true hasStatus)

namespace Released

theorem addExecutor {other : String} {phase : ExecutorPhase}
    (released : system.Released runId status)
    (spares : other = runId → system.Spares runId status phase) :
    (system.addExecutor other phase).Released runId status := by
  refine { released with executors := fun held member => ?_ }
  rcases List.mem_append.mp member with old | new
  · exact released.executors held old
  · obtain ⟨rfl, rfl⟩ := Prod.mk.inj (List.mem_singleton.mp new)
    exact spares rfl

theorem moveExecutor {other : String} {phase : ExecutorPhase} {later : Option ExecutorPhase}
    (released : system.Released runId status)
    (spares : other = runId → ∀ held ∈ later, system.Spares runId status held) :
    (system.moveExecutor other phase later).Released runId status := by
  refine { released with executors := fun held member => ?_ }
  rcases List.mem_append.mp member with old | new
  · exact released.executors held (List.mem_of_mem_erase old)
  · obtain ⟨moved, isMoved, same⟩ := List.mem_map.mp new
    obtain ⟨rfl, rfl⟩ := Prod.mk.inj same
    exact spares rfl moved (Option.mem_toList.mp isMoved)

theorem setCoordinator {phase : CoordinatorPhase} (released : system.Released runId status)
    (dequeued : runId ∉ phase.toDequeue)
    (launched : runId ∈ phase.toLaunch → status = .canceled ∧ system.kubernetes = false)
    (reaped : phase = .reaping runId → status = .canceled) :
    { system with coordinator := phase }.Released runId status :=
  { released with dequeued, launched, reaped }

theorem eraseActive {other : String} (released : system.Released runId status) :
    { system with activeRuns := system.activeRuns.erase other }.Released runId status :=
  { released with active := fun member => released.active (Finset.mem_of_mem_erase member) }

theorem tickQuery {queue : List CoordinatorRunInfo} (released : system.Released runId status)
    (stored : HasStatus system.runs runId status) (terminal : status.isTerminal = true)
    (advanced : system.advance config (.tickQuery queue) = some next) : next.Released runId
    status := by
  simp only [advance, Option.ite_none_right_eq_some, Option.some.injEq] at advanced
  obtain ⟨⟨-, order⟩, rfl⟩ := advanced
  refine released.setCoordinator ?_ ?_ fun reaping => ?_
  · rw [CoordinatorPhase.toDequeue_afterWrite]
    intro launched
    obtain ⟨run, isLaunched, rfl⟩ := List.mem_map.mp launched
    have notQueued : status ∉ [RunStatus.queued] := by
      rw [List.mem_singleton]
      rintro rfl
      cases terminal
    exact not_mem_runsWith stored notQueued
      (List.mem_map_of_mem (order.perm.subset (launched_subset_queue isLaunched)))
  · rw [CoordinatorPhase.toLaunch_afterWrite]
    intro member
    cases member
  · exact absurd reaping (CoordinatorPhase.afterWrite_ne_reaping _ _)

theorem dequeueRun {other : String} (released : system.Released runId status)
    (advanced : system.advance config (.dequeueRun other) = some next) :
    other ≠ runId ∧ next.Released runId status := by
  simp only [advance] at advanced
  split at advanced
  · rename_i run toLaunch written phase
    obtain ⟨rfl, same⟩ := Option.ite_none_right_eq_some.mp advanced
    cases same
    have free := released.dequeued
    rw [phase, CoordinatorPhase.toDequeue, List.map_cons, List.mem_cons, not_or] at free
    refine ⟨Ne.symm free.1, released.setCoordinator ?_ ?_ fun reaping => ?_⟩
    · rw [CoordinatorPhase.toDequeue_afterWrite]
      exact free.2
    · rw [CoordinatorPhase.toLaunch_afterWrite, List.map_append, List.mem_append]
      rintro (before | isWritten)
      · exact released.launched (by rw [phase]; exact before)
      · exact absurd (List.mem_singleton.mp isWritten) free.1
    · exact absurd reaping (CoordinatorPhase.afterWrite_ne_reaping _ _)
  · cases advanced

theorem launch {other : String} {accepted : Bool} (released : system.Released runId status)
    (advanced : system.advance config (.launch other accepted) = some next) :
    next.Released runId status := by
  simp only [advance] at advanced
  split at advanced
  · rename_i run launched phase
    obtain ⟨rfl, same⟩ := Option.ite_none_right_eq_some.mp advanced
    have held {id : String} (member : id ∈ (run :: launched).map (·.runId)) (isRun : id = runId) :
        status = .canceled ∧ system.kubernetes = false := by
      refine released.launched ?_
      rw [phase, ← isRun]
      exact member
    have isNext : { system with coordinator := .afterLaunch launched }.Released runId status := by
      refine released.setCoordinator ?_ ?_ fun reaping => ?_
      · cases launched <;> exact List.not_mem_nil
      · rw [CoordinatorPhase.toLaunch_afterLaunch]
        exact fun member => held (List.mem_cons_of_mem _ member) rfl
      · exact absurd reaping (CoordinatorPhase.afterLaunch_ne_reaping _)
    have isActive : { system with
        coordinator := .afterLaunch launched
        activeRuns := insert run.runId system.activeRuns }.Released runId status := by
      refine { isNext with active := fun member => ?_ }
      rcases Finset.mem_insert.mp member with isRun | old
      · exact (held List.mem_cons_self isRun.symm).1
      · exact released.active old
    split at same
    · cases same
      exact isNext
    · split at same
      · rename_i onKubernetes
        cases same
        refine { isActive with operated := fun member => ?_ }
        rcases Finset.mem_insert.mp member with isRun | old
        · exact Bool.false_ne_true ((held List.mem_cons_self isRun.symm).2.symm.trans onKubernetes)
        · exact released.operated old
      · cases same
        exact isActive.addExecutor fun isRun => (held List.mem_cons_self isRun).1
  · cases advanced

theorem startRun {other : String} (released : system.Released runId status)
    (stored : HasStatus system.runs runId status)
    (advanced : system.advance config (.startRun other) = some next) :
    (other = runId → status = .canceled) ∧ next.Released runId status := by
  obtain ⟨member, same⟩ := Option.ite_none_right_eq_some.mp advanced
  cases same
  have canceled (isRun : other = runId) : status = .canceled :=
    released.executors .launched (isRun ▸ member)
  refine ⟨canceled, released.moveExecutor fun isRun held isHeld => ?_⟩
  -- the row of a canceled run is not written, so the executor stops
  have found := (stored.tryStartRun canceled).statusOf
  rw [canceled isRun, ← isRun] at found
  have answer : (tryStartRun system.runs other).2 = some false := congrArg (Option.map _) found
  rw [answer] at isHeld
  cases isHeld

theorem finishPlan {other : String} {succeeded : Bool} (released : system.Released runId status)
    (advanced : system.advance config (.finishPlan other succeeded) = some next) :
    next.Released runId status := by
  obtain ⟨member, same⟩ := Option.ite_none_right_eq_some.mp advanced
  cases same
  refine released.moveExecutor fun isRun held isHeld => ?_
  obtain ⟨canceled, requested⟩ := released.executors .executing (isRun ▸ member)
  cases isHeld
  rw [isRun, decide_eq_true requested]
  exact canceled.symm

theorem healthMissing {other : String} {outcomeRead : Bool}
    (released : system.Released runId status)
    (advanced : system.advance config (.healthMissing other outcomeRead) = some next) :
    next.Released runId status := by
  obtain ⟨⟨-, isActive⟩, same⟩ := Option.ite_none_right_eq_some.mp advanced
  split at same
  · cases same
    exact released.eraseActive
  · cases same
    refine released.setCoordinator List.not_mem_nil (fun member => by cases member) fun reaping =>
      ?_
    cases reaping
    exact released.active isActive

theorem readHandle {other : String} (released : system.Released runId status)
    (stored : HasStatus system.runs runId status) (terminal : status.isTerminal = true)
    (advanced : system.advance config (.readHandle other) = some next) :
    next.Released runId status := by
  simp only [advance] at advanced
  split at advanced
  · rename_i found isFound
    split at advanced
    · cases advanced
      exact released
    · rename_i live
      cases advanced
      refine { released with canceling := fun member => ?_ }
      rcases List.mem_cons.mp member with isRun | old
      · rw [← isRun, stored.statusOf] at isFound
        cases isFound
        exact absurd terminal live
      · exact released.canceling old
  · cases advanced

/-- The step takes the run up with none of the daemons and leaves its row as it is. -/
theorem step (released : system.Released runId status) (stored : HasStatus system.runs runId status)
    (terminal : status.isTerminal = true) (advanced : system.advance config action = some next) :
    next.Released runId status ∧ HasStatus (action.write system.runs) runId status := by
  cases action with
  | enqueueRun run =>
    obtain ⟨⟨-, fresh⟩, same⟩ := Option.ite_none_right_eq_some.mp advanced
    cases same
    exact ⟨released, stored.append fresh⟩
  | createRun run phase =>
    obtain ⟨⟨-, fresh, -⟩, same⟩ := Option.ite_none_right_eq_some.mp advanced
    cases same
    refine ⟨released.addExecutor fun isRun => ?_, stored.append fresh⟩
    rw [isRun, stored.statusOf] at fresh
    cases fresh
  | tickQuery queue => exact ⟨released.tickQuery stored terminal advanced, stored⟩
  | dequeueRun other =>
    obtain ⟨differ, later⟩ := released.dequeueRun advanced
    exact ⟨later, stored.updateRunStatus fun isRun => absurd isRun differ⟩
  | tickError =>
    simp only [advance] at advanced
    split at advanced
    · cases advanced
      exact ⟨released.setCoordinator List.not_mem_nil (fun member => by cases member) nofun, stored⟩
    · cases advanced
  | launch other accepted => exact ⟨released.launch advanced, stored⟩
  | requestCancellation other =>
    cases advanced
    refine ⟨{ released with executors := fun phase member => ?_ }, stored⟩
    have spares := released.executors phase member
    cases phase with
    | executing => exact ⟨spares.1, Finset.mem_insert_of_mem spares.2⟩
    | launched | finalizing written => exact spares
  | setRunOutcome other =>
    cases advanced
    exact ⟨{ released with }, stored⟩
  | cancelQueuedRun other now =>
    cases advanced
    exact ⟨released, stored.cancelQueuedRun terminal⟩
  | failRun other now =>
    cases advanced
    exact ⟨released, stored.failRunIfActive terminal⟩
  | startRun other =>
    obtain ⟨canceled, later⟩ := released.startRun stored advanced
    exact ⟨later, stored.tryStartRun canceled⟩
  | finishPlan other succeeded => exact ⟨released.finishPlan advanced, stored⟩
  | finalizeRun other written now =>
    obtain ⟨member, same⟩ := Option.ite_none_right_eq_some.mp advanced
    cases same
    refine ⟨released.moveExecutor fun _ _ held => (by cases held),
      stored.updateRunStatus fun isRun => ?_⟩
    exact released.executors (.finalizing written) (isRun ▸ member)
  | healthExited other =>
    obtain ⟨-, same⟩ := Option.ite_none_right_eq_some.mp advanced
    cases same
    exact ⟨released.eraseActive, stored⟩
  | healthMissing other outcomeRead => exact ⟨released.healthMissing advanced, stored⟩
  | reapRun other now =>
    obtain ⟨phase, same⟩ := Option.ite_none_right_eq_some.mp advanced
    cases same
    refine ⟨released.eraseActive.setCoordinator List.not_mem_nil (fun member => by cases member)
      nofun, stored.updateRunStatus fun isRun => ?_⟩
    exact (released.reaped (isRun ▸ phase)).symm
  | readHandle other => exact ⟨released.readHandle stored terminal advanced, stored⟩
  | cancelHandle other now =>
    obtain ⟨member, same⟩ := Option.ite_none_right_eq_some.mp advanced
    cases same
    refine ⟨{ released with
      canceling := fun later => released.canceling (List.mem_of_mem_erase later) },
      stored.updateRunStatus fun isRun => ?_⟩
    exact (released.canceling (isRun ▸ member)).symm
  | createExecutor other =>
    obtain ⟨member, same⟩ := Option.ite_none_right_eq_some.mp advanced
    cases same
    exact ⟨released.addExecutor fun isRun => absurd (isRun ▸ member) released.operated, stored⟩
  | decidePhase other decided =>
    obtain ⟨member, same⟩ := Option.ite_none_right_eq_some.mp advanced
    cases same
    refine ⟨{ released with syncing := fun written isPending => ?_ }, stored⟩
    rcases List.mem_cons.mp isPending with isNew | old
    · cases isNew
      exact absurd member released.operated
    · exact released.syncing written old
  | closeRun other =>
    cases advanced
    exact ⟨{ released with
      operated := fun member => released.operated (Finset.mem_of_mem_erase member) }, stored⟩
  | syncRunStatusToStorage other written now =>
    obtain ⟨member, same⟩ := Option.ite_none_right_eq_some.mp advanced
    cases same
    refine ⟨{ released with
      syncing := fun later isPending => released.syncing later (List.mem_of_mem_erase isPending) },
      stored.updateRunStatus fun isRun => ?_⟩
    exact released.syncing written (isRun ▸ member)

end Released

end RunSystem

/-- From a state in which a run has a terminal status and no daemon holds a reading of it that leads
to another one, the run keeps the status in every continuation. -/
theorem terminal_status_kept (config : RunQueueConfig) (system : RunSystem) (runId : String)
    (status : RunStatus) (actions : List RunAction) (stored : HasStatus system.runs runId status)
    (terminal : status.isTerminal = true) (released : system.Released runId status) :
    Always (RunSystem.step config) (fun reached => HasStatus reached.runs runId status) system
      actions := by
  let settled (reached : RunSystem) : Prop :=
    reached.Released runId status ∧ HasStatus reached.runs runId status
  have kept {before after : RunSystem} {action : RunAction}
      (stepped : before.step config action = some after)
      (held : settled before) : settled after := by
    obtain ⟨advanced, isAdvanced, rfl⟩ := Option.map_eq_some_iff.mp stepped
    obtain ⟨later, sameStatus⟩ := held.1.step held.2 terminal isAdvanced
    exact ⟨{ later with }, sameStatus⟩
  exact always_of_invariant kept And.right ⟨released, stored⟩

def queueOne : RunQueueConfig := ⟨1, []⟩

def nightly : StoredRun :=
  { runId := "nightly", tags := [], priority := 0, startTime := 1, status := .queued }

/-- A run is canceled before its executor starts, and what the executor and the sweep do afterwards
leaves it so. -/
theorem terminal_status_kept_nightly :
    Always (RunSystem.step queueOne) (fun reached => HasStatus reached.runs "nightly" .canceled)
      { runs := [{ nightly with status := .canceled }], executors := [("nightly", .launched)] }
      [.startRun "nightly", .failRun "nightly" 7, .cancelQueuedRun "nightly" 8] := by
  refine terminal_status_kept queueOne _ "nightly" .canceled _ ?_ rfl ?_
  · exact ⟨⟨_, List.mem_singleton_self _, rfl⟩, by simp⟩
  · constructor <;> simp [CoordinatorPhase.toDequeue, CoordinatorPhase.toLaunch, RunSystem.Spares]

/-- The tick has read the run from the queue, the run is canceled, and the tick's write makes it
`NotStarted`. -/
theorem canceled_run_dequeued :
    (perform (RunSystem.step queueOne) {}
        [.enqueueRun nightly, .tickQuery [nightly.toCoordinatorRunInfo],
          .cancelQueuedRun "nightly" 5]).map
      (fun reached => statusOf reached.runs "nightly") = some (some .canceled) ∧
    (perform (RunSystem.step queueOne) {}
        [.enqueueRun nightly, .tickQuery [nightly.toCoordinatorRunInfo],
          .cancelQueuedRun "nightly" 5, .dequeueRun "nightly"]).map
      (fun reached => statusOf reached.runs "nightly") = some (some .notStarted) := by
  constructor <;> decide +kernel

end Rivers

import Rivers.Backfill.ProcessCore
import Rivers.Lib.Transitions

/-! When a backfill keeps its terminal status. -/

namespace Rivers

open Transitions BackfillProcess BackfillStore

def ExecutionLoop.MayCancel (loop : ExecutionLoop) : Prop :=
  loop.groups ≠ [] ∨ loop.canceledKeys ≠ []

def BackfillProcess.Pending (status : BackfillStatus) : BackfillProcess → Prop
  | .fail _ | .markInProgress _ | .readRuns _ _ | .readFailures _ _ _ | .settle _ _ => True
  | .launch _ _ _ | .submit | .recheck _ => True
  | .link loop | .recordFailed _ loop | .finishRun _ _ loop | .recordOutcome _ loop =>
      status ≠ .canceled ∧ loop.MayCancel
  | .readBackfill caller => status ≠ .canceled ∧ caller.extraCanceled ≠ []
  | .markCanceled | .cancelFromUi => status ≠ .canceled
  | .cancelRuns submission runIds => submission = true ∧ runIds ≠ []
  | .recordCanceled submission _ _ => submission = true
  | .dequeueRun _ | .startRun _ => status = .canceled
  | .execute _ | .cancelIfOpen | .readCanceled | .readLinks | .readLinkedRuns _ | .monitor | .resume
  | .finishQueuedRun _ | .recordQueuedRun _ => False

namespace BackfillStore

variable (store : BackfillStore)

def IsChild (run : StoredRun) : Prop :=
  run.launchedBy = .backfill store.backfill.backfillId

def Waiting (run : StoredRun) : Prop :=
  run ∈ store.runs ∧ store.IsChild run ∧ run.status ∈ [.queued, .notStarted]

def Started (runId : String) : Prop :=
  ∃ run ∈ store.runs, run.runId = runId ∧ store.IsChild run ∧ run.status = .started

end BackfillStore

structure BackfillSystem.Quiet (system : BackfillSystem) : Prop where
  processes : ∀ process ∈ system.processes, ¬process.Pending system.store.backfill.status
  runs : system.store.backfill.status = .canceled → ∀ run, ¬system.store.Waiting run

/-- The step ends the backfill only while the system is quiet, and is no cancellation of a completed
one by the user interface. -/
structure SettlesQuietly (before : BackfillSystem) (action : BackfillAction)
    (after : BackfillSystem) : Prop where
  quiet : before.store.backfill.status.isTerminal = false →
    after.store.backfill.status.isTerminal = true → after.Quiet
  uncompleted : action = .spawn .cancelFromUi → before.store.backfill.status.isTerminal = true →
    before.store.backfill.status = .canceled

def KeepsTerminal (before : BackfillSystem) (_ : BackfillAction) (after : BackfillSystem) : Prop :=
  before.store.backfill.status.isTerminal = true →
    after.store.backfill.status = before.store.backfill.status ∧
      (before.store.backfill.status = .canceled → ∀ runId, after.store.Started runId →
        before.store.Started runId)

section Rows

structure BackfillStore.Calms (before after : BackfillStore) : Prop where
  backfillId : after.backfill.backfillId = before.backfill.backfillId
  runs : ∀ run ∈ after.runs, run ∈ before.runs ∨ run.status.isTerminal = true

variable {before after : BackfillStore}

theorem BackfillStore.calms_refl : before.Calms before :=
  ⟨rfl, fun _ mem => .inl mem⟩

theorem BackfillStore.Calms.waiting (calms : before.Calms after) {run}
    (waiting : after.Waiting run) :
    before.Waiting run := by
  grind [IsChild, Waiting, RunStatus.isTerminal, Calms]

theorem BackfillStore.Calms.started (calms : before.Calms after) {runId}
    (started : after.Started runId) :
    before.Started runId := by
  grind [IsChild, Started, RunStatus.isTerminal, Calms]

theorem recordBackfillRunOutcome_frame (store : BackfillStore) (run : StoredRun) :
    (store.recordBackfillRunOutcome run).backfill.status = store.backfill.status ∧
      store.Calms (store.recordBackfillRunOutcome run) := by
  unfold BackfillStore.recordBackfillRunOutcome
  split
  · exact ⟨rfl, rfl, fun _ member => .inl member⟩
  · exact ⟨rfl, BackfillStore.calms_refl⟩

theorem recordOutcomes_frame (rows : List StoredRun) (store : BackfillStore) :
    (rows.foldl (·.recordBackfillRunOutcome ·) store).backfill.status = store.backfill.status ∧
      store.Calms (rows.foldl (·.recordBackfillRunOutcome ·) store) := by
  induction rows generalizing store with
  | nil => exact ⟨rfl, calms_refl⟩
  | cons run rows ih =>
    obtain ⟨status, calms⟩ := ih (store.recordBackfillRunOutcome run)
    obtain ⟨sameStatus, first⟩ := recordBackfillRunOutcome_frame store run
    refine ⟨status.trans sameStatus, calms.backfillId.trans first.backfillId, fun row mem => ?_⟩
    exact (calms.runs row mem).elim (first.runs row) .inr

end Rows

section Steps

variable {toJson : PartitionKey → String} {store : BackfillStore} {answer : BackfillAnswer}
  {process : BackfillProcess}

structure TakesQuietly (store : BackfillStore) (taken : BackfillStore × List BackfillProcess) :
    Prop where
  status : taken.1.backfill.status = store.backfill.status
  processes : ∀ process ∈ taken.2, ¬process.Pending store.backfill.status
  runs : store.backfill.status = .canceled → store.Calms taken.1

theorem takesQuietly_same {successors}
    (idle : ∀ process ∈ successors, ¬process.Pending store.backfill.status) :
    TakesQuietly store (store, successors) :=
  ⟨rfl, idle, fun _ => calms_refl⟩

theorem takesQuietly_update {runId guard status endTime successors}
    (term : status.isTerminal = true)
    (idle : ∀ process ∈ successors, ¬process.Pending store.backfill.status) :
    TakesQuietly store ({ store with runs := updateWhere store.runs runId guard status endTime },
      successors) where
  status := rfl
  processes := idle
  runs _ := by grind [updateWhere, BackfillStore.Calms]

theorem takesQuietly_record {rows : List StoredRun} {successors}
    (idle : ∀ process ∈ successors, ¬process.Pending store.backfill.status) :
    TakesQuietly store (rows.foldl (·.recordBackfillRunOutcome ·) store, successors) :=
  ⟨(recordOutcomes_frame rows store).1, idle, fun _ => (recordOutcomes_frame rows store).2⟩

theorem settled_idle {caller}
    (idle : ¬(store.backfill.status ≠ .canceled ∧ caller.extraCanceled ≠ [])) :
    ∀ process ∈ settled answer none caller, ¬process.Pending store.backfill.status := by
  intro process mem pending
  cases caller with
  | execution canceledKeys cancel => grind [Settler.extraCanceled, BackfillProcess.Pending, settled]
  | cancellation => grind [BackfillProcess.Pending, settled]
  | monitor => cases mem

theorem unsettled_idle {caller}
    (idle : ¬(store.backfill.status ≠ .canceled ∧ caller.extraCanceled ≠ [])) :
    ∀ process ∈ unsettled answer caller, ¬process.Pending store.backfill.status := by
  cases caller with
  | execution canceledKeys cancel => exact settled_idle idle
  | cancellation | monitor => exact fun process mem => by cases mem

theorem uncanceled_idle {runIds} :
    ∀ process ∈ uncanceled answer false runIds, ¬process.Pending store.backfill.status :=
  List.forall_mem_singleton.mpr fun sweep => Bool.false_ne_true sweep.1

theorem cascade_idle {runId runIds} (canceled : Bool) :
    ¬(if canceled then recordCanceled false runId runIds else cancelRuns false runIds).Pending
      store.backfill.status := by
  cases canceled with
  | false => exact fun sweep => Bool.false_ne_true sweep.1
  | true => exact Bool.false_ne_true

theorem take_link_quiet {loop} (term : store.backfill.status.isTerminal = true)
    (idle : ¬(link loop).Pending store.backfill.status) :
    TakesQuietly store ((link loop).take toJson store answer) := by
  have notOpen : store.backfill.status ≠ .inProgress := by
    intro isOpen
    rw [isOpen] at term
    cases term
  cases groups : loop.groups with
  | nil =>
    simp only [take, groups]
    refine takesQuietly_same (List.forall_mem_singleton.mpr fun pending =>
      idle ⟨pending.1, .inr pending.2⟩)
  | cons group rest =>
    grind [takesQuietly_same, ExecutionLoop.MayCancel, take, linkBackfillRun, BackfillProcess.Pending]

theorem take_quiet (term : store.backfill.status.isTerminal = true)
    (idle : ¬process.Pending store.backfill.status) :
    TakesQuietly store (process.take toJson store answer) := by
  have notOpen : store.backfill.status ≠ .inProgress ∧ store.backfill.status ≠ .requested := by
    constructor <;> intro isOpen <;> rw [isOpen] at term <;> cases term
  cases process with
  | fail _ | markInProgress _ | readRuns _ _ | readFailures _ _ _ | settle _ _ | launch _ _ _ | submit
  | recheck _ => exact absurd trivial idle
  | execute queued =>
    simp only [take, if_pos notOpen.2]
    exact takesQuietly_same (by simp)
  | link loop => exact take_link_quiet term idle
  | recordFailed group loop =>
    grind [take, BackfillStore.updateBackfillProgress, BackfillProcess.Pending, BackfillStore.Calms,
      TakesQuietly]
  | finishRun runId group loop =>
    simp only [take]
    split
    · exact takesQuietly_update (finalizeStatus_isTerminal _ _) (List.forall_mem_singleton.mpr idle)
    · exact takesQuietly_same (List.forall_mem_singleton.mpr idle)
  | recordOutcome run loop =>
    simp only [take]
    split
    · exact takesQuietly_record (List.forall_mem_singleton.mpr idle)
    · exact takesQuietly_same (List.forall_mem_singleton.mpr idle)
  | markCanceled | cancelFromUi =>
    have canceled : store.backfill.status = .canceled := not_not.mp idle
    exact ⟨canceled.symm, by simp [take], fun _ => ⟨rfl, fun _ mem => .inl mem⟩⟩
  | readBackfill caller =>
    simp only [take, if_pos notOpen.1]
    split
    · exact takesQuietly_same (unsettled_idle idle)
    · exact takesQuietly_same (settled_idle idle)
  | cancelIfOpen =>
    grind [takesQuietly_same, BackfillStore.cancelIfOpen, take, BackfillProcess.Pending]
  | readCanceled =>
    refine takesQuietly_same ?_
    split
    · exact List.forall_mem_singleton.mpr id
    · simp
  | readLinks => exact takesQuietly_same (List.forall_mem_singleton.mpr id)
  | readLinkedRuns runIds =>
    exact takesQuietly_same (List.forall_mem_singleton.mpr fun sweep => by cases sweep.1)
  | cancelRuns submission runIds =>
    cases runIds with
    | nil => exact takesQuietly_same (by simp)
    | cons runId runIds =>
      obtain rfl : submission = false := Bool.eq_false_iff.mpr fun sweep => idle ⟨sweep,
        List.cons_ne_nil _ _⟩
      simp only [take, cancelQueuedRun]
      split
      · exact takesQuietly_update rfl (List.forall_mem_singleton.mpr (cascade_idle _))
      · exact takesQuietly_same uncanceled_idle
  | recordCanceled submission runId runIds =>
    obtain rfl : submission = false := Bool.eq_false_iff.mpr idle
    simp only [take]
    split
    · exact takesQuietly_record (List.forall_mem_singleton.mpr fun sweep =>
        Bool.false_ne_true sweep.1)
    · exact takesQuietly_same uncanceled_idle
  | monitor =>
    simp only [take, if_pos notOpen.1]
    exact takesQuietly_same (by simp)
  | resume => grind [takesQuietly_same, BackfillStore.resumeStalledBackfill, take]
  | dequeueRun runId =>
    exact ⟨rfl, List.forall_mem_singleton.mpr idle, fun canceled => absurd canceled idle⟩
  | startRun runId => grind [take, BackfillProcess.Pending, TakesQuietly]
  | finishQueuedRun runId =>
    exact takesQuietly_update (finalizeStatus_isTerminal _ _) (List.forall_mem_singleton.mpr id)
  | recordQueuedRun run => exact takesQuietly_record (by simp)

theorem BackfillSystem.Quiet.begins {system : BackfillSystem} (quiet : system.Quiet)
    (begins : system.mayBegin process = true)
    (uncompleted : process = .cancelFromUi → system.store.backfill.status = .canceled) :
    ¬process.Pending system.store.backfill.status := by
  cases process with
  | execute queued | monitor => exact id
  | cancelFromUi => exact not_not.mpr (uncompleted rfl)
  | readBackfill caller => grind [BackfillProcess.Pending, mayBegin, Settler.extraCanceled]
  | dequeueRun runId =>
    intro canceled
    simp only [mayBegin, List.any_eq_true, decide_eq_true_eq] at begins
    obtain ⟨run, mem, -, queued, child⟩ := begins
    exact quiet.runs canceled run ⟨mem, child, by simp [queued]⟩
  | _ => cases begins

theorem BackfillSystem.Quiet.step {system next action} (quiet : system.Quiet)
    (term : system.store.backfill.status.isTerminal = true)
    (settles : SettlesQuietly system action next)
    (stepped : system.step toJson action = some next) :
    next.Quiet ∧ KeepsTerminal system action next := by
  cases action with
  | spawn process =>
    obtain ⟨begins, same⟩ := Option.ite_none_right_eq_some.mp stepped
    cases same
    refine ⟨⟨fun other mem => ?_, quiet.runs⟩, fun _ => ⟨rfl, fun _ _ started => started⟩⟩
    rcases List.mem_append.mp mem with old | new
    · exact quiet.processes other old
    · rw [List.mem_singleton.mp new]
      exact quiet.begins begins fun ui => settles.uncompleted (by rw [ui]) term
  | stop process =>
    cases stepped
    exact ⟨⟨fun other mem => quiet.processes other (List.mem_of_mem_erase mem), quiet.runs⟩,
      fun _ => ⟨rfl, fun _ _ started => started⟩⟩
  | take process answer =>
    simp only [BackfillSystem.step, Option.ite_none_right_eq_some, Option.some.injEq] at stepped
    obtain ⟨mem, same⟩ := stepped
    have taken : TakesQuietly system.store (process.take toJson system.store answer) :=
      take_quiet term (quiet.processes process mem)
    generalize process.take toJson system.store answer = result at same taken
    obtain ⟨after, successors⟩ := result
    cases same
    refine ⟨⟨fun other inNext => ?_, fun canceled run waiting => ?_⟩, fun _ => ⟨taken.status, ?_⟩⟩
    · grind [Quiet, TakesQuietly]
    · have wasCanceled : system.store.backfill.status = .canceled :=
        taken.status.symm.trans canceled
      exact quiet.runs wasCanceled run ((taken.runs wasCanceled).waiting waiting)
    · exact fun canceled runId started => (taken.runs canceled).started started

end Steps

/-- Where the backfill ends only while the system is quiet, no step changes its terminal status. -/
theorem backfill_status_kept (toJson : PartitionKey → String) (system : BackfillSystem)
    (actions : List BackfillAction) (unsettled : system.store.backfill.status.isTerminal = false)
    (quietly : Stepwise (BackfillSystem.step toJson) SettlesQuietly system actions) :
    Stepwise (BackfillSystem.step toJson) KeepsTerminal system actions := by
  let invariant (system : BackfillSystem) : Prop :=
    system.store.backfill.status.isTerminal = true → system.Quiet
  have kept {before after : BackfillSystem} {action : BackfillAction}
      (stepped : before.step toJson action = some after) (held : invariant before)
      (settles : SettlesQuietly before action after) : invariant after ∧
      KeepsTerminal before action after := by
    cases terminal : before.store.backfill.status.isTerminal with
    | false =>
      exact ⟨settles.quiet terminal, fun isTerminal => absurd (terminal.symm.trans isTerminal)
        Bool.false_ne_true⟩
    | true =>
      obtain ⟨quiet, keeps⟩ := (held terminal).step terminal settles stepped
      exact ⟨fun _ => quiet, keeps⟩
  exact Stepwise.of_invariant kept quietly fun terminal =>
    absurd (unsettled.symm.trans terminal) Bool.false_ne_true

def oneKey : BackfillRecord :=
  { backfillId := "b1", partitionKeys := [.single ["2024-01-01"]] }

def canceling : BackfillSystem :=
  { store := { backfill := { oneKey with status := .inProgress } }, processes := [.cancelIfOpen] }

def cancelThenExecute : List BackfillAction :=
  [.take .cancelIfOpen {}, .spawn (.execute false), .take (.execute false) {}]

theorem cancelThenExecute_quietly :
    Stepwise (BackfillSystem.step fun _ => "") SettlesQuietly canceling cancelThenExecute := by
  rintro _ ⟨⟩
  refine ⟨⟨fun _ _ => ⟨?_, fun _ run waiting => by cases waiting.1⟩, nofun⟩, ?_⟩
  · exact List.forall_mem_singleton.mpr id
  · rintro _ ⟨⟩
    refine ⟨⟨fun unsettled => (by cases unsettled), nofun⟩, ?_⟩
    rintro _ ⟨⟩
    exact ⟨⟨fun unsettled => (by cases unsettled), nofun⟩, trivial⟩

/-- A cancellation while nothing else is under way stands. -/
theorem backfill_status_kept_oneKey :
    Stepwise (BackfillSystem.step fun _ => "") KeepsTerminal canceling cancelThenExecute :=
  backfill_status_kept (fun _ => "") canceling cancelThenExecute rfl cancelThenExecute_quietly

def cancelDuringPickup : List BackfillAction :=
  [.spawn (.execute false), .take (.execute false) {}, .spawn (.readBackfill .cancellation),
    .take (.readBackfill .cancellation) {}, .take .cancelIfOpen {}]

def resumePickup : List BackfillAction :=
  let left : ExecutionLoop := { groups := [] }
  let group := [PartitionKey.single ["2024-01-01"]]
  [.take (.markInProgress false) {}, .take (.link { groups := [group] }) { runIds := ["r1"] },
    .take (.launch "r1" group left) {}]

/-- A canceled backfill is in progress again, with a run started after the cancellation. -/
theorem canceled_backfill_restarted :
    (perform (BackfillSystem.step fun _ => "") { store := { backfill := oneKey } }
      cancelDuringPickup).map
        (fun reached => (reached.store.backfill.status, reached.store.runs.map (·.status))) =
      some (.canceled, []) ∧
    (perform (BackfillSystem.step fun _ => "") { store := { backfill := oneKey } }
          (cancelDuringPickup ++ resumePickup)).map
        (fun reached => (reached.store.backfill.status, reached.store.runs.map (·.status))) =
      some (.inProgress, [.started]) := by
  constructor <;> decide +kernel

end Rivers

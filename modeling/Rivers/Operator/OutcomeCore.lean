import Rivers.Operator.Pods

/-! What an executor leaves in storage on its way to its exit. -/

namespace Rivers

open Passes Cluster ExecutorPod

def ExecutorPod.present (pod : ExecutorPod) : Bool :=
  match pod.object with
  | none | some .failed => false
  | some .pending | some .running | some .succeeded | some .unknown => true

/-- What the stage of an executor says about the run's row, the cancel flag and the stored outcome.
-/
def ExecutorStage.Fits (runStatus : RunStatus) (cancelFlag : Bool) (outcome : Option RunOutcome) :
    ExecutorStage → Prop
  | .launched | .executing | .exiting false => True
  | .finalizing status => status = .success ∨ status = .failure ∨ status = .canceled ∧ cancelFlag
  | .finished true => runStatus = .success
  | .finished false => runStatus = .failure ∨ runStatus = .canceled
  | .storing chosen => chosen.phase.runStatus = some runStatus
  | .exiting true => ∃ stored, outcome = some stored ∧ stored.phase.runStatus = some runStatus

def Change.executor : Change → Option Nat
  | .rejectVerb pod _ | .startRun pod | .finishPlan pod _ | .finalizeRun pod | .chooseOutcome pod _
      _ _
  | .setRunOutcome pod => some pod
  | .wait _ | .deleteRun | .annotate _ | .requestCancellation | .cancelQueuedRun | .readHandle
  | .cancelHandle | .podState _ _ | .removePod _ | .exit _ | .die _ | .event _ => none

def Change.isChoice : Change → Bool
  | .chooseOutcome _ _ _ _ => true
  | _ => false

namespace Cluster

variable (cluster : Cluster)

def Present (number : Nat) : Prop :=
  ∃ pod, cluster.pods number = some pod ∧ pod.present

def ended : Bool :=
  cluster.phase.any (·.isTerminal)

/-- A cancel request writes the row, which has another status. -/
def cancelsRow : Change → Bool
  | .cancelQueuedRun => cluster.runStatus.cancelQueued ≠ cluster.runStatus
  | .cancelHandle => cluster.runStatus ≠ .canceled
  | _ => false

/-- The Run is not deleted, no executor goes on whose pod was asked to go, and a cancel request
writes only the row of a run that has not ended and that is flagged. -/
def mayChange : Change → Prop
  | .deleteRun => False
  | change =>
      change.executor.all (fun number => (cluster.pods number).all (!·.asked)) ∧
        (change.isChoice → cluster.cancelFlag → cluster.runStatus = .canceled) ∧
        (cluster.cancelsRow change →
          cluster.runStatus.isTerminal = false ∧ (cluster.ended ∨ cluster.cancelFlag))

instance : (change : Change) → Decidable (cluster.mayChange change) := by
  intro change
  unfold mayChange
  split <;> infer_instance

end Cluster

def Numbered (status : Option RunCrdStatus) (number : Nat) : Prop :=
  match status with
  | none => number = 0
  | some status =>
      match status.phase with
      | none | some .pending => number = 0
      | some .running => number = status.totalRestarts ∨ number = status.totalRestarts + 1
      | some .cancelling => number = status.totalRestarts
      | some .succeeded | some .failed | some .cancelled | some .timedOut => True

/-- At most one executor is present, as far as its writes go consistent with storage; none writes
when the Run has ended. -/
structure Cluster.Consistent (cluster : Cluster) : Prop where
  kept : cluster.run.deletionTimestamp = none
  records : RecordsPod cluster.run.status
  numbered : ∀ number, cluster.Present number → Numbered cluster.run.status number
  single : ∀ first second, cluster.Present first → cluster.Present second → first = second
  settled : cluster.ended → ∀ number, cluster.Settled number
  fits : ¬cluster.ended → ∀ number pod, cluster.pods number = some pod → pod.present →
    pod.stage.Fits cluster.runStatus cluster.cancelFlag cluster.outcome
  completed : ∀ number pod, cluster.pods number = some pod → pod.object = some .succeeded →
    pod.stage = .exiting true
  flagged : ¬cluster.ended → cluster.runStatus = .canceled → cluster.cancelFlag

structure Undisturbing (before after : Cluster) : Prop extends Settling before after where
  present : ∀ number, after.Present number → before.Present number
  unwritten : (∀ number, before.Settled number) → after.outcome = before.outcome ∧
    (before.runStatus.isTerminal → after.runStatus = before.runStatus)

variable {cluster written before after : Cluster}

theorem Undisturbing.refl (cluster : Cluster) : Undisturbing cluster cluster :=
  ⟨.refl cluster, fun _ present => present, fun _ => ⟨rfl, fun _ => rfl⟩⟩

theorem Undisturbing.trans {first second third} (early : Undisturbing first second)
    (late : Undisturbing second third) : Undisturbing first third := by
  refine ⟨early.toSettling.trans late.toSettling,
    fun number here => early.present number (late.present number here), ?_⟩
  intro settled
  obtain ⟨outcome, runStatus⟩ := early.unwritten settled
  obtain ⟨outcome', runStatus'⟩ := late.unwritten fun number => early.settled number
    (settled number)
  refine ⟨outcome'.trans outcome, fun terminal => ?_⟩
  have same := runStatus terminal
  exact (runStatus' (same ▸ terminal)).trans same

theorem ended_congr (status : after.run.status = before.run.status) : after.ended =
    before.ended := by
  simp only [ended, phase, status]

theorem undisturbing_of_eq (status : after.run.status = before.run.status)
    (pods : after.pods = before.pods) (runStatus : after.runStatus = before.runStatus)
    (outcome : after.outcome = before.outcome) :
    Undisturbing before after := by grind [Cluster.Settled, Cluster.Present, Undisturbing, Settling]

theorem ExecutorStage.Fits.flag {stage : ExecutorStage} {runStatus} {flag later : Bool} {outcome}
    (fits : stage.Fits runStatus flag outcome) (kept : flag → later) :
    stage.Fits runStatus later outcome := by
  match stage with
  | .launched | .executing | .exiting false => trivial
  | .finished true | .finished false | .storing _ | .exiting true => exact fits
  | .finalizing status =>
      exact fits.imp_right (Or.imp_right fun ⟨canceled, set⟩ => ⟨canceled, kept set⟩)

theorem RunPhase.isTerminal_runStatus {phase : RunPhase} {status : RunStatus}
    (isStatus : phase.runStatus = some status) : status.isTerminal := by
  cases phase <;> cases isStatus <;> rfl

theorem ExecutorStage.Fits.canceled {stage : ExecutorStage} {runStatus} {flag : Bool} {outcome}
    (fits : stage.Fits runStatus flag outcome) (live : runStatus.isTerminal = false) :
    stage.Fits .canceled flag outcome := by
  have unwritten {phase : RunPhase} (wrote : phase.runStatus = some runStatus) : False := by
    cases live.symm.trans (RunPhase.isTerminal_runStatus wrote)
  match stage with
  | .launched | .executing | .exiting false => trivial
  | .finalizing status => exact fits
  | .finished true =>
    cases (show runStatus = .success from fits)
    cases live
  | .finished false => exact .inr rfl
  | .storing chosen => exact (unwritten fits).elim
  | .exiting true =>
    obtain ⟨stored, _, wrote⟩ := fits
    exact (unwritten wrote).elim

theorem Cluster.Consistent.cancelRow {canceling} (consistent : cluster.Consistent)
    (live : cluster.runStatus.isTerminal = false) (flagged : cluster.ended ∨ cluster.cancelFlag) :
    Undisturbing cluster { cluster with runStatus := .canceled, canceling } ∧
      ({ cluster with runStatus := .canceled, canceling } : Cluster).Consistent := by
  refine ⟨⟨⟨rfl, fun _ settled => settled⟩, fun _ here => here, fun _ => ⟨rfl, fun terminal => ?_⟩⟩,
    consistent.kept, consistent.records, consistent.numbered, consistent.single,
    consistent.settled, ?_, consistent.completed, fun going _ => flagged.resolve_left going⟩
  · cases live.symm.trans terminal
  · intro going number pod found here
    exact (consistent.fits going number pod found here).canceled live

theorem Cluster.Consistent.of_eq (consistent : before.Consistent)
    (kept : after.run.deletionTimestamp = before.run.deletionTimestamp)
    (status : after.run.status = before.run.status) (pods : after.pods = before.pods)
    (runStatus : after.runStatus = before.runStatus) (outcome : after.outcome = before.outcome)
    (flag : before.cancelFlag → after.cancelFlag) : after.Consistent := by
  have undisturbing := undisturbing_of_eq status pods runStatus outcome
  have ended := ended_congr status
  refine ⟨kept.trans consistent.kept, ?_, ?_, ?_, ?_, ?_, ?_, ?_⟩
  · rw [status]
    exact consistent.records
  · intro number here
    rw [status]
    exact consistent.numbered number (undisturbing.present number here)
  · intro first second here there
    exact consistent.single first second (undisturbing.present first here)
      (undisturbing.present second there)
  · intro isOver number
    exact undisturbing.settled number (consistent.settled (ended ▸ isOver) number)
  · intro running number pod found here
    rw [runStatus, outcome]
    exact (consistent.fits (ended ▸ running) number pod (pods ▸ found) here).flag flag
  · intro number pod found
    exact consistent.completed number pod (pods ▸ found)
  · intro running canceled
    exact flag (consistent.flagged (ended ▸ running) (runStatus ▸ canceled))

theorem setPod_pods {number other pod found}
    (isPod : (written.setPod number pod).pods other = some found) :
    other = number ∧ found = pod ∨ other ≠ number ∧ written.pods other = some found := by
  simp only [setPod, Function.update_apply] at isPod
  split at isPod
  · rename_i same
    cases isPod
    exact .inl ⟨same, rfl⟩
  · rename_i differs
    exact .inr ⟨differs, isPod⟩

theorem undisturbing_setPod {number pod next} (found : before.pods number = some pod)
    (status : written.run.status = before.run.status) (pods : written.pods = before.pods)
    (settled : (pod.exited ∨ pod.asked) → next.exited ∨ next.asked)
    (present : next.present → pod.present)
    (unwritten : (pod.exited ∨ pod.asked) → written.outcome = before.outcome ∧
      written.runStatus = before.runStatus) :
    Undisturbing before (written.setPod number next) := by
  refine ⟨settling_setPod found status pods settled, ?_, fun all => ?_⟩
  case refine_2 =>
    obtain ⟨outcome, runStatus⟩ := unwritten (all number pod found)
    exact ⟨outcome, fun _ => runStatus⟩
  rintro other ⟨pod', isPod, here⟩
  rcases setPod_pods isPod with ⟨rfl, rfl⟩ | ⟨_, isOther⟩
  · exact ⟨pod, found, present here⟩
  · exact ⟨pod', pods ▸ isOther, here⟩

theorem Cluster.Consistent.setObject {number pod object asked} (consistent : cluster.Consistent)
    (found : cluster.pods number = some pod)
    (undisturbing : Undisturbing cluster (cluster.setPod number { pod with object, asked }))
    (completed : object = some .succeeded → pod.stage = .exiting true) :
    (cluster.setPod number { pod with object, asked }).Consistent := by
  have ended := ended_congr undisturbing.status
  refine ⟨consistent.kept, consistent.records, ?_, ?_, ?_, ?_, ?_,
    fun running => consistent.flagged (ended ▸ running)⟩
  · exact fun other here => consistent.numbered other (undisturbing.present other here)
  · intro first second here there
    exact consistent.single first second (undisturbing.present first here)
      (undisturbing.present second there)
  · intro isOver other
    exact undisturbing.settled other (consistent.settled (ended ▸ isOver) other)
  · intro running other pod' isPod here
    obtain ⟨last, isLast, wasHere⟩ := undisturbing.present other ⟨pod', isPod, here⟩
    have fits := consistent.fits (ended ▸ running) other last isLast wasHere
    rcases setPod_pods isPod with ⟨rfl, rfl⟩ | ⟨_, isOther⟩
    · cases found.symm.trans isLast
      exact fits
    · cases isOther.symm.trans isLast
      exact fits
  · intro other pod' isPod succeeded
    rcases setPod_pods isPod with ⟨rfl, rfl⟩ | ⟨_, isOther⟩
    · exact completed succeeded
    · exact consistent.completed other pod' isOther succeeded

theorem Cluster.Consistent.setStage {number pod stage} (consistent : before.Consistent)
    (found : before.pods number = some pod) (running : pod.object = some .running)
    (unasked : ¬pod.asked) (same : written.run = before.run) (pods : written.pods = before.pods)
    (fits : stage.Fits written.runStatus written.cancelFlag written.outcome)
    (flagged : written.runStatus = .canceled → written.cancelFlag) :
    Undisturbing before (written.setPod number { pod with stage }) ∧
      (written.setPod number { pod with stage }).Consistent := by
  have live : ¬(pod.exited ∨ pod.asked) := by simpa [exited, running] using unasked
  have undisturbing : Undisturbing before (written.setPod number { pod with stage }) :=
    undisturbing_setPod found (by rw [same]) pods id id fun settled => absurd settled live
  have here : before.Present number := ⟨pod, found, by simp [present, running]⟩
  have ended := ended_congr undisturbing.status
  have going : ¬before.ended := fun isOver => live (consistent.settled isOver number pod found)
  refine ⟨undisturbing, ?_, ?_, ?_, ?_, ?_, ?_, ?_, fun _ => flagged⟩
  · rw [← consistent.kept, ← same]
    rfl
  · rw [undisturbing.status]
    exact consistent.records
  · intro other isHere
    rw [undisturbing.status]
    exact consistent.numbered other (undisturbing.present other isHere)
  · intro first second isHere isThere
    exact consistent.single first second (undisturbing.present first isHere)
      (undisturbing.present second isThere)
  · intro isOver
    exact absurd (ended ▸ isOver) going
  · intro _ other pod' isPod isHere
    rcases setPod_pods isPod with ⟨rfl, rfl⟩ | ⟨differs, _⟩
    · exact fits
    · exact absurd (consistent.single _ _ (undisturbing.present other ⟨pod', isPod, isHere⟩) here)
        differs
  · intro other pod' isPod succeeded
    rcases setPod_pods isPod with ⟨rfl, rfl⟩ | ⟨_, isOther⟩
    · cases running.symm.trans succeeded
    · exact consistent.completed other pod' (pods ▸ isOther) succeeded

theorem consistent_advance {number stage next} (consistent : cluster.Consistent)
    (advanced : cluster.advance number stage written next = some after)
    (unasked : ∀ pod, cluster.pods number = some pod → ¬pod.asked)
    (same : written.run = cluster.run) (pods : written.pods = cluster.pods)
    (fits : stage.Fits cluster.runStatus cluster.cancelFlag cluster.outcome →
      (cluster.runStatus = .canceled → cluster.cancelFlag) →
        next.Fits written.runStatus written.cancelFlag written.outcome ∧
          (written.runStatus = .canceled → written.cancelFlag)) :
    Undisturbing cluster after ∧ after.Consistent := by
  simp only [advance, runningAt, Option.map_eq_some_iff, Option.filter_eq_some_iff,
    decide_eq_true_eq] at advanced
  obtain ⟨pod, ⟨found, running, rfl⟩, rfl⟩ := advanced
  have live : ¬(pod.exited ∨ pod.asked) := by simpa [exited, running] using unasked pod found
  have going : ¬cluster.ended := fun isOver => live (consistent.settled isOver number pod found)
  obtain ⟨fitting, flagged⟩ :=
    fits (consistent.fits going number pod found (by simp [present, running]))
      (consistent.flagged going)
  exact consistent.setStage found running (unasked pod found) same pods fitting flagged

theorem chosenOutcome_runStatus {success completedSteps totalSteps message}
    (fits : (ExecutorStage.finished success).Fits cluster.runStatus cluster.cancelFlag
      cluster.outcome)
    (flagged : cluster.runStatus = .canceled → cluster.cancelFlag)
    (read : cluster.cancelFlag → cluster.runStatus = .canceled) :
    (cluster.chosenOutcome success completedSteps totalSteps message).phase.runStatus =
      some cluster.runStatus := by
  unfold chosenOutcome
  split
  · rename_i set
    rw [read set]
    rfl
  · rename_i unset
    cases success with
    | true =>
      have wrote : cluster.runStatus = .success := fits
      rw [wrote]
      rfl
    | false =>
      have wrote : cluster.runStatus = .failure :=
        fits.resolve_right fun canceled => unset (flagged canceled)
      rw [wrote]
      rfl

theorem unasked_of_all {number pod}
    (unasked : (some number).all (fun number => (cluster.pods number).all (!·.asked)))
    (found : cluster.pods number = some pod) : ¬pod.asked := by
  simpa [found] using unasked

theorem undisturbing_setObject {number pod object asked} (found : cluster.pods number = some pod)
    (settled : (pod.exited ∨ pod.asked) → ({ pod with object, asked } : ExecutorPod).exited ∨ asked)
    (present : ({ pod with object, asked } : ExecutorPod).present → pod.present) :
    Undisturbing cluster (cluster.setPod number { pod with object, asked }) :=
  undisturbing_setPod found rfl rfl settled present fun _ => ⟨rfl, rfl⟩

theorem ExecutorPod.present_of_not_exited {pod : ExecutorPod} (alive : ¬pod.exited) :
    pod.present := by
  unfold exited at alive
  unfold present
  split <;> simp_all

theorem consistent_change {change : Change} (changed : cluster.change change = some after)
    (may : cluster.mayChange change) (consistent : cluster.Consistent) :
    Undisturbing cluster after ∧ after.Consistent := by
  cases change with
  | deleteRun => exact may.elim
  | wait | annotate | requestCancellation | event =>
    simp only [change, Option.some.injEq] at changed
    subst changed
    exact ⟨undisturbing_of_eq rfl rfl rfl rfl,
      consistent.of_eq rfl rfl rfl rfl rfl fun set => by first | exact set | rfl⟩
  | cancelQueuedRun =>
    simp only [change, Option.some.injEq] at changed
    subst changed
    by_cases queued : cluster.runStatus = .queued ∨ cluster.runStatus = .notStarted
    · have writes : cluster.cancelsRow .cancelQueuedRun := by
        rcases queued with status | status <;> simp [cancelsRow, RunStatus.cancelQueued, status]
      obtain ⟨live, flagged⟩ := may.2.2 writes
      rw [RunStatus.cancelQueued, if_pos queued]
      exact consistent.cancelRow live flagged
    · rw [RunStatus.cancelQueued, if_neg queued]
      exact ⟨.refl cluster, consistent⟩
  | readHandle =>
    simp only [change, Option.ite_none_left_eq_some, Option.some.injEq] at changed
    obtain ⟨-, rfl⟩ := changed
    exact ⟨undisturbing_of_eq rfl rfl rfl rfl, consistent.of_eq rfl rfl rfl rfl rfl id⟩
  | cancelHandle =>
    simp only [change, Option.ite_none_left_eq_some, Option.some.injEq] at changed
    obtain ⟨-, rfl⟩ := changed
    by_cases already : cluster.runStatus = .canceled
    · exact ⟨undisturbing_of_eq rfl rfl already.symm rfl,
        consistent.of_eq rfl rfl rfl already.symm rfl id⟩
    · obtain ⟨live, flagged⟩ := may.2.2 (decide_eq_true already)
      exact consistent.cancelRow live flagged
  | podState number state =>
    simp only [change, Option.ite_none_left_eq_some, Option.map_eq_some_iff,
      Option.filter_eq_some_iff] at changed
    obtain ⟨moving, pod, ⟨found, alive⟩, rfl⟩ := changed
    have alive : ¬pod.exited := by simpa using alive
    have undisturbing : Undisturbing cluster
        (cluster.setPod number { pod with object := some state }) :=
      undisturbing_setObject found (fun settled => .inr (settled.resolve_left alive))
        fun _ => present_of_not_exited alive
    refine ⟨undisturbing, consistent.setObject found undisturbing ?_⟩
    intro succeeded
    cases succeeded
    exact absurd (.inl rfl) moving
  | removePod number =>
    simp only [change, Option.map_eq_some_iff] at changed
    obtain ⟨pod, found, rfl⟩ := changed
    have undisturbing : Undisturbing cluster
        (cluster.setPod number { pod with object := none, asked := true }) :=
      undisturbing_setObject found (fun _ => .inr rfl) fun here => absurd here (by simp [present])
    exact ⟨undisturbing, consistent.setObject found undisturbing
      fun succeeded => by cases succeeded⟩
  | exit number =>
    simp only [change] at changed
    split at changed
    · rename_i completed _
      simp only [runningAt, Option.map_eq_some_iff, Option.filter_eq_some_iff,
        decide_eq_true_eq] at changed
      obtain ⟨pod, ⟨found, running, stage⟩, rfl⟩ := changed
      have undisturbing : Undisturbing cluster (cluster.setPod number
          { pod with object := some (if completed then .succeeded else .failed) }) :=
        undisturbing_setObject found (fun _ => .inl (by cases completed <;> rfl))
          fun _ => by simp [present, running]
      refine ⟨undisturbing, consistent.setObject found undisturbing ?_⟩
      intro succeeded
      cases completed with
      | true => exact stage
      | false => cases succeeded
    · cases changed
  | die number =>
    simp only [change, Option.map_eq_some_iff, Option.filter_eq_some_iff] at changed
    obtain ⟨pod, ⟨found, _⟩, rfl⟩ := changed
    have undisturbing : Undisturbing cluster
        (cluster.setPod number { pod with object := some .failed }) :=
      undisturbing_setObject found (fun _ => .inl rfl) fun here => absurd here (by simp [present])
    exact ⟨undisturbing, consistent.setObject found undisturbing
      fun succeeded => by cases succeeded⟩
  | rejectVerb number message =>
    exact consistent_advance consistent changed (fun pod => unasked_of_all may.1) rfl rfl
      fun _ flagged => ⟨trivial, flagged⟩
  | startRun number =>
    simp only [change] at changed
    split at changed
    · rename_i canceled
      exact consistent_advance consistent changed (fun pod => unasked_of_all may.1) rfl rfl
        fun _ flagged => ⟨.inr canceled, flagged⟩
    · exact consistent_advance consistent changed (fun pod => unasked_of_all may.1) rfl rfl
        fun _ _ => ⟨trivial, fun canceled => by cases canceled⟩
  | finishPlan number success =>
    refine consistent_advance consistent changed (fun pod => unasked_of_all may.1) rfl rfl
      fun _ flagged => ⟨?_, flagged⟩
    unfold finalizeStatus
    split
    · rename_i set
      exact .inr (.inr ⟨rfl, set⟩)
    · cases success
      · exact .inr (.inl rfl)
      · exact .inl rfl
  | finalizeRun number =>
    simp only [change] at changed
    split at changed
    · refine consistent_advance consistent changed (fun pod => unasked_of_all may.1) rfl rfl
        fun fits _ => ?_
      rcases fits with rfl | rfl | ⟨rfl, set⟩
      · exact ⟨rfl, fun canceled => by cases canceled⟩
      · exact ⟨.inl rfl, fun canceled => by cases canceled⟩
      · exact ⟨.inr rfl, fun _ => set⟩
    · cases changed
  | chooseOutcome number completedSteps totalSteps message =>
    simp only [change] at changed
    split at changed
    · exact consistent_advance consistent changed (fun pod => unasked_of_all may.1) rfl rfl
        fun fits flagged => ⟨chosenOutcome_runStatus fits flagged (may.2.1 rfl), flagged⟩
    · cases changed
  | setRunOutcome number =>
    simp only [change] at changed
    split at changed
    · exact consistent_advance consistent changed (fun pod => unasked_of_all may.1) rfl rfl
        fun fits flagged => ⟨⟨_, rfl, fits⟩, flagged⟩
    · cases changed

theorem present_create {number other} (only : ∀ other, cluster.Present other → other = number)
    (here : (cluster.setPod number {}).Present other) : other = number := by
  obtain ⟨pod, isPod, present⟩ := here
  rcases setPod_pods isPod with ⟨same, _⟩ | ⟨_, isOther⟩
  · exact same
  · exact only other ⟨pod, isOther, present⟩

theorem consistent_create {number} (consistent : cluster.Consistent) (running : ¬cluster.ended)
    (numbered : Numbered cluster.run.status number) (only : ∀ other, cluster.Present other →
      other = number) :
    (cluster.setPod number {}).Consistent := by
  refine ⟨consistent.kept, consistent.records, ?_, ?_, fun isOver => absurd isOver running, ?_, ?_,
    fun _ => consistent.flagged running⟩
  · intro other here
    rw [present_create only here]
    exact numbered
  · intro first second here there
    rw [present_create only here, present_create only there]
  · intro _ other pod isPod here
    rcases setPod_pods isPod with ⟨_, rfl⟩ | ⟨_, isOther⟩
    · trivial
    · exact consistent.fits running other pod isOther here
  · intro other pod isPod succeeded
    rcases setPod_pods isPod with ⟨_, rfl⟩ | ⟨_, isOther⟩
    · cases succeeded
    · exact consistent.completed other pod isOther succeeded

end Rivers

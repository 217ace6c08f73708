import Rivers.Operator.OutcomeCore

/-! How a Run ends. -/

namespace Rivers

open Passes Transitions RunPhase ExecutorPod Settling

def Request.isKubernetes : Request → Bool
  | .addFinalizer | .removeFinalizer | .getPod _ | .createPod _ _ | .deletePod _ | .fetchClSpec
  | .patchStatus _ =>
      true
  | .now | .cleanupStepJobs | .getRunOutcome | .getRunProgress | .updateRunStatus _
  | .requestCancellation => false

def Request.writtenStatus : Request → Option RunStatus
  | .updateRunStatus status => some status
  | _ => none

def cancels (run : Run) : Bool :=
  match run.status.bind (·.phase) with
  | some .cancelling => true
  | some .running => isCancelRequested run
  | _ => false

def timesOut (run : Run) (now : Int) : Bool :=
  run.status.bind (·.phase) = some .running ∧ !isCancelRequested run ∧ isTimedOut run now

def Cluster.mayServe (cluster : Cluster) (seen : Run × Int) (request : Request)
    (reply : Reply) : Prop :=
  (request.isKubernetes → reply = .ok) ∧
  (request = .getRunOutcome → reply ≠ .ok → cluster.outcome = none) ∧
  (reply = .failed false → request.writtenStatus.all (· = cluster.runStatus)) ∧
  (cancels seen.1 → cluster.outcome.all (·.isCancelled)) ∧
  (timesOut seen.1 seen.2 → cluster.outcome = none)

instance (cluster : Cluster) (seen : Run × Int) (request : Request) (reply : Reply) :
    Decidable (cluster.mayServe seen request reply) := by
  unfold Cluster.mayServe
  infer_instance

def EndsAsStored (before after : Cluster) : Prop :=
  ∀ outcome phase, before.outcome = some outcome → ¬before.ended → after.phase = some phase →
    phase.isTerminal → phase = outcome.phase

structure Cluster.AtRest (cluster : Cluster) : Prop where
  agrees : ∀ phase, cluster.phase = some phase → phase.isTerminal →
    phase.runStatus = some cluster.runStatus
  alone : ∀ status, cluster.run.status = some status → status.phase = some .running →
    ∀ number, cluster.Present number → number = status.totalRestarts

def outcomeDiscipline : Discipline operator where
  mayChange := Cluster.mayChange
  mayStart _ := True
  mayServe := Cluster.mayServe
  mayCrash _ := False
  invariant := Cluster.Consistent
  rely := Undisturbing
  guarantee before after := after.Consistent ∧ EndsAsStored before after
  rest := Cluster.AtRest

variable {cluster before after : Cluster}

theorem ended_iff : cluster.ended ↔ ∃ phase, cluster.phase = some phase ∧ phase.isTerminal := by
  simp [Cluster.ended, Option.any_eq_true]

theorem Settling.endsAsStored (settling : Settling before after) : EndsAsStored before after := by
  intro outcome phase _ going isPhase terminal
  rw [← ended_congr settling.status] at going
  exact absurd (ended_iff.mpr ⟨phase, isPhase, terminal⟩) going

theorem Undisturbing.atRest (undisturbing : Undisturbing before after)
    (isOver : before.ended → ∀ number, before.Settled number)
    (rest : before.AtRest) : after.AtRest := by
  have status := undisturbing.status
  refine ⟨?_, ?_⟩
  · intro phase isPhase term
    rw [Cluster.phase, status] at isPhase
    have agrees := rest.agrees phase isPhase term
    rw [(undisturbing.unwritten (isOver (ended_iff.mpr ⟨phase, isPhase, term⟩))).2
      (RunPhase.isTerminal_runStatus agrees)]
    exact agrees
  · intro known isKnown running number here
    rw [status] at isKnown
    exact rest.alone known isKnown running number (undisturbing.present number here)

def Request.isUnobtrusive (request : Request) : Bool :=
  request.isQuiet && request.writtenStatus.isNone

theorem undisturbing_serve {req reply} (unobtrusive : req.isUnobtrusive)
    (consistent : cluster.Consistent) :
    Undisturbing cluster (cluster.serve req reply).1 ∧ (cluster.serve req reply).1.Consistent := by
  have same : Undisturbing cluster cluster ∧ cluster.Consistent := ⟨.refl cluster, consistent⟩
  have moved {other : Cluster} (kept : other.run.deletionTimestamp = cluster.run.deletionTimestamp)
      (status : other.run.status = cluster.run.status) (pods : other.pods = cluster.pods)
      (runStatus : other.runStatus = cluster.runStatus) (out : other.outcome = cluster.outcome)
      (flag : cluster.cancelFlag → other.cancelFlag) : Undisturbing cluster other ∧
      other.Consistent :=
    ⟨undisturbing_of_eq status pods runStatus out,
      consistent.of_eq kept status pods runStatus out flag⟩
  cases req with
  | createPod | patchStatus | updateRunStatus =>
    simp [Request.isUnobtrusive, Request.isQuiet, Request.writtenStatus] at unobtrusive
  | now | getPod | fetchClSpec | cleanupStepJobs | getRunOutcome | getRunProgress =>
    cases reply <;> exact same
  | addFinalizer | removeFinalizer =>
    cases reply with
    | ok => exact moved rfl rfl rfl rfl rfl id
    | failed applied => cases applied <;> exact moved rfl rfl rfl rfl rfl id
  | requestCancellation =>
    cases reply with
    | ok => exact moved rfl rfl rfl rfl rfl fun _ => rfl
    | failed applied =>
      cases applied
      · exact same
      · exact moved rfl rfl rfl rfl rfl fun _ => rfl
  | deletePod number =>
    simp only [Cluster.serve, Cluster.deletePod]
    split
    · rename_i pod isPod
      have found := (Option.filter_eq_some_iff.mp isPod).1
      have undisturbing : Undisturbing cluster (cluster.setPod number { pod with asked := true }) :=
        undisturbing_setObject found (fun _ => .inr rfl) id
      have asked := And.intro undisturbing
        (consistent.setObject found undisturbing fun succ => consistent.completed number
          pod found succ)
      cases reply with
      | ok => exact asked
      | failed applied =>
        cases applied
        · exact same
        · exact asked
    · cases reply <;> exact same

def Learns : (request : Request) → request.Answer → Cluster → Prop
  | .getPod number, answer, after => answer = .ok (after.podObject number)
  | .fetchClSpec, answer, _ => answer = .ok ()
  | .addFinalizer, answer, _ => answer = .ok ()
  | .deletePod number, answer, after =>
      (answer = .ok () ∨ answer = .error .notFound) ∧ after.Settled number
  | .getRunOutcome, answer, after => answer.join = after.outcome
  | _, _, _ => True

section Passes

variable {status : Option RunCrdStatus} {numbers : Nat → Prop} {seen : Run × Int} {Last : Type}
  {known : Cluster → Prop}

theorem learns_serve {req reply} (may : cluster.mayServe seen req reply) :
    Learns req (cluster.serve req reply).2 (cluster.serve req reply).1 := by
  obtain ⟨kubernetes, out, _⟩ := may
  cases req with
  | getPod number =>
    cases kubernetes rfl
    rfl
  | fetchClSpec =>
    cases kubernetes rfl
    rfl
  | addFinalizer =>
    cases kubernetes rfl
    rfl
  | deletePod number =>
    cases kubernetes rfl
    simp only [Learns, Cluster.serve, Cluster.deletePod]
    split
    · rename_i pod isPod
      refine ⟨.inl rfl, ?_⟩
      intro other isOther
      rcases setPod_pods isOther with ⟨_, rfl⟩ | ⟨differs, _⟩
      · exact .inr rfl
      · exact absurd rfl differs
    · rename_i absent
      have settled : cluster.Settled number := settled_of_podObject
        (.inl (podObject_eq_none absent))
      exact ⟨.inr rfl, settled⟩
  | getRunOutcome =>
    cases reply with
    | ok => exact Option.join_some
    | failed applied => exact (out rfl (by simp)).symm
  | _ => trivial

theorem keeps_call {post req} {next : req.Answer → Call Last}
    (stable : outcomeDiscipline.Stable known) (holds : known cluster)
    (unobtrusive : req.isUnobtrusive)
    (goesOn : ∀ answer after, known after → after.Consistent → Learns req answer after →
      outcomeDiscipline.Upholds seen post (next answer) after) :
    outcomeDiscipline.Upholds seen post (ask req >>= next) cluster := by
  refine Discipline.Upholds.call
    (fun answer after => known after ∧ after.Consistent ∧ Learns req answer after) stable holds ?_
    fun answer after told => goesOn answer after told.1 told.2.1 told.2.2
  intro now reply knows consistent may
  obtain ⟨undisturbing, kept⟩ :
      Undisturbing now (now.serve req reply).1 ∧ (now.serve req reply).1.Consistent :=
    undisturbing_serve unobtrusive consistent
  exact ⟨⟨kept, undisturbing.endsAsStored⟩, stable _ _ undisturbing knows, kept, learns_serve may⟩

structure OnlyPods (status : Option RunCrdStatus) (numbers : Nat → Prop)
    (cluster : Cluster) : Prop where
  status : cluster.run.status = status
  present : ∀ number, cluster.Present number → numbers number

theorem onlyPods_stable : outcomeDiscipline.Stable (OnlyPods status numbers) := by
  intro before after others knows
  have undisturbing : Undisturbing before after := others
  exact ⟨undisturbing.status.trans knows.status,
    fun number here => knows.present number (undisturbing.present number here)⟩

structure Over (status : Option RunCrdStatus) (outcome : Option RunOutcome) (runStatus : RunStatus)
    (cluster : Cluster) : Prop where
  status : cluster.run.status = status
  settled : ∀ number, cluster.Settled number
  outcome : cluster.outcome = outcome
  runStatus : cluster.runStatus = runStatus

theorem over_stable {out runStatus} (terminal : runStatus.isTerminal) :
    outcomeDiscipline.Stable (Over status out runStatus) := by
  intro before after others knows
  have undisturbing : Undisturbing before after := others
  obtain ⟨out, runStatus⟩ := undisturbing.unwritten knows.settled
  exact ⟨undisturbing.status.trans knows.status,
    fun number => undisturbing.settled number (knows.settled number),
    out.trans knows.outcome, (runStatus (knows.runStatus ▸ terminal)).trans knows.runStatus⟩

structure AllSettled (status : Option RunCrdStatus) (cluster : Cluster) : Prop where
  status : cluster.run.status = status
  settled : ∀ number, cluster.Settled number

theorem allSettled_stable : outcomeDiscipline.Stable (AllSettled status) := by
  intro before after others knows
  have undisturbing : Undisturbing before after := others
  exact ⟨undisturbing.status.trans knows.status,
    fun number => undisturbing.settled number (knows.settled number)⟩

theorem AllSettled.isOver (knows : AllSettled status cluster) :
    Over status cluster.outcome cluster.runStatus cluster :=
  ⟨knows.status, knows.settled, rfl, rfl⟩

theorem settled_of_not_present {number} (absent : ¬cluster.Present number) :
    cluster.Settled number := by
  intro pod found
  by_contra live
  exact absent ⟨pod, found, ExecutorPod.present_of_not_exited fun exited => live (.inl exited)⟩

theorem OnlyPods.allSettled (knows : OnlyPods status numbers cluster)
    (settled : ∀ number, numbers number → cluster.Settled number) : AllSettled status cluster := by
  grind [settled_of_not_present, AllSettled, OnlyPods]

structure GoesOn (numbers : Nat → Prop) (next : RunCrdStatus) : Prop where
  going : ¬next.phase.any (·.isTerminal)
  records : RecordsPod (some next)
  numbered : ∀ number, numbers number → Numbered (some next) number

theorem consistent_setStatus {next} (consistent : cluster.Consistent)
    (records : RecordsPod (some next)) (numbered : ∀ number, cluster.Present number →
      Numbered (some next) number)
    (settled : next.phase.any (·.isTerminal) → ∀ number, cluster.Settled number)
    (going : ¬next.phase.any (·.isTerminal) → ¬cluster.ended) :
    (cluster.setStatus next).Consistent :=
  ⟨consistent.kept, records, numbered, consistent.single, settled,
    fun running => consistent.fits (going running),
    consistent.completed, fun running => consistent.flagged (going running)⟩

theorem keeps_patch_going {post next} {more : Except ApiError Unit → Call Last}
    (knows : OnlyPods status numbers cluster) (going : ¬(status.bind (·.phase)).any (·.isTerminal))
    (goesOn : GoesOn numbers next)
    (later : ∀ after, OnlyPods (some next) numbers after →
      outcomeDiscipline.Upholds seen post (more (.ok ())) after) :
    outcomeDiscipline.Upholds seen post (ask (.patchStatus next) >>= more) cluster := by
  refine Discipline.Upholds.call (fun answer after => answer = .ok () ∧
    OnlyPods (some next) numbers after)
    onlyPods_stable knows ?_ ?_
  · intro now reply knows consistent may
    obtain rfl : reply = .ok := may.1 rfl
    have running : ¬now.ended := by
      rw [Cluster.ended, Cluster.phase, knows.status]
      exact going
    have present := knows.present
    refine ⟨⟨consistent_setStatus consistent goesOn.records ?_ ?_ fun _ => running, ?_⟩, rfl,
      rfl, present⟩
    · exact fun number here => goesOn.numbered number (present number here)
    · exact fun isOver => absurd isOver goesOn.going
    · intro out phase _ _ isPhase term
      exact absurd (ended_iff.mpr ⟨phase, isPhase, term⟩) goesOn.going
  · rintro _ after ⟨rfl, knows⟩
    exact later after knows

theorem atRest_going {current} (knows : OnlyPods (some current) numbers cluster)
    (going : ¬current.phase.any (·.isTerminal))
    (alone : current.phase = some .running → ∀ number, numbers number →
      number = current.totalRestarts) :
    cluster.AtRest := by
  refine ⟨?_, ?_⟩
  · grind [Cluster.phase, OnlyPods]
  · grind [OnlyPods.status, OnlyPods.present]

theorem keeps_patchStatus_going {next more} (knows : OnlyPods status numbers cluster)
    (going : ¬(status.bind (·.phase)).any (·.isTerminal)) (goesOn : GoesOn numbers next)
    (later : ∀ after, OnlyPods (some next) numbers after →
      outcomeDiscipline.Upholds seen (fun _ => Cluster.AtRest) more after) :
    outcomeDiscipline.Upholds seen (fun _ => Cluster.AtRest) (patchStatus next more) cluster :=
  keeps_patch_going knows going goesOn later

theorem keeps_patch_ended {post next phase} {more : Except ApiError Unit → Call Last}
    (stable : outcomeDiscipline.Stable known) (holds : known cluster)
    (isPhase : next.phase = some phase) (term : phase.isTerminal)
    (settled : ∀ now, known now → ∀ number, now.Settled number)
    (stored : ∀ now, known now → now.mayServe seen (.patchStatus next) .ok →
      ∀ out, now.outcome = some out →
      phase = out.phase) (later : ∀ now, known now → AllSettled (some next) (now.setStatus next) →
      outcomeDiscipline.Upholds seen post (more (.ok ())) (now.setStatus next)) :
    outcomeDiscipline.Upholds seen post (ask (.patchStatus next) >>= more) cluster := by
  intro now others consistent reply may
  obtain rfl : reply = .ok := may.1 rfl
  have knows := stable _ _ others holds
  have isOver : next.phase.any (·.isTerminal) := by simp [isPhase, term]
  refine ⟨⟨consistent_setStatus consistent ?_ ?_ (fun _ => settled now knows) fun going =>
    absurd isOver going, ?_⟩, later now knows ⟨rfl, settled now knows⟩⟩
  · rintro _ ⟨⟩
    cases phase <;> simp [isTerminal, isPhase] at term ⊢
  · grind [Numbered, isTerminal]
  · intro out other isStored _ isOther _
    cases isPhase.symm.trans isOther
    exact stored now knows may out isStored

theorem atRest_ended {current phase} (status : cluster.run.status = some current)
    (isPhase : current.phase = some phase) (agrees : phase.runStatus = some cluster.runStatus) :
    cluster.AtRest := by
  refine ⟨?_, ?_⟩
  · grind [Cluster.phase]
  · grind [runStatus]

theorem keeps_syncRunStatusToStorage {current phase} (knows : AllSettled (some current) cluster)
    (isPhase : current.phase = some phase) (term : phase.isTerminal) :
    outcomeDiscipline.Upholds seen (fun _ => Cluster.AtRest) (syncRunStatusToStorage phase) cluster := by
  have ⟨runStatus, isStatus⟩ : ∃ runStatus, phase.runStatus = some runStatus := by
    cases phase <;> simp [isTerminal, runStatus] at term ⊢
  unfold syncRunStatusToStorage
  rw [isStatus]
  refine Discipline.Upholds.call (fun _ => Cluster.AtRest) allSettled_stable knows ?_
    fun _ _ rest => rest
  intro now reply knows consistent may
  have isOver : now.ended := ended_iff.mpr ⟨phase, by rw [Cluster.phase, knows.status]; exact isPhase, term⟩
  have synced : ({ now with runStatus } : Cluster).Consistent ∧
      EndsAsStored now { now with runStatus } ∧
      ({ now with runStatus } : Cluster).AtRest :=
    ⟨⟨consistent.kept, consistent.records, consistent.numbered, consistent.single,
      consistent.settled,
      fun going => absurd isOver going, consistent.completed, fun going => absurd isOver going⟩,
      fun _ _ _ going => absurd isOver going, atRest_ended knows.status isPhase isStatus⟩
  cases reply with
  | ok => exact ⟨⟨synced.1, synced.2.1⟩, synced.2.2⟩
  | failed applied =>
    cases applied with
    | true => exact ⟨⟨synced.1, synced.2.1⟩, synced.2.2⟩
    | false =>
      have agrees : runStatus = now.runStatus := by
        simpa [Request.writtenStatus] using may.2.2.1 rfl
      exact ⟨⟨consistent, (refl now).endsAsStored⟩,
        atRest_ended knows.status isPhase (agrees ▸ isStatus)⟩

theorem keeps_patchAndSync {next} (phase : RunPhase) (stable : outcomeDiscipline.Stable known)
    (holds : known cluster) (isPhase : next.phase = some phase) (term : phase.isTerminal)
    (settled : ∀ now, known now → ∀ number, now.Settled number)
    (stored : ∀ now, known now → now.mayServe seen (.patchStatus next) .ok →
      ∀ out, now.outcome = some out →
      phase = out.phase) :
    outcomeDiscipline.Upholds seen (fun _ => Cluster.AtRest) (patchAndSync next) cluster := by
  refine keeps_patch_ended stable holds isPhase term settled stored fun now _ isOver => ?_
  simp only [isPhase]
  refine Discipline.Upholds.bind ((keeps_syncRunStatusToStorage isOver isPhase term).weaken ?_)
  exact fun _ _ rest => rest

theorem keeps_deletePodIfExists {post number} (stable : outcomeDiscipline.Stable known)
    (holds : known cluster)
    (deleted : ∀ existed after, known after → after.Settled number → post (.ok existed) after) :
    outcomeDiscipline.Upholds seen post (deletePodIfExists number) cluster := by
  refine keeps_call stable holds rfl fun answer after knows _ ⟨served, settled⟩ => ?_
  rcases served with rfl | rfl
  · exact deleted true after knows settled
  · exact deleted false after knows settled

theorem keeps_podExited {post number} (stable : outcomeDiscipline.Stable known)
    (holds : known cluster) (alive : ∀ after, known after → post (.ok false) after)
    (exited : ∀ after, known after → after.Settled number → post (.ok true) after) :
    outcomeDiscipline.Upholds seen post (podExited (some number)) cluster := by
  refine keeps_call stable holds rfl fun answer after knows _ isObject => ?_
  cases isObject
  match object : after.podObject number with
  | none => exact exited after knows (settled_of_podObject (.inl object))
  | some .succeeded => exact exited after knows (settled_of_podObject (.inr (.inl object)))
  | some .failed => exact exited after knows (settled_of_podObject (.inr (.inr object)))
  | some .pending | some .running | some .unknown => exact alive after knows

theorem keeps_createExecutorPod {number resume} {next : Reconcile}
    (knows : OnlyPods status numbers cluster) (going : ¬(status.bind (·.phase)).any (·.isTerminal))
    (numbered : Numbered status number) (others : ∀ other, numbers other → other = number)
    (later : ∀ after, OnlyPods status (· = number) after →
      outcomeDiscipline.Upholds seen (fun _ => Cluster.AtRest) next after) :
    outcomeDiscipline.Upholds seen (fun _ => Cluster.AtRest) (createExecutorPod number resume next)
      cluster := by
  refine keeps_call onlyPods_stable knows rfl fun answer after knows _ served => ?_
  cases served
  refine Discipline.Upholds.call
    (fun answer after => (answer = .ok () ∨ answer = .error .conflict) ∧ OnlyPods status (· = number) after)
    onlyPods_stable knows ?_ ?_
  · intro now reply knows consistent may
    obtain rfl : reply = .ok := may.1 rfl
    have only : ∀ other, now.Present other → other = number := fun other here => others other (knows.present other here)
    simp only [operator, Cluster.serve, Cluster.createPod]
    split
    · exact ⟨⟨consistent, (Settling.refl now).endsAsStored⟩, .inr rfl, knows.status, only⟩
    · have running : ¬now.ended := by
        rw [Cluster.ended, Cluster.phase, knows.status]
        exact going
      have created := consistent_create consistent running (knows.status.symm ▸ numbered) only
      refine ⟨⟨created, ?_⟩, .inl rfl, knows.status, fun other here => present_create only here⟩
      intro outcome phase _ _ isPhase terminal
      exact absurd (ended_iff.mpr ⟨phase, isPhase, terminal⟩) running
  · rintro answer after ⟨rfl | rfl, knows⟩
    · exact later after knows
    · exact later after knows

structure Nobody (status : Option RunCrdStatus) (outcome : Option RunOutcome)
    (cluster : Cluster) : Prop where
  status : cluster.run.status = status
  absent : ∀ number, ¬cluster.Present number
  outcome : cluster.outcome = outcome

theorem nobody_stable {out} : outcomeDiscipline.Stable (Nobody status out) := by
  intro before after others knows
  have undisturbing : Undisturbing before after := others
  refine ⟨undisturbing.status.trans knows.status,
    fun number here => knows.absent number (undisturbing.present number here), ?_⟩
  exact (undisturbing.unwritten fun number => settled_of_not_present (knows.absent number)).1.trans
    knows.outcome

section Phases

variable {current : RunCrdStatus} {spec : RunSpec}

theorem Nobody.settled {out} (knows : Nobody status out cluster) (number : Nat) :
    cluster.Settled number :=
  settled_of_not_present (knows.absent number)

theorem keeps_honorOutcome {out : RunOutcome} (knows : Nobody (some current) (some out) cluster) :
    outcomeDiscipline.Upholds seen (fun _ => Cluster.AtRest) (honorOutcome current out)
      cluster := by
  refine keeps_call nobody_stable knows rfl fun now after knows _ _ => ?_
  refine keeps_patchAndSync out.phase nobody_stable knows applyOutcomeToStatus_phase
    out.isTerminal_phase
    (fun _ knows => knows.settled) ?_
  intro now knows _ stored isStored
  cases knows.outcome.symm.trans isStored
  rfl

theorem keeps_restartExecutor {next : RunCrdStatus} (knows : Nobody (some current) none cluster)
    (running : current.phase = some .running)
    (recorded : current.executorPod = some current.totalRestarts)
    (phase : next.phase = some .running)
    (restarts : next.totalRestarts = current.totalRestarts + 1) :
    outcomeDiscipline.Upholds seen (fun _ => Cluster.AtRest)
      (restartExecutor spec current.executorPod next)
      cluster := by
  rw [recorded]
  refine Discipline.Upholds.bind (keeps_deletePodIfExists nobody_stable knows
    fun existed after knows _ => ?_)
  have only : OnlyPods (some current) (fun _ => False) after :=
    ⟨knows.status, fun number here => knows.absent number here⟩
  refine keeps_createExecutorPod only (by simp [running, isTerminal])
    (by simp [Numbered, running, restarts]) (fun _ none => none.elim) fun after knows => ?_
  refine keeps_call onlyPods_stable knows rfl fun now after knows _ _ => ?_
  refine keeps_patchStatus_going knows (by simp [running, isTerminal]) ⟨?_, ?_, ?_⟩ ?_
  · simp [phase, isTerminal]
  · rintro _ ⟨⟩
    simp [phase]
  · rintro number rfl
    simp [Numbered, phase]
  · intro after knows
    refine atRest_going knows (by simp [phase, isTerminal]) fun _ number same => ?_
    simpa using same

theorem keeps_handleExecutorFailure (running : current.phase = some .running)
    (recorded : current.executorPod = some current.totalRestarts)
    (knows : OnlyPods (some current) (fun _ => False) cluster) :
    outcomeDiscipline.Upholds seen (fun _ => Cluster.AtRest) (handleExecutorFailure spec current)
      cluster := by
  have gone {out : Option RunOutcome} {after : Cluster}
    (knows : OnlyPods (some current) (fun _ => False) after)
      (isOutcome : out = after.outcome) : Nobody (some current) out after :=
    ⟨knows.status, fun number here => knows.present number here, isOutcome.symm⟩
  have restarting {after : Cluster} (knows : Nobody (some current) none after) :
      outcomeDiscipline.Upholds seen (fun _ => Cluster.AtRest) (do
        let progress ← ask .getRunProgress
        let now ← ask .now
        let newStatus := countRestart current progress now
        if spec.maxRestarts < newStatus.restartsWithoutProgress then do
          let now ← ask .now
          let out ← ask .getRunOutcome
          patchAndSync (exhaustedStatus spec { newStatus with completedAt := some now } out)
        else
          restartExecutor spec current.executorPod newStatus) after := by
    refine keeps_call nobody_stable knows rfl fun progress after knows _ _ => ?_
    refine keeps_call nobody_stable knows rfl fun now after knows _ _ => ?_
    dsimp only
    split
    · refine keeps_call nobody_stable knows rfl fun later after knows _ _ => ?_
      refine keeps_call nobody_stable knows rfl fun answer after knows _ read => ?_
      have unstored : answer.join = none := read.trans knows.outcome
      refine keeps_patchAndSync .failed nobody_stable knows ?_ rfl (fun _ knows => knows.settled) ?_
      · match answer with
        | none | some none => rfl
      · intro now knows _ stored isStored
        cases knows.outcome.symm.trans isStored
    · exact keeps_restartExecutor knows running recorded (by simp [running]) (by simp)
  refine keeps_call onlyPods_stable knows rfl fun answer after knows _ read => ?_
  match answer with
  | none => exact restarting (gone knows read)
  | some none => exact restarting (gone knows read)
  | some (some out) => exact keeps_honorOutcome (gone knows read)

theorem keeps_completeRun (knows : OnlyPods (some current) (· = current.totalRestarts) cluster)
    (consistent : cluster.Consistent) (running : current.phase = some .running)
    (succ : cluster.podObject current.totalRestarts = some .succeeded) :
    outcomeDiscipline.Upholds seen (fun _ => Cluster.AtRest) (completeRun current) cluster := by
  obtain ⟨pod, found, isObject⟩ := Option.bind_eq_some_iff.mp succ
  have going : ¬cluster.ended := by
    simp [Cluster.ended, Cluster.phase, knows.status, running, isTerminal]
  have fits := consistent.fits going _ pod found (by simp [present, isObject])
  rw [consistent.completed _ pod found isObject] at fits
  obtain ⟨stored, isStored, wrote⟩ := fits
  have isOver : Over (some current) (some stored) cluster.runStatus cluster := by
    grind [AllSettled.isOver, OnlyPods.allSettled, settled_of_podObject]
  have stable : outcomeDiscipline.Stable (Over (some current) (some stored) cluster.runStatus) :=
    over_stable (RunPhase.isTerminal_runStatus wrote)
  refine keeps_call stable isOver rfl fun now after isOver _ _ => ?_
  refine keeps_call stable isOver rfl fun answer after isOver _ read => ?_
  have isAnswer : answer.join = some stored := read.trans isOver.outcome
  rcases answer with _ | _ | out
  · cases isAnswer
  · cases isAnswer
  · cases isAnswer
    refine keeps_patch_ended stable isOver applyOutcomeToStatus_phase stored.isTerminal_phase
      (fun _ isOver => isOver.settled) ?_ ?_
    · intro now isOver _ other isOther
      cases isOver.outcome.symm.trans isOther
      rfl
    · intro now isOver _
      refine atRest_ended rfl applyOutcomeToStatus_phase ?_
      rw [wrote]
      exact congrArg some isOver.runStatus.symm

theorem keeps_updateProgress {post : Unit → Cluster → Prop}
    (knows : OnlyPods (some current) (· = current.totalRestarts) cluster)
    (running : current.phase = some .running)
    (recorded : current.executorPod = some current.totalRestarts)
    (ends : ∀ after, after.AtRest → post () after) :
    outcomeDiscipline.Upholds seen post (updateProgress current) cluster := by
  have resting {after : Cluster} {next : RunCrdStatus} (phase : next.phase = some .running)
      (same : next.totalRestarts = current.totalRestarts)
      (knows : OnlyPods (some next) (· = current.totalRestarts) after) : after.AtRest :=
    atRest_going knows (by simp [phase, isTerminal]) fun _ number isNumber =>
      isNumber.trans same.symm
  refine keeps_call onlyPods_stable knows rfl fun progress after knows _ _ => ?_
  cases progress with
  | none => exact ends after (resting running rfl knows)
  | some progress =>
    dsimp only
    split
    · exact ends after (resting running rfl knows)
    · refine keeps_call onlyPods_stable knows rfl fun now after knows _ _ => ?_
      refine keeps_patch_going knows (by simp [running, isTerminal]) ⟨?_, ?_,
        ?_⟩ fun after knows => ?_
      · simp [running, isTerminal]
      · rintro _ ⟨⟩
        simp [running, recorded]
      · rintro number rfl
        simp [Numbered, running]
      · exact ends after (resting (by simpa using running) (by simp) knows)

theorem keeps_startCancelling (knows : OnlyPods (some current) (· = current.totalRestarts) cluster)
    (running : current.phase = some .running)
    (recorded : current.executorPod = some current.totalRestarts) :
    outcomeDiscipline.Upholds seen (fun _ => Cluster.AtRest) (startCancelling current) cluster := by
  refine keeps_call onlyPods_stable knows rfl fun _ after knows _ _ => ?_
  refine keeps_call onlyPods_stable knows rfl fun _ after knows _ _ => ?_
  refine keeps_call onlyPods_stable knows rfl fun now after knows _ _ => ?_
  refine keeps_patchStatus_going knows (by simp [running, isTerminal]) ⟨?_, ?_,
    ?_⟩ fun after knows => ?_
  · simp [isTerminal]
  · rintro _ ⟨⟩
    simpa using recorded
  · rintro number rfl
    simp [Numbered]
  · exact atRest_going knows (by simp [isTerminal]) fun phase => by simp at phase

theorem keeps_transitionToTimedOut
    (knows : OnlyPods (some current) (· = current.totalRestarts) cluster)
    (recorded : current.executorPod = some current.totalRestarts) (times : timesOut seen.1 seen.2) :
    outcomeDiscipline.Upholds seen (fun _ => Cluster.AtRest) (transitionToTimedOut spec current)
      cluster := by
  refine keeps_call onlyPods_stable knows rfl fun _ after knows _ _ => ?_
  rw [recorded]
  refine Discipline.Upholds.bind (keeps_deletePodIfExists onlyPods_stable knows
    fun existed after knows settled => ?_)
  have isOver : AllSettled (some current) after :=
    knows.allSettled fun number same => same ▸ settled
  refine keeps_call allSettled_stable isOver rfl fun _ after isOver _ _ => ?_
  refine keeps_call allSettled_stable isOver rfl fun now after isOver _ _ => ?_
  refine keeps_call allSettled_stable isOver rfl fun progress after isOver _ _ => ?_
  refine keeps_patchAndSync .timedOut allSettled_stable isOver withProgress_phase rfl
    (fun _ isOver => isOver.settled) ?_
  intro now _ may out isOutcome
  cases (may.2.2.2.2 times).symm.trans isOutcome

theorem keeps_finalizeCancelled {message : Option String}
    (isOver : AllSettled (some current) cluster) (cancelling : cancels seen.1) :
    outcomeDiscipline.Upholds seen (fun _ => Cluster.AtRest) (do
      let _ ← ask .cleanupStepJobs
      finalizeCancelled current message) cluster := by
  refine keeps_call allSettled_stable isOver rfl fun _ after isOver _ _ => ?_
  refine keeps_call allSettled_stable isOver rfl fun now after isOver _ _ => ?_
  refine keeps_call allSettled_stable isOver rfl fun progress after isOver _ _ => ?_
  refine keeps_patchAndSync .cancelled allSettled_stable isOver withProgress_phase rfl
    (fun _ isOver => isOver.settled) ?_
  intro now _ may out isOutcome
  have isCancelled : out.isCancelled := by simpa [isOutcome] using may.2.2.2.1 cancelling
  cases out with
  | cancelled done total => rfl
  | success | failure => simp [RunOutcome.isCancelled] at isCancelled

theorem keeps_reconcileCancelling {now}
    (knows : OnlyPods (some current) (· = current.totalRestarts) cluster)
    (phase : current.phase = some .cancelling)
    (recorded : current.executorPod = some current.totalRestarts) (cancelling : cancels seen.1) :
    outcomeDiscipline.Upholds seen (fun _ => Cluster.AtRest) (reconcileCancelling spec current now)
      cluster := by
  have settles {after : Cluster} (knows : OnlyPods (some current) (· = current.totalRestarts) after)
      (settled : after.Settled current.totalRestarts) : AllSettled (some current) after :=
    knows.allSettled fun number same => same ▸ settled
  unfold reconcileCancelling
  rw [recorded]
  refine Discipline.Upholds.bind (keeps_podExited onlyPods_stable knows ?_
    fun after knows settled =>
    keeps_finalizeCancelled (settles knows settled) cancelling)
  intro after knows
  dsimp only
  split
  · exact Discipline.Upholds.bind (keeps_deletePodIfExists onlyPods_stable knows
      fun existed after knows settled =>
      keeps_finalizeCancelled (settles knows settled) cancelling)
  · exact atRest_going knows (by simp [phase, isTerminal]) fun running => by simp [phase] at running

theorem keeps_reconcileRunning {run now}
    (knows : OnlyPods (some current) (· = current.totalRestarts) cluster)
    (status : run.status = some current) (running : current.phase = some .running)
    (recorded : current.executorPod = some current.totalRestarts) :
    outcomeDiscipline.Upholds (run, now) (fun _ => Cluster.AtRest)
      (reconcileRunning run current now) cluster := by
  unfold reconcileRunning
  split
  · exact keeps_startCancelling knows running recorded
  split
  · rename_i unrequested timedOut
    refine keeps_transitionToTimedOut knows recorded ?_
    simp [timesOut, status, running, unrequested, timedOut]
  rw [recorded]
  refine keeps_call onlyPods_stable knows rfl fun answer after knows consistent isObject => ?_
  cases isObject
  have resting {after : Cluster} (knows : OnlyPods (some current) (· = current.totalRestarts)
    after) : after.AtRest :=
    atRest_going knows (by simp [running, isTerminal]) fun _ _ same => same
  have gone (absent : ¬after.Present current.totalRestarts) : OnlyPods (some current)
    (fun _ => False) after := by
    grind [OnlyPods]
  rw [show (some current.totalRestarts).getD 0 = current.totalRestarts from rfl]
  cases object : after.podObject current.totalRestarts with
  | none => grind [keeps_handleExecutorFailure, Cluster.Present, present, Cluster.podObject]
  | some podPhase =>
    cases podPhase with
    | failed => grind [keeps_handleExecutorFailure, Cluster.Present, present, Cluster.podObject]
    | succeeded => exact keeps_completeRun knows consistent running object
    | running =>
      exact Discipline.Upholds.bind (keeps_updateProgress knows running recorded fun _ rest => rest)
    | pending | unknown => exact resting knows

end Phases

theorem atRest_stable :
    outcomeDiscipline.Stable fun cluster => cluster.AtRest ∧
    (cluster.ended → ∀ number, cluster.Settled number) := by
  rintro before after others ⟨rest, isOver⟩
  have undisturbing : Undisturbing before after := others
  refine ⟨undisturbing.atRest isOver rest, fun ended number => undisturbing.settled number (isOver ?_ number)⟩
  rwa [← ended_congr undisturbing.status]

theorem keeps_reconcileInit (knows : OnlyPods status (· = 0) cluster)
    (going : ¬(status.bind (·.phase)).any (·.isTerminal)) :
    outcomeDiscipline.Upholds seen (fun _ => Cluster.AtRest) reconcileInit cluster := by
  refine keeps_call onlyPods_stable knows rfl fun now after knows _ _ => ?_
  refine keeps_patchStatus_going knows going ⟨?_, ?_, ?_⟩ fun after knows => ?_
  · simp [isTerminal]
  · rintro _ ⟨⟩
    rfl
  · exact fun _ same => same
  · exact atRest_going knows (by simp [isTerminal]) fun phase => by simp at phase

theorem keeps_reconcilePending {current : RunCrdStatus}
    (knows : OnlyPods (some current) (· = 0) cluster) (pending : current.phase = some .pending)
    (fresh : current.totalRestarts = 0) :
    outcomeDiscipline.Upholds seen (fun _ => Cluster.AtRest) (reconcilePending current)
      cluster := by
  have going : ¬((some current).bind (·.phase)).any (·.isTerminal) := by simp [pending, isTerminal]
  refine keeps_createExecutorPod knows going (by simp [Numbered, pending])
    (fun _ same => same) fun after knows => ?_
  refine keeps_call onlyPods_stable knows rfl fun now after knows _ _ => ?_
  refine keeps_patchStatus_going knows going ⟨?_, ?_, ?_⟩ fun after knows => ?_
  · simp [isTerminal]
  · rintro _ ⟨⟩
    simp [fresh]
  · rintro number rfl
    simp [Numbered, fresh]
  · exact atRest_going knows (by simp [isTerminal]) fun _ number same => by simpa [fresh] using same

theorem keeps_reconcile (consistent : cluster.Consistent) (rest : cluster.AtRest) :
    outcomeDiscipline.Upholds (cluster.run, cluster.clock) (fun _ => Cluster.AtRest)
      (reconcile cluster.run cluster.clock) cluster := by
  unfold reconcile
  rw [if_neg (by simp [consistent.kept])]
  split
  · refine keeps_call atRest_stable ⟨rest, consistent.settled⟩ rfl
      fun answer after knows _ served =>
      ?_
    cases served
    exact knows.1
  have knows : OnlyPods cluster.run.status (Numbered cluster.run.status) cluster :=
    ⟨rfl, consistent.numbered⟩
  cases isStatus : cluster.run.status with
  | none =>
    rw [isStatus] at knows
    exact keeps_reconcileInit knows (by simp)
  | some current =>
    rw [isStatus] at knows
    have records := consistent.records current isStatus
    have alone {numbers : Nat → Prop} (only : ∀ number, Numbered (some current) number →
      numbers number) :
        OnlyPods (some current) numbers cluster :=
      ⟨knows.status, fun number here => only number (knows.present number here)⟩
    dsimp only
    split
    · rename_i unset
      exact keeps_reconcileInit
        (alone fun number isNumber => by simpa [Numbered, unset] using isNumber)
        (by simp [unset])
    · rename_i pending
      simp only [pending] at records
      exact keeps_reconcilePending
        (alone fun number isNumber => by simpa [Numbered, pending] using isNumber)
        pending records
    · rename_i running
      simp only [running] at records
      exact keeps_reconcileRunning ⟨knows.status, rest.alone current isStatus running⟩ isStatus
        running records
    · rename_i cancelling
      simp only [cancelling] at records
      exact keeps_reconcileCancelling
        (alone fun number isNumber => by simpa [Numbered, cancelling] using isNumber)
        cancelling records (by simp [cancels, isStatus, cancelling])
    all_goals exact rest

theorem outcomeDiscipline_sound : outcomeDiscipline.Sound where
  refl := Undisturbing.refl
  trans early late := early.trans late
  changes changed may consistent :=
    have changes := consistent_change changed may consistent
    ⟨changes.1, changes.2, changes.1.atRest consistent.settled⟩
  calls guaranteed _ := guaranteed.1
  starts read _ consistent rest := by
    simp only [operator, Option.ite_none_left_eq_some, Option.some.injEq] at read
    obtain ⟨_, rfl⟩ := read
    exact keeps_reconcile consistent rest
  crashes none _ := none.elim

end Passes

def Undisturbed (state : OperatorState) : OperatorAction → Prop
  | .change change => state.world.mayChange change
  | .start => True
  | .call reply =>
      match state.underWay with
      | some (seen, .call request _) => state.world.mayServe seen request reply
      | _ => True
  | .crash => False

instance : (state : OperatorState) → (action : OperatorAction) →
    Decidable (Undisturbed state action)
  | state, .change change => inferInstanceAs (Decidable (state.world.mayChange change))
  | _, .start => .isTrue trivial
  | ⟨world, some (seen, .call request _)⟩, .call reply =>
      inferInstanceAs (Decidable (world.mayServe seen request reply))
  | ⟨_, some (_, .done _)⟩, .call _ | ⟨_, none⟩, .call _ => .isTrue trivial
  | _, .crash => .isFalse id

theorem Undisturbed.permits {state action} (undisturbed : Undisturbed state action) :
    outcomeDiscipline.Permits state action := by
  cases action with
  | change change => exact undisturbed
  | start => trivial
  | call reply =>
    simp only [Discipline.Permits]
    split
    · rename_i seen req next underWay
      simp only [Undisturbed, underWay] at undisturbed
      exact undisturbed
    · trivial
  | crash => exact undisturbed

def completedActions (success : Bool) : List OperatorAction :=
  [.change (.startRun 0), .change (.finishPlan 0 success), .change (.finalizeRun 0),
    .change (.chooseOutcome 0 1 1 "Failed assets: orders"), .change (.setRunOutcome 0)]

def passActions (replies : List Reply) : List OperatorAction :=
  .start :: replies.map .call

structure Ending where
  phase : Option RunPhase
  outcome : Option RunOutcome
  runStatus : RunStatus
  idle : Bool
  deriving DecidableEq

def ending (spec : RunSpec) (actions : List OperatorAction) : Option Ending :=
  (perform operator.step (newRun spec) actions).map fun final =>
    ⟨final.world.phase, final.world.outcome, final.world.runStatus, final.underWay.isNone⟩

def failedHistory : List OperatorAction :=
  startedActions ++ passActions [.ok, .failed false] ++ completedActions false ++
    [.change (.exit 0)] ++
    passActions [.ok, .ok, .ok, .ok]

/-- In every undisturbed history at most one executor is present, the one the Run's status numbers.
-/
theorem one_executor_present (spec : RunSpec) {actions : List OperatorAction}
    {final : OperatorState} (performed : perform operator.step (newRun spec) actions = some final)
    (undisturbed : Stepwise operator.step (fun state action _ => Undisturbed state action)
      (newRun spec) actions) :
    (∀ first second, final.world.Present first → final.world.Present second → first = second) ∧
      ∀ number, final.world.Present number → Numbered final.world.run.status number := by
  have start : outcomeDiscipline.Holds (newRun spec) := by
    refine ⟨?_, ?_⟩
    · constructor <;> simp [newRun, RecordsPod, Cluster.Present, Cluster.ended, Cluster.phase]
    · constructor <;> simp [newRun, Cluster.phase]
  have consistent := (outcomeDiscipline_sound.perform (undisturbed.mono Undisturbed.permits)
    performed start).1
  exact ⟨consistent.single, consistent.numbered⟩

theorem one_executor_present_failedHistory :
    ∃ final, perform operator.step (newRun ⟨none, 3, 30⟩) failedHistory = some final ∧
      ∀ first second, final.world.Present first → final.world.Present second → first = second := by
  obtain ⟨final, performed⟩ := Option.isSome_iff_exists.mp
    (by decide +kernel : (perform operator.step (newRun ⟨none, 3, 30⟩) failedHistory).isSome)
  exact ⟨final, performed, (one_executor_present _ performed (by decide +kernel)).1⟩

end Rivers

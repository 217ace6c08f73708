import Rivers.Operator.ClusterCore

/-! Which executor pods of a Run may still be there. -/

namespace Rivers

open Passes Transitions Cluster

namespace Cluster

variable (cluster : Cluster)

def Settled (number : Nat) : Prop :=
  ∀ pod, cluster.pods number = some pod → pod.exited ∨ pod.asked

instance (number : Nat) : Decidable (cluster.Settled number) :=
  decidable_of_iff ((cluster.pods number).all fun pod => pod.exited || pod.asked) (by
    simp [Settled, Option.all_eq_true])

def phase : Option RunPhase :=
  cluster.run.status.bind (·.phase)

def Stray : Prop :=
  ∃ status, cluster.run.status = some status ∧ status.phase = some .running ∧
    ¬cluster.Settled (status.totalRestarts + 1)

instance : Decidable cluster.Stray :=
  decidable_of_iff (cluster.run.status.any fun status =>
      decide (status.phase = some .running ∧ ¬cluster.Settled (status.totalRestarts + 1))) (by
    simp [Stray, Option.any_eq_true])

end Cluster

def MayRun (status : Option RunCrdStatus) (number : Nat) : Prop :=
  match status with
  | none => number = 0
  | some status =>
      match status.phase with
      | none | some .pending => number = 0
      | some .running => number = status.totalRestarts ∨ number = status.totalRestarts + 1
      | some .cancelling => number = status.totalRestarts
      | some .cancelled | some .timedOut => False
      | some .succeeded | some .failed => True

def RecordsPod (status : Option RunCrdStatus) : Prop :=
  ∀ known, status = some known →
    match known.phase with
    | none | some .pending => known.totalRestarts = 0
    | some .running | some .cancelling => known.executorPod = some known.totalRestarts
    | some .succeeded | some .failed | some .cancelled | some .timedOut => True

structure Cluster.PodsAccounted (cluster : Cluster) : Prop where
  records : RecordsPod cluster.run.status
  settled : ∀ number, ¬MayRun cluster.run.status number → cluster.Settled number

variable {cluster before after : Cluster}

structure Settling (before after : Cluster) : Prop where
  status : after.run.status = before.run.status
  settled : ∀ number, before.Settled number → after.Settled number

theorem Settling.refl (cluster : Cluster) : Settling cluster cluster :=
  ⟨rfl, fun _ settled => settled⟩

theorem Settling.trans {first second third} (early : Settling first second)
    (late : Settling second third) :
    Settling first third :=
  ⟨late.status.trans early.status,
    fun number settled => late.settled number (early.settled number settled)⟩

theorem Settling.accounted (settling : Settling before after) (accounted : before.PodsAccounted) :
    after.PodsAccounted := by grind [Cluster.PodsAccounted, Settling]

theorem settling_setPod {number} {written : Cluster} {pod next}
    (found : cluster.pods number = some pod) (status : written.run.status = cluster.run.status)
    (pods : written.pods = cluster.pods) (kept : (pod.exited ∨ pod.asked) → next.exited ∨
      next.asked) :
    Settling cluster (written.setPod number next) := by
  refine ⟨status, ?_⟩
  intro other settled pod' isPod
  simp only [setPod, pods, Function.update_apply] at isPod
  split at isPod
  · rename_i same
    subst same
    cases isPod
    exact kept (settled pod found)
  · exact settled pod' isPod

theorem settling_advance {number} {stage next : ExecutorStage} {written}
    (advanced : cluster.advance number stage written next = some after)
    (status : written.run.status = cluster.run.status) (pods : written.pods = cluster.pods) :
    Settling cluster after := by
  simp only [advance, runningAt, Option.map_eq_some_iff, Option.filter_eq_some_iff] at advanced
  obtain ⟨pod, ⟨found, _⟩, rfl⟩ := advanced
  exact settling_setPod found status pods fun settled => settled

theorem settling_change {change : Change} (changed : cluster.change change = some after) :
    Settling cluster after := by
  cases change with
  | wait | deleteRun | annotate | requestCancellation | cancelQueuedRun | event =>
    simp only [change, Option.some.injEq] at changed
    subst changed
    exact ⟨rfl, fun _ settled => settled⟩
  | readHandle | cancelHandle =>
    simp only [change, Option.ite_none_left_eq_some, Option.some.injEq] at changed
    obtain ⟨-, rfl⟩ := changed
    exact ⟨rfl, fun _ settled => settled⟩
  | podState number state =>
    simp only [change, Option.ite_none_left_eq_some, Option.map_eq_some_iff,
      Option.filter_eq_some_iff] at changed
    obtain ⟨_, pod, ⟨found, alive⟩, rfl⟩ := changed
    refine settling_setPod found rfl rfl fun settled => .inr ?_
    simpa [show pod.exited = false by simpa using alive] using settled
  | removePod number =>
    simp only [change, Option.map_eq_some_iff] at changed
    obtain ⟨pod, found, rfl⟩ := changed
    exact settling_setPod found rfl rfl fun _ => .inr rfl
  | rejectVerb number message => exact settling_advance changed rfl rfl
  | startRun number => grind [settling_advance, change]
  | finishPlan number success => exact settling_advance changed rfl rfl
  | finalizeRun number | chooseOutcome number | setRunOutcome number =>
    grind [settling_advance, change]
  | exit number =>
    simp only [change] at changed
    split at changed
    · simp only [runningAt, Option.map_eq_some_iff, Option.filter_eq_some_iff] at changed
      obtain ⟨pod, ⟨found, _⟩, rfl⟩ := changed
      refine settling_setPod found rfl rfl fun _ => .inl ?_
      split <;> rfl
    · cases changed
  | die number =>
    simp only [change, Option.map_eq_some_iff, Option.filter_eq_some_iff] at changed
    obtain ⟨pod, ⟨found, _⟩, rfl⟩ := changed
    exact settling_setPod found rfl rfl fun _ => .inl rfl

def Request.isQuiet : Request → Bool
  | .createPod _ _ | .patchStatus _ => false
  | _ => true

theorem settling_serve {req} {reply : Reply} (quiet : req.isQuiet) :
    Settling cluster (cluster.serve req reply).1 := by
  cases req with
  | createPod | patchStatus => simp [Request.isQuiet] at quiet
  | now | getPod | fetchClSpec | cleanupStepJobs | getRunOutcome | getRunProgress =>
    cases reply <;> exact .refl _
  | addFinalizer | removeFinalizer | updateRunStatus | requestCancellation =>
    cases reply with
    | ok => exact ⟨rfl, fun _ settled => settled⟩
    | failed applied => cases applied <;> exact ⟨rfl, fun _ settled => settled⟩
  | deletePod number =>
    simp only [serve, deletePod]
    split
    · rename_i pod found
      have asked : Settling cluster (cluster.setPod number { pod with asked := true }) :=
        settling_setPod (Option.filter_eq_some_iff.mp found).1 rfl rfl fun _ => .inr rfl
      cases reply with
      | ok => exact asked
      | failed applied =>
        cases applied
        · exact .refl _
        · exact asked
    · cases reply <;> exact .refl _

def RunOutcome.isCancelled : RunOutcome → Bool
  | .cancelled _ _ => true
  | .success _ _ | .failure _ _ _ => false

def podDiscipline : Discipline operator where
  mayChange _ _ := True
  mayStart cluster := isCancelRequested cluster.run ∨ isTimedOut cluster.run cluster.clock →
  ¬cluster.Stray
  mayServe cluster _ request _ :=
    request = .getRunOutcome → cluster.outcome.any (·.isCancelled) → ¬cluster.Stray
  mayCrash _ := True
  invariant := Cluster.PodsAccounted
  rely := Settling
  guarantee _ after := after.PodsAccounted
  rest _ := True

structure Knows (status : Option RunCrdStatus) (numbers : Nat → Prop)
    (cluster : Cluster) : Prop where
  status : cluster.run.status = status
  settled : ∀ number, numbers number → cluster.Settled number

def Told : (request : Request) → request.Answer → Cluster → Prop
  | .getPod number, answer, after =>
      answer = .ok none ∨ answer = .ok (some .succeeded) ∨ answer = .ok (some .failed) →
      after.Settled number
  | .deletePod number, answer, after =>
      answer = .ok () ∨ answer = .error .notFound → after.Settled number
  | .getRunOutcome, answer, after => answer.join.any (·.isCancelled) → ¬after.Stray
  | _, _, _ => True

section Passes

variable {status : Option RunCrdStatus} {numbers : Nat → Prop} {seen : Run × Int} {Last End : Type}

theorem Knows.settling (knows : Knows status numbers before) (settling : Settling before after) :
    Knows status numbers after :=
  ⟨settling.status.trans knows.status,
    fun number known => settling.settled number (knows.settled number known)⟩

theorem Knows.also {number} (knows : Knows status numbers cluster)
    (settled : cluster.Settled number) :
    Knows status (fun other => numbers other ∨ other = number) cluster := by grind [Knows]

theorem settled_of_podObject {number} (gone : cluster.podObject number = none ∨
    cluster.podObject number = some .succeeded ∨
      cluster.podObject number = some .failed) : cluster.Settled number := by
  grind [ExecutorPod.exited, podObject, Cluster.Settled]

theorem podObject_eq_none {number} (absent : (cluster.pods number).filter (·.object.isSome) = none) :
    cluster.podObject number = none := by
  simp only [Option.filter_eq_none_iff] at absent
  simpa [podObject, Option.bind_eq_none_iff] using absent

theorem told_serve {req reply} (may : podDiscipline.mayServe cluster seen req reply) :
    Told req (cluster.serve req reply).2 (cluster.serve req reply).1 := by
  cases req with
  | getPod number =>
    intro answered
    cases reply with
    | ok =>
      refine settled_of_podObject ?_
      simpa [Cluster.serve, Cluster.read] using answered
    | failed applied => simp [Cluster.serve, Cluster.read] at answered
  | deletePod number =>
    intro answered
    simp only [Cluster.serve, Cluster.deletePod] at answered ⊢
    split at answered
    · rename_i pod found
      cases reply with
      | ok =>
        intro other isOther
        simp only [Cluster.write, Cluster.setPod, Function.update_self, Option.some.injEq] at isOther
        subst isOther
        exact .inr rfl
      | failed applied => simp [Cluster.write] at answered
    · rename_i absent
      cases reply <;> exact settled_of_podObject (.inl (podObject_eq_none absent))
  | getRunOutcome =>
    intro cancelled
    cases reply with
    | ok => exact may rfl (by simpa [Cluster.serve, Cluster.read] using cancelled)
    | failed applied => simp [Cluster.serve, Cluster.read] at cancelled
  | _ => trivial

theorem upholds_quiet {post req} {next : req.Answer → Call Last}
    (knows : Knows status numbers cluster)
    (quiet : req.isQuiet) (goesOn : ∀ answer after, Knows status numbers after →
      Told req answer after →
      podDiscipline.Upholds seen post (next answer) after) :
    podDiscipline.Upholds seen post (ask req >>= next) cluster := by
  refine Discipline.Upholds.call (fun answer after => Knows status numbers after ∧
    Told req answer after)
    (fun _ _ settling known => known.settling settling) knows ?_ fun answer after told => goesOn _ _
      told.1 told.2
  intro now reply known accounted may
  have settling : Settling now (now.serve req reply).1 := settling_serve quiet
  exact ⟨settling.accounted accounted, known.settling settling, told_serve may⟩

structure Follows (status : Option RunCrdStatus) (numbers : Nat → Prop) (next : RunCrdStatus) :
    Prop where
  records : RecordsPod status → RecordsPod (some next)
  settled : ∀ number, MayRun status number → MayRun (some next) number ∨ numbers number

theorem Follows.accounted {next} (follows : Follows status numbers next)
    (knows : Knows status numbers cluster) (accounted : cluster.PodsAccounted) :
    (cluster.setStatus next).PodsAccounted := by
  obtain ⟨records, settled⟩ := accounted
  rw [knows.status] at records settled
  refine ⟨follows.records records, ?_⟩
  intro number isOver
  by_cases may : MayRun status number
  · exact knows.settled number ((follows.settled number may).resolve_left isOver)
  · exact settled number may

theorem upholds_ask_patchStatus {post new} {next : Except ApiError Unit → Call Last}
    (knows : Knows status numbers cluster) (follows : Follows status numbers new)
    (goesOn : ∀ answer after, podDiscipline.Upholds seen post (next answer) after) :
    podDiscipline.Upholds seen post (ask (.patchStatus new) >>= next) cluster := by
  refine Discipline.Upholds.call (fun _ _ => True)
    (fun _ _ settling known => known.settling settling) knows ?_ fun answer after _ =>
      goesOn answer after
  intro now reply known accounted _
  refine ⟨?_, trivial⟩
  have patched := follows.accounted known accounted
  cases reply with
  | ok => exact patched
  | failed applied =>
    cases applied
    · exact accounted
    · exact patched

theorem knows_status (cluster : Cluster) : Knows cluster.run.status (fun _ => False) cluster :=
  ⟨rfl, fun _ none => none.elim⟩

theorem upholds_syncRunStatusToStorage {post phase}
    (knows : Knows status numbers cluster) (ends : ∀ after, Knows status numbers after →
      post () after) :
    podDiscipline.Upholds seen post (syncRunStatusToStorage phase) cluster := by
  unfold syncRunStatusToStorage
  split
  · exact ends cluster knows
  · exact upholds_quiet knows rfl fun _ after known _ => ends after known

theorem upholds_deletePodIfExists {post number} (knows : Knows status numbers cluster)
    (failed : ∀ error after, Knows status numbers after → post (.error error) after)
    (deleted : ∀ existed after, Knows status (fun other => numbers other ∨ other = number) after →
      post (.ok existed) after) :
    podDiscipline.Upholds seen post (deletePodIfExists number) cluster := by
  refine upholds_quiet knows rfl fun answer after known told => ?_
  match answer with
  | .ok () => exact deleted true after (known.also (told (.inl rfl)))
  | .error .notFound => exact deleted false after (known.also (told (.inr rfl)))
  | .error .conflict | .error .other => exact failed _ after known

theorem upholds_deleteRecordedPod {post number} (knows : Knows status numbers cluster)
    (failed : ∀ error after, Knows status numbers after → post (.error error) after)
    (deleted : ∀ existed after, Knows status (fun other => numbers other ∨ other = number) after →
      post (.ok existed) after) :
    podDiscipline.Upholds seen post (deleteRecordedPod (some number)) cluster :=
  upholds_deletePodIfExists knows failed deleted

theorem upholds_podExited {post number} (knows : Knows status numbers cluster)
    (failed : ∀ error after, Knows status numbers after → post (.error error) after)
    (alive : ∀ after, Knows status numbers after → post (.ok false) after)
    (exited : ∀ after, Knows status (fun other => numbers other ∨ other = number) after →
      post (.ok true) after) :
    podDiscipline.Upholds seen post (podExited (some number)) cluster := by
  refine upholds_quiet knows rfl fun answer after known told => ?_
  match answer with
  | .error error => exact failed _ after known
  | .ok none => exact exited after (known.also (told (.inl rfl)))
  | .ok (some .succeeded) => exact exited after (known.also (told (.inr (.inl rfl))))
  | .ok (some .failed) => exact exited after (known.also (told (.inr (.inr rfl))))
  | .ok (some .pending) | .ok (some .running) | .ok (some .unknown) => exact alive after known

theorem upholds_patchStatus {new next} (knows : Knows status numbers cluster)
    (follows : Follows status numbers new)
    (goesOn : ∀ after, podDiscipline.Upholds seen (fun _ _ => True) next after) :
    podDiscipline.Upholds seen (fun _ _ => True) (patchStatus new next) cluster := by
  refine upholds_ask_patchStatus knows follows fun answer after => ?_
  cases answer with
  | error error => trivial
  | ok => exact goesOn after

theorem upholds_patchAndSync {new} (knows : Knows status numbers cluster)
    (follows : Follows status numbers new) :
    podDiscipline.Upholds seen (fun _ _ => True) (patchAndSync new) cluster := by
  refine upholds_patchStatus knows follows fun after => ?_
  split
  · trivial
  · exact Discipline.Upholds.bind (upholds_syncRunStatusToStorage (knows_status after)
      fun _ _ => trivial)

theorem upholds_createExecutorPod {number resume} {next : Reconcile}
    (knows : Knows status numbers cluster) (may : MayRun status number) (other : ¬numbers number)
    (goesOn : ∀ after, Knows status numbers after →
      podDiscipline.Upholds seen (fun _ _ => True) next after) :
    podDiscipline.Upholds seen (fun _ _ => True) (createExecutorPod number resume next)
      cluster := by
  refine upholds_quiet knows rfl fun answer after known _ => ?_
  cases answer with
  | error error => trivial
  | ok =>
    refine Discipline.Upholds.call (fun _ => Knows status numbers)
      (fun _ _ settling known => known.settling settling) known ?_ fun answer after known => ?_
    · intro now reply known accounted _
      have created : (now.setPod number {}).PodsAccounted ∧
        Knows status numbers (now.setPod number {}) := by
        have keeps : ∀ n, n ≠ number → now.Settled n → (now.setPod number {}).Settled n := by
          intro n differs settled pod found
          simp only [setPod, Function.update_of_ne differs] at found
          exact settled pod found
        refine ⟨⟨accounted.records, ?_⟩, known.status, ?_⟩
        · intro n isOver
          refine keeps n ?_ (accounted.settled n isOver)
          grind [Knows.status, setPod]
        · grind [Knows.settled]
      simp only [operator, serve, createPod]
      split
      · cases reply <;> exact ⟨accounted, known⟩
      · cases reply with
        | ok => exact created
        | failed applied =>
          cases applied
          · exact ⟨accounted, known⟩
          · exact created
    · match answer with
      | .ok () | .error .conflict => exact goesOn after known
      | .error .notFound | .error .other => trivial

section Phases

variable {known new : RunCrdStatus} {outcome : RunOutcome} {run : Run}

theorem follows_succeeded_or_failed (ended : new.phase = some .succeeded ∨
    new.phase = some .failed) :
    Follows status numbers new := by grind [RecordsPod, MayRun, Follows]

theorem follows_ended (phase : RunPhase) (ended : new.phase = some phase) (term : phase.isTerminal)
    (settled : ∀ number, MayRun status number → numbers number) : Follows status numbers new := by
  grind [RecordsPod, RunPhase.isTerminal, Follows]

theorem follows_outcome (applied : new.phase = some outcome.phase)
    (settled : outcome.isCancelled → ∀ number, MayRun status number → numbers number) :
    Follows status numbers new := by
  cases outcome with
  | success done total => exact follows_succeeded_or_failed (.inl applied)
  | failure message done total => exact follows_succeeded_or_failed (.inr applied)
  | cancelled done total => exact follows_ended .cancelled applied rfl (settled rfl)

theorem settled_of_not_stray (knows : Knows (some known) numbers cluster)
    (running : known.phase = some .running)
    (expected : ¬cluster.Stray) : cluster.Settled (known.totalRestarts + 1) := by
  by_contra unsettled
  exact expected ⟨known, knows.status, running, unsettled⟩

abbrev KnowsRecorded (known : RunCrdStatus) (cluster : Cluster) : Prop :=
  Knows (some known) (fun number => number = known.totalRestarts) cluster

theorem upholds_honoring {next : Option (Option RunOutcome) → Reconcile}
    (running : known.phase = some .running) (knows : KnowsRecorded known cluster)
    (honors : ∀ outcome numbers after, Knows (some known) numbers after →
      (outcome.isCancelled → ∀ number, MayRun (some known) number → numbers number) →
        podDiscipline.Upholds seen (fun _ _ => True) (next (some (some outcome))) after)
    (goesOn : ∀ answer after, answer.join = none → KnowsRecorded known after →
      podDiscipline.Upholds seen (fun _ _ => True) (next answer) after) :
    podDiscipline.Upholds seen (fun _ _ => True) (ask .getRunOutcome >>= next) cluster := by
  refine upholds_quiet knows rfl fun answer after knows told => ?_
  match answer with
  | none => exact goesOn none after rfl knows
  | some none => exact goesOn (some none) after rfl knows
  | some (some outcome) =>
    by_cases cancelled : outcome.isCancelled
    · have expected : ¬after.Stray := told (by simpa using cancelled)
      refine honors outcome _ after (knows.also (settled_of_not_stray knows running expected))
        fun _ number may => ?_
      simpa [MayRun, running] using may
    · exact honors outcome _ after knows fun isCancelled => absurd isCancelled cancelled

theorem upholds_honorOutcome (knows : Knows (some known) numbers cluster)
    (settled : outcome.isCancelled → ∀ number, MayRun (some known) number → numbers number) :
    podDiscipline.Upholds seen (fun _ _ => True) (honorOutcome known outcome) cluster := by
  refine upholds_quiet knows rfl fun now after knows _ => ?_
  exact upholds_patchAndSync knows (follows_outcome applyOutcomeToStatus_phase settled)

theorem upholds_restartExecutor {spec : RunSpec} (running : known.phase = some .running)
    (knows : KnowsRecorded known cluster) (recorded : known.executorPod = some known.totalRestarts)
    (phase : new.phase = some .running) (restarts : new.totalRestarts = known.totalRestarts + 1) :
    podDiscipline.Upholds seen (fun _ _ => True) (restartExecutor spec known.executorPod new)
      cluster := by
  have restarting {after : Cluster} (knows : KnowsRecorded known after) :
      podDiscipline.Upholds seen (fun _ _ => True) (createExecutorPod new.totalRestarts true do
        let now ← ask .now
        let restarts := new.restartsWithoutProgress
        let maxRestarts := spec.maxRestarts
        let condition := makeCondition .executorRestarted s!"Restart {restarts}/{maxRestarts}" now
        patchStatus (pushCondition { new with executorPod := some new.totalRestarts } condition)
          (requeue 5))
        after := by
    refine upholds_createExecutorPod knows (by simp [MayRun, running, restarts])
      (by omega) fun after knows => ?_
    refine upholds_quiet knows rfl fun now after knows _ => ?_
    refine upholds_patchStatus knows ⟨?_, ?_⟩ fun after => trivial
    · rintro _ last same
      cases same
      simp [phase]
    · grind [MayRun, pushCondition]
  rw [recorded]
  refine Discipline.Upholds.bind (upholds_deleteRecordedPod knows ?_ ?_)
  · intro error after knows
    exact restarting knows
  · simp_all

theorem upholds_handleExecutorFailure {spec} (running : known.phase = some .running)
    (recorded : known.executorPod = some known.totalRestarts)
    (knows : KnowsRecorded known cluster) :
    podDiscipline.Upholds seen (fun _ _ => True) (handleExecutorFailure spec known) cluster := by
  refine upholds_honoring running knows ?_ ?_
  · intro outcome numbers after knows settled
    exact upholds_honorOutcome knows settled
  · intro answer after unstored knows
    have continues : podDiscipline.Upholds seen (fun _ _ => True) (do
        let progress ← ask .getRunProgress
        let now ← ask .now
        let newStatus := countRestart known progress now
        if spec.maxRestarts < newStatus.restartsWithoutProgress then do
          let now ← ask .now
          let outcome ← ask .getRunOutcome
          patchAndSync (exhaustedStatus spec { newStatus with completedAt := some now } outcome)
        else
          restartExecutor spec known.executorPod newStatus) after := by
      refine upholds_quiet knows rfl fun progress after knows _ => ?_
      refine upholds_quiet knows rfl fun now after knows _ => ?_
      dsimp only
      split
      · refine upholds_quiet knows rfl fun later after knows _ => ?_
        refine upholds_honoring running knows ?_ ?_
        · intro outcome numbers after knows settled
          exact upholds_patchAndSync knows (follows_outcome applyOutcomeToStatus_phase settled)
        · intro answer after unstored knows
          refine upholds_patchAndSync knows (follows_succeeded_or_failed (.inr ?_))
          match answer with
          | none | some none => rfl
      · exact upholds_restartExecutor running knows recorded (by simp [running]) (by simp)
    match answer with
    | none | some none => exact continues

theorem upholds_completeRun (running : known.phase = some .running)
    (knows : KnowsRecorded known cluster) :
    podDiscipline.Upholds seen (fun _ _ => True) (completeRun known) cluster := by
  refine upholds_quiet knows rfl fun now after knows _ => ?_
  refine upholds_honoring running knows ?_ ?_
  · intro outcome numbers after knows settled
    exact upholds_patchStatus knows (follows_outcome applyOutcomeToStatus_phase settled) fun _ => trivial
  · intro answer after unstored knows
    match answer with
    | none | some none => exact upholds_patchAndSync knows (follows_succeeded_or_failed (.inl rfl))

theorem upholds_updateProgress {post : Unit → Cluster → Prop}
    (knows : Knows (some known) numbers cluster) (ends : ∀ after, post () after) :
    podDiscipline.Upholds seen post (updateProgress known) cluster := by
  refine upholds_quiet knows rfl fun progress after knows _ => ?_
  cases progress with
  | none => exact ends after
  | some progress =>
    dsimp only
    split
    · exact ends after
    · refine upholds_quiet knows rfl fun now after knows _ => ?_
      refine upholds_ask_patchStatus knows ⟨?_, fun number may => .inl may⟩ fun _ after =>
        ends after
      rintro records _ same
      cases same
      exact records known rfl

theorem upholds_startCancelling (running : known.phase = some .running)
    (recorded : known.executorPod = some known.totalRestarts)
    (knows : Knows (some known) (fun number => number = known.totalRestarts + 1) cluster) :
    podDiscipline.Upholds seen (fun _ _ => True) (startCancelling known) cluster := by
  refine upholds_quiet knows rfl fun _ after knows _ => ?_
  refine upholds_quiet knows rfl fun _ after knows _ => ?_
  refine upholds_quiet knows rfl fun now after knows _ => ?_
  refine upholds_patchStatus knows ⟨?_, ?_⟩ fun _ => trivial
  · rintro _ last same
    cases same
    simpa using recorded
  · intro number may
    simpa [MayRun, running] using may

theorem upholds_transitionToTimedOut {spec : RunSpec} (running : known.phase = some .running)
    (recorded : known.executorPod = some known.totalRestarts)
    (knows : Knows (some known) (fun number => number = known.totalRestarts + 1) cluster) :
    podDiscipline.Upholds seen (fun _ _ => True) (transitionToTimedOut spec known) cluster := by
  refine upholds_quiet knows rfl fun _ after knows _ => ?_
  rw [recorded]
  refine Discipline.Upholds.bind (upholds_deleteRecordedPod knows (fun _ _ _ => trivial) ?_)
  intro existed after knows
  refine upholds_quiet knows rfl fun _ after knows _ => ?_
  refine upholds_quiet knows rfl fun now after knows _ => ?_
  refine upholds_quiet knows rfl fun progress after knows _ => ?_
  refine upholds_patchAndSync knows (follows_ended .timedOut (by simp) rfl ?_)
  intro number may
  simpa [MayRun, running, or_comm] using may

theorem upholds_finalizeCancelled {message : Option String}
    (cancelling : known.phase = some .cancelling) (knows : KnowsRecorded known cluster) :
    podDiscipline.Upholds seen (fun _ _ => True) (finalizeCancelled known message) cluster := by
  refine upholds_quiet knows rfl fun now after knows _ => ?_
  refine upholds_quiet knows rfl fun progress after knows _ => ?_
  refine upholds_patchAndSync knows (follows_ended .cancelled (by simp) rfl ?_)
  intro number may
  simpa [MayRun, cancelling] using may

theorem upholds_reconcileCancelling {spec now} (cancelling : known.phase = some .cancelling)
    (recorded : known.executorPod = some known.totalRestarts)
    (knows : Knows (some known) (fun _ => False) cluster) :
    podDiscipline.Upholds seen (fun _ _ => True) (reconcileCancelling spec known now) cluster := by
  have finalizing {message : Option String} {after : Cluster}
      (knows : Knows (some known) (fun other => False ∨ other = known.totalRestarts) after) :
      podDiscipline.Upholds seen (fun _ _ => True) (do
        let _ ← ask .cleanupStepJobs
        finalizeCancelled known message) after := by
    simp only [false_or] at knows
    refine upholds_quiet knows rfl fun _ after knows _ => ?_
    exact upholds_finalizeCancelled cancelling knows
  unfold reconcileCancelling
  rw [recorded]
  refine Discipline.Upholds.bind (upholds_podExited knows (fun _ _ _ => trivial) ?_
    fun _ => finalizing)
  intro after knows
  dsimp only
  split
  · refine Discipline.Upholds.bind (upholds_deletePodIfExists knows (fun _ _ _ => trivial) ?_)
    exact fun _ _ => finalizing
  · trivial

theorem upholds_reconcileRunning {now : Int} (running : known.phase = some .running)
    (recorded : known.executorPod = some known.totalRestarts)
    (knows : Knows (some known) (fun _ => False) cluster)
    (settled : isCancelRequested run ∨ isTimedOut run now →
      cluster.Settled (known.totalRestarts + 1)) :
    podDiscipline.Upholds seen (fun _ _ => True) (reconcileRunning run known now) cluster := by
  unfold reconcileRunning
  split
  · rename_i asked
    exact upholds_startCancelling running recorded
      (by simpa using knows.also (settled (.inl asked)))
  split
  · rename_i timedOut
    exact upholds_transitionToTimedOut running recorded
      (by simpa using knows.also (settled (.inr timedOut)))
  rw [recorded]
  refine upholds_quiet knows rfl fun answer after knows told => ?_
  match answer with
  | .error error => trivial
  | .ok none =>
    exact upholds_handleExecutorFailure running recorded
      (by simpa using knows.also (told (.inl rfl)))
  | .ok (some .failed) =>
    exact upholds_handleExecutorFailure running recorded
      (by simpa using knows.also (told (.inr (.inr rfl))))
  | .ok (some .succeeded) =>
    exact upholds_completeRun running (by simpa using knows.also (told (.inr (.inl rfl))))
  | .ok (some .running) =>
      exact Discipline.Upholds.bind (upholds_updateProgress knows fun _ => trivial)
  | .ok (some .pending) | .ok (some .unknown) => trivial

theorem upholds_removeFinalizer (knows : Knows status numbers cluster) :
    podDiscipline.Upholds seen (fun _ _ => True) removeFinalizer cluster := by
  refine upholds_quiet knows rfl fun answer after _ _ => ?_
  cases answer <;> trivial

theorem upholds_handleDeletion :
    podDiscipline.Upholds seen (fun _ _ => True) (handleDeletion run) cluster := by
  unfold handleDeletion
  split
  · trivial
  split
  · exact upholds_removeFinalizer (knows_status cluster)
  · rename_i known _
    have signalled : podDiscipline.Upholds seen (fun _ => Knows cluster.run.status fun _ => False)
        (signalDeletion known) cluster := by
      unfold signalDeletion
      split
      · exact knows_status cluster
      · refine upholds_quiet (knows_status cluster) rfl fun _ after knows _ => ?_
        exact upholds_syncRunStatusToStorage knows fun _ knows => knows
    refine Discipline.Upholds.bind (signalled.weaken fun _ after knows => ?_)
    cases known.executorPod with
    | none => exact upholds_quiet knows rfl fun _ _ knows _ => upholds_removeFinalizer knows
    | some number =>
      refine Discipline.Upholds.bind (upholds_deleteRecordedPod knows (fun _ _ _ => trivial) ?_)
      intro existed after knows
      exact upholds_quiet knows rfl fun _ _ knows _ => upholds_removeFinalizer knows

end Phases

theorem upholds_reconcile (accounted : cluster.PodsAccounted)
    (may : podDiscipline.mayStart cluster) :
    podDiscipline.Upholds seen (fun _ _ => True) (reconcile cluster.run cluster.clock) cluster := by
  unfold reconcile
  split
  · exact upholds_handleDeletion
  split
  · refine upholds_quiet (knows_status cluster) rfl fun answer after _ _ => ?_
    cases answer <;> trivial
  have starting {status : Option RunCrdStatus} (isStatus : cluster.run.status = status)
      (fresh : ∀ number, MayRun status number → number = 0) :
      podDiscipline.Upholds seen (fun _ _ => True) reconcileInit cluster := by
    refine upholds_quiet (knows_status cluster) rfl fun now after knows _ => ?_
    refine upholds_patchStatus knows ⟨?_, ?_⟩ fun _ => trivial
    · rintro _ last same
      cases same
      rfl
    · intro number may
      rw [isStatus] at may
      exact .inl (fresh number may)
  cases isStatus : cluster.run.status with
  | none => exact starting isStatus fun _ may => may
  | some known =>
    have knows : Knows (some known) (fun _ => False) cluster := isStatus ▸ knows_status cluster
    have records := accounted.records known isStatus
    dsimp only
    split
    · grind [MayRun]
    · rename_i pending
      simp only [pending] at records
      refine upholds_createExecutorPod knows (by simp [MayRun, pending]) id fun after knows => ?_
      refine upholds_quiet knows rfl fun now after knows _ => ?_
      refine upholds_patchStatus knows ⟨?_, ?_⟩ fun _ => trivial
      · rintro _ last same
        cases same
        simp [records]
      · intro number may
        simp only [MayRun, pending] at may
        simp [MayRun, may, records]
    · rename_i running
      simp only [running] at records
      refine upholds_reconcileRunning running records knows fun ends => ?_
      exact settled_of_not_stray knows running (may ends)
    · grind [upholds_reconcileCancelling]
    all_goals trivial

theorem podDiscipline_sound : podDiscipline.Sound where
  refl := Settling.refl
  trans early late := early.trans late
  changes changed _ accounted :=
    have settling := settling_change changed
    ⟨settling, settling.accounted accounted, id⟩
  calls accounted _ := accounted
  starts read may accounted _ := by
    simp only [operator, Option.ite_none_left_eq_some, Option.some.injEq] at read
    obtain ⟨_, rfl⟩ := read
    exact upholds_reconcile accounted may
  crashes _ _ := trivial

end Passes

def ExpectsNoStray (state : OperatorState) : OperatorAction → Prop
  | .start =>
      isCancelRequested state.world.run ∨ isTimedOut state.world.run state.world.clock →
      ¬state.world.Stray
  | .call _ =>
      match state.underWay with
      | some (_, .call .getRunOutcome _) =>
          state.world.outcome.any (·.isCancelled) → ¬state.world.Stray
      | _ => True
  | .change _ | .crash => True

instance (state : OperatorState) : (action : OperatorAction) →
    Decidable (ExpectsNoStray state action)
  | .start =>
      inferInstanceAs (Decidable
        (isCancelRequested state.world.run ∨ isTimedOut state.world.run state.world.clock →
          ¬state.world.Stray))
  | .call _ => by
      unfold ExpectsNoStray
      dsimp only
      split <;> infer_instance
  | .change _ | .crash => .isTrue trivial

theorem ExpectsNoStray.permits {state action} (expects : ExpectsNoStray state action) :
    podDiscipline.Permits state action := by
  cases action with
  | change | crash => trivial
  | start => exact expects
  | call reply =>
    simp only [Discipline.Permits]
    split
    · rename_i seen req next underWay
      rintro rfl
      simpa [ExpectsNoStray, underWay] using expects
    · trivial

/-- Where restarts are recorded before the Run ends, no executor pod outlives it. -/
theorem ended_pods_settled (spec : RunSpec) {actions : List OperatorAction} {final : OperatorState}
    (performed : perform operator.step (newRun spec) actions = some final)
    (expects : Stepwise operator.step (fun state action _ => ExpectsNoStray state action)
      (newRun spec) actions)
    (ended : final.world.phase = some .cancelled ∨ final.world.phase = some .timedOut) :
    ∀ number, final.world.Settled number := by
  have permitted : Stepwise operator.step (fun state action _ => podDiscipline.Permits state action)
      (newRun spec) actions := expects.mono ExpectsNoStray.permits
  have start : podDiscipline.Holds (newRun spec) := by
    refine ⟨⟨?_, ?_⟩, trivial⟩
    · rintro _ ⟨⟩
    · rintro number _ _ ⟨⟩
  have accounted := (podDiscipline_sound.perform permitted performed start).1
  intro number
  refine accounted.settled number ?_
  simp only [phase, Option.bind_eq_some_iff] at ended
  rcases ended with ⟨status, isStatus, phase⟩ | ⟨status, isStatus,
    phase⟩ <;> simp [MayRun, isStatus, phase]

def startedActions : List OperatorAction :=
  [.start, .call .ok] ++ [.start, .call .ok, .call .ok] ++
    [.start, .call .ok, .call .ok, .call .ok, .call .ok] ++ [.change (.podState 0 .running)]

def interruptedRestart : List OperatorAction :=
  [.change (.die 0), .start, .call .ok, .call .ok, .call .ok, .call .ok, .call .ok, .call .ok,
    .call .ok, .crash, .change (.podState 1 .running)]

def resumedRestart : List OperatorAction :=
  .start :: List.replicate 9 (.call .ok)

def cancelActions (calls : Nat) : List OperatorAction :=
  [.change (.annotate "true"), .start] ++ List.replicate 4 (.call .ok) ++ .start :: List.replicate
    calls (.call .ok)

theorem ended_pods_settled_after_crash :
    ∃ final,
      perform operator.step (newRun ⟨none, 3, 0⟩)
        (startedActions ++ interruptedRestart ++ resumedRestart ++ cancelActions 7) = some final ∧
      final.world.phase = some .cancelled ∧ ∀ number, final.world.Settled number := by
  have ended :
      (perform operator.step (newRun ⟨none, 3, 0⟩)
        (startedActions ++ interruptedRestart ++ resumedRestart ++ cancelActions 7)).map
          (·.world.phase) =
          some (some .cancelled) := by decide +kernel
  obtain ⟨final, performed, phase⟩ := Option.map_eq_some_iff.mp ended
  exact ⟨final, performed, phase, ended_pods_settled _ performed (by decide +kernel) (.inl phase)⟩

theorem cancelled_beside_stray_pod :
    ((perform operator.step (newRun ⟨none, 3, 0⟩) (startedActions ++ interruptedRestart ++
      cancelActions 6)).map
      fun final => (final.world.phase, final.world.pods 1)) =
        some (some .cancelled, some { object := some .running, asked := false, stage := .launched }) := by
  decide +kernel

end Rivers

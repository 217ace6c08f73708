import Rivers.Operator.Pods

/-! The restart budget of a Run, with an observer. -/

namespace Rivers

open Passes Cluster

/-- The completed steps at a failure, at the last read and at the last count. -/
structure RestartLog where
  failedAt : Nat → Option (Finset String) := fun _ => none
  lastRead : Finset String := ∅
  counted : Finset String := ∅

namespace Cluster

variable (cluster : Cluster)

def steps : Finset String :=
  terminalSteps cluster.events

def restarts : Nat :=
  (cluster.run.status.map (·.totalRestarts)).getD 0

end Cluster

def ExecutorPod.lost (pod : ExecutorPod) : Bool :=
  match pod.object with
  | none | some .failed => true
  | some .pending | some .running | some .succeeded | some .unknown => false

def failsBetween (before after : Cluster) (number : Nat) : Bool :=
  (before.pods number).any (!·.exited) && (after.pods number).any (·.lost)

namespace RestartLog

variable (log : RestartLog)

def onChange (before after : Cluster) : RestartLog :=
  { log with
    failedAt := fun number =>
      if failsBetween before after number then some before.steps else log.failedAt number }

def onServe (before : Cluster) (request : Request) (after : Cluster) : RestartLog :=
  if request = .getRunProgress then { log with lastRead := before.steps }
  else if before.restarts < after.restarts then { log with counted := log.lastRead }
  else log

end RestartLog

abbrev Watched := Cluster × RestartLog

def watchedOperator : System Watched Request Request.Answer Reply Change (Run × Int)
    (Except ReconcileError Requeue) :=
  operator.observed RestartLog.onChange RestartLog.onServe

abbrev WatchedState := State Watched Request Request.Answer (Run × Int)
    (Except ReconcileError Requeue)

def newWatchedRun (spec : RunSpec) : WatchedState :=
  { world := ({ run := { spec } }, {}) }

/-- What a recorded status says of the executors that failed: the last ones that count failed at the
counted steps. -/
structure RunCrdStatus.Tallied (status : RunCrdStatus) (spec : RunSpec)
    (world : Watched) : Prop where
  inARow : ∀ back, back < status.restartsWithoutProgress →
    back < status.totalRestarts ∧ world.2.failedAt (status.totalRestarts - 1 - back) =
      some world.2.counted
  earlier : ∀ number pod, number < status.totalRestarts → world.1.pods number = some pod →
    pod.exited
  starting : status.phase = none ∨ status.phase = some .pending →
    status.totalRestarts = 0 ∧ status.restartsWithoutProgress = 0 ∧ status.completedSteps = none ∧
    world.2.counted = ∅
  recorded : status.phase = some .running → status.executorPod = some status.totalRestarts
  created : status.phase = some .running → world.1.pods status.totalRestarts ≠ none
  read : status.phase = some .running → status.completedSteps.getD 0 ≤ world.1.steps.card
  since : status.phase = some .running → ∀ steps, world.2.failedAt status.totalRestarts =
    some steps →
    world.2.counted ⊆ steps
  exhausted : status.phase = some .failed → world.1.outcome.isSome ∨ spec.maxRestarts <
    status.restartsWithoutProgress

structure Tallied (spec : RunSpec) (world : Watched) : Prop where
  isSpec : world.1.run.spec = spec
  lastRead : world.2.lastRead ⊆ world.1.steps
  counted : world.2.counted ⊆ world.1.steps
  uncreated : ∀ number, world.1.pods number = none → world.2.failedAt number = none
  lost : ∀ number pod, world.1.pods number = some pod → pod.lost →
    (world.2.failedAt number).isSome ∨ world.1.outcome.isSome
  failed : ∀ number steps, world.2.failedAt number = some steps → steps ⊆ world.1.steps
  completed : ∀ number pod, world.1.pods number = some pod →
    pod.stage = .exiting true ∨ pod.object = some .succeeded → world.1.outcome.isSome
  fresh : world.1.run.status = none → world.2.counted = ∅
  status : ∀ status, world.1.run.status = some status → status.Tallied spec world

/-- What others may do to the executors while a pass is under way, and what it means for the log. -/
structure Passing (before after : Watched) : Prop where
  status : after.1.run.status = before.1.run.status
  spec : after.1.run.spec = before.1.run.spec
  created : ∀ number, after.1.pods number = none ↔ before.1.pods number = none
  exited : ∀ number pod, before.1.pods number = some pod → pod.exited →
    (∃ next, after.1.pods number = some next ∧ next.exited ∧ (pod.lost → next.lost)) ∧
      after.2.failedAt number = before.2.failedAt number
  failed : ∀ number steps, after.2.failedAt number = some steps →
    before.2.failedAt number = some steps ∨ before.1.steps ⊆ steps
  steps : before.1.steps ⊆ after.1.steps
  lastRead : after.2.lastRead = before.2.lastRead
  counted : after.2.counted = before.2.counted
  outcome : before.1.outcome.isSome → after.1.outcome.isSome

variable {world before after : Watched} {spec : RunSpec}

theorem Passing.refl (world : Watched) : Passing world world where
  status := rfl
  spec := rfl
  created _ := .rfl
  exited _ pod found exited := ⟨⟨pod, found, exited, id⟩, rfl⟩
  failed _ _ isFailed := .inl isFailed
  steps := subset_rfl
  lastRead := rfl
  counted := rfl
  outcome := id

theorem Passing.trans {first second third} (early : Passing first second)
    (late : Passing second third) :
    Passing first third where
  status := late.status.trans early.status
  spec := late.spec.trans early.spec
  created number := (late.created number).trans (early.created number)
  exited number pod found exited := by
    obtain ⟨⟨middle, isMiddle, middleExited, middleLost⟩, same⟩ :=
      early.exited number pod found exited
    obtain ⟨⟨last, isLast, lastExited, lastLost⟩, same'⟩ :=
      late.exited number middle isMiddle middleExited
    exact ⟨⟨last, isLast, lastExited, fun lost => lastLost (middleLost lost)⟩, same'.trans same⟩
  failed number steps isFailed := by
    rcases late.failed number steps isFailed with earlier | after
    · exact early.failed number steps earlier
    · exact .inr (early.steps.trans after)
  steps := early.steps.trans late.steps
  lastRead := late.lastRead.trans early.lastRead
  counted := late.counted.trans early.counted
  outcome some := late.outcome (early.outcome some)

theorem Tallied.status_passing (tallied : Tallied spec before) (passing : Passing before after)
    (status : RunCrdStatus) (isStatus : after.1.run.status = some status) : status.Tallied
    spec after := by
  have tally := tallied.status status (passing.status ▸ isStatus)
  refine ⟨?_, ?_, ?_, tally.recorded, ?_, ?_, ?_, ?_⟩
  · intro back counts
    obtain ⟨within, failed⟩ := tally.inARow back counts
    refine ⟨within, ?_⟩
    rw [passing.counted, ← failed]
    cases found : before.1.pods (status.totalRestarts - 1 - back) with
    | none =>
      rw [tallied.uncreated _ found] at failed
      cases failed
    | some pod => exact (passing.exited _ pod found (tally.earlier _ pod (by omega) found)).2
  · intro number pod isEarlier found
    cases wasFound : before.1.pods number with
    | none =>
      rw [(passing.created number).mpr wasFound] at found
      cases found
    | some last =>
      obtain ⟨⟨next, isNext, exited, _⟩, _⟩ :=
        passing.exited number last wasFound (tally.earlier number last isEarlier wasFound)
      cases isNext.symm.trans found
      exact exited
  · intro phase
    rw [passing.counted]
    exact tally.starting phase
  · intro running none
    exact tally.created running ((passing.created _).mp none)
  · intro running
    exact (tally.read running).trans (Finset.card_le_card passing.steps)
  · intro running steps isFailed
    rw [passing.counted]
    rcases passing.failed _ steps isFailed with earlier | later
    · exact tally.since running steps earlier
    · exact tallied.counted.trans later
  · intro phase
    exact (tally.exhausted phase).imp_left passing.outcome

theorem ExecutorPod.exited_of_lost {pod : ExecutorPod} (lost : pod.lost) : pod.exited := by
  unfold ExecutorPod.lost at lost
  unfold ExecutorPod.exited
  split <;> simp_all

theorem ExecutorPod.lost_or_succeeded {pod : ExecutorPod} (exited : pod.exited) :
    pod.lost ∨ pod.object = some .succeeded := by
  unfold ExecutorPod.exited at exited
  unfold ExecutorPod.lost
  split <;> simp_all

variable {cluster written : Cluster} {log : RestartLog}

theorem terminalSteps_append (events more : List ProgressEvent) :
    terminalSteps events ⊆ terminalSteps (events ++ more) := by
  simp [List.toFinset_append, terminalSteps]

theorem failsBetween_of_eq {number : Nat} (same : written.pods number = cluster.pods number) :
    failsBetween cluster written number = false := by
  rw [failsBetween, same]
  cases cluster.pods number with
  | none => rfl
  | some pod =>
    simp only [Option.any_some, Bool.and_eq_false_iff, Bool.not_eq_eq_eq_not, Bool.not_false]
    by_cases lost : pod.lost
    · exact .inl (ExecutorPod.exited_of_lost lost)
    · exact .inr (by simpa using lost)

theorem onChange_of_pods (pods : written.pods = cluster.pods) :
    log.onChange cluster written = log := by
  simp [RestartLog.onChange, failsBetween_of_eq (congrFun pods _)]

theorem tallied_of_pods (tallied : Tallied spec (cluster, log))
    (status : written.run.status = cluster.run.status)
    (isSpec : written.run.spec = cluster.run.spec) (pods : written.pods = cluster.pods)
    (outcome : written.outcome = cluster.outcome) (steps : cluster.steps ⊆ written.steps) :
    Passing (cluster, log) (written, log) ∧ Tallied spec (written, log) := by
  have passing : Passing (cluster, log) (written, log) := by
    refine ⟨status, isSpec, ?_, ?_, fun _ _ => .inl, steps, rfl, rfl,
      fun some => outcome.symm ▸ some⟩
    · intro number
      rw [pods]
    · simp_all
  refine ⟨passing, isSpec.trans tallied.isSpec, tallied.lastRead.trans steps,
    tallied.counted.trans steps, ?_, ?_, ?_, ?_, ?_, tallied.status_passing passing⟩
  · intro number none
    exact tallied.uncreated number (pods ▸ none)
  · intro number pod found lost
    exact (tallied.lost number pod (pods ▸ found) lost).imp_right passing.outcome
  · intro number failed isFailed
    exact (tallied.failed number failed isFailed).trans steps
  · intro number pod found completed
    exact passing.outcome (tallied.completed number pod (pods ▸ found) completed)
  · intro none
    exact tallied.fresh (status ▸ none)

theorem tallied_beside (tallied : Tallied spec (cluster, log))
    (status : written.run.status = cluster.run.status)
    (isSpec : written.run.spec = cluster.run.spec) (pods : written.pods = cluster.pods)
    (outcome : written.outcome = cluster.outcome) (steps : cluster.steps ⊆ written.steps) :
    Passing (cluster, log) (written, log.onChange cluster written) ∧
      Tallied spec (written, log.onChange cluster written) := by
  rw [onChange_of_pods pods]
  exact tallied_of_pods tallied status isSpec pods outcome steps

theorem tallied_setPod {number pod next} (tallied : Tallied spec (cluster, log))
    (found : cluster.pods number = some pod) (run : written.run = cluster.run)
    (pods : written.pods = cluster.pods) (events : written.events = cluster.events)
    (outcome : cluster.outcome.isSome → written.outcome.isSome)
    (exited : pod.exited → next.exited ∧ (pod.lost → next.lost))
    (completed : next.stage = .exiting true ∨ next.object = some .succeeded →
      written.outcome.isSome) :
    Passing (cluster, log)
      (written.setPod number next, log.onChange cluster (written.setPod number next)) ∧
      Tallied spec (written.setPod number next, log.onChange cluster
        (written.setPod number next)) := by
  have elsewhere {other : Nat} (differs : other ≠ number) :
      (written.setPod number next).pods other = cluster.pods other := by
    simp only [setPod, Function.update_of_ne differs, pods]
  have here : (written.setPod number next).pods number = some next := by
    simp only [setPod, Function.update_self]
  have unfailed {other : Nat} (same : failsBetween cluster (written.setPod number next) other =
    false) :
      (log.onChange cluster (written.setPod number next)).failedAt other = log.failedAt other := by
    simp [RestartLog.onChange, same]
  have steps : (written.setPod number next).steps = cluster.steps := congrArg terminalSteps events
  have survives (wasExited : pod.exited) : failsBetween cluster (written.setPod number next)
    number = false := by
    simp [failsBetween, found, wasExited]
  have passing : Passing (cluster, log)
      (written.setPod number next, log.onChange cluster (written.setPod number next)) := by
    refine ⟨congrArg Run.status run, congrArg Run.spec run, ?_, ?_, ?_, steps.symm.subset, rfl,
      rfl, outcome⟩
    · intro other
      by_cases same : other = number
      · subst same
        simp [here, found]
      · rw [elsewhere same]
    · intro other last isLast wasExited
      by_cases same : other = number
      · simp_all
      · exact ⟨⟨last, (elsewhere same).trans isLast, wasExited, id⟩,
          unfailed (failsBetween_of_eq (elsewhere same))⟩
    · intro other failed isFailed
      simp only [RestartLog.onChange] at isFailed
      split at isFailed
      · cases isFailed
        exact .inr subset_rfl
      · exact .inl isFailed
  refine ⟨passing, (congrArg Run.spec run).trans tallied.isSpec, steps.symm ▸ tallied.lastRead,
    steps.symm ▸ tallied.counted, ?_, ?_, ?_, ?_, ?_, tallied.status_passing passing⟩
  · intro other none
    have wasNone := (passing.created other).mp none
    have differs : other ≠ number := by
      rintro rfl
      cases found.symm.trans wasNone
    exact (unfailed (failsBetween_of_eq (elsewhere differs))).trans
      (tallied.uncreated other wasNone)
  · intro other last isLast lost
    by_cases same : other = number
    · subst same
      cases here.symm.trans isLast
      by_cases wasExited : pod.exited
      · rcases ExecutorPod.lost_or_succeeded wasExited with wasLost | succeeded
        · rw [unfailed (survives wasExited)]
          exact (tallied.lost _ pod found wasLost).imp_right outcome
        · exact .inr (outcome (tallied.completed _ pod found (.inr succeeded)))
      · left
        simp [RestartLog.onChange, failsBetween, found, wasExited, here, lost]
    · rw [unfailed (failsBetween_of_eq (elsewhere same))]
      exact (tallied.lost other last ((elsewhere same).symm.trans isLast) lost).imp_right outcome
  · intro other failed isFailed
    simp only [RestartLog.onChange] at isFailed
    rw [show (written.setPod number next, log.onChange cluster
      (written.setPod number next)).1.steps = cluster.steps
      from steps]
    split at isFailed
    · cases isFailed
      exact subset_rfl
    · exact tallied.failed other failed isFailed
  · intro other last isLast isCompleted
    by_cases same : other = number
    · subst same
      cases here.symm.trans isLast
      exact completed isCompleted
    · exact outcome (tallied.completed other last ((elsewhere same).symm.trans isLast) isCompleted)
  · intro none
    exact tallied.fresh (passing.status ▸ none)

theorem tallied_advance {number stage next moved} (tallied : Tallied spec (cluster, log))
    (advanced : cluster.advance number stage written next = some moved)
    (run : written.run = cluster.run) (pods : written.pods = cluster.pods)
    (events : written.events = cluster.events)
    (outcome : cluster.outcome.isSome → written.outcome.isSome)
    (completed : next = .exiting true → written.outcome.isSome) :
    Passing (cluster, log) (moved, log.onChange cluster moved) ∧
    Tallied spec (moved, log.onChange cluster moved) := by
  simp only [advance, runningAt, Option.map_eq_some_iff, Option.filter_eq_some_iff,
    decide_eq_true_eq] at advanced
  obtain ⟨pod, ⟨found, running, rfl⟩, rfl⟩ := advanced
  refine tallied_setPod tallied found run pods events outcome (fun exited => ⟨exited, id⟩) ?_
  rintro (exiting | succeeded)
  · exact completed exiting
  · cases running.symm.trans succeeded

theorem tallied_change {change moved} (tallied : Tallied spec (cluster, log))
    (changed : cluster.change change = some moved) :
    Passing (cluster, log) (moved, log.onChange cluster moved) ∧
    Tallied spec (moved, log.onChange cluster moved) := by
  cases change with
  | wait | deleteRun | annotate | requestCancellation | cancelQueuedRun =>
    simp only [change, Option.some.injEq] at changed
    subst changed
    exact tallied_beside tallied rfl rfl rfl rfl subset_rfl
  | readHandle | cancelHandle =>
    simp only [change, Option.ite_none_left_eq_some, Option.some.injEq] at changed
    obtain ⟨-, rfl⟩ := changed
    exact tallied_beside tallied rfl rfl rfl rfl subset_rfl
  | event event =>
    simp only [change, Option.some.injEq] at changed
    subst changed
    exact tallied_beside tallied rfl rfl rfl rfl (terminalSteps_append _ _)
  | podState number state =>
    simp only [change, Option.ite_none_left_eq_some, Option.map_eq_some_iff,
      Option.filter_eq_some_iff] at changed
    obtain ⟨moving, pod, ⟨found, alive⟩, rfl⟩ := changed
    refine tallied_setPod tallied found rfl rfl rfl id (fun exited => by simp [exited] at alive) ?_
    rintro (exiting | succeeded)
    · exact tallied.completed number pod found (.inl exiting)
    · cases succeeded
      exact absurd (.inl rfl) moving
  | removePod number =>
    simp only [change, Option.map_eq_some_iff] at changed
    obtain ⟨pod, found, rfl⟩ := changed
    refine tallied_setPod tallied found rfl rfl rfl id (fun _ => ⟨rfl, fun _ => rfl⟩) ?_
    rintro (exiting | succeeded)
    · exact tallied.completed number pod found (.inl exiting)
    · cases succeeded
  | exit number =>
    simp only [change] at changed
    split at changed
    · rename_i completed _
      simp only [runningAt, Option.map_eq_some_iff, Option.filter_eq_some_iff,
        decide_eq_true_eq] at changed
      obtain ⟨pod, ⟨found, running, stage⟩, rfl⟩ := changed
      refine tallied_setPod tallied found rfl rfl rfl id
        (fun exited => by simp [ExecutorPod.exited, running] at exited) ?_
      rintro (exiting | succeeded)
      · exact tallied.completed number pod found (.inl exiting)
      · cases completed with
        | true => exact tallied.completed number pod found (.inl stage)
        | false => cases succeeded
    · cases changed
  | die number =>
    simp only [change, Option.map_eq_some_iff, Option.filter_eq_some_iff] at changed
    obtain ⟨pod, ⟨found, alive⟩, rfl⟩ := changed
    refine tallied_setPod tallied found rfl rfl rfl id (fun exited => by simp [exited] at alive) ?_
    rintro (exiting | succeeded)
    · exact tallied.completed number pod found (.inl exiting)
    · cases succeeded
  | rejectVerb number message =>
    exact tallied_advance tallied changed rfl rfl rfl (fun _ => rfl) fun exiting => by cases exiting
  | startRun number =>
    simp only [change] at changed
    split at changed
    · exact tallied_advance tallied changed rfl rfl rfl id fun exiting => by cases exiting
    · exact tallied_advance tallied changed rfl rfl rfl id fun exiting => by cases exiting
  | finishPlan number success =>
    exact tallied_advance tallied changed rfl rfl rfl id fun exiting => by cases exiting
  | finalizeRun number =>
    simp only [change] at changed
    split at changed
    · exact tallied_advance tallied changed rfl rfl rfl id fun exiting => by cases exiting
    · cases changed
  | chooseOutcome number completedSteps totalSteps message =>
    simp only [change] at changed
    split at changed
    · exact tallied_advance tallied changed rfl rfl rfl id fun exiting => by cases exiting
    · cases changed
  | setRunOutcome number =>
    simp only [change] at changed
    split at changed
    · exact tallied_advance tallied changed rfl rfl rfl (fun _ => rfl) fun _ => rfl
    · cases changed

end Rivers

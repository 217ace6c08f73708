import Rivers.Operator.RestartsCore

/-! The restart budget over every history. -/

namespace Rivers

open Passes Transitions Cluster ExecutorPod RunPhase RestartLog

def Request.isStorageWrite : Request → Bool
  | .updateRunStatus _ | .requestCancellation => true
  | _ => false

def Request.findsLost (cluster : Cluster) : Request → Bool
  | .getPod number =>
      cluster.phase = some .running ∧
      (cluster.podObject number = none ∨ cluster.podObject number = some .failed)
  | _ => false

def Unpolled (world : Watched) : Prop :=
  ∀ status, world.1.run.status = some status →
    world.2.counted = world.1.steps ∨ status.completedSteps.getD 0 < world.1.steps.card

instance (world : Watched) : Decidable (Unpolled world) :=
  decidable_of_iff (world.1.run.status.all fun status =>
      decide (world.2.counted = world.1.steps ∨ status.completedSteps.getD 0 <
        world.1.steps.card)) (by
    simp [Unpolled, Option.all_eq_true])

def ResetsCount (before after : Watched) : Prop :=
  ∀ last next, before.1.run.status = some last → after.1.run.status = some next →
    last.totalRestarts < next.totalRestarts → before.2.lastRead ≠ before.2.counted →
      next.restartsWithoutProgress = 0

def Executed (status : Option RunCrdStatus) (number : Nat) : Prop :=
  match status with
  | none => False
  | some status =>
      match status.phase with
      | none | some .pending => False
      | some .running => number ≤ status.totalRestarts
      | some .cancelling | some .succeeded | some .failed | some .cancelled | some .timedOut => True

def AtEase (world : Watched) : Prop :=
  ∀ number, world.1.pods number ≠ none → Executed world.1.run.status number

def restartDiscipline (spec : RunSpec) : Discipline watchedOperator where
  mayChange _ _ := True
  mayStart _ := True
  mayServe world _ request reply :=
    (request.isStorageWrite ∨ reply = .ok) ∧ (request.findsLost world.1 → Unpolled world)
  mayCrash _ := False
  invariant := Tallied spec
  rely := Passing
  guarantee before after := Tallied spec after ∧ ResetsCount before after
  rest := AtEase

variable {world before after : Watched} {spec : RunSpec} {cluster written : Cluster}
  {log : RestartLog}

theorem Passing.resetsCount (passing : Passing before after) : ResetsCount before after := by
  intro last next isLast isNext rises
  rw [passing.status, isLast] at isNext
  cases isNext
  omega

theorem Passing.atEase (passing : Passing before after) (rest : AtEase before) : AtEase after := by
  intro number created
  rw [passing.status]
  exact rest number fun none => created ((passing.created number).mpr none)

theorem onServe_of_status {req} (plain : req ≠ .getRunProgress)
    (status : written.run.status = cluster.run.status) : log.onServe cluster req written = log := by
  simp [onServe, plain, restarts, status]

theorem onChange_asked {number pod} (found : cluster.pods number = some pod) :
    log.onChange cluster (cluster.setPod number { pod with asked := true }) = log := by
  have unfailed (other : Nat) : failsBetween cluster
      (cluster.setPod number { pod with asked := true })
    other = false := by
    by_cases same : other = number
    · subst same
      have unmoved : failsBetween cluster cluster other = false := failsBetween_of_eq rfl
      simp only [failsBetween, found, Option.any_some] at unmoved
      simp only [failsBetween, setPod, Function.update_self, found, Option.any_some]
      exact unmoved
    · refine failsBetween_of_eq ?_
      simp only [setPod, Function.update_of_ne same]
  simp [onChange, unfailed]

theorem tallied_asked {number pod} (tallied : Tallied spec (cluster, log))
    (found : cluster.pods number = some pod) :
    Passing (cluster, log) (cluster.setPod number { pod with asked := true }, log) ∧
      Tallied spec (cluster.setPod number { pod with asked := true }, log) := by
  have logged : Passing (cluster, log) (cluster.setPod number { pod with asked := true },
        log.onChange cluster (cluster.setPod number { pod with asked := true })) ∧
      Tallied spec (cluster.setPod number { pod with asked := true },
        log.onChange cluster (cluster.setPod number { pod with asked := true })) :=
    tallied_setPod tallied found rfl rfl rfl id (fun exited => ⟨exited, id⟩)
      (tallied.completed number pod found)
  rwa [onChange_asked found] at logged

def Request.isPlain (request : Request) : Bool :=
  request.isQuiet && request ≠ .getRunProgress

theorem tallied_serve {req reply} (plain : req.isPlain) (tallied : Tallied spec (cluster, log)) :
    Passing (cluster, log) ((cluster.serve req reply).1, log) ∧
      Tallied spec ((cluster.serve req reply).1, log) := by
  have same := And.intro (Passing.refl (cluster, log)) tallied
  cases req with
  | createPod | patchStatus | getRunProgress => simp [Request.isPlain, Request.isQuiet] at plain
  | now | getPod | fetchClSpec | cleanupStepJobs | getRunOutcome => cases reply <;> exact same
  | addFinalizer | removeFinalizer | updateRunStatus | requestCancellation =>
    cases reply with
    | ok => exact tallied_of_pods tallied rfl rfl rfl rfl subset_rfl
    | failed applied => cases applied <;> exact tallied_of_pods tallied rfl rfl rfl rfl subset_rfl
  | deletePod number =>
    simp only [serve, deletePod]
    split
    · rename_i pod isPod
      have found := (Option.filter_eq_some_iff.mp isPod).1
      have asked := tallied_asked tallied found
      cases reply with
      | ok => exact asked
      | failed applied =>
        cases applied
        · exact same
        · exact asked
    · cases reply <;> exact same

def Reads : (request : Request) → request.Answer → Watched → Prop
  | .getPod number, answer, after =>
      answer = .ok (after.1.podObject number) ∧ ((Request.getPod number).findsLost after.1 →
        Unpolled after)
  | .fetchClSpec, answer, _ => answer = .ok ()
  | .getRunOutcome, answer, after => answer = some after.1.outcome
  | _, _, _ => True

section Passes

variable {status : Option RunCrdStatus} {numbers : Nat → Prop} {seen : Run × Int} {Last : Type}
  {known : Watched → Prop}

theorem reads_serve {req reply}
    (may : (restartDiscipline spec).mayServe (cluster, log) seen req reply) :
    Reads req (cluster.serve req reply).2 ((cluster.serve req reply).1, log) := by
  obtain ⟨served, unpolled⟩ := may
  cases req with
  | getPod number =>
    obtain rfl : reply = .ok := served.resolve_left (by simp [Request.isStorageWrite])
    exact ⟨rfl, unpolled⟩
  | fetchClSpec =>
    obtain rfl : reply = .ok := served.resolve_left (by simp [Request.isStorageWrite])
    rfl
  | getRunOutcome =>
    obtain rfl : reply = .ok := served.resolve_left (by simp [Request.isStorageWrite])
    rfl
  | _ => trivial

theorem tallies_call {post req} {next : req.Answer → Call Last}
    (stable : (restartDiscipline spec).Stable known) (holds : known world) (plain : req.isPlain)
    (goesOn : ∀ answer after, known after → Tallied spec after → Reads req answer after →
      (restartDiscipline spec).Upholds seen post (next answer) after) :
    (restartDiscipline spec).Upholds seen post (ask req >>= next) world := by
  refine Discipline.Upholds.call
    (fun answer after => known after ∧ Tallied spec after ∧ Reads req answer after) stable holds ?_
    fun answer after told => goesOn answer after told.1 told.2.1 told.2.2
  rintro ⟨cluster, log⟩ reply knows tallied may
  have quiet : req.isQuiet ∧ req ≠ .getRunProgress := by simpa [Request.isPlain] using plain
  obtain ⟨passing, kept⟩ : Passing (cluster, log) ((cluster.serve req reply).1, log) ∧
      Tallied spec ((cluster.serve req reply).1, log) := tallied_serve plain tallied
  have unlogged : log.onServe cluster req (cluster.serve req reply).1 = log :=
    onServe_of_status quiet.2 passing.status
  have served : (watchedOperator.serve (cluster, log) req reply).1 =
      ((cluster.serve req reply).1, log) :=
    congrArg (Prod.mk (cluster.serve req reply).1) unlogged
  rw [served]
  exact ⟨⟨kept, passing.resetsCount⟩, stable _ _ passing knows, kept, reads_serve may⟩

theorem tallies_getRunProgress {post} {next : Option RunProgress → Call Last}
    (stable : (restartDiscipline spec).Stable known) (holds : known world)
    (goesOn : ∀ now : Watched, known now → Tallied spec now →
      (restartDiscipline spec).Upholds seen post (next (some (runProgress now.1.events)))
        (now.1, { now.2 with lastRead := now.1.steps })) :
    (restartDiscipline spec).Upholds seen post (ask .getRunProgress >>= next) world := by
  intro now others tallied reply may
  obtain rfl : reply = .ok := may.1.resolve_left (by simp [Request.isStorageWrite])
  refine ⟨⟨?_, ?_⟩, goesOn now (stable _ _ others holds) tallied⟩
  · refine ⟨tallied.isSpec, subset_rfl, tallied.counted, tallied.uncreated, tallied.lost,
      tallied.failed, tallied.completed, tallied.fresh, fun status isStatus => ?_⟩
    have tally := tallied.status status isStatus
    exact ⟨tally.inARow, tally.earlier, tally.starting, tally.recorded, tally.created, tally.read,
      tally.since, tally.exhausted⟩
  · intro last next isLast isNext rises
    cases isLast.symm.trans isNext
    omega

structure Created (status : Option RunCrdStatus) (numbers : Nat → Prop)
    (world : Watched) : Prop where
  status : world.1.run.status = status
  created : ∀ number, world.1.pods number ≠ none → numbers number

theorem created_stable : (restartDiscipline spec).Stable (Created status numbers) := by
  intro before after others knows
  have passing : Passing before after := others
  refine ⟨passing.status.trans knows.status,
    fun number created => knows.created number fun none => ?_⟩
  exact created ((passing.created number).mpr none)

theorem Created.atEase (knows : Created status numbers world)
    (executed : ∀ number, numbers number → Executed status number) :
    AtEase world := by
  intro number created
  rw [knows.status]
  exact executed number (knows.created number created)

theorem tallied_setStatus {current next} (tallied : Tallied spec world)
    (isCurrent : world.1.run.status = some current)
    (restarts : next.totalRestarts = current.totalRestarts)
    (count : next.restartsWithoutProgress = current.restartsWithoutProgress)
    (begun : next.phase ≠ none ∧ next.phase ≠ some .pending) (running : next.phase = some .running →
      next.executorPod = some next.totalRestarts ∧ world.1.pods next.totalRestarts ≠ none ∧
        next.completedSteps.getD 0 ≤ world.1.steps.card ∧
          ∀ steps, world.2.failedAt next.totalRestarts = some steps → world.2.counted ⊆ steps)
    (failed : next.phase = some .failed → world.1.outcome.isSome ∨
      spec.maxRestarts < next.restartsWithoutProgress) :
    Tallied spec (world.1.setStatus next, world.2) := by
  have tally := tallied.status current isCurrent
  refine ⟨tallied.isSpec, tallied.lastRead, tallied.counted, tallied.uncreated, tallied.lost,
    tallied.failed, tallied.completed, nofun, ?_⟩
  rintro _ ⟨⟩
  refine ⟨?_, ?_, ?_, fun phase => (running phase).1, fun phase => (running phase).2.1,
    fun phase => (running phase).2.2.1, fun phase => (running phase).2.2.2, failed⟩
  · rw [restarts, count]
    exact tally.inARow
  · rw [restarts]
    exact tally.earlier
  · rintro (phase | phase)
    · exact absurd phase begun.1
    · exact absurd phase begun.2

theorem tallies_patch {post next} {more : Except ApiError Unit → Call Last}
    (stable : (restartDiscipline spec).Stable known) (holds : known world)
    (uncounted : ∀ now, known now → next.totalRestarts ≤ now.1.restarts)
    (tallies : ∀ now, known now → Tallied spec now → Tallied spec (now.1.setStatus next, now.2))
    (later : ∀ now, known now → Tallied spec now →
      (restartDiscipline spec).Upholds seen post (more (.ok ())) (now.1.setStatus next, now.2)) :
    (restartDiscipline spec).Upholds seen post (ask (.patchStatus next) >>= more) world := by
  intro now others tallied reply may
  obtain rfl : reply = .ok := may.1.resolve_left (by simp [Request.isStorageWrite])
  have knows := stable _ _ others holds
  have unlogged : now.2.onServe now.1 (.patchStatus next) (now.1.setStatus next) = now.2 := by
    grind [restarts, setStatus, onServe]
  have served : (watchedOperator.serve now (.patchStatus next) .ok).1 =
      (now.1.setStatus next, now.2) :=
    congrArg (Prod.mk (now.1.setStatus next)) unlogged
  rw [served]
  refine ⟨⟨tallies now knows tallied, ?_⟩, later now knows tallied⟩
  rintro last _ isLast ⟨⟩ rises
  have := uncounted now knows
  simp only [restarts, isLast, Option.map_some, Option.getD_some] at this
  omega

structure Counting (current : RunCrdStatus) (limit completed : Nat) (world : Watched) : Prop where
  status : world.1.run.status = some current
  reading : world.2.lastRead.card = completed
  created : ∀ number, world.1.pods number ≠ none → number ≤ limit
  lost : ∃ pod, world.1.pods current.totalRestarts = some pod ∧ pod.lost
  failed : ∃ steps, world.2.failedAt current.totalRestarts = some steps ∧ world.2.counted ⊆ steps ∧
    steps ⊆ world.2.lastRead
  read : world.2.lastRead ⊆ world.1.steps
  unpolled : current.completedSteps.getD 0 ≤ world.2.counted.card ∨
    current.completedSteps.getD 0 < completed

theorem counting_stable {current limit completed} :
    (restartDiscipline spec).Stable (Counting current limit completed) := by
  intro before after others knows
  have passing : Passing before after := others
  obtain ⟨pod, found, lost⟩ := knows.lost
  obtain ⟨⟨next, isNext, _, stays⟩, same⟩ := passing.exited _ pod found (exited_of_lost lost)
  refine ⟨passing.status.trans knows.status, passing.lastRead.symm ▸ knows.reading, ?_,
    ⟨next, isNext, stays lost⟩, ?_, ?_, passing.counted.symm ▸ knows.unpolled⟩
  · intro number created
    exact knows.created number fun none => created ((passing.created number).mpr none)
  · rw [same, passing.counted, passing.lastRead]
    exact knows.failed
  · rw [passing.lastRead]
    exact knows.read.trans passing.steps

structure Counts (current next : RunCrdStatus) (completed : Nat) : Prop where
  restarts : next.totalRestarts = current.totalRestarts + 1
  count : next.restartsWithoutProgress =
    if current.completedSteps.getD 0 < completed then 0 else current.restartsWithoutProgress + 1

variable {current next : RunCrdStatus} {limit completed : Nat}

theorem Counting.unchanged (knows : Counting current limit completed world)
    (without : ¬current.completedSteps.getD 0 < completed) :
    world.2.lastRead = world.2.counted ∧ world.2.failedAt current.totalRestarts =
      some world.2.counted := by
  obtain ⟨steps, isFailed, above, below⟩ := knows.failed
  have polled := knows.unpolled.resolve_right without
  have same : world.2.counted = world.2.lastRead :=
    Finset.eq_of_subset_of_card_le (above.trans below) (by have := knows.reading; omega)
  grind

theorem Counting.inARow (knows : Counting current limit completed world)
    (tallied : Tallied spec world) (counts : Counts current next completed) (back : Nat)
    (within : back < next.restartsWithoutProgress) :
    back < next.totalRestarts ∧ world.2.failedAt (next.totalRestarts - 1 - back) =
      some world.2.lastRead := by
  rw [counts.count] at within
  split at within
  · omega
  · rename_i without
    obtain ⟨same, failed⟩ := knows.unchanged without
    rw [counts.restarts, same]
    cases back with
    | zero => exact ⟨by omega, failed⟩
    | succ back =>
      obtain ⟨early, isFailed⟩ := (tallied.status current knows.status).inARow back (by omega)
      grind

theorem Counting.reset (knows : Counting current limit completed world)
    (counts : Counts current next completed)
    (since : world.2.lastRead ≠ world.2.counted) : next.restartsWithoutProgress = 0 := by
  rw [counts.count, if_pos]
  by_contra without
  exact since (knows.unchanged without).1

theorem tallies_patch_counting {post} {more : Except ApiError Unit → Call Last}
    (stable : (restartDiscipline spec).Stable known) (holds : known world)
    (knows : ∀ now, known now → Counting current limit completed now)
    (counted : Counts current next completed)
    (begun : next.phase ≠ none ∧ next.phase ≠ some .pending)
    (running : ∀ now, known now → next.phase = some .running →
      next.executorPod = some next.totalRestarts ∧ now.1.pods next.totalRestarts ≠ none ∧
        next.completedSteps.getD 0 = completed ∧ ∀ steps, now.2.failedAt next.totalRestarts =
          some steps → now.2.lastRead ⊆ steps)
    (failed : ∀ now, known now → next.phase = some .failed →
      now.1.outcome.isSome ∨ spec.maxRestarts < next.restartsWithoutProgress)
    (later : ∀ now, known now → (restartDiscipline spec).Upholds seen post (more (.ok ()))
      (now.1.setStatus next, { now.2 with counted := now.2.lastRead })) :
    (restartDiscipline spec).Upholds seen post (ask (.patchStatus next) >>= more) world := by
  intro now others tallied reply may
  obtain rfl : reply = .ok := may.1.resolve_left (by simp [Request.isStorageWrite])
  have isKnown := stable _ _ others holds
  have counting := knows now isKnown
  have logged : now.2.onServe now.1 (.patchStatus next) (now.1.setStatus next) =
      { now.2 with counted := now.2.lastRead } := by
    have rises : now.1.restarts < (now.1.setStatus next).restarts := by
      simp [restarts, setStatus, counting.status, counted.restarts]
    simp [onServe, rises]
  have served : (watchedOperator.serve now (.patchStatus next) .ok).1 =
      (now.1.setStatus next, { now.2 with counted := now.2.lastRead }) :=
    congrArg (Prod.mk (now.1.setStatus next)) logged
  rw [served]
  refine ⟨⟨⟨tallied.isSpec, tallied.lastRead, tallied.lastRead, tallied.uncreated, tallied.lost,
    tallied.failed, tallied.completed, nofun, ?_⟩, ?_⟩, later now isKnown⟩
  · rintro _ ⟨⟩
    refine ⟨counting.inARow tallied counted, ?_, ?_, fun phase => (running now isKnown phase).1,
      fun phase => (running now isKnown phase).2.1,
      fun phase => ?_,
      fun phase => (running now isKnown phase).2.2.2, failed now isKnown⟩
    · intro number pod early found
      rw [counted.restarts] at early
      rcases Nat.lt_succ_iff_lt_or_eq.mp early with before | rfl
      · exact (tallied.status current counting.status).earlier number pod before found
      · obtain ⟨last, isLast, lost⟩ := counting.lost
        cases isLast.symm.trans found
        exact exited_of_lost lost
    · rintro (phase | phase)
      · exact absurd phase begun.1
      · exact absurd phase begun.2
    · rw [(running now isKnown phase).2.2.1, ← counting.reading]
      exact Finset.card_le_card counting.read
  · rintro last _ isLast ⟨⟩ _ since
    exact counting.reset counted since

theorem atEase_stable : (restartDiscipline spec).Stable AtEase :=
  fun _ _ others rest => Passing.atEase others rest

theorem tallies_syncRunStatusToStorage {phase : RunPhase} (rest : AtEase world) :
    (restartDiscipline spec).Upholds seen (fun _ => AtEase)
      (syncRunStatusToStorage phase) world := by
  unfold syncRunStatusToStorage
  split
  · exact rest
  · exact tallies_call atEase_stable rest rfl fun _ after rest _ _ => rest

theorem atEase_ended {phase} (isPhase : next.phase = some phase) (term : phase.isTerminal) :
    AtEase (world.1.setStatus next, log) := by grind [setStatus, Executed, isTerminal, AtEase]

theorem tallies_ended {phase} (isPhase : next.phase = some phase) (term : phase.isTerminal) :
    (restartDiscipline spec).Upholds seen (fun _ => AtEase)
      (match next.phase with
        | none => awaitChange
        | some phase => do
            syncRunStatusToStorage phase
            awaitChange)
      (world.1.setStatus next, log) := by
  rw [isPhase]
  refine Discipline.Upholds.bind
    ((tallies_syncRunStatusToStorage (atEase_ended isPhase term)).weaken ?_)
  exact fun _ _ rest => rest

theorem tallies_patch_ended {post} {more : Except ApiError Unit → Call Last}
    (stable : (restartDiscipline spec).Stable known) (holds : known world)
    (status : ∀ now, known now → now.1.run.status = some current) (phase : RunPhase)
    (isPhase : next.phase = some phase) (term : phase.isTerminal)
    (restarts : next.totalRestarts = current.totalRestarts)
    (count : next.restartsWithoutProgress = current.restartsWithoutProgress)
    (stored : ∀ now, known now → phase = .failed → now.1.outcome.isSome) (later : ∀ now, known now →
      (restartDiscipline spec).Upholds seen post (more (.ok ())) (now.1.setStatus next, now.2)) :
    (restartDiscipline spec).Upholds seen post (ask (.patchStatus next) >>= more) world := by
  refine tallies_patch stable holds ?_ ?_ fun now knows _ => later now knows
  · intro now knows
    simp [Cluster.restarts, status now knows, restarts]
  · intro now knows tallied
    refine tallied_setStatus tallied (status now knows) restarts count ?_ ?_ ?_
    · rw [isPhase]
      cases phase <;> simp [isTerminal] at term ⊢
    · rw [isPhase]
      rintro ⟨⟩
      simp [isTerminal] at term
    · rw [isPhase]
      rintro ⟨⟩
      exact .inl (stored now knows rfl)

theorem tallies_patchAndSync (stable : (restartDiscipline spec).Stable known) (holds : known world)
    (status : ∀ now, known now → now.1.run.status = some current) (phase : RunPhase)
    (isPhase : next.phase = some phase) (term : phase.isTerminal)
    (restarts : next.totalRestarts = current.totalRestarts)
    (count : next.restartsWithoutProgress = current.restartsWithoutProgress)
    (stored : ∀ now, known now → phase = .failed → now.1.outcome.isSome) :
    (restartDiscipline spec).Upholds seen (fun _ => AtEase) (patchAndSync next) world :=
  tallies_patch_ended stable holds status phase isPhase term restarts count stored
    fun _ _ => tallies_ended isPhase term

theorem tallies_deletePodIfExists {post number} (stable : (restartDiscipline spec).Stable known)
    (holds : known world) (ends : ∀ result after, known after → post result after) :
    (restartDiscipline spec).Upholds seen post (deletePodIfExists number) world := by
  refine tallies_call stable holds rfl fun answer after knows _ _ => ?_
  match answer with
  | .ok () | .error .notFound | .error .conflict | .error .other => exact ends _ after knows

theorem tallies_podExited {post recorded} (stable : (restartDiscipline spec).Stable known)
    (holds : known world) (ends : ∀ result after, known after → post result after) :
    (restartDiscipline spec).Upholds seen post (podExited recorded) world := by
  cases recorded with
  | none => exact ends _ world holds
  | some number =>
    refine tallies_call stable holds rfl fun answer after knows _ _ => ?_
    match answer with
    | .error error => exact ends _ after knows
    | .ok none => exact ends _ after knows
    | .ok (some state) => exact ends _ after knows

theorem tallies_deleteRecordedPod {post recorded} (stable : (restartDiscipline spec).Stable known)
    (holds : known world) (ends : ∀ result after, known after → post result after) :
    (restartDiscipline spec).Upholds seen post (deleteRecordedPod recorded) world := by
  cases recorded with
  | none => exact ends _ world holds
  | some number => exact tallies_deletePodIfExists stable holds ends

theorem tallied_create {number} (tallied : Tallied spec (cluster, log))
    (unused : cluster.pods number = none)
    (late : ∀ status, cluster.run.status = some status → status.totalRestarts ≤ number) :
    Tallied spec (cluster.setPod number {}, log) := by
  have elsewhere {other : Nat} (differs : other ≠ number) :
      (cluster.setPod number {}).pods other = cluster.pods other := by
    simp only [setPod, Function.update_of_ne differs]
  have old {other : Nat} {pod : ExecutorPod} (found : (cluster.setPod number {}).pods other =
    some pod) :
      other = number ∧ pod = {} ∨ cluster.pods other = some pod := by
    by_cases same : other = number
    · subst same
      simp only [setPod, Function.update_self, Option.some.injEq] at found
      exact .inl ⟨rfl, found.symm⟩
    · exact .inr ((elsewhere same).symm.trans found)
  refine ⟨tallied.isSpec, tallied.lastRead, tallied.counted, ?_, ?_, tallied.failed, ?_,
    tallied.fresh, ?_⟩
  · grind [Tallied]
  · intro other pod found lost
    rcases old found with ⟨rfl, rfl⟩ | wasFound
    · cases lost
    · exact tallied.lost other pod wasFound lost
  · intro other pod found completed
    rcases old found with ⟨rfl, rfl⟩ | wasFound
    · rcases completed with exiting | succ
      · cases exiting
      · cases succ
    · exact tallied.completed other pod wasFound completed
  · intro status isStatus
    have tally := tallied.status status isStatus
    refine ⟨tally.inARow, ?_, tally.starting, tally.recorded, ?_, tally.read, tally.since,
      tally.exhausted⟩
    · grind [setPod, RunCrdStatus.Tallied]
    · grind [RunCrdStatus.Tallied]

theorem tallies_createExecutorPod {number resume} {more : Reconcile}
    (stable : (restartDiscipline spec).Stable known) (holds : known world)
    (unused : ∀ now, known now → now.1.pods number = none)
    (late : ∀ now, known now → ∀ status, now.1.run.status = some status →
      status.totalRestarts ≤ number)
    (later : ∀ now, known now → Tallied spec now →
      (restartDiscipline spec).Upholds seen (fun _ => AtEase) more
      (now.1.setPod number {}, now.2)) :
    (restartDiscipline spec).Upholds seen (fun _ => AtEase)
      (createExecutorPod number resume more) world := by
  refine tallies_call stable holds rfl fun answer after knows _ served => ?_
  cases served
  intro now others tallied reply may
  obtain rfl : reply = .ok := may.1.resolve_left (by simp [Request.isStorageWrite])
  have isKnown := stable _ _ others knows
  have none := unused now isKnown
  have created : now.1.serve (.createPod number resume) .ok = (now.1.setPod number {}, .ok ()) := by
    simp [serve, createPod, podObject, none, write]
  have unlogged : now.2.onServe now.1 (.createPod number resume) (now.1.setPod number {}) = now.2 :=
    onServe_of_status (by simp) rfl
  have served : watchedOperator.serve now (.createPod number resume) .ok =
      ((now.1.setPod number {}, now.2), .ok ()) := by
    simp only [watchedOperator, System.observed, operator, created, unlogged]
  rw [served]
  refine ⟨⟨tallied_create tallied none (late now isKnown), ?_⟩, later now isKnown tallied⟩
  intro last next isLast isNext rises
  cases isLast.symm.trans isNext
  omega

section Phases

structure Stored (current : RunCrdStatus) (world : Watched) : Prop where
  status : world.1.run.status = some current
  outcome : world.1.outcome.isSome

theorem stored_stable : (restartDiscipline spec).Stable (Stored current) := by
  intro before after others knows
  have passing : Passing before after := others
  exact ⟨passing.status.trans knows.status, passing.outcome knows.outcome⟩

theorem tallies_honorOutcome {out : RunOutcome} (knows : Stored current world) :
    (restartDiscipline spec).Upholds seen (fun _ => AtEase) (honorOutcome current out) world := by
  refine tallies_call stored_stable knows rfl fun now after knows _ _ => ?_
  exact tallies_patchAndSync stored_stable knows (fun _ knows => knows.status) out.phase
    applyOutcomeToStatus_phase out.isTerminal_phase (by simp) (by simp) fun _ knows _ =>
      knows.outcome

structure Restarting (current : RunCrdStatus) (completed : Nat) (world : Watched) : Prop
    extends Counting current (current.totalRestarts + 1) completed world where
  there : world.1.pods (current.totalRestarts + 1) ≠ none
  since : ∀ steps, world.2.failedAt (current.totalRestarts + 1) = some steps →
    world.2.lastRead ⊆ steps

theorem restarting_stable : (restartDiscipline spec).Stable (Restarting current completed) := by
  intro before after others knows
  have passing : Passing before after := others
  have counting : Counting current (current.totalRestarts + 1) completed after :=
    counting_stable before after others knows.toCounting
  refine ⟨counting, fun none => knows.there ((passing.created _).mp none), ?_⟩
  intro steps isFailed
  rw [passing.lastRead]
  rcases passing.failed _ steps isFailed with earlier | later
  · exact knows.since steps earlier
  · exact knows.read.trans later

theorem tallies_restartExecutor (knows : Counting current current.totalRestarts completed world)
    (phase : next.phase = some .running) (counts : Counts current next completed)
    (steps : next.completedSteps = some completed) :
    (restartDiscipline spec).Upholds seen (fun _ => AtEase)
      (restartExecutor spec current.executorPod next)
      world := by
  refine Discipline.Upholds.bind (tallies_deleteRecordedPod counting_stable knows
    fun _ after knows => ?_)
  rw [counts.restarts]
  refine tallies_createExecutorPod counting_stable knows ?_ ?_ fun now knows tallied => ?_
  · intro now knows
    by_contra created
    have := knows.created _ created
    omega
  · intro now knows status isStatus
    cases knows.status.symm.trans isStatus
    omega
  · have unused : now.1.pods (current.totalRestarts + 1) = none := by
      by_contra created
      have := knows.created _ created
      omega
    have restarting : Restarting current completed (now.1.setPod (current.totalRestarts + 1) {},
      now.2) := by
      refine ⟨⟨knows.status, knows.reading, ?_, ?_, knows.failed, knows.read, knows.unpolled⟩, ?_,
        ?_⟩
      · intro number created
        by_cases same : number = current.totalRestarts + 1
        · omega
        · simp only [setPod, Function.update_of_ne same] at created
          have := knows.created number created
          omega
      · obtain ⟨pod, found, lost⟩ := knows.lost
        refine ⟨pod, ?_, lost⟩
        simp only [setPod, Function.update_of_ne
          (show current.totalRestarts ≠ current.totalRestarts + 1 by omega)]
        exact found
      · simp [setPod]
      grind [Tallied.uncreated]
    refine tallies_call restarting_stable restarting rfl fun now after knows _ _ => ?_
    refine tallies_patch_counting restarting_stable knows (fun _ knows => knows.toCounting) ⟨?_,
      ?_⟩ ?_ ?_ ?_
      fun now knows => ?_
    · simp
    · simpa using counts.count
    · simp [phase]
    · grind [Restarting, pushCondition]
    · intro now knows failed
      simp [phase] at failed
    · intro number created
      have := knows.created number created
      simpa [Executed, setStatus, phase, counts.restarts] using this

structure Lost (current : RunCrdStatus) (world : Watched) : Prop where
  status : world.1.run.status = some current
  created : ∀ number, world.1.pods number ≠ none → number ≤ current.totalRestarts
  lost : ∃ pod, world.1.pods current.totalRestarts = some pod ∧ pod.lost
  unpolled : current.completedSteps.getD 0 ≤ world.2.counted.card ∨
    current.completedSteps.getD 0 < world.1.steps.card

theorem lost_stable : (restartDiscipline spec).Stable (Lost current) := by
  intro before after others knows
  have passing : Passing before after := others
  obtain ⟨pod, found, lost⟩ := knows.lost
  obtain ⟨⟨next, isNext, _, stays⟩, _⟩ := passing.exited _ pod found (exited_of_lost lost)
  refine ⟨passing.status.trans knows.status, ?_, ⟨next, isNext, stays lost⟩, ?_⟩
  · intro number created
    exact knows.created number fun none => created ((passing.created number).mpr none)
  · rw [passing.counted]
    exact knows.unpolled.imp_right fun progress => progress.trans_le
      (Finset.card_le_card passing.steps)

structure Judged (current : RunCrdStatus) (world : Watched) : Prop extends Lost current world where
  failed : (world.2.failedAt current.totalRestarts).isSome

theorem judged_stable : (restartDiscipline spec).Stable (Judged current) := by
  intro before after others knows
  have passing : Passing before after := others
  obtain ⟨pod, found, lost⟩ := knows.lost
  have same := (passing.exited _ pod found (exited_of_lost lost)).2
  have stays : Lost current after := lost_stable before after others knows.toLost
  exact ⟨stays, same.symm ▸ knows.failed⟩

theorem tallies_exhausted {read moment} (knows : Counting current limit completed world)
    (counts : Counts current next completed)
    (exhausted : spec.maxRestarts < next.restartsWithoutProgress) :
    (restartDiscipline spec).Upholds seen (fun _ => AtEase)
      (patchAndSync (exhaustedStatus spec { next with completedAt := moment } read)) world := by
  obtain ⟨phase, isPhase, term⟩ := exhaustedStatus_phase spec { next with completedAt := moment }
    read
  refine tallies_patch_counting counting_stable knows (fun _ knows => knows) ⟨?_, ?_⟩ ?_ ?_ ?_
    fun _ _ => tallies_ended isPhase term
  · simpa using counts.restarts
  · simpa using counts.count
  · rw [isPhase]
    cases phase <;> simp [isTerminal] at term ⊢
  · rw [isPhase]
    rintro _ _ ⟨⟩
    simp [isTerminal] at term
  · intro _ _ _
    exact .inr (by simpa using exhausted)

theorem tallies_handleExecutorFailure (running : current.phase = some .running)
    (knows : Lost current world) :
    (restartDiscipline spec).Upholds seen (fun _ => AtEase)
      (handleExecutorFailure spec current) world := by
  refine tallies_call lost_stable knows rfl fun answer after knows tallied read => ?_
  cases read
  cases out : after.1.outcome with
  | some out => exact tallies_honorOutcome ⟨knows.status, by simp [*]⟩
  | none =>
    obtain ⟨pod, found, lost⟩ := knows.lost
    have failed := (tallied.lost _ pod found lost).resolve_right (by simp [out])
    refine tallies_getRunProgress judged_stable ⟨knows, failed⟩ fun now knows tallied => ?_
    obtain ⟨steps, isFailed⟩ := Option.isSome_iff_exists.mp knows.failed
    have counting : Counting current current.totalRestarts now.1.steps.card
        (now.1, { now.2 with lastRead := now.1.steps }) :=
      ⟨knows.status, rfl, knows.created, knows.lost,
        ⟨steps, isFailed, (tallied.status current knows.status).since running steps isFailed,
          tallied.failed _ steps isFailed⟩, subset_rfl, knows.unpolled⟩
    refine tallies_call counting_stable counting rfl fun moment after counting _ _ => ?_
    have counts : Counts current (countRestart current (some (runProgress now.1.events)) moment)
        now.1.steps.card :=
      ⟨countRestart_totalRestarts, countRestart_restartsWithoutProgress⟩
    dsimp only
    split
    · rename_i exhausted
      refine tallies_call counting_stable counting rfl fun later after counting _ _ => ?_
      refine tallies_call counting_stable counting rfl fun answer after counting _ _ => ?_
      exact tallies_exhausted counting counts exhausted
    · exact tallies_restartExecutor counting (by simp [running]) counts countRestart_completedSteps

theorem tallies_completeRun (knows : Created (some current) numbers world) :
    (restartDiscipline spec).Upholds seen (fun _ => AtEase) (completeRun current) world := by
  refine tallies_call created_stable knows rfl fun now after knows _ _ => ?_
  refine tallies_call created_stable knows rfl fun answer after knows _ read => ?_
  cases read
  cases isOutcome : after.1.outcome with
  | none =>
    refine tallies_patchAndSync created_stable knows (fun _ knows => knows.status) .succeeded rfl
      rfl rfl rfl ?_
    intro _ _ failed
    cases failed
  | some out =>
    have stored : Stored current after := ⟨knows.status, by simp [isOutcome]⟩
    exact tallies_patch_ended stored_stable stored (fun _ knows => knows.status) out.phase
      applyOutcomeToStatus_phase out.isTerminal_phase (by simp) (by simp)
        (fun _ knows _ => knows.outcome)
      fun _ _ => atEase_ended applyOutcomeToStatus_phase out.isTerminal_phase

theorem tallies_updateProgress {post} (running : current.phase = some .running)
    (knows : Created (some current) (· ≤ current.totalRestarts) world)
    (ends : ∀ after, AtEase after → post () after) :
    (restartDiscipline spec).Upholds seen post (updateProgress current) world := by
  have resting {after : Watched} (knows : Created (some current) (· ≤ current.totalRestarts)
    after) : AtEase after :=
    knows.atEase fun number within => by simpa [Executed, running] using within
  refine tallies_getRunProgress created_stable knows fun now knows _ => ?_
  have read : Created (some current) (· ≤ current.totalRestarts)
      (now.1, { now.2 with lastRead := now.1.steps }) :=
    ⟨knows.status, knows.created⟩
  dsimp only
  split
  · exact ends _ (resting read)
  · have stable : (restartDiscipline spec).Stable fun world =>
        Created (some current) (· ≤ current.totalRestarts) world ∧ world.2.lastRead.card =
          now.1.steps.card := by
      rintro before after others ⟨knows, reading⟩
      have passing : Passing before after := others
      exact ⟨created_stable before after others knows, passing.lastRead.symm ▸ reading⟩
    refine tallies_call stable ⟨read, rfl⟩ rfl fun moment after knows _ _ => ?_
    refine tallies_patch stable knows ?_ ?_ ?_
    · rintro now ⟨knows, _⟩
      simp [restarts, knows.status]
    · rintro later ⟨knows, reading⟩ tallied
      have tally := tallied.status current knows.status
      refine tallied_setStatus tallied knows.status (by simp) (by simp) (by simp [running]) ?_ ?_
      · intro _
        refine ⟨?_, ?_, ?_, ?_⟩
        · simpa using tally.recorded running
        · simpa using tally.created running
        · change now.1.steps.card ≤ later.1.steps.card
          rw [← reading]
          exact Finset.card_le_card tallied.lastRead
        · simpa using tally.since running
      · simp [running]
    · rintro later ⟨knows, _⟩ _
      refine ends _ fun number created => ?_
      have := knows.created number created
      simpa [Executed, setStatus, running] using this

theorem tallies_startCancelling (knows : Created (some current) numbers world) :
    (restartDiscipline spec).Upholds seen (fun _ => AtEase) (startCancelling current) world := by
  refine tallies_call created_stable knows rfl fun _ after knows _ _ => ?_
  refine tallies_call created_stable knows rfl fun _ after knows _ _ => ?_
  refine tallies_call created_stable knows rfl fun now after knows _ _ => ?_
  refine tallies_patch created_stable knows ?_ ?_ ?_
  · intro now knows
    simp [restarts, knows.status]
  · intro now knows tallied
    exact tallied_setStatus tallied knows.status (by simp) (by simp) (by simp) (by simp) (by simp)
  · intro now knows _ number _
    simp [Executed, setStatus]

theorem tallies_finalize {next : Option RunProgress → RunCrdStatus} (phase : RunPhase)
    (term : phase.isTerminal) (unfailed : phase ≠ .failed)
    (knows : Created (some current) numbers world)
    (isPhase : ∀ progress, (next progress).phase = some phase)
    (restarts : ∀ progress, (next progress).totalRestarts = current.totalRestarts)
    (count : ∀ progress, (next progress).restartsWithoutProgress =
      current.restartsWithoutProgress) :
    (restartDiscipline spec).Upholds seen (fun _ => AtEase) (do
      let progress ← ask .getRunProgress
      patchAndSync (next progress)) world := by
  refine tallies_getRunProgress created_stable knows fun now knows _ => ?_
  have read : Created (some current) numbers (now.1, { now.2 with lastRead := now.1.steps }) :=
    ⟨knows.status, knows.created⟩
  exact tallies_patchAndSync created_stable read (fun _ knows => knows.status) phase (isPhase _)
    term (restarts _)
    (count _) fun _ _ failed => absurd failed unfailed

theorem tallies_transitionToTimedOut (running : current.phase = some .running)
    (knows : Created (some current) (· ≤ current.totalRestarts) world) :
    (restartDiscipline spec).Upholds seen (fun _ => AtEase)
      (transitionToTimedOut spec current) world := by
  refine tallies_call created_stable knows rfl fun _ after knows _ _ => ?_
  refine Discipline.Upholds.bind (tallies_deleteRecordedPod created_stable knows
    fun result after knows => ?_)
  cases result with
  | error error => exact knows.atEase fun number within => by simpa [Executed, running] using within
  | ok existed =>
    refine tallies_call created_stable knows rfl fun _ after knows _ _ => ?_
    refine tallies_call created_stable knows rfl fun now after knows _ _ => ?_
    exact tallies_finalize .timedOut rfl nofun knows (by simp) (by simp) (by simp)

theorem tallies_finalizeCancelled {message : Option String}
    (knows : Created (some current) numbers world) :
    (restartDiscipline spec).Upholds seen (fun _ => AtEase) (do
      let _ ← ask .cleanupStepJobs
      finalizeCancelled current message) world := by
  refine tallies_call created_stable knows rfl fun _ after knows _ _ => ?_
  refine tallies_call created_stable knows rfl fun now after knows _ _ => ?_
  exact tallies_finalize .cancelled rfl nofun knows (by simp) (by simp) (by simp)

theorem tallies_reconcileCancelling {now} (cancelling : current.phase = some .cancelling)
    (knows : Created (some current) numbers world) :
    (restartDiscipline spec).Upholds seen (fun _ => AtEase)
      (reconcileCancelling spec current now) world := by
  have resting {after : Watched} (knows : Created (some current) numbers after) : AtEase after :=
    knows.atEase fun number _ => by simp [Executed, cancelling]
  unfold reconcileCancelling
  refine Discipline.Upholds.bind (tallies_podExited created_stable knows fun result after knows =>
    ?_)
  match result with
  | .error error => exact resting knows
  | .ok true => exact tallies_finalizeCancelled knows
  | .ok false =>
    dsimp only
    split
    · refine Discipline.Upholds.bind (tallies_deletePodIfExists created_stable knows
        fun result after knows => ?_)
      cases result with
      | error error => exact resting knows
      | ok existed => exact tallies_finalizeCancelled knows
    · exact resting knows

theorem tallies_reconcileRunning {run now} (isSpec : run.spec = spec)
    (running : current.phase = some .running)
    (recorded : current.executorPod = some current.totalRestarts)
    (knows : Created (some current) (· ≤ current.totalRestarts) world) :
    (restartDiscipline spec).Upholds seen (fun _ => AtEase)
      (reconcileRunning run current now) world := by
  have resting {after : Watched} (knows : Created (some current) (· ≤ current.totalRestarts)
    after) : AtEase after :=
    knows.atEase fun number within => by simpa [Executed, running] using within
  subst isSpec
  unfold reconcileRunning
  split
  · exact tallies_startCancelling knows
  split
  · exact tallies_transitionToTimedOut running knows
  rw [recorded]
  refine tallies_call created_stable knows rfl fun answer after knows tallied ⟨isObject,
    unpolled⟩ => ?_
  cases isObject
  have tally := tallied.status current knows.status
  have phase : after.1.phase = some .running := by rw [phase, knows.status]; exact running
  rw [show (some current.totalRestarts).getD 0 = current.totalRestarts from rfl] at unpolled ⊢
  have lost (gone : after.1.podObject current.totalRestarts = none ∨
      after.1.podObject current.totalRestarts = some .failed) : Lost current after := by
    refine ⟨knows.status, knows.created, ?_, ?_⟩
    · obtain ⟨pod, found⟩ := Option.ne_none_iff_exists'.mp (tally.created running)
      simp only [podObject, found, Option.bind_some] at gone
      refine ⟨pod, found, ?_⟩
      rcases gone with gone | gone <;> simp [lost, gone]
    · rcases unpolled (by simp [Request.findsLost, phase, gone]) current
        knows.status with same | progress
      · left
        rw [same]
        exact tally.read running
      · exact .inr progress
  cases object : after.1.podObject current.totalRestarts with
  | none => exact tallies_handleExecutorFailure running (lost (.inl object))
  | some podPhase =>
    cases podPhase with
    | failed => exact tallies_handleExecutorFailure running (lost (.inr object))
    | succeeded => exact tallies_completeRun knows
    | running =>
      exact Discipline.Upholds.bind (tallies_updateProgress running knows fun _ rest => rest)
    | pending | unknown => exact resting knows

end Phases

theorem tallies_reconcileInit (knows : Created status (fun _ => False) world)
    (fresh : world.2.counted = ∅) :
    (restartDiscipline spec).Upholds seen (fun _ => AtEase) reconcileInit world := by
  have stable : (restartDiscipline spec).Stable fun world =>
      Created status (fun _ => False) world ∧ world.2.counted = ∅ := by
    rintro before after others ⟨knows, fresh⟩
    have passing : Passing before after := others
    exact ⟨created_stable before after others knows, passing.counted.trans fresh⟩
  refine tallies_call stable ⟨knows, fresh⟩ rfl fun now after knows _ _ => ?_
  refine tallies_patch stable knows (fun _ _ => Nat.zero_le _) ?_ ?_
  · rintro now ⟨knows, fresh⟩ tallied
    refine ⟨tallied.isSpec, tallied.lastRead, tallied.counted, tallied.uncreated, tallied.lost,
      tallied.failed, tallied.completed, nofun, ?_⟩
    rintro _ ⟨⟩
    exact ⟨nofun, nofun, fun _ => ⟨rfl, rfl, rfl, fresh⟩, nofun, nofun, nofun, nofun, nofun⟩
  · rintro now ⟨knows, _⟩ _ number created
    exact (knows.created number created).elim

theorem tallies_reconcilePending {current : RunCrdStatus} (pending : current.phase = some .pending)
    (tally : current.totalRestarts = 0 ∧ current.restartsWithoutProgress = 0 ∧
      current.completedSteps = none)
    (knows : Created (some current) (fun _ => False) world) :
    (restartDiscipline spec).Upholds seen (fun _ => AtEase) (reconcilePending current) world := by
  have stable : (restartDiscipline spec).Stable fun world =>
      Created (some current) (· = 0) world ∧ world.1.pods 0 ≠ none := by
    rintro before after others ⟨knows, there⟩
    have passing : Passing before after := others
    exact ⟨created_stable before after others knows,
      fun none => there ((passing.created 0).mp none)⟩
  refine tallies_createExecutorPod created_stable knows ?_ ?_ fun now knows _ => ?_
  · intro now knows
    by_contra created
    exact knows.created 0 created
  · intro now knows status isStatus
    cases knows.status.symm.trans isStatus
    omega
  · have created : Created (some current) (· = 0) (now.1.setPod 0 {}, now.2) ∧
        (now.1.setPod 0 {}, now.2).1.pods 0 ≠ none := by
      refine ⟨⟨knows.status, ?_⟩, by simp [setPod]⟩
      intro number there
      by_contra differs
      simp only [setPod, Function.update_of_ne differs] at there
      exact knows.created number there
    refine tallies_call stable created rfl fun moment after knows _ _ => ?_
    refine tallies_patch stable knows ?_ ?_ ?_
    · rintro now ⟨knows, _⟩
      simp [restarts, knows.status]
    · rintro now ⟨knows, there⟩ tallied
      refine tallied_setStatus tallied knows.status (by simp) (by simp) (by simp) ?_ (by simp)
      intro _
      have fresh := ((tallied.status current knows.status).starting (.inr pending)).2.2.2
      grind [pushCondition_executorPod, pushCondition_totalRestarts, pushCondition_completedSteps]
    · rintro now ⟨knows, _⟩ _ number created
      have := knows.created number created
      simp [Executed, setStatus, this]

theorem tallies_handleDeletion {run : Run} (rest : AtEase world) :
    (restartDiscipline spec).Upholds seen (fun _ => AtEase) (handleDeletion run) world := by
  have removes {world : Watched} (rest : AtEase world) :
      (restartDiscipline spec).Upholds seen (fun _ => AtEase) removeFinalizer world := by
    refine tallies_call atEase_stable rest rfl fun answer after rest _ _ => ?_
    cases answer <;> exact rest
  have signals (status : RunCrdStatus) :
      (restartDiscipline spec).Upholds seen (fun _ => AtEase) (signalDeletion status) world := by
    unfold signalDeletion
    split
    · exact rest
    · exact tallies_call atEase_stable rest rfl fun _ after rest _ _ =>
        tallies_syncRunStatusToStorage rest
  unfold handleDeletion
  split
  · exact rest
  split
  · exact removes rest
  · rename_i status _
    refine Discipline.Upholds.bind ((signals status).weaken fun _ after rest => ?_)
    refine Discipline.Upholds.bind (tallies_deleteRecordedPod atEase_stable rest
      fun result after rest => ?_)
    cases result with
    | error error => exact rest
    | ok existed => exact tallies_call atEase_stable rest rfl fun _ after rest _ _ => removes rest

theorem tallies_reconcile (tallied : Tallied spec world) (rest : AtEase world) :
    (restartDiscipline spec).Upholds (world.1.run, world.1.clock) (fun _ => AtEase)
      (reconcile world.1.run world.1.clock) world := by
  unfold reconcile
  split
  · exact tallies_handleDeletion rest
  split
  · refine tallies_call atEase_stable rest rfl fun answer after rest _ _ => ?_
    cases answer <;> exact rest
  cases isStatus : world.1.run.status with
  | none =>
    refine tallies_reconcileInit ⟨isStatus, fun number created => ?_⟩ (tallied.fresh isStatus)
    simpa [Executed, isStatus] using rest number created
  | some current =>
    have tally := tallied.status current isStatus
    have knows {numbers : Nat → Prop} (only : ∀ number, Executed (some current) number →
      numbers number) :
        Created (some current) numbers world :=
      ⟨isStatus, fun number created => only number (isStatus ▸ rest number created)⟩
    dsimp only
    split
    · rename_i unset
      exact tallies_reconcileInit
        (knows fun number executed => by simp [Executed, unset] at executed)
        (tally.starting (.inl unset)).2.2.2
    · grind [tallies_reconcilePending, Executed, RunCrdStatus.Tallied]
    · grind [tallies_reconcileRunning, Executed, Tallied, RunCrdStatus.Tallied]
    · rename_i cancelling
      rw [tallied.isSpec]
      exact tallies_reconcileCancelling cancelling (knows fun _ _ => trivial)
    all_goals exact rest

theorem restartDiscipline_sound : (restartDiscipline spec).Sound where
  refl := Passing.refl
  trans early late := early.trans late
  changes changed _ tallied := by
    simp only [watchedOperator, System.observed, Option.map_eq_some_iff] at changed
    obtain ⟨moved, changed, rfl⟩ := changed
    obtain ⟨passing, kept⟩ := tallied_change tallied changed
    exact ⟨passing, kept, passing.atEase⟩
  calls guaranteed _ := guaranteed.1
  starts read _ tallied rest := by
    simp only [watchedOperator, System.observed, operator, Option.ite_none_left_eq_some,
      Option.some.injEq] at read
    obtain ⟨_, rfl⟩ := read
    exact tallies_reconcile tallied rest
  crashes none _ := none.elim

end Passes

def Unhidden (state : WatchedState) : OperatorAction → Prop
  | .change _ | .start => True
  | .call reply =>
      match state.underWay with
      | some (_, .call request _) =>
          (request.isStorageWrite ∨ reply = .ok) ∧
          (request.findsLost state.world.1 → Unpolled state.world)
      | _ => True
  | .crash => False

instance (state : WatchedState) : (action : OperatorAction) → Decidable (Unhidden state action)
  | .change _ | .start => .isTrue trivial
  | .call _ => by
      unfold Unhidden
      dsimp only
      split <;> infer_instance
  | .crash => .isFalse id

theorem Unhidden.permits {state action} (unhidden : Unhidden state action) :
    (restartDiscipline spec).Permits state action := by
  cases action with
  | change change => trivial
  | start => trivial
  | call reply =>
    simp only [Discipline.Permits]
    split
    · rename_i seen req next underWay
      simp only [Unhidden, underWay] at unhidden
      exact unhidden
    · trivial
  | crash => exact unhidden

/-- Where no poll hides a completed step, only failures in a row exhaust the restarts. -/
theorem restarts_exhausted_in_a_row (spec : RunSpec) {actions : List OperatorAction}
    {final : WatchedState}
    (performed : perform watchedOperator.step (newWatchedRun spec) actions = some final)
    (unhidden : Stepwise watchedOperator.step (fun state action _ => Unhidden state action)
      (newWatchedRun spec)
      actions) :
    Stepwise watchedOperator.step (fun state _ next => ResetsCount state.world next.world)
      (newWatchedRun spec)
        actions ∧
      ∀ status, final.world.1.run.status = some status → status.phase = some .failed →
        final.world.1.outcome = none ∨ spec.maxRestarts < status.restartsWithoutProgress →
          ∃ steps, ∀ back ≤ spec.maxRestarts, back < status.totalRestarts ∧
            final.world.2.failedAt (status.totalRestarts - 1 - back) = some steps := by
  have permitted : Stepwise watchedOperator.step (fun state action _ => (restartDiscipline spec).Permits state action)
      (newWatchedRun spec) actions := unhidden.mono Unhidden.permits
  have start : (restartDiscipline spec).Holds (newWatchedRun spec) := by
    refine ⟨⟨rfl, subset_rfl, ?_, fun _ _ => rfl, ?_, ?_, ?_, fun _ => rfl, ?_⟩, ?_⟩
    · exact Finset.empty_subset _
    · rintro _ _ ⟨⟩
    · rintro _ _ ⟨⟩
    · rintro _ _ ⟨⟩
    · rintro _ ⟨⟩
    · intro number created
      exact created rfl
  refine ⟨(restartDiscipline_sound.stepwise permitted start).mono ?_, ?_⟩
  · rintro state action next (relied | guaranteed)
    · exact Passing.resetsCount relied
    · exact guaranteed.2
  · intro status isStatus failed exhausted
    have tally := (restartDiscipline_sound.perform permitted performed start).1.status status isStatus
    have isOver : spec.maxRestarts < status.restartsWithoutProgress := by
      rcases exhausted with unset | isOver
      · exact (tally.exhausted failed).resolve_left (by simp [unset])
      · exact isOver
    exact ⟨_, fun back within => tally.inARow back (by omega)⟩

def diesActions (number : Nat) : List OperatorAction :=
  [.change (.podState number .running), .change (.die number)]

def exhaustedPass : List OperatorAction :=
  .start :: List.replicate 8 (.call .ok)

def completesStep (step : String) : OperatorAction :=
  .change (.event { eventType := .stepSuccess, assetKey := step })

def exhaustedHistory : List OperatorAction :=
  startedActions ++ [.change (.die 0)] ++ resumedRestart ++
    [.change (.podState 1 .running), completesStep "orders", .change (.die 1)] ++ resumedRestart ++
    diesActions 2 ++ resumedRestart ++ diesActions 3 ++ exhaustedPass

def polledHistory : List OperatorAction :=
  startedActions ++ [.change (.die 0)] ++ resumedRestart ++
    [.change (.podState 1 .running), completesStep "orders", .start, .call .ok, .call .ok,
      .call .ok, .call .ok, .change (.die 1)] ++ exhaustedPass

/-- How a history ends: the phase, the restarts, those without progress, and the steps at which the
executors failed. -/
structure RestartEnding where
  phase : Option RunPhase
  totalRestarts : Nat
  restartsWithoutProgress : Nat
  failedAt : List (Option (Finset String))
  deriving DecidableEq

def restartEnding (spec : RunSpec) (actions : List OperatorAction) : Option RestartEnding := do
  let final ← perform watchedOperator.step (newWatchedRun spec) actions
  let status ← final.world.1.run.status
  pure ⟨status.phase, status.totalRestarts, status.restartsWithoutProgress,
    (List.range status.totalRestarts).map final.world.2.failedAt⟩

theorem restarts_exhausted_after_reset :
    ∃ final status, perform watchedOperator.step (newWatchedRun ⟨none, 1, 30⟩) exhaustedHistory =
      some final ∧
      final.world.1.run.status = some status ∧ status.phase = some .failed ∧
      status.totalRestarts = 4 ∧
      ∃ steps, ∀ back ≤ 1, back < 4 ∧ final.world.2.failedAt (4 - 1 - back) = some steps := by
  have ended : restartEnding ⟨none, 1, 30⟩ exhaustedHistory =
      some ⟨some .failed, 4, 2, [some ∅, some {"orders"}, some {"orders"}, some {"orders"}]⟩ := by
    decide +kernel
  simp only [restartEnding, Option.bind_eq_bind, Option.bind_eq_some_iff, Option.pure_def,
    Option.some.injEq, RestartEnding.mk.injEq] at ended
  obtain ⟨final, performed, status, isStatus, phase, restarts, count, _⟩ := ended
  refine ⟨final, status, performed, isStatus, phase, restarts, ?_⟩
  rw [← restarts]
  exact (restarts_exhausted_in_a_row _ performed (by decide +kernel)).2 status isStatus phase
    (.inr (by simp [count]))

theorem restarts_exhausted_after_step :
    restartEnding ⟨none, 1, 30⟩ polledHistory = some ⟨some .failed, 2, 2,
      [some ∅, some {"orders"}]⟩ := by
  decide +kernel

end Rivers

import Rivers.Backfill.Settlement

/-! The outcomes that `try_complete_backfill` settles. -/

namespace Rivers

open PartitionKey

def HasOutcome (rows : OutcomeRows) (member : PartitionKey) (outcome : BackfillOutcome) : Prop :=
  ∃ key, (key, outcome) ∈ rows ∧ member ∈ key.members

def StoredRun.Ran (run : StoredRun) (member : PartitionKey) : Prop :=
  ∃ key, run.partitionKey = some key ∧ member ∈ key.members

namespace BackfillStore

variable (store : BackfillStore)

def linkedRuns : List StoredRun :=
  store.getRunsByIds store.backfill.runIds

def RunsSettle (member : PartitionKey) (outcome : BackfillOutcome) : Prop :=
  ∃ run ∈ store.linkedRuns, run.Ran member ∧ run.outcomeOf store.stepFailures member = some outcome

def DisjointRuns : Prop :=
  store.linkedRuns.Pairwise fun run other => ∀ member, ¬(run.Ran member ∧ other.Ran member)

variable (extraCanceled : List PartitionKey) (now : Int)

def Leaves (member : PartitionKey) (outcome : BackfillOutcome) : Prop :=
  HasOutcome (store.tryCompleteBackfill extraCanceled now).1.backfill.outcomes member outcome

structure SettlesExactly : Prop where
  only : (store.tryCompleteBackfill extraCanceled now).2 ≠ none → store.backfill.status =
    .inProgress ∧
    (∀ run ∈ store.linkedRuns, run.status.isTerminal = true) ∧
    ∀ key ∈ membersOf store.backfill.partitionKeys, accounted store.backfill store.linkedRuns
      extraCanceled key = true
  written : ∀ status, (store.tryCompleteBackfill extraCanceled now).2 = some status →
    (store.tryCompleteBackfill extraCanceled now).1.backfill.status = status
  outcomes : (store.tryCompleteBackfill extraCanceled now).2 ≠ none →
    ∀ key ∈ membersOf store.backfill.partitionKeys,
      ∃! outcome, store.Leaves extraCanceled now key outcome
  failed : ∀ status, (store.tryCompleteBackfill extraCanceled now).2 = some status →
    (status = .completedFailed ↔
      ∃ key, store.Leaves extraCanceled now key .failed)
  canceled : ∀ status, (store.tryCompleteBackfill extraCanceled now).2 = some status →
    status ≠ .completedFailed →
    (status = .canceled ↔
      ∃ key, store.Leaves extraCanceled now key .canceled)
  success : ∀ status, (store.tryCompleteBackfill extraCanceled now).2 = some status →
    status ≠ .completedFailed →
    status ≠ .canceled → status = .completedSuccess
  recorded : (store.tryCompleteBackfill extraCanceled now).2 ≠ none → ∀ outcomes,
    let other := { store with backfill := { store.backfill with outcomes } }
    (other.tryCompleteBackfill extraCanceled now).2 ≠ none →
    ∀ key ∈ ranMembers store.linkedRuns, ∀ outcome,
      store.Leaves extraCanceled now key outcome ↔
        other.Leaves extraCanceled now key outcome

def Fails (member : PartitionKey) : Prop :=
  store.RunsSettle member .failed ∨ member ∈ settledWithoutRun store.backfill store.linkedRuns
    extraCanceled .failed

def Cancels (member : PartitionKey) : Prop :=
  store.RunsSettle member .canceled ∨ member ∈ membersOf extraCanceled ∨
    member ∈ settledWithoutRun store.backfill store.linkedRuns extraCanceled .canceled

structure CanceledApart : Prop where
  apart : ∀ member ∈ membersOf store.backfill.partitionKeys, ∀ key ∈ extraCanceled, member ∈
    key.members → key ≠ member →
    ¬store.RunsSettle member .failed ∧ (store.RunsSettle member .completed → member ∈ extraCanceled)
  failed : keylessRun store.linkedRuns .failure = true → ∃ member, store.Fails extraCanceled member
  canceled : (∀ member, ¬store.Fails extraCanceled member) →
    keylessRun store.linkedRuns .canceled = true ∨ extraCanceled ≠ [] →
    ∃ member, store.Cancels extraCanceled member

end BackfillStore

section Rows

variable {rows later : OutcomeRows} {row next : PartitionKey × BackfillOutcome} {key : PartitionKey}
  {outcome : BackfillOutcome}

theorem mem_putOutcome (nodup : (rows.map (·.1)).Nodup) :
    row ∈ putOutcome rows next ↔ row = next ∨ row ∈ rows ∧ row.1 ≠ next.1 := by
  grind [Assoc.of_mem_upsert, Assoc.mem_upsert_self, Assoc.mem_upsert_of_ne, putOutcome]

theorem mem_recordOutcomes (nodup : (rows.map (·.1)).Nodup)
    (agree : ∀ row ∈ later, ∀ other ∈ later, row.1 = other.1 → row = other) :
    row ∈ recordOutcomes rows later ↔ row ∈ later ∨ row ∈ rows ∧ row.1 ∉ later.map (·.1) := by
  induction later generalizing rows with
  | nil => simp [recordOutcomes]
  | cons next later ih =>
    have rest : ∀ row ∈ later, ∀ other ∈ later, row.1 = other.1 → row = other :=
      fun row member other otherMem =>
      agree row (List.mem_cons_of_mem _ member) other (List.mem_cons_of_mem _ otherMem)
    have again : next.1 ∈ later.map (·.1) → next ∈ later := by grind
    have isNodup : ((putOutcome rows next).map (·.1)).Nodup := Assoc.nodup_upsert nodup
    rw [recordOutcomes, List.foldl_cons, ← recordOutcomes, ih isNodup rest, mem_putOutcome nodup,
      List.map_cons, List.mem_cons, List.mem_cons, not_or]
    grind

theorem recordOutcomes_append {latest} :
    recordOutcomes rows (later ++ latest) = recordOutcomes (recordOutcomes rows later) latest :=
  List.foldl_append

theorem mem_recordOutcomes_same {keys : List PartitionKey} {settled}
    (nodup : (rows.map (·.1)).Nodup) :
    (key, outcome) ∈ recordOutcomes rows (keys.map fun key => (key, settled)) ↔
      key ∈ keys ∧ outcome = settled ∨ (key, outcome) ∈ rows ∧ key ∉ keys := by
  rw [mem_recordOutcomes nodup]
  · simp [and_comm, eq_comm]
  simp

theorem mem_settledRows {done failed canceled} :
    (key, outcome) ∈ settledRows done failed canceled ↔
      key ∈ failed ∧ outcome = .failed ∨ key ∉ failed ∧ key ∈ canceled ∧ outcome = .canceled ∨
        key ∉ failed ∧ key ∉ canceled ∧ key ∈ done ∧ outcome = .completed := by
  have empty : (([] : OutcomeRows).map (·.1)).Nodup := List.nodup_nil
  rw [settledRows, recordOutcomes_append, recordOutcomes_append,
    mem_recordOutcomes_same (nodup_recordOutcomes (nodup_recordOutcomes empty)),
    mem_recordOutcomes_same (nodup_recordOutcomes empty), mem_recordOutcomes_same empty]
  simp only [List.not_mem_nil, false_and, or_false]
  tauto

theorem mem_recordOutcomes_nil (nodup : (later.map (·.1)).Nodup) : row ∈ recordOutcomes [] later ↔
    row ∈ later := by
  grind [mem_recordOutcomes, List.inj_on_of_nodup_map]

end Rows

section Runs

variable {store : BackfillStore} {member key : PartitionKey} {outcome other : BackfillOutcome}
  {failures : List (String × PartitionKey)} {run : StoredRun}

theorem mem_settledByRun :
    (member ∈ (settledByRun failures run).completed ↔ run.Ran member ∧
      run.outcomeOf failures member = some .completed) ∧
      (member ∈ (settledByRun failures run).failed ↔ run.Ran member ∧
        run.outcomeOf failures member = some .failed) ∧
      (member ∈ (settledByRun failures run).canceled ↔
        run.Ran member ∧ run.outcomeOf failures member = some .canceled) := by
  unfold settledByRun SettledRunKeys.ofRun StoredRun.Ran StoredRun.outcomeOf
  grind

theorem outcomeOf_of_terminal (term : run.status.isTerminal = true) :
    ∃ outcome, run.outcomeOf failures member = some outcome := by
  unfold StoredRun.outcomeOf
  cases status : run.status with
  | success => exact ⟨_, rfl⟩
  | failure | canceled => exact ⟨_, rfl⟩
  | queued | notStarted | started =>
    rw [status] at term
    cases term

theorem outcomeOf_stepFailedMembers (linked : run ∈ store.linkedRuns) :
    run.outcomeOf (store.stepFailedMembers
      ((store.linkedRuns.filter fun run => run.status = .success).map (·.runId)))
      member = run.outcomeOf store.stepFailures member := by
  grind [StoredRun.outcomeOf, BackfillStore.stepFailedMembers]

theorem BackfillStore.DisjointRuns.unique (disjoint : store.DisjointRuns) {left right}
    (isLeft : left ∈ store.linkedRuns) (isRight : right ∈ store.linkedRuns)
    (ranLeft : left.Ran member) (ranRight : right.Ran member) : left = right := by
  by_contra different
  have symmetric : Std.Symm fun (run other : StoredRun) => ∀ member, ¬(run.Ran member ∧
      other.Ran member) :=
    ⟨fun _ _ apart member both => apart member both.symm⟩
  exact disjoint.forall isLeft isRight different member ⟨ranLeft, ranRight⟩

theorem BackfillStore.DisjointRuns.outcome_unique (disjoint : store.DisjointRuns)
    (settled : store.RunsSettle member outcome) (again : store.RunsSettle member other) : outcome =
    other := by
  grind [unique, RunsSettle]

end Runs

section Settled

variable {store : BackfillStore} {extraCanceled : List PartitionKey} {now : Int}
  {member key : PartitionKey} {outcome : BackfillOutcome}

def BackfillStore.lookedUp (store : BackfillStore) : List (String × PartitionKey) :=
  store.stepFailedMembers ((store.linkedRuns.filter fun run => run.status = .success).map (·.runId))

theorem exists_outcomeOf_lookedUp :
    (∃ run ∈ store.linkedRuns, run.Ran member ∧ run.outcomeOf store.lookedUp member =
      some outcome) ↔
      store.RunsSettle member outcome := by
  refine exists_congr fun run => and_congr_right fun linked => and_congr_right fun _ => ?_
  rw [BackfillStore.lookedUp, outcomeOf_stepFailedMembers linked]

theorem mem_completedKeys :
    member ∈ completedKeys store.linkedRuns store.lookedUp ↔
    store.RunsSettle member .completed := by
  simp only [completedKeys, List.mem_flatMap, mem_settledByRun.1, exists_outcomeOf_lookedUp]

theorem mem_failedKeys :
    member ∈ failedKeys store.backfill store.linkedRuns extraCanceled store.lookedUp ↔
      store.Fails extraCanceled member := by
  simp only [failedKeys, List.mem_append, List.mem_flatMap, mem_settledByRun.2.1,
    exists_outcomeOf_lookedUp, BackfillStore.Fails]

theorem mem_canceledKeys :
    member ∈ canceledKeys store.backfill store.linkedRuns extraCanceled store.lookedUp ↔
      store.RunsSettle member .canceled ∨ member ∈ extraCanceled ∨
        member ∈ settledWithoutRun store.backfill store.linkedRuns extraCanceled .canceled := by
  simp only [canceledKeys, List.mem_append, List.mem_flatMap, mem_settledByRun.2.2,
    exists_outcomeOf_lookedUp, or_assoc]

theorem mem_settledWithoutRun {backfill runs} :
    member ∈ settledWithoutRun backfill runs extraCanceled outcome ↔
      member ∈ membersOf (backfill.settledAs outcome) ∧ member ∉ ranMembers runs ∧
      member ∉ membersOf extraCanceled := by
  rw [settledWithoutRun, List.mem_filter, decide_eq_true_eq]

theorem BackfillStore.RunsSettle.ran (settled : store.RunsSettle member outcome) :
    member ∈ ranMembers store.linkedRuns := by
  obtain ⟨run, linked, ran, _⟩ := settled
  exact mem_ranMembers.mpr ⟨run, linked, ran⟩

theorem BackfillStore.RunsSettle.members (settled : store.RunsSettle member outcome) :
    member.members = [member] := by
  obtain ⟨_, _, ⟨_, _, isMem⟩, _⟩ := settled
  exact members_of_mem isMem

theorem members_of_settledWithoutRun {backfill runs}
    (settled : member ∈ settledWithoutRun backfill runs extraCanceled outcome) : member.members =
    [member] := by
  obtain ⟨_, _, isMem⟩ := mem_membersOf.mp (mem_settledWithoutRun.mp settled).1
  exact members_of_mem isMem

theorem BackfillStore.Fails.members (fails : store.Fails extraCanceled member) :
    member.members = [member] :=
  fails.elim (·.members) members_of_settledWithoutRun

theorem BackfillStore.Fails.runsSettle (fails : store.Fails extraCanceled member)
    (passed : member ∈ membersOf extraCanceled) : store.RunsSettle member .failed :=
  fails.resolve_right fun settled => (mem_settledWithoutRun.mp settled).2.2 passed

theorem tryCompleteBackfill_eq (complete : mayComplete store.backfill store.linkedRuns
    extraCanceled = true) :
    store.tryCompleteBackfill extraCanceled now =
      (store.settle (settlement store.backfill store.linkedRuns extraCanceled store.lookedUp) now,
        some (settledStatus store.backfill store.linkedRuns extraCanceled store.lookedUp)) :=
  if_pos complete

theorem mem_outcomes (complete : mayComplete store.backfill store.linkedRuns extraCanceled = true) :
    (key, outcome) ∈ (store.tryCompleteBackfill extraCanceled now).1.backfill.outcomes ↔
      (key, outcome) ∈ settledRows (completedKeys store.linkedRuns store.lookedUp)
        (failedKeys store.backfill store.linkedRuns extraCanceled store.lookedUp)
        (canceledKeys store.backfill store.linkedRuns extraCanceled store.lookedUp) := by
  rw [tryCompleteBackfill_eq complete]
  exact mem_recordOutcomes_nil (nodup_settledRows _ _ _)

theorem settledStatus_failed_iff :
    settledStatus store.backfill store.linkedRuns extraCanceled store.lookedUp = .completedFailed ↔
      (∃ member, store.Fails extraCanceled member) ∨
      keylessRun store.linkedRuns .failure = true := by
  simp only [← mem_failedKeys, ← List.isEmpty_eq_false_iff_exists_mem, List.isEmpty_eq_false_iff]
  grind [settledStatus]

theorem settledStatus_canceled_iff
    (unfailed : settledStatus store.backfill store.linkedRuns extraCanceled store.lookedUp ≠
      .completedFailed) :
    settledStatus store.backfill store.linkedRuns extraCanceled store.lookedUp = .canceled ↔
      canceledKeys store.backfill store.linkedRuns extraCanceled store.lookedUp ≠ [] ∨
        keylessRun store.linkedRuns .canceled = true := by grind [settledStatus]

theorem fails_iff_of_ran (ran : member ∈ ranMembers store.linkedRuns) :
    store.Fails extraCanceled member ↔ store.RunsSettle member .failed :=
  or_iff_left fun without => (mem_settledWithoutRun.mp without).2.1 ran

theorem mem_canceledKeys_iff_of_ran (ran : member ∈ ranMembers store.linkedRuns) :
    member ∈ canceledKeys store.backfill store.linkedRuns extraCanceled store.lookedUp ↔
      store.RunsSettle member .canceled ∨ member ∈ extraCanceled := by
  rw [mem_canceledKeys, ← or_assoc]
  exact or_iff_left fun without => (mem_settledWithoutRun.mp without).2.1 ran

section Attempt

variable (complete : mayComplete store.backfill store.linkedRuns extraCanceled = true)
include complete

theorem leaves_failed :
    store.Leaves extraCanceled now member .failed ↔
      store.Fails extraCanceled member := by
  simp only [BackfillStore.Leaves, HasOutcome, mem_outcomes complete, mem_settledRows,
    mem_failedKeys]
  grind [BackfillStore.Fails.members]

theorem leaves_canceled :
    store.Leaves extraCanceled now member .canceled ↔
      ∃ key, ¬store.Fails extraCanceled key ∧
        key ∈ canceledKeys store.backfill store.linkedRuns extraCanceled store.lookedUp ∧
        member ∈ key.members := by
  simp only [BackfillStore.Leaves, HasOutcome, mem_outcomes complete, mem_settledRows,
    mem_failedKeys]
  grind

theorem leaves_completed :
    store.Leaves extraCanceled now member .completed ↔
      ¬store.Fails extraCanceled member ∧
        member ∉ canceledKeys store.backfill store.linkedRuns extraCanceled store.lookedUp ∧
        store.RunsSettle member .completed := by
  simp only [BackfillStore.Leaves, HasOutcome, mem_outcomes complete, mem_settledRows,
    mem_failedKeys, mem_completedKeys]
  grind [BackfillStore.RunsSettle.members]

theorem leaves_canceled_of_passed (passed : key ∈ extraCanceled) (isMem : member ∈ key.members)
    (apart : key = member → ¬store.Fails extraCanceled member) :
    store.Leaves extraCanceled now member .canceled := by
  refine (leaves_canceled complete).mpr ⟨key, fun fails => ?_,
    mem_canceledKeys.mpr (.inr (.inl passed)), isMem⟩
  grind [BackfillStore.Fails.members]

theorem leaves_canceled_cases (canceled : store.Leaves extraCanceled now member .canceled) :
    ¬store.Fails extraCanceled member ∧
        member ∈ canceledKeys store.backfill store.linkedRuns extraCanceled store.lookedUp ∨
      ∃ key ∈ extraCanceled, member ∈ key.members ∧ key ≠ member := by
  obtain ⟨key, unfailed, isCanceled, isMem⟩ := (leaves_canceled complete).mp canceled
  grind [mem_canceledKeys, BackfillStore.RunsSettle.members, members_of_settledWithoutRun]

theorem exists_cancels_iff (unfailed : ∀ member, ¬store.Fails extraCanceled member) :
    (∃ member, store.Leaves extraCanceled now member .canceled) ↔
      ∃ member, store.Cancels extraCanceled member := by
  constructor
  · rintro ⟨member, canceled⟩
    obtain ⟨key, _, isCanceled, isMem⟩ := (leaves_canceled complete).mp canceled
    rcases mem_canceledKeys.mp isCanceled with settled | passed | settled
    · exact ⟨key, .inl settled⟩
    · exact ⟨member, .inr (.inl (mem_membersOf.mpr ⟨key, passed, isMem⟩))⟩
    · exact ⟨key, .inr (.inr settled)⟩
  · rintro ⟨member, settled | passed | settled⟩
    · refine ⟨member, (leaves_canceled complete).mpr ⟨member, unfailed member, mem_canceledKeys.mpr
        (.inl settled), ?_⟩⟩
      rw [settled.members]
      exact List.mem_singleton_self member
    · obtain ⟨key, passed, isMem⟩ := mem_membersOf.mp passed
      exact ⟨member, leaves_canceled_of_passed complete passed isMem fun _ => unfailed member⟩
    · refine ⟨member, (leaves_canceled complete).mpr
        ⟨member, unfailed member, mem_canceledKeys.mpr (.inr (.inr settled)), ?_⟩⟩
      rw [members_of_settledWithoutRun settled]
      exact List.mem_singleton_self member

theorem exists_leaves (requested : member ∈ membersOf store.backfill.partitionKeys) :
    ∃ outcome, store.Leaves extraCanceled now member outcome := by
  obtain ⟨_, terminal, _, all⟩ := mayComplete_iff.mp complete
  by_cases fails : store.Fails extraCanceled member
  · exact ⟨.failed, (leaves_failed complete).mpr fails⟩
  by_cases isCanceled : member ∈ canceledKeys store.backfill store.linkedRuns extraCanceled
    store.lookedUp
  · obtain ⟨_, _, single⟩ := mem_membersOf.mp requested
    have isMember : member ∈ member.members := by
      rw [members_of_mem single]
      exact List.mem_singleton_self member
    exact ⟨.canceled, (leaves_canceled complete).mpr ⟨member, fails, isCanceled, isMember⟩⟩
  rcases of_decide_eq_true (all member requested) with ran | passed | settled | settled
  · obtain ⟨run, linked, ranIt⟩ := mem_ranMembers.mp ran
    obtain ⟨outcome, isOutcome⟩ := @outcomeOf_of_terminal member store.stepFailures run
      (terminal run linked)
    have settles : store.RunsSettle member outcome := ⟨run, linked, ranIt, isOutcome⟩
    cases outcome with
    | completed => exact ⟨.completed, (leaves_completed complete).mpr ⟨fails, isCanceled, settles⟩⟩
    | failed => exact absurd (.inl settles) fails
    | canceled => exact absurd (mem_canceledKeys.mpr (.inl settles)) isCanceled
  · obtain ⟨key, isPassed, isMember⟩ := mem_membersOf.mp passed
    exact ⟨.canceled, leaves_canceled_of_passed complete isPassed isMember fun _ => fails⟩
  · exact absurd (.inr settled) fails
  · exact absurd (mem_canceledKeys.mpr (.inr (.inr settled))) isCanceled

theorem leaves_unique {other} (apart : ∀ key ∈ extraCanceled, member ∈ key.members → key ≠ member →
      ¬store.RunsSettle member .failed ∧
      (store.RunsSettle member .completed → member ∈ extraCanceled))
    (left : store.Leaves extraCanceled now member outcome)
    (right : store.Leaves extraCanceled now member other) :
    outcome = other := by
  have failedNotCanceled : store.Fails extraCanceled member →
      ¬store.Leaves extraCanceled now member .canceled := by
    intro fails canceled
    rcases leaves_canceled_cases complete canceled with ⟨unfailed, _⟩ | ⟨key, passed, isMember, other⟩
    · exact unfailed fails
    · exact (apart key passed isMember other).1 (fails.runsSettle (mem_membersOf.mpr ⟨key, passed, isMember⟩))
  have completedNotCanceled :
      store.Leaves extraCanceled now member .completed →
      ¬store.Leaves extraCanceled now member .canceled := by
    intro isCompleted canceled
    obtain ⟨_, uncanceled, settled⟩ := (leaves_completed complete).mp isCompleted
    rcases leaves_canceled_cases complete canceled with ⟨_, isCanceled⟩ | ⟨key, passed, isMember, other⟩
    · exact uncanceled isCanceled
    · exact uncanceled (mem_canceledKeys.mpr (.inr (.inl ((apart key passed isMember other).2 settled))))
  have completedNotFailed :
      store.Leaves extraCanceled now member .completed →
      ¬store.Leaves extraCanceled now member .failed := fun isCompleted isFailed =>
    ((leaves_completed complete).mp isCompleted).1 ((leaves_failed complete).mp isFailed)
  cases outcome <;> cases other
  case completed.completed | failed.failed | canceled.canceled => rfl
  case completed.failed => exact absurd right (completedNotFailed left)
  case failed.completed => exact absurd left (completedNotFailed right)
  case completed.canceled => exact absurd right (completedNotCanceled left)
  case canceled.completed => exact absurd left (completedNotCanceled right)
  case failed.canceled => exact absurd right (failedNotCanceled ((leaves_failed complete).mp left))
  case canceled.failed => exact absurd left (failedNotCanceled ((leaves_failed complete).mp right))

theorem existsUnique_leaves_iff (disjoint : store.DisjointRuns)
    (asked : member ∈ membersOf store.backfill.partitionKeys) :
    (∃! outcome, store.Leaves extraCanceled now member outcome) ↔
      ∀ key ∈ extraCanceled, member ∈ key.members → key ≠ member →
        ¬store.RunsSettle member .failed ∧
        (store.RunsSettle member .completed → member ∈ extraCanceled) := by
  constructor
  · intro exact key passed isMem other
    have canceled : store.Leaves extraCanceled now member .canceled :=
      leaves_canceled_of_passed complete passed isMem fun same => absurd same other
    refine ⟨fun settled => ?_, fun settled => ?_⟩
    · cases exact.unique canceled ((leaves_failed complete).mpr (.inl settled))
    · by_contra unpassed
      have ran := settled.ran
      have unfailed : ¬store.Fails extraCanceled member := by
        rintro (failed | without)
        · cases disjoint.outcome_unique settled failed
        · exact (mem_settledWithoutRun.mp without).2.1 ran
      have uncanceled : member ∉ canceledKeys store.backfill store.linkedRuns extraCanceled
        store.lookedUp := by
        grind [mem_canceledKeys, BackfillStore.DisjointRuns.outcome_unique, mem_settledWithoutRun]
      cases exact.unique canceled ((leaves_completed complete).mpr ⟨unfailed, uncanceled, settled⟩)
  · intro apart
    obtain ⟨outcome, has⟩ := @exists_leaves _ _ now _ complete asked
    exact ⟨outcome, has, fun other hasOther => leaves_unique complete apart hasOther has⟩

theorem status_canceled_iff (unfailed : ∀ member, ¬store.Fails extraCanceled member)
    (isUnfailed : settledStatus store.backfill store.linkedRuns extraCanceled store.lookedUp ≠
      .completedFailed) :
    (settledStatus store.backfill store.linkedRuns extraCanceled store.lookedUp = .canceled ↔
        ∃ member, store.Leaves extraCanceled now member .canceled) ↔
      (keylessRun store.linkedRuns .canceled = true ∨ extraCanceled ≠ [] →
        ∃ member, store.Cancels extraCanceled member) := by
  rw [settledStatus_canceled_iff isUnfailed, exists_cancels_iff complete unfailed]
  constructor
  · rintro exact (keyless | passed)
    · exact exact.mp (.inr keyless)
    · obtain ⟨key, isPassed⟩ := List.exists_mem_of_ne_nil _ passed
      exact exact.mp (.inl (List.ne_nil_of_mem (mem_canceledKeys.mpr (.inr (.inl isPassed)))))
  · intro behind
    constructor
    · rintro (canceled | keyless)
      · obtain ⟨key, isCanceled⟩ := List.exists_mem_of_ne_nil _ canceled
        rcases mem_canceledKeys.mp isCanceled with settled | passed | settled
        · exact ⟨key, .inl settled⟩
        · exact behind (.inr (List.ne_nil_of_mem passed))
        · exact ⟨key, .inr (.inr settled)⟩
      · exact behind (.inl keyless)
    · rintro ⟨member, settled | passed | settled⟩
      · exact .inl (List.ne_nil_of_mem (mem_canceledKeys.mpr (.inl settled)))
      · obtain ⟨key, isPassed, _⟩ := mem_membersOf.mp passed
        exact .inl (List.ne_nil_of_mem (mem_canceledKeys.mpr (.inr (.inl isPassed))))
      · exact .inl (List.ne_nil_of_mem (mem_canceledKeys.mpr (.inr (.inr settled))))

theorem leaves_of_ran (ran : member ∈ ranMembers store.linkedRuns) :
    (store.Leaves extraCanceled now member .failed ↔ store.RunsSettle member .failed) ∧
      (store.Leaves extraCanceled now member .completed ↔ ¬store.RunsSettle member .failed ∧
        ¬(store.RunsSettle member .canceled ∨ member ∈ extraCanceled) ∧
        store.RunsSettle member .completed) ∧
      (store.Leaves extraCanceled now member .canceled ↔
        ¬store.RunsSettle member .failed ∧
        (store.RunsSettle member .canceled ∨ member ∈ extraCanceled) ∨
          ∃ key ∈ extraCanceled, member ∈ key.members ∧ key ≠ member) := by
  obtain ⟨_, _, _, _, single⟩ := mem_ranMembers.mp ran
  have isMem : member ∈ member.members := by
    rw [members_of_mem single]
    exact List.mem_singleton_self member
  refine ⟨?_, ?_, ?_⟩
  · rw [leaves_failed complete, fails_iff_of_ran ran]
  · rw [leaves_completed complete, fails_iff_of_ran ran, mem_canceledKeys_iff_of_ran ran]
  · rw [← mem_canceledKeys_iff_of_ran ran, ← @fails_iff_of_ran store extraCanceled _ ran]
    constructor
    · exact leaves_canceled_cases complete
    · rintro (⟨unfailed, isCanceled⟩ | ⟨key, passed, inKey, other⟩)
      · exact (leaves_canceled complete).mpr ⟨member, unfailed, isCanceled, isMem⟩
      · exact leaves_canceled_of_passed complete passed inKey fun same => absurd same other

end Attempt

theorem mayComplete_of_settles (settles : (store.tryCompleteBackfill extraCanceled now).2 ≠ none) :
    mayComplete store.backfill store.linkedRuns extraCanceled = true := by
  by_contra unfin
  exact settles (congrArg Prod.snd (if_neg unfin))

theorem leaves_iff_of_outcomes (settles : (store.tryCompleteBackfill extraCanceled now).2 ≠ none)
    (outcomes : OutcomeRows) :
    let other := { store with backfill := { store.backfill with outcomes } }
    (other.tryCompleteBackfill extraCanceled now).2 ≠ none →
    ∀ key ∈ ranMembers store.linkedRuns, ∀ outcome,
      store.Leaves extraCanceled now key outcome ↔ other.Leaves extraCanceled now key outcome := by
  intro other otherSettles key ran outcome
  have here := @leaves_of_ran _ _ now _ (mayComplete_of_settles settles) ran
  have there := @leaves_of_ran other _ now _ (mayComplete_of_settles otherSettles) ran
  cases outcome with
  | completed => exact here.2.1.trans there.2.1.symm
  | failed => exact here.1.trans there.1.symm
  | canceled => exact here.2.2.trans there.2.2.symm

theorem tryCompleteBackfill_status {status}
    (settles : (store.tryCompleteBackfill extraCanceled now).2 = some status) :
    mayComplete store.backfill store.linkedRuns extraCanceled = true ∧
      status = settledStatus store.backfill store.linkedRuns extraCanceled store.lookedUp := by
  have complete : mayComplete store.backfill store.linkedRuns extraCanceled = true :=
    mayComplete_of_settles (settles ▸ Option.some_ne_none status)
  rw [tryCompleteBackfill_eq complete] at settles
  simp_all

/-- An attempt settles the backfill exactly when canceled keys are apart from what the runs settled.
-/
theorem settlesExactly_iff (disjoint : store.DisjointRuns) :
    store.SettlesExactly extraCanceled now ↔
      (store.backfill.status = .inProgress ∧
        (∀ run ∈ store.linkedRuns, run.status.isTerminal = true) ∧
          ¬(store.linkedRuns = [] ∧ extraCanceled = []) ∧
          (∀ key ∈ membersOf store.backfill.partitionKeys,
            accounted store.backfill store.linkedRuns extraCanceled key = true) →
        store.CanceledApart extraCanceled) := by
  rw [← mayComplete_iff]
  constructor
  · intro exact complete
    have isSettled : (store.tryCompleteBackfill extraCanceled now).2 =
        some (settledStatus store.backfill store.linkedRuns extraCanceled store.lookedUp) :=
      congrArg Prod.snd (tryCompleteBackfill_eq complete)
    have settles : (store.tryCompleteBackfill extraCanceled now).2 ≠ none :=
      isSettled ▸ Option.some_ne_none _
    have failed : keylessRun store.linkedRuns .failure = true →
      ∃ member, store.Fails extraCanceled member := by
      intro keyless
      obtain ⟨member, left⟩ := (exact.failed _ isSettled).mp
        (settledStatus_failed_iff.mpr (.inr keyless))
      exact ⟨member, (leaves_failed complete).mp left⟩
    refine ⟨fun member requested => ?_, failed, fun unfailed => ?_⟩
    · exact (existsUnique_leaves_iff complete disjoint requested).mp
        (exact.outcomes settles member requested)
    · have isUnfailed : settledStatus store.backfill store.linkedRuns extraCanceled store.lookedUp ≠
          .completedFailed := by
        rw [Ne, settledStatus_failed_iff]
        simp_all
      exact (status_canceled_iff complete unfailed isUnfailed).mp
        (exact.canceled _ isSettled isUnfailed)
  · intro condition
    refine ⟨fun settles => ?_, ?_, fun settles member requested => ?_, fun status settles => ?_,
      fun status settles isUnfailed => ?_, fun status settles isUnfailed isUncanceled => ?_,
      leaves_iff_of_outcomes⟩
    · obtain ⟨inProgress, terminal, _, all⟩ := mayComplete_iff.mp (mayComplete_of_settles settles)
      exact ⟨inProgress, terminal, all⟩
    · intro status settles
      obtain ⟨complete, rfl⟩ := tryCompleteBackfill_status settles
      rw [tryCompleteBackfill_eq complete]
      rfl
    · have complete := mayComplete_of_settles settles
      exact (existsUnique_leaves_iff complete disjoint requested).mpr
        ((condition complete).apart member requested)
    · obtain ⟨complete, rfl⟩ := tryCompleteBackfill_status settles
      simp only [settledStatus_failed_iff, leaves_failed complete]
      exact or_iff_left_of_imp (condition complete).failed
    · obtain ⟨complete, rfl⟩ := tryCompleteBackfill_status settles
      have unfailed : ∀ member, ¬store.Fails extraCanceled member := fun member fails =>
        isUnfailed (settledStatus_failed_iff.mpr (.inl ⟨member, fails⟩))
      exact (status_canceled_iff complete unfailed isUnfailed).mpr
        ((condition complete).canceled unfailed)
    · obtain ⟨_, rfl⟩ := tryCompleteBackfill_status settles
      revert isUnfailed isUncanceled
      unfold settledStatus
      simp_all

end Settled

def separateRuns : BackfillStore where
  backfill :=
    { backfillId := "backfill"
      status := .inProgress
      partitionKeys := [.single ["a", "b"], .single ["c"]]
      runIds := ["first", "second"] }
  runs :=
    [{ runId := "first"
       tags := []
       priority := -10
       startTime := 0
       status := .success
       partitionKey := some (.single ["a", "b"])
       launchedBy := .backfill "backfill" },
     { runId := "second"
       tags := []
       priority := -10
       startTime := 0
       status := .canceled
       partitionKey := some (.single ["c"])
       launchedBy := .backfill "backfill" }]
  stepFailures := [("first", .single ["b"])]

theorem settlesExactly_separateRuns :
    separateRuns.DisjointRuns ∧ (separateRuns.tryCompleteBackfill [] 1).2 = some .completedFailed ∧
      separateRuns.SettlesExactly [] 1 := by
  have disjoint : separateRuns.DisjointRuns := by
    refine List.pairwise_pair.mpr ?_
    rintro member ⟨⟨_, ⟨⟩, left⟩, ⟨_, ⟨⟩, right⟩⟩
    have apart : ∀ member ∈ (single ["a", "b"]).members,
        member ∉ (single ["c"]).members := by decide +kernel
    exact apart member left right
  refine ⟨disjoint, by decide +kernel, (settlesExactly_iff disjoint).mpr fun _ => ⟨?_, ?_, ?_⟩⟩
  · simp
  · intro keyless
    exact absurd keyless (by decide +kernel)
  · rintro _ (keyless | passed)
    · exact absurd keyless (by decide +kernel)
    · exact absurd rfl passed

def sharedMember : BackfillStore where
  backfill :=
    { backfillId := "backfill"
      status := .inProgress
      failurePolicy := .stopOnFailure
      partitionKeys := [.single ["a", "b"], .single ["b", "c"]]
      runIds := ["first"]
      outcomes := [(.single ["a"], .failed), (.single ["b"], .failed)] }
  runs :=
    [{ runId := "first"
       tags := []
       priority := -10
       startTime := 0
       status := .failure
       partitionKey := some (.single ["a", "b"])
       launchedBy := .backfill "backfill" }]

theorem failed_member_canceled :
    sharedMember.DisjointRuns ∧ PartitionKey.single ["b"] ∈
      membersOf sharedMember.backfill.partitionKeys ∧
      (sharedMember.tryCompleteBackfill [.single ["b", "c"]] 1).2 = some .completedFailed ∧
      sharedMember.Leaves [.single ["b", "c"]] 1 (.single ["b"]) .failed ∧
      sharedMember.Leaves [.single ["b", "c"]] 1 (.single ["b"]) .canceled := by
  refine ⟨List.pairwise_singleton _ _, ?_, ?_, ⟨.single ["b"], ?_, ?_⟩,
    ⟨.single ["b", "c"], ?_, ?_⟩⟩ <;>
    decide +kernel

end Rivers

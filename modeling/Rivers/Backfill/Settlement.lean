import Rivers.Backfill.Grouping
import Rivers.Backfill.StoreCore

/-! Which keys get a row from `try_complete_backfill`. -/

namespace Rivers

open SettledRunKeys BackfillStore

section Rows

variable {rows later : OutcomeRows} {key : PartitionKey} {outcome : BackfillOutcome}

theorem mem_keys_recordOutcomes :
    key ∈ (recordOutcomes rows later).map (·.1) ↔ key ∈ rows.map (·.1) ∨ key ∈ later.map (·.1) := by
  induction later generalizing rows with
  | nil => simp [recordOutcomes]
  | cons row later ih =>
    rw [recordOutcomes, List.foldl_cons, ← recordOutcomes, ih, putOutcome, Assoc.mem_keys_upsert,
      List.map_cons, List.mem_cons, or_assoc]

theorem nodup_recordOutcomes (nodup : (rows.map (·.1)).Nodup) :
    ((recordOutcomes rows later).map (·.1)).Nodup := by
  induction later generalizing rows with
  | nil => exact nodup
  | cons row later ih => exact ih (Assoc.nodup_upsert nodup)

theorem mem_recordOutcomes_of_not_mem {row} (mem : row ∈ rows) (other : row.1 ∉ later.map (·.1)) :
    row ∈ recordOutcomes rows later := by
  induction later generalizing rows with
  | nil => exact mem
  | cons next later ih =>
    rw [List.map_cons, List.mem_cons, not_or] at other
    exact ih (Assoc.mem_upsert_of_ne mem other.1) other.2

theorem mem_recordOutcomes_of_all (all : ∀ row ∈ later, row.2 = outcome)
    (found : (key, outcome) ∈ rows ∨ key ∈ later.map (·.1)) : (key, outcome) ∈
    recordOutcomes rows later := by
  induction later generalizing rows with
  | nil => exact found.resolve_right List.not_mem_nil
  | cons row later ih =>
    obtain ⟨first, rest⟩ := List.forall_mem_cons.mp all
    refine ih rest ?_
    by_cases same : key = row.1
    · exact .inl (same ▸ first ▸ Assoc.mem_upsert_self row.2)
    · grind [Assoc.mem_upsert_of_ne, putOutcome]

theorem forall_recordOutcomes (old : ∀ row ∈ rows, row.2 = outcome)
    (all : ∀ row ∈ later, row.2 = outcome) :
    ∀ row ∈ recordOutcomes rows later, row.2 = outcome := by
  induction later generalizing rows with
  | nil => exact old
  | cons row later ih =>
    obtain ⟨first, rest⟩ := List.forall_mem_cons.mp all
    let isOutcome (_ : PartitionKey) (recorded : BackfillOutcome) : Prop := recorded = outcome
    have valid : ∀ entry ∈ putOutcome rows row, isOutcome entry.1 entry.2 :=
      Assoc.forall_upsert old first fun _ _ => first
    exact ih valid rest

theorem settledRows_failed (keys : List PartitionKey) : ∀ row ∈ settledRows [] keys [], row.2 =
    .failed :=
  forall_recordOutcomes (by simp) (by simp)

theorem mem_keys_settledRows {done failed canceled} :
    key ∈ (settledRows done failed canceled).map (·.1) ↔ key ∈ done ∨ key ∈ failed ∨
    key ∈ canceled := by
  rw [settledRows, mem_keys_recordOutcomes]
  grind

theorem nodup_settledRows (done failed canceled : List PartitionKey) :
    ((settledRows done failed canceled).map (·.1)).Nodup :=
  nodup_recordOutcomes List.nodup_nil

end Rows

section Runs

variable {runs : List StoredRun} {key : PartitionKey}

theorem mem_membersOf {keys} : key ∈ membersOf keys ↔ ∃ asked ∈ keys, key ∈ asked.members :=
  List.mem_flatMap

theorem mem_settledRunKeys {run stepFailed} (term : run.status.isTerminal = true) :
    (key ∈ (ofRun run stepFailed).completed ∨ key ∈ (ofRun run stepFailed).failed ∨
        key ∈ (ofRun run stepFailed).canceled) ↔
      ∃ runKey, run.partitionKey = some runKey ∧ key ∈ runKey.members := by
  unfold ofRun
  cases isKey : run.partitionKey with
  | none => simp
  | some runKey =>
    cases status : run.status with
    | success => grind
    | failure | canceled => simp
    | queued | notStarted | started =>
      rw [status] at term
      cases term

theorem mem_ranMembers :
    key ∈ ranMembers runs ↔ ∃ run ∈ runs, ∃ runKey, run.partitionKey = some runKey ∧
    key ∈ runKey.members := by
  grind [ranMembers, membersOf]

theorem mem_flatMap_settled {failures} (term : ∀ run ∈ runs, run.status.isTerminal = true) :
    ((key ∈ runs.flatMap fun run => (settledByRun failures run).completed) ∨
        (key ∈ runs.flatMap fun run => (settledByRun failures run).failed) ∨
        key ∈ runs.flatMap fun run => (settledByRun failures run).canceled) ↔
          key ∈ ranMembers runs := by
  rw [mem_ranMembers]
  simp only [List.mem_flatMap]
  constructor
  · rintro (⟨run, mem, settled⟩ | ⟨run, mem, settled⟩ | ⟨run, mem, settled⟩)
    · exact ⟨run, mem, (mem_settledRunKeys (term run mem)).mp (.inl settled)⟩
    · grind [ofRun, settledByRun]
    · grind [ofRun, settledByRun]
  · rintro ⟨run, mem, ran⟩
    rcases (mem_settledRunKeys (term run mem)).mpr ran with settled | settled | settled
    · exact .inl ⟨run, mem, settled⟩
    · exact .inr (.inl ⟨run, mem, settled⟩)
    · exact .inr (.inr ⟨run, mem, settled⟩)

end Runs

section Settle

variable {backfill : BackfillRecord} {runs : List StoredRun} {extraCanceled : List PartitionKey}
  {failures : List (String × PartitionKey)} {key : PartitionKey}

theorem settledStatus_terminal : (settledStatus backfill runs extraCanceled failures).isTerminal =
    true := by
  unfold settledStatus
  split
  · rfl
  · split <;> rfl

theorem mem_keys_settlement (term : ∀ run ∈ runs, run.status.isTerminal = true) :
    key ∈ (settlement backfill runs extraCanceled failures).2.map (·.1) ↔
      key ∈ ranMembers runs ∨ key ∈ extraCanceled ∨
        key ∈ settledWithoutRun backfill runs extraCanceled .failed ∨
        key ∈ settledWithoutRun backfill runs extraCanceled .canceled := by
  rw [settlement, mem_keys_settledRows, ← @mem_flatMap_settled _ _ failures term]
  simp only [completedKeys, failedKeys, canceledKeys, List.mem_append]
  tauto

theorem mayComplete_iff :
    mayComplete backfill runs extraCanceled = true ↔
      backfill.status = .inProgress ∧ (∀ run ∈ runs, run.status.isTerminal = true) ∧
        ¬(runs = [] ∧ extraCanceled = []) ∧
        ∀ key ∈ membersOf backfill.partitionKeys, accounted backfill runs extraCanceled key =
          true := by
  simp only [mayComplete, decide_eq_true_eq]

variable {store : BackfillStore} {now : Int}

theorem tryCompleteBackfill_of_not
    (unfin : ¬mayComplete store.backfill (store.getRunsByIds store.backfill.runIds) extraCanceled =
      true) :
    (store.tryCompleteBackfill extraCanceled now).1 = store := by
  rw [tryCompleteBackfill, if_neg unfin]

theorem tryCompleteBackfill_of_mayComplete
    (compl : mayComplete store.backfill (store.getRunsByIds store.backfill.runIds) extraCanceled =
      true) :
    let runs := store.getRunsByIds store.backfill.runIds
    let after := (store.tryCompleteBackfill extraCanceled now).1
    after.backfill.status.isTerminal = true ∧ (after.backfill.outcomes.map (·.1)).Nodup ∧
      ∀ key, key ∈ after.backfill.outcomes.map (·.1) ↔
        key ∈ ranMembers runs ∨ key ∈ extraCanceled ∨
          key ∈ settledWithoutRun store.backfill runs extraCanceled .failed ∨
          key ∈ settledWithoutRun store.backfill runs extraCanceled .canceled := by
  intro runs after
  have isAfter : after = store.settle (settlement store.backfill runs extraCanceled
      (store.stepFailedMembers ((runs.filter fun run => run.status = .success).map (·.runId))))
        now := by
    simp only [after, tryCompleteBackfill, if_pos compl, runs]
  rw [isAfter]
  refine ⟨settledStatus_terminal, nodup_recordOutcomes List.nodup_nil, fun key => ?_⟩
  grind [mem_keys_settlement, mem_keys_recordOutcomes, mayComplete, settle]

end Settle

end Rivers

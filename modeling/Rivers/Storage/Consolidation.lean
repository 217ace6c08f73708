import Rivers.Storage.EventsCore
import Mathlib.Data.Finset.Max
import Mathlib.Tactic.SplitIfs
import Mathlib.Tactic.Tauto

/-! What event transactions leave in the tables of an asset. -/

namespace Rivers

open FiniteMap Newest AssetPartition EventTransaction

structure AssetData where
  eventId : Option String
  runId : Option String
  timestamp : WithBot Int
  dataVersion : Option String
  deriving DecidableEq

structure DataStamp where
  eventId : String
  runId : String
  timestamp : Int
  dataVersion : Option String
  deriving DecidableEq

structure DeletionStamp where
  eventId : String
  timestamp : Int
  deriving DecidableEq

def AssetTables.data (tables : AssetTables) : AssetData :=
  ⟨tables.lastEventId, tables.lastRunId, tables.lastTimestamp, tables.lastDataVersion⟩

def AssetData.settled (deleted : Option DeletionStamp) (materialized : Option DataStamp) :
    AssetData :=
  if latest DeletionStamp.timestamp deleted < latest DataStamp.timestamp materialized then
    { eventId := materialized.map (·.eventId)
      runId := materialized.map (·.runId)
      timestamp := latest DataStamp.timestamp materialized
      dataVersion := materialized.bind (·.dataVersion) }
  else
    { eventId := deleted.map (·.eventId)
      runId := none
      timestamp := ⊥
      dataVersion := none }

def AssetPartition.outlives (deleted tombstone : WithBot Int) (row : AssetPartition) : Bool :=
  deleted < (row.lastTimestamp : WithBot Int) ∧ tombstone < (row.lastTimestamp : WithBot Int)

namespace EventTransaction

def dataStamp : EventTransaction → Option DataStamp
  | .applyMaterialization m => some ⟨m.eventId, m.runId, m.timestamp, m.dataVersion⟩
  | _ => none

def deletionStamp : EventTransaction → Option DeletionStamp
  | .clearDeletedAsset eventId deletedAt => some ⟨eventId, deletedAt⟩
  | _ => none

def rowAt (key : PartitionKey) : EventTransaction → Option AssetPartition
  | .applyMaterialization m => m.parts.lookup key
  | _ => none

def tombstoneAt (key : PartitionKey) : EventTransaction → Option Int
  | .deletePartitions deletions => (insertMaxAll ∅ deletions).lookup key
  | _ => none

def Consolidates : EventTransaction → Prop
  | .applyMaterialization m =>
      ∀ key row, m.parts.lookup key = some row → row.lastTimestamp ≤ m.timestamp
  | .clearDeletedAsset _ _ | .deletePartitions _ => True
  | .observe _ => False

end EventTransaction

section Newest

variable (transactions : List EventTransaction)

def newestData : Option DataStamp :=
  newest DataStamp.timestamp (transactions.filterMap dataStamp)

def newestDeletion : Option DeletionStamp :=
  newest DeletionStamp.timestamp (transactions.filterMap deletionStamp)

def newestRow (key : PartitionKey) : Option AssetPartition :=
  newest lastTimestamp (transactions.filterMap (rowAt key))

def newestTombstone (key : PartitionKey) : Option Int :=
  newest id (transactions.filterMap (tombstoneAt key))

end Newest

section Rows

variable {deleted tombstone : WithBot Int} {known : Option AssetPartition} {input : AssetPartition}

def upsertRow (deleted : WithBot Int) (held : Option AssetPartition) (input : AssetPartition) :
    Option AssetPartition :=
  if deleted < (input.lastTimestamp : WithBot Int) then
    some (match held with
      | some held => if input.lastTimestamp < held.lastTimestamp then held else input
      | none => input)
  else held

theorem upsertRow_source {held row} (upserted : upsertRow deleted held input = some row) :
    row = input ∨ held = some row := by
  unfold upsertRow at upserted
  split at upserted
  · grind
  · exact .inr upserted

theorem filter_upsertRow :
    (upsertRow deleted (known.filter (·.outlives deleted tombstone)) input).filter
        (fun row => tombstone < (row.lastTimestamp : WithBot Int)) =
      (newer lastTimestamp known input).filter (·.outlives deleted tombstone) := by
  cases known with
  | none => grind [upsertRow, outlives, newer]
  | some row =>
    rcases le_or_gt row.lastTimestamp input.lastTimestamp with order | older
    · have newerRow : newer lastTimestamp (some row) input = some input := by simp [newer, order]
      rw [newerRow]
      by_cases live : deleted < (input.lastTimestamp : WithBot Int)
      · grind [upsertRow, outlives]
      · have gone : ¬deleted < (row.lastTimestamp : WithBot Int) := fun outlived =>
          live (lt_of_lt_of_le outlived (WithBot.coe_le_coe.mpr order))
        simp [upsertRow, outlives, live, gone, Option.filter]
    · have newerRow : newer lastTimestamp (some row) input = some row := by
        simp [newer, not_le.mpr older]
      rw [newerRow]
      by_cases outlives : row.outlives deleted tombstone = true
      · grind [upsertRow, outlives]
      · by_cases live : deleted < (input.lastTimestamp : WithBot Int)
        · have buried : ¬tombstone < (input.lastTimestamp : WithBot Int) := by
            intro newerInput
            have below : (input.lastTimestamp : WithBot Int) < row.lastTimestamp :=
              WithBot.coe_lt_coe.mpr older
            exact outlives (decide_eq_true ⟨live.trans below, newerInput.trans below⟩)
          simp [upsertRow, outlives, live, buried, Option.filter]
        · simp [upsertRow, outlives, live, Option.filter]

end Rows

namespace Materialization

variable {materialization : Materialization} {tables : AssetTables} {oldest : Int}
  {key : PartitionKey} {row : AssetPartition}

theorem mem_timestamps (found : materialization.parts.lookup key = some row) :
    row.lastTimestamp ∈ materialization.timestamps := by
  refine Finset.mem_biUnion.mpr ⟨key, ?_, by simp [found]⟩
  exact Finmap.mem_keys.mpr (Finmap.mem_of_lookup_eq_some found)

theorem oldest_le (isOldest : materialization.oldest = some oldest)
    (found : materialization.parts.lookup key = some row) : oldest ≤ row.lastTimestamp := by
  unfold Materialization.oldest minimum? at isOldest
  split at isOldest
  · cases isOldest
    exact Finset.min'_le _ _ (mem_timestamps found)
  · cases isOldest

theorem lookup_of_oldest_eq_none (absent : materialization.oldest = none) (key : PartitionKey) :
    materialization.parts.lookup key = none := by
  cases found : materialization.parts.lookup key with
  | none => rfl
  | some row =>
    unfold Materialization.oldest minimum? at absent
    split at absent
    · cases absent
    · rename_i empty
      exact absurd ⟨_, mem_timestamps found⟩ empty

theorem lookup_live (isOldest : materialization.oldest = some oldest) :
    (materialization.live tables oldest).lookup key =
      (materialization.parts.lookup key).filter fun row =>
        tables.lastDeletionTimestamp < (row.lastTimestamp : WithBot Int) := by
  unfold live
  split
  · exact lookup_retain _ _ _
  · rename_i newer
    cases found : materialization.parts.lookup key with
    | none => rfl
    | some row =>
      have order : (oldest : WithBot Int) ≤ row.lastTimestamp :=
        WithBot.coe_le_coe.mpr (oldest_le isOldest found)
      grind

theorem lookup_upserted (isOldest : materialization.oldest = some oldest)
    (heldBound : ∀ held, tables.partitions.lookup key = some held →
      (held.lastTimestamp : WithBot Int) ≤ tables.lastTimestamp) :
    (if (oldest : WithBot Int) < tables.lastTimestamp then
        extend tables.partitions (tables.guarded (materialization.live tables oldest))
      else extend tables.partitions (materialization.live tables oldest)).lookup key =
      match materialization.parts.lookup key with
      | some input => upsertRow tables.lastDeletionTimestamp (tables.partitions.lookup key) input
      | none => tables.partitions.lookup key := by
  have live := @lookup_live materialization tables oldest key isOldest
  have guarded : (tables.guarded (materialization.live tables oldest)).lookup key =
      ((materialization.live tables oldest).lookup key).map fun input =>
        match tables.partitions.lookup key with
        | some held => if input.lastTimestamp < held.lastTimestamp then held else input
        | none => input := lookup_collect_keys _ _ _
  cases found : materialization.parts.lookup key with
  | none =>
    rw [found, Option.filter_none] at live
    split <;> simp [lookup_extend, guarded, live]
  | some input =>
    rw [found] at live
    have order := oldest_le isOldest found
    by_cases isLive : tables.lastDeletionTimestamp < (input.lastTimestamp : WithBot Int)
    · rw [Option.filter_some, if_pos (decide_eq_true isLive)] at live
      split
      · simp [lookup_extend, guarded, live, upsertRow, isLive]
      · rename_i fast
        have replaced : ∀ held, tables.partitions.lookup key = some held →
            ¬input.lastTimestamp < held.lastTimestamp := by
          intro held isHeld
          have bound := (heldBound held isHeld).trans (not_lt.mp fast)
          rw [WithBot.coe_le_coe] at bound
          omega
        grind [lookup_extend, upsertRow]
    · rw [Option.filter_some, if_neg (by simpa using isLive)] at live
      split <;> simp [lookup_extend, guarded, live, upsertRow, isLive]

theorem lookup_upsertAssetPartitions {known} (isOldest : materialization.oldest = some oldest)
    (heldBound : ∀ held, tables.partitions.lookup key = some held →
      (held.lastTimestamp : WithBot Int) ≤ tables.lastTimestamp)
    (held : tables.partitions.lookup key = known.filter (·.outlives tables.lastDeletionTimestamp
      (latest id (tables.tombstones.lookup key)))) :
    (materialization.upsertAssetPartitions tables oldest).lookup key =
      ((materialization.parts.lookup key).elim known
        (newer lastTimestamp known)).filter (·.outlives tables.lastDeletionTimestamp
          (latest id (tables.tombstones.lookup key))) := by
  rw [upsertAssetPartitions, lookup_retain, lookup_upserted isOldest heldBound]
  cases found : materialization.parts.lookup key with
  | none => grind [Finmap.lookup_eq_none, Option.filter_filter]
  | some input =>
    have present : key ∈ materialization.parts := Finmap.mem_of_lookup_eq_some found
    have order := oldest_le isOldest found
    rw [Option.elim_some, ← filter_upsertRow, ← held]
    dsimp only
    cases upserted : upsertRow tables.lastDeletionTimestamp (tables.partitions.lookup key)
      input with
    | none => simp
    | some row =>
      have newEnough : oldest ≤ row.lastTimestamp ∨
          latest id (tables.tombstones.lookup key) < (row.lastTimestamp : WithBot Int) := by
        grind [upsertRow_source, Option.filter_eq_some_iff, outlives]
      rw [Option.filter_some, Option.filter_some]
      refine if_congr ?_ rfl rfl
      cases tombstone : tables.tombstones.lookup key with
      | none => simp
      | some deleted =>
        simp only [tombstone, latest_some, id_eq, WithBot.coe_lt_coe] at newEnough ⊢
        grind

end Materialization

section Data

variable {tables : AssetTables} {deleted : Option DeletionStamp} {materialized : Option DataStamp}

theorem settled_of_materialized
    (newer : latest DeletionStamp.timestamp deleted < latest DataStamp.timestamp materialized) :
    AssetData.settled deleted materialized =
      ⟨materialized.map (·.eventId), materialized.map (·.runId),
        latest DataStamp.timestamp materialized, materialized.bind (·.dataVersion)⟩ :=
  if_pos newer

theorem settled_of_deleted
    (newer : ¬latest DeletionStamp.timestamp deleted < latest DataStamp.timestamp materialized) :
    AssetData.settled deleted materialized = ⟨deleted.map (·.eventId), none, ⊥, none⟩ :=
  if_neg newer

theorem data_updateData {materialization : Materialization}
    (deletion : tables.lastDeletionTimestamp = latest DeletionStamp.timestamp deleted)
    (data : tables.data = .settled deleted materialized) :
    (materialization.updateData tables).data =
      .settled deleted (newer DataStamp.timestamp materialized ⟨materialization.eventId,
        materialization.runId, materialization.timestamp, materialization.dataVersion⟩) := by
  have ts : tables.lastTimestamp = (AssetData.settled deleted materialized).timestamp := by
    rw [← data]
    rfl
  rw [newer_eq, Materialization.updateData, deletion, ts]
  by_cases live : latest DeletionStamp.timestamp deleted < (materialization.timestamp : WithBot Int)
  · by_cases replaced : latest DataStamp.timestamp materialized ≤
      (materialization.timestamp : WithBot Int)
    · have takes : (AssetData.settled deleted materialized).timestamp ≤
        (materialization.timestamp : WithBot Int) := by
        unfold AssetData.settled
        split
        · exact replaced
        · exact bot_le
      rw [if_pos ⟨takes, live⟩, if_pos replaced, settled_of_materialized (by simpa using live)]
      rfl
    · grind [settled_of_materialized]
  · grind [AssetData.settled, latest]

theorem data_clearDeletedAsset {eventId deletedAt}
    (deletion : tables.lastDeletionTimestamp = latest DeletionStamp.timestamp deleted)
    (data : tables.data = .settled deleted materialized) :
    (tables.clearDeletedAsset eventId deletedAt).data =
      .settled (newer DeletionStamp.timestamp deleted ⟨eventId, deletedAt⟩) materialized := by
  have ts : tables.lastTimestamp = (AssetData.settled deleted materialized).timestamp := by
    rw [← data]
    rfl
  have shape : (tables.clearDeletedAsset eventId deletedAt).data =
      if tables.lastTimestamp ≤ (deletedAt : WithBot Int) ∧
          tables.lastDeletionTimestamp ≤ (deletedAt : WithBot Int) then
        ⟨some eventId, none, ⊥, none⟩
      else tables.data := by
    unfold AssetTables.clearDeletedAsset
    dsimp only
    split <;> rfl
  rw [shape, newer_eq, deletion, ts]
  dsimp only
  by_cases last : latest DeletionStamp.timestamp deleted ≤ (deletedAt : WithBot Int)
  · rw [if_pos last]
    by_cases newest : (deletedAt : WithBot Int) < latest DataStamp.timestamp materialized
    · grind [latest, AssetData.settled]
    · have takes : (AssetData.settled deleted materialized).timestamp ≤
        (deletedAt : WithBot Int) := by
        unfold AssetData.settled
        split
        · exact not_lt.mp newest
        · exact bot_le
      rw [if_pos ⟨takes, last⟩, settled_of_deleted (by simpa using newest)]
      rfl
  · rw [if_neg last, if_neg fun both => last both.2]
    exact data

end Data

structure Reflects (transactions : List EventTransaction) (tables : AssetTables) : Prop where
  deletion : tables.lastDeletionTimestamp = latest DeletionStamp.timestamp
    (newestDeletion transactions)
  data : tables.data = .settled (newestDeletion transactions) (newestData transactions)
  tombstones : ∀ key, tables.tombstones.lookup key = newestTombstone transactions key
  partitions : ∀ key, tables.partitions.lookup key =
    (newestRow transactions key).filter
      (·.outlives (latest DeletionStamp.timestamp (newestDeletion transactions))
      (latest id (newestTombstone transactions key)))

namespace Reflects

variable {transactions : List EventTransaction} {tables : AssetTables}

theorem registered : Reflects [] {} := by
  refine ⟨rfl, ?_, fun key => ?_, fun key => ?_⟩
  · rw [settled_of_deleted (by simp [newestDeletion, newestData])]
    rfl
  · simp [newestTombstone]
  · simp [newestRow]

theorem newestRow_le (consolidates : ∀ txn ∈ transactions, txn.Consolidates) {key row}
    (found : newestRow transactions key = some row) :
    (row.lastTimestamp : WithBot Int) ≤ latest DataStamp.timestamp (newestData transactions) := by
  obtain ⟨mem, -⟩ := newest_spec found
  obtain ⟨txn, isTransaction, isRow⟩ := List.mem_filterMap.mp mem
  cases txn with
  | applyMaterialization m =>
    have order := consolidates _ isTransaction key row isRow
    have stamped : DataStamp.mk m.eventId m.runId m.timestamp m.dataVersion ∈
        transactions.filterMap dataStamp := List.mem_filterMap.mpr ⟨_, isTransaction, rfl⟩
    have newest : (m.timestamp : WithBot Int) ≤
        latest DataStamp.timestamp (newestData transactions) :=
      @le_latest_newest _ _ _ DataStamp.timestamp _ _ stamped
    exact (WithBot.coe_le_coe.mpr order).trans newest
  | _ => cases isRow

theorem held_le (reflects : Reflects transactions tables)
    (consolidates : ∀ txn ∈ transactions, txn.Consolidates) {key held}
    (found : tables.partitions.lookup key = some held) :
    (held.lastTimestamp : WithBot Int) ≤ tables.lastTimestamp := by
  rw [reflects.partitions, Option.filter_eq_some_iff] at found
  obtain ⟨isNewest, outlives⟩ := found
  have bound := newestRow_le consolidates isNewest
  have newest := (of_decide_eq_true outlives).1.trans_le bound
  have ts : tables.lastTimestamp = tables.data.timestamp := rfl
  rw [ts, reflects.data, settled_of_materialized newest]
  exact bound

theorem applyMaterialization (reflects : Reflects transactions tables)
    (consolidates : ∀ txn ∈ transactions, txn.Consolidates) (m : Materialization) :
    Reflects (transactions ++ [.applyMaterialization m]) (m.apply tables) := by
  have sameDeletion : newestDeletion (transactions ++ [.applyMaterialization m]) =
      newestDeletion transactions :=
    newest_filterMap_snoc _ _ _
  have sameTombstone (key : PartitionKey) :
      newestTombstone (transactions ++ [.applyMaterialization m]) key =
        newestTombstone transactions key :=
    newest_filterMap_snoc _ _ _
  have updated : (m.apply tables).data = (m.updateData tables).data := rfl
  have kept : (m.updateData tables).lastDeletionTimestamp = tables.lastDeletionTimestamp ∧
      (m.updateData tables).tombstones = tables.tombstones := by
    unfold Materialization.updateData
    split <;> exact ⟨rfl, rfl⟩
  refine ⟨?_, ?_, fun key => ?_, fun key => ?_⟩
  · rw [sameDeletion, ← reflects.deletion]
    exact kept.1
  · grind [newest_filterMap_snoc, data_updateData, newestData, dataStamp, Reflects]
  · rw [sameTombstone, ← reflects.tombstones]
    exact congrArg _ kept.2
  · have held := reflects.partitions key
    rw [← reflects.deletion, ← reflects.tombstones] at held
    have newRow : newestRow (transactions ++ [.applyMaterialization m]) key =
        (m.parts.lookup key).elim (newestRow transactions key)
          (newer lastTimestamp (newestRow transactions key)) := newest_filterMap_snoc _ _ _
    rw [sameDeletion, sameTombstone, ← reflects.deletion, ← reflects.tombstones, newRow]
    unfold Materialization.apply
    dsimp only
    split
    · grind [Materialization.lookup_upsertAssetPartitions, held_le]
    · rename_i none
      rw [Materialization.lookup_of_oldest_eq_none none key]
      exact held

theorem clearDeletedAsset (reflects : Reflects transactions tables) (eventId : String)
    (deletedAt : Int) :
    Reflects (transactions ++ [.clearDeletedAsset eventId deletedAt])
      (tables.clearDeletedAsset eventId deletedAt) := by
  have newDeletion : newestDeletion (transactions ++ [.clearDeletedAsset eventId deletedAt]) =
      newer DeletionStamp.timestamp (newestDeletion transactions) ⟨eventId, deletedAt⟩ :=
    newest_filterMap_snoc _ _ _
  have newTime : latest DeletionStamp.timestamp
      (newestDeletion (transactions ++ [.clearDeletedAsset eventId deletedAt])) =
      max tables.lastDeletionTimestamp (deletedAt : WithBot Int) := by
    rw [newDeletion, latest_newer, reflects.deletion]
  have sameData : newestData (transactions ++ [.clearDeletedAsset eventId deletedAt]) = newestData transactions :=
    newest_filterMap_snoc _ _ _
  have sameTombstone (key : PartitionKey) :
      newestTombstone (transactions ++ [.clearDeletedAsset eventId deletedAt]) key =
        newestTombstone transactions key := newest_filterMap_snoc _ _ _
  have sameRow (key : PartitionKey) :
      newestRow (transactions ++ [.clearDeletedAsset eventId deletedAt]) key = newestRow transactions key :=
    newest_filterMap_snoc _ _ _
  refine ⟨?_, ?_, fun key => ?_, fun key => ?_⟩
  · rw [newTime, AssetTables.clearDeletedAsset, max_comm, max_def_lt]
  · rw [newDeletion, sameData]
    exact data_clearDeletedAsset reflects.deletion reflects.data
  · rw [sameTombstone, ← reflects.tombstones]
    unfold AssetTables.clearDeletedAsset
    dsimp only
    split <;> rfl
  · rw [newTime, sameTombstone, sameRow, AssetTables.clearDeletedAsset, lookup_retain, reflects.partitions,
      ← reflects.deletion, Option.filter_filter]
    refine congrArg (Option.filter · _) (funext fun row => ?_)
    rw [Bool.eq_iff_iff]
    simp only [AssetPartition.outlives, Bool.and_eq_true, decide_eq_true_eq, max_lt_iff, WithBot.coe_lt_coe]
    tauto

theorem deletePartitions (reflects : Reflects transactions tables)
    (dels : List (PartitionKey × Int)) :
    Reflects (transactions ++ [.deletePartitions dels]) (tables.deletePartitions dels) := by
  have sameDeletion : newestDeletion (transactions ++ [.deletePartitions dels]) =
      newestDeletion transactions :=
    newest_filterMap_snoc _ _ _
  have sameData : newestData (transactions ++ [.deletePartitions dels]) = newestData transactions :=
    newest_filterMap_snoc _ _ _
  have sameRow (key : PartitionKey) :
      newestRow (transactions ++ [.deletePartitions dels]) key = newestRow transactions key :=
    newest_filterMap_snoc _ _ _
  have newTombstone (key : PartitionKey) : newestTombstone
      (transactions ++ [.deletePartitions dels]) key =
      ((insertMaxAll ∅ dels).lookup key).elim (newestTombstone transactions key)
        (newer id (newestTombstone transactions key)) := newest_filterMap_snoc _ _ _
  refine ⟨?_, ?_, fun key => ?_, fun key => ?_⟩
  · rw [sameDeletion]
    exact reflects.deletion
  · rw [sameDeletion, sameData]
    exact reflects.data
  · rw [newTombstone, AssetTables.deletePartitions, lookup_extend, AssetTables.recorded,
      lookup_collect_keys, reflects.tombstones]
    cases (insertMaxAll ∅ dels).lookup key with
    | none => simp
    | some input => grind [newer]
  · rw [sameDeletion, sameRow, newTombstone, AssetTables.deletePartitions, lookup_retain,
      reflects.partitions, Option.filter_filter]
    refine congrArg (Option.filter · _) (funext fun row => ?_)
    cases (insertMaxAll ∅ dels).lookup key with
    | none => simp
    | some input =>
      rw [Bool.eq_iff_iff]
      simp only [outlives, Option.elim_some, Option.any_some, latest_newer, Bool.and_eq_true,
        Bool.not_eq_true', decide_eq_false_iff_not, decide_eq_true_eq, max_lt_iff, not_le, id_eq,
        WithBot.coe_lt_coe]
      tauto

theorem step (reflects : Reflects transactions tables)
    (consolidates : ∀ txn ∈ transactions, txn.Consolidates) {txn}
    (next : txn.Consolidates) : Reflects (transactions ++ [txn]) (txn.apply tables) := by
  cases txn with
  | applyMaterialization m => exact reflects.applyMaterialization consolidates m
  | clearDeletedAsset eventId deletedAt => exact reflects.clearDeletedAsset eventId deletedAt
  | deletePartitions dels => exact reflects.deletePartitions dels
  | observe event => exact next.elim

theorem run (consolidates : ∀ txn ∈ transactions, txn.Consolidates) :
    Reflects transactions (transactions.foldl apply {}) := by
  induction transactions using List.reverseRecOn with
  | nil => exact registered
  | append_singleton transactions txn ih => grind [step]

end Reflects

end Rivers

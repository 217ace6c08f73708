import Rivers.Pass.DispatchCore

/-! Recovery of a crashed tick, from `recover_pending_dispatch`. -/

namespace Rivers

open FiniteMap

structure StoredBackfill where
  backfillId : String
  createTime : Int
  assetSelection : List String
  deriving DecidableEq

structure StoredDispatch where
  runIds : Finset String
  backfills : List StoredBackfill

def StoredDispatch.shows (stored : StoredDispatch) (tickTimestamp : Int)
    (entry : PendingDispatchEntry) : Bool :=
  if entry.runIds ≠ [] then entry.runIds.any (· ∈ stored.runIds)
  else if entry.backfillIds ≠ [] then
    entry.backfillIds.any fun id => stored.backfills.any fun backfill => backfill.backfillId = id
  else
    -- an intent without minted ids falls back to the time a backfill was created
    stored.backfills.any fun backfill =>
      tickTimestamp ≤ backfill.createTime && backfill.assetSelection.contains entry.assetKey

def PendingDispatchEntry.isStale (entry : PendingDispatchEntry) (tickTimestamp : Int)
    (assets : HashMap String AssetConditionState) : Bool :=
  match (assets.lookup entry.assetKey).bind (·.lastTickTimestamp) with
  | some lastTick => tickTimestamp ≤ lastTick
  | none => false

/-- The committed scalars over the partition state of the slot, with the dispatched keys marked. -/
def PendingDispatchEntry.splice (entry : PendingDispatchEntry) (slot : AssetConditionState) :
    AssetConditionState :=
  { entry.committed with
    partitionState :=
      if entry.dispatchedKeys = ∅ then slot.partitionState
      else
        let partitions := slot.partitionState.getD {}
        some { partitions with handled := partitions.handled ∪ entry.dispatchedKeys } }

def recoverEntry (stored : StoredDispatch) (tickTimestamp : Int)
    (assets : HashMap String AssetConditionState) (entry : PendingDispatchEntry) :
    HashMap String AssetConditionState :=
  if entry.isStale tickTimestamp assets then assets
  else if stored.shows tickTimestamp entry then
    assets.insert entry.assetKey (entry.splice (getD assets entry.assetKey {}))
  else assets

def recoverPendingDispatch (evalState : ConditionEvalState) (pending : PendingDispatch)
    (stored : StoredDispatch) : ConditionEvalState :=
  if pending.entries = [] then evalState
  else
    { evalState with
      isInitial := false
      assets := pending.entries.foldl (recoverEntry stored pending.tickTimestamp) evalState.assets }

end Rivers

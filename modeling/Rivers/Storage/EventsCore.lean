import Rivers.Cache.StorageCore
import Rivers.Lib.IntOrder
import Rivers.Lib.Newest

/-! How `store_event` and `store_events` consolidate the events of one asset. -/

namespace Rivers

open FiniteMap

inductive AssetEventKind where
  | materialization (dataVersion : Option String)
  | observation (dataVersion : Option String)
  | deletion
  | other
  deriving DecidableEq

structure AssetEvent where
  eventId : String
  kind : AssetEventKind
  runId : String
  partitionKey : Option PartitionKey
  timestamp : Int
  inputDataVersions : List (String × String) := []
  deriving DecidableEq

namespace AssetEvent

variable (event : AssetEvent)

def isMaterialization : Bool :=
  match event.kind with
  | .materialization _ => true
  | _ => false

def isObservation : Bool :=
  match event.kind with
  | .observation _ => true
  | _ => false

def isDeletion : Bool :=
  event.kind = .deletion

def dataVersion : Option String :=
  match event.kind with
  | .materialization version | .observation version => version
  | _ => none

end AssetEvent

structure AssetPartition where
  lastEventId : String
  lastRunId : String
  lastTimestamp : Int
  deriving DecidableEq

structure AssetProvenance where
  lastMaterializationCodeVersion : Option String := none
  lastInputDataVersions : List (String × String) := []
  lastProvenanceTimestamp : WithBot Int := ⊥
  deriving DecidableEq

/-- The asset's row and its rows in `asset_partitions` and `asset_partition_deletions`. -/
structure AssetTables where
  lastEventId : Option String := none
  lastRunId : Option String := none
  lastTimestamp : WithBot Int := ⊥
  lastDataVersion : Option String := none
  lastDeletionTimestamp : WithBot Int := ⊥
  partitions : HashMap PartitionKey AssetPartition := ∅
  tombstones : HashMap PartitionKey Int := ∅
  provenance : AssetProvenance := {}
  deriving DecidableEq

structure Materialization where
  eventId : String
  runId : String
  timestamp : Int
  dataVersion : Option String
  provenanceTimestamp : Int
  codeVersion : Option String
  idv : Option (List (String × String))
  fromAction : Bool
  parts : HashMap PartitionKey AssetPartition
  deriving DecidableEq

def AssetTables.guarded (tables : AssetTables) (live : HashMap PartitionKey AssetPartition) :
    HashMap PartitionKey AssetPartition :=
  collect live.keys fun key => (live.lookup key).map fun input =>
    match tables.partitions.lookup key with
    | some held => if input.lastTimestamp < held.lastTimestamp then held else input
    | none => input

namespace Materialization

variable (materialization : Materialization) (tables : AssetTables)

def timestamps : Finset Int :=
  materialization.parts.keys.biUnion fun key =>
    ((materialization.parts.lookup key).map (·.lastTimestamp)).toFinset

def oldest : Option Int :=
  minimum? materialization.timestamps

def live (oldest : Int) : HashMap PartitionKey AssetPartition :=
  if (oldest : WithBot Int) ≤ tables.lastDeletionTimestamp then
    retain materialization.parts fun _ row => tables.lastDeletionTimestamp <
      (row.lastTimestamp : WithBot Int)
  else materialization.parts

/-- `UPSERT_ASSET_PARTITIONS`, with the fast path for a batch no older than the asset's row. -/
def upsertAssetPartitions (oldest : Int) : HashMap PartitionKey AssetPartition :=
  let live := materialization.live tables oldest
  let upserted :=
    if (oldest : WithBot Int) < tables.lastTimestamp then
      extend tables.partitions (tables.guarded live)
    else extend tables.partitions live
  retain upserted fun key row =>
    !(key ∈ materialization.parts && (tables.tombstones.lookup key).any fun deleted =>
      oldest ≤ deleted && row.lastTimestamp ≤ deleted)

def updateData : AssetTables :=
  if tables.lastTimestamp ≤ (materialization.timestamp : WithBot Int) ∧
      tables.lastDeletionTimestamp < (materialization.timestamp : WithBot Int) then
    { tables with
      lastEventId := some materialization.eventId
      lastRunId := some materialization.runId
      lastTimestamp := materialization.timestamp
      lastDataVersion := materialization.dataVersion }
  else tables

/-- `MATERIALIZE_ASSET_PROVENANCE`, keeping the inputs where the event read none, where
`PROVENANCE_IS_NEWER`. -/
def updateProvenance : AssetProvenance :=
  let provenance := tables.provenance
  if materialization.fromAction then provenance
  else if provenance.lastProvenanceTimestamp ≤ (materialization.provenanceTimestamp : WithBot Int) ∧
      tables.lastDeletionTimestamp < (materialization.provenanceTimestamp : WithBot Int) then
    { lastMaterializationCodeVersion := materialization.codeVersion
      lastInputDataVersions := materialization.idv.getD provenance.lastInputDataVersions
      lastProvenanceTimestamp := materialization.provenanceTimestamp }
  else provenance

def apply : AssetTables :=
  let partitions :=
    match materialization.oldest with
    | some oldest => materialization.upsertAssetPartitions tables oldest
    | none => tables.partitions
  { materialization.updateData tables with
    partitions := partitions
    provenance := materialization.updateProvenance tables }

end Materialization

namespace AssetTables

variable (tables : AssetTables)

def clearDeletedAsset (eventId : String) (deletedAt : Int) : AssetTables :=
  let cleared :=
    if tables.lastTimestamp ≤ (deletedAt : WithBot Int) ∧
        tables.lastDeletionTimestamp ≤ (deletedAt : WithBot Int) then
      { tables with
        lastEventId := some eventId
        lastRunId := none
        lastTimestamp := ⊥
        lastDataVersion := none }
    else tables
  { cleared with
    lastDeletionTimestamp :=
      if (deletedAt : WithBot Int) < tables.lastDeletionTimestamp then tables.lastDeletionTimestamp
        else deletedAt
    partitions := retain tables.partitions fun _ row => deletedAt < row.lastTimestamp
    provenance :=
      if tables.provenance.lastProvenanceTimestamp ≤ (deletedAt : WithBot Int) then {}
      else tables.provenance }

def recorded (newest : HashMap PartitionKey Int) : HashMap PartitionKey Int :=
  collect newest.keys fun key => (newest.lookup key).map fun input =>
    match tables.tombstones.lookup key with
    | some timestamp => if timestamp < input then input else timestamp
    | none => input

/-- `delete_partitions`: the rows no newer than their key's newest deletion, and its tombstone. -/
def deletePartitions (deletions : List (PartitionKey × Int)) : AssetTables :=
  let newest := insertMaxAll ∅ deletions
  { tables with
    partitions := retain tables.partitions fun key row =>
      !(newest.lookup key).any fun deletedAt => row.lastTimestamp ≤ deletedAt
    tombstones := extend tables.tombstones (tables.recorded newest) }

def observe (event : AssetEvent) : AssetTables :=
  { tables with
    lastEventId := some event.eventId
    lastTimestamp := event.timestamp
    lastDataVersion := event.dataVersion }

end AssetTables

inductive EventTransaction where
  | applyMaterialization (materialization : Materialization)
  | clearDeletedAsset (eventId : String) (deletedAt : Int)
  | deletePartitions (deletions : List (PartitionKey × Int))
  | observe (event : AssetEvent)
  deriving DecidableEq

def EventTransaction.apply (tables : AssetTables) : EventTransaction → AssetTables
  | .applyMaterialization materialization => materialization.apply tables
  | .clearDeletedAsset eventId deletedAt => tables.clearDeletedAsset eventId deletedAt
  | .deletePartitions deletions => tables.deletePartitions deletions
  | .observe event => tables.observe event

section Stores

variable (codeVersion : Option String) (isAction : String → Bool)

def AssetEvent.partitionRow (event : AssetEvent) : AssetPartition :=
  ⟨event.eventId, event.runId, event.timestamp⟩

def consolidateDeletion (event : AssetEvent) : EventTransaction :=
  match event.partitionKey with
  | some key => .deletePartitions [(key, event.timestamp)]
  | none => .clearDeletedAsset event.eventId event.timestamp

/-- `store_event`; the code version and the runs that are actions are read from other tables. -/
def storeEvent (event : AssetEvent) : List EventTransaction :=
  match event.kind with
  | .materialization dataVersion =>
      [.applyMaterialization
        { eventId := event.eventId
          runId := event.runId
          timestamp := event.timestamp
          dataVersion := dataVersion
          provenanceTimestamp := event.timestamp
          codeVersion := codeVersion
          idv := if event.inputDataVersions = [] then none else some event.inputDataVersions
          fromAction := isAction event.runId
          parts := event.partitionKey.elim ∅ fun key => Finmap.singleton key event.partitionRow }]
  | .observation _ => [.observe event]
  | .deletion => [consolidateDeletion event]
  | .other => []

structure Drained where
  latestMat : Option AssetEvent := none
  latestIdv : Option AssetEvent := none
  partRows : HashMap PartitionKey AssetPartition := ∅

def Drained.addPart (parts : HashMap PartitionKey AssetPartition) (event : AssetEvent) :
    HashMap PartitionKey AssetPartition :=
  match event.partitionKey with
  | none => parts
  | some key =>
      if (parts.lookup key).all fun held => held.lastTimestamp ≤ event.timestamp then
        parts.insert key event.partitionRow
      else parts

def Drained.add (drained : Drained) (event : AssetEvent) : Drained :=
  if event.isMaterialization then
    { latestMat := Newest.newer AssetEvent.timestamp drained.latestMat event
      latestIdv :=
        if event.inputDataVersions = [] then drained.latestIdv
        else Newest.newer AssetEvent.timestamp drained.latestIdv event
      partRows := addPart drained.partRows event }
  else drained

def drain (events : List AssetEvent) : Drained :=
  events.foldl Drained.add {}

def Drained.materialize (drained : Drained) (event : AssetEvent) : EventTransaction :=
  let idv := drained.latestIdv.map (·.inputDataVersions)
  let actionOnly := isAction event.runId && idv.isNone
  .applyMaterialization
    { eventId := event.eventId
      runId := event.runId
      timestamp := event.timestamp
      dataVersion := event.dataVersion
      provenanceTimestamp := drained.latestIdv.elim event.timestamp (·.timestamp)
      codeVersion := if actionOnly then none else codeVersion
      idv := idv
      fromAction := actionOnly
      parts := drained.partRows }

def partDeletes (events : List AssetEvent) : List (PartitionKey × Int) :=
  events.filterMap fun event =>
    if event.isDeletion then event.partitionKey.map fun key => (key, event.timestamp) else none

def wholeDeletes (events : List AssetEvent) : Option AssetEvent :=
  Newest.newest AssetEvent.timestamp
    (events.filter fun event => event.isDeletion && event.partitionKey.isNone)

/-- `store_events`: the newest materialization and the newest partition rows, the observations, and
the newest deletions. -/
def storeEvents (events : List AssetEvent) : List EventTransaction :=
  let drained := drain events
  let partDeletes := partDeletes events
  (drained.latestMat.map (drained.materialize codeVersion isAction)).toList ++
    (events.filter (·.isObservation)).map .observe ++
    ((wholeDeletes events).map consolidateDeletion).toList ++
    (if partDeletes = [] then [] else [.deletePartitions partDeletes])

end Stores

end Rivers

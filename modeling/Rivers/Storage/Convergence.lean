import Rivers.Storage.Consolidation

/-! Single and batched stores of the same events leave the same tables. -/

namespace Rivers

open FiniteMap Newest AssetEvent Drained AssetPartition

namespace AssetEvent

variable (event : AssetEvent)

def dataStamp : Option DataStamp :=
  if event.isMaterialization then
    some ⟨event.eventId, event.runId, event.timestamp, event.dataVersion⟩
  else none

def deletionStamp : Option DeletionStamp :=
  if event.isDeletion ∧ event.partitionKey = none then some ⟨event.eventId, event.timestamp⟩
  else none

def rowAt (key : PartitionKey) : Option AssetPartition :=
  if event.isMaterialization ∧ event.partitionKey = some key then some event.partitionRow else none

def tombstoneAt (key : PartitionKey) : Option Int :=
  if event.isDeletion ∧ event.partitionKey = some key then some event.timestamp else none

end AssetEvent

section Drain

variable {events : List AssetEvent} {event : AssetEvent} {key : PartitionKey}

theorem drain_snoc (events : List AssetEvent) (event : AssetEvent) :
    drain (events ++ [event]) = (drain events).add event := by
  rw [drain, List.foldl_append]
  rfl

theorem latestMat_drain :
    (drain events).latestMat = newest timestamp (events.filter (·.isMaterialization)) := by
  induction events using List.reverseRecOn with
  | nil => rfl
  | append_singleton events event ih => grind [drain, newest, add]

theorem lookup_partRows :
    (drain events).partRows.lookup key = newest lastTimestamp (events.filterMap (·.rowAt key)) := by
  induction events using List.reverseRecOn with
  | nil => rfl
  | append_singleton events event ih =>
    rw [drain_snoc, newest_filterMap_snoc, ← ih, add, rowAt]
    cases isMat : event.isMaterialization with
    | false => simp
    | true =>
      cases isKey : event.partitionKey with
      | none => simp [addPart, isKey]
      | some other =>
        by_cases same : other = key
        · subst same
          cases held : (drain events).partRows.lookup other with
          | none => simp [addPart, isKey, held, newer]
          | some row => grind [Finmap.lookup_insert, newer, addPart, partitionRow]
        · grind [Finmap.lookup_insert_of_ne, addPart]

theorem lookup_insertMaxAll_newest (ents : List (PartitionKey × Int)) :
    (insertMaxAll ∅ ents).lookup key =
      newest id (ents.filterMap fun entry => if entry.1 = key then some entry.2 else none) := by
  induction ents using List.reverseRecOn with
  | nil => rfl
  | append_singleton ents entry ih =>
    have inserted : insertMaxAll ∅ (ents ++ [entry]) = insertMax (insertMaxAll ∅ ents)
      entry.1 entry.2 := by
      simp [insertMaxAll, List.foldl_append]
    rw [newest_filterMap_snoc, ← ih, inserted, insertMax]
    by_cases same : entry.1 = key
    · subst same
      rw [Finmap.lookup_insert, if_pos rfl, Option.elim_some]
      cases (insertMaxAll ∅ ents).lookup entry.1 with
      | none => rfl
      | some held => grind [newer]
    · rw [Finmap.lookup_insert_of_ne _ (Ne.symm same), if_neg same, Option.elim_none]

end Drain

structure Kept {Stamp : Type} (time : Stamp → Int) (ofTransaction : EventTransaction → Option Stamp)
    (ofEvent : AssetEvent → Option Stamp) : Prop where
  timed : ∀ event stamp, ofEvent event = some stamp → time stamp = event.timestamp
  single : ∀ codeVersion isAction event,
    (storeEvent codeVersion isAction event).filterMap ofTransaction = (ofEvent event).toList
  batch : ∀ codeVersion isAction events, (storeEvents codeVersion isAction events).filterMap
    ofTransaction =
    (newest time (events.filterMap ofEvent)).toList

section Kept

variable {codeVersion : Option String} {isAction : String → Bool}

theorem filterMap_storeEvents {Stamp : Type} {stamp : EventTransaction → Option Stamp}
    (unobserved : ∀ event, stamp (.observe event) = none) (events : List AssetEvent) :
    (storeEvents codeVersion isAction events).filterMap stamp =
      ((drain events).latestMat.bind fun event =>
          stamp ((drain events).materialize codeVersion isAction event)).toList ++
        ((wholeDeletes events).bind fun event => stamp (consolidateDeletion event)).toList ++
        (if partDeletes events = [] then []
          else (stamp (.deletePartitions (partDeletes events))).toList) := by
  have single (txn : EventTransaction) : [txn].filterMap stamp = (stamp txn).toList := by
    cases found : stamp txn <;> simp [found]
  have optional (found : Option AssetEvent) (ofEvent : AssetEvent → EventTransaction) :
      (found.map ofEvent).toList.filterMap stamp =
        (found.bind fun event => stamp (ofEvent event)).toList := by
    cases found with
    | none => rfl
    | some event => exact single (ofEvent event)
  have none : ((events.filter (·.isObservation)).map EventTransaction.observe).filterMap stamp =
    [] := by
    simp [List.filterMap_map, unobserved]
  simp only [storeEvents, List.filterMap_append, optional, none, List.append_nil]
  split <;> simp [single]

theorem kept_data : Kept DataStamp.timestamp EventTransaction.dataStamp dataStamp := by
  have timed : ∀ (event : AssetEvent) stamp, event.dataStamp = some stamp →
    stamp.timestamp = event.timestamp := by
    simp [dataStamp]
  have isSome (event : AssetEvent) : event.dataStamp.isSome = event.isMaterialization := by
    unfold dataStamp
    split <;> simp_all
  have dels (event : AssetEvent) : (consolidateDeletion event).dataStamp = none := by
    unfold consolidateDeletion
    split <;> rfl
  refine ⟨timed, fun codeVersion isAction event => ?_, fun codeVersion isAction events => ?_⟩
  · grind [EventTransaction.dataStamp, storeEvent, dataStamp, isMaterialization, dataVersion]
  · rw [filterMap_storeEvents fun _ => rfl, newest_filterMap timed, latestMat_drain]
    simp only [isSome, dels]
    have rest : (if partDeletes events = [] then [] else
        (EventTransaction.dataStamp (.deletePartitions (partDeletes events))).toList) = [] := by
      split <;> rfl
    rw [rest]
    cases found : newest timestamp (events.filter (·.isMaterialization)) with
    | none => simp
    | some event =>
      have isMat : event.isMaterialization = true := (List.mem_filter.mp (newest_spec found).1).2
      simp [materialize, EventTransaction.dataStamp, dataStamp, isMat]

theorem kept_deletion :
    Kept DeletionStamp.timestamp EventTransaction.deletionStamp deletionStamp := by
  have timed : ∀ (event : AssetEvent) stamp, event.deletionStamp = some stamp →
      stamp.timestamp = event.timestamp := by simp [deletionStamp]
  have isSome (event : AssetEvent) : event.deletionStamp.isSome =
    (event.isDeletion && event.partitionKey.isNone) := by
    unfold deletionStamp
    rw [Bool.eq_iff_iff]
    split <;> simp_all
  have dels (event : AssetEvent) (isDeletion : event.isDeletion = true) :
      (consolidateDeletion event).deletionStamp = event.deletionStamp := by
    grind [EventTransaction.deletionStamp, consolidateDeletion, deletionStamp]
  refine ⟨timed, fun codeVersion isAction event => ?_, fun codeVersion isAction events => ?_⟩
  · cases kind : event.kind with
    | deletion =>
      have isDeletion : event.isDeletion = true := by simp [isDeletion, kind]
      cases stamped : event.deletionStamp <;> simp [storeEvent, kind, dels event isDeletion,
        stamped]
    | _ => simp [storeEvent, deletionStamp, isDeletion, kind, EventTransaction.deletionStamp]
  · rw [filterMap_storeEvents fun _ => rfl, newest_filterMap timed]
    simp only [isSome]
    have first : ((drain events).latestMat.bind fun event =>
        ((drain events).materialize codeVersion isAction event).deletionStamp) = none := by
      cases (drain events).latestMat <;> rfl
    have rest : (if partDeletes events = [] then [] else
        (EventTransaction.deletionStamp (.deletePartitions (partDeletes events))).toList) = [] := by
      split <;> rfl
    rw [first, rest, wholeDeletes]
    cases found : newest timestamp
        (events.filter fun event => event.isDeletion && event.partitionKey.isNone) with
    | none => simp
    | some event =>
      have covers := (List.mem_filter.mp (newest_spec found).1).2
      rw [Bool.and_eq_true] at covers
      simp [dels event covers.1]

theorem kept_row (key : PartitionKey) :
    Kept lastTimestamp (EventTransaction.rowAt key) (·.rowAt key) := by
  have timed : ∀ (event : AssetEvent) row, event.rowAt key = some row → row.lastTimestamp =
    event.timestamp := by
    simp [rowAt, partitionRow]
  have deletions (event : AssetEvent) : (consolidateDeletion event).rowAt key = none := by
    unfold consolidateDeletion
    split <;> rfl
  refine ⟨timed, fun codeVersion isAction event => ?_, fun codeVersion isAction events => ?_⟩
  · cases kind : event.kind with
    | deletion => simp [storeEvent, rowAt, isMaterialization, kind, deletions]
    | materialization version =>
      cases isKey : event.partitionKey with
      | none => simp [storeEvent, rowAt, kind, isKey, EventTransaction.rowAt]
      | some other =>
        by_cases same : other = key
        · subst same
          simp [storeEvent, rowAt, isMaterialization, kind, isKey, EventTransaction.rowAt]
        · grind [Finmap.lookup_eq_none, Finmap.mem_singleton, EventTransaction.rowAt,
            storeEvent, rowAt]
    | _ => simp [storeEvent, rowAt, isMaterialization, kind, EventTransaction.rowAt]
  · have none : ((wholeDeletes events).bind fun event => (consolidateDeletion event).rowAt key) =
      none := by
      cases wholeDeletes events <;> simp [deletions]
    have rest : (if partDeletes events = [] then [] else
        (EventTransaction.rowAt key (.deletePartitions (partDeletes events))).toList) = [] := by
      split <;> rfl
    rw [filterMap_storeEvents fun _ => rfl, none, rest, Option.toList_none, List.append_nil,
      List.append_nil]
    cases found : (drain events).latestMat with
    | none =>
      grind [List.filterMap_eq_nil_iff, List.filter_eq_nil_iff, newest_eq_none_iff,
        latestMat_drain, rowAt]
    | some event => exact congrArg Option.toList lookup_partRows

theorem kept_tombstone (key : PartitionKey) :
    Kept id (EventTransaction.tombstoneAt key) (·.tombstoneAt key) := by
  have timed : ∀ (event : AssetEvent) time, event.tombstoneAt key = some time →
    id time = event.timestamp := by
    simp [tombstoneAt]
  have recorded (ents : List (PartitionKey × Int)) : EventTransaction.tombstoneAt key
      (.deletePartitions ents) =
      newest id (ents.filterMap fun entry => if entry.1 = key then some entry.2 else none) :=
    lookup_insertMaxAll_newest ents
  refine ⟨timed, fun codeVersion isAction event => ?_, fun codeVersion isAction events => ?_⟩
  · cases kind : event.kind with
    | deletion =>
      cases isKey : event.partitionKey with
      | none =>
        simp [storeEvent, consolidateDeletion, tombstoneAt, kind, isKey,
          EventTransaction.tombstoneAt]
      | some other =>
        by_cases same : other = key <;>
          simp [storeEvent, consolidateDeletion, tombstoneAt, isDeletion, kind, isKey,
            recorded, same]
    | _ => simp [storeEvent, tombstoneAt, isDeletion, kind, EventTransaction.tombstoneAt]
  · have first : ((drain events).latestMat.bind fun event =>
        ((drain events).materialize codeVersion isAction event).tombstoneAt key) = none := by
      cases (drain events).latestMat <;> rfl
    have whole : ((wholeDeletes events).bind fun event => (consolidateDeletion event).tombstoneAt
      key) = none := by
      cases found : wholeDeletes events with
      | none => rfl
      | some event =>
        have covers := (List.mem_filter.mp (newest_spec found).1).2
        grind [EventTransaction.tombstoneAt, consolidateDeletion]
    have sameTimes : (partDeletes events).filterMap (fun entry => if entry.1 = key then some entry.2
        else none) =
        events.filterMap (·.tombstoneAt key) := by
      rw [partDeletes, List.filterMap_filterMap]
      refine List.filterMap_congr fun event _ => ?_
      cases isDeletion : event.isDeletion <;> cases isKey : event.partitionKey <;>
        simp [tombstoneAt, isDeletion, isKey]
    grind [filterMap_storeEvents, EventTransaction.tombstoneAt, newest]

end Kept

inductive EventStore where
  | single (codeVersion : Option String) (isAction : String → Bool) (event : AssetEvent)
  | batch (codeVersion : Option String) (isAction : String → Bool) (events : List AssetEvent)

namespace EventStore

def events : EventStore → List AssetEvent
  | .single _ _ event => [event]
  | .batch _ _ events => events

def transactions : EventStore → List EventTransaction
  | .single codeVersion isAction event => storeEvent codeVersion isAction event
  | .batch codeVersion isAction events => storeEvents codeVersion isAction events

end EventStore

section Convergence

variable {events : List AssetEvent} {stores : List EventStore}
  {transactions : List EventTransaction}

structure Committed (events : List AssetEvent) (stores : List EventStore)
    (transactions : List EventTransaction) :
    Prop where
  ofEvents : ∀ store ∈ stores, ∀ event ∈ store.events, event ∈ events
  fromStores : ∀ transaction ∈ transactions, ∃ store ∈ stores, transaction ∈ store.transactions
  completed : ∀ event ∈ events, ∃ store ∈ stores, event ∈ store.events ∧
    ∀ transaction ∈ store.transactions, transaction ∈ transactions

namespace Kept

variable {Stamp : Type} {time : Stamp → Int} {ofTransaction : EventTransaction → Option Stamp}
  {ofEvent : AssetEvent → Option Stamp} {store : EventStore} {stamp : Stamp} {event : AssetEvent}

theorem source (kept : Kept time ofTransaction ofEvent)
    (stamped : stamp ∈ store.transactions.filterMap ofTransaction) :
    ∃ event ∈ store.events, ofEvent event = some stamp := by
  cases store with
  | single codeVersion isAction event =>
    rw [EventStore.transactions, kept.single, Option.mem_toList] at stamped
    exact ⟨event, List.mem_singleton_self event, stamped⟩
  | batch codeVersion isAction events =>
    rw [EventStore.transactions, kept.batch, Option.mem_toList] at stamped
    exact List.mem_filterMap.mp (newest_spec stamped).1

theorem dominates (kept : Kept time ofTransaction ofEvent) (mem : event ∈ store.events)
    (isStamp : ofEvent event = some stamp) :
    ∃ other ∈ store.transactions.filterMap ofTransaction, time stamp ≤ time other := by
  cases store with
  | single codeVersion isAction only => grind [EventStore.transactions, Kept, EventStore.events]
  | batch codeVersion isAction events =>
    have stamped : stamp ∈ events.filterMap ofEvent := List.mem_filterMap.mpr ⟨event, mem, isStamp⟩
    rw [EventStore.transactions, kept.batch]
    cases found : newest time (events.filterMap ofEvent) with
    | none => simp [newest_eq_none_iff.mp found] at stamped
    | some other => exact ⟨other, by simp, (newest_spec found).2 stamp stamped⟩

theorem newest_eq (kept : Kept time ofTransaction ofEvent)
    (dist : ∀ left ∈ events, ∀ right ∈ events, left.timestamp = right.timestamp → left = right)
    (committed : Committed events stores transactions) :
    newest time (transactions.filterMap ofTransaction) =
      newest time (events.filterMap ofEvent) := by
  refine newest_congr ?_ ?_ ?_
  · grind [timed]
  · intro stamp mem
    obtain ⟨txn, isTransaction, stamped⟩ := List.mem_filterMap.mp mem
    obtain ⟨store, isStore, inStore⟩ := committed.fromStores txn isTransaction
    obtain ⟨event, isEvent, isStamp⟩ := kept.source (List.mem_filterMap.mpr ⟨txn, inStore, stamped⟩)
    exact List.mem_filterMap.mpr ⟨event, committed.ofEvents store isStore event isEvent, isStamp⟩
  · intro stamp mem
    obtain ⟨event, isEvent, isStamp⟩ := List.mem_filterMap.mp mem
    obtain ⟨store, -, inStore, all⟩ := committed.completed event isEvent
    obtain ⟨other, isOther, order⟩ := kept.dominates inStore isStamp
    grind

end Kept

theorem Kept.stamp_unique {Stamp : Type} {time ofTransaction ofEvent} {store : EventStore}
    {left right : Stamp} (kept : Kept time ofTransaction ofEvent)
    (isLeft : left ∈ store.transactions.filterMap ofTransaction)
    (isRight : right ∈ store.transactions.filterMap ofTransaction) : left = right := by
  cases store with
  | single codeVersion isAction event => grind [EventStore.transactions, Kept]
  | batch codeVersion isAction events => grind [EventStore.transactions, Kept]

theorem not_observe {store : EventStore}
    (kinds : ∀ event ∈ store.events, event.isMaterialization = true ∨ event.isDeletion = true)
    (event : AssetEvent) :
    .observe event ∉ store.transactions := by
  have dels (event other : AssetEvent) : .observe event ≠ consolidateDeletion other := by
    unfold consolidateDeletion
    split <;> simp
  cases store with
  | single codeVersion isAction only =>
    have isKind := kinds only (List.mem_singleton_self only)
    cases kind : only.kind <;>
      simp_all [EventStore.transactions, storeEvent, isMaterialization, isDeletion]
  | batch codeVersion isAction events =>
    have none : events.filter (·.isObservation) = [] := by
      grind [List.filter_eq_nil_iff, isObservation, isMaterialization, isDeletion,
        EventStore.events]
    simp only [EventStore.transactions, storeEvents, none, List.map_nil, List.append_nil,
      List.mem_append, Option.mem_toList, Option.map_eq_some_iff, not_or]
    grind [materialize]

theorem consolidates_transactions {store : EventStore}
    (kinds : ∀ event ∈ store.events, event.isMaterialization = true ∨ event.isDeletion = true) :
    ∀ txn ∈ store.transactions, txn.Consolidates := by
  intro txn mem
  cases txn with
  | applyMaterialization m =>
    intro key row found
    obtain ⟨event, isEvent, isRow⟩ := (kept_row key).source (List.mem_filterMap.mpr ⟨_, mem, found⟩)
    have time := (kept_row key).timed event row isRow
    have isMat : event.isMaterialization = true := by grind [rowAt]
    obtain ⟨other, isOther, order⟩ := kept_data.dominates isEvent (if_pos isMat)
    have same := kept_data.stamp_unique isOther (List.mem_filterMap.mpr ⟨_, mem, rfl⟩)
    grind
  | observe event => exact absurd mem (not_observe kinds event)
  | _ => trivial

def AssetTables.stored (tables : AssetTables) : AssetTables :=
  { tables with provenance := {} }

theorem Reflects.stored_eq {others left right} (first : Reflects transactions left)
    (second : Reflects others right)
    (sameDeletion : newestDeletion transactions = newestDeletion others)
    (sameData : newestData transactions = newestData others)
    (sameTombstone : ∀ key, newestTombstone transactions key = newestTombstone others key)
    (sameRow : ∀ key, newestRow transactions key = newestRow others key) : left.stored =
    right.stored := by
  have deletion : left.lastDeletionTimestamp = right.lastDeletionTimestamp := by
    rw [first.deletion, second.deletion, sameDeletion]
  have data : left.data = right.data := by rw [first.data, second.data, sameDeletion, sameData]
  have tombstones : left.tombstones = right.tombstones := Finmap.ext_lookup fun key => by
    rw [first.tombstones, second.tombstones, sameTombstone]
  have parts : left.partitions = right.partitions := Finmap.ext_lookup fun key => by
    rw [first.partitions, second.partitions, sameDeletion, sameTombstone, sameRow]
  grind [AssetTables.stored, AssetTables.data]

theorem committed_flatMap (same : ∀ event, event ∈ stores.flatMap EventStore.events ↔
    event ∈ events) :
    Committed events stores (stores.flatMap EventStore.transactions) := by grind [Committed]

theorem committed_singles (codeVersion : Option String) (isAction : String → Bool)
    (events : List AssetEvent) :
    Committed events (events.map (.single codeVersion isAction))
      (events.flatMap (storeEvent codeVersion isAction)) := by
  have stores := @committed_flatMap events (events.map (.single codeVersion isAction))
    (by simp [List.flatMap_map, EventStore.events])
  rwa [List.flatMap_map] at stores

theorem Committed.consolidates (committed : Committed events stores transactions)
    (kinds : ∀ event ∈ events, event.isMaterialization = true ∨ event.isDeletion = true) :
    ∀ txn ∈ transactions, txn.Consolidates := by
  grind [fromStores, consolidates_transactions, ofEvents]

theorem forall_deletionStamps {bound} :
    (∀ stamp ∈ events.filterMap (·.deletionStamp), stamp.timestamp < bound) ↔
      ∀ event ∈ events, event.isDeletion = true → event.partitionKey = none →
        event.timestamp < bound := by
  simp only [List.forall_mem_filterMap, deletionStamp, Option.ite_none_right_eq_some,
    Option.some.injEq, and_imp]
  simp

theorem forall_tombstones {key bound} :
    (∀ time ∈ events.filterMap (·.tombstoneAt key), id time < bound) ↔
      ∀ event ∈ events, event.isDeletion = true → event.partitionKey = some key →
        event.timestamp < bound := by
  simp only [List.forall_mem_filterMap, tombstoneAt, Option.ite_none_right_eq_some,
    Option.some.injEq, and_imp, id_eq]
  simp

theorem lt_of_not_newer (dist : ∀ left ∈ events, ∀ right ∈ events, left.timestamp =
    right.timestamp → left = right)
    {deletion mat} (isDeletion : deletion ∈ events ∧ deletion.isDeletion = true)
    (isMat : mat ∈ events ∧ mat.isMaterialization = true)
    (order : deletion.timestamp ≤ mat.timestamp) : deletion.timestamp < mat.timestamp := by
  grind [isDeletion, isMaterialization]

theorem lastTimestamp_ne_bot_iff {tables} (reflects : Reflects transactions tables) :
    tables.lastTimestamp ≠ ⊥ ↔ latest DeletionStamp.timestamp (newestDeletion transactions) <
      latest DataStamp.timestamp (newestData transactions) := by
  have ts : tables.lastTimestamp = tables.data.timestamp := rfl
  rw [ts, reflects.data]
  by_cases newest : latest DeletionStamp.timestamp (newestDeletion transactions) <
      latest DataStamp.timestamp (newestData transactions)
  · rw [settled_of_materialized newest]
    exact iff_of_true (bot_lt_of_lt newest).ne' newest
  · rw [settled_of_deleted newest]
    exact iff_of_false (fun ne => ne rfl) newest

theorem asset_present_iff (committed : Committed events stores transactions)
    (kinds : ∀ event ∈ events, event.isMaterialization = true ∨ event.isDeletion = true)
    (dist : ∀ left ∈ events, ∀ right ∈ events, left.timestamp = right.timestamp → left = right) :
    (transactions.foldl EventTransaction.apply {}).lastTimestamp ≠ ⊥ ↔
      ∃ mat ∈ events, mat.isMaterialization = true ∧
        ∀ deletion ∈ events, deletion.isDeletion = true → deletion.partitionKey = none →
          deletion.timestamp ≤ mat.timestamp := by
  rw [lastTimestamp_ne_bot_iff (Reflects.run (committed.consolidates kinds)),
    newestDeletion, newestData,
    kept_data.newest_eq dist committed, kept_deletion.newest_eq dist committed]
  constructor
  · intro newest
    cases found : Newest.newest DataStamp.timestamp (events.filterMap (·.dataStamp)) with
    | none => simp [found] at newest
    | some stamp =>
      obtain ⟨event, isEvent, stamped⟩ := List.mem_filterMap.mp (newest_spec found).1
      have time := kept_data.timed event stamp stamped
      rw [found, latest_some, time, latest_newest_lt_iff, forall_deletionStamps] at newest
      refine ⟨event, isEvent, ?_, fun deletion mem isDeletion whole =>
        le_of_lt (newest deletion mem isDeletion whole)⟩
      exact (Option.ite_none_right_eq_some.mp stamped).1
  · rintro ⟨event, isEvent, isMat, covered⟩
    have below : latest DeletionStamp.timestamp
        (Newest.newest DeletionStamp.timestamp (events.filterMap (·.deletionStamp))) <
        (event.timestamp : WithBot Int) := by
      rw [latest_newest_lt_iff, forall_deletionStamps]
      exact fun deletion mem isDeletion whole => lt_of_not_newer dist ⟨mem,
        isDeletion⟩ ⟨isEvent, isMat⟩
        (covered deletion mem isDeletion whole)
    have mem : DataStamp.mk event.eventId event.runId event.timestamp event.dataVersion ∈
        events.filterMap (·.dataStamp) := List.mem_filterMap.mpr ⟨event, isEvent, if_pos isMat⟩
    exact below.trans_le (@le_latest_newest _ _ _ DataStamp.timestamp _ _ mem)

theorem partition_present_iff (committed : Committed events stores transactions)
    (kinds : ∀ event ∈ events, event.isMaterialization = true ∨ event.isDeletion = true)
    (dist : ∀ left ∈ events, ∀ right ∈ events, left.timestamp = right.timestamp → left = right)
    (key : PartitionKey) :
    key ∈ (transactions.foldl EventTransaction.apply {}).partitions ↔
      ∃ mat ∈ events, mat.isMaterialization = true ∧
        mat.partitionKey = some key ∧
        ∀ deletion ∈ events, deletion.isDeletion = true →
          deletion.partitionKey = none ∨ deletion.partitionKey = some key →
          deletion.timestamp ≤ mat.timestamp := by
  have outlives (row : AssetPartition) :
      row.outlives (latest DeletionStamp.timestamp (newestDeletion transactions))
        (latest id (newestTombstone transactions key)) = true ↔
      (∀ deletion ∈ events, deletion.isDeletion = true →
        deletion.partitionKey = none ∨ deletion.partitionKey = some key →
        deletion.timestamp < row.lastTimestamp) := by
    rw [outlives, decide_eq_true_eq, newestDeletion, newestTombstone,
      kept_deletion.newest_eq dist committed, (kept_tombstone key).newest_eq dist committed,
      latest_newest_lt_iff, latest_newest_lt_iff, forall_deletionStamps, forall_tombstones]
    grind
  rw [Finmap.mem_iff]
  simp only [(Reflects.run (committed.consolidates kinds)).partitions key,
    Option.filter_eq_some_iff, outlives]
  rw [newestRow, (kept_row key).newest_eq dist committed]
  constructor
  · rintro ⟨row, found, covered⟩
    obtain ⟨event, isEvent, stamped⟩ := List.mem_filterMap.mp (newest_spec found).1
    have time := (kept_row key).timed event row stamped
    obtain ⟨isMat, isKey⟩ := (Option.ite_none_right_eq_some.mp stamped).1
    grind
  · rintro ⟨event, isEvent, isMat, isKey, covered⟩
    have stamped : event.rowAt key = some event.partitionRow := if_pos ⟨isMat, isKey⟩
    have mem : event.partitionRow ∈ events.filterMap (·.rowAt key) :=
      List.mem_filterMap.mpr ⟨event, isEvent, stamped⟩
    cases found : newest lastTimestamp (events.filterMap (·.rowAt key)) with
    | none => simp [newest_eq_none_iff.mp found] at mem
    | some row =>
      refine ⟨row, rfl, fun deletion isMem isDeletion covers => ?_⟩
      have order : event.timestamp ≤ row.lastTimestamp := (newest_spec found).2 _ mem
      have below := lt_of_not_newer dist ⟨isMem, isDeletion⟩ ⟨isEvent, isMat⟩
        (covered deletion isMem isDeletion covers)
      omega

end Convergence

/-- Stores of the same materializations and deletions converge, and the newest event decides what is
present. -/
theorem event_stores_converge (events : List AssetEvent)
    (kinds : ∀ event ∈ events, event.isMaterialization = true ∨ event.isDeletion = true)
    (distinct : ∀ left ∈ events, ∀ right ∈ events, left.timestamp = right.timestamp → left = right)
    (stores : List EventStore) (transactions : List EventTransaction)
    (committed : Committed events stores transactions) (codeVersion : Option String)
    (isAction : String → Bool) :
    (transactions.foldl EventTransaction.apply {}).stored =
        ((events.flatMap (storeEvent codeVersion isAction)).foldl EventTransaction.apply
          {}).stored ∧
      ((transactions.foldl EventTransaction.apply {}).lastTimestamp ≠ ⊥ ↔
        ∃ materialization ∈ events, materialization.isMaterialization = true ∧
          ∀ deletion ∈ events, deletion.isDeletion = true → deletion.partitionKey = none →
            deletion.timestamp ≤ materialization.timestamp) ∧
      ∀ key, key ∈ (transactions.foldl EventTransaction.apply {}).partitions ↔
        ∃ materialization ∈ events, materialization.isMaterialization = true ∧
          materialization.partitionKey = some key ∧
          ∀ deletion ∈ events, deletion.isDeletion = true →
            deletion.partitionKey = none ∨ deletion.partitionKey = some key →
            deletion.timestamp ≤ materialization.timestamp := by
  have singles := committed_singles codeVersion isAction events
  refine ⟨?_, asset_present_iff committed kinds distinct,
    partition_present_iff committed kinds distinct⟩
  refine (Reflects.run (committed.consolidates kinds)).stored_eq
    (Reflects.run (singles.consolidates kinds)) ?_ ?_
    (fun key => ?_) fun key => ?_
  · exact (kept_deletion.newest_eq distinct committed).trans
      (kept_deletion.newest_eq distinct singles).symm
  · exact (kept_data.newest_eq distinct committed).trans (kept_data.newest_eq distinct singles).symm
  · exact ((kept_tombstone key).newest_eq distinct committed).trans
      ((kept_tombstone key).newest_eq distinct singles).symm
  · exact ((kept_row key).newest_eq distinct committed).trans
      ((kept_row key).newest_eq distinct singles).symm

def builtDay : AssetEvent :=
  ⟨"e1", .materialization (some "v1"), "r1", some (.single ["2024-01-01"]), 10, []⟩

def deletedAsset : AssetEvent :=
  ⟨"e2", .deletion, "r2", none, 20, []⟩

def rebuiltDay : AssetEvent :=
  ⟨"e3", .materialization (some "v2"), "r3", some (.single ["2024-01-02"]), 30, []⟩

def lateStores : List EventStore :=
  [.single none (fun _ => false) rebuiltDay, .batch none (fun _ => false) [deletedAsset, builtDay],
    .single none (fun _ => false) builtDay]

theorem event_stores_converge_lateStores :
    ((lateStores.flatMap EventStore.transactions).foldl EventTransaction.apply {}).stored =
      (([builtDay, deletedAsset, rebuiltDay].flatMap (storeEvent none fun _ => false)).foldl
        EventTransaction.apply {}).stored :=
  (event_stores_converge [builtDay, deletedAsset, rebuiltDay] (by decide +kernel)
    (by decide +kernel) lateStores _
    (committed_flatMap (by simp [lateStores, EventStore.events]; tauto)) none fun _ => false).1

end Rivers

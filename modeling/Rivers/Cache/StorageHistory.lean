import Mathlib.Logic.Relation
import Rivers.Cache.StorageCore

/-! How storage grows. -/

namespace Rivers

open FiniteMap Storage RunRecord

def RunRecord.identity (run : RunRecord) : RunRecord :=
  { run with status := .queued, endTime := none }

theorem RunRecord.fields_of_identity {left right : RunRecord}
    (same : left.identity = right.identity) :
    left.runId = right.runId ∧ left.startTime = right.startTime ∧ left.nodeNames = right.nodeNames ∧
      left.isAction = right.isAction := by
  simp only [identity, RunRecord.mk.injEq] at same
  exact ⟨same.1, same.2.2.2.1, same.2.1, by simp [isAction, same]⟩

def Storage.observed (storage : Storage) (asset : String) : Bool :=
  storage.events.any fun event => event.eventType = .observation && event.assetKey = some asset

inductive StorageStep (before : Storage) : Storage → Prop
  | submit (run : RunRecord) (fresh : ∀ other ∈ before.runs, other.runId ≠ run.runId)
      (started : 0 < run.startTime) :
      StorageStep before { before with runs := before.runs ++ [run] }
  | advance (run : RunRecord) (member : run ∈ before.runs) (live : run.isTerminal = false)
      (status : RunStatus) (endTime : Option Int) :
      StorageStep before { before with
        runs := before.runs.map fun other =>
          if other.runId = run.runId then { other with status := status, endTime := endTime }
          else other }
  | emit (event : EventRecord) (run : RunRecord) (member : run ∈ before.runs)
      (live : run.isTerminal = false) (own : event.runId = run.runId)
      (covered : ∀ asset ∈ event.assetKey, asset ∈ run.nodeNames)
      (earned : event.eventType = .stepSuccess → run.isAction = false → ∀ asset ∈ event.assetKey,
        before.materializedByRun asset run.runId ∨ before.observed asset) :
      StorageStep before { before with events := before.events ++ [event] }
  | observe (event : EventRecord) (kind : event.eventType = .observation) :
      StorageStep before { before with events := before.events ++ [event] }
  | recordMaterialization (event : EventRecord) (stored : event ∈ before.events)
      (kind : event.eventType = .materialization) (asset : String)
      (named : event.assetKey = some asset) (run : RunRecord) (member : run ∈ before.runs)
      (live : run.isTerminal = false) (own : event.runId = run.runId) (record : AssetRecord)
      (found : before.records.lookup asset = some record)
      (newest : record.lastTimestamp.all (· ≤ event.timestamp))
      (dataVersion codeVersion : Option String) :
      StorageStep before { before with
        records := before.records.insert asset { record with
          lastRunId := some event.runId, lastTimestamp := some event.timestamp
          lastDataVersion := dataVersion, lastMaterializationCodeVersion := codeVersion } }
  | recordObservation (event : EventRecord) (stored : event ∈ before.events)
      (kind : event.eventType = .observation) (asset : String) (named : event.assetKey = some asset)
      (record : AssetRecord) (found : before.records.lookup asset = some record)
      (dataVersion : Option String) :
      StorageStep before { before with
        records := before.records.insert asset { record with
          lastTimestamp := some event.timestamp, lastDataVersion := dataVersion } }
  | register (asset : String) (record : AssetRecord)
      (sameRun : record.lastRunId = (before.records.lookup asset).bind (·.lastRunId))
      (sameTime : record.lastTimestamp = (before.records.lookup asset).bind (·.lastTimestamp)) :
      StorageStep before { before with records := before.records.insert asset record }
  | other (rows : HashMap String (HashMap PartitionKey PartitionRow)) (backfills : BackfillState)
      (topology : Option (List (String × String))) :
      StorageStep before { before with
        partitionRows := rows, activeBackfills := backfills, topology := topology }

abbrev StorageSteps := Relation.ReflTransGen StorageStep

def Storage.identities (storage : Storage) : List RunRecord :=
  storage.runs.map identity

structure Storage.WellFormed (storage : Storage) : Prop where
  ids : (storage.identities.map (·.runId)).Nodup
  starts : ∀ run ∈ storage.identities, 0 < run.startTime
  built : ∀ event ∈ storage.events, event.eventType = .materialization →
    ∃ run ∈ storage.identities, run.runId = event.runId ∧ ∀ asset ∈ event.assetKey, asset ∈
      run.nodeNames
  recorded : ∀ asset record runId, storage.records.lookup asset = some record →
    record.lastRunId = some runId → storage.materializedByRun asset runId
  succeeded : ∀ event ∈ storage.events, event.eventType = .stepSuccess → ∀ asset ∈ event.assetKey,
    (∃ run ∈ storage.identities, run.runId = event.runId ∧ run.isAction) ∨
      storage.materializedByRun asset event.runId ∨ storage.observed asset
  kept : storage.assetDeletions = ∅

namespace StorageStep

variable {before after : Storage}

theorem identities (step : StorageStep before after) :
    after.identities = before.identities ∨
      ∃ run : RunRecord, after.identities = before.identities ++ [run.identity] ∧
        (∀ other ∈ before.runs, other.runId ≠ run.runId) ∧ 0 < run.startTime := by
  cases step with
  | submit run fresh started => exact .inr ⟨run, by simp [identities], fresh, started⟩
  | advance run mem live status endTime => grind [List.map_congr_left, identities, identity]
  | _ => exact .inl rfl

theorem events (step : StorageStep before after) :
    after.events = before.events ∨
      ∃ event, after.events = before.events ++ [event] ∧ after.runs = before.runs ∧
        (event.eventType = .observation ∨
          ∃ run ∈ before.runs, run.isTerminal = false ∧ event.runId = run.runId ∧
            (∀ asset ∈ event.assetKey, asset ∈ run.nodeNames) ∧
            (event.eventType = .stepSuccess → run.isAction = false → ∀ asset ∈ event.assetKey,
              before.materializedByRun asset run.runId ∨ before.observed asset)) := by
  cases step with
  | emit event run mem live own covered earned =>
    exact .inr ⟨event, rfl, rfl, .inr ⟨run, mem, live, own, covered, earned⟩⟩
  | observe event kind => exact .inr ⟨event, rfl, rfl, .inl kind⟩
  | _ => exact .inl rfl

theorem records (step : StorageStep before after) {asset record}
    (found : after.records.lookup asset = some record) :
    (record.lastRunId = (before.records.lookup asset).bind (·.lastRunId) ∧
        (record.lastTimestamp = (before.records.lookup asset).bind (·.lastTimestamp) ∨
          before.observed asset)) ∨
      ∃ event ∈ before.events, event.eventType = .materialization ∧ event.assetKey = some asset ∧
        record.lastRunId = some event.runId ∧
        ∃ run ∈ before.runs, run.isTerminal = false ∧ event.runId = run.runId := by
  have unchanged : ∀ rows : HashMap String AssetRecord, rows.lookup asset = some record →
      record.lastRunId = (rows.lookup asset).bind (·.lastRunId) ∧
        (record.lastTimestamp = (rows.lookup asset).bind (·.lastTimestamp) ∨
          before.observed asset) := by
    intro rows same
    rw [same]
    exact ⟨rfl, .inl rfl⟩
  cases step with
  | recordMaterialization event stored kind target named run mem live own old oldFound newest _ _ =>
    grind [lookup_insert_ite]
  | recordObservation event stored kind target named old oldFound _ =>
    grind [lookup_insert_ite, observed]
  | register target fresh sameRun sameTime => grind [lookup_insert_ite]
  | _ => exact .inl (unchanged _ found)

end StorageStep

namespace Storage

variable {storage earlier middle later : Storage} {run other : RunRecord}

theorem materializedByRun_iff {asset runId} :
    storage.materializedByRun asset runId ↔ ∃ event ∈ storage.events,
      event.eventType = .materialization ∧ event.assetKey = some asset ∧ event.runId = runId := by
  simp [materializedByRun, and_assoc]

theorem observed_iff {asset} :
    storage.observed asset ↔ ∃ event ∈ storage.events,
      event.eventType = .observation ∧ event.assetKey = some asset := by
  simp [observed]

theorem mem_identities (mem : run ∈ storage.runs) : run.identity ∈ storage.identities :=
  List.mem_map_of_mem mem

theorem WellFormed.eq_of_runId (wellFormed : storage.WellFormed) (mem : run ∈ storage.runs)
    (otherMem : other ∈ storage.runs) (same : run.runId = other.runId) : run = other := by
  grind [List.inj_on_of_nodup_map, identities, identity, WellFormed]

theorem WellFormed.eq_of_identity (wellFormed : storage.WellFormed) (mem : run ∈ storage.identities)
    (otherMem : other ∈ storage.identities) (same : run.runId = other.runId) : run = other :=
  List.inj_on_of_nodup_map wellFormed.ids mem otherMem same

theorem wellFormed_empty : WellFormed {} where
  ids := List.nodup_nil
  starts := fun _ mem => absurd mem List.not_mem_nil
  built := fun _ mem => absurd mem List.not_mem_nil
  recorded := fun _ _ _ found => absurd found (by simp)
  succeeded := fun _ mem => absurd mem List.not_mem_nil
  kept := rfl

structure Precedes (earlier later : Storage) : Prop where
  identities : earlier.identities <+: later.identities
  terminal : ∀ run ∈ earlier.runs, run.isTerminal → run ∈ later.runs
  events : earlier.events ⊆ later.events
  built : ∀ run ∈ earlier.runs, run.isTerminal → ∀ asset,
    later.materializedByRun asset run.runId → earlier.materializedByRun asset run.runId
  recorded : ∀ run ∈ earlier.runs, run.isTerminal → ∀ asset record,
    later.records.lookup asset = some record → record.lastRunId = some run.runId →
    ∃ old, earlier.records.lookup asset = some old ∧ old.lastRunId = some run.runId ∧
      (later.observed asset = false → old.lastTimestamp = record.lastTimestamp)

theorem Precedes.refl : Precedes storage storage where
  identities := List.prefix_rfl
  terminal := fun _ mem _ => mem
  events := List.Subset.refl _
  built := fun _ _ _ _ built => built
  recorded := fun _ _ _ _ record found named => ⟨record, found, named, fun _ => rfl⟩

theorem Precedes.materialized (before : Precedes earlier later) {asset runId}
    (built : earlier.materializedByRun asset runId) : later.materializedByRun asset runId := by
  grind [materializedByRun, Precedes]

theorem Precedes.unobserved (before : Precedes earlier later) {asset}
    (unseen : later.observed asset = false) : earlier.observed asset = false := by
  grind [observed, Precedes]

theorem Precedes.trans (first : Precedes earlier middle) (second : Precedes middle later) :
    Precedes earlier later where
  identities := first.identities.trans second.identities
  terminal := fun run mem ended => second.terminal run (first.terminal run mem ended) ended
  events := fun _ mem => second.events (first.events mem)
  built := fun run mem ended asset built =>
    first.built run mem ended asset
      (second.built run (first.terminal run mem ended) ended asset built)
  recorded := by
    intro run mem ended asset record found named
    obtain ⟨between, betweenFound, betweenNamed, betweenTime⟩ :=
      second.recorded run (first.terminal run mem ended) ended asset record found named
    grind [recorded, unobserved]

end Storage

namespace StorageStep

variable {before after : Storage}

theorem terminal (step : StorageStep before after) (wellFormed : before.WellFormed) {run}
    (mem : run ∈ before.runs) (ended : run.isTerminal) : run ∈ after.runs := by
  cases step with
  | submit other fresh started => exact List.mem_append_left _ mem
  | advance other otherMem live status endTime =>
    refine List.mem_map.mpr ⟨run, mem, ?_⟩
    rw [if_neg]
    intro same
    rw [wellFormed.eq_of_runId mem otherMem same, live] at ended
    exact Bool.false_ne_true ended
  | _ => exact mem

theorem precedes (step : StorageStep before after) (wellFormed : before.WellFormed) :
    before.Precedes after where
  identities := by grind [identities]
  terminal := fun run mem ended => step.terminal wellFormed mem ended
  events := by grind [events]
  built := by
    intro run mem ended asset built
    obtain ⟨event, stored, kind, named, own⟩ := materializedByRun_iff.mp built
    have old : event ∈ before.events := by
      rcases step.events with same | ⟨next, added, -, origin⟩
      · exact same ▸ stored
      · refine (List.mem_append.mp (added ▸ stored)).resolve_right fun last => ?_
        obtain rfl := List.mem_singleton.mp last
        rcases origin with observation | ⟨live, liveMember, isLive, byLive, -⟩
        · simp [observation] at kind
        · rw [wellFormed.eq_of_runId mem liveMember (own.symm.trans byLive), isLive] at ended
          exact Bool.false_ne_true ended
    exact materializedByRun_iff.mpr ⟨event, old, kind, named, own⟩
  recorded := by
    intro run mem ended asset record found named
    rcases step.records found with ⟨sameRun, sameTime⟩ | ⟨event, -, -, -, byEvent, live, liveMember,
      isLive, byLive⟩
    · obtain ⟨old, oldFound, oldNamed⟩ := Option.bind_eq_some_iff.mp (sameRun.symm.trans named)
      refine ⟨old, oldFound, oldNamed, fun unseen => ?_⟩
      rcases sameTime with same | seen
      · rw [same, oldFound]
        rfl
      · grind [observed_iff, events]
    · have same : run.runId = live.runId := by
        rw [← byLive]
        exact Option.some.inj (named.symm.trans byEvent)
      rw [wellFormed.eq_of_runId mem liveMember same, isLive] at ended
      exact absurd ended Bool.false_ne_true

theorem wellFormed (step : StorageStep before after) (isWellFormed : before.WellFormed) :
    after.WellFormed := by
  have later := step.precedes isWellFormed
  have ident : ∀ run ∈ before.identities, run ∈ after.identities :=
    fun run mem => later.identities.subset mem
  refine ⟨?_, ?_, ?_, ?_, ?_, ?_⟩
  · rcases step.identities with same | ⟨run, added, fresh, -⟩
    · exact same ▸ isWellFormed.ids
    · rw [added, List.map_append]
      refine List.nodup_append.mpr ⟨isWellFormed.ids, List.nodup_singleton _, ?_⟩
      grind [Storage.identities, identity]
  · rcases step.identities with same | ⟨run, added, -, started⟩
    · exact same ▸ isWellFormed.starts
    · grind [identity, Storage.WellFormed]
  · intro event stored kind
    have old : event ∈ before.events → ∃ run ∈ after.identities, run.runId = event.runId ∧
        ∀ asset ∈ event.assetKey, asset ∈ run.nodeNames := by grind [Storage.WellFormed.built]
    rcases step.events with same | ⟨next, added, -, origin⟩
    · exact old (same ▸ stored)
    · rcases List.mem_append.mp (added ▸ stored) with earlier | last
      · exact old earlier
      · obtain rfl := List.mem_singleton.mp last
        rcases origin with observation | ⟨live, liveMember, -, byLive, covered, -⟩
        · simp [observation] at kind
        · exact ⟨live.identity, ident _ (Storage.mem_identities liveMember), byLive.symm, covered⟩
  · intro asset record runId found named
    refine later.materialized ?_
    rcases step.records found with ⟨sameRun, -⟩ | ⟨event, stored, kind, onAsset, byEvent, -⟩
    · grind [Option.bind_eq_some_iff, Storage.WellFormed.recorded]
    · grind [Storage.materializedByRun_iff]
  · intro event stored kind asset onAsset
    have kept : ∀ runId, before.materializedByRun asset runId ∨ before.observed asset →
        after.materializedByRun asset runId ∨ after.observed asset := by
      rintro runId (built | seen)
      · exact .inl (later.materialized built)
      · grind [Storage.observed, Storage.Precedes]
    have old : event ∈ before.events →
        (∃ run ∈ after.identities, run.runId = event.runId ∧ run.isAction) ∨
          after.materializedByRun asset event.runId ∨ after.observed asset := by
      grind [Storage.WellFormed.succeeded]
    rcases step.events with same | ⟨next, added, -, origin⟩
    · exact old (same ▸ stored)
    · rcases List.mem_append.mp (added ▸ stored) with earlier | last
      · exact old earlier
      · obtain rfl := List.mem_singleton.mp last
        rcases origin with observation | ⟨live, liveMember, -, byLive, -, earned⟩
        · simp [observation] at kind
        · cases isAction : live.isAction with
          | true => exact .inl ⟨live.identity, ident _ (Storage.mem_identities liveMember),
              byLive.symm, isAction⟩
          | false => exact .inr (byLive ▸ kept _ (earned kind isAction asset onAsset))
  · cases step <;> exact isWellFormed.kept

end StorageStep

theorem StorageSteps.precedes {earlier later} (steps : StorageSteps earlier later)
    (wellFormed : earlier.WellFormed) : later.WellFormed ∧ earlier.Precedes later := by
  induction steps with
  | refl => exact ⟨wellFormed, .refl⟩
  | tail _ step ih =>
    obtain ⟨between, before⟩ := ih
    exact ⟨step.wellFormed between, before.trans (step.precedes between)⟩

end Rivers

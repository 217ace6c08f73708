import Rivers.Sensor.TickWriterCore

/-! The newest tick of a sensor survives the writer. -/

namespace Rivers

open FiniteMap Transitions TickState

section Table

variable {ticks : List TickRecord} {name other : String} {limit : Nat} {record newest : TickRecord}

theorem mem_of_mem_getTicks (mem : record ∈ getTicks ticks name limit) :
    record ∈ ticks ∧ record.automationName = name := by grind [List.mem_insertionSort, getTicks]

instance : Std.Total TickRecord.NewestFirst := ⟨fun first second => le_total second.timestamp
    first.timestamp⟩

instance : IsTrans TickRecord TickRecord.NewestFirst :=
  ⟨fun _ _ _ before after => le_trans after before⟩

theorem getTicks_eq_cons (isTick : newest ∈ ticks) (isName : newest.automationName = name)
    (newer : ∀ record ∈ ticks, record.automationName = name → record.timestamp < newest.timestamp ∨
      record = newest)
    (positive : 0 < limit) : ∃ rest, getTicks ticks name limit = newest :: rest := by
  have ordered := List.pairwise_insertionSort TickRecord.NewestFirst
    (ticks.filter (·.automationName = name))
  have among : newest ∈ (ticks.filter (·.automationName = name)).insertionSort
      TickRecord.NewestFirst :=
    (List.mem_insertionSort _).mpr (List.mem_filter.mpr ⟨isTick, by simpa using isName⟩)
  unfold getTicks
  cases isSorted : (ticks.filter (·.automationName = name)).insertionSort
    TickRecord.NewestFirst with
  | nil =>
    rw [isSorted] at among
    cases among
  | cons first rest =>
    have isFirst : first ∈ ticks.filter (·.automationName = name) :=
      (List.mem_insertionSort _).mp (isSorted ▸ List.mem_cons_self)
    obtain ⟨firstTick, firstName⟩ := List.mem_filter.mp isFirst
    rw [isSorted] at among ordered
    have same : first = newest := by grind [List.rel_of_pairwise_cons, TickRecord.NewestFirst]
    obtain ⟨fewer, rfl⟩ := Nat.exists_eq_add_of_lt positive
    exact ⟨rest.take fewer, by rw [same, Nat.zero_add, List.take_succ_cons]⟩

theorem restoredCursor_of_newest (isTick : newest ∈ ticks) (isName : newest.automationName = name)
    (newer : ∀ record ∈ ticks, record.automationName = name → record.timestamp < newest.timestamp ∨
      record = newest) :
    restoredCursor ticks name = newest.cursor := by
  obtain ⟨rest, isCons⟩ := getTicks_eq_cons isTick isName newer Nat.one_pos
  simp [restoredCursor, isCons]

theorem mem_pruneTicks_other (different : record.automationName ≠ name) :
    record ∈ pruneTicks ticks name limit ↔ record ∈ ticks := by
  grind [mem_of_mem_getTicks, pruneTicks]

theorem pruneTicks_subset : pruneTicks ticks name limit ⊆ ticks := by
  grind [mem_of_mem_getTicks, pruneTicks]

end Table

section Trim

variable {batch front back : List TickRecord} {record : TickRecord}

theorem trimLoop_sublist (budget : Nat) (batch : List TickRecord) :
    (trimLoop budget batch).Sublist batch := by
  induction batch generalizing budget with
  | nil => exact .refl _
  | cons record later ih => grind [trimLoop]

theorem mem_trimLoop (latest : ∀ later ∈ back, later.automationName ≠ record.automationName)
    (budget : Nat) :
    record ∈ trimLoop budget (front ++ record :: back) := by
  induction front generalizing budget with
  | nil => grind [trimLoop]
  | cons first front ih => grind [trimLoop]

theorem trimTickBacklog_sublist (maxBatch : Nat) :
    (trimTickBacklog batch maxBatch).Sublist batch := by
  unfold trimTickBacklog
  simp only
  split
  · exact .refl _
  · exact trimLoop_sublist _ _

theorem mem_trimTickBacklog (latest : ∀ later ∈ back, later.automationName ≠ record.automationName)
    (maxBatch : Nat) :
    record ∈ trimTickBacklog (front ++ record :: back) maxBatch := by
  unfold trimTickBacklog
  simp only
  split
  · simp
  · exact mem_trimLoop latest _

theorem length_trimLoop (budget : Nat) (batch : List TickRecord) :
    (trimLoop budget batch).length = max (batch.length - budget)
      (batch.map (·.automationName)).dedup.length := by
  induction batch generalizing budget with
  | nil => simp [trimLoop]
  | cons record later ih =>
    have names := (List.dedup_sublist (later.map (·.automationName))).length_le
    have newest : later.all (·.automationName ≠ record.automationName) = true ↔
        record.automationName ∉ later.map (·.automationName) := by simp
    simp only [trimLoop, newest, List.map_cons, List.length_cons, List.length_map] at names ⊢
    by_cases again : record.automationName ∈ later.map (·.automationName)
    · rw [List.dedup_cons_of_mem again]
      by_cases spent : budget = 0
      · rw [if_pos (.inl spent), List.length_cons, ih]
        omega
      · rw [if_neg (not_or.mpr ⟨spent, not_not_intro again⟩), ih]
        omega
    · rw [List.dedup_cons_of_notMem again, if_pos (.inr again), List.length_cons,
        List.length_cons, ih]
      omega

/-- Trimming keeps the newest record of every automation and drops no more than the cap asks for. -/
theorem trimmed_backlog (batch : List TickRecord) (maxBatch : Nat) :
    (trimTickBacklog batch maxBatch).Sublist batch ∧
    (trimTickBacklog batch maxBatch).length =
      min batch.length (max (max (maxBatch * 8) 1) (batch.map (·.automationName)).dedup.length) ∧
    ∀ front record back, batch = front ++ record :: back →
      (∀ later ∈ back, later.automationName ≠ record.automationName) →
      record ∈ trimTickBacklog batch maxBatch := by
  refine ⟨trimTickBacklog_sublist _, ?_, fun front record back isBatch latest => ?_⟩
  · have names := (List.dedup_sublist (batch.map (·.automationName))).length_le
    rw [List.length_map] at names
    simp only [trimTickBacklog]
    split
    · omega
    · rw [length_trimLoop]
      omega
  · rw [isBatch]
    exact mem_trimTickBacklog latest _

end Trim

namespace TickState

variable {config : TickConfig} {state next : TickState} {name : String} {newest : TickRecord}

structure Holds (state : TickState) (newest : TickRecord) : Prop where
  present : newest ∈ state.ticks ∨ newest ∈ state.batch
  newer : ∀ record ∈ state.ticks ++ state.batch, record.automationName = newest.automationName →
    record.timestamp < newest.timestamp ∨ record = newest
  ordered : state.batch.Pairwise fun first second => first.automationName = newest.automationName →
    second.automationName = newest.automationName → first.timestamp < second.timestamp

theorem prune_cons {ticks entry pruneNames unpruned} :
    prune ticks (entry :: pruneNames) unpruned =
      prune (if entry.1 ∈ unpruned then ticks else pruneTicks ticks entry.1 entry.2)
        pruneNames unpruned :=
  rfl

theorem prune_subset {pruneNames unpruned} (ticks : List TickRecord) :
    prune ticks pruneNames unpruned ⊆ ticks := by
  induction pruneNames generalizing ticks with
  | nil => exact List.Subset.refl _
  | cons entry pruneNames ih =>
    rw [prune_cons]
    split
    · exact ih ticks
    · exact List.Subset.trans (ih _) pruneTicks_subset

theorem mem_prune {ticks pruneNames unpruned} (isTick : newest ∈ ticks)
    (newer : ∀ record ∈ ticks, record.automationName = newest.automationName →
      record.timestamp < newest.timestamp ∨ record = newest) (retained : ∀ entry ∈ pruneNames, 0 <
        entry.2) : newest ∈ prune ticks pruneNames unpruned := by
  induction pruneNames generalizing ticks with
  | nil => exact isTick
  | cons entry pruneNames ih =>
    rw [List.forall_mem_cons] at retained
    rw [prune_cons]
    split
    · exact ih isTick newer retained.2
    · refine ih ?_ (fun record mem => newer record (pruneTicks_subset mem)) retained.2
      by_cases same : newest.automationName = entry.1
      · obtain ⟨rest, isCons⟩ := getTicks_eq_cons isTick same (same ▸ newer) retained.1
        exact List.mem_append_right _ (isCons ▸ List.mem_cons_self)
      · exact (mem_pruneTicks_other same).mpr isTick

def Tracks (index : Nat) (name : String) (state : TickState) : Prop :=
  match state.last.lookup index with
  | none =>
      (∀ record ∈ state.ticks, record.automationName = name → record.timestamp ≤ state.startedAt) ∧
        ∀ record ∈ state.batch, record.automationName ≠ name
  | some (timestamp, cursor) => state.startedAt < timestamp ∧ state.Holds ⟨name, timestamp, cursor⟩

theorem Holds.restored (held : state.Holds newest) (noBatch : state.batch = []) :
    restoredCursor state.ticks newest.automationName = newest.cursor := by
  grind [present, restoredCursor_of_newest, newer]

theorem tracks_ingest_own {index automation ts cursor} (held : Tracks index automation.name state)
    (started : state.startedAt < ts)
    (increasing : (state.last.lookup index).all (fun last => last.1 < ts) = true) :
    Tracks index automation.name (state.ingest config automation index ts cursor) := by
  have older (record : TickRecord) (mem : record ∈ state.ticks ++ state.batch)
      (isName : record.automationName = automation.name) : record.timestamp < ts := by
    grind [Holds, Tracks]
  have inOrder : state.batch.Pairwise fun first second => first.automationName = automation.name →
      second.automationName = automation.name → first.timestamp < second.timestamp := by
    unfold Tracks at held
    cases isLast : state.last.lookup index with
    | none =>
      simp only [isLast] at held
      exact List.Pairwise.imp_of_mem (fun isFirst _ _ isName => absurd isName (held.2 _ isFirst))
        (List.pairwise_of_forall (R := fun _ _ => True) fun _ _ => trivial)
    | some last =>
      simp only [isLast] at held
      exact held.2.ordered
  unfold Tracks
  simp only [ingest, lookup_insert_ite, if_true]
  refine ⟨started, .inr (List.mem_append_right _ (List.mem_singleton.mpr rfl)),
    fun record mem isName => ?_, ?_⟩
  · grind
  · grind

theorem tracks_ingest_other {index other automation ts cursor} (held : Tracks index name state)
    (different : automation.name ≠ name) (otherIndex : other ≠ index) :
    Tracks index name (state.ingest config automation other ts cursor) := by
  unfold Tracks at held ⊢
  have sameLast : (state.ingest config automation other ts cursor).last.lookup index =
      state.last.lookup index := by
    rw [ingest, lookup_insert_ite, if_neg otherIndex.symm]
  rw [sameLast]
  cases isLast : state.last.lookup index with
  | none => grind [ingest]
  | some last =>
    simp only [isLast] at held ⊢
    obtain ⟨started, present, newer, inOrder⟩ := held
    refine ⟨started, present.imp_right (List.mem_append_left _), fun record mem isName => ?_, ?_⟩
    · grind [ingest]
    · grind [ingest]

theorem tracks_stored {index unpruned} (held : Tracks index name state)
    (retained : ∀ entry ∈ state.pruneNames, 0 < entry.2)
    (stored : state.flush config (.stored unpruned) = some next) :
    Tracks index name next := by
  cases stored
  unfold Tracks at held ⊢
  simp only
  cases isLast : state.last.lookup index with
  | none => grind [prune_subset]
  | some last => grind [mem_prune, prune_subset, Holds]

theorem tracks_failed {index committed} (held : Tracks index name state)
    (failed : state.flush config (.failed committed) = some next) : Tracks index name next := by
  simp only [flush] at failed
  split at failed
  · cases failed
  cases failed
  have kept : (trimTickBacklog state.batch config.maxBatch).Sublist state.batch :=
    trimTickBacklog_sublist _
  have among (record : TickRecord)
      (mem : record ∈ (if committed then state.ticks ++ state.batch else state.ticks)) :
      record ∈ state.ticks ++ state.batch := by
    split at mem
    · exact mem
    · exact List.mem_append_left _ mem
  unfold Tracks at held ⊢
  simp only
  cases isLast : state.last.lookup index with
  | none => grind
  | some last =>
    simp only [isLast] at held ⊢
    obtain ⟨started, present, newer, inOrder⟩ := held
    refine ⟨started, ?_, fun record mem => newer record ?_, inOrder.sublist kept⟩
    · rcases present with isTick | isBatch
      · left
        split
        · exact List.mem_append_left _ isTick
        · exact isTick
      · right
        obtain ⟨front, back, split⟩ := List.append_of_mem isBatch
        grind [mem_trimTickBacklog, List.rel_of_pairwise_cons]
    · grind

def Retains (config : TickConfig) (state : TickState) : Prop :=
  ∀ entry ∈ state.pruneNames, config.maxTicksRetained = some entry.2

theorem retains_step {action} (held : Retains config state)
    (stepped : state.step config action = some next) :
    Retains config next := by
  cases action with
  | record index ts cursor =>
    simp only [step] at stepped
    split at stepped
    · cases stepped
    · grind [ingest, Retains]
  | flush result =>
    cases result with
    | stored unpruned =>
      cases stepped
      exact fun entry mem => absurd mem List.not_mem_nil
    | failed committed =>
      simp only [step, flush] at stepped
      split at stepped
      · cases stepped
      · cases stepped
        exact held

end TickState

def TickConfig.KeepsCursors (config : TickConfig) : Prop :=
  ∀ (index : Nat) (automation : Automation), config.automations[index]? = some automation →
    automation.automationType = .sensor →
      config.maxTicksRetained ≠ some 0 ∧
        ∀ (other : Nat) (namesake : Automation), config.automations[other]? = some namesake →
          other ≠ index →
          namesake.name ≠ automation.name

def TickConfig.RestoresCursors (config : TickConfig) : Prop :=
  ∀ ticks startedAt, (∀ record ∈ ticks, record.timestamp ≤ startedAt) → ∀ actions unpruned final,
    perform (step config) { ticks, startedAt } (actions ++ [.flush (.stored unpruned)]) =
      some final →
      ∀ (index : Nat) (automation : Automation), config.automations[index]? = some automation →
        automation.automationType = .sensor → ∀ timestamp cursor, final.last.lookup index =
          some (timestamp, cursor) →
          restoredCursor final.ticks automation.name = cursor

namespace TickState

variable {config : TickConfig} {state next : TickState} {index : Nat} {automation : Automation}

theorem tracks_step (keeps : config.KeepsCursors)
    (isAutomation : config.automations[index]? = some automation)
    (isSensor : automation.automationType = .sensor) {action}
    (held : Tracks index automation.name state ∧ Retains config state)
    (stepped : state.step config action = some next) : Tracks index automation.name next := by
  obtain ⟨retained, unique⟩ := keeps index automation isAutomation isSensor
  cases action with
  | record other ts cursor =>
    simp only [step] at stepped
    split at stepped
    · cases stepped
    · rename_i recorded isRecorded
      simp only [Option.ite_none_right_eq_some, Option.some.injEq] at stepped
      obtain ⟨⟨started, increasing, -⟩, rfl⟩ := stepped
      by_cases same : other = index
      · subst same
        rw [isAutomation, Option.some.injEq] at isRecorded
        subst isRecorded
        exact tracks_ingest_own held.1 started increasing
      · exact tracks_ingest_other held.1 (unique other recorded isRecorded same) same
  | flush result =>
    cases result with
    | stored unpruned => grind [tracks_stored, Retains, step]
    | failed committed => grind [tracks_failed, step]

theorem restoresCursors_of_keepsCursors (keeps : config.KeepsCursors) : config.RestoresCursors := by
  intro ticks startedAt older actions unpruned final performed index automation
    isAutomation isSensor ts
    cursor isLast
  obtain ⟨reached, pre, last⟩ := perform_append.mp performed
  have start : Tracks index automation.name { ticks, startedAt } ∧
      Retains config { ticks, startedAt } :=
    ⟨⟨fun record mem _ => older record mem, fun record mem => absurd mem List.not_mem_nil⟩,
      fun entry mem => absurd mem List.not_mem_nil⟩
  have kept {state : TickState} {action : Action} {next : TickState}
    (stepped : state.step config action = some next)
      (held : Tracks index automation.name state ∧ Retains config state) :
      Tracks index automation.name next ∧ Retains config next :=
    ⟨tracks_step keeps isAutomation isSensor held stepped, retains_step held.2 stepped⟩
  have held := perform_invariant kept pre start
  obtain ⟨flushed, stepped, isFinal⟩ := perform_cons.mp last
  cases isFinal
  have tracked := tracks_step keeps isAutomation isSensor held stepped
  cases stepped
  unfold Tracks at tracked
  rw [isLast] at tracked
  exact tracked.2.restored rfl

theorem prune_of_unpruned {ticks pruneNames unpruned}
    (failed : ∀ entry ∈ pruneNames, entry.1 ∈ unpruned) : prune ticks pruneNames unpruned =
    ticks := by
  induction pruneNames with
  | nil => rfl
  | cons entry pruneNames ih =>
    rw [List.forall_mem_cons] at failed
    rw [prune_cons, if_pos failed.1]
    exact ih failed.2

theorem unique_of_restoresCursors (restores : config.RestoresCursors)
    (isAutomation : config.automations[index]? = some automation)
    (isSensor : automation.automationType = .sensor) {other namesake}
    (isNamesake : config.automations[other]? = some namesake)
      (different : other ≠ index) : namesake.name ≠ automation.name := by
  intro sameName
  let first : TickState := ingest config { ticks := [], startedAt := 0 } automation index 1
    (some "cursor")
  let second : TickState := ingest config first namesake other 2 none
  have firstStep : step config { ticks := [], startedAt := 0 } (.record index 1 (some "cursor")) =
    some first := by
    simp [step, isAutomation, isSensor, first]
  have secondStep : step config first (.record other 2 none) = some second := by
    simp [step, isNamesake, second, first, ingest, different]
  have names : ∀ entry ∈ second.pruneNames, entry.1 ∈ [automation.name] := by grind [ingest]
  have restored := restores [] 0 (fun record mem => absurd mem List.not_mem_nil)
    [.record index 1 (some "cursor"), .record other 2 none] [automation.name] _
    (perform_append.mpr ⟨second,
      perform_cons.mpr ⟨first, firstStep, perform_cons.mpr ⟨second, secondStep, rfl⟩⟩,
      perform_cons.mpr ⟨_, rfl, rfl⟩⟩) index automation isAutomation isSensor 1 (some "cursor")
    (by simp [second, first, ingest, different.symm])
  rw [prune_of_unpruned names] at restored
  have isTick : (⟨namesake.name, 2, none⟩ : TickRecord) ∈ second.ticks ++ second.batch := by
    simp [second, ingest]
  have hidden := restoredCursor_of_newest isTick sameName (by
    intro record mem _
    simp only [second, first, ingest, List.nil_append, List.mem_append, List.mem_singleton] at mem
    rcases mem with rfl | rfl
    · exact .inl (by simp)
    · exact .inr rfl)
  rw [hidden] at restored
  cases restored

theorem retained_of_restoresCursors (restores : config.RestoresCursors)
    (isAutomation : config.automations[index]? = some automation)
    (isSensor : automation.automationType = .sensor) :
    config.maxTicksRetained ≠ some 0 := by
  intro noneRetained
  let first : TickState := ingest config { ticks := [], startedAt := 0 } automation index 1
    (some "cursor")
  have firstStep : step config { ticks := [], startedAt := 0 } (.record index 1 (some "cursor")) =
    some first := by
    simp [step, isAutomation, isSensor, first]
  have restored := restores [] 0 (fun record mem => absurd mem List.not_mem_nil)
    [.record index 1 (some "cursor")] [] _
    (perform_append.mpr ⟨first, perform_cons.mpr ⟨first, firstStep, rfl⟩,
      perform_cons.mpr ⟨_, rfl, rfl⟩⟩)
    index automation isAutomation isSensor 1 (some "cursor") (by simp [first, ingest])
  simp [first, ingest, noneRetained, prune, pruneTicks, getTicks, restoredCursor] at restored

end TickState

/-- Cursors are restored exactly if each sensor has its own name and a tick is retained. -/
theorem cursors_restored_iff (config : TickConfig) : config.RestoresCursors ↔
    config.KeepsCursors := by
  constructor
  · grind [retained_of_restoresCursors, unique_of_restoresCursors, TickConfig.KeepsCursors]
  · exact restoresCursors_of_keepsCursors

def namesakes : TickConfig :=
  { automations := [⟨.sensor, "orders"⟩, ⟨.automationCondition, "orders"⟩]
    maxTicksRetained := some 100
    maxBatch := 256 }

def unretained : TickConfig :=
  { automations := [⟨.sensor, "orders"⟩]
    maxTicksRetained := some 0
    maxBatch := 256 }

/-- The asset's tick is restored for the sensor, without a cursor; where no tick is retained none is
restored. -/
theorem cursor_not_restored :
    (perform (TickState.step namesakes) { ticks := [], startedAt := 0 }
      [.record 0 1 (some "5"), .record 1 2 none, .flush (.stored [])]).map
      (fun final => (final.last.lookup 0, restoredCursor final.ticks "orders")) =
        some (some (1, some "5"), none) ∧
    (perform (TickState.step unretained) { ticks := [], startedAt := 0 }
      [.record 0 1 (some "5"), .flush (.stored [])]).map
      (fun final => (final.last.lookup 0, restoredCursor final.ticks "orders")) =
        some (some (1, some "5"), none) := by
  decide +kernel

end Rivers

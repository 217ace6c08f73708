import Rivers.Lib.Windows
import Rivers.Sensor.RunStatusCore

/-! The window of a run-status sensor. -/

namespace Rivers

open Transitions RunStatusCursor EndedRun

namespace RunStatusCursor

variable {cursor : RunStatusCursor} {bound : Int}

theorem since_le_iff :
    cursor.since ≤ bound ↔ cursor.floor ≤ bound ∧ ∀ entry ∈ cursor.seen, entry.2 - overlapNs ≤
      bound := by
  grind [List.max?_eq_some_iff, List.mem_map_of_mem, since]

theorem since_eq (cursor : RunStatusCursor) :
    cursor.since = cursor.floor ∨ ∃ entry ∈ cursor.seen, cursor.since = entry.2 - overlapNs := by
  by_contra neither
  push Not at neither
  obtain ⟨notFloor, notEntry⟩ := neither
  have bounds := since_le_iff.mp (le_refl cursor.since)
  have below : cursor.since ≤ cursor.since - 1 := by
    refine since_le_iff.mpr ⟨by omega, fun entry isEntry => ?_⟩
    have le := bounds.2 entry isEntry
    have ne := notEntry entry isEntry
    omega
  omega

theorem since_prune : cursor.prune.since = cursor.since := by
  have bounds := since_le_iff.mp (le_refl cursor.since)
  refine le_antisymm (since_le_iff.mpr ⟨bounds.1, fun entry isEntry => ?_⟩) ?_
  · exact bounds.2 entry (List.mem_of_mem_filter isEntry)
  · have pruned := since_le_iff.mp (le_refl cursor.prune.since)
    rcases since_eq cursor with isFloor | ⟨entry, isEntry, isSince⟩
    · rw [isFloor]
      exact pruned.1
    · grind [prune, overlapNs]

theorem since_advance_le_iff {handled} :
    (cursor.advance handled).since ≤ bound ↔
      cursor.since ≤ bound ∧ ∀ run ∈ handled, run.endTime - overlapNs ≤ bound := by
  simp only [advance, since_prune, since_le_iff, List.forall_mem_append,
    List.forall_mem_map, and_assoc]

theorem since_idle_le_iff {now} :
    (cursor.idle now).since ≤ bound ↔ cursor.since ≤ bound ∧ now - overlapNs ≤ bound := by
  simp only [idle, since_prune, since_le_iff, max_le_iff]
  tauto

theorem fetch_snd (rows : List EndedRun) (now : Int) : (cursor.fetch rows now).2 =
    cursor.selectNew rows := by
  unfold fetch
  simp only
  split
  · rename_i nothing
    exact nothing.symm
  · rfl

theorem isSeen_iff {run} : cursor.isSeen run = true ↔ ∃ entry ∈ cursor.seen, entry.1 =
    run.runId := by
  simp [isSeen]

theorem selectNew_take (cursor : RunStatusCursor) {rows : List EndedRun}
    (distinct : (rows.map runId).Nodup) :
    cursor.selectNew (rows.take cursor.readLimit) = (rows.filter fun run => !cursor.isSeen run).take
      runsPerTick := by
  refine Windows.take_filter_take ?_
  have seenIds : ((rows.filter fun run => !!cursor.isSeen run).map runId).Nodup :=
    distinct.sublist ((List.filter_sublist).map _)
  have inside : (rows.filter fun run => !!cursor.isSeen run).map runId ⊆ cursor.seen.map
    Prod.fst := by
    grind [isSeen]
  simpa using (List.subperm_of_subset seenIds inside).length_le

end RunStatusCursor

namespace RunStatusSensor

variable {spec : RunStatusSpec} {runs : List EndedRun} {sensor next : RunStatusSensor} {floor : Int}
  {cursor : RunStatusCursor} {tick : RunStatusTick}

structure Tracks (spec : RunStatusSpec) (runs : List EndedRun) (floor : Int)
    (cursor : RunStatusCursor) (handed : List String) : Prop where
  nodup : handed.Nodup
  seen : ∀ entry ∈ cursor.seen, entry.1 ∈ handed ∧ ∃ run ∈ runs, (run.runId, run.endTime) = entry
  handled : ∀ run ∈ runs, run.runId ∈ handed → cursor.since ≤ run.endTime → cursor.isSeen run = true
  unhandled : ∀ run ∈ runs, spec.watches run = true → floor ≤ run.endTime → run.runId ∉ handed →
    cursor.since ≤ run.endTime

structure Reads (spec : RunStatusSpec) (runs : List EndedRun) (since readAt : Int)
    (rows : List EndedRun) : Prop where
  perm : rows.Perm (endedSince spec runs since readAt)
  sorted : rows.Pairwise fun first second => first.endTime ≤ second.endTime

section Reading

variable {since readAt : Int} {rows : List EndedRun} {run : EndedRun}
  (reads : Reads spec runs since readAt rows)
include reads

theorem Reads.mem_iff :
    run ∈ rows ↔ run ∈ runs ∧ run.visibleAt ≤ readAt ∧ spec.watches run = true ∧
    since ≤ run.endTime := by
  rw [reads.perm.mem_iff, endedSince, List.mem_filter]
  simp [and_assoc]

theorem Reads.distinct (distinct : (runs.map runId).Nodup) : (rows.map runId).Nodup :=
  (reads.perm.map _).nodup_iff.mpr (distinct.sublist ((List.filter_sublist).map _))

end Reading

theorem eq_of_runId (distinct : (runs.map runId).Nodup) {run other} (isRun : run ∈ runs)
    (isOther : other ∈ runs) (same : run.runId = other.runId) : run = other :=
  List.inj_on_of_nodup_map distinct isRun isOther same

def VisibleInTime (runs : List EndedRun) : Prop :=
  ∀ run ∈ runs, run.endTime ≤ run.visibleAt ∧ run.visibleAt ≤ run.endTime + overlapNs

namespace Tracks

variable {handed : List String} {rows new : List EndedRun} {readAt now : Int}

theorem seen_of_window (distinct : (runs.map runId).Nodup)
    (held : Tracks spec runs floor cursor handed) {run} (isRun : run ∈ runs)
    (isHanded : run.runId ∈ handed)
      (inWindow : cursor.since ≤ run.endTime) :
    (run.runId, run.endTime) ∈ cursor.seen := by
  obtain ⟨entry, isEntry, isId⟩ := isSeen_iff.mp (held.handled run isRun isHanded inWindow)
  obtain ⟨-, other, isOther, rfl⟩ := held.seen entry isEntry
  rwa [eq_of_runId distinct isOther isRun isId] at isEntry

theorem unseen (held : Tracks spec runs floor cursor handed) {run} (isOpen : run.runId ∉ handed) :
    cursor.isSeen run = false := by
  by_contra isSeen
  obtain ⟨entry, isEntry, isId⟩ := isSeen_iff.mp (Bool.eq_true_of_not_eq_false isSeen)
  exact isOpen (isId ▸ (held.seen entry isEntry).1)

theorem idle (distinct : (runs.map runId).Nodup) (held : Tracks spec runs floor cursor handed)
    (reads : Reads spec runs cursor.since readAt rows)
    (allSeen : ∀ run ∈ rows, cursor.isSeen run = true)
    (clocked : ∀ run ∈ runs, spec.watches run = true → run.visibleAt ≤ readAt ∨
      now ≤ run.endTime + overlapNs) :
    Tracks spec runs floor (cursor.idle now) handed := by
  refine ⟨held.nodup, fun entry isEntry => ?_, fun run isRun isHanded inWindow => ?_,
    fun run isRun isWatched notBefore isOpen => ?_⟩
  · exact held.seen entry (List.mem_of_mem_filter isEntry)
  · have since := RunStatusCursor.since_idle_le_iff.mp inWindow
    refine RunStatusCursor.isSeen_iff.mpr ⟨(run.runId, run.endTime), List.mem_filter.mpr ⟨?_, ?_⟩,
      rfl⟩
    · exact held.seen_of_window distinct isRun isHanded since.1
    · rw [RunStatusCursor.idle, RunStatusCursor.since_prune] at inWindow
      exact decide_eq_true inWindow
  · have inWindow := held.unhandled run isRun isWatched notBefore isOpen
    refine RunStatusCursor.since_idle_le_iff.mpr ⟨inWindow, ?_⟩
    rcases clocked run isRun isWatched with isVisible | inTime
    · have isSeen := allSeen run (reads.mem_iff.mpr ⟨isRun, isVisible, isWatched, inWindow⟩)
      rw [held.unseen isOpen] at isSeen
      cases isSeen
    · omega

theorem advance (distinct : (runs.map runId).Nodup) (visible : VisibleInTime runs)
    (held : Tracks spec runs floor cursor handed) (reads : Reads spec runs cursor.since readAt rows)
    (isNew : new = (rows.filter fun run => !cursor.isSeen run).take runsPerTick) :
    Tracks spec runs floor (cursor.advance new) (handed ++ new.map runId) := by
  have ofNew (run : EndedRun) (mem : run ∈ new) : run ∈ rows ∧ cursor.isSeen run = false := by
    rw [isNew] at mem
    simpa using List.mem_filter.mp (List.mem_of_mem_take mem)
  have newIsRun (run : EndedRun) (mem : run ∈ new) : run ∈ runs :=
    (reads.mem_iff.mp (ofNew run mem).1).1
  have entry (run : EndedRun) (isRun : run ∈ runs) (isHanded : run.runId ∈ handed ++ new.map runId)
      (inWindow : cursor.since ≤ run.endTime) :
      (run.runId, run.endTime) ∈ cursor.seen ++ new.map fun run => (run.runId, run.endTime) := by
    rcases List.mem_append.mp isHanded with old | isLater
    · exact List.mem_append_left _ (held.seen_of_window distinct isRun old inWindow)
    · obtain ⟨other, isOther, isId⟩ := List.mem_map.mp isLater
      rw [← eq_of_runId distinct (newIsRun other isOther) isRun isId]
      exact List.mem_append_right _ (List.mem_map.mpr ⟨other, isOther, rfl⟩)
  refine ⟨?_, ?_, fun run isRun isHanded inWindow => ?_,
    fun run isRun isWatched notBefore isOpen => ?_⟩
  · have newDistinct : (new.map runId).Nodup := by
      rw [isNew]
      exact (reads.distinct distinct).sublist
        (((List.take_sublist _ _).trans List.filter_sublist).map _)
    refine List.nodup_append.mpr ⟨held.nodup, newDistinct,
      fun runId isHanded other isOther same => ?_⟩
    obtain ⟨run, isRun, rfl⟩ := List.mem_map.mp isOther
    have row := reads.mem_iff.mp (ofNew run isRun).1
    grind [handled]
  · intro pair isPair
    rcases List.mem_append.mp (List.mem_of_mem_filter isPair) with old | isLater
    · exact ⟨List.mem_append_left _ (held.seen pair old).1, (held.seen pair old).2⟩
    · grind
  · have since := since_advance_le_iff.mp inWindow
    refine isSeen_iff.mpr ⟨(run.runId, run.endTime), List.mem_filter.mpr ⟨?_, ?_⟩, rfl⟩
    · exact entry run isRun isHanded since.1
    · grind [since_prune, advance]
  · rw [List.mem_append, not_or] at isOpen
    have inWindow := held.unhandled run isRun isWatched notBefore isOpen.1
    refine since_advance_le_iff.mpr ⟨inWindow, fun other isOther => ?_⟩
    by_contra moved
    -- A run that ended so long before one that is visible is visible too, and comes before it.
    have row := reads.mem_iff.mp (ofNew other isOther).1
    have isVisible : run.visibleAt ≤ readAt := by
      have ofOther := visible other row.1
      have ofRun := visible run isRun
      omega
    have inRows := reads.mem_iff.mpr ⟨isRun, isVisible, isWatched, inWindow⟩
    have sorted : (rows.filter fun run => !cursor.isSeen run).Pairwise fun first second =>
        first.endTime ≤ second.endTime := reads.sorted.sublist List.filter_sublist
    have isSelected : run ∈ new := by
      rw [isNew] at isOther ⊢
      refine Windows.mem_take_of_lt sorted
        (List.mem_filter.mpr ⟨inRows, by simp [held.unseen isOpen.1]⟩) isOther ?_
      have positive : (0 : Int) ≤ overlapNs := by decide
      omega
    exact isOpen.2 (List.mem_map_of_mem isSelected)

theorem fetch (distinct : (runs.map runId).Nodup) (visible : VisibleInTime runs)
    (held : Tracks spec runs floor cursor handed) (reads : Reads spec runs cursor.since readAt rows)
    (clocked : ∀ run ∈ runs, spec.watches run = true → run.visibleAt ≤ readAt ∨
      now ≤ run.endTime + overlapNs) :
    Tracks spec runs floor (cursor.fetch (rows.take cursor.readLimit) now).1
      (handed ++ (cursor.fetch (rows.take cursor.readLimit) now).2.map runId) := by
  have isNew := cursor.selectNew_take (reads.distinct distinct)
  unfold RunStatusCursor.fetch
  simp only
  split
  · rename_i nothing
    rw [List.map_nil, List.append_nil]
    refine held.idle distinct reads (fun run isRow => ?_) clocked
    rw [isNew, List.take_eq_nil_iff] at nothing
    have noneUnseen := List.filter_eq_nil_iff.mp (nothing.resolve_left (by decide)) run isRow
    simpa using noneUnseen
  · exact held.advance distinct visible reads isNew

end Tracks

theorem tick_eq_some (ticked : sensor.tick spec runs tick = some next) :
    (sensor.cursor = none ∧ next.cursor = some (.init tick.clockAt) ∧
      next.watchedFrom = some tick.clockAt ∧
      next.handed = sensor.handed) ∨
    ∃ cursor, sensor.cursor = some cursor ∧ Reads spec runs cursor.since tick.readAt tick.rows ∧
      next.watchedFrom = sensor.watchedFrom ∧
      match tick.outcome with
      | .completed =>
        next.cursor = some (cursor.fetch (tick.rows.take cursor.readLimit) tick.clockAt).1 ∧
          next.handed = sensor.handed ++
            (cursor.fetch (tick.rows.take cursor.readLimit) tick.clockAt).2.map runId
      | .failed called =>
        next.cursor = some cursor ∧
          next.handed = sensor.handed ++
            ((cursor.fetch (tick.rows.take cursor.readLimit) tick.clockAt).2.take called).map
              runId := by
  unfold RunStatusSensor.tick at ticked
  split at ticked
  · split at ticked
    · rename_i noCursor
      cases ticked
      exact .inl ⟨noCursor, rfl, rfl, rfl⟩
    · grind [Reads]
  · cases ticked

structure SafeTick (spec : RunStatusSpec) (runs : List EndedRun) (tick : RunStatusTick) : Prop where
  called : ∀ called, tick.outcome = .failed called → called = 0
  clocked : ∀ run ∈ runs, spec.watches run = true →
    run.visibleAt ≤ tick.readAt ∨ tick.clockAt ≤ run.endTime + overlapNs

def Watching (spec : RunStatusSpec) (runs : List EndedRun) (floor : Int)
    (sensor : RunStatusSensor) : Prop :=
  sensor.watchedFrom = some floor ∧
    ∃ cursor, sensor.cursor = some cursor ∧ Tracks spec runs floor cursor sensor.handed

section Ticks

variable (distinct : (runs.map runId).Nodup) (visible : VisibleInTime runs)
include distinct visible

theorem Watching.afterTick (held : Watching spec runs floor sensor)
    (ticked : sensor.tick spec runs tick = some next)
    (safe : SafeTick spec runs tick) : Watching spec runs floor next := by
  obtain ⟨isFloor, cursor, isCursor, tracks⟩ := held
  rcases tick_eq_some ticked with ⟨noCursor, -⟩ | ⟨other, isOther, reads, sameFloor, outcome⟩
  · rw [isCursor] at noCursor
    cases noCursor
  · rw [isCursor, Option.some.injEq] at isOther
    subst isOther
    refine ⟨sameFloor.trans isFloor, ?_⟩
    cases isOutcome : tick.outcome with
    | completed =>
      simp only [isOutcome] at outcome
      refine ⟨_, outcome.1, ?_⟩
      rw [outcome.2]
      exact tracks.fetch distinct visible reads safe.clocked
    | failed called =>
      simp only [isOutcome, safe.called called isOutcome, List.take_zero, List.map_nil,
        List.append_nil] at outcome
      exact ⟨cursor, outcome.1, by rw [outcome.2]; exact tracks⟩

end Ticks

theorem init_watching (noCursor : sensor.cursor = none) (noneHanded : sensor.handed = [])
    (ticked : sensor.tick spec runs tick = some next) : Watching spec runs tick.clockAt next := by
  rcases tick_eq_some ticked with ⟨-, isCursor, isFloor, same⟩ | ⟨cursor, isCursor, -⟩
  · refine ⟨isFloor, _, isCursor, ?_⟩
    rw [same, noneHanded]
    exact ⟨List.nodup_nil, fun _ mem => absurd mem List.not_mem_nil,
      fun _ _ mem => absurd mem List.not_mem_nil, fun _ _ _ notBefore _ => notBefore⟩
  · rw [noCursor] at isCursor
    cases isCursor

def remaining (runs : List EndedRun) (run : EndedRun) (handed : List String) : Nat :=
  (runs.filter fun other => other.endTime ≤ run.endTime && !handed.contains other.runId).length

section Remaining

variable {run first : EndedRun} {handed later : List String}

theorem remaining_sublist :
    (runs.filter fun other => other.endTime ≤ run.endTime && !(handed ++ later).contains
      other.runId).Sublist
      (runs.filter fun other => other.endTime ≤ run.endTime && !handed.contains other.runId) := by
  grind [List.monotone_filter_right]

theorem remaining_le : remaining runs run (handed ++ later) ≤ remaining runs run handed :=
  remaining_sublist.length_le

theorem remaining_lt (isFirst : first ∈ runs) (pre : first.endTime ≤ run.endTime)
    (wasOpen : first.runId ∉ handed) (isHanded : first.runId ∈ later) :
    remaining runs run (handed ++ later) < remaining runs run handed := by
  refine lt_of_le_of_ne remaining_le fun same => ?_
  have mem : first ∈ runs.filter fun other => other.endTime ≤ run.endTime && !handed.contains
    other.runId := by
    simp [isFirst, pre, wasOpen]
  rw [← remaining_sublist.eq_of_length same] at mem
  simp [isHanded] at mem

end Remaining

def reads (run : EndedRun) (tick : RunStatusTick) : Bool :=
  tick.outcome = .completed && run.visibleAt ≤ tick.readAt

theorem remaining_of_tick (distinct : (runs.map runId).Nodup)
    (held : Watching spec runs floor sensor) (ticked : sensor.tick spec runs tick = some next)
    {run : EndedRun} (isRun : run ∈ runs) (isWatched : spec.watches run = true)
    (notBefore : floor ≤ run.endTime) (isOpen : run.runId ∉ sensor.handed) :
    (if reads run tick then 1 else 0) + remaining runs run next.handed ≤
      remaining runs run sensor.handed := by
  obtain ⟨-, cursor, isCursor, tracks⟩ := held
  rcases tick_eq_some ticked with ⟨noCursor, -⟩ | ⟨other, isOther, reads, -, outcome⟩
  · rw [isCursor] at noCursor
    cases noCursor
  rw [isCursor, Option.some.injEq] at isOther
  subst isOther
  cases isOutcome : tick.outcome with
  | failed called => grind [remaining_le, reads]
  | completed =>
    simp only [isOutcome] at outcome
    rw [outcome.2]
    by_cases isVisible : run.visibleAt ≤ tick.readAt
    · have isRead : RunStatusSensor.reads run tick = true := by
        simp [RunStatusSensor.reads, isOutcome, isVisible]
      have inWindow := tracks.unhandled run isRun isWatched notBefore isOpen
      have inRows := reads.mem_iff.mpr ⟨isRun, isVisible, isWatched, inWindow⟩
      have among : run ∈ tick.rows.filter fun run => !cursor.isSeen run :=
        List.mem_filter.mpr ⟨inRows, by simp [tracks.unseen isOpen]⟩
      have sorted : (tick.rows.filter fun run => !cursor.isSeen run).Pairwise fun first second =>
          first.endTime ≤ second.endTime := reads.sorted.sublist List.filter_sublist
      rw [fetch_snd, cursor.selectNew_take (reads.distinct distinct)]
      cases isFilter : tick.rows.filter fun run => !cursor.isSeen run with
      | nil =>
        rw [isFilter] at among
        cases among
      | cons first rest =>
        have isFirst : first ∈ tick.rows.filter fun run => !cursor.isSeen run := by simp [isFilter]
        obtain ⟨firstRow, firstUnseen⟩ := List.mem_filter.mp isFirst
        have row := reads.mem_iff.mp firstRow
        have wasOpen : first.runId ∉ sensor.handed := by
          intro isHanded
          simp [tracks.handled first row.1 isHanded row.2.2.2] at firstUnseen
        have isHanded : first.runId ∈ ((first :: rest).take runsPerTick).map runId := by
          simp [runsPerTick]
        have less := remaining_lt row.1 (Windows.head_le sorted (by rw [isFilter]; rfl) among)
          wasOpen isHanded
        rw [isRead, if_pos rfl]
        omega
    · grind [remaining_le, reads]

theorem handed_subset (ticked : sensor.tick spec runs tick = some next) :
    sensor.handed ⊆ next.handed := by
  rcases tick_eq_some ticked with ⟨-, -, -, same⟩ | ⟨cursor, -, -, -, out⟩
  · rw [same]
    exact List.Subset.refl _
  · grind

theorem Watching.perform (distinct : (runs.map runId).Nodup) (visible : VisibleInTime runs)
    (held : Watching spec runs floor sensor) {ticks final}
    (performed : Transitions.perform (RunStatusSensor.tick spec runs) sensor ticks = some final)
    (safe : ∀ tick ∈ ticks, SafeTick spec runs tick) :
    Watching spec runs floor final ∧ sensor.handed ⊆ final.handed ∧
      ∀ run ∈ runs, spec.watches run = true → floor ≤ run.endTime → run.runId ∉ final.handed →
        (ticks.filter (reads run)).length + remaining runs run final.handed ≤
          remaining runs run sensor.handed := by
  induction ticks generalizing sensor with
  | nil =>
    cases performed
    exact ⟨held, List.Subset.refl _, fun run _ _ _ _ => by simp⟩
  | cons tick ticks ih =>
    obtain ⟨next, ticked, rest⟩ := perform_cons.mp performed
    rw [List.forall_mem_cons] at safe
    obtain ⟨watching, grows, progress⟩ := ih (held.afterTick distinct visible ticked safe.1) rest
      safe.2
    refine ⟨watching, List.Subset.trans (handed_subset ticked) grows,
      fun run isRun isWatched notBefore isOpen => ?_⟩
    have later := progress run isRun isWatched notBefore isOpen
    have now := remaining_of_tick distinct held ticked isRun isWatched notBefore
      fun isHanded => isOpen (grows (handed_subset ticked isHanded))
    rw [List.filter_cons]
    split at now
    · rename_i isRead
      rw [if_pos isRead, List.length_cons]
      omega
    · rename_i notRead
      rw [if_neg notRead]
      omega

/-- Every run is handed over at most once, and once enough ticks have completed. -/
theorem runs_handed_once (distinct : (runs.map EndedRun.runId).Nodup) (visible : VisibleInTime runs)
    {ticks : List RunStatusTick} {final : RunStatusSensor}
    (performed : perform (RunStatusSensor.tick spec runs) {} ticks = some final)
    (safe : ∀ tick ∈ ticks, SafeTick spec runs tick) :
    final.handed.Nodup ∧
      ∀ run ∈ runs, spec.watches run = true → ∀ floor, final.watchedFrom = some floor →
        floor ≤ run.endTime →
        runs.length < (ticks.filter (reads run)).length → run.runId ∈ final.handed := by
  cases ticks with
  | nil =>
    cases performed
    exact ⟨List.nodup_nil, fun run _ _ floor noFloor => by cases noFloor⟩
  | cons tick ticks =>
    obtain ⟨next, ticked, rest⟩ := perform_cons.mp performed
    rw [List.forall_mem_cons] at safe
    obtain ⟨⟨isFloor, cursor, -, tracks⟩, -, progress⟩ :=
      (init_watching rfl rfl ticked).perform distinct visible rest safe.2
    refine ⟨tracks.nodup, fun run isRun isWatched floor sameFloor notBefore enough => ?_⟩
    rw [isFloor, Option.some.injEq] at sameFloor
    subst sameFloor
    by_contra isOpen
    have spent := progress run isRun isWatched notBefore isOpen
    have bounded : remaining runs run next.handed ≤ runs.length := List.length_filter_le _ _
    have atLeastOne : 0 < remaining runs run final.handed :=
      List.length_pos_of_mem (List.mem_filter.mpr ⟨isRun, by simpa using isOpen⟩)
    have counted : ((tick :: ticks).filter (reads run)).length ≤
      (ticks.filter (reads run)).length + 1 := by
      rw [List.filter_cons]
      split
      · exact Nat.le_refl _
      · exact Nat.le_succ _
    omega

theorem below_window (distinct : (runs.map runId).Nodup) {run} (isRun : run ∈ runs)
    (isCursor : sensor.cursor = some cursor) (below : run.endTime < cursor.since)
    (isOpen : run.runId ∉ sensor.handed) {ticks final}
    (performed : perform (RunStatusSensor.tick spec runs) sensor ticks = some final) :
    run.runId ∉ final.handed := by
  induction ticks generalizing sensor cursor with
  | nil =>
    cases performed
    exact isOpen
  | cons tick ticks ih =>
    obtain ⟨next, ticked, rest⟩ := perform_cons.mp performed
    rcases tick_eq_some ticked with ⟨noCursor, -⟩ | ⟨other, isOther, reads, -, outcome⟩
    · rw [isCursor] at noCursor
      cases noCursor
    rw [isCursor, Option.some.injEq] at isOther
    subst isOther
    have notNew : run.runId ∉ (cursor.fetch (tick.rows.take cursor.readLimit) tick.clockAt).2.map
      runId := by
      rw [fetch_snd, cursor.selectNew_take (reads.distinct distinct)]
      intro member
      obtain ⟨selected, isSelected, isId⟩ := List.mem_map.mp member
      have row := reads.mem_iff.mp (List.mem_of_mem_filter (List.mem_of_mem_take isSelected))
      rw [eq_of_runId distinct row.1 isRun isId] at row
      omega
    cases isOutcome : tick.outcome with
    | completed =>
      simp only [isOutcome] at outcome
      refine ih outcome.1 (lt_of_lt_of_le below ?_) ?_ rest
      · unfold fetch
        simp only
        split
        · exact (since_idle_le_iff.mp (le_refl _)).1
        · exact (since_advance_le_iff.mp (le_refl _)).1
      · rw [outcome.2, List.mem_append, not_or]
        exact ⟨isOpen, notNew⟩
    | failed called => grind

def lateRun : EndedRun :=
  { runId := "late", status := .failure, endTime := 100, visibleAt := 100 + overlapNs }

def earlyRun : EndedRun :=
  { runId := "early", status := .failure, endTime := 100, visibleAt := 130 }

def failures : RunStatusSpec := { status := .failure }

def earlyTicks : List RunStatusTick :=
  [{ readAt := 0, clockAt := 0 }, { readAt := 120, clockAt := 125 },
    { readAt := 140, clockAt := 140, rows := [earlyRun] },
    { readAt := 150, clockAt := 150, rows := [earlyRun] }]

theorem runs_handed_once_early :
    (perform (RunStatusSensor.tick failures [earlyRun]) {} earlyTicks).map (·.handed) =
      some ["early"] ∧
      ∀ final, perform (RunStatusSensor.tick failures [earlyRun]) {} earlyTicks = some final →
        final.handed.Nodup ∧
          ∀ run ∈ [earlyRun], failures.watches run = true → ∀ floor, final.watchedFrom =
            some floor →
            floor ≤ run.endTime → [earlyRun].length < (earlyTicks.filter (reads run)).length →
              run.runId ∈ final.handed := by
  have safe : ∀ tick ∈ earlyTicks, tick.outcome = .completed ∧
      ∀ run ∈ [earlyRun], run.visibleAt ≤ tick.readAt ∨ tick.clockAt ≤ run.endTime + overlapNs := by
    decide
  refine ⟨by decide +kernel, fun final performed =>
    runs_handed_once (by decide) (by unfold VisibleInTime; decide) performed fun tick isTick =>
      ⟨fun called failed => ?_, fun run isRun _ => (safe tick isTick).2 run isRun⟩⟩
  rw [(safe tick isTick).1] at failed
  cases failed

def lostTicks : List RunStatusTick :=
  [{ readAt := 0, clockAt := 0 }, { readAt := 50 + overlapNs, clockAt := 200 + overlapNs }]

def failedTicks : List RunStatusTick :=
  [{ readAt := 0, clockAt := 0 }, { readAt := 140, clockAt := 140, rows := [earlyRun], outcome := .failed 1 },
    { readAt := 150, clockAt := 150, rows := [earlyRun] }]

/-- A run visible behind an idle tick's read is lost; a failing tick hands its run over again. -/
theorem run_lost_and_run_handed_twice :
    VisibleInTime [lateRun] ∧ failures.watches lateRun = true ∧
      (perform (RunStatusSensor.tick failures [lateRun]) {} lostTicks).isSome ∧
      (∀ ticks final, perform (RunStatusSensor.tick failures [lateRun]) {} (lostTicks ++ ticks) =
        some final →
        lateRun.runId ∉ final.handed) ∧
      VisibleInTime [earlyRun] ∧
      (perform (RunStatusSensor.tick failures [earlyRun]) {} failedTicks).map (·.handed) =
        some ["early", "early"] := by
  refine ⟨by unfold VisibleInTime; decide, by decide, by decide +kernel, fun ticks final performed => ?_,
    by unfold VisibleInTime; decide, by decide +kernel⟩
  obtain ⟨reached, first, rest⟩ := perform_append.mp performed
  have after : (perform (RunStatusSensor.tick failures [lateRun]) {} lostTicks).map
      (fun sensor => (sensor.cursor, sensor.handed)) = some (some { floor := 200 }, []) := by
    decide +kernel
  rw [first, Option.map_some, Option.some.injEq, Prod.mk.injEq] at after
  refine below_window (by decide) (List.mem_singleton.mpr rfl) after.1 (by decide) ?_ rest
  rw [after.2]
  exact List.not_mem_nil

end RunStatusSensor

end Rivers

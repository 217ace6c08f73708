import Rivers.Partitions.MappingCore
import Rivers.Partitions.TimeGrid

/-! Time-window mappings, forth and back. -/

namespace Rivers

open Ladder TimeWindow PartitionSelection PartitionKey PartitionMappingKind PartitionsDefinition

namespace TimeWindow

variable {library : TimeLibrary} {window : TimeWindow} {time shifted : DateTime} {offset : Int}
  {key : String}

theorem countTicks_eq (time : DateTime) (ticks : List DateTime) (remaining : Nat)
    (positive : 0 < remaining) :
    countTicks time remaining ticks = (ticks.filter (· ≠ time))[remaining - 1]? := by
  induction ticks generalizing remaining with
  | nil => rfl
  | cons tick ticks ih => grind [countTicks]

def cronTrack (cron : Cron) (time : DateTime) (offset : Int) : List DateTime :=
  if 0 < offset then above cron.occurrences time else below cron.occurrences time

theorem countTicks_iterFrom (cron : Cron) (whole : time.subsecNanosecond = 0)
    (nonzero : offset ≠ 0) :
    countTicks time offset.natAbs
      (cron.iterFrom time (if 0 < offset then .forward else .backward)) =
      (cronTrack cron time offset)[offset.natAbs - 1]? := by
  rw [countTicks_eq _ _ _ (Int.natAbs_pos.mpr nonzero)]
  unfold cronTrack
  split
  · rw [Cron.iterFrom_forward whole, List.filter_filter, above]
    grind
  · rw [Cron.iterFrom_backward whole, List.filter_reverse, List.filter_filter, below]
    grind

section Shift

theorem shiftTime_interval {ivl} (given : window.intervalNanos = some ivl) (positive : 0 < ivl) :
    window.shiftTime library key time offset = .ok shifted ↔
      toI64? (ivl * offset) = some (ivl * offset) ∧ shifted.1 = time.1 + ivl * offset := by
  simp only [shiftTime, given]
  rw [if_neg (by omega), ← DateTime.checkedAdd_eq_some]
  grind [toI64?]

theorem shiftTime_cron {expr cron} (noInterval : window.intervalNanos = none)
    (given : window.cronSchedule = some expr) (parsed : library.parseCron expr = some cron)
    (whole : time.subsecNanosecond = 0) (nonzero : offset ≠ 0) :
    window.shiftTime library key time offset = .ok shifted ↔
      (cronTrack cron time offset)[offset.natAbs - 1]? = some shifted := by
  grind [countTicks_iterFrom, shiftTime]

theorem mem_of_cronTrack {cron} {index : Nat}
    (found : (cronTrack cron time offset)[index]? = some shifted) :
    shifted ∈ cron.occurrences ∧ if 0 < offset then time < shifted else shifted < time := by
  have mem := List.mem_of_getElem? found
  grind [below, above, cronTrack]

theorem IsWindowStart.shift (schedule : Schedule library window)
    (onGrid : window.IsWindowStart library time) (nonzero : offset ≠ 0)
    (found : window.shiftTime library key time offset = .ok shifted)
    (afterStart : window.start ≤ shifted) : window.IsWindowStart library shifted := by
  cases schedule with
  | interval interval given positive =>
    obtain ⟨-, same⟩ := (shiftTime_interval given positive).mp found
    simp only [IsWindowStart, given] at onGrid ⊢
    obtain ⟨count, onGrid⟩ := onGrid
    have after : window.start.1 ≤ shifted.1 := afterStart
    have total : shifted.1 = window.start.1 + (count + offset) * interval := by
      rw [same, onGrid]
      ring
    have nonneg : 0 ≤ count + offset := by
      by_contra negative
      have : (count + offset) * interval < 0 := Int.mul_neg_of_neg_of_pos (by omega) positive
      omega
    exact ⟨(count + offset).toNat, by rw [total, Int.toNat_of_nonneg nonneg]⟩
  | cron expr cron noInterval given parsed whole =>
    simp only [IsWindowStart, noInterval, given] at onGrid ⊢
    obtain ⟨_, _, member, _⟩ := onGrid
    have timeWhole := Cron.wholeSeconds _ time member
    have track := (shiftTime_cron noInterval given parsed timeWhole nonzero).mp found
    exact ⟨cron, parsed, (mem_of_cronTrack track).1, afterStart⟩

end Shift

variable (window) in
def ShiftNegates (offset : Int) : Prop :=
  offset ≠ -2 ^ 63 ∧ ∀ interval ∈ window.intervalNanos, interval * offset ≠ -2 ^ 63

instance : Decidable (window.ShiftNegates offset) :=
  inferInstanceAs (Decidable (_ ∧ _))

theorem toI64?_neg {value} (fits : toI64? value = some value) (least : value ≠ -2 ^ 63) :
    toI64? (-value) = some (-value) := by
  unfold toI64? at fits ⊢
  split at fits
  · rw [if_pos (by omega)]
  · cases fits

theorem shiftTime_back (schedule : Schedule library window)
    (onGrid : window.IsWindowStart library time) (nonzero : offset ≠ 0)
    (found : window.shiftTime library key time offset = .ok shifted)
    (negates : window.ShiftNegates offset) {back : String} :
    window.shiftTime library back shifted (negI64 offset) = .ok time := by
  rw [negI64, if_neg negates.1]
  cases schedule with
  | interval interval given positive =>
    obtain ⟨fits, same⟩ := (shiftTime_interval given positive).mp found
    refine (shiftTime_interval given positive).mpr ?_
    rw [Int.mul_neg]
    exact ⟨toI64?_neg fits (negates.2 interval given), by omega⟩
  | cron expr cron noInterval given parsed whole =>
    simp only [IsWindowStart, noInterval, given, parsed, Option.some.injEq, exists_eq_left'] at onGrid
    obtain ⟨member, _⟩ := onGrid
    have track := (shiftTime_cron noInterval given parsed (cron.wholeSeconds time member)
      nonzero).mp found
    have shiftedMember := (mem_of_cronTrack track).1
    refine (shiftTime_cron noInterval given parsed (cron.wholeSeconds shifted shiftedMember)
      (by omega)).mpr ?_
    rw [Int.natAbs_neg]
    unfold cronTrack at track ⊢
    grind [above_of_below, Cron.increasing, below_of_above]

theorem shiftNegates_of_back (schedule : Schedule library window)
    (onGrid : window.IsWindowStart library time)
    (shiftedOnGrid : window.IsWindowStart library shifted) (nonzero : offset ≠ 0)
    (found : window.shiftTime library key time offset = .ok shifted) {back : String}
    (foundBack : window.shiftTime library back shifted (negI64 offset) = .ok time) :
    window.ShiftNegates offset := by
  cases schedule with
  | interval interval given positive =>
    obtain ⟨fits, same⟩ := (shiftTime_interval given positive).mp found
    obtain ⟨fitsBack, sameBack⟩ := (shiftTime_interval given positive).mp foundBack
    grind [toI64?, ShiftNegates]
  | cron expr cron noInterval given parsed whole =>
    simp only [IsWindowStart, noInterval, given, parsed, Option.some.injEq, exists_eq_left']
      at onGrid shiftedOnGrid
    refine ⟨fun least => ?_, by simp [noInterval]⟩
    rw [negI64, if_pos least] at foundBack
    have track := (shiftTime_cron noInterval given parsed (cron.wholeSeconds time onGrid.1)
      nonzero).mp found
    have trackBack := (shiftTime_cron noInterval given parsed
      (cron.wholeSeconds shifted shiftedOnGrid.1) nonzero).mp foundBack
    have forth := (mem_of_cronTrack track).2
    grind [mem_of_cronTrack]

section Keys

variable {clock : DateTime}

theorem shiftKey_eq_ok (parsed : library.parseKeyDatetime key window.fmt = some time)
    (nonzero : offset ≠ 0) {result} :
    window.shiftKey library clock key offset = .ok result ↔
      ∃ shifted, window.shiftTime library key time offset = .ok shifted ∧ window.start ≤ shifted ∧
        shifted < window.endBound clock ∧ library.strftime shifted window.fmt = result := by
  grind [shiftKey]

variable (library window) in
def RoundTrips : Prop :=
  ∀ time, window.IsWindowStart library time → (∀ stop ∈ window.endTime, time < stop) →
    library.parseKeyDatetime (library.strftime time window.fmt) window.fmt = some time

theorem lt_end_of_lt_endBound (pre : time < window.endBound clock) :
    ∀ stop ∈ window.endTime, time < stop := by
  intro stop isStop
  rw [endBound, Option.mem_def.mp isStop] at pre
  exact pre

theorem RoundTrips.parse (trips : window.RoundTrips library)
    (onGrid : window.IsWindowStart library time) (pre : time < window.endBound clock) :
    library.parseKeyDatetime (library.strftime time window.fmt) window.fmt = some time :=
  trips time onGrid (lt_end_of_lt_endBound pre)

end Keys

end TimeWindow

namespace PartitionsDefinition

variable (library : TimeLibrary) (definition : PartitionsDefinition)

def hasKey (clock : DateTime) (key : PartitionKey) : Bool :=
  (definition.getPartitionKeys library clock).toOption.any fun keys => key ∈ keys

def RoundTrips : Prop :=
  match definition with
  | .timeWindow window => window.RoundTrips library
  | _ => True

def ShiftNegates (offset : Int) : Prop :=
  match definition with
  | .timeWindow window => window.ShiftNegates offset
  | _ => True

variable {library}

theorem hasKey_timeWindow {window} (schedule : window.Schedule library) {clock key} :
    (timeWindow window).hasKey library clock key ↔
      ∃ time, window.IsWindowStart library time ∧ time < window.endBound clock ∧
        key = .single [library.strftime time window.fmt] := by
  obtain ⟨found, ticksAre⟩ := exists_ticks schedule (window.endBound clock)
  simp only [hasKey, getPartitionKeys, partitionKeys, singleDimKeys, ticksAre, Except.map,
    Except.toOption,
    Option.any_some, decide_eq_true_eq, List.map_map, List.mem_map, Function.comp_apply,
    mem_ticks schedule ticksAre, and_assoc]
  exact exists_congr fun time => and_congr_right fun _ => and_congr_right fun _ => eq_comm

end PartitionsDefinition

namespace PartitionMapping

variable {library : TimeLibrary} {clock executorClock : DateTime} {offset : Int}
  {down up : TimeWindow} {downValue upValue : String}

theorem negI64_ne_zero (nonzero : offset ≠ 0) : negI64 offset ≠ 0 := by
  unfold negI64
  split <;> omega

theorem covers_timeWindow (nonzero : offset ≠ 0) :
    (((timeWindow offset).mappingToKind library clock (some (.timeWindow up))).mapToDownstream
        (.keys {.single [upValue]})).covers (.single [downValue]) ↔
      up.shiftKey library clock upValue (negI64 offset) = .ok downValue := by
  simp only [mappingToKind, Option.bind_some, timeGrid, mapToDownstream,
    mapToDownstreamIn, shiftSelection, if_neg (negI64_ne_zero nonzero),
    Finset.singleton_biUnion]
  have value : (single [upValue]).singleValue = some upValue := rfl
  rw [value, Option.bind_some]
  cases up.shiftKey library clock upValue (negI64 offset) with
  | error reason => simp [Except.toOption, fromKeys, covers]
  | ok shifted =>
    simp [Except.toOption, fromKeys, covers, single_inj, eq_comm]

theorem shiftKey_of_load (nonzero : offset ≠ 0) {upKey}
    (loaded : (timeWindow offset).resolveUpstreamKey library executorClock
      (some (.single [downValue]))
      (some (.timeWindow up)) = .ok (.load (some upKey))) :
    ∃ shifted, up.shiftKey library executorClock downValue offset = .ok shifted ∧
      upKey = .single [shifted] := by
  have raw : (single [downValue]).raw = .single [downValue] := rfl
  simp only [resolveUpstreamKey, mapKey, mapTimeKey, if_neg nonzero, raw] at loaded
  grind

theorem gridCompat_fmt (compatible : down.gridCompat library up = .ok ()) : down.fmt = up.fmt := by
  grind [TimeWindow.gridCompat]

theorem windows_of_edge {downDef upDef}
    (edge : (timeWindow offset).validatePartitionedPair library clock downDef upDef = .ok ()) :
    ∃ down up : TimeWindow, downDef = .timeWindow down ∧ upDef = .timeWindow up ∧
      down.fmt = up.fmt := by
  cases downDef <;> cases upDef <;>
    simp only [validatePartitionedPair, requireTimeWindow, gridCompat, bind, Except.bind,
      reduceCtorEq] at edge
  grind [gridCompat_fmt]

section Derivation

variable (schedule : up.Schedule library) (trips : up.RoundTrips library) (nonzero : offset ≠ 0)
  {downTime upTime : DateTime}
  (downParses : library.parseKeyDatetime downValue up.fmt = some downTime)
  (shifts : up.shiftKey library executorClock downValue offset = .ok upValue)
  (upOnGrid : up.IsWindowStart library upTime) (upBefore : upTime < up.endBound clock)
  (upIs : library.strftime upTime up.fmt = upValue)

include schedule trips nonzero downParses shifts upOnGrid upBefore upIs

theorem shiftTime_of_shiftKey (downOnGrid : up.IsWindowStart library downTime) :
    up.shiftTime library downValue downTime offset = .ok upTime := by
  grind [shiftKey_eq_ok, TimeWindow.IsWindowStart.shift, TimeWindow.RoundTrips.parse]

theorem shiftKey_back :
    up.shiftKey library clock upValue (negI64 offset) = .ok downValue ↔
      up.ShiftNegates offset ∧ up.IsWindowStart library downTime ∧ downTime < up.endBound clock ∧
        library.strftime downTime up.fmt = downValue := by
  have upParses : library.parseKeyDatetime upValue up.fmt = some upTime :=
    upIs ▸ trips.parse upOnGrid upBefore
  rw [shiftKey_eq_ok upParses (negI64_ne_zero nonzero)]
  constructor
  · rintro ⟨back, foundBack, after, pre, formats⟩
    have backOnGrid := upOnGrid.shift schedule (negI64_ne_zero nonzero) foundBack after
    grind [TimeWindow.RoundTrips.parse, shiftTime_of_shiftKey, shiftNegates_of_back, shiftKey]
  · grind [shiftTime_of_shiftKey, shiftTime_back, TimeWindow.IsWindowStart.start_le, shiftKey]

end Derivation

/-- The engine derives the downstream key back exactly if the offset is zero or can be undone. -/
theorem loaded_key_derived_iff {downDef upDef : PartitionsDefinition} {validationClock : DateTime}
    (downValid : downDef.validateDefinition library = .ok ())
    (upValid : upDef.validateDefinition library = .ok ())
    (edge : (timeWindow offset).validatePartitionedPair library validationClock downDef upDef =
      .ok ())
    (downTrips : downDef.RoundTrips library) (upTrips : upDef.RoundTrips library)
    {downKey upKey : PartitionKey}
    (isDown : downDef.hasKey library clock downKey) (isUp : upDef.hasKey library clock upKey)
    (loaded : (timeWindow offset).resolveUpstreamKey library executorClock (some downKey)
      (some upDef) =
      .ok (.load (some upKey))) :
    (((timeWindow offset).mappingToKind library clock (some upDef)).mapToDownstream
        (.keys {upKey})).covers downKey ↔
      offset = 0 ∨ upDef.ShiftNegates offset ∧ upDef.hasKey library clock downKey := by
  obtain ⟨down, up, rfl, rfl, formats⟩ := windows_of_edge edge
  have schedule := schedule_of_validate upValid
  obtain ⟨downTime, downOnGrid, downBefore, rfl⟩ :=
    (hasKey_timeWindow (schedule_of_validate downValid)).mp isDown
  by_cases zero : offset = 0
  · subst zero
    have same : upKey = .single [library.strftime downTime down.fmt] := by
      simp only [resolveUpstreamKey, mapKey, mapTimeKey, if_true, Except.ok.injEq,
        UpstreamKeyResolution.load.injEq, Option.some.injEq] at loaded
      exact loaded.symm
    simp [same, mappingToKind, mapToDownstream, mapToDownstreamIn,
      shiftSelection, negI64, timeGrid, covers]
  · obtain ⟨upTime, upOnGrid, upBefore, rfl⟩ := (hasKey_timeWindow schedule).mp isUp
    obtain ⟨shifted, shifts, sameUp⟩ := shiftKey_of_load zero loaded
    obtain rfl := single_inj.mp sameUp
    have downParses := downTrips.parse downOnGrid downBefore
    rw [formats] at downParses shifts ⊢
    rw [covers_timeWindow zero,
      shiftKey_back schedule upTrips zero downParses shifts upOnGrid upBefore rfl,
      hasKey_timeWindow schedule]
    simp only [zero, false_or]
    refine and_congr_right fun _ => ?_
    constructor
    · rintro ⟨onGrid, before, -⟩
      exact ⟨downTime, onGrid, before, rfl⟩
    · grind [TimeWindow.RoundTrips.parse, single_inj, PartitionsDefinition.RoundTrips]

end PartitionMapping

namespace PartitionMapping

def day (count : Fin 3) : DateTime :=
  ⟨(1704067200 + count.1 * 86400) * 1000000000, by revert count; decide⟩

def dayLibrary : TimeLibrary where
  parseCron _ := none
  strftime time _ :=
    if time = day 0 then "2024-01-01" else if time = day 1 then "2024-01-02" else "2024-01-03"
  parseKeyDatetime key _ :=
    if key = "2024-01-01" then some (day 0)
    else if key = "2024-01-02" then some (day 1)
    else if key = "2024-01-03" then some (day 2)
    else none

def days (count : Nat) (bound : count ≤ 3) : TimeWindow where
  cronSchedule := none
  intervalNanos := some (86400 * 1000000000)
  start := day 0
  endTime := some ⟨(1704067200 + count * 86400) * 1000000000, by unfold minNanos maxNanos; omega⟩
  fmt := "%Y-%m-%d"

theorem dayLibrary_parse : ∀ count : Fin 3,
    dayLibrary.parseKeyDatetime (dayLibrary.strftime (day count) "%Y-%m-%d") "%Y-%m-%d" =
      some (day count) := by
  decide +kernel

theorem days_roundTrips (count : Nat) (bound : count ≤ 3) :
    (days count bound).RoundTrips dayLibrary := by
  rintro time ⟨step, same⟩ beforeEnd
  have pre : time < ⟨(1704067200 + count * 86400) * 1000000000, _⟩ := beforeEnd _ rfl
  have pre : time.1 < (1704067200 + count * 86400) * 1000000000 := pre
  have start : (days count bound).start.1 = 1704067200 * 1000000000 := rfl
  have three : step < 3 := by omega
  obtain rfl : time = day ⟨step, three⟩ := Subtype.ext (by rw [same, start]; simp only [day]; ring)
  exact dayLibrary_parse ⟨step, three⟩

def longer : PartitionsDefinition := .timeWindow (days 3 (by decide))

def shorter : PartitionsDefinition := .timeWindow (days 2 (by decide))

theorem loaded_key_derived_iff_second_day :
    (((timeWindow (-1)).mappingToKind dayLibrary (day 2) (some shorter)).mapToDownstream
        (.keys {.single ["2024-01-01"]})).covers (.single ["2024-01-02"]) ↔
      (-1 : Int) = 0 ∨ shorter.ShiftNegates (-1) ∧ shorter.hasKey dayLibrary (day 2)
      (.single ["2024-01-02"]) :=
  @loaded_key_derived_iff dayLibrary (day 2) (day 2) (-1) longer shorter (day 2)
    (by decide +kernel) (by decide +kernel) rfl (days_roundTrips 3 _) (days_roundTrips 2 _) _ _
    (by decide +kernel) (by decide +kernel) rfl

/-- The day after the upstream's last one loads the last one, and is not derived from its update. -/
theorem loaded_key_not_derived :
    longer.validateDefinition dayLibrary = .ok () ∧ shorter.validateDefinition dayLibrary = .ok () ∧
      (timeWindow (-1)).validatePartitionedPair dayLibrary (day 2) longer shorter = .ok () ∧
      longer.RoundTrips dayLibrary ∧ shorter.RoundTrips dayLibrary ∧
      longer.hasKey dayLibrary (day 2) (.single ["2024-01-03"]) ∧
      shorter.hasKey dayLibrary (day 2) (.single ["2024-01-02"]) ∧
      (timeWindow (-1)).resolveUpstreamKey dayLibrary (day 2) (some (.single ["2024-01-03"]))
        (some shorter) =
        .ok (.load (some (.single ["2024-01-02"]))) ∧
      ¬ (((timeWindow (-1)).mappingToKind dayLibrary (day 2) (some shorter)).mapToDownstream
        (.keys {.single ["2024-01-02"]})).covers (.single ["2024-01-03"]) := by
  refine ⟨by decide +kernel, by decide +kernel, rfl, days_roundTrips 3 _, days_roundTrips 2 _,
    by decide +kernel, by decide +kernel, rfl, by decide +kernel⟩

end PartitionMapping

end Rivers

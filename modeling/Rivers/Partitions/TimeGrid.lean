import Mathlib.Tactic.Ring
import Rivers.Lib.Ladder
import Rivers.Partitions.DefinitionCore

/-! What the tick walks of a time window enumerate. -/

namespace Rivers

open Ladder DateTime

theorem toI64?_eq_some {value result} (fits : toI64? value = some result) : value = result := by
  unfold toI64? at fits
  split at fits
  · exact Option.some.inj fits
  · cases fits

namespace DateTime

theorem ofNanos?_eq_some {nanos time} : ofNanos? nanos = some time ↔ time.1 = nanos := by
  grind [ofNanos?]

theorem checkedAdd_eq_some {time later : DateTime} {nanos} :
    time.checkedAdd nanos = some later ↔ later.1 = time.1 + nanos :=
  ofNanos?_eq_some

theorem checkedAdd_eq_none {time : DateTime} {nanos} (none : time.checkedAdd nanos = none)
    {later : DateTime} : later.1 ≠ time.1 + nanos := by
  intro same
  rw [checkedAdd_eq_some.mpr same] at none
  cases none

theorem saturatingAdd_zero (time : DateTime) : time.saturatingAdd 0 = time := by
  have same : time.checkedAdd 0 = some time := checkedAdd_eq_some.mpr (by omega)
  rw [saturatingAdd, same, Option.getD_some]

end DateTime

section Interval

variable {step : Int} {endTime current time : DateTime}

theorem mem_intervalTicks (positive : 0 < step) (fuel : Nat)
    (enough : (endTime.durationSince current).toNat ≤ fuel) :
    time ∈ intervalTicks step endTime fuel current ↔
      (∃ count : Nat, time.1 = current.1 + count * step) ∧ time < endTime := by
  induction fuel generalizing current with
  | zero =>
    have past : endTime.1 ≤ current.1 := by
      unfold durationSince at enough
      omega
    simp only [intervalTicks, List.not_mem_nil, false_iff, not_and, forall_exists_index]
    intro count same pre
    have : 0 ≤ (count : Int) * step := Int.mul_nonneg (Int.natCast_nonneg count) positive.le
    have : time.1 < endTime.1 := pre
    omega
  | succ fuel ih =>
    unfold intervalTicks
    split
    · rename_i pre
      rw [List.mem_cons]
      constructor
      · rintro (rfl | later)
        · exact ⟨⟨0, by simp⟩, pre⟩
        · split at later
          · cases later
          · rename_i next found
            have nextIs := checkedAdd_eq_some.mp found
            have enoughNext : (endTime.durationSince next).toNat ≤ fuel := by
              unfold durationSince at enough ⊢
              omega
            obtain ⟨⟨count, same⟩, bounded⟩ := (ih enoughNext).mp later
            refine ⟨⟨count + 1, ?_⟩, bounded⟩
            rw [same, nextIs]
            push_cast
            ring
      · rintro ⟨⟨count, same⟩, bounded⟩
        cases count with
        | zero => exact .inl (Subtype.ext (by simpa using same))
        | succ count =>
          right
          have spread : time.1 = current.1 + step + count * step := by
            rw [same]
            push_cast
            ring
          have further : 0 ≤ (count : Int) * step :=
            Int.mul_nonneg (Int.natCast_nonneg count) positive.le
          split
          · rename_i overflow
            have inRange : minNanos ≤ current.1 + step ∧ current.1 + step ≤ maxNanos := by
              have := current.2.1
              have := time.2.2
              omega
            exact absurd rfl (@DateTime.checkedAdd_eq_none _ _ overflow ⟨current.1 + step, inRange⟩)
          · grind [checkedAdd_eq_some, durationSince]
    · rename_i past
      simp only [List.not_mem_nil, false_iff, not_and, forall_exists_index]
      intro count same pre
      have : 0 ≤ (count : Int) * step := Int.mul_nonneg (Int.natCast_nonneg count) positive.le
      have : ¬ current.1 < endTime.1 := past
      have : time.1 < endTime.1 := pre
      omega

theorem mem_intervalWalk (positive : 0 < step) :
    time ∈ intervalWalk step endTime current ↔
      (∃ count : Nat, time.1 = current.1 + count * step) ∧ time < endTime :=
  mem_intervalTicks positive _ (Nat.le_refl _)

end Interval

section CronTicks

variable {cron : Cron} {start endTime time : DateTime}

theorem Cron.iterFrom_forward (whole : start.subsecNanosecond = 0) :
    cron.iterFrom start .forward = cron.occurrences.filter (start ≤ ·) := by
  simp only [iterFrom, whole, Int.sub_zero]
  rw [List.map_congr_left (g := id) fun tick _ => saturatingAdd_zero tick, List.map_id]
  rfl

theorem Cron.iterFrom_backward (whole : start.subsecNanosecond = 0) :
    cron.iterFrom start .backward = (cron.occurrences.filter (· ≤ start)).reverse := by
  simp only [iterFrom, whole]
  rw [List.map_congr_left (g := id) fun tick _ => saturatingAdd_zero tick, List.map_id]

theorem mem_takeWhile_lt {ticks : List DateTime} (increasing : ticks.Pairwise (· < ·)) :
    time ∈ ticks.takeWhile (· < endTime) ↔ time ∈ ticks ∧ time < endTime := by
  induction increasing with
  | nil => simp
  | @cons first rest before _ ih => grind [List.takeWhile_cons]

theorem Cron.mem_ticksIn (whole : start.subsecNanosecond = 0) :
    time ∈ cron.ticksIn start endTime ↔ time ∈ cron.occurrences ∧ start ≤ time ∧
    time < endTime := by
  rw [ticksIn, iterFrom_forward whole, mem_takeWhile_lt (cron.increasing.filter _)]
  simp [and_assoc]

end CronTicks

namespace TimeWindow

variable {library : TimeLibrary} {window : TimeWindow} {time stop : DateTime}

variable (library window) in
def IsWindowStart (time : DateTime) : Prop :=
  match window.intervalNanos, window.cronSchedule with
  | some interval, _ => ∃ count : Nat, time.1 = window.start.1 + count * interval
  | none, some expr =>
      ∃ cron, library.parseCron expr = some cron ∧ time ∈ cron.occurrences ∧ window.start ≤ time
  | none, none => False

inductive Schedule (library : TimeLibrary) (window : TimeWindow) : Prop where
  | interval (interval : Int) (given : window.intervalNanos = some interval)
      (positive : 0 < interval)
  | cron (expr : String) (cron : Cron) (noInterval : window.intervalNanos = none)
      (given : window.cronSchedule = some expr) (parsed : library.parseCron expr = some cron)
      (whole : window.start.subsecNanosecond = 0)

theorem schedule_of_validate (valid : window.validate library = .ok ()) :
    Schedule library window := by
  unfold validate at valid
  split at valid
  · cases valid
  · cases valid
  · rename_i ivl _ given
    split at valid
    · cases valid
    · exact .interval ivl given (by omega)
  · rename_i expr given noInterval
    unfold validateFmt at valid
    split at valid
    · cases valid
    · rename_i whole
      have whole : window.start.subsecNanosecond = 0 := by simpa [given] using whole
      cases parsed : library.parseCron expr with
      | none => simp [ticks, given, noInterval, parsed] at valid
      | some cron => exact .cron expr cron noInterval given parsed whole

theorem exists_ticks (schedule : Schedule library window) (stop : DateTime) :
    ∃ found, window.ticks library stop = .ok found := by
  cases schedule with
  | interval interval given positive => exact ⟨_, by simp only [ticks, given]; rfl⟩
  | cron expr cron noInterval given parsed whole =>
    exact ⟨_, by simp only [ticks, noInterval, given, parsed]; rfl⟩

theorem mem_ticks (schedule : Schedule library window) {found}
    (ticksAre : window.ticks library stop = .ok found) :
    time ∈ found ↔ window.IsWindowStart library time ∧ time < stop := by
  cases schedule with
  | interval interval given positive =>
    grind [mem_intervalWalk, intervalTicksIn, IsWindowStart, ticks]
  | cron expr cron noInterval given parsed whole =>
    grind [Cron.mem_ticksIn, IsWindowStart, ticks]

theorem IsWindowStart.start_le (schedule : Schedule library window)
    (onGrid : window.IsWindowStart library time) : window.start ≤ time := by
  cases schedule with
  | interval interval given positive =>
    simp only [IsWindowStart, given] at onGrid
    obtain ⟨count, same⟩ := onGrid
    have : 0 ≤ (count : Int) * interval := Int.mul_nonneg (Int.natCast_nonneg count) positive.le
    show window.start.1 ≤ time.1
    omega
  | cron expr cron noInterval given parsed whole => grind [IsWindowStart]

section WindowStartsIn

theorem le_firstIdx {ivl offset count : Int} (positive : 0 < ivl) :
    offset ≤ count * ivl ↔ (offset / ivl + if offset % ivl = 0 then 0 else 1) ≤ count := by
  have whole := Int.mul_ediv_add_emod offset ivl
  have rest := Int.emod_lt_of_pos offset positive
  have restNonneg := Int.emod_nonneg offset positive.ne'
  rw [Int.mul_comm] at whole
  constructor
  · intro reached
    by_contra less
    have below : count * ivl ≤ (offset / ivl + (if offset % ivl = 0 then 0 else 1) - 1) * ivl :=
      Int.mul_le_mul_of_nonneg_right (by omega) positive.le
    split at below <;> simp only [Int.sub_mul, Int.add_mul] at below <;> omega
  · intro reached
    have above : (offset / ivl + if offset % ivl = 0 then 0 else 1) * ivl ≤ count * ivl :=
      Int.mul_le_mul_of_nonneg_right reached positive.le
    split at above <;> simp only [Int.add_mul] at above <;> omega

variable (window) in
def Spans (bound : DateTime) : Prop :=
  window.intervalNanos.isSome → bound.durationSince window.start ≤ 2 ^ 63

instance (bound : DateTime) : Decidable (window.Spans bound) :=
  inferInstanceAs (Decidable (_ → _))

variable {clock fromTime bound : DateTime}

theorem isWindowStart_from {ivl} (given : window.intervalNanos = some ivl) (positive : 0 < ivl)
    {lower} (afterStart : window.start ≤ lower) :
    let offset := lower.durationSince window.start
    let firstIdx := offset / ivl + if offset % ivl = 0 then 0 else 1
    window.IsWindowStart library time ∧ lower ≤ time ↔
      ∃ count : Nat, time.1 = window.start.1 + firstIdx * ivl + count * ivl := by
  intro offset firstIdx
  have nonneg : 0 ≤ offset := Int.sub_nonneg.mpr afterStart
  have reach (count : Int) : offset ≤ count * ivl ↔ firstIdx ≤ count := le_firstIdx positive
  have firstNonneg : 0 ≤ firstIdx := by
    have := Int.ediv_nonneg nonneg positive.le
    show 0 ≤ offset / ivl + if offset % ivl = 0 then 0 else 1
    split <;> omega
  have lowerIs : lower.1 = window.start.1 + offset := by
    show lower.1 = window.start.1 + (lower.1 - window.start.1)
    omega
  simp only [IsWindowStart, given]
  constructor
  · rintro ⟨⟨count, same⟩, after⟩
    have afterNanos : lower.1 ≤ time.1 := after
    have reached : firstIdx ≤ count := (reach count).mp (by omega)
    refine ⟨(count - firstIdx).toNat, ?_⟩
    rw [same, Int.toNat_of_nonneg (by omega)]
    ring
  · rintro ⟨count, same⟩
    refine ⟨⟨firstIdx.toNat + count, ?_⟩, ?_⟩
    · rw [same, Nat.cast_add, Int.toNat_of_nonneg firstNonneg]
      ring
    · have reached := (reach (firstIdx + count)).mpr (by omega)
      have spread : (firstIdx + count) * ivl = firstIdx * ivl + count * ivl := by ring
      show lower.1 ≤ time.1
      omega

variable (library window) in
def StartsIn (fromTime toTime : DateTime) (found : List DateTime) : Prop :=
  ∀ time, time ∈ found ↔ window.IsWindowStart library time ∧ fromTime ≤ time ∧ time < toTime

theorem startsIn_nil {toTime} (empty : ∀ time, window.IsWindowStart library time → fromTime ≤ time →
    toTime ≤ time) :
    StartsIn library window fromTime toTime [] := by grind [StartsIn]

theorem startsIn_max (schedule : Schedule library window) {toTime found} :
    StartsIn library window (max fromTime window.start) toTime found ↔
      StartsIn library window fromTime toTime found := by
  grind [IsWindowStart.start_le, StartsIn]

theorem windowStartsIn_interval {ivl : Int} (given : window.intervalNanos = some ivl)
    (positive : 0 < ivl) (spans : window.Spans bound) :
    ∃ found, window.windowStartsIn library clock fromTime bound =
      .ok (found.map (library.strftime · window.fmt)) ∧
      StartsIn library window fromTime (min bound (window.endBound clock)) found := by
  have close : bound.1 - window.start.1 ≤ 2 ^ 63 := spans (by simp [given])
  have afterStart : window.start ≤ max fromTime window.start := le_max_right ..
  have toBound : min bound (window.endBound clock) ≤ bound := min_le_left ..
  simp only [← @startsIn_max _ _ fromTime (.interval ivl given positive)]
  unfold windowStartsIn
  generalize max fromTime window.start = lower at *
  generalize min bound (window.endBound clock) = toTime at *
  have steps := fun time => @isWindowStart_from library _ time _ given positive _ afterStart
  dsimp only at steps
  simp only [given, if_neg (not_le.mpr positive)]
  by_cases empty : toTime ≤ lower
  · exact ⟨[], by simp [empty], startsIn_nil fun time _ after => empty.trans after⟩
  have inside : lower.1 < toTime.1 := not_le.mp empty
  have pre : toTime.1 ≤ bound.1 := toBound
  have later : window.start.1 ≤ lower.1 := afterStart
  have offsetIs : nanosBetween window.start lower = some (lower.durationSince window.start) := by
    unfold nanosBetween toI64? durationSince
    rw [if_pos (by omega)]
  have reached := (@le_firstIdx _ (lower.durationSince window.start) _ positive).mpr (le_refl _)
  have nonneg : 0 ≤ lower.durationSince window.start := Int.sub_nonneg.mpr later
  simp only [if_neg empty, offsetIs]
  generalize lower.durationSince window.start / ivl +
    (if lower.durationSince window.start % ivl = 0 then 0 else 1) = firstIdx at *
  cases first : (toI64? (firstIdx * ivl)).bind window.start.checkedAdd with
  | none =>
    refine ⟨[], rfl, startsIn_nil fun time onGrid after => ?_⟩
    obtain ⟨count, same⟩ := (steps time).mp ⟨onGrid, after⟩
    have further : 0 ≤ (count : Int) * ivl := Int.mul_nonneg (Int.natCast_nonneg count) positive.le
    show toTime.1 ≤ time.1
    by_cases fits : firstIdx * ivl < 2 ^ 63
    · have inRange : minNanos ≤ window.start.1 + firstIdx * ivl ∧
          window.start.1 + firstIdx * ivl ≤ maxNanos := by
        have := window.start.2.1
        have := time.2.2
        omega
      rw [toI64?, if_pos (by omega), Option.bind_some] at first
      exact absurd rfl
        (@DateTime.checkedAdd_eq_none _ _ first ⟨window.start.1 + firstIdx * ivl, inRange⟩)
    · omega
  | some firstTime =>
    obtain ⟨nanos, fits, added⟩ := Option.bind_eq_some_iff.mp first
    have firstIs := checkedAdd_eq_some.mp added
    rw [← toI64?_eq_some fits] at firstIs
    refine ⟨intervalWalk ivl toTime firstTime, rfl, fun time => ?_⟩
    rw [mem_intervalWalk positive, ← and_assoc, steps time, firstIs]

theorem cronTickCivil_saturatingAdd {tick : DateTime} (whole : tick.subsecNanosecond = 0)
    (start : DateTime) :
    cronTickCivil (tick.saturatingAdd start.subsecNanosecond) = tick := by
  have proper : 0 ≤ start.subsecNanosecond ∧ start.subsecNanosecond < 1000000000 := by
    unfold subsecNanosecond
    omega
  generalize start.subsecNanosecond = fraction at *
  have aligned : tick.1 % 1000000000 = 0 := whole
  have inRange : minNanos ≤ tick.1 + fraction ∧ tick.1 + fraction ≤ maxNanos := by
    have lower := tick.2.1
    have upper := tick.2.2
    unfold minNanos maxNanos at *
    omega
  have added : tick.checkedAdd fraction = some ⟨tick.1 + fraction, inRange⟩ :=
    checkedAdd_eq_some.mpr rfl
  have cut : checkedAdd ⟨tick.1 + fraction, inRange⟩
      (-subsecNanosecond ⟨tick.1 + fraction, inRange⟩) = some tick := by
    grind [checkedAdd_eq_some, subsecNanosecond]
  rw [saturatingAdd, added, Option.getD_some, cronTickCivil, cut, Option.getD_some]

theorem map_cronTickCivil (cron : Cron) (anchor : DateTime) :
    (cron.iterFrom anchor .forward).map cronTickCivil =
      cron.occurrences.filter fun tick => anchor.1 - anchor.subsecNanosecond ≤ tick.1 := by
  rw [Cron.iterFrom, List.map_map]
  refine (List.map_congr_left fun tick mem => ?_).trans (List.map_id _)
  exact cronTickCivil_saturatingAdd (cron.wholeSeconds tick (List.mem_of_mem_filter mem)) anchor

theorem windowStartsIn_cron {expr : String} {cron} (noInterval : window.intervalNanos = none)
    (given : window.cronSchedule = some expr) (parsed : library.parseCron expr = some cron)
    (whole : window.start.subsecNanosecond = 0) :
    ∃ found, window.windowStartsIn library clock fromTime bound =
      .ok (found.map (library.strftime · window.fmt)) ∧
      StartsIn library window fromTime (min bound (window.endBound clock)) found := by
  have afterStart : window.start ≤ max fromTime window.start := le_max_right ..
  simp only [← @startsIn_max _ _ fromTime (.cron expr cron noInterval given parsed whole)]
  unfold windowStartsIn
  generalize max fromTime window.start = lower at *
  generalize min bound (window.endBound clock) = toTime at *
  simp only [noInterval, given, parsed]
  by_cases empty : toTime ≤ lower
  · exact ⟨[], by simp [empty], startsIn_nil fun time _ after => empty.trans after⟩
  simp only [if_neg empty, map_cronTickCivil]
  have anchored : ((lower.checkedAdd (-1000000000)).getD lower).1 ≤ lower.1 := by
    cases added : lower.checkedAdd (-1000000000) with
    | none => exact le_refl _
    | some anchor =>
      have := checkedAdd_eq_some.mp added
      show anchor.1 ≤ lower.1
      omega
  generalize (lower.checkedAdd (-1000000000)).getD lower = anchor at *
  refine ⟨_, rfl, fun time => ?_⟩
  rw [mem_takeWhile_lt ((cron.increasing.filter _).filter _)]
  simp only [List.mem_filter, decide_eq_true_eq, IsWindowStart, noInterval, given, parsed,
    Option.some.injEq, exists_eq_left']
  constructor
  · grind
  · rintro ⟨⟨mem, _⟩, after, pre⟩
    refine ⟨⟨⟨mem, ?_⟩, after⟩, pre⟩
    have afterNanos : lower.1 ≤ time.1 := after
    unfold subsecNanosecond
    omega

theorem windowStartsIn_spec (schedule : Schedule library window) (spans : window.Spans bound) :
    ∃ found, window.windowStartsIn library clock fromTime bound =
      .ok (found.map (library.strftime · window.fmt)) ∧
      StartsIn library window fromTime (min bound (window.endBound clock)) found := by
  cases schedule with
  | interval interval given positive => exact windowStartsIn_interval given positive spans
  | cron expr cron noInterval given parsed whole =>
    exact windowStartsIn_cron noInterval given parsed whole

end WindowStartsIn

end TimeWindow

end Rivers

import Mathlib.Algebra.Group.Int.Defs
import Mathlib.Data.List.Sort
import Mathlib.Order.Basic
import Rivers.Lib.IntOrder

/-! The window grid of `timegrid.rs` and the walks of `time_window.rs`. -/

namespace Rivers

def minNanos : Int := -377705116800 * 1000000000

def maxNanos : Int := 253402300800 * 1000000000 - 1

abbrev DateTime := { nanos : Int // minNanos ≤ nanos ∧ nanos ≤ maxNanos }

def toI64? (value : Int) : Option Int :=
  if -2 ^ 63 ≤ value ∧ value < 2 ^ 63 then some value else none

namespace DateTime

def ofNanos? (nanos : Int) : Option DateTime :=
  if inRange : minNanos ≤ nanos ∧ nanos ≤ maxNanos then some ⟨nanos, inRange⟩ else none

def checkedAdd (time : DateTime) (nanos : Int) : Option DateTime :=
  ofNanos? (time.1 + nanos)

def durationSince (time start : DateTime) : Int :=
  time.1 - start.1

def max : DateTime :=
  ⟨maxNanos, by decide⟩

def saturatingAdd (time : DateTime) (nanos : Int) : DateTime :=
  (time.checkedAdd nanos).getD max

def subsecNanosecond (time : DateTime) : Int :=
  time.1 % 1000000000

end DateTime

def nanosBetween (start time : DateTime) : Option Int :=
  toI64? (time.durationSince start)

inductive Direction where
  | forward
  | backward
  deriving DecidableEq, Repr

structure Cron where
  occurrences : List DateTime
  increasing : occurrences.Pairwise (· < ·)
  wholeSeconds : ∀ tick ∈ occurrences, tick.subsecNanosecond = 0

namespace Cron

/-- `iter_from`, from the second of `start` on; the ticks carry the fraction of `start`. -/
def iterFrom (cron : Cron) (start : DateTime) : Direction → List DateTime
  | .forward =>
      (cron.occurrences.filter fun tick => start.1 - start.subsecNanosecond ≤ tick.1).map
        fun tick =>
        tick.saturatingAdd start.subsecNanosecond
  | .backward =>
      ((cron.occurrences.filter fun tick => tick ≤ start).map fun tick =>
        tick.saturatingAdd start.subsecNanosecond).reverse

end Cron

structure TimeLibrary where
  parseCron : String → Option Cron
  strftime : DateTime → String → String
  parseKeyDatetime : String → String → Option DateTime

/-- `interval_seconds` is kept as the nanoseconds that each of its uses casts it to. -/
structure TimeWindow where
  cronSchedule : Option String
  intervalNanos : Option Int
  start : DateTime
  endTime : Option DateTime
  fmt : String
  deriving DecidableEq

inductive TimeGridError where
  | invalidKey (key : String)
  | outOfRange (key : String) (offset : Int)
  | intervalNotPositive
  | offsetOverflows (offset : Int)
  | invalidCron (expr : String)
  | noSchedule
  | calendarOverflow
  deriving DecidableEq, Repr

/-- The ticks of `while current < end`, one step apart, up to the end of the calendar. -/
def intervalTicks (step : Int) (endTime : DateTime) : (fuel : Nat) → (current : DateTime) →
    List DateTime
  | 0, _ => []
  | fuel + 1, current =>
      if current < endTime then
        current :: match current.checkedAdd step with
          | none => []
          | some next => intervalTicks step endTime fuel next
      else []

def intervalWalk (step : Int) (endTime current : DateTime) : List DateTime :=
  intervalTicks step endTime (endTime.durationSince current).toNat current

def intervalTicksIn (interval : Int) (start endTime : DateTime) : List DateTime :=
  if interval ≤ 0 then [] else intervalWalk interval endTime start

def Cron.ticksIn (cron : Cron) (start endTime : DateTime) : List DateTime :=
  (cron.iterFrom start .forward).takeWhile fun tick => tick < endTime

/-- `cron_grid_contains`: the first tick from `time` on, if it comes within a second, is `time`. -/
def Cron.contains (cron : Cron) (time : DateTime) : Bool :=
  time.subsecNanosecond = 0 &&
    (cron.ticksIn time (time.saturatingAdd 1000000000)).head? = some time

def cronTickCivil (tick : DateTime) : DateTime :=
  (tick.checkedAdd (-tick.subsecNanosecond)).getD tick

namespace TimeWindow

variable (library : TimeLibrary) (window : TimeWindow) (clock : DateTime)

def endBound : DateTime :=
  window.endTime.getD clock

def countTicks (time : DateTime) : (remaining : Nat) → List DateTime → Option DateTime
  | _, [] => none
  | remaining, tick :: ticks =>
      if tick = time then countTicks time remaining ticks
      else if remaining - 1 = 0 then some tick
      else countTicks time (remaining - 1) ticks

def shiftTime (key : String) (time : DateTime) (offset : Int) : Except TimeGridError DateTime :=
  match window.intervalNanos, window.cronSchedule with
  | some interval, _ =>
      if interval ≤ 0 then .error .intervalNotPositive
      else
        match toI64? (interval * offset) with
        | none => .error (.offsetOverflows offset)
        | some total =>
            match time.checkedAdd total with
            | none => .error (.outOfRange key offset)
            | some shifted => .ok shifted
  | none, some expr =>
      match library.parseCron expr with
      | none => .error (.invalidCron expr)
      | some cron =>
          let direction := if 0 < offset then .forward else .backward
          match countTicks time offset.natAbs (cron.iterFrom time direction) with
          | none => .error (.outOfRange key offset)
          | some shifted => .ok shifted
  | none, none => .error .noSchedule

def shiftKey (key : String) (offset : Int) : Except TimeGridError String :=
  match library.parseKeyDatetime key window.fmt with
  | none => .error (.invalidKey key)
  | some time =>
      if offset = 0 then .ok key
      else
        match window.shiftTime library key time offset with
        | .error reason => .error reason
        | .ok shifted =>
            if shifted < window.start ∨ window.endBound clock ≤ shifted then
              .error (.outOfRange key offset)
            else .ok (library.strftime shifted window.fmt)

def windowStartsIn (fromTime toTime : DateTime) : Except TimeGridError (List String) :=
  let fromTime := max fromTime window.start
  let toTime := min toTime (window.endBound clock)
  if toTime ≤ fromTime then .ok []
  else
    match window.intervalNanos, window.cronSchedule with
    | some interval, _ =>
        if interval ≤ 0 then .error .intervalNotPositive
        else
          match nanosBetween window.start fromTime with
          | none => .ok []
          | some offset =>
              let firstIdx := offset / interval + if offset % interval = 0 then 0 else 1
              match (toI64? (firstIdx * interval)).bind window.start.checkedAdd with
              | none => .ok []
              | some first =>
                  .ok ((intervalWalk interval toTime first).map (library.strftime · window.fmt))
    | none, some expr =>
        match library.parseCron expr with
        | none => .error (.invalidCron expr)
        | some cron =>
            let anchor := (fromTime.checkedAdd (-1000000000)).getD fromTime
            let ticks := (cron.iterFrom anchor .forward).map cronTickCivil
            .ok (((ticks.filter fun tick => fromTime ≤ tick).takeWhile fun tick =>
              tick < toTime).map
              (library.strftime · window.fmt))
    | none, none => .error .noSchedule

def ticks (endTime : DateTime) : Except TimeGridError (List DateTime) :=
  match window.intervalNanos, window.cronSchedule with
  | some interval, _ => .ok (intervalTicksIn interval window.start endTime)
  | none, some expr =>
      match library.parseCron expr with
      | none => .error (.invalidCron expr)
      | some cron => .ok (cron.ticksIn window.start endTime)
  | none, none => .error .noSchedule

def enumerateTimeWindows : Except TimeGridError (List String) :=
  (window.ticks library (window.endBound clock)).map fun ticks =>
    ticks.map (library.strftime · window.fmt)

def validateTime (key : String) : Except TimeGridError Bool :=
  match library.parseKeyDatetime key window.fmt with
  | none => .ok false
  | some time =>
      if time < window.start ∨ window.endBound clock ≤ time then .ok false
      else
        match window.intervalNanos, window.cronSchedule with
        | some interval, _ =>
            if interval ≤ 0 then .ok false
            else .ok (!(nanosBetween window.start time).any fun nanos => nanos.tmod interval ≠ 0)
        | none, some expr =>
            let hours := 26 * 3600 * 1000000000
            match time.checkedAdd (-hours), time.checkedAdd hours, library.parseCron expr with
            | some earliest, some latest, some cron =>
                .ok ((cron.ticksIn (max earliest window.start)
                  (min latest (window.endBound clock))).any
                  fun tick => library.strftime tick window.fmt = key)
            | some _, some _, none => .error (.invalidCron expr)
            | _, _, _ => .error .calendarOverflow
        | none, none => .ok true

/-- `validate_time_window_key`: every key string is a window start; the first that is not decides.
-/
def validateTimeWindowKey (keys : List String) : Except TimeGridError Bool :=
  if keys = [] then .ok false
  else keys.foldlM (fun valid key =>
    if valid then window.validateTime library clock key else .ok false) true

end TimeWindow

end Rivers

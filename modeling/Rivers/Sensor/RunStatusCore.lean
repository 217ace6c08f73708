import Rivers.Cache.StorageCore
import Rivers.Lib.IntOrder
import Rivers.Lib.Transitions

/-! Run-status sensors (`sensor.rs`, `daemon/run_status.rs`). -/

namespace Rivers

def overlapNs : Int := 60 * 1000000000

def runsPerTick : Nat := 5

structure EndedRun where
  runId : String
  jobName : Option String := none
  status : RunStatus
  endTime : Int
  visibleAt : Int
  deriving DecidableEq

structure RunStatusSpec where
  status : RunStatus
  monitoredJobs : Option (List String) := none

def RunStatusSpec.watches (spec : RunStatusSpec) (run : EndedRun) : Bool :=
  run.status = spec.status && spec.monitoredJobs.all fun jobs => run.jobName.any (· ∈ jobs)

structure RunStatusCursor where
  floor : Int
  seen : List (String × Int) := []
  deriving DecidableEq

namespace RunStatusCursor

variable (cursor : RunStatusCursor)

def init (now : Int) : RunStatusCursor := { floor := now }

def since : Int :=
  match (cursor.seen.map Prod.snd).max? with
  | some newest => max (newest - overlapNs) cursor.floor
  | none => cursor.floor

def readLimit : Nat := cursor.seen.length + runsPerTick

def isSeen (run : EndedRun) : Bool := (cursor.seen.map Prod.fst).contains run.runId

def selectNew (rows : List EndedRun) : List EndedRun :=
  (rows.filter fun run => !cursor.isSeen run).take runsPerTick

def prune : RunStatusCursor :=
  { cursor with seen := cursor.seen.filter fun entry => cursor.since ≤ entry.2 }

def advance (handled : List EndedRun) : RunStatusCursor :=
  { cursor with seen := cursor.seen ++ handled.map fun run : EndedRun =>
    (run.runId, run.endTime) }.prune

def idle (now : Int) : RunStatusCursor :=
  { cursor with floor := max cursor.floor (now - overlapNs) }.prune

def fetch (rows : List EndedRun) (now : Int) : RunStatusCursor × List EndedRun :=
  let new := cursor.selectNew rows
  if new = [] then (cursor.idle now, []) else (cursor.advance new, new)

end RunStatusCursor

/-- A tick that fails has called the function for some of the runs and loses the cursor past them.
-/
inductive SensorTickOutcome where
  | completed
  | failed (called : Nat)
  deriving DecidableEq

/-- The instants of a tick's reads, the rows it is given and how it ends. -/
structure RunStatusTick where
  readAt : Int
  clockAt : Int
  rows : List EndedRun := []
  outcome : SensorTickOutcome := .completed

structure RunStatusSensor where
  cursor : Option RunStatusCursor := none
  watchedFrom : Option Int := none
  tickedAt : WithBot Int := ⊥
  handed : List String := []

namespace RunStatusSensor

variable (spec : RunStatusSpec) (runs : List EndedRun) (sensor : RunStatusSensor)

def endedSince (since readAt : Int) : List EndedRun :=
  runs.filter fun run => run.visibleAt ≤ readAt && spec.watches run && since ≤ run.endTime

def tick (tick : RunStatusTick) : Option RunStatusSensor :=
  if sensor.tickedAt ≤ tick.readAt ∧ tick.readAt ≤ tick.clockAt then
    match sensor.cursor with
    | none =>
        some { sensor with
          cursor := some (.init tick.clockAt)
          watchedFrom := some tick.clockAt
          tickedAt := tick.clockAt }
    | some cursor =>
        if tick.rows.Perm (endedSince spec runs cursor.since tick.readAt) ∧
            tick.rows.Pairwise fun first second => first.endTime ≤ second.endTime then
          let (next, new) := cursor.fetch (tick.rows.take cursor.readLimit) tick.clockAt
          match tick.outcome with
          | .completed =>
              some { sensor with
                cursor := some next
                tickedAt := tick.clockAt
                handed := sensor.handed ++ new.map EndedRun.runId }
          | .failed called =>
              some { sensor with
                tickedAt := tick.clockAt
                handed := sensor.handed ++ (new.take called).map EndedRun.runId }
        else none
  else none

end RunStatusSensor

end Rivers

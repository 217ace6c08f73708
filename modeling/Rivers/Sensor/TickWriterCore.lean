import Mathlib.Data.List.Sort
import Rivers.Lib.FiniteMap
import Rivers.Lib.Transitions

/-! The tick writer of the daemon (`daemon/batch_writer.rs`). -/

namespace Rivers

open FiniteMap

structure TickRecord where
  automationName : String
  timestamp : Int
  cursor : Option String := none
  deriving DecidableEq

def TickRecord.NewestFirst (first second : TickRecord) : Prop :=
  second.timestamp ≤ first.timestamp

instance : DecidableRel TickRecord.NewestFirst := fun first second =>
  inferInstanceAs (Decidable (second.timestamp ≤ first.timestamp))

section Table

variable (ticks : List TickRecord) (name : String)

def getTicks (limit : Nat) : List TickRecord :=
  ((ticks.filter (·.automationName = name)).insertionSort TickRecord.NewestFirst).take limit

def pruneTicks (maxTicks : Nat) : List TickRecord :=
  ticks.filter (·.automationName ≠ name) ++ getTicks ticks name maxTicks

def restoredCursor : Option String :=
  (getTicks ticks name 1).head?.bind TickRecord.cursor

end Table

/-- The loop of `trim_tick_backlog`: a record that is the latest of its name is protected. -/
def trimLoop : Nat → List TickRecord → List TickRecord
  | _, [] => []
  | budget, record :: later =>
      if budget = 0 ∨ later.all (·.automationName ≠ record.automationName) then record ::
        trimLoop budget later
      else trimLoop (budget - 1) later

def trimTickBacklog (batch : List TickRecord) (maxBatch : Nat) : List TickRecord :=
  let cap := max (maxBatch * 8) 1
  if batch.length ≤ cap then batch else trimLoop (batch.length - cap) batch

inductive AutomationType where
  | schedule
  | sensor
  | automationCondition
  deriving DecidableEq

structure Automation where
  automationType : AutomationType
  name : String
  deriving DecidableEq

/-- What a daemon is started with: its automations, `max_ticks_retained` and the size of a batch. -/
structure TickConfig where
  automations : List Automation
  maxTicksRetained : Option Nat
  maxBatch : Nat

/-- The table, the writer's batch and the last tick recorded for each automation. -/
structure TickState where
  ticks : List TickRecord
  startedAt : Int
  batch : List TickRecord := []
  pruneNames : List (String × Nat) := []
  last : HashMap Nat (Int × Option String) := ∅

inductive FlushResult where
  | stored (unpruned : List String)
  | failed (committed : Bool)
  deriving DecidableEq

namespace TickState

inductive Action where
  | record (index : Nat) (timestamp : Int) (cursor : Option String)
  | flush (result : FlushResult)
  deriving DecidableEq

variable (config : TickConfig) (state : TickState)

def ingest (automation : Automation) (index : Nat) (timestamp : Int) (cursor : Option String) :
    TickState :=
  { state with
    batch := state.batch ++ [⟨automation.name, timestamp, cursor⟩]
    pruneNames :=
      match config.maxTicksRetained with
      | some maxTicks =>
          state.pruneNames.filter (·.1 ≠ automation.name) ++ [(automation.name, maxTicks)]
      | none => state.pruneNames
    last := state.last.insert index (timestamp, cursor) }

def prune (ticks : List TickRecord) (pruneNames : List (String × Nat)) (unpruned : List String) :
    List TickRecord :=
  pruneNames.foldl (fun ticks entry =>
    if entry.1 ∈ unpruned then ticks else pruneTicks ticks entry.1 entry.2) ticks

def flush : FlushResult → Option TickState
  | .stored unpruned =>
      some { state with
        ticks := prune (state.ticks ++ state.batch) state.pruneNames unpruned
        batch := []
        pruneNames := [] }
  | .failed committed =>
      if state.batch = [] then none
      else
        some { state with
          ticks := if committed then state.ticks ++ state.batch else state.ticks
          batch := trimTickBacklog state.batch config.maxBatch }

/-- The timestamps of an automation's ticks increase; a condition's tick carries no cursor. -/
def step : Action → Option TickState
  | .record index timestamp cursor =>
      match config.automations[index]? with
      | none => none
      | some automation =>
          if state.startedAt < timestamp ∧
            (state.last.lookup index).all (fun last => last.1 < timestamp) ∧
              (automation.automationType = .automationCondition → cursor = none) then
            some (state.ingest config automation index timestamp cursor)
          else none
  | .flush result => state.flush config result

end TickState

end Rivers

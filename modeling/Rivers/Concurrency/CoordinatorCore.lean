import Rivers.Lib.Tally

/-! The run queue coordinator of `concurrency/coordinator.rs`. -/

namespace Rivers

open FiniteMap

abbrev Tag := String × String

structure CoordinatorRunInfo where
  runId : String
  tags : List Tag
  priority : Int
  startTime : Int
  deriving DecidableEq, Repr

structure TagConcurrencyLimit where
  key : String
  value : Option String
  perUniqueValue : Bool
  limit : Nat
  deriving DecidableEq, Repr

structure RunQueueConfig where
  maxConcurrentRuns : Int
  tagConcurrencyLimits : List TagConcurrencyLimit
  deriving DecidableEq, Repr

inductive BlockReason where
  | globalRunLimit (current : Nat) (limit : Int)
  | tagLimit (key : String) (value : Option String) (current limit : Nat)
  deriving DecidableEq, Repr

def BlockReason.display : BlockReason → String
  | .globalRunLimit current limit =>
      "global run limit (" ++ toString current ++ "/" ++ toString limit ++ ")"
  | .tagLimit key value current limit =>
      "tag limit: " ++ key ++ value.elim "" ("=" ++ ·) ++ " (" ++ toString current ++ "/" ++
        toString limit ++ ")"

structure TagConcurrencyCounter where
  keyCounts : HashMap String Nat
  keyValueCounts : HashMap Tag Nat
  uniqueValueCounts : HashMap String (HashMap String Nat)
  limits : List TagConcurrencyLimit

namespace TagConcurrencyCounter

def countTag (counter : TagConcurrencyCounter) (tag : Tag) : TagConcurrencyCounter where
  keyCounts := Tally.bump counter.keyCounts tag.1
  keyValueCounts := Tally.bump counter.keyValueCounts tag
  uniqueValueCounts := Tally.bumpIn counter.uniqueValueCounts tag.1 tag.2
  limits := counter.limits

def fromRuns (limits : List TagConcurrencyLimit) (runs : List CoordinatorRunInfo) :
    TagConcurrencyCounter :=
  let limitKeys := limits.map (·.key)
  runs.foldl (fun counter run =>
    run.tags.foldl (fun counter tag => if tag.1 ∈ limitKeys then counter.countTag tag else counter)
      counter)
    ⟨∅, ∅, ∅, limits⟩

variable (counter : TagConcurrencyCounter)

def blockedBy (limit : TagConcurrencyLimit) (value : Option String) (current : Nat) :
    Option BlockReason :=
  if limit.limit ≤ current then some (.tagLimit limit.key value current limit.limit) else none

def isBlockedBy (run : CoordinatorRunInfo) (limit : TagConcurrencyLimit) : Option BlockReason :=
  if limit.perUniqueValue then
    run.tags.findSome? fun (key, value) =>
      if key ≠ limit.key then none
      else blockedBy limit (some value)
        ((Tally.lookupIn counter.uniqueValueCounts limit.key value).getD 0)
  else
    match limit.value with
    | some required =>
        if run.tags.any fun (key, value) => key = limit.key ∧ value = required then
          blockedBy limit (some required)
            ((counter.keyValueCounts.lookup (limit.key, required)).getD 0)
        else none
    | none =>
        if run.tags.any fun (key, _) => key = limit.key then
          blockedBy limit none ((counter.keyCounts.lookup limit.key).getD 0)
        else none

def isBlocked (run : CoordinatorRunInfo) : Option BlockReason :=
  counter.limits.findSome? (counter.isBlockedBy run)

def recordLaunch (run : CoordinatorRunInfo) : TagConcurrencyCounter :=
  run.tags.foldl countTag counter

end TagConcurrencyCounter

/-- What a tick writes; the writes of block reasons and events may fail without effect on the tick.
-/
inductive CoordinatorWrite where
  | queuedBlockReason (reason : String)
  | runBlockReason (runId reason : String)
  | runNotStarted (runId : String)
  | runDequeued (runId : String) (priority : Int)
  deriving DecidableEq, Repr

structure DequeueState where
  counter : TagConcurrencyCounter
  toLaunch : List CoordinatorRunInfo
  writes : List CoordinatorWrite

def dequeue (slotsAvailable : Nat) (state : DequeueState) : List CoordinatorRunInfo → DequeueState
  | [] => state
  | run :: queue =>
      if slotsAvailable ≤ state.toLaunch.length then state
      else
        match state.counter.isBlocked run with
        | some reason =>
            dequeue slotsAvailable
              { state with writes := state.writes ++ [.runBlockReason run.runId reason.display] }
                queue
        | none =>
            dequeue slotsAvailable
              { state with
                counter := state.counter.recordLaunch run
                toLaunch := state.toLaunch ++ [run] } queue

/-- Each launched run becomes `NotStarted`; a status write that fails ends the tick with its error.
-/
def startLaunched (statusWritten : String → Bool) : List CoordinatorRunInfo →
    List CoordinatorWrite × Bool
  | [] => ([], true)
  | run :: runs =>
      if statusWritten run.runId then
        let (writes, finished) := startLaunched statusWritten runs
        (.runNotStarted run.runId :: .runDequeued run.runId run.priority :: writes, finished)
      else ([], false)

structure TickOutcome where
  launched : Option (List CoordinatorRunInfo)
  writes : List CoordinatorWrite
  counter : Option TagConcurrencyCounter

def dequeuesBefore (left right : CoordinatorRunInfo) : Prop :=
  right.priority < left.priority ∨ right.priority = left.priority ∧ left.startTime ≤ right.startTime

instance : DecidableRel dequeuesBefore :=
  fun _ _ => inferInstanceAs (Decidable (_ ∨ _))

structure IsDequeueOrder (queued queue : List CoordinatorRunInfo) : Prop where
  perm : queue.Perm queued
  sorted : queue.Pairwise dequeuesBefore

def RunQueueConfig.slotsAvailable (config : RunQueueConfig) (inProgress : List CoordinatorRunInfo) :
    Nat :=
  if config.maxConcurrentRuns < 0 then 2 ^ 64 - 1
  else config.maxConcurrentRuns.toNat - inProgress.length

def tick (statusWritten : String → Bool) (config : RunQueueConfig)
    (inProgress queue : List CoordinatorRunInfo) : TickOutcome :=
  if 0 ≤ config.maxConcurrentRuns ∧ config.maxConcurrentRuns.toNat ≤ inProgress.length then
    let reason := BlockReason.globalRunLimit inProgress.length config.maxConcurrentRuns
    { launched := some [], writes := [.queuedBlockReason reason.display], counter := none }
  else
    let counter := TagConcurrencyCounter.fromRuns config.tagConcurrencyLimits inProgress
    let state := dequeue (config.slotsAvailable inProgress) ⟨counter, [], []⟩ queue
    let (writes, finished) := startLaunched statusWritten state.toLaunch
    { launched := if finished then some state.toLaunch else none
      writes := state.writes ++ writes
      counter := some state.counter }

end Rivers

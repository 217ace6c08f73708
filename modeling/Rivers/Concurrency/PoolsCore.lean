import Mathlib.Algebra.Ring.Nat
import Rivers.Lib.Assoc
import Rivers.Lib.Transitions

/-! Concurrency pools of `storage/surrealdb_backend/pools`. -/

namespace Rivers

structure PoolId where
  codeLocationId : String
  poolKey : String
  deriving DecidableEq

structure StepId where
  runId : String
  stepKey : String
  deriving DecidableEq

structure SlotKey where
  pool : PoolId
  holder : StepId
  deriving DecidableEq

structure AssetScope where
  partitions : Option (List String)
  exclusive : Bool
  deriving DecidableEq

structure Slot where
  slotsConsumed : Nat
  claimedAt : Int
  leaseExpiresAt : Int
  lastHeartbeat : Int
  scope : AssetScope
  deriving DecidableEq

abbrev SlotTable := List (SlotKey × Slot)

def assetPoolPrefix : String := "__asset__:"

def isAssetPool (poolKey : String) : Bool :=
  assetPoolPrefix.toList.isPrefixOf poolKey.toList

namespace AssetScope

def ofClaim (scope : Option AssetScope) : AssetScope :=
  scope.getD ⟨none, true⟩

def overlaps (mine other : AssetScope) : Bool :=
  match mine.partitions, other.partitions with
  | none, _ | _, none => true
  | some partitions, some others => others.any fun partition => partition ∈ partitions

def conflicts (mine other : AssetScope) : Bool :=
  (mine.exclusive || other.exclusive) && mine.overlaps other

end AssetScope

namespace SlotTable

variable (slots : SlotTable) (pool : PoolId) (now : Int)

def live : SlotTable :=
  slots.filter fun row => row.1.pool = pool ∧ now < row.2.leaseExpiresAt

def liveOthers (holder : StepId) : SlotTable :=
  (live slots pool now).filter fun row => row.1.holder ≠ holder

def consumed : Nat :=
  (slots.map (·.2.slotsConsumed)).sum

/-- `asset_conflict_predicate`: does a live slot of another step conflict with the scope? -/
def assetConflict (holder : StepId) (scope : AssetScope) : Bool :=
  (liveOthers slots pool now holder).any fun row => scope.conflicts row.2.scope

end SlotTable

structure PoolBlockDetail where
  poolKey : String
  claimed : Nat
  limit : Int
  deriving DecidableEq

inductive PoolBlockReason where
  | poolFull (detail : PoolBlockDetail)
  | poolsFull (pools : List PoolBlockDetail)
  deriving DecidableEq

structure PendingStep where
  pool : PoolId
  step : StepId
  priority : Int
  enqueuedAt : Int
  blockReason : PoolBlockReason
  deriving DecidableEq

/-- An attempt to claim slots, between its start and its transaction. -/
structure SlotClaim where
  codeLocationId : String
  holder : StepId
  priority : Int
  scope : Option AssetScope
  now : Int
  leaseExpiresAt : Int
  unchecked : List (String × Nat)
  limited : List (String × Nat)
  blocked : List PoolBlockDetail
  deriving DecidableEq

inductive ClaimAnswer where
  | claimed
  | pending (position : Nat) (reason : PoolBlockReason)
  | notConfigured (poolKey : String)
  | contended
  deriving DecidableEq

namespace SlotClaim

variable (limits : PoolId → Option Int) (slots : SlotTable) (claim : SlotClaim)

def start (codeLocationId : String) (pools : List (String × Nat)) (holder : StepId) (priority : Int)
    (leaseDurationSecs : Nat) (scope : Option AssetScope) (now : Int) : SlotClaim :=
  { codeLocationId := codeLocationId
    holder := holder
    priority := priority
    scope := scope
    now := now
    leaseExpiresAt := now + leaseDurationSecs * 1000000000
    unchecked := pools
    limited := []
    blocked := [] }

def pool (poolKey : String) : PoolId :=
  ⟨claim.codeLocationId, poolKey⟩

def usedByOthers (poolKey : String) : Nat :=
  (slots.liveOthers (claim.pool poolKey) claim.now claim.holder).consumed

def conflictsOn (poolKey : String) : Bool :=
  slots.assetConflict (claim.pool poolKey) claim.now claim.holder (.ofClaim claim.scope)

/-- What the pre-check of one pool finds; a pool without a limit takes no part in the transaction.
-/
def precheck (poolKey : String) (slotsNeeded : Nat) : SlotClaim ⊕ ClaimAnswer :=
  match limits (claim.pool poolKey) with
  | none => .inr (.notConfigured poolKey)
  | some limit =>
      if isAssetPool poolKey then
        let full := if claim.conflictsOn slots poolKey then [⟨poolKey, 1, 1⟩] else []
        .inl { claim with limited := claim.limited ++ [(poolKey, slotsNeeded)], blocked := claim.blocked ++ full }
      else if limit < 0 then .inl claim
      else
        let used := claim.usedByOthers slots poolKey
        let full := if (limit : Int) < used + slotsNeeded then [⟨poolKey, used, limit⟩] else []
        .inl { claim with limited := claim.limited ++ [(poolKey, slotsNeeded)], blocked := claim.blocked ++ full }

def admits (entry : String × Nat) : Bool :=
  if isAssetPool entry.1 then !claim.conflictsOn slots entry.1
  else claim.usedByOthers slots entry.1 + entry.2 ≤ (limits (claim.pool entry.1)).getD 0

def row (poolKey : String) (slotsNeeded : Nat) (old : Option Slot) : Slot :=
  { slotsConsumed := slotsNeeded
    claimedAt := claim.now
    leaseExpiresAt := claim.leaseExpiresAt
    lastHeartbeat := claim.now
    scope :=
      if isAssetPool poolKey then .ofClaim claim.scope else old.elim ⟨none, false⟩ Slot.scope }

def writeRows (entries : List (String × Nat)) : SlotTable :=
  entries.foldl (fun slots entry =>
    Assoc.upsert ⟨claim.pool entry.1, claim.holder⟩ (claim.row entry.1 entry.2) slots) slots

end SlotClaim

/-- The tables of the pools, the claims between their start and their transaction, and the clock. -/
structure PoolSystem where
  time : Int
  slots : SlotTable
  pendingSteps : List PendingStep
  claims : List SlotClaim
  deriving DecidableEq

inductive PoolAction where
  | tick (time : Int)
  | claimSlots (codeLocationId : String) (pools : List (String × Nat)) (holder : StepId)
      (priority : Int) (leaseDurationSecs : Nat) (scope : Option AssetScope)
  | continueClaim (claim : SlotClaim)
  | abandonClaim (claim : SlotClaim)
  | renewSlotLease (holder : StepId) (leaseDurationSecs : Nat) (now : Int)
  | freeConcurrencySlots (holder : StepId)
  | freeConcurrencySlotsForRun (runId : String)
  | freeExpiredLeases (now : Int)

namespace PoolSystem

variable (limits : PoolId → Option Int) (system : PoolSystem)

def dropPending (holder : StepId) : List PendingStep :=
  system.pendingSteps.filter fun row => row.step ≠ holder

/-- `UPSERT pending_steps` under the first blocking pool, and the step's place in that pool's queue.
-/
def enqueuePending (claim : SlotClaim) (first : PoolBlockDetail) (others : List PoolBlockDetail) :
    PoolSystem × ClaimAnswer :=
  let reason := if others = [] then .poolFull first else .poolsFull (first :: others)
  let pending : PendingStep := ⟨claim.pool first.poolKey, claim.holder, claim.priority,
    claim.now, reason⟩
  let queue :=
    if system.pendingSteps.any fun row => row.step = claim.holder then
      system.pendingSteps.map fun row => if row.step = claim.holder then pending else row
    else system.pendingSteps ++ [pending]
  ({ system with pendingSteps := queue }, .pending (queue.countP fun row => row.pool = pending.pool)
    reason)

/-- The claim transaction: it takes the slots of all its pools or leaves the tables as they are. -/
def claimTransaction (claim : SlotClaim) : PoolSystem × ClaimAnswer :=
  if claim.limited.all (claim.admits limits system.slots) then
    ({ system with
        slots := claim.writeRows system.slots claim.limited
        pendingSteps := system.dropPending claim.holder }, .claimed)
  else (system, .contended)

/-- The end of `try_claim_concurrency_slots_once`, once every pool has been checked. -/
def finishClaim (claim : SlotClaim) : PoolSystem × ClaimAnswer :=
  if claim.limited = [] then (system, .claimed)
  else
    match claim.blocked with
    | first :: others => system.enqueuePending claim first others
    | [] => system.claimTransaction limits claim

def continueClaim (claim : SlotClaim) : PoolSystem :=
  let rest := system.claims.erase claim
  match claim.unchecked with
  | (poolKey, slotsNeeded) :: unchecked =>
      match { claim with unchecked := unchecked }.precheck limits system.slots poolKey
        slotsNeeded with
      | .inl next => { system with claims := next :: rest }
      | .inr _ => { system with claims := rest }
  | [] => ({ system with claims := rest }.finishClaim limits claim).1

def renewSlotLease (holder : StepId) (leaseDurationSecs : Nat) (now : Int) : SlotTable :=
  system.slots.map fun row =>
    if row.1.holder = holder then
      (row.1, { row.2 with leaseExpiresAt := now + leaseDurationSecs * 1000000000, lastHeartbeat := now })
    else row

def step (action : PoolAction) : Option PoolSystem :=
  match action with
  | .tick time => if system.time ≤ time then some { system with time := time } else none
  | .claimSlots codeLocationId pools holder priority leaseDurationSecs scope =>
      let claim := .start codeLocationId pools holder priority leaseDurationSecs scope system.time
      some { system with claims := claim :: system.claims }
  | .continueClaim claim =>
      if claim ∈ system.claims then some (system.continueClaim limits claim) else none
  | .abandonClaim claim => some { system with claims := system.claims.erase claim }
  | .renewSlotLease holder leaseDurationSecs now =>
      if now ≤ system.time then some { system with slots := system.renewSlotLease holder leaseDurationSecs now }
      else none
  | .freeConcurrencySlots holder =>
      some { system with
        slots := system.slots.filter fun row => row.1.holder ≠ holder
        pendingSteps := system.dropPending holder }
  | .freeConcurrencySlotsForRun runId =>
      some { system with
        slots := system.slots.filter fun row => row.1.holder.runId ≠ runId
        pendingSteps := system.pendingSteps.filter fun row => row.step.runId ≠ runId }
  | .freeExpiredLeases now =>
      if now ≤ system.time then
        some { system with slots := system.slots.filter fun row => ¬row.2.leaseExpiresAt ≤ now }
      else none

end PoolSystem

end Rivers

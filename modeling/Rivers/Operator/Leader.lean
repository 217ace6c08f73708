import Mathlib.Logic.Function.Basic
import Rivers.Lib.IntOrder
import Rivers.Lib.Transitions

/-! Leader election of the operator's replicas (`leader.rs`). -/

namespace Rivers

open Transitions

structure LeaseSpec where
  holderIdentity : Option String := none
  leaseDurationSeconds : Option Int := none
  acquireTime : Option Int := none
  renewTime : Option Int := none
  leaseTransitions : Option Int := none
  deriving DecidableEq

structure Lease where
  spec : Option LeaseSpec
  deriving DecidableEq

def leaseTtl : Int := 30

def micros (seconds : Int) : Int :=
  max seconds 0 * 1000000

def LeaseSpec.holder (spec : LeaseSpec) : String :=
  spec.holderIdentity.getD ""

def LeaseSpec.expired (spec : LeaseSpec) (now : Int) : Bool :=
  match spec.renewTime with
  | some renewTime => micros (spec.leaseDurationSeconds.getD leaseTtl) < (now - renewTime).natAbs
  | none => true

structure LeaseWrite where
  existing : Option Lease
  version : Nat
  now : Int
  deriving DecidableEq

def LeaseWrite.wanted (write : LeaseWrite) (identity : String) : Bool :=
  match write.existing with
  | none => true
  | some lease =>
      let spec := lease.spec.getD {}
      spec.holder = identity ∨ spec.expired write.now

def LeaseWrite.lease (write : LeaseWrite) (identity : String) : Lease :=
  let held : LeaseSpec :=
    { holderIdentity := some identity, leaseDurationSeconds := some leaseTtl,
      renewTime := some write.now }
  match write.existing with
  | none => ⟨some { held with acquireTime := some write.now, leaseTransitions := some 1 }⟩
  | some lease =>
      let spec := lease.spec.getD {}
      if spec.holder = identity then
        ⟨some { held with
          acquireTime := some (spec.acquireTime.getD write.now)
          leaseTransitions := some (spec.leaseTransitions.getD 0) }⟩
      else
        ⟨some { held with
          acquireTime := some write.now
          leaseTransitions := some (spec.leaseTransitions.getD 0 + 1) }⟩

inductive LeaseStage where
  | idle
  | got (existing : Option Lease) (version : Nat)
  | writing (write : LeaseWrite)
  | wrote (write : LeaseWrite) (accepted : Bool)
  deriving DecidableEq

structure LeaseReplica where
  leading : Option Int := none
  stage : LeaseStage := .idle

def LeaseReplica.isLeader (replica : LeaseReplica) : Bool :=
  replica.leading.isSome

structure LeaseServer where
  lease : Option Lease
  version : Nat := 0

namespace LeaseServer

variable (server : LeaseServer)

def admits (write : LeaseWrite) : Bool :=
  write.existing.isSome || server.lease.isNone

def serve (identity : String) (write : LeaseWrite) : LeaseServer :=
  if server.admits write then ⟨some (write.lease identity), server.version + 1⟩ else server

def Unraced (write : LeaseWrite) : Prop :=
  write.existing.isSome → write.version = server.version

end LeaseServer

structure Election where
  server : LeaseServer
  clock : Int
  replicas : String → LeaseReplica := fun _ => {}
  strays : List (String × LeaseWrite) := []

inductive ElectionAction where
  | tick (micros : Nat)
  | get (identity : String)
  | decide (identity : String)
  | apply (identity : String)
  | answer (identity : String)
  | fail (identity : String)
  | applyStray (index : Nat)

namespace Election

variable (state : Election)

def setReplica (identity : String) (replica : LeaseReplica) : Election :=
  { state with replicas := Function.update state.replicas identity replica }

def abandoned (identity : String) : List (String × LeaseWrite) :=
  match (state.replicas identity).stage with
  | .writing write => (identity, write) :: state.strays
  | _ => state.strays

def step : ElectionAction → Option Election
  | .tick micros => some { state with clock := state.clock + micros }
  | .get identity =>
      let replica := state.replicas identity
      match replica.stage with
      | .idle =>
          some (state.setReplica identity { replica with stage := .got state.server.lease state.server.version })
      | _ => none
  | .decide identity =>
      let replica := state.replicas identity
      match replica.stage with
      | .got existing version =>
          let write := { existing, version, now := state.clock }
          if write.wanted identity then
            some (state.setReplica identity { replica with stage := .writing write })
          else some (state.setReplica identity {})
      | _ => none
  | .apply identity =>
      let replica := state.replicas identity
      match replica.stage with
      | .writing write =>
          some { state.setReplica identity
            { replica with stage := .wrote write (state.server.admits write) } with
            server := state.server.serve identity write }
      | _ => none
  | .answer identity =>
      match (state.replicas identity).stage with
      | .wrote write accepted =>
          some (state.setReplica identity { leading := if accepted then some write.now else none })
      | _ => none
  | .fail identity => some { state.setReplica identity {} with strays := state.abandoned identity }
  | .applyStray index =>
      state.strays[index]?.map fun (identity, write) =>
        { state with server := state.server.serve identity write, strays := state.strays.eraseIdx index }

def Exclusive : Prop :=
  ∀ first second, (state.replicas first).isLeader → (state.replicas second).isLeader →
    first = second

def Timely : ElectionAction → Prop
  | .tick passed =>
      ∀ identity stamp, (state.replicas identity).leading = some stamp →
        state.clock + passed ≤ stamp + micros leaseTtl
  | .answer identity =>
      match (state.replicas identity).stage with
      | .wrote write true => state.clock ≤ write.now + micros leaseTtl
      | _ => True
  | .apply identity =>
      match (state.replicas identity).stage with
      | .writing write => state.server.Unraced write
      | _ => True
  | .applyStray index =>
      ∀ identity write, state.strays[index]? = some (identity, write) → state.server.Unraced write
  | .get _ | .decide _ | .fail _ => True

end Election

namespace LeaseServer

variable (server : LeaseServer) (clock : Int)

structure Held (identity : String) (stamp : Int) : Prop where
  written : 0 < server.version
  lease : ∃ spec renewTime, server.lease = some ⟨some spec⟩ ∧ spec.holderIdentity = some identity ∧
    spec.leaseDurationSeconds = some leaseTtl ∧ spec.renewTime = some renewTime ∧ stamp ≤ renewTime

structure Read (existing : Option Lease) (version : Nat) : Prop where
  earlier : version ≤ server.version
  same : version = server.version → existing = server.lease

structure Sent (identity : String) (write : LeaseWrite) :
    Prop extends server.Read write.existing write.version where
  wanted : write.wanted identity
  past : write.now ≤ clock
  renewed : write.version = server.version → ∀ holder stamp, server.Held holder stamp →
    stamp ≤ write.now

structure Sound (identity : String) (replica : LeaseReplica) : Prop where
  leads : ∀ stamp, replica.leading = some stamp → clock ≤ stamp + micros leaseTtl ∧
    server.Held identity stamp
  read : ∀ existing version, replica.stage = .got existing version → server.Read existing version
  sent : ∀ write, replica.stage = .writing write → server.Sent clock identity write
  applied : ∀ write, replica.stage = .wrote write true →
    server.Held identity write.now ∨ write.now + micros leaseTtl < clock

variable {server clock} {identity : String} {write : LeaseWrite} {replica : LeaseReplica}
  {stamp : Int}

theorem Held.holder_eq {other later} (held : server.Held identity stamp)
    (also : server.Held other later) : identity = other := by grind [lease]

theorem sound_idle : server.Sound clock identity {} := by
  refine ⟨?_, ?_, ?_, ?_⟩
  · rintro _ ⟨⟩
  · rintro _ _ ⟨⟩
  · rintro _ ⟨⟩
  · rintro _ ⟨⟩

theorem lease_held (write : LeaseWrite) (identity : String) :
    ∃ spec, write.lease identity = ⟨some spec⟩ ∧ spec.holderIdentity = some identity ∧
      spec.leaseDurationSeconds = some leaseTtl ∧ spec.renewTime = some write.now := by
  unfold LeaseWrite.lease
  dsimp only
  split
  · exact ⟨_, rfl, rfl, rfl, rfl⟩
  · split <;> exact ⟨_, rfl, rfl, rfl, rfl⟩

theorem Held.patch (held : server.Held identity stamp) (admitted : server.admits write) :
    write.existing.isSome := by
  obtain ⟨spec, renewTime, isLease, _⟩ := held.lease
  simpa [admits, isLease] using admitted

theorem Sent.renews_or_expired (sent : server.Sent clock identity write)
    (unraced : server.Unraced write) (admitted : server.admits write) {holder}
    (held : server.Held holder stamp) :
    holder = identity ∨ stamp + micros leaseTtl < write.now := by
  have current := unraced (held.patch admitted)
  obtain ⟨spec, renewTime, isLease, isHolder, isDuration, isRenewed, since⟩ := held.lease
  have wanted := sent.wanted
  simp only [LeaseWrite.wanted, sent.same current, isLease, Option.getD_some, LeaseSpec.holder,
    LeaseSpec.expired,
    isHolder, isDuration, isRenewed, Bool.decide_or, Bool.or_eq_true, decide_eq_true_eq] at wanted
  rcases wanted with isIdentity | expired
  · exact .inl isIdentity
  · right
    have renewed := sent.renewed current holder renewTime
      ⟨held.written, spec, renewTime, isLease, isHolder, isDuration, isRenewed, le_rfl⟩
    omega

theorem serve_admitted (admitted : server.admits write) :
    server.serve identity write = ⟨some (write.lease identity), server.version + 1⟩ :=
  if_pos admitted

theorem held_serve (admitted : server.admits write) (early : stamp ≤ write.now) :
    (server.serve identity write).Held identity stamp := by
  rw [serve_admitted admitted]
  obtain ⟨spec, isLease, isHolder, isDuration, isRenewed⟩ := lease_held write identity
  exact ⟨Nat.succ_pos _, spec, write.now, congrArg some isLease, isHolder, isDuration,
    isRenewed, early⟩

theorem Held.of_serve {holder} (admitted : server.admits write)
    (held : (server.serve identity write).Held holder stamp) : holder = identity ∧
    stamp ≤ write.now := by
  grind [LeaseWrite.lease, Held, serve]

theorem Held.serve {holder} (held : server.Held holder stamp)
    (sent : server.Sent clock identity write) (unraced : server.Unraced write)
    (admitted : server.admits write) :
    (server.serve identity write).Held holder stamp ∨ stamp + micros leaseTtl < write.now := by
  rcases sent.renews_or_expired unraced admitted held with rfl | expired
  · exact .inl (held_serve admitted (sent.renewed (unraced (held.patch admitted)) _ _ held))
  · exact .inr expired

theorem Read.serve {existing ver} (read : server.Read existing ver)
    (admitted : server.admits write) :
    (server.serve identity write).Read existing ver ∧
    ver ≠ (server.serve identity write).version := by
  have earlier := read.earlier
  rw [serve_admitted admitted]
  refine ⟨⟨?_, ?_⟩, ?_⟩ <;> dsimp only <;> omega

theorem Sent.serve {other later} (waiting : server.Sent clock other later)
    (admitted : server.admits write) : (server.serve identity write).Sent clock other later := by
  obtain ⟨read, old⟩ := waiting.toRead.serve admitted
  exact ⟨read, waiting.wanted, waiting.past, fun same => absurd same old⟩

theorem Sound.serve {other} (sound : server.Sound clock other replica)
    (sent : server.Sent clock identity write) (unraced : server.Unraced write)
    (admitted : server.admits write) :
    (server.serve identity write).Sound clock other replica := by
  have past := sent.past
  refine ⟨?_, ?_, ?_, ?_⟩
  · intro stamp isLeading
    obtain ⟨timely, held⟩ := sound.leads stamp isLeading
    refine ⟨timely, (held.serve sent unraced admitted).resolve_right ?_⟩
    omega
  · intro existing ver isGot
    exact ((sound.read existing ver isGot).serve admitted).1
  · intro later isWriting
    exact (sound.sent later isWriting).serve admitted
  · intro later isWrote
    rcases sound.applied later isWrote with held | expired
    · exact (held.serve sent unraced admitted).imp_right fun expired => by omega
    · exact .inr expired

theorem Sound.tick {passed : Nat} (sound : server.Sound clock identity replica)
    (timely : ∀ stamp, replica.leading = some stamp → clock + passed ≤ stamp + micros leaseTtl) :
    server.Sound (clock + passed) identity replica := by
  refine ⟨fun stamp isLeading => ⟨timely stamp isLeading, (sound.leads stamp isLeading).2⟩, sound.read, ?_, ?_⟩
  · intro write isWriting
    have sent := sound.sent write isWriting
    exact ⟨sent.toRead, sent.wanted, by have := sent.past; omega, sent.renewed⟩
  · intro write isWrote
    exact (sound.applied write isWrote).imp_right fun expired => by omega

end LeaseServer

namespace Election

variable {state next : Election} {identity : String} {write : LeaseWrite} {replica : LeaseReplica}

open LeaseServer

structure Elected (state : Election) : Prop where
  unwritten : state.server.lease = none → state.server.version = 0
  past : ∀ identity stamp, state.server.Held identity stamp → stamp ≤ state.clock
  replicas : ∀ identity, state.server.Sound state.clock identity (state.replicas identity)
  strays : ∀ identity write, (identity, write) ∈ state.strays →
    state.server.Sent state.clock identity write

theorem Elected.setReplica (elected : state.Elected)
    (sound : state.server.Sound state.clock identity replica) :
    (state.setReplica identity replica).Elected := by
  refine ⟨elected.unwritten, elected.past, ?_, elected.strays⟩
  intro other
  by_cases same : other = identity
  · subst same
    simpa [Election.setReplica] using sound
  · simpa [Election.setReplica, same] using elected.replicas other

theorem Elected.serve (elected : state.Elected)
    (sent : state.server.Sent state.clock identity write) (unraced : state.server.Unraced write) :
    Elected { state with server := state.server.serve identity write } := by
  by_cases admitted : state.server.admits write
  · refine ⟨?_, ?_, ?_, ?_⟩
    · intro none
      simp [serve_admitted admitted] at none
    · intro holder stamp held
      exact (held.of_serve admitted).2.trans sent.past
    · intro other
      exact (elected.replicas other).serve sent unraced admitted
    · intro other later isStray
      exact (elected.strays other later isStray).serve admitted
  · rwa [show state.server.serve identity write = state.server from if_neg admitted]

theorem Elected.exclusive (elected : state.Elected) : state.Exclusive := by
  intro first second firstLeads secondLeads
  obtain ⟨stamp, isFirst⟩ := Option.isSome_iff_exists.mp firstLeads
  obtain ⟨later, isSecond⟩ := Option.isSome_iff_exists.mp secondLeads
  exact ((elected.replicas first).leads stamp isFirst).2.holder_eq ((elected.replicas second).leads later isSecond).2

theorem elected_step {action} (stepped : state.step action = some next)
    (timely : state.Timely action) (elected : state.Elected) : next.Elected := by
  cases action with
  | tick passed =>
    cases stepped
    refine ⟨elected.unwritten, ?_, fun identity => (elected.replicas identity).tick (timely identity), ?_⟩
    · intro identity stamp held
      have := elected.past identity stamp held
      dsimp only
      omega
    · intro identity write isStray
      have sent := elected.strays identity write isStray
      exact ⟨sent.toRead, sent.wanted, by have := sent.past; dsimp only; omega, sent.renewed⟩
  | get identity =>
    simp only [step] at stepped
    split at stepped
    · cases stepped
      refine elected.setReplica ⟨(elected.replicas identity).leads, ?_, ?_, ?_⟩
      · rintro _ _ ⟨⟩
        exact ⟨le_rfl, fun _ => rfl⟩
      · rintro _ ⟨⟩
      · rintro _ ⟨⟩
    · cases stepped
  | decide identity =>
    simp only [step] at stepped
    split at stepped
    · rename_i existing version isGot
      have read := (elected.replicas identity).read existing version isGot
      split at stepped
      · rename_i wanted
        cases stepped
        refine elected.setReplica ⟨(elected.replicas identity).leads, ?_, ?_, ?_⟩
        · rintro _ _ ⟨⟩
        · rintro _ ⟨⟩
          exact ⟨read, wanted, le_rfl, fun _ => elected.past⟩
        · rintro _ ⟨⟩
      · cases stepped
        exact elected.setReplica sound_idle
    · cases stepped
  | apply identity =>
    simp only [step] at stepped
    split at stepped
    · rename_i write isWriting
      cases stepped
      simp only [Timely, isWriting] at timely
      have sent := (elected.replicas identity).sent write isWriting
      have served := elected.serve sent timely
      refine served.setReplica ⟨(served.replicas identity).leads, ?_, ?_, ?_⟩
      · rintro _ _ ⟨⟩
      · rintro _ ⟨⟩
      · intro _ accepted
        simp only [LeaseStage.wrote.injEq] at accepted
        obtain ⟨rfl, admitted⟩ := accepted
        exact .inl (held_serve admitted le_rfl)
    · cases stepped
  | answer identity =>
    simp only [step] at stepped
    split at stepped
    · rename_i write accepted isWrote
      cases stepped
      refine elected.setReplica ⟨?_, ?_, ?_, ?_⟩
      · intro stamp isLeading
        cases accepted with
        | false => cases isLeading
        | true =>
          cases isLeading
          grind [Sound.applied, Elected.replicas, Timely]
      · rintro _ _ ⟨⟩
      · rintro _ ⟨⟩
      · rintro _ ⟨⟩
    · cases stepped
  | fail identity =>
    cases stepped
    refine ⟨elected.unwritten, elected.past, (elected.setReplica sound_idle).replicas, ?_⟩
    intro other write isStray
    simp only [abandoned] at isStray
    split at isStray
    · grind [Sound.sent, setReplica, Elected]
    · exact elected.strays other write isStray
  | applyStray index =>
    simp only [step, Option.map_eq_some_iff] at stepped
    obtain ⟨⟨identity, write⟩, isStray, rfl⟩ := stepped
    have served := elected.serve (elected.strays identity write (List.mem_of_getElem? isStray))
      (timely identity write isStray)
    refine ⟨served.unwritten, served.past, served.replicas, ?_⟩
    intro other later member
    exact served.strays other later (List.mem_of_mem_eraseIdx member)

theorem elected_start (lease : Option Lease) (clock : Int) :
    Elected { server := { lease }, clock } := by
  refine ⟨fun _ => rfl, ?_, fun _ => sound_idle, ?_⟩
  · rintro _ _ ⟨written, _⟩
    cases written
  · rintro _ _ ⟨⟩

/-- In every timely history at most one replica reports that it leads. -/
theorem one_leader (lease : Option Lease) (clock : Int) {actions : List ElectionAction}
    {final : Election}
    (performed : perform step { server := { lease }, clock } actions = some final)
    (timely : Stepwise step (fun state action _ => state.Timely action) { server := { lease }, clock } actions) :
    final.Exclusive :=
  (timely.invariant (fun stepped elected timely => elected_step stepped timely elected) performed
    (elected_start lease clock)).exclusive

def attempt (identity : String) : List ElectionAction :=
  [.get identity, .decide identity, .apply identity, .answer identity]

def expiredLease : Election :=
  { server := { lease := some ⟨some ⟨some "gone", some 30, some 0, some 0, some 1⟩⟩ }
    clock := 30000001 }

def leaders (actions : List ElectionAction) : Option (Bool × Bool) :=
  (perform step expiredLease actions).map fun final =>
    ((final.replicas "a").isLeader, (final.replicas "b").isLeader)

theorem one_leader_after_takeover :
    ∃ final, perform step expiredLease (attempt "b" ++ [.tick 10000000]) = some final ∧
      (final.replicas "b").isLeader ∧ final.Exclusive := by
  have reached : leaders (attempt "b" ++ [.tick 10000000]) = some (false, true) := by decide +kernel
  obtain ⟨final, performed, leads⟩ := Option.map_eq_some_iff.mp reached
  have timely (identity : String) (stamp : Int)
      (isLeading : (Function.update (fun _ => ({} : LeaseReplica)) "b" { leading := some 30000001 } identity).leading =
        some stamp) :
      40000001 ≤ stamp + 30000000 := by grind
  refine ⟨final, performed, (Prod.mk.inj leads).2, one_leader _ _ performed ?_⟩
  simpa [attempt, Stepwise, step, setReplica, LeaseWrite.wanted, LeaseServer.serve, LeaseServer.admits, Timely,
    LeaseServer.Unraced, LeaseSpec.holder, LeaseSpec.expired, leaseTtl, micros] using timely

/-- Two replicas take over the Lease; and one takes it over from one that waits for an answer. -/
theorem two_leaders :
    leaders [.get "a", .get "b", .decide "a", .decide "b", .apply "a", .apply "b", .answer "a", .answer "b"] =
      some (true, true) ∧
    leaders (attempt "a" ++ [.get "a", .tick 30000001] ++ attempt "b") = some (true, true) := by
  refine ⟨?_, ?_⟩ <;> decide +kernel

end Election

end Rivers

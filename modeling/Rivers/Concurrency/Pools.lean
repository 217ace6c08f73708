import Rivers.Concurrency.PoolsCore
import Mathlib.Algebra.BigOperators.Group.List.Basic
import Mathlib.Algebra.Order.BigOperators.Group.List
import Mathlib.Algebra.Order.Group.Nat

/-! The unexpired leases of a pool stay within its limit. -/

namespace Rivers

open SlotTable PoolSystem

namespace AssetScope

theorem conflicts_comm (mine other : AssetScope) : mine.conflicts other = other.conflicts mine := by
  grind [overlaps, conflicts]

end AssetScope

namespace SlotTable

variable {slots fewer : SlotTable} {pool : PoolId} {now time later : Int} {holder : StepId}

theorem consumed_le_of_sublist (sublist : fewer.Sublist slots) : consumed fewer ≤ consumed slots :=
  (sublist.map _).sum_le_sum fun _ _ => Nat.zero_le _

theorem filter_sublist_filter {selects wider} (implies : ∀ row ∈ slots, selects row = true →
    wider row = true) :
    (slots.filter selects).Sublist (slots.filter wider) := by
  have twice : slots.filter selects = (slots.filter wider).filter selects := by
    rw [List.filter_filter]
    refine List.filter_congr fun row mem => ?_
    rw [Bool.eq_iff_iff, Bool.and_eq_true]
    exact ⟨fun sel => ⟨sel, implies row mem sel⟩, fun both => both.1⟩
  rw [twice]
  exact List.filter_sublist

theorem mem_live {row} :
    row ∈ live slots pool now ↔ row ∈ slots ∧ row.1.pool = pool ∧ now < row.2.leaseExpiresAt := by
  simp [live]

theorem mem_liveOthers {row} :
    row ∈ liveOthers slots pool now holder ↔ row ∈ live slots pool now ∧ row.1.holder ≠ holder := by
  simp [liveOthers]

theorem live_sublist (sublist : fewer.Sublist slots) (order : time ≤ later) :
    (live fewer pool later).Sublist (live slots pool time) := by
  refine List.Sublist.trans ?_ (sublist.filter _)
  grind [filter_sublist_filter, live]

theorem consumed_live (slots : SlotTable) (pool : PoolId) (now : Int) (holder : StepId) :
    consumed (live slots pool now) = consumed (liveOthers slots pool now holder) +
      consumed ((live slots pool now).filter fun row => row.1.holder = holder) := by
  have split := List.filter_append_perm (fun row : SlotKey × Slot => decide (row.1.holder ≠ holder))
    (live slots pool now)
  rw [consumed, ← (split.map _).sum_eq, List.map_append, List.sum_append]
  simp only [consumed, liveOthers, ne_eq, decide_not, Bool.not_not]

theorem consumed_own_le {bound} (dist : (slots.map (·.1)).Nodup)
    (bounded : ∀ row ∈ live slots pool now, row.1.holder = holder → row.2.slotsConsumed ≤ bound) :
    consumed ((live slots pool now).filter fun row => row.1.holder = holder) ≤ bound := by
  generalize own : (live slots pool now).filter (fun row => row.1.holder = holder) = rows
  have sublist : rows.Sublist slots := own ▸ List.filter_sublist.trans List.filter_sublist
  have isOwn : ∀ row ∈ rows, row.1 = ⟨pool, holder⟩ ∧ row.2.slotsConsumed ≤ bound := by
    intro row mem
    rw [← own, List.mem_filter, decide_eq_true_eq] at mem
    refine ⟨?_, bounded row mem.1 mem.2⟩
    rw [← (mem_live.mp mem.1).2.1, ← mem.2]
  have nodup := dist.sublist (sublist.map (·.1))
  match rows, isOwn, nodup with
  | [], _, _ => simp [consumed]
  | [row], isOwn, _ => simpa [consumed] using (isOwn row (by simp)).2
  | first :: second :: _, isOwn, nodup => grind

structure Sound (limits : PoolId → Option Int) (slots : SlotTable) (time : Int) : Prop where
  distinct : (slots.map (·.1)).Nodup
  withinLimits : ∀ pool limit, limits pool = some limit → 0 ≤ limit →
    isAssetPool pool.poolKey = false →
    (consumed (live slots pool time) : Int) ≤ limit
  noConflict : ∀ first ∈ slots, ∀ second ∈ slots, first.1.pool = second.1.pool →
    isAssetPool first.1.pool.poolKey = true → first.1.holder ≠ second.1.holder →
    time < first.2.leaseExpiresAt → time < second.2.leaseExpiresAt →
    first.2.scope.conflicts second.2.scope = false

namespace Sound

variable {limits : PoolId → Option Int}

theorem empty : Sound limits [] time := by
  refine ⟨List.nodup_nil, fun pool limit _ nonneg _ => ?_, by simp⟩
  simpa [live, consumed] using nonneg

theorem of_sublist (sound : Sound limits slots time) (sublist : fewer.Sublist slots)
    (order : time ≤ later) :
    Sound limits fewer later := by
  refine ⟨sound.distinct.sublist (sublist.map _), fun pool limit configured nonneg counted => ?_,
    ?_⟩
  · have fewerConsumed : consumed (live fewer pool later) ≤ consumed (live slots pool time) :=
      consumed_le_of_sublist (live_sublist sublist order)
    have within := sound.withinLimits pool limit configured nonneg counted
    omega
  · intro first firstMem second secondMember samePool isAsset different firstLive secondLive
    exact sound.noConflict first (sublist.subset firstMem) second (sublist.subset secondMember)
      samePool
      isAsset different (by omega) (by omega)

theorem renew (sound : Sound limits slots time) {leaseExpiresAt}
    (unexpired : ∀ row ∈ slots, row.1.holder = holder → time < row.2.leaseExpiresAt) :
    Sound limits (slots.map fun row => if row.1.holder = holder then
      (row.1, { row.2 with leaseExpiresAt := leaseExpiresAt, lastHeartbeat := now }) else row)
        time := by
  generalize renewedDef : (fun row : SlotKey × Slot => if row.1.holder = holder then
    (row.1, { row.2 with leaseExpiresAt := leaseExpiresAt, lastHeartbeat := now }) else row) =
      renewed
  have unchanged : ∀ row, (renewed row).1 = row.1 ∧ (renewed row).2.slotsConsumed =
      row.2.slotsConsumed ∧
      (renewed row).2.scope = row.2.scope := by
    intro row
    subst renewedDef
    dsimp only
    split <;> exact ⟨rfl, rfl, rfl⟩
  have wasLive : ∀ row ∈ slots, time < (renewed row).2.leaseExpiresAt →
    time < row.2.leaseExpiresAt := by grind
  refine ⟨?_, fun pool limit configured nonneg counted => ?_, ?_⟩
  · rw [List.map_map]
    rw [show (·.1) ∘ renewed = fun row : SlotKey × Slot => row.1 from funext fun row =>
      (unchanged row).1]
    exact sound.distinct
  · have same : consumed (live (slots.map renewed) pool time) ≤
      consumed (live slots pool time) := by
      rw [live, List.filter_map, consumed, List.map_map]
      rw [show (·.2.slotsConsumed) ∘ renewed = fun row : SlotKey × Slot => row.2.slotsConsumed from
        funext fun row => (unchanged row).2.1]
      refine consumed_le_of_sublist ?_
      grind [filter_sublist_filter, live]
    have within := sound.withinLimits pool limit configured nonneg counted
    omega
  · intro first firstMem second secondMember samePool isAsset different firstLive secondLive
    obtain ⟨first, firstOld, rfl⟩ := List.mem_map.mp firstMem
    obtain ⟨second, secondOld, rfl⟩ := List.mem_map.mp secondMember
    grind [noConflict]

end Sound

end SlotTable

namespace SlotClaim

variable {limits : PoolId → Option Int} {slots : SlotTable} {claim : SlotClaim}
  {entries : List (String × Nat)} {time : Int}

theorem nodup_writeRows (dist : (slots.map (·.1)).Nodup) :
    ((claim.writeRows slots entries).map (·.1)).Nodup := by
  induction entries generalizing slots with
  | nil => exact dist
  | cons entry entries ih => exact ih (Assoc.nodup_upsert dist)

theorem of_mem_writeRows {row} (dist : (slots.map (·.1)).Nodup)
    (mem : row ∈ claim.writeRows slots entries) :
    (row ∈ slots ∧ ∀ entry ∈ entries, row.1 ≠ ⟨claim.pool entry.1, claim.holder⟩) ∨
      ∃ entry ∈ entries, row.1 = ⟨claim.pool entry.1, claim.holder⟩ ∧
        ∃ old, row.2 = claim.row entry.1 entry.2 old := by
  induction entries generalizing slots with
  | nil => exact .inl ⟨mem, by simp⟩
  | cons entry entries ih =>
    rcases ih (Assoc.nodup_upsert dist) mem with ⟨pre, untouched⟩ | ⟨written, isEntry, row⟩
    · grind [Assoc.of_mem_upsert]
    · exact .inr ⟨written, List.mem_cons_of_mem _ isEntry, row⟩

theorem filter_writeRows {selects}
    (never : ∀ entry ∈ entries, ∀ slot, selects (⟨claim.pool entry.1, claim.holder⟩, slot) =
      false) :
    (claim.writeRows slots entries).filter selects = slots.filter selects := by
  induction entries generalizing slots with
  | nil => rfl
  | cons entry entries ih =>
    obtain ⟨first, rest⟩ := List.forall_mem_cons.mp never
    exact (ih rest).trans (Assoc.filter_upsert first)

theorem liveOthers_writeRows (pool : PoolId) :
    (claim.writeRows slots entries).liveOthers pool time claim.holder =
      slots.liveOthers pool time claim.holder := by
  simp only [liveOthers, live, List.filter_filter]
  exact filter_writeRows (by simp)

theorem live_writeRows_of_untouched {pool}
    (untouched : ∀ entry ∈ entries, claim.pool entry.1 ≠ pool) :
    (claim.writeRows slots entries).live pool time = slots.live pool time :=
  filter_writeRows fun entry mem slot => by simp [untouched entry mem]

theorem consumed_liveOthers_le (past : claim.now ≤ time) (poolKey : String) :
    (slots.liveOthers (claim.pool poolKey) time claim.holder).consumed ≤
      claim.usedByOthers slots poolKey :=
  consumed_le_of_sublist ((live_sublist (List.Sublist.refl _) past).filter _)

theorem admits_asset {entry} (admitted : claim.admits limits slots entry = true)
    (isAsset : isAssetPool entry.1 = true) {row} (mem : row ∈ slots)
    (samePool : row.1.pool = claim.pool entry.1)
      (different : row.1.holder ≠ claim.holder)
    (live : claim.now < row.2.leaseExpiresAt) :
    (AssetScope.ofClaim claim.scope).conflicts row.2.scope = false := by
  simp only [admits, isAsset, if_true, Bool.not_eq_true', conflictsOn, assetConflict,
    List.any_eq_false, Bool.not_eq_true] at admitted
  grind [mem_liveOthers, mem_live]

theorem withinLimits_writeRows (sound : slots.Sound limits time) (past : claim.now ≤ time)
    (admitted : ∀ entry ∈ entries, claim.admits limits slots entry = true) (pool : PoolId)
    (limit : Int) (configured : limits pool = some limit) (nonneg : 0 ≤ limit)
    (counted : isAssetPool pool.poolKey = false) :
    (((claim.writeRows slots entries).live pool time).consumed : Int) ≤ limit := by
  by_cases touched : ∃ entry ∈ entries, claim.pool entry.1 = pool
  · have others : (slots.liveOthers pool time claim.holder).consumed ≤ limit := by
      have within := sound.withinLimits pool limit configured nonneg counted
      have fewer : (slots.liveOthers pool time claim.holder).consumed ≤
          (slots.live pool time).consumed :=
        consumed_le_of_sublist List.filter_sublist
      omega
    have own : ∀ row ∈ (claim.writeRows slots entries).live pool time, row.1.holder = claim.holder →
        row.2.slotsConsumed ≤ limit.toNat - (slots.liveOthers pool time claim.holder).consumed := by
      intro row mem isOwn
      obtain ⟨written, rowPool, -⟩ := mem_live.mp mem
      rcases of_mem_writeRows sound.distinct written with ⟨-, untouched⟩ | ⟨entry, isEntry,
        key, old, slot⟩
      · obtain ⟨entry, isEntry, same⟩ := touched
        refine absurd ?_ (untouched entry isEntry)
        rw [same, ← rowPool, ← isOwn]
      grind [consumed_liveOthers_le, pool, row, admits]
    have total := consumed_live (claim.writeRows slots entries) pool time claim.holder
    have ownTotal := consumed_own_le (nodup_writeRows sound.distinct) own
    rw [liveOthers_writeRows] at total
    omega
  · push Not at touched
    rw [live_writeRows_of_untouched touched]
    exact sound.withinLimits pool limit configured nonneg counted

theorem noConflict_written (past : claim.now ≤ time)
    (admitted : ∀ entry ∈ entries, claim.admits limits slots entry = true) {entry}
    (isEntry : entry ∈ entries) (isAsset : isAssetPool entry.1 = true) {old row} (mem : row ∈ slots)
    (samePool : row.1.pool = claim.pool entry.1) (different : row.1.holder ≠ claim.holder)
    (live : time < row.2.leaseExpiresAt) :
    (claim.row entry.1 entry.2 old).scope.conflicts row.2.scope = false := by
  rw [SlotClaim.row, if_pos isAsset]
  exact admits_asset (admitted entry isEntry) isAsset mem samePool different (by omega)

theorem sound_writeRows (sound : slots.Sound limits time) (past : claim.now ≤ time)
    (admitted : ∀ entry ∈ entries, claim.admits limits slots entry = true) :
    (claim.writeRows slots entries).Sound limits time := by
  refine ⟨nodup_writeRows sound.distinct, withinLimits_writeRows sound past admitted, ?_⟩
  intro first firstMem second secondMember samePool isAsset different firstLive secondLive
  rcases of_mem_writeRows sound.distinct firstMem with ⟨firstOld, -⟩ | ⟨entry, isEntry, key,
    old, slot⟩ <;>
    rcases of_mem_writeRows sound.distinct secondMember with ⟨secondOld, -⟩ | ⟨other, isOther, key',
      old', slot'⟩
  · exact sound.noConflict first firstOld second secondOld samePool isAsset different
      firstLive secondLive
  · rw [key'] at samePool different
    rw [samePool] at isAsset
    rw [AssetScope.conflicts_comm, slot']
    exact noConflict_written past admitted isOther isAsset firstOld samePool different firstLive
  · rw [key] at samePool different isAsset
    rw [slot]
    exact noConflict_written past admitted isEntry isAsset secondOld samePool.symm
      (Ne.symm different) secondLive
  · rw [key, key'] at different
    exact absurd rfl different

end SlotClaim

namespace PoolSystem

def initial (time : Int) : PoolSystem :=
  ⟨time, [], [], []⟩

def RenewsUnexpired (system : PoolSystem) (action : PoolAction) (_ : PoolSystem) : Prop :=
  match action with
  | .renewSlotLease holder _ _ =>
      ∀ row ∈ system.slots, row.1.holder = holder → system.time < row.2.leaseExpiresAt
  | _ => True

instance (system : PoolSystem) (action : PoolAction) (next : PoolSystem) :
    Decidable (RenewsUnexpired system action next) := by
  unfold RenewsUnexpired
  cases action <;> infer_instance

structure Sound (limits : PoolId → Option Int) (system : PoolSystem) : Prop where
  slots : system.slots.Sound limits system.time
  claimsPast : ∀ claim ∈ system.claims, claim.now ≤ system.time

variable {limits : PoolId → Option Int} {system next : PoolSystem} {claim : SlotClaim}
  {action : PoolAction}

theorem Sound.finishClaim (sound : system.Sound limits) (past : claim.now ≤ system.time) :
    (system.finishClaim limits claim).1.Sound limits := by
  unfold PoolSystem.finishClaim
  split
  · exact sound
  · grind [SlotClaim.sound_writeRows, Sound, enqueuePending, claimTransaction]

theorem Sound.continueClaim (sound : system.Sound limits) (mem : claim ∈ system.claims) :
    (system.continueClaim limits claim).Sound limits := by
  grind [finishClaim, Sound, continueClaim, SlotClaim.precheck]

theorem Sound.step (stepped : system.step limits action = some next) (sound : system.Sound limits)
    (renewal : RenewsUnexpired system action next) : next.Sound limits := by
  cases action with
  | tick time => grind [SlotTable.Sound.of_sublist, Sound, step]
  | claimSlots => grind [SlotClaim.start, Sound, step]
  | continueClaim claim => grind [continueClaim, step]
  | abandonClaim claim => grind [Sound, step]
  | renewSlotLease holder leaseDurationSecs now =>
    simp only [step, Option.ite_none_right_eq_some, Option.some.injEq] at stepped
    obtain ⟨-, rfl⟩ := stepped
    exact ⟨sound.slots.renew renewal, sound.claimsPast⟩
  | freeConcurrencySlots | freeConcurrencySlotsForRun =>
    grind [SlotTable.Sound.of_sublist, List.filter_sublist, Sound, step]
  | freeExpiredLeases now =>
    grind [SlotTable.Sound.of_sublist, List.filter_sublist, Sound, step]

end PoolSystem

/-- Without renewals of expired leases, unexpired slots stay within their pools. -/
theorem unexpired_slots_admissible (limits : PoolId → Option Int) (time : Int)
    (actions : List PoolAction) (final : PoolSystem)
    (performed : Transitions.perform (PoolSystem.step limits) (.initial time) actions = some final)
    (renewals : Transitions.Stepwise (PoolSystem.step limits) PoolSystem.RenewsUnexpired
      (.initial time) actions) :
    (∀ pool limit, limits pool = some limit → 0 ≤ limit → isAssetPool pool.poolKey = false →
      ((final.slots.live pool final.time).consumed : Int) ≤ limit) ∧
    (∀ first ∈ final.slots, ∀ second ∈ final.slots, first.1.pool = second.1.pool →
      isAssetPool first.1.pool.poolKey = true → first.1.holder ≠ second.1.holder →
      final.time < first.2.leaseExpiresAt → final.time < second.2.leaseExpiresAt →
      first.2.scope.conflicts second.2.scope = false) := by
  have sound : final.Sound limits :=
    renewals.invariant PoolSystem.Sound.step performed ⟨.empty, by simp [initial]⟩
  exact ⟨sound.slots.withinLimits, sound.slots.noConflict⟩

section Revival

def warehouseLimits : PoolId → Option Int := fun pool =>
  if pool = ⟨"default", "warehouse"⟩ then some 1
  else if pool = ⟨"default", "__asset__:orders"⟩ then some (-1)
  else none

def claimWarehouse (runId : String) (now : Int) : SlotClaim :=
  .start "default" [("warehouse", 1), ("__asset__:orders", 1)] ⟨runId, "orders"⟩ 0 300
    (some ⟨none, true⟩) now

def checkedWarehouse (runId : String) (now : Int) (checked : Nat) : SlotClaim :=
  let claim := claimWarehouse runId now
  { claim with unchecked := claim.unchecked.drop checked, limited := claim.unchecked.take checked }

def takeWarehouse (runId : String) (now : Int) : List PoolAction :=
  [.claimSlots "default" [("warehouse", 1), ("__asset__:orders", 1)] ⟨runId, "orders"⟩ 0 300
    (some ⟨none, true⟩),
    .continueClaim (checkedWarehouse runId now 0), .continueClaim (checkedWarehouse runId now 1),
    .continueClaim (checkedWarehouse runId now 2)]

def leaseEnd : Int := 300 * 1000000000

def handover : List PoolAction :=
  takeWarehouse "first" 0 ++ [.tick leaseEnd, .freeExpiredLeases leaseEnd] ++ takeWarehouse
    "second" leaseEnd ++
    [.renewSlotLease ⟨"second", "orders"⟩ 300 leaseEnd]

def secondSlot : Slot :=
  ⟨1, leaseEnd, leaseEnd + leaseEnd, leaseEnd, ⟨none, true⟩⟩

def handedOver : PoolSystem :=
  { time := leaseEnd
    slots :=
      [(⟨⟨"default", "warehouse"⟩, ⟨"second", "orders"⟩⟩,
        { secondSlot with scope := ⟨none, false⟩ }),
        (⟨⟨"default", "__asset__:orders"⟩, ⟨"second", "orders"⟩⟩, secondSlot)]
    pendingSteps := []
    claims := [] }

theorem unexpired_slots_admissible_handover :
    ((handedOver.slots.live ⟨"default", "warehouse"⟩ handedOver.time).consumed : Int) ≤ 1 :=
  (unexpired_slots_admissible warehouseLimits 0 handover handedOver (by decide +kernel)
    (by decide +kernel)).1
    ⟨"default", "warehouse"⟩ 1 (by decide) (by decide) (by decide)

/-- A renewed lease that had run out holds slots that another run has taken. -/
theorem expired_lease_revived :
    ((Transitions.perform (PoolSystem.step warehouseLimits) (.initial 0)
        (takeWarehouse "first" 0 ++ [.tick leaseEnd] ++ takeWarehouse "second" leaseEnd ++
          [.renewSlotLease ⟨"first", "orders"⟩ 300 leaseEnd])).map fun final =>
      ((final.slots.live ⟨"default", "warehouse"⟩ final.time).consumed,
        (final.slots.live ⟨"default", "__asset__:orders"⟩ final.time).map fun row =>
          (row.1.holder, row.2.scope))) =
    some (2, [(⟨"first", "orders"⟩, ⟨none, true⟩), (⟨"second", "orders"⟩, ⟨none, true⟩)]) := by
  decide +kernel

end Revival

end Rivers

import Rivers.Pass.Intent
import Rivers.Pass.DispatchCore
import Rivers.Lib.Fold

/-! A failed dispatch is rolled back asset by asset. -/

namespace Rivers

open FiniteMap AssetConditionCache MaterializationPlan

abbrev TrackedRuns := HashMap String (Option PartitionKey)

def untracked (runId : String) (runs : Option TrackedRuns) : Option TrackedRuns :=
  runs.bind fun tracked =>
    if (tracked.erase runId).keys = ∅ then none else some (tracked.erase runId)

def unmarked (runs : Option TrackedRuns) : Option TrackedRuns :=
  runs.bind fun tracked => if tracked.keys = ∅ then none else some tracked

namespace AssetConditionCache

variable (cache : AssetConditionCache)

theorem lookup_registerDispatchedRun (asset runId : String) (now : Int)
    (partitionKey : Option PartitionKey) (key : String) :
    (cache.registerDispatchedRun asset runId now partitionKey).inProgressAssets.lookup key =
      if key = asset then some ((getD cache.inProgressAssets key ∅).insert runId partitionKey)
      else cache.inProgressAssets.lookup key := by
  simp only [registerDispatchedRun, trackInProgressRun, lookup_insert_ite]
  simp_all

theorem lookup_clearDispatchedRun (asset runId key : String) :
    (cache.clearDispatchedRun asset runId).inProgressAssets.lookup key =
      if key = asset then untracked runId (cache.inProgressAssets.lookup key)
      else cache.inProgressAssets.lookup key := by
  simp only [clearDispatchedRun, untrackInProgressRun]
  split
  · grind [untracked]
  · grind [lookup_erase_ite, lookup_insert_ite, untracked]

theorem lookup_clearPredispatchMark (asset key : String) :
    (cache.clearPredispatchMark asset).inProgressAssets.lookup key =
      if key = asset then unmarked (cache.inProgressAssets.lookup key)
      else cache.inProgressAssets.lookup key := by
  grind [Finmap.lookup_erase, Finmap.lookup_erase_ne, clearPredispatchMark, unmarked]

theorem untracked_idem (runId : String) (runs : Option TrackedRuns) :
    untracked runId (untracked runId runs) = untracked runId runs := by
  cases runs with
  | none => rfl
  | some tracked =>
    simp only [untracked, Option.bind_some]
    split
    · rfl
    · rename_i left
      have twice : (tracked.erase runId).erase runId = tracked.erase runId := by
        apply Finmap.ext_lookup
        intro other
        simp only [lookup_erase_ite]
        split <;> rfl
      simp_all

theorem lookup_registerRequest (now : Int) (req : MaterializationRequest) (key : String) :
    (cache.registerRequest now req).inProgressAssets.lookup key =
      if key ∈ req.assetSelection then
        some ((getD cache.inProgressAssets key ∅).insert req.runId req.partitionKey)
      else cache.inProgressAssets.lookup key := by
  refine Fold.foldl_once (fun cache : AssetConditionCache => cache.inProgressAssets.lookup key) _
    key
    (fun runs : Option TrackedRuns => some ((runs.getD ∅).insert req.runId req.partitionKey))
    (fun runs => ?_)
    (fun start asset => ?_) _ _
  · simp
  · exact lookup_registerDispatchedRun start asset req.runId now req.partitionKey key

theorem lookup_clearRequest (req : MaterializationRequest) (key : String) :
    (cache.clearRequest req).inProgressAssets.lookup key =
      if key ∈ req.assetSelection then untracked req.runId (cache.inProgressAssets.lookup key)
      else cache.inProgressAssets.lookup key :=
  Fold.foldl_once (fun cache : AssetConditionCache => cache.inProgressAssets.lookup key) _ key
    (untracked req.runId) (untracked_idem req.runId)
    (fun start asset => lookup_clearDispatchedRun start asset req.runId key) _ _

def pendingRunOf (asset runId : String) : Option PendingRun :=
  (cache.pendingRuns.lookup runId).filter fun pending => pending.assetKeys.contains asset

theorem pendingRuns_registerDispatchedRun (asset runId : String) (now : Int)
    (partitionKey : Option PartitionKey) (other : String) :
    (cache.registerDispatchedRun asset runId now partitionKey).pendingRuns.lookup other =
      if other = runId then
        some { getD cache.pendingRuns runId ⟨[], now⟩ with
          assetKeys := (getD cache.pendingRuns runId ⟨[], now⟩).assetKeys ++ [asset] }
      else cache.pendingRuns.lookup other := by
  simp only [registerDispatchedRun, lookup_insert_ite]

theorem pendingRuns_clearDispatchedRun (asset runId other : String) :
    (cache.clearDispatchedRun asset runId).pendingRuns.lookup other =
      if other = runId then
        (cache.pendingRuns.lookup other).bind fun pending =>
          if pending.assetKeys.filter (· ≠ asset) = [] then none
          else some { pending with assetKeys := pending.assetKeys.filter (· ≠ asset) }
      else cache.pendingRuns.lookup other := by
  grind [lookup_erase_ite, lookup_insert_ite, clearDispatchedRun]

def Unnamed (asset runId : String) : Prop :=
  ∀ pending ∈ cache.pendingRuns.lookup runId, asset ∉ pending.assetKeys

variable {cache}

theorem Unnamed.pendingRunOf {asset runId} (unnamed : cache.Unnamed asset runId) :
    cache.pendingRunOf asset runId = none := by
  rw [AssetConditionCache.pendingRunOf, Option.filter_eq_none_iff]
  intro pending found named
  exact unnamed pending found (List.contains_iff_mem.mp named)

theorem Unnamed.registerRequest {asset runId} (unnamed : cache.Unnamed asset runId) (now : Int)
    (req : MaterializationRequest) (elsewhere : asset ∉ req.assetSelection ∨ req.runId ≠ runId) :
    (cache.registerRequest now req).Unnamed asset runId := by
  have loop : ∀ (assets : List String) (start : AssetConditionCache),
      (asset ∉ assets ∨ req.runId ≠ runId) → start.Unnamed asset runId →
      (assets.foldl (fun registered added => registered.registerDispatchedRun added req.runId now
        req.partitionKey) start).Unnamed asset runId := by
    intro assets
    induction assets with
    | nil => intro start _ unnamed; exact unnamed
    | cons added rest ih =>
      intro start elsewhere unnamed
      rw [List.foldl_cons]
      apply ih
      · grind
      · intro pending found
        rw [pendingRuns_registerDispatchedRun] at found
        by_cases same : runId = req.runId
        · subst same
          have absent := elsewhere.resolve_right (fun different => different rfl)
          rw [if_pos rfl, Option.mem_some_iff] at found
          subst found
          have pre : asset ∉ (getD start.pendingRuns req.runId ⟨[], now⟩).assetKeys := by
            cases old : start.pendingRuns.lookup req.runId with
            | none => simp [getD, old]
            | some pending => simpa [getD, old] using unnamed pending old
          grind
        · rw [if_neg same] at found
          exact unnamed pending found
  exact loop req.assetSelection cache elsewhere unnamed

theorem Unnamed.clearDispatchedRun {asset runId} (unnamed : cache.Unnamed asset runId)
    (cleared clearedRun : String) :
    (cache.clearDispatchedRun cleared clearedRun).Unnamed asset runId := by
  grind [pendingRuns_clearDispatchedRun, Unnamed]

theorem unnamed_clearDispatchedRun (asset runId : String) :
    (cache.clearDispatchedRun asset runId).Unnamed asset runId := by
  grind [pendingRuns_clearDispatchedRun, Unnamed]

theorem clearRequest_unnamed (req : MaterializationRequest) (asset runId : String)
    (cleared : cache.Unnamed asset runId ∨ (asset ∈ req.assetSelection ∧ req.runId = runId)) :
    (cache.clearRequest req).Unnamed asset runId := by
  have loop : ∀ (assets : List String) (start : AssetConditionCache),
      (start.Unnamed asset runId ∨ (asset ∈ assets ∧ req.runId = runId)) →
      (assets.foldl (fun cleared removed =>
        cleared.clearDispatchedRun removed req.runId) start).Unnamed asset runId := by
    intro assets
    induction assets with
    | nil => simp
    | cons removed rest ih =>
      grind [Unnamed.clearDispatchedRun, unnamed_clearDispatchedRun]
  exact loop req.assetSelection cache cleared

theorem pendingRuns_registerRequest (now : Int) (req : MaterializationRequest) (runId : String)
    (other : runId ≠ req.runId) :
    (cache.registerRequest now req).pendingRuns.lookup runId = cache.pendingRuns.lookup runId := by
  refine Fold.foldl_keeps (fun cache : AssetConditionCache => cache.pendingRuns.lookup runId) _
    (fun start asset => ?_) _ _
  rw [pendingRuns_registerDispatchedRun, if_neg other]

theorem pendingRuns_clearRequest (req : MaterializationRequest) (runId : String)
    (other : runId ≠ req.runId) :
    (cache.clearRequest req).pendingRuns.lookup runId = cache.pendingRuns.lookup runId := by
  refine Fold.foldl_keeps (fun cache : AssetConditionCache => cache.pendingRuns.lookup runId) _
    (fun start asset => ?_) _ _
  rw [pendingRuns_clearDispatchedRun, if_neg other]

theorem pendingRuns_clearPredispatchMark (asset : String) :
    (cache.clearPredispatchMark asset).pendingRuns = cache.pendingRuns := by
  unfold clearPredispatchMark
  split
  · rfl
  · split <;> rfl

variable (cache)

def registerRequests (now : Int) (requests : List MaterializationRequest) : AssetConditionCache :=
  requests.foldl (fun registered request => registered.registerRequest now request) cache

def clearRequests (created : Finset String) (requests : List MaterializationRequest) :
    AssetConditionCache :=
  requests.foldl (fun cleared request =>
    if request.runId ∈ created then cleared else cleared.clearRequest request) cache

def clearPredispatchMarks (failed : Finset String)
    (backfills : List (String × Finset PartitionKey)) :
    AssetConditionCache :=
  backfills.foldl (fun cleared backfill =>
    if backfill.1 ∈ failed then cleared.clearPredispatchMark backfill.1 else cleared) cache

theorem lookup_registerRequests_absent (now : Int) (asset : String)
    (reqs : List MaterializationRequest) (start : AssetConditionCache)
    (absent : ∀ req ∈ reqs, asset ∉ req.assetSelection) :
    (start.registerRequests now reqs).inProgressAssets.lookup asset =
      start.inProgressAssets.lookup asset := by
  refine Fold.foldl_keeps_of_mem (fun cache : AssetConditionCache => cache.inProgressAssets.lookup
    asset) _ reqs
    (fun state req mem => ?_) start
  rw [lookup_registerRequest, if_neg (absent req mem)]

theorem lookup_clearRequests_absent (created : Finset String) (asset : String)
    (reqs : List MaterializationRequest) (start : AssetConditionCache)
    (absent : ∀ req ∈ reqs, asset ∉ req.assetSelection) :
    (start.clearRequests created reqs).inProgressAssets.lookup asset =
      start.inProgressAssets.lookup asset := by
  refine Fold.foldl_keeps_of_mem (fun cache : AssetConditionCache => cache.inProgressAssets.lookup
    asset) _ reqs
    (fun state req mem => ?_) start
  split
  · rfl
  · rw [lookup_clearRequest, if_neg (absent req mem)]

theorem lookup_clearPredispatchMarks (failed : Finset String) (asset : String) :
    ∀ (backfills : List (String × Finset PartitionKey)) (start : AssetConditionCache),
      (start.clearPredispatchMarks failed backfills).inProgressAssets.lookup asset =
        if asset ∈ backfills.map (·.1) ∧ asset ∈ failed then
          unmarked (start.inProgressAssets.lookup asset)
        else start.inProgressAssets.lookup asset := by
  intro backfills
  have idem : ∀ runs : Option TrackedRuns, unmarked (unmarked runs) = unmarked runs := by
    grind [unmarked]
  induction backfills with
  | nil => intro start; simp [clearPredispatchMarks]
  | cons backfill rest ih =>
    intro start
    rw [clearPredispatchMarks, List.foldl_cons]
    refine (ih _).trans ?_
    by_cases same : asset = backfill.1
    · grind [lookup_clearPredispatchMark]
    · grind [lookup_clearPredispatchMark]

theorem pendingRuns_clearPredispatchMarks (failed : Finset String) :
    ∀ (backfills : List (String × Finset PartitionKey)) (start : AssetConditionCache),
      (start.clearPredispatchMarks failed backfills).pendingRuns = start.pendingRuns := by
  intro backfills
  induction backfills with
  | nil => intro start; rfl
  | cons backfill rest ih =>
    grind [pendingRuns_clearPredispatchMark, clearPredispatchMarks]

theorem pendingRuns_requests (now : Int) (created : Finset String) (runId : String)
    (reqs : List MaterializationRequest) (other : ∀ req ∈ reqs, runId ≠ req.runId) :
    ((cache.registerRequests now reqs).clearRequests created reqs).pendingRuns.lookup runId =
      cache.pendingRuns.lookup runId := by
  let view (cache : AssetConditionCache) := cache.pendingRuns.lookup runId
  refine (Fold.foldl_keeps_of_mem view _ reqs (fun state req mem => ?_) _).trans
    (Fold.foldl_keeps_of_mem view _ reqs (fun state req mem => ?_) _)
  · split
    · rfl
    · exact pendingRuns_clearRequest req runId (other req mem)
  · exact pendingRuns_registerRequest now req runId (other req mem)

theorem registerRequests_unnamed (now : Int) (asset runId : String)
    (reqs : List MaterializationRequest)
    (start : AssetConditionCache) (elsewhere : ∀ req ∈ reqs, asset ∉ req.assetSelection ∨
      req.runId ≠ runId)
    (unnamed : start.Unnamed asset runId) : (start.registerRequests now reqs).Unnamed asset runId :=
  Fold.foldl_invariant (fun cache : AssetConditionCache => cache.Unnamed asset runId) _ reqs
    (fun _ req mem unnamed => unnamed.registerRequest now req (elsewhere req mem)) start unnamed

theorem clearRequests_unnamed (created : Finset String) (asset runId : String) :
    ∀ (reqs : List MaterializationRequest) (start : AssetConditionCache),
      (start.Unnamed asset runId ∨ ∃ req ∈ reqs, asset ∈ req.assetSelection ∧
        req.runId = runId ∧ runId ∉ created) →
      (start.clearRequests created reqs).Unnamed asset runId := by
  intro reqs
  induction reqs with
  | nil =>
    rintro start (unnamed | ⟨req, mem, -⟩)
    · exact unnamed
    · cases mem
  | cons req rest ih =>
    intro start cleared
    rw [clearRequests, List.foldl_cons]
    apply ih
    rcases cleared with unnamed | ⟨own, mem, named, sameRun, failed⟩
    · grind [clearRequest_unnamed]
    · grind [clearRequest_unnamed]

end AssetConditionCache

theorem exists_around_request {reqs} (separate : (reqs.flatMap (·.assetSelection)).Nodup)
    (own : MaterializationRequest) (mem : own ∈ reqs) (asset : String)
    (named : asset ∈ own.assetSelection) :
    ∃ pre after, reqs = pre ++ own :: after ∧
      (∀ req ∈ pre, asset ∉ req.assetSelection) ∧
      ∀ req ∈ after, asset ∉ req.assetSelection := by
  obtain ⟨pre, after, rfl⟩ := List.append_of_mem mem
  rw [List.flatMap_append, List.flatMap_cons, List.nodup_append, List.nodup_append] at separate
  obtain ⟨-, ⟨-, -, apartAfter⟩, apartBefore⟩ := separate
  refine ⟨pre, after, rfl, ?_, ?_⟩
  · intro req inBefore found
    exact apartBefore asset (List.mem_flatMap.mpr ⟨req, inBefore, found⟩) asset
      (List.mem_append_left _ named) rfl
  · grind

namespace AssetConditionCache

variable (cache : AssetConditionCache)

theorem lookup_failed_request (now : Int) (created : Finset String)
    (reqs : List MaterializationRequest) (separate : (reqs.flatMap (·.assetSelection)).Nodup)
    (own : MaterializationRequest) (mem : own ∈ reqs) (asset : String)
    (named : asset ∈ own.assetSelection) (failed : own.runId ∉ created)
    (fresh : own.runId ∉ getD cache.inProgressAssets asset ∅) :
    ((cache.registerRequests now reqs).clearRequests created reqs).inProgressAssets.lookup
        asset = unmarked (some (getD cache.inProgressAssets asset ∅)) := by
  obtain ⟨pre, after, rfl, absentBefore, absentAfter⟩ :=
    exists_around_request separate own mem asset named
  have registered : (cache.registerRequests now (pre ++ own :: after)).inProgressAssets.lookup
      asset = some ((getD cache.inProgressAssets asset ∅).insert own.runId own.partitionKey) := by
    rw [registerRequests, List.foldl_append, List.foldl_cons]
    refine (lookup_registerRequests_absent now asset after _ absentAfter).trans ?_
    rw [lookup_registerRequest, if_pos named, getD]
    have unchanged := lookup_registerRequests_absent now asset pre cache absentBefore
    rw [registerRequests] at unchanged
    rw [unchanged]
    rfl
  have cleared : ∀ start : AssetConditionCache,
      (start.clearRequests created (pre ++ own :: after)).inProgressAssets.lookup asset =
        untracked own.runId (start.inProgressAssets.lookup asset) := by
    intro start
    rw [clearRequests, List.foldl_append, List.foldl_cons]
    refine (lookup_clearRequests_absent created asset after _ absentAfter).trans ?_
    rw [if_neg failed, lookup_clearRequest, if_pos named]
    have unchanged := lookup_clearRequests_absent created asset pre start absentBefore
    rw [clearRequests] at unchanged
    rw [unchanged]
  have restored : ((getD cache.inProgressAssets asset ∅).insert own.runId own.partitionKey).erase
      own.runId = getD cache.inProgressAssets asset ∅ := by
    apply Finmap.ext_lookup
    intro other
    rw [lookup_erase_ite, lookup_insert_ite]
    by_cases same : other = own.runId
    · subst same
      rw [if_pos rfl]
      exact (Finmap.lookup_eq_none.mpr fresh).symm
    · rw [if_neg same, if_neg same]
  rw [cleared, registered]
  simp only [untracked, unmarked, Option.bind_some, restored]

theorem pendingRunOf_requests (now : Int) (created : Finset String)
    (reqs : List MaterializationRequest) (asset : String)
    (rolledBack : ∀ req ∈ reqs, asset ∈ req.assetSelection → req.runId ∉ created)
    (fresh : ∀ req ∈ reqs, req.runId ∉ cache.pendingRuns) (runId : String) :
    ((cache.registerRequests now reqs).clearRequests created reqs).pendingRunOf asset runId =
      cache.pendingRunOf asset runId := by
  by_cases minted : ∃ req ∈ reqs, req.runId = runId
  · grind [Finmap.lookup_eq_none, Unnamed.pendingRunOf, clearRequests_unnamed,
      registerRequests_unnamed, Unnamed]
  · grind [pendingRuns_requests, pendingRunOf]

end AssetConditionCache

namespace ConditionPass

variable (pass : ConditionPass)

structure FreshIds (ids : MintedIds) : Prop where
  notTracked : ∀ shape asset, ids.run shape ∉ getD pass.cache.inProgressAssets asset ∅
  notPending : ∀ shape, ids.run shape ∉ pass.cache.pendingRuns

theorem runRequests_assets (plan : MaterializationPlan) (ids : MintedIds) :
    (runRequests plan ids).flatMap (·.assetSelection) =
      plan.unpartitioned ++ plan.singlePartitionGroups.flatMap (·.2) := by
  grind [List.flatMap_map, runRequests]

theorem runRequests_minted (plan : MaterializationPlan) (ids : MintedIds)
    (req : MaterializationRequest) (mem : req ∈ runRequests plan ids) :
    ∃ shape, req.runId = ids.run shape := by grind [runRequests]

theorem planTick_dispatched_nodup (now : Int) (selective : Bool) (wellFormed : pass.WellFormed) :
    (pass.planTick now selective).2.plan.dispatchedAssetKeys.Nodup := by
  rw [planTick_plan, (pass.dispatchedAssetKeys_perm _).nodup_iff]
  grind [evaluate_distinct, WellFormed.distinct, toMaterialize]

theorem mem_dispatchFailed (plan : MaterializationPlan) (ids : MintedIds) (out : DispatchOutcome)
    (asset : String) :
    asset ∈ dispatchFailed plan ids out ↔
      (∃ req ∈ runRequests plan ids, asset ∈ req.assetSelection ∧
        req.runId ∉ out.created) ∨
      (asset ∈ plan.multiPartitionBackfills.map (·.1) ∧ asset ∈ out.failedTargets) := by
  simp only [dispatchFailed, Finset.mem_union, List.mem_toFinset, List.mem_flatMap, List.mem_filter,
    decide_eq_true_eq]
  constructor
  · grind
  · grind

def dispatchedCache (now : Int) (selective : Bool) (ids : MintedIds) (outcome : DispatchOutcome) :
    AssetConditionCache :=
  let plan := (pass.planTick now selective).2.plan
  let requests := runRequests plan ids
  (((pass.planTick now selective).1.cache.registerRequests now requests).clearRequests
    outcome.created
    requests).clearPredispatchMarks outcome.failedTargets plan.multiPartitionBackfills

theorem dispatchTick_cache (now : Int) (selective : Bool) (ids : MintedIds)
    (out : DispatchOutcome) :
    (pass.dispatchTick now selective ids out).cache =
      pass.dispatchedCache now selective ids out := rfl

variable {pass}

theorem dispatchTick_failed_state (now : Int) (selective : Bool) (ids : MintedIds)
    (out : DispatchOutcome) (asset : String)
    (failed : asset ∈ dispatchFailed (pass.planTick now selective).2.plan ids out)
    (conditioned : asset ∈ pass.active) :
    (pass.dispatchTick now selective ids out).evalState.assets.lookup asset =
      pass.evalState.assets.lookup asset := by
  obtain ⟨inProgressAssets, equation, -⟩ := pass.planTick_eq now selective
  have left : asset ∈ skipped (pass.planTick now selective).2
      (dispatchFailed (pass.planTick now selective).2.plan ids out) :=
    Finset.mem_union_left _ failed
  unfold dispatchTick
  dsimp only
  rw [commitTick_lookup_of_skipped _ _ _ asset _ left]
  · rw [equation]
    rfl
  · rw [equation]
    exact conditioned

theorem mem_dispatched_of_failed (plan : MaterializationPlan) (ids : MintedIds)
    (out : DispatchOutcome) (asset : String) (failed : asset ∈ dispatchFailed plan ids out) :
    asset ∈ plan.dispatchedAssetKeys := by
  grind [mem_dispatchFailed, dispatchedAssetKeys, runRequests]

theorem dispatchedCache_inProgress (wellFormed : pass.WellFormed) (now : Int) (selective : Bool)
    (ids : MintedIds) (fresh : pass.FreshIds ids) (out : DispatchOutcome) (asset : String)
    (failed : asset ∈ dispatchFailed (pass.planTick now selective).2.plan ids out) :
    (pass.dispatchedCache now selective ids out).inProgressAssets.lookup asset =
      unmarked (pass.cache.inProgressAssets.lookup asset) := by
  have nodup := pass.planTick_dispatched_nodup now selective wellFormed
  rw [dispatchedAssetKeys, ← runRequests_assets _ ids, List.nodup_append] at nodup
  obtain ⟨separate, -, apart⟩ := nodup
  obtain ⟨inProgressAssets, equation, marks⟩ := pass.planTick_eq now selective
  have marked : (pass.planTick now selective).1.cache.inProgressAssets.lookup asset =
      some (getD pass.cache.inProgressAssets asset ∅) := by
    rw [equation]
    exact (marks asset).trans (if_pos (mem_dispatched_of_failed _ ids out asset failed))
  have pre : getD (pass.planTick now selective).1.cache.inProgressAssets asset ∅ =
      getD pass.cache.inProgressAssets asset ∅ := by
    rw [getD, marked]
    rfl
  have placeholder : unmarked (some (getD pass.cache.inProgressAssets asset ∅)) =
      unmarked (pass.cache.inProgressAssets.lookup asset) := by
    cases found : pass.cache.inProgressAssets.lookup asset with
    | none => simp [getD, found, unmarked]
    | some runs => simp [getD, found]
  rw [dispatchedCache, lookup_clearPredispatchMarks, ← placeholder]
  rcases (mem_dispatchFailed _ ids out asset).mp failed with
    ⟨own, mem, named, notCreated⟩ | backfilled
  · grind [lookup_failed_request, runRequests_minted, FreshIds.notTracked]
  · grind [lookup_clearRequests_absent, lookup_registerRequests_absent]

theorem dispatchedCache_pendingRunOf (wellFormed : pass.WellFormed) (now : Int) (selective : Bool)
    (ids : MintedIds) (fresh : pass.FreshIds ids) (out : DispatchOutcome) (asset : String)
    (failed : asset ∈ dispatchFailed (pass.planTick now selective).2.plan ids out)
    (runId : String) :
    (pass.dispatchedCache now selective ids out).pendingRunOf asset runId =
      pass.cache.pendingRunOf asset runId := by
  have nodup := pass.planTick_dispatched_nodup now selective wellFormed
  rw [dispatchedAssetKeys, ← runRequests_assets _ ids, List.nodup_append] at nodup
  obtain ⟨separate, -, apart⟩ := nodup
  obtain ⟨inProgressAssets, equation, -⟩ := pass.planTick_eq now selective
  have pendingRuns : (pass.planTick now selective).1.cache.pendingRuns =
    pass.cache.pendingRuns := by
    rw [equation]
    rfl
  have rolledBack : ∀ req ∈ runRequests (pass.planTick now selective).2.plan ids,
      asset ∈ req.assetSelection → req.runId ∉ out.created := by
    intro req mem named
    rcases (mem_dispatchFailed _ ids out asset).mp failed with
      ⟨own, ownMember, ownNamed, notCreated⟩ | backfilled
    · grind [exists_around_request]
    · grind
  have unused : ∀ req ∈ runRequests (pass.planTick now selective).2.plan ids,
      req.runId ∉ (pass.planTick now selective).1.cache.pendingRuns := by
    grind [runRequests_minted, FreshIds.notPending]
  have reqs := pendingRunOf_requests _ now out.created _ asset rolledBack
    unused runId
  grind [pendingRuns_clearPredispatchMarks, pendingRunOf, dispatchedCache]

theorem unmarked_eq_self_iff (runs : Option TrackedRuns) : unmarked runs = runs ↔
    runs ≠ some ∅ := by
  cases runs with
  | none => simp [unmarked]
  | some tracked =>
    by_cases placeholder : tracked.keys = ∅
    · have empty : tracked = ∅ := by
        apply Finmap.ext_lookup
        intro runId
        rw [Finmap.lookup_empty, Finmap.lookup_eq_none, ← Finmap.mem_keys, placeholder]
        exact Finset.notMem_empty runId
      simp [unmarked, empty]
    · have used : tracked ≠ ∅ := by
        rintro rfl
        exact placeholder rfl
      simp [unmarked, placeholder, used]

/-- A tick keeps the pass well-formed, whatever its dispatchers report. -/
theorem WellFormed.dispatchTick (wellFormed : pass.WellFormed) (now : Int) (selective : Bool)
    (ids : MintedIds) (outcome : DispatchOutcome) :
    (pass.dispatchTick now selective ids outcome).WellFormed := by
  obtain ⟨distinct, tracked⟩ := wellFormed.planTick now selective
  refine WellFormed.commitTick ?_ _ _ now
  exact ⟨distinct, tracked⟩

/-- A failed dispatch restores the asset exactly when no empty placeholder was there. -/
theorem dispatchTick_failed_restored_iff (pass : ConditionPass) (wellFormed : pass.WellFormed)
    (now : Int) (selective : Bool) (ids : MintedIds) (fresh : pass.FreshIds ids)
    (outcome : DispatchOutcome) (asset : String)
    (failed : asset ∈ dispatchFailed (pass.planTick now selective).2.plan ids outcome) :
    let after := pass.dispatchTick now selective ids outcome
    (after.evalState.assets.lookup asset = pass.evalState.assets.lookup asset ∧
      after.cache.inProgressAssets.lookup asset = pass.cache.inProgressAssets.lookup asset ∧
      ∀ runId, after.cache.pendingRunOf asset runId = pass.cache.pendingRunOf asset runId) ↔
    pass.cache.inProgressAssets.lookup asset ≠ some ∅ := by
  obtain ⟨row, member, -, own, -⟩ := (pass.mem_dispatchedAssetKeys_planTick now selective asset).mp
    (mem_dispatched_of_failed _ ids outcome asset failed)
  have conditioned : asset ∈ pass.active := own ▸ pass.evaluate_active now selective row member
  have state := dispatchTick_failed_state now selective ids outcome asset failed conditioned
  have tracked := dispatchedCache_inProgress wellFormed now selective ids fresh outcome asset failed
  have pending := dispatchedCache_pendingRunOf wellFormed now selective ids fresh outcome
    asset failed
  dsimp only
  rw [dispatchTick_cache, tracked, ← unmarked_eq_self_iff]
  exact ⟨fun restored => restored.2.1, fun same => ⟨state, same, pending⟩⟩

def sampleIds : MintedIds where
  run shape := if shape.isNone then "run" else "group-run"
  backfill asset := asset ++ "-backfill"

theorem dispatchTick_failed_restored_missing :
    "asset" ∈ dispatchFailed (missingPass.planTick 5 false).2.plan sampleIds ⟨∅, {"asset"}⟩ ∧
      missingPass.cache.inProgressAssets.lookup "asset" ≠ some ∅ ∧
      (missingPass.dispatchTick 5 false sampleIds ⟨∅, {"asset"}⟩).cache.inProgressAssets.lookup
        "asset" = missingPass.cache.inProgressAssets.lookup "asset" :=
  have failed : "asset" ∈ dispatchFailed (missingPass.planTick 5 false).2.plan sampleIds
      ⟨∅, {"asset"}⟩ := by decide
  have free : missingPass.cache.inProgressAssets.lookup "asset" ≠ some ∅ := by decide
  ⟨failed, free, ((dispatchTick_failed_restored_iff missingPass
    (new_wellFormed _ _ _ _ _ _ (by decide)) 5 false sampleIds
    ⟨fun _ asset => by
      have untracked : getD missingPass.cache.inProgressAssets asset ∅ = ∅ := rfl
      rw [untracked]
      exact Finmap.notMem_empty,
      fun _ => Finmap.notMem_empty⟩
    ⟨∅, {"asset"}⟩ "asset" failed).mpr free).2.1⟩

/-- A failed backfill takes the placeholder of the one before with it. -/
theorem dispatchTick_failed_drops_placeholder :
    let before := missingPass.dispatchTick 5 false sampleIds ⟨∅, ∅⟩
    "asset" ∈ dispatchFailed (before.planTick 6 false).2.plan sampleIds ⟨∅, {"asset"}⟩ ∧
      before.cache.inProgressAssets.lookup "asset" = some ∅ ∧
      (before.dispatchTick 6 false sampleIds ⟨∅, {"asset"}⟩).cache.inProgressAssets.lookup "asset" =
        none := by
  refine ⟨by decide, by decide, by decide⟩

end ConditionPass

end Rivers

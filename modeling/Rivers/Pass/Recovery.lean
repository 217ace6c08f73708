import Rivers.Condition.StateReads
import Rivers.Pass.Dispatch
import Rivers.Pass.RecoveryCore

/-! A recovered state fires as the committed one does. -/

namespace Rivers

open FiniteMap AssetConditionState PendingDispatchEntry

namespace ConditionPass

def firings (rows : List EvalResultRow) : List (String × Bool × Option PartitionSelection) :=
  rows.map fun row => (row.info.assetKey, row.result.fired, row.result.selection)

def withEvalState (pass : ConditionPass) (evalState : ConditionEvalState) : ConditionPass :=
  { pass with evalState := evalState }

structure FiresAlike (pass : ConditionPass) (now : Int) (left right : ConditionEvalState) :
    Prop where
  initial : left.isInitial = right.isInitial
  scalars : ∀ key, (left.assets.lookup key).map scalarClone =
    (right.assets.lookup key).map scalarClone
  marks : ∀ info ∈ pass.conditions, (pass.partitionContext now info).isSome →
    info.condition.readsMarks = true → ∀ key, key = info.assetKey ∨
    info.condition.hasDepAggregate = true →
    (getD left.assets key {}).handledKeys = (getD right.assets key {}).handledKeys
  reads : ∀ info ∈ pass.conditions, (pass.partitionContext now info).isSome →
    (getD left.assets info.assetKey {}).partitionReads =
        (getD right.assets info.assetKey {}).partitionReads ∨
      info.condition.readsPartitionState = false

variable {pass : ConditionPass} {now : Int} {left right : ConditionEvalState}

theorem FiresAlike.state (alike : FiresAlike pass now left right) (key : String) :
    (getD left.assets key {}).scalarClone = (getD right.assets key {}).scalarClone := by
  have same := alike.scalars key
  cases foundLeft : left.assets.lookup key with
  | none =>
    cases foundRight : right.assets.lookup key with
    | none => simp [getD, foundLeft, foundRight]
    | some state => simp [foundLeft, foundRight] at same
  | some state =>
    cases foundRight : right.assets.lookup key with
    | none => simp [foundLeft, foundRight] at same
    | some other => simpa [getD, foundLeft, foundRight] using same

theorem FiresAlike.states (alike : FiresAlike pass now left right) {marks : Bool}
    (sameMarks : marks = true →
      ∀ key, (getD left.assets key {}).handledKeys = (getD right.assets key {}).handledKeys) :
    mapValues left.assets (handledView marks) = mapValues right.assets (handledView marks) := by
  apply Finmap.ext_lookup
  intro key
  rw [lookup_mapValues, lookup_mapValues]
  have scalars := alike.state key
  have same := alike.scalars key
  have keys : marks = true → _ := fun isMarked => sameMarks isMarked key
  simp only [getD] at scalars keys
  cases foundLeft : left.assets.lookup key with
  | none =>
    cases foundRight : right.assets.lookup key with
    | none => rfl
    | some state => simp [foundLeft, foundRight] at same
  | some state =>
    cases foundRight : right.assets.lookup key with
    | none => simp [foundLeft, foundRight] at same
    | some other =>
      rw [foundLeft, foundRight, Option.getD_some, Option.getD_some] at scalars keys
      rw [Option.map_some, Option.map_some, handledView_congr scalars keys]

theorem FiresAlike.context (alike : FiresAlike pass now left right) (info : AssetConditionInfo)
    {own others : Bool}
    (ownMarks : own = true → (getD left.assets info.assetKey {}).handledKeys =
      (getD right.assets info.assetKey {}).handledKeys)
    (otherMarks : others = true →
      ∀ key, (getD left.assets key {}).handledKeys = (getD right.assets key {}).handledKeys)
    (record : AssetRecord) (asked : HashMap String PartitionSelection) :
    ((pass.withEvalState left).evalContext now info record asked).handledView own others =
      ((pass.withEvalState right).evalContext now info record asked).handledView own others := by
  have states := alike.states otherMarks
  have prev := handledView_congr (alike.state info.assetKey) ownMarks
  have initial : (getD left.assets info.assetKey {}).isInitial =
      (getD right.assets info.assetKey {}).isInitial :=
    congrArg (fun state => state.isInitial) prev
  simp only [evalContext, withEvalState, EvalContext.handledView, states, prev, initial,
    alike.initial]
  rfl

theorem FiresAlike.evaluate (alike : FiresAlike pass now left right) (info : AssetConditionInfo)
    (mem : info ∈ pass.conditions) (record : AssetRecord)
    (asked : HashMap String PartitionSelection) :
    let ctx := fun evalState => (pass.withEvalState evalState).evalContext now info record asked
    (evaluateWithTree info.condition (ctx left)).1.fired =
        (evaluateWithTree info.condition (ctx right)).1.fired ∧
      (evaluateWithTree info.condition (ctx left)).1.selection =
        (evaluateWithTree info.condition (ctx right)).1.selection := by
  intro ctx
  have scalars : (ctx left).handledView false false = (ctx right).handledView false false :=
    alike.context info (fun none => Bool.noConfusion none)
      (fun none => Bool.noConfusion none) record asked
  have parts : ∀ evalState, (ctx evalState).partitions = pass.partitionContext now info :=
    fun _ => rfl
  cases found : pass.partitionContext now info with
  | none =>
    have depLatches : (ctx left).prevState.depPreviousResults =
        (ctx right).prevState.depPreviousResults :=
      congrArg (fun viewed => viewed.prevState.depPreviousResults) scalars
    obtain ⟨sel, -⟩ := eval_sim (boolReads_sim : EvalSim _ _ _ _ (fun _ => ReadsAgree True) _)
      info.condition .root (.inl trivial) scalars true true
      (⟨rfl, fun _ => ⟨depLatches, rfl⟩⟩ : ReadsAgree True
        { counter := 0, sub := ∅, scope := ⟨boolDomain.rootDepPrev (ctx left), ∅, none, ∅⟩ }
        { counter := 0, sub := ∅, scope := ⟨boolDomain.rootDepPrev (ctx right), ∅, none, ∅⟩ })
    simp only [evaluateWithTree, parts, found, Option.isSome_none, Bool.false_eq_true, if_false]
    exact ⟨sel, rfl⟩
  | some pctx =>
    have status : RootStatus (ctx left) := by
      have known : pctx.allPartitionStatuses.lookup info.assetKey ≠ none := by
        simp only [partitionContext, Option.bind_eq_some_iff, Option.map_eq_some_iff] at found
        obtain ⟨partitionInfo, -, entry, entryFound, rfl⟩ := found
        simp [entryFound]
      simp only [RootStatus, PartitionDomain.requirePctx, parts, found, Option.getD_some]
      exact Option.isSome_iff_ne_none.mpr known
    have partitioned : (pass.partitionContext now info).isSome := by
      rw [found]
      rfl
    have readable := alike.reads info mem partitioned
    -- the marks of the asset count if the tree reads any, those of the others if it has an
    -- aggregate too
    let own := info.condition.readsMarks
    let others := own && info.condition.hasDepAggregate
    have view : (ctx left).handledView own others = (ctx right).handledView own others := by
      refine alike.context info (fun reads => ?_) (fun reads key => ?_) record asked
      · exact alike.marks info mem partitioned reads _ (.inl rfl)
      · obtain ⟨readsOwn, aggregates⟩ := Bool.and_eq_true_iff.mp reads
        exact alike.marks info mem partitioned readsOwn key (.inr aggregates)
    have marked : MarksRead own others .root info.condition := by
      refine ⟨?_, ?_⟩
      · exact (Bool.eq_false_or_eq_true own)
      · cases aggregates : info.condition.hasDepAggregate with
        | true => exact .inl (by simp [others, aggregates])
        | false => exact .inr rfl
    have ctxs : ContextsAgree ((ctx left).prevState.partitionReads =
        (ctx right).prevState.partitionReads) own others .root (ctx left) (ctx right) :=
      ⟨view, status, id⟩
    have states : StatesAgree ((ctx left).prevState.partitionReads =
        (ctx right).prevState.partitionReads) .root
        { counter := 0, sub := ∅, scope := ⟨partitionDomain.rootDepPrev (ctx left), ∅, none, ∅⟩ }
        { counter := 0, sub := ∅, scope := ⟨partitionDomain.rootDepPrev (ctx right), ∅, none, ∅⟩
          } := by
      refine ⟨rfl, ?_⟩
      intro reads
      exact ⟨by simp only [rootDepPrev_eq, reads], rfl⟩
    obtain ⟨sel, -⟩ := eval_sim partitionReads_sim info.condition .root ⟨readable,
      marked⟩ ctxs true true
      states
    simp only [evaluateWithTree, parts, found, Option.isSome_some, if_true]
    refine ⟨?_, congrArg some sel⟩
    change PartitionSelection.firesOver _ _ = PartitionSelection.firesOver _ _
    rw [sel, ctxs.partitions]

theorem FiresAlike.loop (alike : FiresAlike pass now left right) (selective : Bool) :
    ∀ (conds : List AssetConditionInfo) (asked : HashMap String PartitionSelection),
      (∀ info ∈ conds, info ∈ pass.conditions) →
      firings ((pass.withEvalState left).evaluateLoop now selective conds asked) =
        firings ((pass.withEvalState right).evaluateLoop now selective conds asked) := by
  intro conds
  induction conds with
  | nil => intro asked _; rfl
  | cons info rest ih =>
    intro asked known
    have inRest := fun other mem => known other (List.mem_cons_of_mem info mem)
    have leftOut : (pass.withEvalState left).isLeftOut selective info.assetKey =
        (pass.withEvalState right).isLeftOut selective info.assetKey := rfl
    have recorded : (pass.withEvalState left).cache.records.lookup info.assetKey =
        (pass.withEvalState right).cache.records.lookup info.assetKey := rfl
    simp only [evaluateLoop, leftOut, recorded]
    split
    · exact ih asked inRest
    · split
      · exact ih asked inRest
      grind [evaluate, firings]

theorem FiresAlike.firings_eq (alike : FiresAlike pass now left right) (selective : Bool) :
    firings ((pass.withEvalState left).evaluate now selective) =
      firings ((pass.withEvalState right).evaluate now selective) :=
  alike.loop selective pass.conditions ∅ fun _ mem => mem

end ConditionPass

def recoverSlot (stored : StoredDispatch) (tickTimestamp : Int) (entry : PendingDispatchEntry)
    (slot : Option AssetConditionState) : Option AssetConditionState :=
  if ∃ lastTick ∈ slot.bind (·.lastTickTimestamp), tickTimestamp ≤ lastTick then slot
  else if stored.shows tickTimestamp entry then some (entry.splice (slot.getD {}))
  else slot

theorem lookup_recoverEntry (stored : StoredDispatch) (tickTimestamp : Int)
    (assets : HashMap String AssetConditionState) (entry : PendingDispatchEntry) (key : String) :
    (recoverEntry stored tickTimestamp assets entry).lookup key =
      if key = entry.assetKey then recoverSlot stored tickTimestamp entry (assets.lookup key)
      else assets.lookup key := by
  have stale : entry.isStale tickTimestamp assets = true ↔
      ∃ lastTick ∈ (assets.lookup entry.assetKey).bind (·.lastTickTimestamp),
        tickTimestamp ≤ lastTick := by
    unfold isStale
    cases (assets.lookup entry.assetKey).bind (·.lastTickTimestamp) <;> simp
  unfold recoverEntry recoverSlot
  by_cases own : key = entry.assetKey
  · subst own
    by_cases old : entry.isStale tickTimestamp assets = true
    · rw [if_pos old, if_pos rfl, if_pos (stale.mp old)]
    · grind [lookup_insert_ite, getD]
  · grind [lookup_insert_ite]

theorem lookup_recoverEntries_other (stored : StoredDispatch) (tickTimestamp : Int) (key : String) :
    ∀ (ents : List PendingDispatchEntry) (assets : HashMap String AssetConditionState),
      (∀ entry ∈ ents, entry.assetKey = key → stored.shows tickTimestamp entry = false) →
      (ents.foldl (recoverEntry stored tickTimestamp) assets).lookup key = assets.lookup key := by
  intro ents
  induction ents with
  | nil => intro assets _; rfl
  | cons entry rest ih => grind [lookup_recoverEntry, recoverEntry]

theorem lookup_recoverEntries_own (stored : StoredDispatch) (tickTimestamp : Int)
    (entry : PendingDispatchEntry) :
    ∀ (ents : List PendingDispatchEntry) (assets : HashMap String AssetConditionState),
      entry ∈ ents → (ents.map (·.assetKey)).Nodup →
      (ents.foldl (recoverEntry stored tickTimestamp) assets).lookup entry.assetKey =
        recoverSlot stored tickTimestamp entry (assets.lookup entry.assetKey) := by
  intro ents
  have untouched : ∀ (rest : List PendingDispatchEntry) (assets : HashMap String
      AssetConditionState), entry.assetKey ∉ rest.map (·.assetKey) →
      (rest.foldl (recoverEntry stored tickTimestamp) assets).lookup entry.assetKey =
        assets.lookup entry.assetKey := by grind [lookup_recoverEntries_other]
  induction ents with
  | nil => intro assets mem; cases mem
  | cons head rest ih =>
    intro assets mem dist
    rw [List.map_cons, List.nodup_cons] at dist
    grind [lookup_recoverEntry]

theorem splice_splice (entry : PendingDispatchEntry) (slot : AssetConditionState) :
    entry.splice (entry.splice slot) = entry.splice slot := by grind [splice]

theorem recoverSlot_idem (stored : StoredDispatch) (tickTimestamp : Int)
    (entry : PendingDispatchEntry) (slot : Option AssetConditionState) :
    recoverSlot stored tickTimestamp entry (recoverSlot stored tickTimestamp entry slot) =
      recoverSlot stored tickTimestamp entry slot := by
  by_cases stale : ∃ lastTick ∈ slot.bind (·.lastTickTimestamp), tickTimestamp ≤ lastTick
  · grind [recoverSlot]
  · by_cases shown : stored.shows tickTimestamp entry = true
    · have spliced : recoverSlot stored tickTimestamp entry slot =
          some (entry.splice (slot.getD {})) := by
        rw [recoverSlot, if_neg stale, if_pos shown]
      rw [spliced, recoverSlot]
      split
      · rfl
      · rw [Option.getD_some, splice_splice]
    · grind [recoverSlot]

theorem recoverPendingDispatch_idem (evalState : ConditionEvalState) (pending : PendingDispatch)
    (stored : StoredDispatch) (dist : (pending.entries.map (·.assetKey)).Nodup) :
    recoverPendingDispatch (recoverPendingDispatch evalState pending stored) pending stored =
      recoverPendingDispatch evalState pending stored := by
  unfold recoverPendingDispatch
  split
  · rfl
  · have again : pending.entries.foldl (recoverEntry stored pending.tickTimestamp)
        (pending.entries.foldl (recoverEntry stored pending.tickTimestamp) evalState.assets) =
        pending.entries.foldl (recoverEntry stored pending.tickTimestamp) evalState.assets := by
      apply Finmap.ext_lookup
      intro key
      by_cases named : ∃ entry ∈ pending.entries, entry.assetKey = key
      · grind [lookup_recoverEntries_own, recoverSlot_idem]
      · grind [lookup_recoverEntries_other]
    simp only [again]

theorem splice_scalarClone (entry : PendingDispatchEntry) (slot : AssetConditionState) :
    (entry.splice slot).scalarClone = entry.committed.scalarClone := rfl

theorem splice_handledKeys (entry : PendingDispatchEntry) (slot : AssetConditionState) :
    (entry.splice slot).handledKeys = slot.handledKeys ∪ entry.dispatchedKeys := by
  unfold splice AssetConditionState.handledKeys
  by_cases empty : entry.dispatchedKeys = ∅
  · simp [empty]
  · cases found : slot.partitionState <;> simp [empty]

def committedFor (persisted committed : ConditionEvalState) (intent : PendingDispatch) :
    ConditionEvalState :=
  { persisted with
    isInitial := false
    assets := collect (persisted.assets.keys ∪ (intent.entries.map (·.assetKey)).toFinset)
      fun key =>
      if key ∈ intent.entries.map (·.assetKey) then committed.assets.lookup key
      else persisted.assets.lookup key }

theorem lookup_committedFor (kept committed : ConditionEvalState) (intent : PendingDispatch)
    (key : String) :
    (committedFor kept committed intent).assets.lookup key =
      if key ∈ intent.entries.map (·.assetKey) then committed.assets.lookup key
      else kept.assets.lookup key := by
  simp only [committedFor, lookup_collect]
  split
  · rfl
  · grind [List.mem_toFinset, Finmap.lookup_eq_none, Finmap.mem_keys]

structure StoredDispatch.Complete (stored : StoredDispatch) (plan : MaterializationPlan)
    (ids : MintedIds) : Prop where
  runs : ∀ request ∈ ConditionPass.runRequests plan ids, request.runId ∈ stored.runIds
  backfills : ∀ mat ∈ plan.multiPartitionBackfills,
    ∃ backfill ∈ stored.backfills, backfill.backfillId = ids.backfill mat.1

theorem StoredDispatch.shows_of_run (stored : StoredDispatch) (tick : Int)
    (entry : PendingDispatchEntry) (runId : String) (minted : runId ∈ entry.runIds)
    (found : runId ∈ stored.runIds) : stored.shows tick
    entry = true := by grind [shows]

theorem StoredDispatch.shows_of_backfill (stored : StoredDispatch) (tick : Int)
    (entry : PendingDispatchEntry) (backfillId : String) (noRun : entry.runIds = [])
    (minted : backfillId ∈ entry.backfillIds)
    (found : ∃ backfill ∈ stored.backfills, backfill.backfillId = backfillId) :
    stored.shows tick entry = true := by grind [shows]

namespace ConditionPass

def tickIntent (pass : ConditionPass) (now : Int) (selective : Bool) (ids : MintedIds) :
    PendingDispatch :=
  (pass.planTick now selective).1.pendingDispatch (pass.planTick now selective).2 ids now

def tickCommitted (pass : ConditionPass) (now : Int) (selective : Bool) : ConditionEvalState :=
  ((pass.planTick now selective).1.commitTick (pass.planTick now selective).2 ∅ now).1.evalState

variable {pass : ConditionPass} {now : Int} {selective : Bool} {ids : MintedIds}

theorem mem_tickIntent (wellFormed : pass.WellFormed) (entry : PendingDispatchEntry)
    (mem : entry ∈ (pass.tickIntent now selective ids).entries) :
    entry.assetKey ∈ (pass.planTick now selective).2.plan.dispatchedAssetKeys ∧
      ∃ stored, (pass.tickCommitted now selective).assets.lookup entry.assetKey = some stored ∧
        entry.committed = stored.scalarClone ∧ entry.dispatchedKeys = stored.handledKeys := by
  obtain ⟨⟨asset, state, keys⟩, pending, rfl⟩ := List.mem_map.mp mem
  have dispatched := dispatched_of_mem_pending _ _ asset state keys pending
  obtain ⟨stored, committed, own⟩ := exists_committed_pending wellFormed asset dispatched
  grind [pendingDispatchStates_functional, planTick_rowsOf, tickCommitted]

theorem tickIntent_distinct (wellFormed : pass.WellFormed) :
    ((pass.tickIntent now selective ids).entries.map (·.assetKey)).Nodup := by
  have sub : ∀ rows : List EvalResultRow,
      ((rows.filterMap ((pass.planTick now selective).1.pendingDispatchState now
        (pass.planTick now selective).2.plan)).map (·.1)).Sublist (rows.map (·.info.assetKey)) := by
    intro rows
    induction rows with
    | nil => exact List.Sublist.slnil
    | cons row rest ih =>
      cases found : (pass.planTick now selective).1.pendingDispatchState now
          (pass.planTick now selective).2.plan row with
      | none =>
        rw [List.filterMap_cons_none found, List.map_cons]
        exact ih.cons _
      | some entry =>
        obtain ⟨asset, state, keys⟩ := entry
        rw [List.filterMap_cons_some found, List.map_cons, List.map_cons,
          (pendingDispatchState_key _ _ row asset state keys found).1]
        exact ih.cons_cons _
  have names : (pass.tickIntent now selective ids).entries.map (·.assetKey) =
      ((pass.planTick now selective).1.pendingDispatchStates (pass.planTick now selective).2
        now).map
        (·.1) := by
    simp only [tickIntent, pendingDispatch, List.map_map]
    rfl
  rw [names]
  exact (planTick_rowsOf wellFormed).distinct.sublist (sub _)

theorem shows_of_complete (entry : PendingDispatchEntry) (stored : StoredDispatch)
    (compl : stored.Complete (pass.planTick now selective).2.plan ids)
    (mem : entry ∈ (pass.tickIntent now selective ids).entries) :
    stored.shows now entry = true := by
  obtain ⟨⟨asset, state, keys⟩, pending, rfl⟩ := List.mem_map.mp mem
  have dispatched := dispatched_of_mem_pending _ _ asset state keys pending
  rw [MaterializationPlan.dispatchedAssetKeys, List.mem_append, ← runRequests_assets _ ids] at dispatched
  set requests := (runRequests (pass.planTick now selective).2.plan ids).filter fun req =>
    req.assetSelection.contains asset with requestsEq
  by_cases noRun : requests = []
  · have backfilled : asset ∈ (pass.planTick now selective).2.plan.multiPartitionBackfills.map
      (·.1) := by
      refine dispatched.resolve_left ?_
      intro inRuns
      obtain ⟨req, found, named⟩ := List.mem_flatMap.mp inRuns
      have kept : req ∈ requests := List.mem_filter.mpr ⟨found, List.contains_iff_mem.mpr named⟩
      exact List.not_mem_nil (noRun ▸ kept)
    obtain ⟨mat, inPlan, rfl⟩ := List.mem_map.mp backfilled
    have named : ids.backfill mat.1 ∈
        if ((pass.planTick now selective).2.plan.multiPartitionBackfills.map (·.1)).contains
          mat.1 then
          [ids.backfill mat.1] else [] := by
      rw [if_pos (List.contains_iff_mem.mpr backfilled)]
      exact List.mem_singleton_self _
    exact stored.shows_of_backfill now _ (ids.backfill mat.1) (List.map_eq_nil_iff.mpr noRun) named
      (compl.backfills mat inPlan)
  · obtain ⟨req, found⟩ := List.exists_mem_of_ne_nil _ noRun
    exact stored.shows_of_run now _ req.runId (List.mem_map.mpr ⟨req, found, rfl⟩)
      (compl.runs req (List.mem_of_mem_filter found))

structure Recoverable (pass next : ConditionPass) (now later : Int) (selective : Bool)
    (ids : MintedIds) (persisted : ConditionEvalState) : Prop where
  older : ∀ entry ∈ (pass.tickIntent now selective ids).entries,
    ∀ state ∈ persisted.assets.lookup entry.assetKey, ∀ lastTick ∈ state.lastTickTimestamp,
      lastTick < now
  handled : ∀ info ∈ next.conditions, (next.partitionContext later info).isSome →
    info.condition.readsMarks = true → ∀ entry ∈ (pass.tickIntent now selective ids).entries,
    entry.assetKey = info.assetKey ∨ info.condition.hasDepAggregate = true →
    (getD persisted.assets entry.assetKey {}).handledKeys ⊆ entry.dispatchedKeys
  reads : ∀ info ∈ next.conditions, (next.partitionContext later info).isSome →
    info.assetKey ∈ (pass.tickIntent now selective ids).entries.map (·.assetKey) →
    info.condition.readsPartitionState = false ∨
      (getD persisted.assets info.assetKey {}).partitionReads =
        (getD (pass.tickCommitted now selective).assets info.assetKey {}).partitionReads

theorem lookup_recovered (wellFormed : pass.WellFormed) (kept : ConditionEvalState)
    (stored : StoredDispatch) (compl : stored.Complete (pass.planTick now selective).2.plan ids)
    (older : ∀ entry ∈ (pass.tickIntent now selective ids).entries,
      ∀ state ∈ kept.assets.lookup entry.assetKey, ∀ lastTick ∈ state.lastTickTimestamp,
        lastTick < now) (entry : PendingDispatchEntry)
          (mem : entry ∈ (pass.tickIntent now selective ids).entries) :
    (recoverPendingDispatch kept (pass.tickIntent now selective ids) stored).assets.lookup
        entry.assetKey = some (entry.splice (getD kept.assets entry.assetKey {})) := by
  have fresh : ¬ ∃ lastTick ∈ (kept.assets.lookup entry.assetKey).bind (·.lastTickTimestamp),
      now ≤ lastTick := by grind
  have own := lookup_recoverEntries_own stored now entry _ kept.assets mem
    (tickIntent_distinct wellFormed)
  rw [recoverSlot, if_neg fresh, if_pos (shows_of_complete entry stored compl mem)] at own
  rw [recoverPendingDispatch, if_neg (List.ne_nil_of_mem mem)]
  exact own

theorem lookup_recovered_other (kept : ConditionEvalState) (intent : PendingDispatch)
    (stored : StoredDispatch) (key : String)
    (unseen : ∀ entry ∈ intent.entries, entry.assetKey = key →
      stored.shows intent.tickTimestamp entry = false) :
    (recoverPendingDispatch kept intent stored).assets.lookup key =
      kept.assets.lookup key := by
  unfold recoverPendingDispatch
  split
  · rfl
  · exact lookup_recoverEntries_other stored _ key _ _ unseen

theorem Recoverable.firesAlike {next later kept} (wellFormed : pass.WellFormed)
    (recoverable : Recoverable pass next now later selective ids kept) (stored : StoredDispatch)
    (compl : stored.Complete (pass.planTick now selective).2.plan ids)
    (written : (pass.tickIntent now selective ids).entries ≠ []) :
    FiresAlike next later
      (recoverPendingDispatch kept (pass.tickIntent now selective ids) stored)
      (committedFor kept (pass.tickCommitted now selective)
        (pass.tickIntent now selective ids)) := by
  set intent := pass.tickIntent now selective ids
  have own : ∀ entry ∈ intent.entries,
      (recoverPendingDispatch kept intent stored).assets.lookup entry.assetKey =
        some (entry.splice (getD kept.assets entry.assetKey {})) :=
    lookup_recovered wellFormed kept stored compl recoverable.older
  have other : ∀ key, key ∉ intent.entries.map (·.assetKey) →
      (recoverPendingDispatch kept intent stored).assets.lookup key =
        kept.assets.lookup key := by grind [lookup_recovered_other]
  refine ⟨?_, fun key => ?_, fun info mem parted reads key concerned => ?_,
    fun info mem parted => ?_⟩
  · rw [recoverPendingDispatch, if_neg written]
    rfl
  · rw [lookup_committedFor]
    split
    · rename_i named
      obtain ⟨entry, mem, rfl⟩ := List.mem_map.mp named
      obtain ⟨-, committed, found, scalars, -⟩ := mem_tickIntent wellFormed entry mem
      rw [own entry mem, found, Option.map_some, Option.map_some, splice_scalarClone, scalars]
      rfl
    · rename_i absent
      rw [other key absent]
  · simp only [getD, lookup_committedFor]
    split
    · rename_i named
      obtain ⟨entry, inIntent, rfl⟩ := List.mem_map.mp named
      obtain ⟨-, committed, found, -, marks⟩ := mem_tickIntent wellFormed entry inIntent
      have covered := recoverable.handled info mem parted reads entry inIntent concerned
      rw [own entry inIntent, found, Option.getD_some, Option.getD_some, splice_handledKeys,
        Finset.union_eq_right.mpr covered, marks]
    · rename_i absent
      rw [other key absent]
  · by_cases named : info.assetKey ∈ intent.entries.map (·.assetKey)
    · refine (recoverable.reads info mem parted named).symm.imp_left ?_
      grind [lookup_committedFor, partitionReads, getD, splice]
    · refine .inl ?_
      simp only [getD, other _ named, lookup_committedFor, if_neg named]

def newlyMissingPass : ConditionPass :=
  new missingPass.cache {}
    [{ assetKey := "asset", condition := .newlyTrue (.leaf .missing),
       partitionInfo := some ⟨{.single ["k"], .single ["l"]}, ∅⟩ }]
    ∅ (fun _ _ _ _ => none) (fun _ _ _ _ => false)

def sinceHandledPass : ConditionPass :=
  new missingPass.cache
    { assets := (∅ : HashMap String AssetConditionState).insert "asset"
        { lastHandledTimestamp := some 4, lastTickTimestamp := some 4
          partitionState := some { handled := {.single ["l"]} } } }
    [{ assetKey := "asset", condition := .sinceLastHandled (.leaf .missing),
       partitionInfo := some ⟨{.single ["k"], .single ["l"]}, ∅⟩ }]
    ∅ (fun _ _ _ _ => none) (fun _ _ _ _ => false)

end ConditionPass

end Rivers

import Rivers.Operator.WorkspaceCore

/-! No prune or removal takes a tree that is in use. -/

namespace Rivers

open Transitions WorkspaceSystem RolloutSystem

/-! ### Prune -/

theorem mem_prune {floors own keep now trees tree} (isTree : tree ∈ trees)
    (aged : 0 < floors.minAge)
    (spared : tree.key = own ∨ tree.key ∈ keep ∨ now - tree.modified < floors.minAge) :
    tree ∈ prune floors own keep now trees := by
  have isSorted : tree ∈ StableSort.sortBy newestFirst trees :=
    (StableSort.perm_sortBy trees).mem_iff.mpr isTree
  obtain ⟨index, isIndex⟩ := List.mem_iff_getElem?.mp isSorted
  refine List.mem_map.mpr ⟨(tree, 1 + index), List.mem_filter.mpr ⟨?_, ?_⟩, rfl⟩
  · exact List.mk_add_mem_zipIdx_iff_getElem?.mpr isIndex
  · grind [Floors.removes]

theorem mem_of_mem_prune {floors own keep now trees tree}
    (isLeft : tree ∈ prune floors own keep now trees) : tree ∈ trees := by
  grind [StableSort.perm_sortBy, prune]

/-! ### What comes into use -/

namespace RolloutSystem

variable {state next : RolloutSystem} {action : RolloutAction}

theorem target_deploy (state : RolloutSystem) (spec : CodeLocationSpec) (image : String)
    (resolved : Option ResolvedRef) :
    (state.deploy spec image resolved).target = (buildTemplate spec image resolved).source := by
  simp only [deploy, target, Option.bind_some, applyDeployment]
  split
  · rfl
  · split
    · rename_i same
      rw [same.1]
    · rfl

theorem served_startPass (replica : String) (seen : CodeLocationVersion) (plan : PassPlan) :
    (state.startPass replica seen plan).served = state.served ∧
      (state.startPass replica seen plan).target = state.target := by
  cases plan <;> exact ⟨rfl, rfl⟩

theorem served_observePass {replica found workspaceKept}
    (stepped : state.observePass replica found workspaceKept = some next) :
    next.served = state.served ∧ next.target = state.target := by
  unfold observePass at stepped
  split at stepped
  · cases stepped
    exact ⟨rfl, rfl⟩
  · cases stepped

theorem uses_step (stepped : state.step action = some next) :
    (next.served = state.served ∨ next.served = state.publishes action) ∧
      (next.target = state.target ∨ ∃ template, state.deploys action = some template ∧
        next.target = template.source) := by
  cases action with
  | changeSpec spec =>
    cases stepped
    simp only [changeSpec]
    split <;> exact ⟨.inl rfl, .inl rfl⟩
  | report status =>
    simp only [step, report] at stepped
    split at stepped
    · cases stepped
    · grind [served, target]
  | start replica back isLeader image source => grind [served_startPass, step]
  | apply replica answer =>
    simp only [step, applyPass] at stepped
    split at stepped
    · rename_i seen image imageReason resolved isStage
      cases stepped
      cases deployed : answer.deployed with
      | true =>
        refine ⟨.inl rfl, .inr ⟨buildTemplate seen.object.spec image resolved, ?_, ?_⟩⟩
        · simp [deploys, isStage, deployed]
        · exact target_deploy state seen.object.spec image resolved
      | false => exact ⟨.inl rfl, .inl rfl⟩
    · cases stepped
  | observe replica found workspaceKept => grind [served_observePass, step]
  | patch replica written =>
    simp only [step, patchPass] at stepped
    split at stepped
    · grind [served, publishes, target, setStage, write]
    · cases stepped
  | abandon replica =>
    cases stepped
    exact ⟨.inl rfl, .inl rfl⟩
  | admitRun req selfStamped back =>
    grind [admitRun, served, target, step]

end RolloutSystem

def Sync.Spares (sync : Sync) (trees : List Tree) (key : String) : Prop :=
  key = sync.own ∨ key ∈ sync.keep ∨ ∀ tree ∈ trees, tree.key = key → sync.startedAt ≤ tree.modified

instance (sync : Sync) (trees : List Tree) (key : String) : Decidable (sync.Spares trees key) :=
  inferInstanceAs (Decidable (key = sync.own ∨ key ∈ sync.keep ∨
    ∀ tree ∈ trees, tree.key = key → sync.startedAt ≤ tree.modified))

def Removal.IsDone (removal : Removal) : Prop :=
  removal.keep = none ∧ removal.claim = none

instance (removal : Removal) : Decidable removal.IsDone :=
  inferInstanceAs (Decidable (_ ∧ _))

namespace WorkspaceSystem

section

variable (key : RunSource → String) (state : WorkspaceSystem)

def live : List RunSource :=
  (state.runs.filter (!·.terminal)).filterMap (·.source)

def named : List RunSource :=
  state.rollout.served.toList ++ state.live

def inUse : List RunSource :=
  state.rollout.target.toList ++ state.named

def KeepsTrees (before after : WorkspaceSystem) : Prop :=
  ∀ tree ∈ before.trees, (∃ source ∈ before.inUse, key source = tree.key) →
    ∃ left ∈ after.trees, left.key = tree.key

instance (before after : WorkspaceSystem) : Decidable (KeepsTrees key before after) :=
  inferInstanceAs (Decidable (∀ tree ∈ before.trees,
    (∃ source ∈ before.inUse, key source = tree.key) →
    ∃ left ∈ after.trees, left.key = tree.key))

def Clear (source : RunSource) : Prop :=
  (∀ sync ∈ state.syncs, sync.Spares state.trees (key source)) ∧ ∀ removal ∈ state.removals,
  removal.IsDone

instance (source : RunSource) : Decidable (state.Clear key source) :=
  inferInstanceAs (Decidable (_ ∧ _))

def MayName (source : RunSource) : Prop :=
  key source ∈ state.keepSet ∧ state.Clear key source

instance (source : RunSource) : Decidable (state.MayName key source) :=
  inferInstanceAs (Decidable (_ ∧ _))

def seenBy (replica : String) : Option CodeLocationVersion :=
  match state.rollout.stages replica with
  | .applying seen _ _ _ | .observing seen _ | .patching seen _ _ => some seen
  | .idle => none

def SeesUse (replica : String) (back : Nat) : Prop :=
  (∀ seen ∈ state.seenBy replica, seen.object.status.bind (·.runSource) = state.rollout.served) ∧
    ∀ runs ∈ state.runsAt back, ∀ run ∈ state.runs, run.terminal = false → run ∈ runs

instance (replica : String) (back : Nat) : Decidable (state.SeesUse replica back) :=
  inferInstanceAs (Decidable (_ ∧ _))

def Timely : WorkspaceAction → Prop
  | .rollout action =>
      (∀ template ∈ state.rollout.deploys action, ∀ source ∈ template.source,
        state.Clear key source) ∧
        (∀ source ∈ state.rollout.publishes action, state.MayName key source) ∧
        ∀ created ∈ state.rollout.admits action, ∀ source ∈ created, state.MayName key source
  | .prepare replica synced back => synced = true → state.SeesUse replica back
  | .observeImage replica _ _ back =>
      state.SeesUse replica back ∧ state.rollout.target = none ∧
      (state.keepMap.isSome → state.volume.isSome)
  | .startSync _ replicaSet =>
      ∀ own ∈ (state.replicaSets[replicaSet]?).bind (·.source), ∀ source ∈ state.rollout.target,
        key source = key own ∨ key source ∈ state.keepSet
  | .endSync pod _ _ =>
      ∀ sync ∈ state.syncs, sync.pod = pod → state.clock - sync.startedAt < ({} : Floors).minAge
  | _ => True

instance (action : WorkspaceAction) : Decidable (state.Timely key action) :=
  match action with
  | .rollout action => inferInstanceAs (Decidable
      ((∀ template ∈ state.rollout.deploys action, ∀ source ∈ template.source,
        state.Clear key source) ∧
        (∀ source ∈ state.rollout.publishes action, state.MayName key source) ∧
        ∀ created ∈ state.rollout.admits action, ∀ source ∈ created, state.MayName key source))
  | .prepare replica synced back =>
      inferInstanceAs (Decidable (synced = true → state.SeesUse replica back))
  | .observeImage replica _ _ back => inferInstanceAs (Decidable
      (state.SeesUse replica back ∧ state.rollout.target = none ∧
        (state.keepMap.isSome → state.volume.isSome)))
  | .startSync _ replicaSet => inferInstanceAs (Decidable
      (∀ own ∈ (state.replicaSets[replicaSet]?).bind (·.source), ∀ source ∈ state.rollout.target,
        key source = key own ∨ key source ∈ state.keepSet))
  | .endSync pod _ _ => inferInstanceAs (Decidable
      (∀ sync ∈ state.syncs, sync.pod = pod → state.clock - sync.startedAt < ({} : Floors).minAge))
  | .deleteKeep _ | .deleteClaim _ | .failSync _ | .endRun _ | .deleteRun _ | .wait _ =>
      .isTrue trivial

structure Guarded : Prop where
  covers : ∀ source ∈ state.named, key source ∈ state.keepSet
  started : ∀ sync ∈ state.syncs, sync.startedAt ≤ state.clock
  spares : ∀ sync ∈ state.syncs, ∀ source ∈ state.inUse, sync.Spares state.trees (key source)
  removals : ∀ removal ∈ state.removals, removal.IsDone ∨ state.inUse = []

end

theorem mem_inUse {state : WorkspaceSystem} {source} :
    source ∈ state.inUse ↔ state.rollout.target = some source ∨ source ∈ state.named := by
  simp [inUse, eq_comm]

theorem mem_named {state : WorkspaceSystem} {source} :
    source ∈ state.named ↔ state.rollout.served = some source ∨ source ∈ state.live := by
  simp [named, eq_comm]

theorem mem_live {state : WorkspaceSystem} {source} :
    source ∈ state.live ↔ ∃ run ∈ state.runs, run.terminal = false ∧ run.source = some source := by
  simp [live, and_assoc]

def NotOlder (trees : List Tree) (clock : Int) (later : List Tree) : Prop :=
  ∀ tree ∈ later, (∃ old ∈ trees, old.key = tree.key ∧ old.modified ≤ tree.modified) ∨
    clock ≤ tree.modified

theorem NotOlder.of_subset {trees later clock} (subset : later ⊆ trees) :
    NotOlder trees clock later :=
  fun tree isTree => .inl ⟨tree, subset isTree, rfl, le_rfl⟩

theorem spares_later {sync : Sync} {trees later clock key} (started : sync.startedAt ≤ clock)
    (notOlder : NotOlder trees clock later) (spares : sync.Spares trees key) :
    sync.Spares later key := by grind [Sync.Spares, NotOlder]

section

variable {key : RunSource → String} {state next : WorkspaceSystem}

/-- A step that brings no tree into use, and neither rewrites the keep-set nor starts a sync nor
decides on a removal. -/
structure Quiet (state next : WorkspaceSystem) : Prop where
  named : next.named ⊆ state.named
  target : next.rollout.target = state.rollout.target
  keepSet : next.keepSet = state.keepSet
  syncs : next.syncs ⊆ state.syncs
  clock : state.clock ≤ next.clock
  trees : NotOlder state.trees state.clock next.trees
  removals : next.removals ⊆ state.removals

theorem Quiet.inUse (quiet : Quiet state next) : next.inUse ⊆ state.inUse := by
  intro source isUsed
  rw [mem_inUse] at isUsed ⊢
  exact isUsed.imp (quiet.target ▸ ·) (quiet.named ·)

theorem Guarded.quiet (guarded : state.Guarded key) (quiet : Quiet state next) :
    next.Guarded key where
  covers source isNamed := quiet.keepSet ▸ guarded.covers source (quiet.named isNamed)
  started sync isSync := (guarded.started sync (quiet.syncs isSync)).trans quiet.clock
  spares sync isSync source isUsed :=
    spares_later (guarded.started sync (quiet.syncs isSync)) quiet.trees
      (guarded.spares sync (quiet.syncs isSync) source (quiet.inUse isUsed))
  removals removal isRemoval :=
    (guarded.removals removal (quiet.removals isRemoval)).imp_right
      fun (unused : state.inUse = []) =>
      List.subset_nil.mp (unused ▸ quiet.inUse)

theorem keepsTrees_of_subset (subset : ∀ tree ∈ state.trees, ∃ left ∈ next.trees,
    left.key = tree.key) :
    KeepsTrees key state next :=
  fun tree isTree _ => subset tree isTree

theorem keepsTrees_of_eq (same : next.trees = state.trees) : KeepsTrees key state next :=
  keepsTrees_of_subset fun tree isTree => ⟨tree, same ▸ isTree, rfl⟩

/-! ### Steps of the rollout -/

theorem rolloutStep_spec {action : RolloutAction} (stepped : state.rolloutStep action = some next) :
    ∃ rollout, state.rollout.step action = some rollout ∧ next.rollout = rollout ∧
      (∀ source ∈ next.live, source ∈ state.live ∨ state.rollout.admits action =
        some (some source)) ∧
      next.keepMap = state.keepMap ∧ next.volume = state.volume ∧ next.syncs = state.syncs ∧
      next.clock = state.clock ∧ next.removals ⊆ state.removals := by
  unfold rolloutStep at stepped
  split at stepped
  · obtain ⟨rollout, moved, rfl⟩ := Option.map_eq_some_iff.mp stepped
    cases created : state.rollout.admits action with
    | none =>
      exact ⟨rollout, moved, rfl, fun _ => .inl, rfl, rfl, rfl, rfl, List.filter_subset_self _⟩
    | some admitted =>
      refine ⟨rollout, moved, rfl, ?_, rfl, rfl, rfl, rfl, List.filter_subset_self _⟩
      intro source isLive
      simp only [mem_live, addRun, setRuns, List.mem_append, List.mem_singleton] at isLive
      grind [mem_live]
  · cases stepped

theorem Guarded.rollout (guarded : state.Guarded key) {action : RolloutAction}
    (timely : state.Timely key (.rollout action)) (stepped : state.rolloutStep action = some next) :
    next.Guarded key := by
  obtain ⟨rollout, moved, isRollout, live, keepMap, volume, syncs, clock, removals⟩ :=
    rolloutStep_spec stepped
  obtain ⟨served, target⟩ := uses_step moved
  obtain ⟨deploys, publishes, admits⟩ := timely
  have trees : next.trees = state.trees := by simp only [trees, volume]
  have keepSet : next.keepSet = state.keepSet := by simp only [keepSet, keepMap]
  have isNamed (source : RunSource) (isNext : source ∈ next.named) :
      source ∈ state.named ∨ state.MayName key source := by
    rw [mem_named, isRollout] at isNext
    obtain isServed | isLive := isNext
    · grind [mem_named]
    · obtain wasLive | created := live source isLive
      · exact .inl (mem_named.mpr (.inr wasLive))
      · exact .inr (admits _ created source rfl)
  have isUsed (source : RunSource) (isNext : source ∈ next.inUse) : source ∈ state.inUse ∨
    state.Clear key source := by
    grind [inUse, MayName]
  refine ⟨?_, ?_, ?_, ?_⟩
  · grind [MayName, Guarded]
  · rw [syncs, clock]
    exact guarded.started
  · grind [Clear, Guarded]
  · intro removal isRemoval
    obtain done | unused := guarded.removals removal (removals isRemoval)
    · exact .inl done
    · by_cases done : removal.IsDone
      · exact .inl done
      · refine .inr (List.eq_nil_iff_forall_not_mem.mpr fun source isNext => ?_)
        grind [Clear]

/-! ### Steps of the operator's passes -/

theorem mem_workspaceKeep {target source serving runs}
    (isKept : serving = some source ∨ ∃ run ∈ runs, run.terminal = false ∧
      run.source = some source) :
    key source ∈ workspaceKeep key target serving runs := by
  simp only [workspaceKeep, Finset.mem_insert, Finset.mem_union, List.mem_toFinset,
    Option.mem_toFinset]
  obtain rfl | ⟨run, isRun, unfin, isSource⟩ := isKept
  · exact .inr (.inl rfl)
  · grind

theorem prepare_spec {replica synced runs}
    (stepped : state.prepare key replica synced runs = some next) :
    ∃ seen target, state.seenBy replica = some seen ∧ next.rollout = state.rollout ∧
      next.runs = state.runs ∧
      next.keepSet = (if synced then
        workspaceKeep key target (seen.object.status.bind (·.runSource)) runs else state.keepSet) ∧
      next.trees = state.trees ∧ next.syncs = state.syncs ∧ next.clock = state.clock ∧
      next.removals = state.removals := by
  unfold prepare at stepped
  split at stepped
  · rename_i seen image imageReason resolved isStage
    obtain ⟨target, -, rfl⟩ := Option.map_eq_some_iff.mp stepped
    have isSeen : state.seenBy replica = some seen := by simp only [seenBy, isStage]
    refine ⟨seen, target, isSeen, ?_⟩
    grind [keepSet, trees]
  · cases stepped

theorem Guarded.prepare (guarded : state.Guarded key) {replica synced back runs}
    (isView : state.runsAt back = some runs)
    (timely : state.Timely key (.prepare replica synced back))
    (stepped : state.prepare key replica synced runs = some next) : next.Guarded key := by
  obtain ⟨seen, target, isSeen, rollout, sameRuns, keepSet, trees, syncs, clock, removals⟩ :=
    prepare_spec stepped
  have named : next.named = state.named := by simp only [named, live, rollout, sameRuns]
  have inUse : next.inUse = state.inUse := by simp only [inUse, named, rollout]
  refine ⟨?_, ?_, ?_, ?_⟩
  · intro source isNamed
    rw [keepSet]
    rw [named] at isNamed
    split
    · grind [mem_workspaceKeep, SeesUse, live, named, Timely]
    · exact guarded.covers source isNamed
  · rw [syncs, clock]
    exact guarded.started
  · rw [syncs, trees, inUse]
    exact guarded.spares
  · rw [removals, inUse]
    exact guarded.removals

theorem gitWorkspaceKept_none {object deployment synced runs}
    (unkept : gitWorkspaceKept object deployment synced runs = none) :
    object.status.bind (·.runSource) = none ∧ ∀ run ∈ runs, run.source = none := by
  simp only [gitWorkspaceKept] at unkept
  split at unkept
  · cases unkept
  · rename_i settled
    split at unkept
    · cases unkept
    · split at unkept
      · rename_i noRuns
        refine ⟨?_, ?_⟩
        · cases isStatus : object.status with
          | none => rfl
          | some status => simp_all
        · simpa [List.isEmpty_iff, List.filter_eq_nil_iff] using noRuns
      · cases unkept

theorem removeGitWorkspace_some {replica object deployment synced runs keep claim removal}
    (decided : (removeGitWorkspace replica object deployment synced runs keep claim).2 =
      some removal) :
    removal.keep = keep ∧ removal.claim = claim ∧
      (claim.isSome → gitWorkspaceKept object deployment synced runs = none) := by
  grind [removeGitWorkspace]

theorem observeImage_spec {replica found synced runs}
    (stepped : state.observeImage replica found synced runs = some next) :
    ∃ seen deployment, state.seenBy replica = some seen ∧ next.rollout.served =
      state.rollout.served ∧
      next.rollout.target = state.rollout.target ∧ next.runs = state.runs ∧
      next.keepSet = state.keepSet ∧
      next.trees = state.trees ∧ next.syncs = state.syncs ∧ next.clock = state.clock ∧
      next.removals = (removeGitWorkspace replica seen.object deployment synced runs
        (state.keepMap.map (·.uid))
        (state.volume.map (·.uid))).2.toList ++ state.removals := by
  unfold observeImage at stepped
  split at stepped
  · grind [served_observePass, observePass, seenBy, keepSet, trees]
  · cases stepped

theorem Guarded.observeImage (guarded : state.Guarded key) {replica : String}
    {found synced back runs} (isView : state.runsAt back = some runs)
    (timely : state.Timely key (.observeImage replica found synced back))
    (stepped : state.observeImage replica found synced runs = some next) : next.Guarded key := by
  obtain ⟨seen, deployment, isSeen, served, target, sameRuns, keepSet, trees, syncs, clock,
    removals⟩ :=
    observeImage_spec stepped
  obtain ⟨⟨seesServed, seesRuns⟩, noTarget, withVolume⟩ := timely
  have named : next.named = state.named := by simp only [named, live, served, sameRuns]
  have inUse : next.inUse = state.inUse := by simp only [inUse, named, target]
  refine ⟨?_, ?_, ?_, ?_⟩
  · rw [named, keepSet]
    exact guarded.covers
  · rw [syncs, clock]
    exact guarded.started
  · rw [syncs, trees, inUse]
    exact guarded.spares
  · intro removal isRemoval
    rw [removals, List.mem_append, Option.mem_toList] at isRemoval
    rw [inUse]
    obtain decided | wasRemoval := isRemoval
    · obtain ⟨isKeep, isClaim, unkept⟩ := removeGitWorkspace_some decided
      cases isVolume : state.volume with
      | none => grind [Removal.IsDone, keepSet]
      | some volume =>
        obtain ⟨noServed, noSources⟩ := gitWorkspaceKept_none (unkept (by simp [isVolume]))
        refine .inr (List.eq_nil_iff_forall_not_mem.mpr fun source isUsed => ?_)
        grind [mem_live, mem_named, mem_inUse]
    · exact guarded.removals removal wasRemoval

theorem filter_unread {α : Type} {read} (unread : read = none) (object : Option (Owned α)) :
    (object.filter fun found => read != some found.uid) = object := by
  subst unread
  cases object <;> rfl

theorem Guarded.deleteKeep (guarded : state.Guarded key) {replica : String}
    (stepped : state.deleteKeep replica = some next) : next.Guarded key := by
  obtain ⟨removal, isFound, rfl⟩ := Option.map_eq_some_iff.mp stepped
  have isRemoval := List.mem_of_find?_eq_some isFound
  refine ⟨?_, guarded.started, guarded.spares, ?_⟩
  · intro source isNamed
    obtain ⟨noKeep, -⟩ | unused := guarded.removals removal isRemoval
    · simp only [keepSet, filter_unread noKeep]
      exact guarded.covers source isNamed
    · have isUsed : source ∈ state.inUse := mem_inUse.mpr (.inr isNamed)
      simp [unused] at isUsed
  · intro other isOther
    obtain rfl | wasRemoval := List.mem_cons.mp isOther
    · exact (guarded.removals removal isRemoval).imp_left fun done => ⟨rfl, done.2⟩
    · exact guarded.removals other (List.mem_of_mem_filter wasRemoval)

theorem deleteClaim_spec {replica} (stepped : state.deleteClaim replica = some next) :
    ∃ removal ∈ state.removals, next = { state with
      volume := state.volume.filter fun volume => removal.claim != some volume.uid
      removals := state.removals.filter (·.replica != replica) } := by grind [deleteClaim]

theorem Guarded.deleteClaim (guarded : state.Guarded key) {replica}
    (stepped : state.deleteClaim replica = some next) : next.Guarded key ∧
    KeepsTrees key state next := by
  obtain ⟨removal, isRemoval, rfl⟩ := deleteClaim_spec stepped
  refine ⟨guarded.quiet ⟨List.Subset.refl _, rfl, rfl, List.Subset.refl _, le_rfl, ?_,
    List.filter_subset_self _⟩, ?_⟩
  · grind [trees, NotOlder]
  · grind [Removal.IsDone, KeepsTrees, trees, Guarded]

/-! ### Steps of the pods -/

theorem startSync_spec {pod source} (stepped : state.startSync key pod source = some next) :
    NotOlder state.trees state.clock next.trees ∧ state.trees ⊆ next.trees ∧
      next.syncs = { pod, own := key source, keep := state.keepSet, startedAt := state.clock } ::
        state.syncs ∧
      next.rollout = state.rollout ∧ next.runs = state.runs ∧ next.keepSet = state.keepSet ∧
      next.clock = state.clock ∧ next.removals = state.removals := by
  unfold startSync at stepped
  split at stepped
  · grind [trees, setTrees, keepSet, NotOlder]
  · cases stepped

theorem Guarded.startSync (guarded : state.Guarded key) {pod source}
    (known : ∀ target ∈ state.rollout.target, key target = key source ∨ key target ∈ state.keepSet)
    (stepped : state.startSync key pod source = some next) : next.Guarded key ∧
    KeepsTrees key state next := by
  obtain ⟨notOlder, subset, syncs, rollout, runs, keepSet, clock, removals⟩ :=
    startSync_spec stepped
  have named : next.named = state.named := by simp only [named, live, rollout, runs]
  have inUse : next.inUse = state.inUse := by simp only [inUse, named, rollout]
  refine ⟨⟨?_, ?_, ?_, ?_⟩, keepsTrees_of_subset fun tree isTree => ⟨tree, subset isTree, rfl⟩⟩
  · rw [named, keepSet]
    exact guarded.covers
  · grind [Guarded]
  · grind [inUse, Sync.Spares, Guarded, NotOlder]
  · rw [removals, inUse]
    exact guarded.removals

theorem mem_built {own clock trees tree} (isTree : tree ∈ trees) :
    ∃ touched ∈ built own clock trees, touched.key = tree.key ∧
      (touched.modified = tree.modified ∨ touched.modified = clock) := by
  refine ⟨_, List.mem_map.mpr ⟨tree, isTree, rfl⟩, ?_⟩
  split
  · exact ⟨rfl, .inr rfl⟩
  · exact ⟨rfl, .inl rfl⟩

theorem notOlder_built (own : String) (clock : Int) (trees : List Tree) :
    NotOlder trees clock (built own clock trees) := by grind [built, NotOlder]

theorem mem_prune_spared {sync : Sync} {clock trees tree touched} {after : List Tree}
    (isTouched : touched ∈ after) (sameKey : touched.key = tree.key)
    (touchedAt : touched.modified = tree.modified ∨ touched.modified = clock)
    (isTree : tree ∈ trees) (intime : clock - sync.startedAt < ({} : Floors).minAge)
    (spares : sync.Spares trees tree.key) :
    ∃ left ∈ prune {} sync.own sync.keep clock after, left.key = tree.key := by
  grind [mem_prune, Sync.Spares]

theorem endSync_spec {pod mounted pruned} (stepped : state.endSync pod mounted pruned = some next) :
    ∃ sync ∈ state.syncs, sync.pod = pod ∧ next.rollout = state.rollout ∧ next.runs = state.runs ∧
      next.keepSet = state.keepSet ∧ next.clock = state.clock ∧ next.removals = state.removals ∧
      next.syncs ⊆ state.syncs ∧ ∃ trees,
        (trees = state.trees ∨ trees = built sync.own state.clock state.trees) ∧
        (next.trees = trees ∨ next.trees = prune {} sync.own sync.keep state.clock trees) := by
  obtain ⟨sync, isFound, rfl⟩ := Option.map_eq_some_iff.mp stepped
  have isPod := List.find?_some isFound
  refine ⟨sync, List.mem_of_find?_eq_some isFound, eq_of_beq isPod, rfl, rfl, rfl, rfl, rfl,
    List.filter_subset_self _, if mounted then built sync.own state.clock state.trees else
      state.trees, ?_, ?_⟩
  · cases mounted
    · exact .inl rfl
    · exact .inr rfl
  · unfold trees setTrees
    cases state.volume with
    | none => cases mounted <;> exact .inl rfl
    | some volume =>
      cases pruned
      · exact .inl rfl
      · exact .inr rfl

theorem Guarded.endSync (guarded : state.Guarded key) {pod mounted pruned}
    (timely : state.Timely key (.endSync pod mounted pruned))
    (stepped : state.endSync pod mounted pruned = some next) :
    next.Guarded key ∧ KeepsTrees key state next := by
  obtain ⟨sync, isSync, isPod, rollout, runs, keepSet, clock, removals, syncs, trees, isBuilt,
    isLeft⟩ := endSync_spec stepped
  have named : next.named = state.named := by simp only [named, live, rollout, runs]
  refine ⟨guarded.quiet ⟨?_, by rw [rollout], keepSet, syncs, clock.ge, ?_, ?_⟩, ?_⟩
  · rw [named]
    exact List.Subset.refl _
  · grind [notOlder_built, mem_of_mem_prune, NotOlder]
  · rw [removals]
    exact List.Subset.refl _
  · rintro tree isTree ⟨source, isUsed, isKey⟩
    obtain ⟨touched, isTouched, sameKey, touchedAt⟩ : ∃ touched ∈ trees, touched.key = tree.key ∧
        (touched.modified = tree.modified ∨ touched.modified = state.clock) := by
      obtain rfl | rfl := isBuilt
      · exact ⟨tree, isTree, rfl, .inl rfl⟩
      · exact mem_built isTree
    obtain same | isPruned := isLeft
    · exact ⟨touched, same ▸ isTouched, sameKey⟩
    · rw [isPruned]
      exact mem_prune_spared isTouched sameKey touchedAt isTree (timely sync isSync isPod)
        (isKey ▸ guarded.spares sync isSync source isUsed)

/-! ### Histories -/

theorem named_endRun (uid : Nat) : (state.endRun uid).named ⊆ state.named := by
  intro source isNamed
  rw [mem_named, mem_live] at isNamed ⊢
  refine isNamed.imp_right ?_
  rintro ⟨run, isRun, unfin, isSource⟩
  obtain ⟨pre, wasRun, rfl⟩ := List.mem_map.mp isRun
  split at unfin
  · cases unfin
  · grind

theorem named_deleteRun (uid : Nat) : (state.deleteRun uid).named ⊆ state.named := by
  intro source isNamed
  rw [mem_named, mem_live] at isNamed ⊢
  refine isNamed.imp_right ?_
  rintro ⟨run, isRun, unfin, isSource⟩
  exact ⟨run, List.mem_of_mem_filter isRun, unfin, isSource⟩

theorem Guarded.after (guarded : state.Guarded key) {action} (timely : state.Timely key action)
    (stepped : state.step key action = some next) : next.Guarded key ∧
    KeepsTrees key state next := by
  have unmoved (subset : next.named ⊆ state.named) (rollout : next.rollout = state.rollout)
      (keepMap : next.keepMap = state.keepMap) (volume : next.volume = state.volume)
      (syncs : next.syncs ⊆ state.syncs) (clock : state.clock ≤ next.clock)
      (removals : next.removals = state.removals) : next.Guarded key ∧
      KeepsTrees key state next := by
    have trees : next.trees = state.trees := by simp only [trees, volume]
    have keepSet : next.keepSet = state.keepSet := by simp only [keepSet, keepMap]
    refine ⟨guarded.quiet ⟨subset, by rw [rollout], keepSet, syncs, clock, ?_, ?_⟩,
      keepsTrees_of_eq trees⟩
    · rw [trees]
      exact .of_subset (List.Subset.refl _)
    · rw [removals]
      exact List.Subset.refl _
  cases action with
  | rollout action =>
    obtain ⟨_, _, _, _, _, volume, _⟩ := rolloutStep_spec stepped
    exact ⟨guarded.rollout timely stepped, keepsTrees_of_eq (by simp only [trees, volume])⟩
  | prepare replica synced back =>
    obtain ⟨runs, isView, prepared⟩ := Option.bind_eq_some_iff.mp stepped
    obtain ⟨_, _, _, _, _, _, trees, _⟩ := prepare_spec prepared
    exact ⟨guarded.prepare isView timely prepared, keepsTrees_of_eq trees⟩
  | observeImage replica found synced back =>
    obtain ⟨runs, isView, observed⟩ := Option.bind_eq_some_iff.mp stepped
    obtain ⟨_, _, _, _, _, _, _, trees, _⟩ := observeImage_spec observed
    exact ⟨guarded.observeImage isView timely observed, keepsTrees_of_eq trees⟩
  | deleteKeep replica =>
    refine ⟨guarded.deleteKeep stepped, ?_⟩
    obtain ⟨removal, -, rfl⟩ := Option.map_eq_some_iff.mp stepped
    exact keepsTrees_of_eq rfl
  | deleteClaim replica => exact guarded.deleteClaim stepped
  | startSync pod replicaSet =>
    obtain ⟨source, isSource, started⟩ := Option.bind_eq_some_iff.mp stepped
    exact guarded.startSync (timely source isSource) started
  | endSync pod mounted pruned => exact guarded.endSync timely stepped
  | failSync pod =>
    cases stepped
    exact unmoved (List.Subset.refl _) rfl rfl rfl (List.filter_subset_self _) le_rfl rfl
  | endRun uid =>
    cases stepped
    exact unmoved (named_endRun uid) rfl rfl rfl (List.Subset.refl _) le_rfl rfl
  | deleteRun uid =>
    cases stepped
    exact unmoved (named_deleteRun uid) rfl rfl rfl (List.Subset.refl _) le_rfl rfl
  | wait time =>
    cases stepped
    exact unmoved (List.Subset.refl _) rfl rfl rfl (List.Subset.refl _) (by dsimp only; omega) rfl

end

def new (object : CodeLocation) : WorkspaceSystem where
  rollout := .new object

theorem Guarded.new (key : RunSource → String) (object : CodeLocation) :
    (new object).Guarded key where
  covers source isNamed := by cases isNamed
  started sync isSync := by cases isSync
  spares sync isSync := by cases isSync
  removals removal isRemoval := by cases isRemoval

/-- In every history whose steps all meet the condition, no prune and no removal of the volume takes
a tree in use. -/
theorem trees_in_use_kept (settingsHash : RunSource → String) (object : CodeLocation)
    (actions : List WorkspaceAction) (timely : Stepwise (step (RunSource.workspaceKey settingsHash))
      (fun state action _ => state.Timely (RunSource.workspaceKey settingsHash) action)
        (new object) actions) :
    Stepwise (step (RunSource.workspaceKey settingsHash))
      (fun before _ after => KeepsTrees (RunSource.workspaceKey settingsHash) before after)
        (new object) actions :=
  timely.of_invariant (fun stepped guarded held => guarded.after held stepped)
    (Guarded.new _ object)

def gitEtl : CodeLocation where
  ns := some "data"
  name := "analytics"
  spec :=
    { identity := "analytics"
      git := some { url := "https://forge/etl.git", ref := { branch := some "main" } }
      module := "etl" }

def leadsTo (commit : String) : List WorkspaceAction :=
  [.rollout (.start "a" 0 true (.resolved "registry/runtime@sha256:2" "DigestPinned")
    (.ok { commit })),
    .prepare "a" true 0, .rollout (.apply "a" .all), .rollout (.observe "a" true none),
    .rollout (.patch "a" true)]

def buildsTree (commit : String) : List WorkspaceAction :=
  leadsTo commit ++ [.startSync commit 0, .endSync commit true true, .wait (7200 * 1000000000)]

def fourCommits : List WorkspaceAction :=
  buildsTree "c1" ++ buildsTree "c2" ++ buildsTree "c3" ++ buildsTree "c4"

theorem trees_in_use_kept_pruned :
    ((perform (step (RunSource.workspaceKey fun _ => "")) (new gitEtl) fourCommits).map
        fun final => final.trees.map (·.key)) = some ["c4-2-", "c3-2-", "c2-2-"] ∧
      Stepwise (step (RunSource.workspaceKey fun _ => ""))
        (fun before _ after => KeepsTrees (RunSource.workspaceKey fun _ => "") before after)
          (new gitEtl) fourCommits :=
  ⟨by decide +kernel, trees_in_use_kept (fun _ => "") gitEtl fourCommits (by decide +kernel)⟩

def returnsToFirst : List WorkspaceAction :=
  buildsTree "c1" ++ buildsTree "c2" ++ buildsTree "c3" ++ leadsTo "c4" ++ .startSync "p" 0 ::
    leadsTo "c1"

/-- A run is created from the git status while the code location switches to image mode, and the
next pass has not listed it yet. -/
def switchesToImage : List WorkspaceAction :=
  buildsTree "c1" ++ .rollout (.report (rolledOutAt 1)) :: leadsTo "c1" ++
    [.rollout (.changeSpec { gitEtl.spec with image := some "registry/etl", git := none }),
      .rollout (.start "a" 0 true (.resolved "registry/etl@sha256:1" "DigestPinned")
        (.error .unreachable)),
      .rollout (.apply "a" .all), .rollout (.report (rolledOutAt 2)), .observeImage "a" true true 0,
      .rollout (.patch "a" true),
      .rollout (.admitRun { refName := "analytics", refNs := "data" } (.ok ()) 1),
      .rollout (.start "a" 0 true (.resolved "registry/etl@sha256:1" "DigestPinned")
        (.error .unreachable)),
      .rollout (.apply "a" .all), .observeImage "a" true true 1, .deleteKeep "a"]

/-- A prune takes the tree being rolled out, and a removal the tree of the run. -/
theorem tree_in_use_taken :
    ((perform (step (RunSource.workspaceKey fun _ => "")) (new gitEtl) returnsToFirst).bind
      fun before =>
      (step (RunSource.workspaceKey fun _ => "") before (.endSync "p" true true)).map fun after =>
        decide (KeepsTrees (RunSource.workspaceKey fun _ => "") before after)) = some false ∧
    ((perform (step (RunSource.workspaceKey fun _ => "")) (new gitEtl) switchesToImage).bind
      fun before =>
      (step (RunSource.workspaceKey fun _ => "") before (.deleteClaim "a")).map fun after =>
        decide (KeepsTrees (RunSource.workspaceKey fun _ => "") before after)) = some false := by
  refine ⟨?_, ?_⟩ <;> decide +kernel

end WorkspaceSystem

end Rivers

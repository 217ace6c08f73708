import Mathlib.Data.Finset.Option
import Rivers.Operator.Serving
import Rivers.Lib.StableSort

/-! The shared workspace volume of a git code location. -/

namespace Rivers

def digest8 (image : String) : List Char :=
  match afterFirst "@sha256:".toList image.toList with
  | some hex => hex.take 8
  | none =>
      let tail := (image.toList.reverse.filter (·.isAlphanum)).take 8
      List.replicate (8 - tail.length) '0' ++ tail.reverse

def RunSource.workspaceKey (settingsHash : RunSource → String) (source : RunSource) : String :=
  String.ofList (source.git.commit.toList.take 12 ++ '-' :: digest8 source.runtimeImage ++ ['-'])
    ++ settingsHash source

/-- A directory of the volume's root, with its modification time in nanoseconds; `ready` is its
`.ready` file. -/
structure Tree where
  key : String
  modified : Int
  ready : Bool := false
  deriving DecidableEq, Repr

structure Floors where
  keepRevisions : Nat := 3
  minAge : Int := 3600 * 1000000000
  deriving DecidableEq, Repr

/-! ### `prune.rs` -/

def newestFirst (left right : Tree) : Bool :=
  right.modified < left.modified || (left.modified == right.modified && !decide
    (right.key < left.key))

def Floors.removes (floors : Floors) (own : String) (keep : Finset String) (now : Int) (tree : Tree)
    (rank : Nat) :
    Bool :=
  if tree.key == own || tree.key ∈ keep || rank ≤ floors.keepRevisions then false
  else !decide (max 0 (now - tree.modified) < floors.minAge)

def prune (floors : Floors) (own : String) (keep : Finset String) (now : Int) (trees : List Tree) :
    List Tree :=
  (((StableSort.sortBy newestFirst trees).zipIdx 1).filter fun (tree, rank) =>
    !floors.removes own keep now tree rank).map (·.1)

/-! ### `workspace.rs` -/

structure SourcedRun where
  uid : Nat
  source : Option RunSource
  terminal : Bool := false
  deriving DecidableEq, Repr

def workspaceKeep (key : RunSource → String) (target : RunSource) (serving : Option RunSource)
    (runs : List SourcedRun) : Finset String :=
  insert (key target)
    ((serving.map key).toFinset ∪ (((runs.filter (!·.terminal)).filterMap (·.source)).map
      key).toFinset)

def gitWorkspaceKept (object : CodeLocation) (deployment : Option Deployment) (synced : Bool)
    (runs : List SourcedRun) : Option String :=
  if object.status.any (·.runSource.isSome) || !deployment.any noOldPods then some "RollingOut"
  else if !synced then some "RunsNotListed"
  else if (runs.filter (·.source.isSome)).isEmpty then none
  else some "RunsUseWorkspace"

structure Owned (α : Type) where
  uid : Nat
  content : α

structure Removal where
  replica : String
  keep : Option Nat
  claim : Option Nat
  deriving DecidableEq, Repr

/-- `remove_git_workspace` up to its deletes: why the workspace stays, or what is to be deleted. -/
def removeGitWorkspace (replica : String) (object : CodeLocation) (deployment : Option Deployment)
    (synced : Bool) (runs : List SourcedRun)
    (keep claim : Option Nat) : Option String × Option Removal :=
  let mayBeLeft := object.status.any fun status =>
    isGitStatus status || status.conditions.any (·.type == .workspaceKept)
  if !mayBeLeft then (none, none)
  else
    match if claim.isSome then gitWorkspaceKept object deployment synced runs else none with
    | some reason => (some reason, none)
    | none => (none, some { replica, keep, claim })

/-- A code-location pod between the start of its sync and its prune, with the keep-set it read when
it started. -/
structure Sync where
  pod : String
  own : String
  keep : Finset String
  startedAt : Int
  deriving DecidableEq

/-- `prepared` have written the keep-set and not yet the Deployment. -/
structure WorkspaceSystem where
  rollout : RolloutSystem
  runs : List SourcedRun := []
  earlierRuns : List (List SourcedRun) := []
  keepMap : Option (Owned (Finset String)) := none
  volume : Option (Owned (List Tree)) := none
  replicaSets : List PodTemplate := []
  prepared : List String := []
  removals : List Removal := []
  syncs : List Sync := []
  nextUid : Nat := 0
  clock : Int := 0

/-- `prepare` and `observeImage` read the run store as it was `back` changes of the runs ago. A sync
ends in the tree on the volume unless a prune has since moved the `mounted` one aside, and has
`pruned` unless another pod holds the prune lock. -/
inductive WorkspaceAction where
  | rollout (action : RolloutAction)
  | prepare (replica : String) (synced : Bool) (back : Nat)
  | observeImage (replica : String) (found synced : Bool) (back : Nat)
  | deleteKeep (replica : String)
  | deleteClaim (replica : String)
  | startSync (pod : String) (replicaSet : Nat)
  | endSync (pod : String) (mounted pruned : Bool)
  | failSync (pod : String)
  | endRun (uid : Nat)
  | deleteRun (uid : Nat)
  | wait (time : Nat)

namespace RolloutSystem

variable (state : RolloutSystem)

def served : Option RunSource :=
  state.current.object.status.bind (·.runSource)

def target : Option RunSource :=
  state.deployment.bind (·.template.source)

def deploys : RolloutAction → Option PodTemplate
  | .apply replica answer =>
      match state.stages replica with
      | .applying seen image _ resolved =>
          if answer.deployed then some (buildTemplate seen.object.spec image resolved) else none
      | _ => none
  | _ => none

def publishes : RolloutAction → Option RunSource
  | .patch replica true =>
      match state.stages replica with
      | .patching _ status _ => status.runSource
      | _ => none
  | _ => none

def admits : RolloutAction → Option (Option RunSource)
  | .admitRun request selfStamped back =>
      (state.versions[back]?).bind fun version =>
        match mutateRunOnCreate request selfStamped (.ok (some version.object)) with
        | .mutated _ _ _ source => some source
        | .acceptedAsIs => some request.source
        | .rejected _ => none
  | _ => none

end RolloutSystem

namespace WorkspaceSystem

variable (key : RunSource → String) (state : WorkspaceSystem)

def trees : List Tree :=
  match state.volume with
  | some volume => volume.content
  | none => []

def keepSet : Finset String :=
  match state.keepMap with
  | some keepMap => keepMap.content
  | none => ∅

def runsAt (back : Nat) : Option (List SourcedRun) :=
  (state.runs :: state.earlierRuns)[back]?

def setRuns (runs : List SourcedRun) : WorkspaceSystem :=
  { state with runs, earlierRuns := state.runs :: state.earlierRuns }

def setTrees (trees : List Tree) : WorkspaceSystem :=
  { state with volume := state.volume.map fun volume => { volume with content := trees } }

/-- The order of a pass's steps on the workspace. -/
def permits : RolloutAction → Bool
  | .apply replica answer =>
      match state.rollout.stages replica with
      | .applying _ _ _ (some _) => !answer.deployed || state.prepared.contains replica
      | _ => true
  | .observe replica _ _ =>
      match state.rollout.stages replica with
      | .observing _ (.image (some _)) => false
      | _ => true
  | .patch replica _ => state.removals.all (·.replica != replica)
  | _ => true

def leaves : RolloutAction → Option String
  | .apply replica _ | .abandon replica => some replica
  | _ => none

def addRun (source : Option RunSource) : WorkspaceSystem :=
  { state.setRuns (state.runs ++ [{ uid := state.nextUid, source }]) with nextUid :=
    state.nextUid + 1 }

def rolloutStep (action : RolloutAction) : Option WorkspaceSystem :=
  if state.permits action then
    (state.rollout.step action).map fun rollout =>
      let created :=
        match state.rollout.admits action with
        | some source => state.addRun source
        | none => state
      { created with
        rollout
        replicaSets := (state.rollout.deploys action).toList ++ state.replicaSets
        prepared := state.prepared.filter fun replica => leaves action != some replica
        removals := state.removals.filter fun removal => leaves action != some removal.replica }
  else none

def prepare (replica : String) (synced : Bool) (runs : List SourcedRun) : Option WorkspaceSystem :=
  match state.rollout.stages replica with
  | .applying seen image _ resolved =>
      (runSourceOf seen.object.spec image resolved).map fun target =>
        let claimed :=
          if state.volume.isSome then state
          else { state with volume := some ⟨state.nextUid, []⟩, nextUid := state.nextUid + 1 }
        let keep := workspaceKeep key target (seen.object.status.bind (·.runSource)) runs
        let kept :=
          if synced then
            match claimed.keepMap with
            | some keepMap => { claimed with keepMap := some ⟨keepMap.uid, keep⟩ }
            | none =>
                { claimed with keepMap := some ⟨claimed.nextUid, keep⟩, nextUid := claimed.nextUid + 1 }
          else claimed
        { kept with prepared := replica :: state.prepared }
  | _ => none

def observeImage (replica : String) (found synced : Bool) (runs : List SourcedRun) :
    Option WorkspaceSystem :=
  match state.rollout.stages replica with
  | .observing seen (.image (some _)) =>
      let deployment := if found then state.rollout.deployment else none
      let (workspaceKept, removal) := removeGitWorkspace replica seen.object deployment synced runs
        (state.keepMap.map (·.uid)) (state.volume.map (·.uid))
      (state.rollout.observePass replica found workspaceKept).map fun rollout =>
        { state with rollout, removals := removal.toList ++ state.removals }
  | _ => none

def deleteKeep (replica : String) : Option WorkspaceSystem :=
  (state.removals.find? (·.replica == replica)).map fun removal =>
    { state with
      keepMap := state.keepMap.filter fun keepMap => removal.keep != some keepMap.uid
      removals := { removal with keep := none } :: state.removals.filter (·.replica != replica) }

def deleteClaim (replica : String) : Option WorkspaceSystem :=
  match state.removals.find? (·.replica == replica) with
  | some removal =>
      if removal.keep = none then
        some { state with
          volume := state.volume.filter fun volume => removal.claim != some volume.uid
          removals := state.removals.filter (·.replica != replica) }
      else none
  | none => none

/-- The kubelet creates the pod's subpath, and resolves the keep-set into its environment. -/
def startSync (pod : String) (source : RunSource) : Option WorkspaceSystem :=
  if state.volume.isSome && state.syncs.all (·.pod != pod) then
    let own := key source
    let trees :=
      if state.trees.any (·.key == own) then state.trees
      else { key := own, modified := state.clock } :: state.trees
    some { state.setTrees trees with
      syncs := { pod, own, keep := state.keepSet, startedAt := state.clock } :: state.syncs }
  else none

def built (own : String) (clock : Int) (trees : List Tree) : List Tree :=
  trees.map fun tree =>
    if tree.key = own ∧ !tree.ready then { tree with modified := clock, ready := true } else tree

/-- `sync` after a successful build, or over a ready tree: then the prune, with the default floors.
-/
def endSync (pod : String) (mounted pruned : Bool) : Option WorkspaceSystem :=
  (state.syncs.find? (·.pod == pod)).map fun sync =>
    let trees := if mounted then built sync.own state.clock state.trees else state.trees
    let left := if pruned then prune {} sync.own sync.keep state.clock trees else trees
    { state.setTrees left with syncs := state.syncs.filter (·.pod != pod) }

def failSync (pod : String) : WorkspaceSystem :=
  { state with syncs := state.syncs.filter (·.pod != pod) }

def endRun (uid : Nat) : WorkspaceSystem :=
  state.setRuns (state.runs.map fun run =>
    if run.uid = uid then { run with terminal := true } else run)

def deleteRun (uid : Nat) : WorkspaceSystem :=
  state.setRuns (state.runs.filter (·.uid != uid))

def step : WorkspaceAction → Option WorkspaceSystem
  | .rollout action => state.rolloutStep action
  | .prepare replica synced back => (state.runsAt back).bind (state.prepare key replica synced)
  | .observeImage replica found synced back =>
      (state.runsAt back).bind (state.observeImage replica found synced)
  | .deleteKeep replica => state.deleteKeep replica
  | .deleteClaim replica => state.deleteClaim replica
  | .startSync pod replicaSet =>
      ((state.replicaSets[replicaSet]?).bind (·.source)).bind (state.startSync key pod)
  | .endSync pod mounted pruned => state.endSync pod mounted pruned
  | .failSync pod => some (state.failSync pod)
  | .endRun uid => some (state.endRun uid)
  | .deleteRun uid => some (state.deleteRun uid)
  | .wait time => some { state with clock := state.clock + time }

end WorkspaceSystem

end Rivers

import Rivers.Operator.ServingCore
import Rivers.Lib.Transitions

/-! Histories of one code location. -/

namespace Rivers

open Transitions CodeLocationStatus

structure CodeLocationVersion where
  object : CodeLocation
  servedModule : Option String := none

inductive PassStage where
  | idle
  | applying (seen : CodeLocationVersion) (image imageReason : String)
      (resolved : Option ResolvedRef)
  | observing (seen : CodeLocationVersion) (update : StatusUpdate)
  | patching (seen : CodeLocationVersion) (status : CodeLocationStatus)
      (servedModule : Option String)

def PassStage.readsImage : PassStage → Bool
  | .observing _ (.image _) => true
  | _ => false

inductive ApplyAnswer where
  | all
  | waitingForPvc
  | refused (deployed : Bool)
  | failed (deployed : Bool)
  deriving DecidableEq, Repr

def ApplyAnswer.deployed : ApplyAnswer → Bool
  | .all => true
  | .waitingForPvc => false
  | .refused deployed | .failed deployed => deployed

structure AdmittedRun where
  image : String
  source : Option RunSource
  module : String
  completedBefore : List PodTemplate

def AdmittedRun.RanTogether (run : AdmittedRun) : Prop :=
  ∃ template ∈ run.completedBefore,
    template.image = run.image ∧ template.source = run.source ∧ template.module = run.module

instance (run : AdmittedRun) : Decidable run.RanTogether :=
  inferInstanceAs (Decidable (∃ template ∈ run.completedBefore,
    template.image = run.image ∧ template.source = run.source ∧ template.module = run.module))

structure RolloutSystem where
  current : CodeLocationVersion
  earlier : List CodeLocationVersion := []
  deployment : Option Deployment := none
  completed : List PodTemplate := []
  stages : String → PassStage := fun _ => .idle
  admitted : List AdmittedRun := []

inductive RolloutAction where
  | changeSpec (spec : CodeLocationSpec)
  | report (status : DeploymentStatus)
  | start (replica : String) (back : Nat) (isLeader : Bool) (image : ImageOutcome)
      (source : Except GitError ResolvedRef)
  | apply (replica : String) (answer : ApplyAnswer)
  | observe (replica : String) (found : Bool) (workspaceKept : Option String)
  | patch (replica : String) (written : Bool)
  | abandon (replica : String)
  | admitRun (request : RunRequest) (selfStamped : Except String Unit) (back : Nat)

structure Deployment.RolledOut (deployment : Deployment) (status : DeploymentStatus) : Prop where
  observed : status.observedGeneration = some deployment.generation
  wanted : 0 < deployment.replicas
  updated : status.replicas.getD 0 = status.updatedReplicas.getD 0
  enough : deployment.replicas ≤ status.updatedReplicas.getD 0
  ready : deployment.replicas ≤ status.readyReplicas.getD 0
  available : deployment.replicas ≤ status.availableReplicas.getD 0

instance (deployment : Deployment) (status : DeploymentStatus) :
    Decidable (deployment.RolledOut status) :=
  decidable_of_iff
    (status.observedGeneration = some deployment.generation ∧ 0 < deployment.replicas ∧
      status.replicas.getD 0 = status.updatedReplicas.getD 0 ∧
      deployment.replicas ≤ status.updatedReplicas.getD 0 ∧ deployment.replicas ≤
        status.readyReplicas.getD 0 ∧
      deployment.replicas ≤ status.availableReplicas.getD 0)
    ⟨fun ⟨observed, wanted, updated, enough, ready, available⟩ =>
      ⟨observed, wanted, updated, enough, ready, available⟩,
     fun ⟨observed, wanted, updated, enough, ready, available⟩ =>
      ⟨observed, wanted, updated, enough, ready, available⟩⟩

namespace StatusUpdate

def status (update : StatusUpdate) (object : CodeLocation) (deployment : Option Deployment)
    (workspaceKept : Option String) : CodeLocationStatus :=
  match update with
  | .git resolution refused => gitStatus object resolution (deploymentRollout deployment) refused
  | .image leader =>
      imageStatus object (leader.map fun (resolved, reason) => ⟨resolved, reason, workspaceKept⟩)
        (deploymentRollout deployment)

def finds (update : StatusUpdate) (template : PodTemplate) : Bool :=
  match update with
  | .git _ _ => template.source.isSome
  | .image _ => true

def servedModule (update : StatusUpdate) (seen : CodeLocationVersion)
    (deployment : Option Deployment) :
    Option String :=
  match deployment with
  | none => seen.servedModule
  | some found =>
      if rolloutComplete found && update.finds found.template then some found.template.module
      else seen.servedModule

end StatusUpdate

namespace RolloutSystem

variable (state : RolloutSystem)

def new (object : CodeLocation) : RolloutSystem where
  current := { object := { object with generation := 1, status := none } }

def versions : List CodeLocationVersion :=
  state.current :: state.earlier

def setStage (replica : String) (stage : PassStage) : RolloutSystem :=
  { state with stages := fun other => if other = replica then stage else state.stages other }

def write (object : CodeLocation) (servedModule : Option String) : RolloutSystem :=
  { state with current := { object, servedModule }, earlier := state.versions }

def changeSpec (spec : CodeLocationSpec) : RolloutSystem :=
  let object := state.current.object
  if object.spec = spec then state
  else state.write { object with spec, generation := object.generation + 1 }
    state.current.servedModule

def report (status : DeploymentStatus) : Option RolloutSystem :=
  match state.deployment with
  | none => none
  | some found =>
      if status.observedGeneration.all (· ≤ found.generation) then
        some { state with
          deployment := some { found with status := some status }
          completed :=
            if found.RolledOut status then found.template :: state.completed else state.completed }
      else none

def startPass (replica : String) (seen : CodeLocationVersion) : PassPlan → RolloutSystem
  | .nothing => state
  | .patchUnresolved why =>
      state.setStage replica (.patching seen (unresolvedStatus seen.object why) seen.servedModule)
  | .patchObserved update => state.setStage replica (.observing seen update)
  | .apply image imageReason resolved =>
      state.setStage replica (.applying seen image imageReason resolved)

def deploy (spec : CodeLocationSpec) (image : String) (resolved : Option ResolvedRef) :
    RolloutSystem :=
  { state with
    deployment := some (applyDeployment state.deployment (buildTemplate spec image resolved)
      spec.replicas) }

def applied (seen : CodeLocationVersion) (image imageReason : String)
    (resolved : Option ResolvedRef) (answer : ApplyAnswer) : PassStage :=
  match answer, resolved with
  | .all, none => .observing seen (.image (some (image, imageReason)))
  | .all, some resolved =>
      .observing seen (.git (some (.imageResolved image imageReason (.ok resolved))) false)
  | .refused _, some resolved =>
      .observing seen (.git (some (.imageResolved image imageReason (.ok resolved))) true)
  | _, _ => .idle

def applyPass (replica : String) (answer : ApplyAnswer) : Option RolloutSystem :=
  match state.stages replica with
  | .applying seen image imageReason resolved =>
      let after := if answer.deployed then state.deploy seen.object.spec image resolved else state
      some (after.setStage replica (applied seen image imageReason resolved answer))
  | _ => none

def observePass (replica : String) (found : Bool) (workspaceKept : Option String) :
    Option RolloutSystem :=
  match state.stages replica with
  | .observing seen update =>
      let deployment := if found then state.deployment else none
      some (state.setStage replica
        (.patching seen (update.status seen.object deployment workspaceKept)
        (update.servedModule seen deployment)))
  | _ => none

def patchPass (replica : String) (written : Bool) : Option RolloutSystem :=
  match state.stages replica with
  | .patching seen status servedModule =>
      if written then
        some ((state.write { state.current.object with status := some status }
          servedModule).setStage replica .idle)
      else if seen.object.status = some status then some (state.setStage replica .idle)
      else none
  | _ => none

def admitRun (request : RunRequest) (selfStamped : Except String Unit)
    (version : CodeLocationVersion) : RolloutSystem :=
  match mutateRunOnCreate request selfStamped (.ok (some version.object)) with
  | .mutated image module _ source =>
      { state with
        admitted := { image, source, module, completedBefore := state.completed } ::
          state.admitted }
  | _ => state

def step : RolloutAction → Option RolloutSystem
  | .changeSpec spec => some (state.changeSpec spec)
  | .report status => state.report status
  | .start replica back isLeader image source =>
      match state.stages replica, state.versions[back]? with
      | .idle, some seen =>
          some (state.startPass replica seen (reconcileCodeLocation seen.object isLeader
            image source))
      | _, _ => none
  | .apply replica answer => state.applyPass replica answer
  | .observe replica found workspaceKept => state.observePass replica found workspaceKept
  | .patch replica written => state.patchPass replica written
  | .abandon replica => some (state.setStage replica .idle)
  | .admitRun request selfStamped back =>
      (state.versions[back]?).map (state.admitRun request selfStamped)

def Consistent : RolloutAction → Prop
  | .admitRun _ _ back => ∀ version ∈ state.versions[back]?,
      version.object.status.any (·.phase == some .ready) → version.servedModule =
        some version.object.spec.module
  | .observe replica true _ => ∀ found ∈ state.deployment,
      (state.stages replica).readsImage → rolloutComplete found → found.template.source = none
  | _ => True

instance (action : RolloutAction) : Decidable (state.Consistent action) :=
  match action with
  | .admitRun _ _ back => inferInstanceAs (Decidable (∀ version ∈ state.versions[back]?,
      version.object.status.any (·.phase == some .ready) → version.servedModule =
        some version.object.spec.module))
  | .observe replica true _ => inferInstanceAs (Decidable (∀ found ∈ state.deployment,
      (state.stages replica).readsImage → rolloutComplete found → found.template.source = none))
  | .observe _ false _ | .changeSpec _ | .report _ | .start _ _ _ _ _ | .apply _ _ | .patch _ _
  | .abandon _ =>
      .isTrue trivial

end RolloutSystem

/-! ### What a status gives to runs -/

def CodeLocationStatus.serves (status : CodeLocationStatus) : Option (String × Option RunSource) :=
  match status.runSource with
  | some source => some (source.runtimeImage, some source)
  | none => status.resolvedImage.map (·, none)

theorem serves_gitStatus (object : CodeLocation) (resolution : Option GitResolution)
    (observed : Rollout RunSource) (refused : Bool) :
    (gitStatus object resolution observed refused).serves =
      (rolloutStatus object.spec observed (object.status.bind (·.runSource)) refused).serving.map
        fun source => (source.runtimeImage, some source) := by
  simp only [serves, gitStatus]
  cases (rolloutStatus object.spec observed (object.status.bind (·.runSource)) refused).serving <;>
    rfl

theorem serves_imageStatus (object : CodeLocation) (leader : Option ImagePass)
    (observed : Rollout String) :
    (imageStatus object leader observed).serves =
      (rolloutStatus object.spec observed
        ((object.status.filter fun status => !isGitStatus status).bind (·.resolvedImage))
          false).serving.map
          (·, none) := rfl

theorem serves_unresolvedStatus (object : CodeLocation) (why : Unresolved) :
    (unresolvedStatus object why).serves = object.status.bind serves := by
  cases found : object.status with
  | none => cases why <;> simp [unresolvedStatus, nextStatus, serves, found]
  | some status => cases why <;> simp [unresolvedStatus, nextStatus, serves, found]

theorem serving_rolloutStatus {α : Type} {spec rollout prior refused} {serving : α}
    (serves : (rolloutStatus spec rollout prior refused).serving = some serving) :
    rollout.complete = true ∧ rollout.template = some serving ∨
      (rollout.complete = false ∨ rollout.template = none) ∧ prior = some serving := by
  grind [rolloutStatus]

theorem deploymentRollout_complete {α : Type} [Template α] {deployment}
    (compl : (deploymentRollout deployment : Rollout α).complete = true) :
    ∃ found, deployment = some found ∧ rolloutComplete found = true ∧
      (deploymentRollout deployment : Rollout α).template = Template.ofPod found.template := by
  grind [Option.bind_eq_some_iff, rolloutComplete, deploymentRollout]

theorem completeFrom_mutated {req object image module ident source}
    (mutated : completeFrom req object = .mutated image module ident source) :
    ∃ status, object.status = some status ∧ status.phase = some .ready ∧
      status.serves = some (image, source) ∧
      module = object.spec.module := by
  simp only [completeFrom] at mutated
  split at mutated
  · cases mutated
  · rename_i status isReady
    obtain ⟨isStatus, ready⟩ := Option.filter_eq_some_iff.mp isReady
    have ran : status.serves = some (image, source) ∧ module = object.spec.module := by
      cases isSource : status.runSource with
      | some source => grind [serves]
      | none =>
        simp only [isSource] at mutated
        split at mutated
        · cases mutated
        · split at mutated
          · cases mutated
          · rename_i given
            cases mutated
            cases isImage : status.resolvedImage with
            | some image => simp [serves, isSource, isImage]
            | none => simp [isImage] at given
    exact ⟨status, isStatus, by simpa using ready, ran⟩

theorem mutateRunOnCreate_mutated {req selfStamped object image module ident source}
    (mutated : mutateRunOnCreate req selfStamped (.ok (some object)) = .mutated image module
      ident source) :
    completeFrom req object = .mutated image module ident source := by
  simp only [mutateRunOnCreate] at mutated
  split at mutated
  · cases mutated
  split at mutated
  · split at mutated
    · cases mutated
    · split at mutated <;> cases mutated
  split at mutated
  · cases mutated
  · exact mutated

/-! ### What the completed rollouts account for -/

def Accounted (completed : List PodTemplate) (status : Option CodeLocationStatus)
    (servedModule : Option String) :
    Prop :=
  ∀ image source, status.bind serves = some (image, source) →
    ∃ template ∈ completed,
      template.image = image ∧ template.source = source ∧ servedModule = some template.module

theorem Accounted.mono {completed later status servedModule}
    (accounted : Accounted completed status servedModule) (subset : completed ⊆ later) :
    Accounted later status servedModule := by grind [Accounted]

theorem accounted_unresolved {completed object servedModule}
    (accounted : Accounted completed object.status servedModule) (why : Unresolved) :
    Accounted completed (some (unresolvedStatus object why)) servedModule := by
  intro image source serves
  rw [Option.bind_some, serves_unresolvedStatus] at serves
  exact accounted image source serves

structure Deployment.Tracked (completed : List PodTemplate) (deployment : Deployment) : Prop where
  pinned : ∀ source, deployment.template.source = some source → deployment.template.image =
    source.runtimeImage
  observed : ∀ status, deployment.status = some status →
    status.observedGeneration.all (· ≤ deployment.generation) = true
  rolledOut : ∀ status, deployment.status = some status → deployment.RolledOut status →
    deployment.template ∈ completed

namespace Deployment

variable {completed : List PodTemplate} {deployment : Deployment}

theorem Tracked.mem_of_complete (tracked : deployment.Tracked completed)
    (compl : rolloutComplete deployment = true) :
    deployment.template ∈ completed := by
  unfold rolloutComplete at compl
  split at compl
  · cases compl
  · grind [noOldPods, generationObserved, Tracked, RolledOut]

theorem tracked_apply {current} (tracked : ∀ found, current = some found → found.Tracked completed)
    (spec : CodeLocationSpec) (image : String) (resolved : Option ResolvedRef) :
    (applyDeployment current (buildTemplate spec image resolved) spec.replicas).Tracked completed := by
  have pinned (source : RunSource) (isSource : (buildTemplate spec image resolved).source =
    some source) :
      (buildTemplate spec image resolved).image = source.runtimeImage := by
    simp only [buildTemplate, runSourceOf, Option.bind_eq_some_iff, Option.map_eq_some_iff] at isSource
    obtain ⟨_, _, _, _, rfl⟩ := isSource
    rfl
  unfold applyDeployment
  split
  · refine ⟨pinned, ?_, ?_⟩
    · intro status isStatus
      cases isStatus
    · intro status isStatus
      cases isStatus
  · rename_i found
    have pre := tracked found rfl
    split
    · exact pre
    · refine ⟨pinned, ?_, ?_⟩
      · intro status isStatus
        have bounded := pre.observed status isStatus
        cases isObserved : status.observedGeneration with
        | none => rfl
        | some generation =>
          simp only [isObserved, Option.all_some, decide_eq_true_eq] at bounded ⊢
          omega
      · grind [RolledOut, Tracked]

end Deployment

theorem deploymentRollout_of_complete {α : Type} [Template α] {found}
    (compl : rolloutComplete found = true) :
    (deploymentRollout (some found) : Rollout α).complete = true ∧
      (deploymentRollout (some found) : Rollout α).template = Template.ofPod found.template := by
  grind [deploymentRollout, rolloutComplete]

section

variable {completed : List PodTemplate} {seen : CodeLocationVersion}
  {deployment : Option Deployment}

theorem servedModule_of_not_found {update : StatusUpdate}
    (notFound : ∀ found, deployment = some found → rolloutComplete found = true →
      update.finds found.template = false) :
    update.servedModule seen deployment = seen.servedModule := by
  unfold StatusUpdate.servedModule
  split
  · rfl
  · simp_all

theorem accounted_git (tracked : ∀ found, deployment = some found → found.Tracked completed)
    (accounted : Accounted completed seen.object.status seen.servedModule)
    (resolution : Option GitResolution) (refused : Bool) :
    Accounted completed (some (gitStatus seen.object resolution (deploymentRollout deployment)
      refused))
      (StatusUpdate.servedModule (.git resolution refused) seen deployment) := by
  intro image source serves
  rw [Option.bind_some, serves_gitStatus] at serves
  obtain ⟨serving, isServing, same⟩ := Option.map_eq_some_iff.mp serves
  obtain ⟨rfl, rfl⟩ := Prod.mk.inj same
  obtain ⟨compl, isTemplate⟩ | ⟨notFound, isPrior⟩ := serving_rolloutStatus isServing
  · obtain ⟨found, rfl, isComplete, shown⟩ := deploymentRollout_complete compl
    have isSource : found.template.source = some serving := shown.symm.trans isTemplate
    have isTracked := tracked found rfl
    refine ⟨found.template, isTracked.mem_of_complete isComplete, isTracked.pinned serving isSource,
      isSource, ?_⟩
    simp [StatusUpdate.servedModule, StatusUpdate.finds, isComplete, isSource]
  · obtain ⟨status, isStatus, isSource⟩ := Option.bind_eq_some_iff.mp isPrior
    have kept : StatusUpdate.servedModule (.git resolution refused) seen deployment =
      seen.servedModule := by
      refine servedModule_of_not_found ?_
      rintro found rfl isComplete
      obtain ⟨compl, shown⟩ := deploymentRollout_of_complete (α := RunSource) isComplete
      obtain incomplete | noTemplate := notFound
      · simp [compl] at incomplete
      · have noSource : found.template.source = none := shown.symm.trans noTemplate
        simp [StatusUpdate.finds, noSource]
    rw [kept]
    exact accounted _ _ (by simp [isStatus, CodeLocationStatus.serves, isSource])

theorem accounted_image (tracked : ∀ found, deployment = some found → found.Tracked completed)
    (accounted : Accounted completed seen.object.status seen.servedModule)
    (imageMode : ∀ found, deployment = some found → rolloutComplete found = true →
      found.template.source = none)
    (leader : Option (String × String)) (pass : Option ImagePass) :
    Accounted completed (some (imageStatus seen.object pass (deploymentRollout deployment)))
      (StatusUpdate.servedModule (.image leader) seen deployment) := by
  intro image source serves
  rw [Option.bind_some, serves_imageStatus] at serves
  obtain ⟨serving, isServing, same⟩ := Option.map_eq_some_iff.mp serves
  obtain ⟨rfl, rfl⟩ := Prod.mk.inj same
  obtain ⟨compl, isTemplate⟩ | ⟨notFound, isPrior⟩ := serving_rolloutStatus isServing
  · obtain ⟨found, rfl, isComplete, shown⟩ := deploymentRollout_complete compl
    have isImage : found.template.image = serving := Option.some.inj (shown.symm.trans isTemplate)
    refine ⟨found.template, (tracked found rfl).mem_of_complete isComplete, isImage,
      imageMode found rfl isComplete, ?_⟩
    simp [StatusUpdate.servedModule, StatusUpdate.finds, isComplete]
  · obtain ⟨status, isStatus, isImage⟩ := Option.bind_eq_some_iff.mp isPrior
    obtain ⟨isStatus, notGit⟩ := Option.filter_eq_some_iff.mp isStatus
    have kept : StatusUpdate.servedModule (.image leader) seen deployment = seen.servedModule := by
      refine servedModule_of_not_found ?_
      rintro found rfl isComplete
      obtain ⟨compl, shown⟩ := deploymentRollout_of_complete (α := String) isComplete
      obtain incomplete | noTemplate := notFound
      · simp [compl] at incomplete
      · simp [shown, Template.ofPod] at noTemplate
    have noSource : status.runSource = none := by
      cases isSource : status.runSource with
      | none => rfl
      | some source => simp [isGitStatus, isSource] at notGit
    rw [kept]
    exact accounted _ _ (by simp [isStatus, CodeLocationStatus.serves, noSource, isImage])

end

/-! ### Histories -/

def PassStage.Accounted (completed : List PodTemplate) : PassStage → Prop
  | .idle => True
  | .applying seen _ _ _ | .observing seen _ =>
      Rivers.Accounted completed seen.object.status seen.servedModule
  | .patching _ status servedModule => Rivers.Accounted completed (some status) servedModule

theorem PassStage.Accounted.mono {completed later} {stage : PassStage}
    (accounted : stage.Accounted completed)
    (subset : completed ⊆ later) : stage.Accounted later := by
  cases stage with
  | idle => trivial
  | applying seen image imageReason resolved => exact Rivers.Accounted.mono accounted subset
  | observing seen update => exact Rivers.Accounted.mono accounted subset
  | patching seen status servedModule => exact Rivers.Accounted.mono accounted subset

namespace RolloutSystem

structure Sound (state : RolloutSystem) : Prop where
  deployment : ∀ found, state.deployment = some found → found.Tracked state.completed
  versions : ∀ version ∈ state.versions, Accounted state.completed version.object.status
    version.servedModule
  stages : ∀ replica, (state.stages replica).Accounted state.completed
  admitted : ∀ run ∈ state.admitted, run.RanTogether

namespace Sound

variable {state : RolloutSystem}

theorem new (object : CodeLocation) : (RolloutSystem.new object).Sound where
  deployment found isFound := by cases isFound
  versions version isVersion := by
    cases List.mem_singleton.mp isVersion
    intro image source serves
    cases serves
  stages _ := trivial
  admitted run isRun := by cases isRun

theorem setStage (sound : state.Sound) {replica stage}
    (accounted : stage.Accounted state.completed) : (state.setStage replica stage).Sound where
  deployment := sound.deployment
  versions := sound.versions
  stages other := by
    simp only [RolloutSystem.setStage]
    split
    · exact accounted
    · exact sound.stages other
  admitted := sound.admitted

theorem write (sound : state.Sound) {object servedModule}
    (accounted : Accounted state.completed object.status servedModule) :
    (state.write object servedModule).Sound where
  deployment := sound.deployment
  versions := by
    intro version isVersion
    obtain rfl | isEarlier := List.mem_cons.mp isVersion
    · exact accounted
    · exact sound.versions version isEarlier
  stages := sound.stages
  admitted := sound.admitted

theorem changeSpec (sound : state.Sound) (spec : CodeLocationSpec) :
    (state.changeSpec spec).Sound := by
  simp only [RolloutSystem.changeSpec]
  split
  · exact sound
  · exact sound.write (sound.versions state.current (List.mem_cons_self ..))

theorem report (sound : state.Sound) {status} {next : RolloutSystem}
    (stepped : state.report status = some next) : next.Sound := by
  unfold RolloutSystem.report at stepped
  split at stepped
  · cases stepped
  · rename_i found isFound
    split at stepped
    · rename_i exists'
      cases stepped
      have subset : state.completed ⊆
          (if found.RolledOut status then found.template :: state.completed else
            state.completed) := by
        split
        · exact List.subset_cons_self ..
        · exact List.Subset.refl _
      refine ⟨?_, ?_, ?_, sound.admitted⟩
      · grind [Deployment.RolledOut, Deployment.Tracked, Sound]
      · exact fun ver isVersion => (sound.versions ver isVersion).mono subset
      · exact fun replica => (sound.stages replica).mono subset
    · cases stepped

theorem startPass (sound : state.Sound) {seen} (isVersion : seen ∈ state.versions)
    (replica : String) (plan : PassPlan) : (state.startPass replica seen plan).Sound := by
  have accounted := sound.versions seen isVersion
  cases plan with
  | nothing => exact sound
  | patchUnresolved why => exact sound.setStage (accounted_unresolved accounted why)
  | patchObserved update => exact sound.setStage accounted
  | apply image imageReason resolved => exact sound.setStage accounted

theorem deploy (sound : state.Sound) (spec : CodeLocationSpec) (image : String)
    (resolved : Option ResolvedRef) :
    (state.deploy spec image resolved).Sound where
  deployment read isRead := by
    obtain rfl := Option.some.inj isRead
    exact Deployment.tracked_apply sound.deployment spec image resolved
  versions := sound.versions
  stages := sound.stages
  admitted := sound.admitted

theorem applyPass (sound : state.Sound) {replica answer next}
    (stepped : state.applyPass replica answer = some next) : next.Sound := by
  unfold RolloutSystem.applyPass at stepped
  split at stepped
  · rename_i seen image imageReason resolved isStage
    have accounted := sound.stages replica
    rw [isStage] at accounted
    have stage : (applied seen image imageReason resolved answer).Accounted state.completed := by
      unfold applied
      split
      · exact accounted
      · exact accounted
      · exact accounted
      · trivial
    cases stepped
    split
    · exact (sound.deploy seen.object.spec image resolved).setStage stage
    · exact sound.setStage stage
  · cases stepped

theorem observePass (sound : state.Sound) {replica found workspaceKept next}
    (consistent : state.Consistent (.observe replica found workspaceKept))
    (stepped : state.observePass replica found workspaceKept = some next) : next.Sound := by
  unfold RolloutSystem.observePass at stepped
  split at stepped
  · rename_i seen update isStage
    cases stepped
    have accounted := sound.stages replica
    rw [isStage] at accounted
    have tracked (read : Deployment) (isRead : (if found then state.deployment else none) =
      some read) :
        read.Tracked state.completed := by
      split at isRead
      · exact sound.deployment read isRead
      · cases isRead
    refine sound.setStage ?_
    cases update with
    | git resolution refused => exact accounted_git tracked accounted resolution refused
    | image leader =>
      refine accounted_image tracked accounted ?_ leader _
      intro read isRead compl
      split at isRead
      · rename_i isFound
        subst isFound
        exact consistent read isRead (by rw [isStage]; rfl) compl
      · cases isRead
  · cases stepped

theorem patchPass (sound : state.Sound) {replica written next}
    (stepped : state.patchPass replica written = some next) : next.Sound := by
  unfold RolloutSystem.patchPass at stepped
  split at stepped
  · grind [setStage, write, PassStage.Accounted, Sound]
  · cases stepped

theorem admitRun (sound : state.Sound) (req : RunRequest) (selfStamped : Except String Unit) {ver}
    (isVersion : ver ∈ state.versions)
    (consistent : ver.object.status.any (·.phase == some .ready) →
      ver.servedModule = some ver.object.spec.module) :
    (state.admitRun req selfStamped ver).Sound := by
  unfold RolloutSystem.admitRun
  split
  · rename_i image module ident source mutated
    obtain ⟨status, isStatus, ready, serves, rfl⟩ :=
      completeFrom_mutated (mutateRunOnCreate_mutated mutated)
    obtain ⟨template, isCompleted, sameImage, sameSource, served⟩ :=
      sound.versions ver isVersion image source (by simpa [isStatus] using serves)
    have sameModule : template.module = ver.object.spec.module :=
      Option.some.inj (served.symm.trans (consistent (by simp [isStatus, ready])))
    refine ⟨sound.deployment, sound.versions, sound.stages, ?_⟩
    intro run isRun
    obtain rfl | isEarlier := List.mem_cons.mp isRun
    · exact ⟨template, isCompleted, sameImage, sameSource, sameModule⟩
    · exact sound.admitted run isEarlier
  · exact sound

theorem after (sound : state.Sound) {action next} (stepped : state.step action = some next)
    (consistent : state.Consistent action) :
    next.Sound := by
  cases action with
  | changeSpec spec =>
    cases stepped
    exact sound.changeSpec spec
  | report status => exact sound.report stepped
  | start replica back isLeader image source => grind [startPass, step]
  | apply replica answer => exact sound.applyPass stepped
  | observe replica found workspaceKept => exact sound.observePass consistent stepped
  | patch replica written => exact sound.patchPass stepped
  | abandon replica =>
    cases stepped
    exact sound.setStage trivial
  | admitRun req selfStamped back =>
    obtain ⟨ver, isVersion, rfl⟩ := Option.map_eq_some_iff.mp stepped
    exact sound.admitRun req selfStamped (List.mem_of_getElem? isVersion) (consistent ver isVersion)

end Sound

/-- In every consistent history a run gets the parts of one completed rollout. -/
theorem admitted_ran_together (object : CodeLocation) (actions : List RolloutAction)
    (final : RolloutSystem) (performed : perform step (new object) actions = some final)
    (consistent : Stepwise step (fun state action _ => state.Consistent action)
      (new object) actions) :
    ∀ run ∈ final.admitted, run.RanTogether :=
  (consistent.invariant (fun stepped sound held => sound.after stepped held) performed
    (Sound.new object)).admitted

def servesEtl : CodeLocation where
  ns := some "data"
  name := "analytics"
  spec := { identity := "analytics", image := some "registry/etl", module := "etl" }

def rolledOutAt (generation : Int) : DeploymentStatus where
  observedGeneration := some generation
  replicas := some 1
  updatedReplicas := some 1
  readyReplicas := some 1
  availableReplicas := some 1

def leads (image : String) (source : Except GitError ResolvedRef) (generation : Int) :
    List RolloutAction :=
  [.start "a" 0 true (.resolved image "DigestPinned") source, .apply "a" .all,
    .report (rolledOutAt generation), .observe "a" true none, .patch "a" true]

def createsRun : RolloutAction :=
  .admitRun { refName := "analytics", refNs := "data" } (.ok ()) 0

def rollsOutThenRuns : List RolloutAction :=
  leads "registry/etl@sha256:1" (.error .unreachable) 1 ++ [createsRun]

theorem admitted_ran_together_etl :
    ∃ final, perform step (new servesEtl) rollsOutThenRuns = some final ∧
      final.admitted.map (fun run => (run.image, run.module)) = [("registry/etl@sha256:1", "etl")] ∧
      ∀ run ∈ final.admitted, run.RanTogether := by
  have read : (perform step (new servesEtl) rollsOutThenRuns).map
      (fun final => final.admitted.map fun run => (run.image, run.module)) =
        some [("registry/etl@sha256:1", "etl")] := by decide +kernel
  obtain ⟨final, performed, admitted⟩ := Option.map_eq_some_iff.mp read
  exact ⟨final, performed, admitted,
    admitted_ran_together servesEtl rollsOutThenRuns final performed (by decide +kernel)⟩

def changesModule : List RolloutAction :=
  leads "registry/etl@sha256:1" (.error .unreachable) 1 ++
    [.changeSpec { servesEtl.spec with module := "reports" }, createsRun]

def switchesToGitAndBack : List RolloutAction :=
  leads "registry/etl@sha256:1" (.error .unreachable) 1 ++
    .changeSpec { servesEtl.spec with git := some { url := "https://forge/etl.git", ref := {} } } ::
    leads "registry/runtime@sha256:2" (.ok { commit := "9f3c1ab" }) 2 ++
    [.start "b" 2 false .awaitingLeader (.error .unreachable), .observe "b" true none,
      .patch "b" true, .changeSpec servesEtl.spec, createsRun]

theorem admitted_apart :
    (∃ final, perform step (new servesEtl) changesModule = some final ∧
      ∃ run ∈ final.admitted, ¬run.RanTogether) ∧
      ∃ final, perform step (new servesEtl) switchesToGitAndBack = some final ∧
        ∃ run ∈ final.admitted, ¬run.RanTogether := by
  have changed : (perform step (new servesEtl) changesModule).map
      (fun final => decide (∃ run ∈ final.admitted, ¬run.RanTogether)) = some true := by
    decide +kernel
  have switched : (perform step (new servesEtl) switchesToGitAndBack).map
      (fun final => decide (∃ run ∈ final.admitted, ¬run.RanTogether)) = some true := by
    decide +kernel
  obtain ⟨final, performed, apart⟩ := Option.map_eq_some_iff.mp changed
  obtain ⟨later, performedLater, apartLater⟩ := Option.map_eq_some_iff.mp switched
  exact ⟨⟨final, performed, of_decide_eq_true apart⟩, later, performedLater,
    of_decide_eq_true apartLater⟩

end RolloutSystem

end Rivers

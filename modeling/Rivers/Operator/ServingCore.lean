import Rivers.Operator.CodeLocationCore

/-! What `codelocation/reconcile` publishes and `webhook/admission.rs` stamps. -/

namespace Rivers

/-- The container that `rivers serve` runs in: its image, its `RIVERS_RUN_SOURCE` and its arguments.
-/
structure PodTemplate where
  image : String
  source : Option RunSource := none
  module : String
  grpcPort : Int
  deriving DecidableEq, Repr

structure DeploymentStatus where
  observedGeneration : Option Int := none
  replicas : Option Int := none
  updatedReplicas : Option Int := none
  readyReplicas : Option Int := none
  availableReplicas : Option Int := none
  progressDeadlineExceeded : Bool := false
  deriving DecidableEq, Repr

structure Deployment where
  template : PodTemplate
  replicas : Int
  generation : Int := 1
  status : Option DeploymentStatus := none
  deriving DecidableEq, Repr

/-! ### `rollout.rs` -/

/-- What a rollout tells the pods of the current template by: the git tree, or in image mode the
image. -/
class Template (α : Type) where
  ofPod : PodTemplate → Option α

instance : Template RunSource where
  ofPod := PodTemplate.source

instance : Template String where
  ofPod template := some template.image

structure Rollout (α : Type) where
  template : Option α := none
  complete : Bool := false
  readyReplicas : Option Int := none
  deadlineExceeded : Bool := false

def generationObserved (deployment : Deployment) : Bool :=
  match deployment.status.bind (·.observedGeneration) with
  | some seen => deployment.generation ≤ seen
  | none => false

def noOldPods (deployment : Deployment) : Bool :=
  deployment.status.any fun status =>
    generationObserved deployment && status.replicas.getD 0 == status.updatedReplicas.getD 0

def rolloutComplete (deployment : Deployment) : Bool :=
  match deployment.status with
  | none => false
  | some status =>
      let all (count : Option Int) : Bool := deployment.replicas ≤ count.getD 0
      0 < deployment.replicas && noOldPods deployment && all status.updatedReplicas && all
        status.readyReplicas
        && all status.availableReplicas

def deploymentRollout {α : Type} [Template α] (deployment : Option Deployment) : Rollout α :=
  match deployment.bind fun found => found.status.map (found, ·) with
  | none => {}
  | some (found, status) =>
      { template := Template.ofPod found.template
        complete := rolloutComplete found
        readyReplicas := some (status.readyReplicas.getD 0)
        deadlineExceeded := generationObserved found && status.progressDeadlineExceeded }

/-! ### `image.rs` and `git/mod.rs` -/

inductive ImageError where
  | notFound
  | authFailed
  | rateLimited
  | transient
  deriving DecidableEq, Repr

namespace ImageError

def reason : ImageError → String
  | notFound => "TagNotFound"
  | authFailed => "AuthenticationFailed"
  | rateLimited => "RateLimited"
  | transient => "RegistryError"

def isTransient : ImageError → Bool
  | transient | rateLimited => true
  | notFound | authFailed => false

end ImageError

inductive ImageOutcome where
  | resolved (image reason : String)
  | awaitingLeader
  | error (error : ImageError)
  deriving DecidableEq, Repr

inductive GitError where
  | refNotFound
  | invalidRef
  | invalidUrl
  | authFailed
  | hostKeyRejected
  | knownHostsUnavailable
  | unreachable
  | rateLimited
  | malformed
  deriving DecidableEq, Repr

namespace GitError

def reason : GitError → String
  | refNotFound => "RefNotFound"
  | invalidRef => "InvalidRef"
  | invalidUrl => "InvalidUrl"
  | authFailed => "GitAuthFailed"
  | hostKeyRejected | knownHostsUnavailable => "GitHostKeyRejected"
  | unreachable => "GitUnreachable"
  | rateLimited => "GitRateLimited"
  | malformed => "GitMalformedResponse"

def isTransient : GitError → Bool
  | unreachable | rateLimited => true
  | _ => false

end GitError

structure ResolvedRef where
  commit : String
  refName : Option String := none
  fetchedAt : Option Int := none
  deriving DecidableEq, Repr

/-! ### `status.rs` -/

def isGitStatus (status : CodeLocationStatus) : Bool :=
  status.runSource.isSome || status.resolvedCommit.isSome || status.resolvedRef.isSome
    || status.lastFetchedAt.isSome || status.conditions.any (·.type == .sourceResolved)

structure RolloutStatus (α : Type) where
  serving : Option α
  ready : Bool
  failed : Bool
  phase : CodeLocationPhase
  reason : String

def rolloutStatus {α : Type} (spec : CodeLocationSpec) (rollout : Rollout α)
    (priorServing : Option α) (refused : Bool) : RolloutStatus α :=
  let serving :=
    match rollout.template with
    | some template => if rollout.complete then some template else priorServing
    | none => priorServing
  let ready := serving.isSome && 0 < spec.replicas && rollout.readyReplicas.any (spec.replicas ≤ ·)
  let failed := refused && serving.isNone
  { serving, ready, failed
    phase := if ready then .ready else if failed then .failed else .deploying
    reason :=
      if refused then "ApplyFailed"
      else if rollout.readyReplicas.isNone then "NoDeploymentStatus"
      else if ready && rollout.complete then "MinimumReplicasAvailable"
      else if rollout.deadlineExceeded then "ProgressDeadlineExceeded"
      else "RollingOut" }

/-- The status of a pass in `phase`; what the pods run stays until the pass sets it. -/
def nextStatus (object : CodeLocation) (phase : CodeLocationPhase) : CodeLocationStatus :=
  { object.status.getD {} with
    phase := some phase
    observedGeneration := some object.generation
    grpcEndpoint := none
    readyReplicas := none
    conditions := [] }

def keptConditions (prior : Option CodeLocationStatus) (kinds : List CodeLocationConditionType) :
    List CodeLocationCondition :=
  (prior.toList.flatMap (·.conditions)).filter (kinds.contains ·.type)

def laterFetch (prior : Option CodeLocationStatus) (fetched : Int) : Int :=
  match (prior.bind (·.lastFetchedAt)).filter (fetched ≤ ·) with
  | some known => known
  | none => fetched

inductive GitResolution where
  | imageResolved (image imageReason : String) (source : Except GitError ResolvedRef)
  | imageFailed (error : ImageError)

def CodeLocation.endpoint (object : CodeLocation) : String :=
  let name := object.name
  let ns := object.ns.getD ""
  let port := object.spec.grpcPort
  s!"{name}-grpc.{ns}.svc.cluster.local:{port}"

def readyCondition {α : Type} (rollout : RolloutStatus α) : CodeLocationCondition where
  type := .deploymentAvailable
  status := if rollout.ready then .true else .false
  reason := rollout.reason

/-- The conditions a git pass publishes of its resolution; a follower keeps the leader's. -/
def GitResolution.conditions (prior : Option CodeLocationStatus) :
    Option GitResolution → List CodeLocationCondition
  | some (.imageResolved _ imageReason source) =>
      [⟨.imageResolved, .true, imageReason⟩,
        match source with
        | .ok resolved =>
            ⟨.sourceResolved, .true,
              if resolved.refName.isNone then "CommitPinned" else "CommitResolved"⟩
        | .error error => ⟨.sourceResolved, .false, error.reason⟩]
  | some (.imageFailed error) =>
      ⟨.imageResolved, .false, error.reason⟩ :: keptConditions prior [.sourceResolved]
  | none => keptConditions prior [.imageResolved, .sourceResolved]

def gitStatus (object : CodeLocation) (resolution : Option GitResolution)
    (observed : Rollout RunSource) (refused : Bool) : CodeLocationStatus :=
  let prior := object.status
  let rollout := rolloutStatus object.spec observed (prior.bind (·.runSource)) refused
  let serving := rollout.serving
  let base := nextStatus object rollout.phase
  { base with
    resolvedImage := serving.map (·.runtimeImage)
    grpcEndpoint := if rollout.failed then none else some object.endpoint
    readyReplicas := observed.readyReplicas.filter fun _ => !rollout.failed
    resolvedCommit := serving.map (·.git.commit)
    resolvedRef := serving.bind (·.git.ref)
    runSource := serving
    lastFetchedAt :=
      match resolution with
      | some (.imageResolved _ _ (.ok resolved)) => resolved.fetchedAt.map (laterFetch prior)
      | _ => base.lastFetchedAt
    conditions := GitResolution.conditions prior resolution ++ [readyCondition rollout] }

structure ImagePass where
  image : String
  imageReason : String
  workspaceKept : Option String := none
  deriving DecidableEq, Repr

def imageStatus (object : CodeLocation) (leader : Option ImagePass) (observed : Rollout String) :
    CodeLocationStatus :=
  let prior := object.status
  let priorServing := (prior.filter fun status => !isGitStatus status).bind (·.resolvedImage)
  let rollout := rolloutStatus object.spec observed priorServing false
  { phase := some rollout.phase
    observedGeneration := some object.generation
    grpcEndpoint := some object.endpoint
    readyReplicas := observed.readyReplicas
    resolvedImage := rollout.serving
    conditions :=
      (match leader with
        | some pass => [⟨.imageResolved, .true, pass.imageReason⟩]
        | none => keptConditions prior [.imageResolved])
      ++ readyCondition rollout ::
      (match leader with
        | some pass => pass.workspaceKept.toList.map (⟨.workspaceKept, .true, ·⟩)
        | none => keptConditions prior [.workspaceKept]) }

inductive Unresolved where
  | awaitingLeader
  | image (error : ImageError)
  | source (error : GitError)
  deriving DecidableEq, Repr

def unresolvedStatus (object : CodeLocation) (why : Unresolved) : CodeLocationStatus :=
  let (phase, condition) : CodeLocationPhase × CodeLocationCondition :=
    match why with
    | .awaitingLeader => (.pending, ⟨.imageResolved, .unknown, "AwaitingLeader"⟩)
    | .image error => (.failed, ⟨.imageResolved, .false, error.reason⟩)
    | .source error => (.failed, ⟨.sourceResolved, .false, error.reason⟩)
  { nextStatus object phase with
    conditions := condition ::
      if object.spec.isGit then [] else keptConditions object.status [.workspaceKept] }

/-! ### `reconcile/mod.rs` -/

inductive StatusUpdate where
  | git (resolution : Option GitResolution) (refused : Bool)
  | image (leader : Option (String × String))

inductive PassPlan where
  | nothing
  | patchUnresolved (why : Unresolved)
  | patchObserved (update : StatusUpdate)
  | apply (image imageReason : String) (resolved : Option ResolvedRef)

def followImage (prior : Option CodeLocationStatus) : PassPlan :=
  if prior.any isGitStatus then .nothing
  else if prior.any fun status => status.conditions.any fun condition =>
      condition.type == .imageResolved && condition.status == .true then .patchObserved
        (.image none)
  else if prior.any (·.phase == some .failed) then .nothing
  else .patchUnresolved .awaitingLeader

def followGit (prior : Option CodeLocationStatus) : PassPlan :=
  if prior.any fun status => status.phase == some .failed || status.conditions.any fun condition =>
      condition.type == .deploymentAvailable && condition.reason == "ApplyFailed" then .nothing
  else if prior.any fun status => status.runSource.isSome ||
      status.conditions.any (·.type == .sourceResolved) then
    .patchObserved (.git none false)
  else .patchUnresolved .awaitingLeader

def leadImage : ImageOutcome → PassPlan
  | .resolved image reason => .apply image reason none
  | .awaitingLeader => .patchUnresolved .awaitingLeader
  | .error error => .patchUnresolved (.image error)

def leadGit (prior : Option CodeLocationStatus) (image : ImageOutcome)
    (source : Except GitError ResolvedRef) :
    PassPlan :=
  let serving := prior.any (·.runSource.isSome)
  match image with
  | .awaitingLeader => .patchUnresolved .awaitingLeader
  | .error error =>
      if error.isTransient && serving then .patchObserved (.git (some (.imageFailed error)) false)
      else .patchUnresolved (.image error)
  | .resolved image reason =>
      match source with
      | .ok resolved => .apply image reason (some resolved)
      | .error error =>
          if error.isTransient && serving then
            .patchObserved (.git (some (.imageResolved image reason (.error error))) false)
          else .patchUnresolved (.source error)

def reconcileCodeLocation (object : CodeLocation) (isLeader : Bool) (image : ImageOutcome)
    (source : Except GitError ResolvedRef) : PassPlan :=
  if object.spec.isGit then
    if isLeader then leadGit object.status image source else followGit object.status
  else if isLeader then leadImage image
  else followImage object.status

def runSourceOf (spec : CodeLocationSpec) (image : String) (resolved : Option ResolvedRef) :
    Option RunSource :=
  spec.git.bind fun git => resolved.map fun resolved =>
    { git :=
        { url := git.url
          commit := resolved.commit
          ref := resolved.refName
          path := git.path
          secretName := git.secretRef }
      dependencies := git.dependencies
      runtimeImage := image }

def buildTemplate (spec : CodeLocationSpec) (image : String) (resolved : Option ResolvedRef) :
    PodTemplate where
  image := image
  source := runSourceOf spec image resolved
  module := spec.module
  grpcPort := spec.grpcPort

def applyDeployment (current : Option Deployment) (template : PodTemplate) (replicas : Int) :
    Deployment :=
  match current with
  | none => { template, replicas }
  | some found =>
      if found.template = template ∧ found.replicas = replicas then found
      else { found with template, replicas, generation := found.generation + 1 }

/-! ### `webhook/admission.rs` -/

structure RunRequest where
  refName : String
  refNs : String
  image : String := ""
  source : Option RunSource := none
  deriving DecidableEq, Repr

inductive AdmissionOutcome where
  | mutated (image module identity : String) (source : Option RunSource)
  | acceptedAsIs
  | rejected (message : String)
  deriving DecidableEq, Repr

def afterFirst (separator : List Char) : List Char → Option (List Char)
  | [] => none
  | c :: rest =>
      if separator.isPrefixOf (c :: rest) then some ((c :: rest).drop separator.length)
      else afterFirst separator rest

def isDigestReference (reference : String) : Bool :=
  match afterFirst "@sha256:".toList reference.toList with
  | none => false
  | some digest =>
      digest.length == 64 && digest.all fun c =>
        c.isDigit || ('a' ≤ c && c ≤ 'f') || ('A' ≤ c && c ≤ 'F')

/-- The part of `mutate_run_on_create` that completes a run from the code location it looked up. -/
def completeFrom (request : RunRequest) (object : CodeLocation) : AdmissionOutcome :=
  let refNs := request.refNs
  let refName := request.refName
  match object.status.filter (·.phase == some .ready) with
  | none =>
      let phase := ((object.status.bind (·.phase)).map CodeLocationPhase.asStr).getD "Unknown"
      .rejected s!"codeLocation '{refNs}/{refName}' is not Ready (phase={phase})"
  | some status =>
      let source := status.runSource
      if source.isNone && object.spec.git.isSome then
        .rejected (s!"codeLocation '{refNs}/{refName}' has no rolled-out git tree yet; " ++
          "status.runSource is empty — retry once its rollout finishes")
      else
        let image :=
          match source with
          | some source => source.runtimeImage
          | none => status.resolvedImage.getD ""
        if image.isEmpty then
          .rejected s!"codeLocation '{refNs}/{refName}' has no resolved image yet; status.resolvedImage is empty"
        else .mutated image object.spec.module object.spec.identity source

/-- `selfStamped` is the answer of `check_self_stamped_source`, `found` that of the lookup. -/
def mutateRunOnCreate (request : RunRequest) (selfStamped : Except String Unit)
    (found : Except String (Option CodeLocation)) : AdmissionOutcome :=
  let refNs := request.refNs
  let refName := request.refName
  let given := request.image
  if refName.isEmpty then .rejected "spec.codeLocationRef.name is required"
  else if !given.isEmpty then
    if !isDigestReference given then
      .rejected (s!"spec.image '{given}' is not a digest reference (must be of the form " ++
        "'registry/repo@sha256:...'); omit it to let the webhook resolve from the CodeLocation")
    else
      match request.source, selfStamped with
      | some _, .error message => .rejected message
      | _, _ => .acceptedAsIs
  else if request.source.isSome then
    .rejected ("spec.source is stamped by the webhook from the CodeLocation — remove it " ++
      "(pre-set spec.image to a digest for the self-stamped escape hatch)")
  else
    match found with
    | .error error => .rejected s!"live lookup of codeLocation '{refNs}/{refName}' failed: {error}"
    | .ok none => .rejected s!"codeLocation '{refName}' not found in namespace '{refNs}'"
    | .ok (some object) => completeFrom request object

end Rivers

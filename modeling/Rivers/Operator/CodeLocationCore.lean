import Rivers.Lib.FiniteMap

/-! The `CodeLocation` custom resource of `rivers-crd`. -/

namespace Rivers

inductive DependencyMode where
  | auto
  | uvSync
  | requirements
  | none
  deriving DecidableEq, Repr

structure Dependencies where
  mode : DependencyMode := .auto
  files : List String := []
  extras : List String := []
  groups : List String := []
  timeoutSeconds : Option Nat := none
  deriving DecidableEq, Repr

structure GitRef where
  branch : Option String := none
  tag : Option String := none
  commit : Option String := none
  deriving DecidableEq, Repr

structure GitSource where
  url : String
  ref : GitRef
  path : Option String := none
  secretRef : Option String := none
  dependencies : Dependencies := {}
  deriving DecidableEq, Repr

structure GitCoordinates where
  url : String
  commit : String
  ref : Option String := none
  path : Option String := none
  secretName : Option String := none
  deriving DecidableEq, Repr

structure RunSource where
  git : GitCoordinates
  dependencies : Dependencies := {}
  runtimeImage : String
  deriving DecidableEq, Repr

structure CodeLocationSpec where
  identity : String
  image : Option String := none
  git : Option GitSource := none
  tag : Option String := none
  digest : Option String := none
  module : String
  replicas : Int := 1
  grpcPort : Int := 3001
  deriving DecidableEq, Repr

def CodeLocationSpec.isGit (spec : CodeLocationSpec) : Bool :=
  spec.git.isSome

inductive CodeLocationPhase where
  | pending
  | deploying
  | ready
  | failed
  deriving DecidableEq, Repr

def CodeLocationPhase.asStr : CodeLocationPhase → String
  | .pending => "Pending"
  | .deploying => "Deploying"
  | .ready => "Ready"
  | .failed => "Failed"

inductive CodeLocationConditionType where
  | imageResolved
  | sourceResolved
  | deploymentAvailable
  | workspaceKept
  deriving DecidableEq, Repr

inductive ConditionStatus where
  | true
  | false
  | unknown
  deriving DecidableEq, Repr

structure CodeLocationCondition where
  type : CodeLocationConditionType
  status : ConditionStatus
  reason : String
  deriving DecidableEq, Repr

structure CodeLocationStatus where
  phase : Option CodeLocationPhase := none
  observedGeneration : Option Int := none
  resolvedImage : Option String := none
  grpcEndpoint : Option String := none
  readyReplicas : Option Int := none
  conditions : List CodeLocationCondition := []
  resolvedCommit : Option String := none
  resolvedRef : Option String := none
  lastFetchedAt : Option Int := none
  runSource : Option RunSource := none
  deriving DecidableEq, Repr

structure CodeLocation where
  ns : Option String
  name : String
  generation : Int := 1
  spec : CodeLocationSpec
  status : Option CodeLocationStatus := none
  deriving DecidableEq, Repr

end Rivers

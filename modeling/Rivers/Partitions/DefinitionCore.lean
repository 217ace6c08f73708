import Rivers.PartitionKey
import Rivers.Partitions.TimeGridCore

/-! Partition definitions of `partitions/definition`. -/

namespace Rivers

inductive PartitionsDefinition where
  | static (keys : List String)
  | timeWindow (window : TimeWindow)
  | multi (dimensions : List (String × PartitionsDefinition))
  | dynamic (name : String)

inductive DefinitionError where
  | window (reason : TimeGridError)
  | dynamicKeys
  | notSingleDimension
  | noKeys
  | emptyKey
  | reservedCharacter (text : String) (character : Char)
  | noSchedule
  | twoSchedules
  | intervalTooSmall
  | startNotOnSecond
  | keyDoesNotParse (key : String)
  | keyParsesElsewhere (key : String)
  | noDimensions
  | duplicateDimension (name : String)
  | nestedMulti
  | emptyDimensionName
  | emptyNamespace
  deriving DecidableEq

def reservedDisplayChar (key : String) : Option Char :=
  ['|', ','].find? fun character => key.toList.contains character

namespace TimeWindow

variable (library : TimeLibrary) (window : TimeWindow)

def roundTripFailure (tick : DateTime) : Option DefinitionError :=
  let key := library.strftime tick window.fmt
  match reservedDisplayChar key with
  | some character => some (.reservedCharacter key character)
  | none =>
      match library.parseKeyDatetime key window.fmt with
      | none => some (.keyDoesNotParse key)
      | some parsed => if parsed = tick then none else some (.keyParsesElsewhere key)

def probeHorizon : DateTime :=
  window.start.saturatingAdd (35064 * 3600 * 1000000000)

def validateFmt : Except DefinitionError Unit :=
  if window.cronSchedule.isSome ∧ window.start.subsecNanosecond ≠ 0 then .error .startNotOnSecond
  else
    let bound := window.endTime.elim window.probeHorizon (min · window.probeHorizon)
    match window.ticks library bound, window.ticks library (window.endTime.getD DateTime.max) with
    | .error reason, _ | _, .error reason => .error (.window reason)
    | .ok ticks, .ok allTicks =>
        let probed := ticks.take 1024
        match probed.findSome? (window.roundTripFailure library) with
        | some failure => .error failure
        | none =>
            if 2 ≤ probed.length then .ok ()
            else
              match (allTicks.take 2).findSome? (window.roundTripFailure library) with
              | some failure => .error failure
              | none => .ok ()

def validate : Except DefinitionError Unit :=
  match window.cronSchedule, window.intervalNanos with
  | none, none => .error .noSchedule
  | some _, some _ => .error .twoSchedules
  | none, some interval =>
      if interval ≤ 0 then .error .intervalTooSmall else window.validateFmt library
  | some _, none => window.validateFmt library

end TimeWindow

namespace PartitionsDefinition

variable (library : TimeLibrary)

def variantName : PartitionsDefinition → String
  | .static _ => "Static"
  | .timeWindow _ => "TimeWindow"
  | .multi _ => "Multi"
  | .dynamic _ => "Dynamic"

def sameVariant (definition other : PartitionsDefinition) : Bool :=
  definition.variantName = other.variantName

section Validation

def validateStaticKey (key : String) : Except DefinitionError Unit :=
  if key = "" then .error .emptyKey
  else
    match reservedDisplayChar key with
    | some character => .error (.reservedCharacter key character)
    | none => .ok ()

def validateDimensionName (name : String) : Except DefinitionError Unit :=
  if name = "" then .error .emptyDimensionName
  else
    match ['|', ',', '='].find? fun character => name.toList.contains character with
    | some character => .error (.reservedCharacter name character)
    | none => .ok ()

def duplicateName : (seen : List String) → List String → Option String
  | _, [] => none
  | seen, name :: names => if name ∈ seen then some name else duplicateName (name :: seen) names

def validateSingleDim : PartitionsDefinition → Except DefinitionError Unit
  | .static keys => if keys = [] then .error .noKeys else keys.forM validateStaticKey
  | .timeWindow window => window.validate library
  | .multi _ => .error .nestedMulti
  | .dynamic name => if name = "" then .error .emptyNamespace else .ok ()

def validateDefinition : PartitionsDefinition → Except DefinitionError Unit
  | .multi dimensions =>
      if dimensions = [] then .error .noDimensions
      else
        match duplicateName [] (dimensions.map (·.1)) with
        | some name => .error (.duplicateDimension name)
        | none => dimensions.forM fun (name, definition) => do
            -- a nested definition is refused before its name is looked at
            match definition with
            | .multi _ => .error .nestedMulti
            | single =>
                validateDimensionName name
                single.validateSingleDim library
  | single => single.validateSingleDim library

variable {library}

theorem nodup_of_duplicateName {seen names} (none : duplicateName seen names = .none) :
    names.Nodup ∧ ∀ name ∈ names, name ∉ seen := by
  induction names generalizing seen with
  | nil => simp
  | cons name names ih => grind [duplicateName]

theorem nodup_of_validate {dimensions}
    (valid : (multi dimensions).validateDefinition library = .ok ()) :
    (dimensions.map (·.1)).Nodup := by
  grind [nodup_of_duplicateName, validateDefinition]

end Validation

section Keys

variable (bound : TimeWindow → DateTime)

def singleDimKeys : PartitionsDefinition → Except DefinitionError (List String)
  | .static keys => .ok keys
  | .timeWindow window =>
      match window.ticks library (bound window) with
      | .error reason => .error (.window reason)
      | .ok ticks => .ok (ticks.map (library.strftime · window.fmt))
  | .multi _ => .error .notSingleDimension
  | .dynamic _ => .error .dynamicKeys

def dimensionKeys : List (String × PartitionsDefinition) → Except DefinitionError (List Dimension)
  | [] => .ok []
  | (name, definition) :: rest => do
      let keys ← definition.singleDimKeys library bound
      let others ← dimensionKeys rest
      .ok ((name, keys) :: others)

def partitionKeys : PartitionsDefinition → Except DefinitionError (List PartitionKey)
  | .multi dimensions =>
      (dimensionKeys library bound dimensions).map fun keys => (PartitionKey.combos keys).map .multi
  | single => (single.singleDimKeys library bound).map fun keys => keys.map fun key => .single [key]

end Keys

variable (clock : DateTime)

def enumerateSingleDimKeys (definition : PartitionsDefinition) :
    Except DefinitionError (List String) :=
  definition.singleDimKeys library fun window => window.endBound clock

def getPartitionKeys (definition : PartitionsDefinition) :
    Except DefinitionError (List PartitionKey) :=
  definition.partitionKeys library fun window => window.endBound clock

def cappedEnd (cap : DateTime) (window : TimeWindow) : DateTime :=
  window.endTime.elim cap (min · cap)

def enumerateSingleDimKeysCapped (definition : PartitionsDefinition) (cap : DateTime) :
    Except DefinitionError (List String) :=
  definition.singleDimKeys library (cappedEnd cap)

def getPartitionKeysCapped (definition : PartitionsDefinition) (cap : DateTime) :
    Except DefinitionError (List PartitionKey) :=
  definition.partitionKeys library (cappedEnd cap)

section Acceptance

def validateSingle (values : List String) : PartitionsDefinition → Except DefinitionError Bool
  | .static keys => .ok (!values.isEmpty && values.all fun value => value ∈ keys)
  | .timeWindow window =>
      match window.validateTimeWindowKey library clock values with
      | .error reason => .error (.window reason)
      | .ok valid => .ok valid
  | .dynamic _ => .ok (!values.isEmpty)
  | .multi _ => .ok false

def validateEach (definition : PartitionsDefinition) (values : List String) :
    Except DefinitionError Bool :=
  values.foldlM (fun valid value =>
    if valid then definition.validateSingle library clock [value] else .ok false) true

def validateDims (dims : List Dimension) :
    List (String × PartitionsDefinition) → Except DefinitionError Bool
  | [] => .ok true
  | (name, definition) :: rest =>
      match dims.lookup name with
      | none | some [] => .ok false
      | some values => do
          if ← definition.validateEach library clock values then validateDims dims rest
            else .ok false

mutual

def validateRaw (definition : PartitionsDefinition) : RawPartitionKey → Except DefinitionError Bool
  | .single values => definition.validateSingle library clock values
  | .multi dims =>
      match definition with
      | .multi dimensions =>
          if dims.length ≠ dimensions.length then .ok false
          else validateDims library clock dims dimensions
      | _ => .ok false
  | .set [] => .ok false
  | .set (key :: keys) => validateRawList definition (key :: keys)

def validateRawList (definition : PartitionsDefinition) :
    List RawPartitionKey → Except DefinitionError Bool
  | [] => .ok true
  | key :: keys => do
      if ← validateRaw definition key then validateRawList definition keys else .ok false

end

def validatePartitionKey (definition : PartitionsDefinition) (key : PartitionKey) :
    Except DefinitionError Bool :=
  definition.validateRaw library clock key.raw

end Acceptance

end PartitionsDefinition

end Rivers

import Rivers.Condition.PartitionCore
import Rivers.Partitions.DefinitionCore

/-! Partition mappings of `partitions/mapping`. -/

namespace Rivers

open FiniteMap

inductive PartitionMapping where
  | identity
  | allPartitions
  | static (mapping : HashMap String String)
  | timeWindow (offset : Int)
  | multi (dimensionMappings : List (String × String × PartitionMapping))
  | multiToSingle (dimensionName : String) (partitionMapping : PartitionMapping)
  | specificPartitions (partitionKeys : List String)
  | forKeys (selectors : List (PartitionKey → Bool))
  | subset

inductive Side where
  | downstream
  | upstream
  deriving DecidableEq, Repr

inductive DimensionErrorKind where
  | bothSidesMulti
  | neitherSideMulti (downstream upstream : String)
  | multiUpstreamDimMissing (dim : String)
  | multiDownstreamDimMissing (dim : String)
  | multiToSingleDimMissing (dim : String) (side : Side) (available : List String)
  | missingMapping (dim : String)
  | targetedTwice (dim : String)
  | notCovered (dim : String)
  deriving DecidableEq

inductive EdgeDefect where
  | definition (reason : DefinitionError)
  | window (reason : TimeGridError)
  | formatsDiffer (down up : String)
  | intervalNotMultiple
  | startNotAligned
  | notOnUpstreamGrid (time : DateTime)
  | namespacesDiffer (down up : String)
  | keysMissingUpstream (missing : List String)
  | dimensionsDiffer (down up : List String)
  deriving DecidableEq

/-- Of the keys that are not in a definition the source reports one, in the order of its hash map.
-/
inductive MappingValidationError where
  | definitionTypeMismatch (mapping downstream upstream : String)
  | requiredDefinitionType (mapping : String) (side : Side) (expected found : String)
  | keyNotInDefinition (keys : Finset String) (side : Side) (mapping : String)
  | incompatibleMappingForShape (mapping : String)
  | upstreamKeysNotSubset (extras : List String)
  | dimension (kind : DimensionErrorKind)
  | inDimension (dim : String) (source : MappingValidationError)
  | definitionError (defect : EdgeDefect)

inductive KeyMappingError where
  | emptyKey
  | needsSingleKey (mapping : String)
  | needsMultiKey
  | upstreamNotPartitioned
  | upstreamNotMulti
  | notTimeWindow
  | shift (reason : TimeGridError)
  | definition (reason : DefinitionError)
  | notAPartition (shifted : String)
  | missingDimension (dim : String)
  | producedMulti
  | skipSemantics (mapping : String)
  | batchedKeys

inductive UpstreamKeyResolution where
  | load (key : Option PartitionKey)
  | skip

inductive MappingResolutionError where
  | missingDownstreamKey (mapping : String)
  | upstreamNotPartitioned (mapping : String)
  | definition (reason : DefinitionError)
  | keyMappingFailed (reason : KeyMappingError)

def PartitionsDefinition.dimensionDef (definition : PartitionsDefinition) (name : String) :
    Option PartitionsDefinition :=
  match definition with
  | .multi dimensions => dimensions.lookup name
  | _ => none

namespace PartitionMapping

variable (library : TimeLibrary) (clock : DateTime)

section MapKey

/-- The time-window branch of `map_key`: shifted on the upstream grid, and a partition there. -/
def mapTimeKey (offset : Int) (key : PartitionKey) (upstream : Option PartitionsDefinition) :
    Except KeyMappingError PartitionKey :=
  if offset = 0 then .ok key
  else
    match key.raw with
    | .single [] => .error .emptyKey
    | .single (value :: _) =>
        match upstream with
        | none => .error .upstreamNotPartitioned
        | some (.timeWindow window) =>
            match window.shiftKey library clock value offset with
            | .error reason => .error (.shift reason)
            | .ok shifted =>
                let shiftedKey := PartitionKey.single [shifted]
                match (PartitionsDefinition.timeWindow window).validatePartitionKey library clock
                    shiftedKey with
                | .error reason => .error (.definition reason)
                | .ok valid => if valid then .ok shiftedKey else .error (.notAPartition shifted)
        | some _ => .error .notTimeWindow
    | _ => .error (.needsSingleKey "TimeWindow")

def fanOut (dimensionName : String) (values : List String) :
    List (String × PartitionsDefinition) → Except KeyMappingError (List Dimension)
  | [] => .ok []
  | (name, definition) :: rest => do
      let own ←
        if name = dimensionName then .ok values
        else
          match definition.enumerateSingleDimKeys library clock with
          | .error reason => .error (.definition reason)
          | .ok keys => .ok keys
      let others ← fanOut dimensionName values rest
      .ok ((name, own) :: others)

mutual

def mapKey (mapping : PartitionMapping) (key : PartitionKey)
    (upstream : Option PartitionsDefinition) :
    Except KeyMappingError PartitionKey :=
  match mapping with
  | .identity | .allPartitions => .ok key
  | .static table =>
      match key.raw with
      | .single [] => .error .emptyKey
      | .single (value :: _) =>
          match table.lookup value with
          | some upstreamValue => .ok (.single [upstreamValue])
          | none => .ok key
      | _ => .error (.needsSingleKey "Static")
  | .timeWindow offset => mapTimeKey library clock offset key upstream
  | .multi dimensionMappings =>
      match key.raw with
      | .multi dims => (mapDims dimensionMappings dims upstream).map .multi
      | _ => .error .needsMultiKey
  | .specificPartitions keys => .ok (.single keys)
  | .forKeys _ => .error (.skipSemantics "ForKeys")
  | .subset => .error (.skipSemantics "Subset")
  | .multiToSingle dimensionName inner =>
      match key.raw with
      | .single values =>
          match upstream with
          | none => .error .upstreamNotPartitioned
          | some (.multi dimensions) => do
              let mapped ← mapKey inner (.single values) (dimensions.lookup dimensionName)
              match mapped.raw with
              | .single mappedValues =>
                  (fanOut library clock dimensionName mappedValues dimensions).map .multi
              | _ => .error .producedMulti
          | some _ => .error .upstreamNotMulti
      | .multi dims =>
          match dims.lookup dimensionName with
          | none => .error (.missingDimension dimensionName)
          | some values => mapKey inner (.single values) upstream
      | .set _ => .error .batchedKeys

def mapDims (dimensionMappings : List (String × String × PartitionMapping)) (dims : List Dimension)
    (upstream : Option PartitionsDefinition) : Except KeyMappingError (List Dimension) :=
  match dimensionMappings with
  | [] => .ok []
  | (upstreamDim, downstreamDim, perDim) :: rest =>
      match dims.lookup downstreamDim with
      | none => .error (.missingDimension downstreamDim)
      | some values => do
          let mapped ← mapKey perDim (.single values) (upstream.bind (·.dimensionDef upstreamDim))
          match mapped.raw with
          | .single mappedValues =>
              let others ← mapDims rest dims upstream
              .ok ((upstreamDim, mappedValues) :: others)
          | _ => .error .producedMulti

end

/-- `resolve_upstream_key`: what the executor loads of the upstream for a downstream key. -/
def resolveUpstreamKey (mapping : PartitionMapping) (key : Option PartitionKey)
    (upstream : Option PartitionsDefinition) : Except MappingResolutionError
    UpstreamKeyResolution :=
  match mapping with
  | .specificPartitions keys => .ok (.load (some (.single keys)))
  | .forKeys selectors =>
      match key with
      | none => .error (.missingDownstreamKey "ForKeys")
      | some key => if selectors.any (· key) then .ok (.load none) else .ok .skip
  | .subset =>
      match key, upstream with
      | none, _ => .error (.missingDownstreamKey "Subset")
      | some _, none => .error (.upstreamNotPartitioned "Subset")
      | some key, some definition =>
          match definition.validatePartitionKey library clock key with
          | .error reason => .error (.definition reason)
          | .ok valid => if valid then .ok (.load (some key)) else .ok .skip
  | mapping =>
      match key with
      | none => .ok (.load none)
      | some key =>
          match mapping.mapKey library clock key upstream with
          | .error reason => .error (.keyMappingFailed reason)
          | .ok mapped => .ok (.load (some mapped))

end MapKey

end PartitionMapping

namespace TimeWindow

variable (library : TimeLibrary) (down up : TimeWindow)

def onUpstream (time : DateTime) : Except EdgeDefect Bool :=
  match up.cronSchedule, up.intervalNanos with
  | some expr, _ =>
      match library.parseCron expr with
      | none => .error (.window (.invalidCron expr))
      | some cron => .ok (cron.contains time)
  | none, some interval =>
      .ok (0 < interval && (nanosBetween up.start time).any fun nanos => nanos % interval = 0)
  | none, none => .ok false

def offGrid (time : DateTime) : Option EdgeDefect :=
  match up.onUpstream library time with
  | .error defect => some defect
  | .ok true => none
  | .ok false => some (.notOnUpstreamGrid time)

/-- The ticks that the grid check walks; it looks at the schedule before the interval. -/
def walkTicks (endTime : DateTime) : Except EdgeDefect (List DateTime) :=
  match down.cronSchedule, down.intervalNanos with
  | some expr, _ =>
      match library.parseCron expr with
      | none => .error (.window (.invalidCron expr))
      | some cron => .ok (cron.ticksIn down.start endTime)
  | none, some interval => .ok (intervalTicksIn interval down.start endTime)
  | none, none => .ok []

/-- `validate_time_window_grid_compat`: the downstream grid is a subgrid of the upstream one. -/
def gridCompat : Except EdgeDefect Unit :=
  if down.fmt ≠ up.fmt then .error (.formatsDiffer down.fmt up.fmt)
  else
    match down.cronSchedule, down.intervalNanos, up.cronSchedule, up.intervalNanos with
    | none, some downInterval, none, some upInterval =>
        if upInterval ≤ 0 ∨ downInterval ≤ 0 ∨ downInterval.tmod upInterval ≠ 0 then
          .error .intervalNotMultiple
        else if (nanosBetween up.start down.start).any fun nanos =>
            nanos % upInterval = 0 then .ok ()
        else .error .startNotAligned
    | _, _, _, _ =>
        let horizon := down.endTime.elim down.probeHorizon (min · down.probeHorizon)
        match down.walkTicks library horizon, down.walkTicks library
          (down.endTime.getD DateTime.max) with
        | .error defect, _ | _, .error defect => .error defect
        | .ok ticks, .ok allTicks =>
            let probed := ticks.take 1024
            match probed.findSome? (up.offGrid library) with
            | some defect => .error defect
            | none =>
                if 2 ≤ probed.length then .ok ()
                else
                  match (allTicks.take 2).findSome? (up.offGrid library) with
                  | some defect => .error defect
                  | none => .ok ()

end TimeWindow

namespace PartitionMapping

variable (library : TimeLibrary) (clock : DateTime)

def variantName : PartitionMapping → String
  | .identity => "Identity"
  | .allPartitions => "AllPartitions"
  | .static _ => "Static"
  | .timeWindow _ => "TimeWindow"
  | .multi _ => "Multi"
  | .multiToSingle _ _ => "MultiToSingle"
  | .specificPartitions _ => "SpecificPartitions"
  | .forKeys _ => "ForKeys"
  | .subset => "Subset"

section Validation

def gridCompat (down up : PartitionsDefinition) : Except MappingValidationError Unit :=
  match down, up with
  | .timeWindow downWindow, .timeWindow upWindow =>
      match downWindow.gridCompat library upWindow with
      | .error defect => .error (.definitionError defect)
      | .ok () => .ok ()
  | _, _ => .ok ()

def validateIdentityPair (down up : PartitionsDefinition) : Except MappingValidationError Unit :=
  match down, up with
  | .timeWindow _, .timeWindow _ => gridCompat library down up
  | .dynamic downName, .dynamic upName =>
      if downName ≠ upName then .error (.definitionError (.namespacesDiffer downName upName))
      else .ok ()
  | .static downKeys, .static upKeys =>
      let missing := downKeys.filter (· ∉ upKeys)
      if missing ≠ [] then .error (.definitionError (.keysMissingUpstream missing)) else .ok ()
  | _, _ => .ok ()

def inDimension (dim : String) (result : Except MappingValidationError Unit) :
    Except MappingValidationError Unit :=
  match result with
  | .error source => .error (.inDimension dim source)
  | .ok () => .ok ()

mutual

def validateIdentity (down up : PartitionsDefinition) : Except MappingValidationError Unit :=
  if !down.sameVariant up then
    .error (.definitionTypeMismatch "Identity" down.variantName up.variantName)
  else
    match down, up with
    | .multi downDims, .multi upDims =>
        let downNames : Finset String := (downDims.map (·.1)).toFinset
        let upNames : Finset String := (upDims.map (·.1)).toFinset
        if downNames ≠ upNames then
          .error (.definitionError (.dimensionsDiffer (downDims.map (·.1)) (upDims.map (·.1))))
        else validateIdentityDims downDims upDims
    | down, up => validateIdentityPair library down up

def validateIdentityDims (downDims upDims : List (String × PartitionsDefinition)) :
    Except MappingValidationError Unit :=
  match downDims with
  | [] => .ok ()
  | (name, down) :: rest =>
      match upDims.lookup name with
      | none => .error (.dimension (.multiUpstreamDimMissing name))
      | some up => do
          inDimension name (validateIdentity down up)
          validateIdentityDims rest upDims

end

def singleDimKeySet (definition : PartitionsDefinition) :
    Except MappingValidationError (List String) :=
  match definition.getPartitionKeys library clock with
  | .error reason => .error (.definitionError (.definition reason))
  | .ok keys => .ok (keys.filterMap fun key => (key.singleValues).bind List.head?)

def validateStatic (table : HashMap String String) (down up : PartitionsDefinition) :
    Except MappingValidationError Unit := do
  let downKeys ← singleDimKeySet library clock down
  let unknown := table.keys.filter (· ∉ downKeys)
  if unknown ≠ ∅ then .error (.keyNotInDefinition unknown .downstream "Static")
  else
    let upKeys ← singleDimKeySet library clock up
    let targets := table.keys.biUnion fun source => (table.lookup source).toFinset
    let unknown := targets.filter (· ∉ upKeys)
    if unknown ≠ ∅ then .error (.keyNotInDefinition unknown .upstream "Static") else .ok ()

def validateSubset (down up : PartitionsDefinition) : Except MappingValidationError Unit :=
  if !down.sameVariant up then
    .error (.definitionTypeMismatch "Subset" down.variantName up.variantName)
  else
    match down, up with
    | .static downKeys, .static upKeys =>
        let extras := upKeys.filter (· ∉ downKeys)
        if extras ≠ [] then .error (.upstreamKeysNotSubset extras) else .ok ()
    | _, _ => .ok ()

def multiToSingleSides (dimensionName : String) (down up : PartitionsDefinition) :
    Except MappingValidationError (PartitionsDefinition × PartitionsDefinition) :=
  let missing := fun side (dimensions : List (String × PartitionsDefinition)) =>
    MappingValidationError.dimension
      (.multiToSingleDimMissing dimensionName side (dimensions.map (·.1)))
  match down, up with
  | .multi _, .multi _ => .error (.dimension .bothSidesMulti)
  | .multi dimensions, single =>
      match dimensions.lookup dimensionName with
      | none => .error (missing .downstream dimensions)
      | some dimension => .ok (dimension, single)
  | single, .multi dimensions =>
      match dimensions.lookup dimensionName with
      | none => .error (missing .upstream dimensions)
      | some dimension => .ok (single, dimension)
  | down, up => .error (.dimension (.neitherSideMulti down.variantName up.variantName))

def requireTimeWindow (side : Side) (definition : PartitionsDefinition) :
    Except MappingValidationError Unit :=
  match definition with
  | .timeWindow _ => .ok ()
  | other => .error (.requiredDefinitionType "TimeWindow" side "TimeWindow" other.variantName)

def requireMulti (side : Side) (definition : PartitionsDefinition) :
    Except MappingValidationError (List (String × PartitionsDefinition)) :=
  match definition with
  | .multi dimensions => .ok dimensions
  | other => .error (.requiredDefinitionType "Multi" side "Multi" other.variantName)

mutual

def validatePartitionedPair (mapping : PartitionMapping) (down up : PartitionsDefinition) :
    Except MappingValidationError Unit :=
  match mapping with
  | .identity => validateIdentity library down up
  | .allPartitions => .ok ()
  | .static table => validateStatic library clock table down up
  | .timeWindow _ => do
      requireTimeWindow .downstream down
      requireTimeWindow .upstream up
      gridCompat library down up
  | .specificPartitions _ => .error (.incompatibleMappingForShape "SpecificPartitions")
  | .forKeys _ => .error (.incompatibleMappingForShape "ForKeys")
  | .subset => validateSubset down up
  | .multiToSingle dimensionName inner => do
      let (innerDown, innerUp) ← multiToSingleSides dimensionName down up
      inDimension dimensionName (validatePartitionedPair inner innerDown innerUp)
  | .multi dimensionMappings => do
      let downDims ← requireMulti .downstream down
      let upDims ← requireMulti .upstream up
      match upDims.find? fun dim => dim.1 ∉ dimensionMappings.map (·.1) with
      | some (name, _) => .error (.dimension (.missingMapping name))
      | none => do
          let targeted ← validateDimensionMappings dimensionMappings downDims upDims []
          match downDims.find? fun dim => dim.1 ∉ targeted with
          | some (name, _) => .error (.dimension (.notCovered name))
          | none => .ok ()

/-- Each dimension mapping in turn; the result is the downstream dimensions they target. -/
def validateDimensionMappings (dimensionMappings : List (String × String × PartitionMapping))
    (downDims upDims : List (String × PartitionsDefinition)) (targeted : List String) :
    Except MappingValidationError (List String) :=
  match dimensionMappings with
  | [] => .ok targeted
  | (upstreamDim, downstreamDim, perDim) :: rest =>
      match upDims.lookup upstreamDim, downDims.lookup downstreamDim with
      | none, _ => .error (.dimension (.multiUpstreamDimMissing upstreamDim))
      | some _, none => .error (.dimension (.multiDownstreamDimMissing downstreamDim))
      | some up, some down =>
          if downstreamDim ∈ targeted then .error (.dimension (.targetedTwice downstreamDim))
          else do
            inDimension downstreamDim (validatePartitionedPair perDim down up)
            validateDimensionMappings rest downDims upDims (downstreamDim :: targeted)

end

end Validation

section Kind

def timeGrid (definition : PartitionsDefinition) : Option TimeGrid :=
  match definition with
  | .timeWindow window =>
      some ⟨fun key offset => (window.shiftKey library clock key offset).toOption⟩
  | _ => none

mutual

def mappingToKind (mapping : PartitionMapping) (upstream : Option PartitionsDefinition) :
    PartitionMappingKind :=
  match mapping with
  | .identity => .identity
  | .allPartitions => .allPartitions
  | .static table => .static table
  | .timeWindow offset => .timeWindow offset (upstream.bind (timeGrid library clock))
  | .specificPartitions keys => .specificPartitions keys
  | .multi dimensionMappings => .multi (mappingsToKinds dimensionMappings upstream)
  | .multiToSingle dimensionName inner =>
      let innerDef := upstream.bind fun definition =>
        match definition with
        | .multi dimensions => dimensions.lookup dimensionName
        | single => some single
      .multiToSingle dimensionName (mappingToKind inner innerDef)
  | .forKeys _ => .forKeys
  | .subset => .subset

def mappingsToKinds (dimensionMappings : List (String × String × PartitionMapping))
    (upstream : Option PartitionsDefinition) : List (String × String × PartitionMappingKind) :=
  match dimensionMappings with
  | [] => []
  | (upstreamDim, downstreamDim, perDim) :: rest =>
      (upstreamDim, downstreamDim,
        mappingToKind perDim (upstream.bind (·.dimensionDef upstreamDim))) ::
        mappingsToKinds rest upstream

end

end Kind

end PartitionMapping

end Rivers

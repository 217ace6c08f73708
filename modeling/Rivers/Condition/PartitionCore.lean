import Mathlib.Data.Finset.Union
import Mathlib.Data.Rat.Defs
import Rivers.Lib.FiniteMap
import Rivers.PartitionKey

/-! Partition selections and mappings, from `condition/partition.rs`. -/

namespace Rivers

open FiniteMap PartitionKey

inductive PartitionSelection where
  | all
  | empty
  | keys (keys : Finset PartitionKey)
  deriving DecidableEq

namespace PartitionSelection

def fromKeys (keys : Finset PartitionKey) : PartitionSelection :=
  if keys = ∅ then .empty else .keys keys

def fromBool (value : Bool) : PartitionSelection :=
  if value then .all else .empty

def union : PartitionSelection → PartitionSelection → PartitionSelection
  | .all, _ | _, .all => .all
  | .empty, other => other
  | selection, .empty => selection
  | .keys left, .keys right => fromKeys (left ∪ right)

def intersect : PartitionSelection → PartitionSelection → PartitionSelection
  | .empty, _ | _, .empty => .empty
  | .all, other => other
  | selection, .all => selection
  | .keys left, .keys right => fromKeys (left ∩ right)

def restrictTo (selection : PartitionSelection) (allKeys : Finset PartitionKey) :
    PartitionSelection :=
  match selection with
  | .all => .all
  | .empty => .empty
  | .keys selected => fromKeys (selected.filter (· ∈ allKeys))

def complement (selection : PartitionSelection) (allKeys : Finset PartitionKey) :
    PartitionSelection :=
  match selection with
  | .all => .empty
  | .empty => if allKeys = ∅ then .empty else .keys allKeys
  | .keys selected => fromKeys (allKeys \ selected)

def difference (selection other : PartitionSelection) (allKeys : Finset PartitionKey) :
    PartitionSelection :=
  match selection, other with
  | .empty, _ => .empty
  | _, .all => .empty
  | selection, .empty => selection
  | .all, .keys removed => (PartitionSelection.keys removed).complement allKeys
  | .keys left, .keys right => fromKeys (left \ right)

def isEmpty : PartitionSelection → Bool
  | .empty => true
  | .keys selected => selected = ∅
  | .all => false

def isAll : PartitionSelection → Bool
  | .all => true
  | _ => false

def toBool (selection : PartitionSelection) : Bool :=
  !selection.isEmpty

def keyCount (total : Nat) : PartitionSelection → Nat
  | .all => total
  | .empty => 0
  | .keys selected => selected.card

def firesOver (selection : PartitionSelection) (allKeys : Finset PartitionKey) : Bool :=
  match selection with
  | .all => allKeys ≠ ∅
  | other => !other.isEmpty

def explicit : PartitionSelection → Finset PartitionKey
  | .keys selected => selected
  | _ => ∅

def covers (selection : PartitionSelection) (key : PartitionKey) : Bool :=
  match selection with
  | .all => true
  | .empty => false
  | .keys selected => key ∈ selected

end PartitionSelection

namespace PartitionKey

def singleValues (key : PartitionKey) : Option (List String) :=
  match key.raw with
  | .single values => some values
  | _ => none

def singleValue (key : PartitionKey) : Option String :=
  match key.raw with
  | .single [value] => some value
  | _ => none

def multiDims (key : PartitionKey) : Option (List Dimension) :=
  match key.raw with
  | .multi dims => some dims
  | _ => none

end PartitionKey

structure TimeGrid where
  shiftKey : String → Int → Option String

inductive PartitionMappingKind where
  | identity
  | allPartitions
  | static (mapping : HashMap String String)
  | timeWindow (offset : Int) (grid : Option TimeGrid)
  | specificPartitions (keys : List String)
  | multi (dimensionMappings : List (String × String × PartitionMappingKind))
  | multiToSingle (dimensionName : String) (inner : PartitionMappingKind)
  | forKeys
  | subset

def negI64 (value : Int) : Int :=
  if value = -2 ^ 63 then value else -value

def shiftSelection (selection : PartitionSelection) (offset : Int) (grid : Option TimeGrid) :
    PartitionSelection :=
  match grid with
  | none => selection
  | some grid =>
      if offset = 0 then selection
      else
        match selection with
        | .keys keys =>
            PartitionSelection.fromKeys <| keys.biUnion fun key =>
              (key.singleValue.bind fun value =>
                (grid.shiftKey value offset).map fun shifted =>
                  single [shifted]).toFinset
        | other => other

/-- One downstream key of a multi-dimensional mapping; `none` is a dimension that fanned out. -/
abbrev Combo := List (String × Option (List String))

namespace PartitionMappingKind

def extendCombos (combos : Finset Combo) (dimension : String)
    (values : Finset (Option (List String))) : Finset Combo :=
  combos.biUnion fun combo => values.image fun value => combo ++ [(dimension, value)]

def comboMatches (combo : Combo) (dims : List Dimension) : Bool :=
  combo.all fun (dimension, want) =>
    match want with
    | none => true
    | some values => dims.any fun (name, found) => name = dimension && found = values

def comboKey (combo : Combo) : PartitionKey :=
  .multi (combo.filterMap fun (dimension, values) => values.map (dimension, ·))

def isWildcard (combo : Combo) : Bool :=
  combo.any fun (_, values) => values.isNone

def expandWildcards (combos : Finset Combo)
    (downstreamUniverse : Option (Finset PartitionKey)) : PartitionSelection :=
  let mapped := (combos.filter fun combo => !isWildcard combo).image comboKey
  let wildcards := combos.filter fun combo => isWildcard combo
  if wildcards = ∅ then PartitionSelection.fromKeys mapped
  else
    match downstreamUniverse with
    | none => .all
    | some allKeys =>
        PartitionSelection.fromKeys <| mapped ∪ allKeys.filter fun key =>
          ∃ dims ∈ key.multiDims, ∃ combo ∈ wildcards, comboMatches combo dims

def mapStatic (mapping : HashMap String String) (keys : Finset PartitionKey) :
    PartitionSelection :=
  let declared := mapping.keys.filter fun down =>
    ∃ up ∈ mapping.lookup down, single [up] ∈ keys
  let undeclared := keys.filter fun key =>
    ∃ value ∈ key.singleValue, value ∉ mapping
  PartitionSelection.fromKeys (declared.image (fun down => single [down]) ∪ undeclared)

def dimensionValue (dims : List Dimension) (name : String) : Option (List String) :=
  (dims.reverse.find? fun dimension => dimension.1 = name).map (·.2)

def singleSelection (values : List String) : PartitionSelection :=
  .keys {single values}

mutual

def mapToDownstreamIn (kind : PartitionMappingKind) (upstreamKeys : PartitionSelection)
    (downstreamUniverse : Option (Finset PartitionKey)) : PartitionSelection :=
  match kind with
  | .identity | .subset => upstreamKeys
  | .allPartitions | .specificPartitions _ | .forKeys =>
      if upstreamKeys.isEmpty then .empty else .all
  | .static mapping =>
      match upstreamKeys with
      | .keys keys => mapStatic mapping keys
      | other => other
  | .timeWindow offset grid => shiftSelection upstreamKeys (negI64 offset) grid
  | .multi dimensionMappings =>
      match upstreamKeys with
      | .keys keys =>
          let combos := keys.biUnion fun key =>
            (key.multiDims.bind fun dims => mapKeyDownstream dimensionMappings dims {[]}).getD ∅
          expandWildcards combos downstreamUniverse
      | other => other
  | .multiToSingle dimensionName inner =>
      match upstreamKeys with
      | .keys keys =>
          let ofDimension := (keys.biUnion fun key =>
            (key.multiDims.bind fun dims =>
              (dims.find? fun dimension => dimension.1 = dimensionName).map (·.2)).toFinset).image
            fun values => mapToDownstreamIn inner (singleSelection values) none
          let ofSingle := (keys.biUnion fun key => key.singleValues.toFinset).image
            fun values => mapToDownstreamIn inner (singleSelection values) none
          if .all ∈ ofDimension ∪ ofSingle then .all
          else
            let mapped := ofDimension.biUnion fun selection => selection.explicit
            let wanted := (ofSingle.biUnion fun selection => selection.explicit).biUnion
              fun key => key.singleValues.toFinset
            if wanted = ∅ then PartitionSelection.fromKeys mapped
            else
              match downstreamUniverse with
              | none => .all
              | some allKeys =>
                  PartitionSelection.fromKeys <| mapped ∪ allKeys.filter fun key =>
                    ∃ dims ∈ key.multiDims,
                      dims.any fun (name, values) => name = dimensionName && values ∈ wanted
      | other => other

/-- The downstream combinations of one upstream key, extended one dimension at a time. -/
def mapKeyDownstream (dimensionMappings : List (String × String × PartitionMappingKind))
    (dims : List Dimension) (combos : Finset Combo) : Option (Finset Combo) :=
  match dimensionMappings with
  | [] => some combos
  | (upstreamDim, downstreamDim, perDimMapping) :: rest =>
      match dimensionValue dims upstreamDim with
      | none => none
      | some values =>
          match mapToDownstreamIn perDimMapping (singleSelection values) none with
          | .keys keys =>
              if keys = ∅ ∨ ∃ key ∈ keys, key.singleValues = none then none
              else mapKeyDownstream rest dims
                (extendCombos combos downstreamDim (keys.image fun key => key.singleValues))
          | .all => mapKeyDownstream rest dims (extendCombos combos downstreamDim {none})
          | .empty => none

end

def mapToDownstream (kind : PartitionMappingKind) (upstreamKeys : PartitionSelection) :
    PartitionSelection :=
  kind.mapToDownstreamIn upstreamKeys none

end PartitionMappingKind

/-- Edge mappings by `(downstream, upstream)`, and each partitioned upstream's keys. -/
structure PartitionResolver where
  mappings : HashMap (String × String) PartitionMappingKind
  upstreamPartitionKeys : HashMap String (Finset PartitionKey)

namespace PartitionResolver

def empty : PartitionResolver :=
  ⟨∅, ∅⟩

def mappingKind (resolver : PartitionResolver) (upstreamAsset downstreamAsset : String) :
    Option PartitionMappingKind :=
  resolver.mappings.lookup (downstreamAsset, upstreamAsset)

def mapDownstream (resolver : PartitionResolver) (upstreamAsset downstreamAsset : String)
    (upstreamKeys : PartitionSelection) (downstreamUniverse : Option (Finset PartitionKey)) :
    PartitionSelection :=
  match resolver.mappingKind upstreamAsset downstreamAsset with
  | none => upstreamKeys
  | some mapping => mapping.mapToDownstreamIn upstreamKeys downstreamUniverse

end PartitionResolver

/-- `TimeWindowResolver::keys_for`: the window keys of an asset, if its windows are known. -/
abbrev TimeWindowResolver := String → Finset PartitionKey → Option Rat →
    Option (Finset PartitionKey)

structure PartitionStatusEntry where
  inProgress : Finset PartitionKey := ∅
  failed : Finset PartitionKey := ∅
  failedTimestamps : HashMap PartitionKey Int := ∅
  timestamps : HashMap PartitionKey Int := ∅
  deriving DecidableEq

structure PartitionEvalContext where
  allKeys : Finset PartitionKey
  inProgress : Finset PartitionKey
  failed : Finset PartitionKey
  timestamps : HashMap PartitionKey Int
  resolver : PartitionResolver
  timeWindows : Option TimeWindowResolver
  allPartitionStatuses : HashMap String PartitionStatusEntry
  depRootFloor : Option (HashMap PartitionKey (Option Int))

structure PartitionState where
  previousSelections : HashMap Nat PartitionSelection := ∅
  timestamps : HashMap PartitionKey Int := ∅
  handled : Finset PartitionKey := ∅
  depPreviousSelections : HashMap String (HashMap Nat PartitionSelection) := ∅
  deriving DecidableEq

end Rivers

import Mathlib.Data.Finset.Sort
import Mathlib.Data.String.Basic
import Rivers.Lib.FiniteMap
import Rivers.Lib.Odometer
import Rivers.Lib.OrderSet
import Rivers.Partitions.DefinitionCore

/-! Partition universes of `condition/pass/universe.rs`. -/

namespace Rivers

open FiniteMap PartitionKey

inductive DimensionKind where
  | frozen
  | timeWindow (grid : TimeWindow) (enumeratedTo : DateTime)
  | dynamic (name : String)

structure DimensionUniverse where
  keys : OrderSet String
  kind : DimensionKind

inductive PartitionUniverse where
  | frozen
  | timeWindow (grid : TimeWindow) (enumeratedTo : DateTime)
  | dynamic (name : String)
  | multi (dims : List (String × DimensionUniverse))

section Refresh

variable (library : TimeLibrary) (clock now : DateTime)

def advanceTimeWindowAxis {keySet : Type} (insert : keySet → String → keySet × Bool)
    (grid : TimeWindow) (enumeratedTo : DateTime) (keys : keySet) : DateTime × keySet × Bool :=
  let bound := grid.endTime.elim now (min · now)
  if bound ≤ enumeratedTo then (enumeratedTo, keys, false)
  else
    match grid.windowStartsIn library clock enumeratedTo bound with
    | .error _ => (enumeratedTo, keys, false)
    | .ok newKeys =>
        (bound, newKeys.foldl (fun (keys, changed) key =>
          let (keys, inserted) := insert keys key
          (keys, changed || inserted)) (keys, false))

def dynamicAxisChanged (fresh : Finset String) (currentLen : Nat) (contains : String → Bool) :
    Bool :=
  fresh.card ≠ currentLen || !decide (∀ key ∈ fresh, contains key = true)

def cartesianUniverse (dims : List (String × DimensionUniverse)) : Finset PartitionKey :=
  if dims = [] ∨ ∃ dim ∈ dims, dim.2.keys.items = [] then ∅
  else
    ((Odometer.all (dims.map fun dim => dim.2.keys.items.length)).map fun index =>
      multi ((dims.zip index).map fun (dim, i) => (dim.1, (dim.2.keys.items[i]?).toList))).toFinset

variable (dynamicKeys : HashMap String (Finset String))

def refreshDimension (dim : DimensionUniverse) : DimensionUniverse × Bool :=
  match dim.kind with
  | .frozen => (dim, false)
  | .timeWindow grid enumeratedTo =>
      let (enumeratedTo, keys, changed) :=
        advanceTimeWindowAxis library clock now OrderSet.insert grid enumeratedTo dim.keys
      ({ keys, kind := .timeWindow grid enumeratedTo }, changed)
  | .dynamic name =>
      match dynamicKeys.lookup name with
      | none => (dim, false)
      | some keys =>
          if dynamicAxisChanged keys dim.keys.items.length (· ∈ dim.keys.items) then
            ({ dim with keys := .ofList (keys.sort (· ≤ ·)) }, true)
          else (dim, false)

def PartitionsDefinition.resolveAxis (known : String → Finset String) : PartitionsDefinition →
    PartitionsDefinition
  | .dynamic name => .static ((known name).sort (· ≤ ·))
  | other => other

/-- Advance one universe and its keys; the last component says whether the keys changed. -/
def refreshUniverse (shape : PartitionUniverse) (allKeys : Finset PartitionKey) :
    PartitionUniverse × Finset PartitionKey × Bool :=
  match shape with
  | .frozen => (.frozen, allKeys, false)
  | .timeWindow grid enumeratedTo =>
      let insert := fun (keys : Finset PartitionKey) key =>
        (Insert.insert (single [key]) keys, decide (single [key] ∉ keys))
      let (enumeratedTo, keys, changed) := advanceTimeWindowAxis library clock now insert grid
        enumeratedTo allKeys
      (.timeWindow grid enumeratedTo, keys, changed)
  | .dynamic name =>
      match dynamicKeys.lookup name with
      | none => (.dynamic name, allKeys, false)
      | some keys =>
          if dynamicAxisChanged keys allKeys.card (fun key => single [key] ∈ allKeys) then
            (.dynamic name, keys.image fun key => single [key], true)
          else (.dynamic name, allKeys, false)
  | .multi dims =>
      let refreshed := dims.map fun dim =>
        (dim.1, refreshDimension library clock now dynamicKeys dim.2)
      let dims := refreshed.map fun dim => (dim.1, dim.2.1)
      if refreshed.any fun dim => dim.2.2 then (.multi dims, cartesianUniverse dims, true)
      else (.multi dims, allKeys, false)

end Refresh

section Extraction

variable (library : TimeLibrary) (now : DateTime)

def seededWatermark (definition : PartitionsDefinition) : DateTime :=
  match definition with
  | .timeWindow window => window.endTime.elim now (min · now)
  | _ => now

def dimensionUniverseFor (definition : PartitionsDefinition) : DimensionUniverse where
  keys := .ofList ((definition.enumerateSingleDimKeysCapped library now).toOption.getD [])
  kind :=
    match definition with
    | .timeWindow window => .timeWindow window (seededWatermark now definition)
    | .dynamic name => .dynamic name
    | _ => .frozen

def partitionUniverseFor (definition : PartitionsDefinition) : PartitionUniverse :=
  match definition with
  | .static _ => .frozen
  | .timeWindow window => .timeWindow window (seededWatermark now definition)
  | .dynamic name => .dynamic name
  | .multi dimensions =>
      .multi (dimensions.map fun dim => (dim.1, dimensionUniverseFor library now dim.2))

def defKeysAndUniverse (definition : PartitionsDefinition) :
    Finset PartitionKey × PartitionUniverse :=
  (((definition.getPartitionKeysCapped library now).toOption.getD []).toFinset,
    partitionUniverseFor library now definition)

end Extraction

end Rivers

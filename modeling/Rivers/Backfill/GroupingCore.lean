import Mathlib.Data.List.Destutter
import Rivers.Lib.Assoc
import Rivers.PartitionKey

/-! Backfill grouping of `execution/backfill.rs`. -/

namespace Rivers

inductive BackfillStrategy where
  | multiRun
  | singleRun
  | perDimension (multiRun singleRun : List String)
  deriving DecidableEq, Repr

/-- The order of the group keys: dimensions by name and then by values, one after the other. -/
def compareDims : (left right : List Dimension) → Ordering
  | [], [] => .eq
  | [], _ :: _ => .lt
  | _ :: _, [] => .gt
  | left :: lefts, right :: rights =>
      ((compare left.1 right.1).then (List.compareLex compare left.2 right.2)).then
        (compareDims lefts rights)

namespace PartitionKey

def extractMultiRunDims (key : PartitionKey) (multiRun : List String) : List Dimension :=
  match key.raw with
  | .multi dims => RawPartitionKey.sortDims (dims.filter fun dim => dim.1 ∈ multiRun)
  | _ => []

def set (keys : List PartitionKey) : PartitionKey :=
  ofRaw (.set (keys.map (·.raw)))

end PartitionKey

def groupIntoRuns (strategy : BackfillStrategy) (partitionKeys : List PartitionKey) :
    List (List PartitionKey) :=
  match strategy with
  | .multiRun => partitionKeys.map fun key => [key]
  | .singleRun => if partitionKeys = [] then [] else [partitionKeys]
  | .perDimension multiRun _ =>
      let groups := Assoc.group (fun key => key.extractMultiRunDims multiRun) partitionKeys
      let ordered := groups.insertionSort fun left right => (compareDims left.1 right.1).isLE
      ordered.map (·.2)

section Bundle

def pushNew (values : List String) (value : String) : List String :=
  if value ∈ values then values else values ++ [value]

def unionDim (union : List Dimension) (dim : Dimension) : List Dimension :=
  Assoc.upsert dim.1 (fun old => dim.2.foldl pushNew (old.getD [])) union

def unionKey (union : List Dimension) (key : PartitionKey) : List Dimension :=
  match key.raw with
  | .multi dims => dims.foldl unionDim union
  | _ => union

/-- The values of each dimension over all the keys, dimensions in the order in which they are first
seen. -/
def unionDims (keys : List PartitionKey) : List Dimension :=
  keys.foldl unionKey []

def cartesianCandidate (keys : List PartitionKey) : PartitionKey :=
  match keys.head?.map PartitionKey.raw with
  | some (.multi _) => .multi ((unionDims keys).map fun dim => (dim.1, dim.2.insertionSort (· ≤ ·)))
  | _ =>
      let union := keys.flatMap fun key =>
        match key.raw with
        | .single values => values
        | _ => []
      .single ((union.insertionSort (· ≤ ·)).destutter (· ≠ ·))

def sameSet (left right : List PartitionKey) : Bool :=
  left.length = right.length && left.all fun key => key ∈ right

/-- Collapse a run group into one batched key; a group that no product expresses becomes a `Set`. -/
def bundleKeys (toJson : PartitionKey → String) (keys : List PartitionKey) : PartitionKey :=
  let candidate := cartesianCandidate keys
  if sameSet candidate.members keys then candidate
  else .set (keys.insertionSort fun left right => toJson left ≤ toJson right)

end Bundle

end Rivers

import Rivers.Condition.Selection
import Rivers.Partitions.DefinitionKeys

/-! Mappings without time windows, as validation leaves them. -/

namespace Rivers

open FiniteMap PartitionMappingKind PartitionSelection

namespace PartitionMapping

section Parts

mutual

def everyPart (check : PartitionMapping → Bool) (mapping : PartitionMapping) : Bool :=
  check mapping &&
    match mapping with
    | .multi dimensionMappings => everyPartOf check dimensionMappings
    | .multiToSingle _ inner => everyPart check inner
    | _ => true

def everyPartOf (check : PartitionMapping → Bool)
    (dimensionMappings : List (String × String × PartitionMapping)) :
    Bool :=
  match dimensionMappings with
  | [] => true
  | (_, _, perDim) :: rest => everyPart check perDim && everyPartOf check rest

end

def isTimeless : PartitionMapping → Bool
  | .timeWindow _ | .specificPartitions _ | .forKeys _ => false
  | _ => true

def isAllPartitions : PartitionMapping → Bool
  | .allPartitions => true
  | _ => false

def isSubset : PartitionMapping → Bool
  | .subset => true
  | _ => false

def isKeyed : PartitionMapping → Bool
  | .multi dimensionMappings => decide (dimensionMappings.map (·.1)).Nodup
  | _ => true

variable {check : PartitionMapping → Bool} {mapping inner : PartitionMapping}
  {dimensionName : String} {dimensionMappings : List (String × String × PartitionMapping)}

theorem everyPart_self (every : mapping.everyPart check) : check mapping := by
  unfold everyPart at every
  exact (Bool.and_eq_true_iff.mp every).1

theorem everyPart_inner (every : (multiToSingle dimensionName inner).everyPart check) :
    inner.everyPart check := by
  rw [everyPart, Bool.and_eq_true] at every
  exact every.2

theorem everyPart_perDim (every : (multi dimensionMappings).everyPart check) :
    ∀ entry ∈ dimensionMappings, entry.2.2.everyPart check := by
  rw [everyPart, Bool.and_eq_true] at every
  replace every := every.2
  induction dimensionMappings with
  | nil => simp
  | cons entry rest ih =>
    obtain ⟨upstreamDim, downstreamDim, perDim⟩ := entry
    simp only [everyPartOf, Bool.and_eq_true] at every
    exact List.forall_mem_cons.mpr ⟨every.1, ih every.2⟩

end Parts

section Axis

variable {library : TimeLibrary} {clock : DateTime} {mapping : PartitionMapping}
  {down up : PartitionsDefinition} {upstream : Option PartitionsDefinition} {value : String}
  {key : PartitionKey}

def OnAxis : PartitionMapping → Prop
  | .identity | .static _ | .subset | .allPartitions => True
  | _ => False

def loadValue : PartitionMapping → String → String
  | .static table, value => (table.lookup value).getD value
  | _, value => value

theorem onAxis_of_edge (timeless : mapping.isTimeless) (downAxis : down.IsAxis library)
    (upAxis : up.IsAxis library)
    (edge : mapping.validatePartitionedPair library clock down up = .ok ()) : mapping.OnAxis := by
  cases mapping with
  | identity | static _ | subset | allPartitions => trivial
  | timeWindow _ | specificPartitions _ | forKeys _ => cases timeless
  | multi dimensionMappings =>
    cases down with
    | multi _ => exact downAxis.elim
    | static _ | timeWindow _ | dynamic _ =>
      simp [validatePartitionedPair, requireMulti, bind, Except.bind] at edge
  | multiToSingle dimensionName inner =>
    cases down with
    | multi _ => exact downAxis.elim
    | static _ | timeWindow _ | dynamic _ =>
      cases up with
      | multi _ => exact upAxis.elim
      | static _ | timeWindow _ | dynamic _ =>
        simp [validatePartitionedPair, multiToSingleSides, bind, Except.bind] at edge

theorem mapKey_axis (axis : mapping.OnAxis) :
    mapping.mapKey library clock (.single [value]) upstream = .ok key ↔
      mapping.isSubset = false ∧ key = .single [mapping.loadValue value] := by
  have raw : (PartitionKey.single [value]).raw = .single [value] := rfl
  cases mapping with
  | identity | allPartitions => simp [mapKey, isSubset, loadValue, eq_comm]
  | static table =>
    simp only [mapKey, raw, isSubset, loadValue, true_and]
    cases table.lookup value <;> simp [eq_comm]
  | subset => simp [mapKey, isSubset]
  | timeWindow _ | specificPartitions _ | forKeys _ | multi _ | multiToSingle _ _ => exact axis.elim

variable {table : HashMap String String}

theorem covers_mapStatic {upKey} :
    (mapStatic table {upKey}).covers key ↔
      ∃ value, key = .single [value] ∧ upKey = .single [(static table).loadValue value] := by
  simp only [mapStatic, covers_fromKeys, decide_eq_true_eq, Finset.mem_union,
    Finset.mem_image, Finset.mem_filter, Finset.mem_singleton, loadValue]
  constructor
  · rintro (⟨value, ⟨declared, up, found, rfl⟩, rfl⟩ | ⟨rfl, value, isValue, undeclared⟩)
    · exact ⟨value, rfl, by rw [Option.mem_def.mp found, Option.getD_some]⟩
    · refine ⟨value, PartitionKey.eq_single_of_singleValue isValue, ?_⟩
      rw [Finmap.lookup_eq_none.mpr undeclared, Option.getD_none]
      exact PartitionKey.eq_single_of_singleValue isValue
  · rintro ⟨value, rfl, rfl⟩
    cases found : table.lookup value with
    | none =>
      exact .inr ⟨rfl, value, rfl, Finmap.lookup_eq_none.mp found⟩
    | some up =>
      exact .inl ⟨value, ⟨Finmap.mem_keys.mpr (Finmap.mem_of_lookup_eq_some found), up, found, rfl⟩,
        rfl⟩

def image (library : TimeLibrary) (clock : DateTime) (mapping : PartitionMapping)
    (upstream : Option PartitionsDefinition) (value : String) : PartitionSelection :=
  (mapping.mappingToKind library clock upstream).mapToDownstreamIn (singleSelection [value]) none

theorem image_allPartitions (all : mapping.isAllPartitions) :
    mapping.image library clock upstream value = .all := by
  cases mapping with
  | allPartitions => rfl
  | identity | static _ | subset | timeWindow _ | specificPartitions _ | forKeys _ | multi _
  | multiToSingle _ _ =>
    cases all

theorem image_axis (axis : mapping.OnAxis) (notAll : mapping.isAllPartitions = false) :
    mapping.image library clock upstream value ≠ .all ∧
      ∀ key, (mapping.image library clock upstream value).covers key ↔
        ∃ downValue, key = .single [downValue] ∧ mapping.loadValue downValue = value := by
  cases mapping with
  | identity | subset =>
    refine ⟨by simp [image, mappingToKind, mapToDownstreamIn,
      singleSelection], fun key => ?_⟩
    simp [image, mappingToKind, mapToDownstreamIn, singleSelection,
      loadValue]
  | static table =>
    refine ⟨?_, fun key => ?_⟩
    · simp only [image, mappingToKind, mapToDownstreamIn, singleSelection,
        mapStatic, fromKeys]
      split <;> simp
    · simp only [image, mappingToKind, mapToDownstreamIn, singleSelection]
      rw [covers_mapStatic]
      exact exists_congr fun downValue => and_congr_right fun _ =>
        PartitionKey.single_inj.trans eq_comm
  | allPartitions => cases notAll
  | timeWindow _ | specificPartitions _ | forKeys _ | multi _ | multiToSingle _ _ => exact axis.elim

theorem mem_explicit_image (axis : mapping.OnAxis) (notAll : mapping.isAllPartitions = false) :
    key ∈ (mapping.image library clock upstream value).explicit ↔
      ∃ downValue, key = .single [downValue] ∧ mapping.loadValue downValue = value := by
  obtain ⟨notWild, covers_iff⟩ := @image_axis library clock mapping upstream value axis notAll
  rw [← covers_iff key]
  cases selection : mapping.image library clock upstream value with
  | all => exact absurd selection notWild
  | empty => simp [explicit]
  | keys keys => simp [explicit]

end Axis

section Validated

variable {library : TimeLibrary} {clock : DateTime} {down up : PartitionsDefinition}
  {dimensionName : String} {inner : PartitionMapping}
  {dimensionMappings : List (String × String × PartitionMapping)}
  {downDims upDims : List (String × PartitionsDefinition)}

theorem validatePartitionedPair_of_inDimension {result}
    (passed : inDimension dimensionName result = .ok ()) : result = .ok () := by
  cases result with
  | error source => cases passed
  | ok _ => rfl

theorem validateDimensionMappings_eq_ok {targeted result}
    (passed : validateDimensionMappings library clock dimensionMappings downDims upDims targeted =
      .ok result) :
    (∀ entry ∈ dimensionMappings, ∃ down up, downDims.lookup entry.2.1 = some down ∧
      upDims.lookup entry.1 = some up ∧ entry.2.2.validatePartitionedPair library clock down up =
        .ok ()) ∧
      (dimensionMappings.map (·.2.1)).Nodup ∧ (∀ entry ∈ dimensionMappings, entry.2.1 ∉ targeted) ∧
      ∀ name, name ∈ result ↔ name ∈ dimensionMappings.map (·.2.1) ∨ name ∈ targeted := by
  induction dimensionMappings generalizing targeted with
  | nil =>
    simp only [validateDimensionMappings, Except.ok.injEq] at passed
    simp [passed]
  | cons entry rest ih =>
    obtain ⟨upstreamDim, downstreamDim, perDim⟩ := entry
    simp only [validateDimensionMappings] at passed
    split at passed
    · cases passed
    · cases passed
    · rename_i up down foundUp foundDown
      split at passed
      · cases passed
      · rename_i fresh
        simp only [bind, Except.bind] at passed
        grind [validatePartitionedPair_of_inDimension]

structure PairsDimensions (library : TimeLibrary) (clock : DateTime)
    (dimensionMappings : List (String × String × PartitionMapping))
    (downDims upDims : List (String × PartitionsDefinition)) : Prop where
  joins : ∀ entry ∈ dimensionMappings, ∃ down up, downDims.lookup entry.2.1 = some down ∧
    upDims.lookup entry.1 = some up ∧ entry.2.2.validatePartitionedPair library clock down up =
      .ok ()
  distinct : (dimensionMappings.map (·.2.1)).Nodup
  fromAll : ∀ dim ∈ upDims, dim.1 ∈ dimensionMappings.map (·.1)
  toAll : ∀ dim ∈ downDims, dim.1 ∈ dimensionMappings.map (·.2.1)

theorem PairsDimensions.onAxis (pairs : PairsDimensions library clock dimensionMappings
    downDims upDims)
    (timeless : (multi dimensionMappings).everyPart isTimeless)
    (downValid : (PartitionsDefinition.multi downDims).validateDefinition library = .ok ())
    (upValid : (PartitionsDefinition.multi upDims).validateDefinition library = .ok ()) :
    ∀ entry ∈ dimensionMappings, entry.2.2.OnAxis ∧ entry.2.1 ∈ downDims.map (·.1) := by
  intro entry mem
  obtain ⟨down, up, foundDown, foundUp, valid⟩ := pairs.joins entry mem
  have inDown := (Assoc.lookup_eq_some_iff_mem
    (PartitionsDefinition.nodup_of_validate downValid)).mp foundDown
  have inUp := (Assoc.lookup_eq_some_iff_mem (PartitionsDefinition.nodup_of_validate upValid)).mp
    foundUp
  refine ⟨?_, List.mem_map_of_mem inDown⟩
  exact onAxis_of_edge (everyPart_self (everyPart_perDim timeless entry mem))
    ((wellFormed_of_validate downValid).2 _ inDown)
      ((wellFormed_of_validate upValid).2 _ inUp) valid

theorem PairsDimensions.covers (pairs : PairsDimensions library clock dimensionMappings
    downDims upDims) :
    (∀ name ∈ downDims.map (·.1), name ∈ dimensionMappings.map (·.2.1)) ∧
      ∀ name ∈ upDims.map (·.1), name ∈ dimensionMappings.map (·.1) :=
  ⟨List.forall_mem_map.mpr pairs.toAll, List.forall_mem_map.mpr pairs.fromAll⟩

theorem pairsDimensions_of_edge
    (edge : (multi dimensionMappings).validatePartitionedPair library clock down up = .ok ()) :
    ∃ downDims upDims, down = .multi downDims ∧ up = .multi upDims ∧
      PairsDimensions library clock dimensionMappings downDims upDims := by
  simp only [validatePartitionedPair, bind, Except.bind] at edge
  cases down with
  | static _ | timeWindow _ | dynamic _ => simp [requireMulti] at edge
  | multi downDims =>
    cases up with
    | static _ | timeWindow _ | dynamic _ => simp [requireMulti] at edge
    | multi upDims =>
      refine ⟨downDims, upDims, rfl, rfl, ?_⟩
      simp only [requireMulti] at edge
      split at edge
      · cases edge
      · grind [validateDimensionMappings_eq_ok, PairsDimensions]

theorem sides_of_edge (edge : (multiToSingle dimensionName inner).validatePartitionedPair library
    clock down up = .ok ()) :
    (∃ downDims axis, down = .multi downDims ∧ downDims.lookup dimensionName = some axis ∧
      (∀ upDims, up ≠ .multi upDims) ∧ inner.validatePartitionedPair library clock axis up =
        .ok ()) ∨
    ∃ upDims axis, up = .multi upDims ∧ upDims.lookup dimensionName = some axis ∧
      (∀ downDims, down ≠ .multi downDims) ∧ inner.validatePartitionedPair library clock down axis =
        .ok () := by
  simp only [validatePartitionedPair, bind, Except.bind] at edge
  split at edge
  · cases edge
  · rename_i sides found
    obtain ⟨innerDown, innerUp⟩ := sides
    have valid := validatePartitionedPair_of_inDimension edge
    simp only [multiToSingleSides] at found
    split at found
    · cases found
    · grind
    · grind
    · cases found

end Validated

end PartitionMapping

end Rivers

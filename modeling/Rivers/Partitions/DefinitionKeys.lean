import Rivers.Lib.Assoc
import Rivers.Partitions.TimeWindowShift
import Rivers.Pass.Universe

/-! The shape of the keys of a validated definition. -/

namespace Rivers

namespace PartitionKey

variable {key : PartitionKey} {value : String} {values : List String} {dims : List Dimension}

theorem members_single (value : String) : (single [value]).members = [single [value]] := rfl

theorem eq_single_of_singleValue (found : key.singleValue = some value) :
    key = .single [value] := by
  grind [ofRaw_raw, single, singleValue]

theorem single_or_multi (single : key.SingleValued) :
    (∃ value, key = .single [value]) ∨ ∃ dims, key.raw = .multi dims := by
  grind [ofRaw_raw, single, SingleValued]

structure Spans (key : PartitionKey) (dims : List Dimension) (names : List String) : Prop where
  raw : key.raw = .multi dims
  distinct : (dims.map (·.1)).Nodup
  single : ∀ dim ∈ dims, ∃ value, dim.2 = [value]
  names : ∀ name, name ∈ dims.map (·.1) ↔ name ∈ names

variable {names : List String} {choice : List Dimension}

theorem spans_multi (distinct : (choice.map (·.1)).Nodup)
    (single : ∀ dim ∈ choice, ∃ value, dim.2 = [value]) :
    Spans (multi choice) (RawPartitionKey.sortDims choice) (choice.map (·.1)) where
  raw := rfl
  distinct := nodup_sortDims distinct
  single dim member := single dim ((perm_sortDims choice).mem_iff.mp member)
  names _ := ((perm_sortDims choice).map _).mem_iff

theorem Spans.multiDims (spans : Spans key dims names) : key.multiDims = some dims := by
  rw [PartitionKey.multiDims, spans.raw]

theorem Spans.singleValues (spans : Spans key dims names) : key.singleValues = none := by
  rw [PartitionKey.singleValues, spans.raw]

theorem Spans.singleValued (spans : Spans key dims names) : key.SingleValued := by
  rw [SingleValued, spans.raw]
  exact spans.single

theorem Spans.eq_multi (spans : Spans key dims names) (dist : (choice.map (·.1)).Nodup)
    (same : ∀ dim, dim ∈ dims ↔ dim ∈ choice) : key = multi choice := by
  have isMulti : key = multi dims := by rw [← ofRaw_raw key, spans.raw, multi]
  rw [isMulti]
  exact multi_eq_of_perm spans.distinct
    ((List.perm_ext_iff_of_nodup spans.distinct.of_map dist.of_map).mpr same)

theorem Spans.exists_value (spans : Spans key dims names) {name} (inNames : name ∈ names) :
    ∃ value, (name, [value]) ∈ dims := by grind [Spans]

end PartitionKey

namespace PartitionsDefinition

variable {library : TimeLibrary} {clock : DateTime} {known : String → Finset String}
  {definition : PartitionsDefinition} {dimensions : List (String × PartitionsDefinition)}
  {key : PartitionKey}

def isDynamic : PartitionsDefinition → Bool
  | .dynamic _ => true
  | _ => false

theorem resolveAxis_of_not_isDynamic (fixed : definition.isDynamic = false) :
    definition.resolveAxis known = definition := by
  cases definition with
  | dynamic _ => cases fixed
  | static _ | timeWindow _ | multi _ => rfl

variable (library clock known) in
def Chooses (choice : Dimension) (dimension : String × PartitionsDefinition) : Prop :=
  choice.1 = dimension.1 ∧ ∃ keys, (dimension.2.resolveAxis known).enumerateSingleDimKeys library
    clock = .ok keys ∧
    ∃ value ∈ keys, choice.2 = [value]

theorem exists_single_of_hasKey (axis : definition.IsAxis library)
    (isKey : (definition.resolveDynamic known).hasKey library clock key) : ∃ value, key =
    .single [value] := by
  simp only [hasKey, getPartitionKeys] at isKey
  cases found : (definition.resolveDynamic known).partitionKeys library
    (fun window => window.endBound clock) with
  | error reason => simp [found, Except.toOption] at isKey
  | ok keys =>
    have mem : key ∈ keys := by simpa [found, Except.toOption] using isKey
    have enumerated : ∃ values : List String, keys = values.map fun value => .single [value] := by
      cases definition with
      | multi _ => exact axis.elim
      | static _ | timeWindow _ | dynamic _ =>
        simp only [resolveDynamic, resolveAxis, partitionKeys] at found
        exact (Fallible.map_eq_ok.mp found).imp fun _ same => same.2.symm
    grind

theorem exists_choice_of_hasKey (isKey : ((multi dimensions).resolveDynamic known).hasKey library
    clock key) :
    ∃ choice, List.Forall₂ (Chooses library clock known) choice dimensions ∧
      key = .multi choice := by
  simp only [hasKey, getPartitionKeys, resolveDynamic, partitionKeys] at isKey
  have spec := @dimensionKeys_spec library
    (dimensions.map fun dim => (dim.1, resolveAxis known dim.2))
    fun window => window.endBound clock
  cases found : dimensionKeys library (fun window => window.endBound clock)
      (dimensions.map fun dim => (dim.1, resolveAxis known dim.2)) with
  | error reason => simp [found, Except.toOption, Except.map] at isKey
  | ok keys =>
    rw [found] at spec
    obtain ⟨choice, picked, rfl⟩ : ∃ choice ∈ PartitionKey.combos keys, PartitionKey.multi choice =
      key := by
      simpa [found, Except.toOption, Except.map] using isKey
    refine ⟨choice, ?_, rfl⟩
    have picks := PartitionKey.mem_combos.mp picked
    replace spec := List.forall₂_map_left_iff.mp spec
    clear found isKey picked
    induction spec generalizing choice with
    | nil =>
      cases picks
      exact .nil
    | cons own _ ih =>
      obtain _ | ⟨⟨sameName, value, mem, isValue⟩, rest⟩ := picks
      exact .cons ⟨sameName.trans own.1.symm, _, own.2, value, mem, isValue⟩ (ih _ rest)

theorem names_of_chooses {choice}
    (chosen : List.Forall₂ (Chooses library clock known) choice dimensions) :
    choice.map (·.1) = dimensions.map (·.1) :=
  Assoc.map_eq_of_forall₂ (fun _ _ chooses => chooses.1) chosen

theorem isAxis_of_not_multi (valid : definition.validateDefinition library = .ok ())
    (notMulti : ∀ dimensions, definition ≠ multi dimensions) : definition.IsAxis library := by
  cases definition with
  | multi dimensions => exact absurd rfl (notMulti dimensions)
  | static _ | timeWindow _ | dynamic _ => exact wellFormed_of_validate valid

theorem spans_of_chooses {choice} (dist : (dimensions.map (·.1)).Nodup)
    (chosen : List.Forall₂ (Chooses library clock known) choice dimensions) :
    (PartitionKey.multi choice).Spans (RawPartitionKey.sortDims choice) (dimensions.map (·.1)) := by
  rw [← names_of_chooses chosen] at dist ⊢
  refine PartitionKey.spans_multi dist fun dim mem => ?_
  obtain ⟨_, -, -, _, -, value, -, isValue⟩ := Assoc.exists_right_of_forall₂ chosen mem
  exact ⟨value, isValue⟩

theorem singleValued_of_hasKey (valid : definition.validateDefinition library = .ok ())
    (isKey : (definition.resolveDynamic known).hasKey library clock key) : key.SingleValued := by
  by_cases isMulti : ∃ dimensions, definition = multi dimensions
  · obtain ⟨dimensions, rfl⟩ := isMulti
    obtain ⟨choice, chosen, rfl⟩ := exists_choice_of_hasKey isKey
    exact (spans_of_chooses (nodup_of_validate valid) chosen).singleValued
  · have axis := isAxis_of_not_multi valid fun dimensions same => isMulti ⟨dimensions, same⟩
    obtain ⟨value, rfl⟩ := exists_single_of_hasKey axis isKey
    exact ⟨value, rfl⟩

end PartitionsDefinition

end Rivers

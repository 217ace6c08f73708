import Rivers.Partitions.MappingAxis

/-! Mappings without time windows, read in both directions. -/

namespace Rivers

open FiniteMap PartitionMappingKind PartitionsDefinition PartitionKey

namespace PartitionMapping

section Dimensions

variable {library : TimeLibrary} {clock : DateTime} {upstream : Option PartitionsDefinition}
  {dimensionMappings : List (String × String × PartitionMapping)} {dims : List Dimension}
  {combo : Combo}

def valueAt (dims : List Dimension) (name : String) : String :=
  ((dims.lookup name).bind List.head?).getD ""

theorem valueAt_eq (dist : (dims.map (·.1)).Nodup) {name value} (mem : (name, [value]) ∈ dims) :
    valueAt dims name = value := by
  rw [valueAt, (Assoc.lookup_eq_some_iff_mem dist).mpr mem]
  rfl

theorem dimensionValue_eq_some (dist : (dims.map (·.1)).Nodup) {name vals} :
    dimensionValue dims name = some vals ↔ (name, vals) ∈ dims := by
  rw [PartitionMappingKind.dimensionValue,
    Assoc.map_find?_eq_some_iff_mem (by rwa [List.map_reverse, List.nodup_reverse]), List.mem_reverse]

def loadDims (dimensionMappings : List (String × String × PartitionMapping))
    (dims : List Dimension) :
    List Dimension :=
  dimensionMappings.map fun entry => (entry.1, [entry.2.2.loadValue (valueAt dims entry.2.1)])

theorem mapDims_eq_ok (axes : ∀ entry ∈ dimensionMappings, entry.2.2.OnAxis)
    (dist : (dims.map (·.1)).Nodup)
    (present : ∀ entry ∈ dimensionMappings, ∃ value, (entry.2.1, [value]) ∈ dims) {result} :
    mapDims library clock dimensionMappings dims upstream = .ok result ↔
      (∀ entry ∈ dimensionMappings, entry.2.2.isSubset = false) ∧
      result = loadDims dimensionMappings dims := by
  induction dimensionMappings generalizing result with
  | nil => simp [mapDims, loadDims]
  | cons entry rest ih =>
    obtain ⟨upstreamDim, downstreamDim, perDim⟩ := entry
    obtain ⟨axis, restAxes⟩ := List.forall_mem_cons.mp axes
    obtain ⟨⟨value, mem⟩, restPresent⟩ := List.forall_mem_cons.mp present
    have found := (Assoc.lookup_eq_some_iff_mem dist).mpr mem
    replace ih := @ih restAxes restPresent
    simp only [mapDims, found, Fallible.bind_eq_ok, mapKey_axis axis,
      List.forall_mem_cons, loadDims, List.map_cons, valueAt_eq dist mem]
    constructor
    · rintro ⟨_, ⟨notSubset, rfl⟩, loaded⟩
      obtain ⟨others, isOthers, same⟩ := Fallible.bind_eq_ok.mp loaded
      grind [loadDims]
    · rintro ⟨⟨notSubset, notSubsets⟩, rfl⟩
      exact ⟨_, ⟨notSubset, rfl⟩, Fallible.bind_eq_ok.mpr ⟨_, ih.mpr ⟨notSubsets, rfl⟩, rfl⟩⟩

open PartitionMappingKind in
theorem mem_extendCombos {combos dimension values} :
    combo ∈ extendCombos combos dimension values ↔
      ∃ base ∈ combos, ∃ value ∈ values, combo = base ++ [(dimension, value)] := by
  grind [extendCombos]

def Targets (dims : List Dimension) (target : String × Option (List String))
    (entry : String × String × PartitionMapping) : Prop :=
  target.1 = entry.2.1 ∧ ∃ upValue, (entry.1, [upValue]) ∈ dims ∧
    if entry.2.2.isAllPartitions then target.2 = none
    else ∃ value, target.2 = some [value] ∧ entry.2.2.loadValue value = upValue

theorem extendCombos_targets {combos entry vals}
    (tgts : ∀ value, value ∈ vals ↔ Targets dims (entry.2.1, value) entry) :
    (∃ base ∈ extendCombos combos entry.2.1 vals, ∃ others,
      List.Forall₂ (Targets dims) others dimensionMappings ∧ combo = base ++ others) ↔
    ∃ base ∈ combos, ∃ all, List.Forall₂ (Targets dims) all (entry :: dimensionMappings) ∧
      combo = base ++ all := by
  constructor
  · rintro ⟨_, extended, others, derived, rfl⟩
    obtain ⟨base, mem, value, inValues, rfl⟩ := mem_extendCombos.mp extended
    exact ⟨base, mem, (entry.2.1, value) :: others,
      .cons ((tgts value).mp inValues) derived, by simp⟩
  · rintro ⟨base, mem, all, derived, rfl⟩
    obtain ⟨⟨name, value⟩, others, own, derivedOthers, rfl⟩ :=
      List.forall₂_cons_right_iff.mp derived
    obtain rfl : name = entry.2.1 := own.1
    exact ⟨_, mem_extendCombos.mpr ⟨base, mem, value, (tgts value).mpr own, rfl⟩, others,
      derivedOthers, by simp⟩

def targetValues : PartitionSelection → Finset (Option (List String))
  | .all => {none}
  | .empty => ∅
  | .keys keys => keys.image fun key => key.singleValues

theorem mem_targetValues {perDim : PartitionMapping} {upValue} (axis : perDim.OnAxis) {target} :
    target ∈ targetValues (perDim.image library clock upstream upValue) ↔
      if perDim.isAllPartitions then target = none
      else ∃ value, target = some [value] ∧ perDim.loadValue value = upValue := by
  split
  · rename_i all
    rw [image_allPartitions all, targetValues, Finset.mem_singleton]
  · rename_i notAll
    obtain ⟨notWild, covers_iff⟩ := @image_axis library clock perDim upstream upValue axis
      (by simpa using notAll)
    cases selection : perDim.image library clock upstream upValue with
    | all => exact absurd selection notWild
    | empty =>
      simp only [selection, PartitionSelection.covers_empty, Bool.false_eq_true, false_iff,
        not_exists, not_and]
        at covers_iff
      grind [targetValues]
    | keys keys =>
      simp only [selection, PartitionSelection.covers_keys, decide_eq_true_eq] at covers_iff
      simp only [targetValues, Finset.mem_image, covers_iff]
      constructor
      · rintro ⟨key, ⟨value, rfl, loads⟩, rfl⟩
        exact ⟨value, rfl, loads⟩
      · rintro ⟨value, rfl, loads⟩
        exact ⟨_, ⟨value, rfl, loads⟩, rfl⟩

theorem exists_single_of_mem_image {perDim : PartitionMapping} {upValue} (axis : perDim.OnAxis)
    {key} (mem : key ∈ (perDim.image library clock upstream upValue).explicit) :
    ∃ value, key = .single [value] := by
  by_cases all : perDim.isAllPartitions
  · rw [image_allPartitions all] at mem
    exact absurd mem (Finset.notMem_empty key)
  · obtain ⟨value, same, -⟩ := (mem_explicit_image axis (by simpa using all)).mp mem
    exact ⟨value, same⟩

theorem mapKeyDownstream_cons {upstreamDim downstreamDim : String} {perDim : PartitionMapping}
    {rest upValue combos} (axis : perDim.OnAxis)
    (found : dimensionValue dims upstreamDim = some [upValue]) :
    mapKeyDownstream ((upstreamDim, downstreamDim, perDim.mappingToKind library clock upstream) ::
        rest) dims combos =
      if targetValues (perDim.image library clock upstream upValue) = ∅ then none
      else mapKeyDownstream rest dims (extendCombos combos downstreamDim
        (targetValues (perDim.image library clock upstream upValue))) := by
  have singles : ∀ key ∈ (perDim.image library clock upstream upValue).explicit,
    key.singleValues ≠ none := by
    intro key mem isNone
    obtain ⟨value, rfl⟩ := exists_single_of_mem_image axis mem
    cases isNone
  have isImage : (perDim.mappingToKind library clock upstream).mapToDownstreamIn
      (singleSelection [upValue]) none = perDim.image library clock upstream upValue := rfl
  simp only [mapKeyDownstream, found, isImage]
  cases selection : perDim.image library clock upstream upValue with
  | all => simp [targetValues]
  | empty => simp [targetValues]
  | keys keys =>
    rw [selection] at singles
    have notNone : ¬ ∃ key ∈ keys, key.singleValues = none :=
      fun ⟨key, mem, isNone⟩ => singles key mem isNone
    simp [targetValues, notNone]

theorem mem_mapKeyDownstream (axes : ∀ entry ∈ dimensionMappings, entry.2.2.OnAxis)
    (dist : (dims.map (·.1)).Nodup) (single : ∀ dim ∈ dims, ∃ value, dim.2 = [value])
    {combos : Finset Combo} :
    combo ∈ (mapKeyDownstream (mappingsToKinds library clock dimensionMappings upstream) dims
        combos).getD ∅ ↔
      ∃ base ∈ combos, ∃ tgts, List.Forall₂ (Targets dims) tgts dimensionMappings ∧
        combo = base ++ tgts := by
  induction dimensionMappings generalizing combos with
  | nil => simp [mappingsToKinds, mapKeyDownstream]
  | cons entry rest ih =>
    obtain ⟨upstreamDim, downstreamDim, perDim⟩ := entry
    obtain ⟨axis, restAxes⟩ := List.forall_mem_cons.mp axes
    replace ih := @ih restAxes
    cases found : dimensionValue dims upstreamDim with
    | none =>
      simp only [mappingsToKinds, mapKeyDownstream, found, Option.getD_none,
        Finset.notMem_empty, false_iff]
      rintro ⟨base, -, all, derived, -⟩
      obtain ⟨_, _, ⟨-, upValue, mem, -⟩, -, -⟩ := List.forall₂_cons_right_iff.mp derived
      have isFound := (dimensionValue_eq_some dist).mpr mem
      rw [found] at isFound
      cases isFound
    | some vals =>
      have mem := (dimensionValue_eq_some dist).mp found
      obtain ⟨upValue, rfl⟩ : ∃ upValue, vals = [upValue] := single _ mem
      have unique : ∀ other, (upstreamDim, [other]) ∈ dims → other = upValue :=
        fun other isOther => by
        have same := List.inj_on_of_nodup_map dist isOther mem rfl
        simpa using same
      have tgts (target : Option (List String)) :
          target ∈ targetValues (perDim.image library clock
            (upstream.bind (·.dimensionDef upstreamDim)) upValue) ↔
            Targets dims (downstreamDim, target) (upstreamDim, downstreamDim, perDim) := by
        grind [PartitionMapping.mem_targetValues, PartitionMapping.Targets]
      rw [mappingsToKinds, mapKeyDownstream_cons axis found,
        ← @extendCombos_targets rest dims combo combos (upstreamDim, downstreamDim, perDim) _ tgts]
      grind [extendCombos]

open PartitionMappingKind in
theorem covers_expandWildcards {combos known key} :
    (expandWildcards combos (some known)).covers key ↔
      ∃ combo ∈ combos, if isWildcard combo then key ∈ known ∧
        ∃ dims ∈ key.multiDims, comboMatches combo dims
        else comboKey combo = key := by
  simp only [expandWildcards]
  split
  · grind [PartitionSelection.covers_fromKeys, Finset.filter_eq_empty_iff]
  · grind [PartitionSelection.covers_fromKeys]

end Dimensions

section Edge

variable (library : TimeLibrary) (clock : DateTime) (mapping : PartitionMapping)
  (up : PartitionsDefinition)

def loads (downKey upKey : PartitionKey) : Bool :=
  match mapping.resolveUpstreamKey library clock (some downKey) (some up) with
  | .ok (.load (some key)) => upKey ∈ key.members
  | _ => false

def derives (downstreamUniverse : Finset PartitionKey) (upKey downKey : PartitionKey) : Bool :=
  ((mapping.mappingToKind library clock (some up)).mapToDownstreamIn (.keys {upKey})
    (some downstreamUniverse)).covers downKey

variable {library clock mapping up} {downKey upKey : PartitionKey}
  {downstreamUniverse : Finset PartitionKey}

theorem loads_iff (timeless : mapping.isTimeless) (notSubset : mapping.isSubset = false) :
    mapping.loads library clock up downKey upKey ↔
      ∃ key, mapping.mapKey library clock downKey (some up) = .ok key ∧ upKey ∈ key.members := by
  have resolves : mapping.resolveUpstreamKey library clock (some downKey) (some up) =
      ((mapping.mapKey library clock downKey (some up)).mapError .keyMappingFailed).map
        (.load ∘ some) := by
    cases mapping with
    | subset => cases notSubset
    | timeWindow _ | specificPartitions _ | forKeys _ => cases timeless
    | identity | allPartitions | static _ | multi _ | multiToSingle _ _ =>
      simp only [resolveUpstreamKey]
      split <;> simp_all [Except.mapError, Except.map]
  rw [loads, resolves]
  cases mapping.mapKey library clock downKey (some up) <;> simp [Except.mapError, Except.map]

section Multi

variable {dimensionMappings : List (String × String × PartitionMapping)}
  {downDims upDims : List Dimension} {downNames upNames : List String}

theorem spans_loadDims (keyed : (dimensionMappings.map (·.1)).Nodup) (dims : List Dimension) :
    (PartitionKey.multi (loadDims dimensionMappings dims)).Spans
      (RawPartitionKey.sortDims (loadDims dimensionMappings dims))
        (dimensionMappings.map (·.1)) := by
  grind [PartitionKey.spans_multi, loadDims, PartitionKey.Spans]

theorem loads_multi (axes : ∀ entry ∈ dimensionMappings, entry.2.2.OnAxis)
    (keyed : (dimensionMappings.map (·.1)).Nodup) (spans : downKey.Spans downDims downNames)
    (tgts : ∀ entry ∈ dimensionMappings, entry.2.1 ∈ downNames) :
    (multi dimensionMappings).loads library clock up downKey upKey ↔
      (∀ entry ∈ dimensionMappings, entry.2.2.isSubset = false) ∧
      upKey = .multi (loadDims dimensionMappings downDims) := by
  rw [loads_iff rfl rfl]
  have single := (spans_loadDims keyed downDims).singleValued
  simp only [mapKey, spans.raw]
  constructor
  · grind [Fallible.map_eq_ok, mapDims_eq_ok, PartitionKey.Spans.distinct,
      PartitionKey.Spans.exists_value, PartitionKey.members_of_singleValued]
  · rintro ⟨notSubset, rfl⟩
    refine ⟨_, ?_, (PartitionKey.members_of_singleValued single).symm ▸ List.mem_singleton_self _⟩
    rw [(mapDims_eq_ok axes spans.distinct
      fun entry inEntries => spans.exists_value (tgts entry inEntries)).mpr ⟨notSubset, rfl⟩]
    rfl

theorem derives_multi (axes : ∀ entry ∈ dimensionMappings, entry.2.2.OnAxis)
    (spans : upKey.Spans upDims upNames) :
    (multi dimensionMappings).derives library clock up downstreamUniverse upKey downKey ↔
      ∃ tgts, List.Forall₂ (Targets upDims) tgts dimensionMappings ∧
        if isWildcard tgts then
          downKey ∈ downstreamUniverse ∧ ∃ dims ∈ downKey.multiDims, comboMatches tgts dims
        else comboKey tgts = downKey := by
  simp only [derives, mappingToKind, mapToDownstreamIn, Finset.singleton_biUnion, spans.multiDims,
    Option.bind_some]
  rw [covers_expandWildcards]
  simp only [mem_mapKeyDownstream axes spans.distinct spans.single, Finset.mem_singleton,
    exists_eq_left, List.nil_append, exists_eq_right']

def wantedCombo (dimensionMappings : List (String × String × PartitionMapping))
    (dims : List Dimension) : Combo :=
  dimensionMappings.map fun entry =>
    (entry.2.1, if entry.2.2.isAllPartitions then none else some [valueAt dims entry.2.1])

theorem targets_wantedCombo (dims : List Dimension) :
    List.Forall₂ (Targets (RawPartitionKey.sortDims (loadDims dimensionMappings dims)))
      (wantedCombo dimensionMappings dims) dimensionMappings := by
  refine List.forall₂_map_left_iff.mpr (List.forall₂_same.mpr fun entry mem => ?_)
  refine ⟨rfl, entry.2.2.loadValue (valueAt dims entry.2.1), ?_, ?_⟩
  · exact (perm_sortDims _).mem_iff.mpr (List.mem_map.mpr ⟨entry, mem, rfl⟩)
  simp

theorem comboMatches_wantedCombo {dims}
    (present : ∀ entry ∈ dimensionMappings, (entry.2.1, [valueAt dims entry.2.1]) ∈ dims) :
    comboMatches (wantedCombo dimensionMappings dims) dims := by
  grind [comboMatches, PartitionMapping.wantedCombo]

theorem comboKey_wantedCombo {dims}
    (tame : ∀ entry ∈ dimensionMappings, entry.2.2.isAllPartitions = false) :
    comboKey (wantedCombo dimensionMappings dims) =
      .multi (dimensionMappings.map fun entry => (entry.2.1, [valueAt dims entry.2.1])) := by
  rw [comboKey, wantedCombo, List.filterMap_map, ← List.filterMap_eq_map]
  congr 1
  refine List.filterMap_congr fun entry mem => ?_
  simp [tame entry mem]

theorem derives_of_loadDims (axes : ∀ entry ∈ dimensionMappings, entry.2.2.OnAxis)
    (keyed : (dimensionMappings.map (·.1)).Nodup) (dist : (dimensionMappings.map (·.2.1)).Nodup)
    (spans : downKey.Spans downDims downNames)
    (tgts : ∀ entry ∈ dimensionMappings, entry.2.1 ∈ downNames)
    (covered : ∀ name ∈ downNames, name ∈ dimensionMappings.map (·.2.1))
    (inUniverse : downKey ∈ downstreamUniverse) :
    (multi dimensionMappings).derives library clock up downstreamUniverse
      (.multi (loadDims dimensionMappings downDims))
      downKey := by
  have present (entry) (mem : entry ∈ dimensionMappings) :
      (entry.2.1, [valueAt downDims entry.2.1]) ∈
    downDims := by
    obtain ⟨value, isValue⟩ := spans.exists_value (tgts entry mem)
    rwa [valueAt_eq spans.distinct isValue]
  refine (derives_multi axes (spans_loadDims keyed downDims)).mpr
    ⟨wantedCombo dimensionMappings downDims, targets_wantedCombo downDims, ?_⟩
  split
  · exact ⟨inUniverse, downDims, spans.multiDims, comboMatches_wantedCombo present⟩
  · rename_i tame
    have notAll : ∀ entry ∈ dimensionMappings, entry.2.2.isAllPartitions = false := by
      simpa [isWildcard, wantedCombo] using tame
    rw [comboKey_wantedCombo notAll]
    refine (spans.eq_multi (by rwa [List.map_map]) fun dim => ⟨fun mem => ?_, fun mem => ?_⟩).symm
    · grind [List.mem_map_of_mem, valueAt_eq, PartitionKey.Spans]
    · grind

theorem eq_loadDims_of_derives (axes : ∀ entry ∈ dimensionMappings, entry.2.2.OnAxis)
    (keyed : (dimensionMappings.map (·.1)).Nodup)
    (notAll : ∀ entry ∈ dimensionMappings, entry.2.2.isAllPartitions = false)
    (spans : downKey.Spans downDims downNames) (upSpans : upKey.Spans upDims upNames)
    (mapped : ∀ name ∈ upNames, name ∈ dimensionMappings.map (·.1))
    (derived : (multi dimensionMappings).derives library clock up downstreamUniverse
      upKey downKey) :
    upKey = .multi (loadDims dimensionMappings downDims) := by
  obtain ⟨tgts, targeted, isKey⟩ := (derives_multi axes upSpans).mp derived
  have tame : isWildcard tgts = false := by
    simp only [isWildcard, List.any_eq_false]
    intro target mem
    obtain ⟨entry, inEntries, -, _, -, value⟩ := Assoc.exists_right_of_forall₂ targeted mem
    grind
  rw [tame, if_neg Bool.false_ne_true] at isKey
  have loaded (entry) (mem : entry ∈ dimensionMappings) :
      (entry.1, [entry.2.2.loadValue (valueAt downDims entry.2.1)]) ∈ upDims := by
    obtain ⟨target, inTargets, sameName, upValue, isUp, value⟩ :=
      Assoc.exists_left_of_forall₂ targeted mem
    rw [notAll entry mem, if_neg Bool.false_ne_true] at value
    obtain ⟨value, isValue, rfl⟩ := value
    have isDown : (entry.2.1, [value]) ∈ downDims := by
      have raw : downKey.raw = .multi (RawPartitionKey.sortDims _) := congrArg raw isKey.symm
      grind [perm_sortDims, PartitionKey.Spans]
    rwa [valueAt_eq spans.distinct isDown]
  refine upSpans.eq_multi (by rwa [loadDims, List.map_map]) fun dim => ⟨fun mem => ?_,
    fun mem => ?_⟩
  · grind [List.mem_map_of_mem, List.inj_on_of_nodup_map, loadDims, PartitionKey.Spans]
  · grind [loadDims]

end Multi

section OneDimension

variable {dimensionName upValue : String} {inner : PartitionMapping}
  {downDims upDims : List Dimension} {downNames upNames : List String}

theorem loads_of_dimension (axis : inner.OnAxis) (spans : downKey.Spans downDims downNames)
    (inNames : dimensionName ∈ downNames) :
    (multiToSingle dimensionName inner).loads library clock up downKey upKey ↔
      inner.isSubset = false ∧
      upKey = .single [inner.loadValue (valueAt downDims dimensionName)] := by
  obtain ⟨value, isValue⟩ := spans.exists_value inNames
  rw [loads_iff rfl rfl, valueAt_eq spans.distinct isValue]
  simp only [mapKey, spans.raw, (Assoc.lookup_eq_some_iff_mem spans.distinct).mpr isValue,
    mapKey_axis axis]
  constructor
  · rintro ⟨_, ⟨notSubset, rfl⟩, mem⟩
    exact ⟨notSubset, by simpa [members_single] using mem⟩
  · rintro ⟨notSubset, rfl⟩
    exact ⟨_, ⟨notSubset, rfl⟩, by simp [members_single]⟩

section FanOut

variable {known : String → Finset String} {dimensions : List (String × PartitionsDefinition)}
  {value : String}

variable (library clock dimensionName) in
def Fans (values : List String) (dim : Dimension) (dimension : String × PartitionsDefinition) :
    Prop :=
  dim.1 = dimension.1 ∧ if dimension.1 = dimensionName then dim.2 = values
    else dimension.2.enumerateSingleDimKeys library clock = .ok dim.2

theorem fanOut_cons_eq_ok {vals dims dimension} :
    fanOut library clock dimensionName vals (dimension :: dimensions) = .ok dims ↔
      ∃ own others, Fans library clock dimensionName vals own dimension ∧
        fanOut library clock dimensionName vals dimensions = .ok others ∧ dims = own :: others := by
  obtain ⟨name, definition⟩ := dimension
  by_cases same : name = dimensionName
  · simp only [fanOut, if_pos same, Fallible.bind_eq_ok, Except.ok.injEq, exists_eq_left', Fans]
    grind
  · simp only [fanOut, if_neg same, Fans]
    cases enumerated : definition.enumerateSingleDimKeys library clock with
    | error reason => simp [Fallible.bind_eq_ok]
    | ok keys =>
      simp only [Fallible.bind_eq_ok, Except.ok.injEq, exists_eq_left']
      grind

theorem fanOut_eq_ok {vals dims} :
    fanOut library clock dimensionName vals dimensions = .ok dims ↔
      List.Forall₂ (Fans library clock dimensionName vals) dims dimensions := by
  induction dimensions generalizing dims with
  | nil => simp only [fanOut, Except.ok.injEq, List.forall₂_nil_right_iff, eq_comm]
  | cons dimension rest ih =>
    simp only [fanOut_cons_eq_ok, List.forall₂_cons_right_iff, ih]

theorem loads_of_value (axis : inner.OnAxis) (dist : (dimensions.map (·.1)).Nodup) :
    (multiToSingle dimensionName inner).loads library clock (.multi dimensions)
      (.single [value]) upKey ↔
      inner.isSubset = false ∧ ∃ dims choice,
        List.Forall₂ (Fans library clock dimensionName [inner.loadValue value]) dims dimensions ∧
          List.Forall₂ PartitionKey.Picks choice dims ∧ upKey = .multi choice := by
  have raw : (single [value]).raw = .single [value] := rfl
  have distinctDims {dims : List Dimension}
      (fans : List.Forall₂ (Fans library clock dimensionName [inner.loadValue value]) dims
        dimensions) :
      (dims.map (·.1)).Nodup :=
    Assoc.map_eq_of_forall₂ (fun _ _ fans => fans.1) fans ▸ dist
  rw [loads_iff rfl rfl]
  simp only [mapKey, raw, Fallible.bind_eq_ok, mapKey_axis axis]
  constructor
  · rintro ⟨key, ⟨_, ⟨notSubset, rfl⟩, loaded⟩, mem⟩
    obtain ⟨dims, isDims, rfl⟩ := Fallible.map_eq_ok.mp loaded
    grind [fanOut_eq_ok, mem_members_multi]
  · rintro ⟨notSubset, dims, choice, fans, picks, same⟩
    refine ⟨.multi dims, ⟨_, ⟨notSubset, rfl⟩, ?_⟩,
      (mem_members_multi (distinctDims fans)).mpr ⟨choice, picks, same⟩⟩
    exact Fallible.map_eq_ok.mpr ⟨dims, fanOut_eq_ok.mpr fans, rfl⟩

theorem spans_of_fans {axis dims choice} (dist : (dimensions.map (·.1)).Nodup)
    (named : (dimensionName, axis) ∈ dimensions)
    (fans : List.Forall₂ (Fans library clock dimensionName [upValue]) dims dimensions)
    (picks : List.Forall₂ PartitionKey.Picks choice dims) :
    (PartitionKey.multi choice).Spans (RawPartitionKey.sortDims choice) (choice.map (·.1)) ∧
      (dimensionName, [upValue]) ∈ RawPartitionKey.sortDims choice := by
  have names : choice.map (·.1) = dimensions.map (·.1) :=
    (PartitionKey.Picks.names picks).trans (Assoc.map_eq_of_forall₂ (fun _ _ fans => fans.1) fans)
  refine ⟨PartitionKey.spans_multi (names ▸ dist) fun dim mem => ?_, ?_⟩
  · obtain ⟨_, -, -, value, -, isValue⟩ := Assoc.exists_right_of_forall₂ picks mem
    exact ⟨value, isValue⟩
  · obtain ⟨dim, inDims, sameName, vals⟩ := Assoc.exists_left_of_forall₂ fans named
    obtain ⟨pick, inChoice, pickName, value, inValues, isValue⟩ :=
      Assoc.exists_left_of_forall₂ picks inDims
    grind [PartitionKey.perm_sortDims]

theorem fixed_of_fans {vals dims}
    (fans : List.Forall₂ (Fans library clock dimensionName vals) dims dimensions) :
    ∀ dimension ∈ dimensions, dimension.1 ≠ dimensionName → dimension.2.isDynamic = false := by
  rintro ⟨name, definition⟩ member other
  obtain ⟨_, -, -, enumerated⟩ := Assoc.exists_left_of_forall₂ fans member
  rw [if_neg other] at enumerated
  cases definition with
  | dynamic _ => cases enumerated
  | static _ | timeWindow _ | multi _ => rfl

theorem exists_fans {choice}
    (chosen : List.Forall₂ (PartitionsDefinition.Chooses library clock known) choice dimensions)
    (isUp : ∀ dim ∈ choice, dim.1 = dimensionName → dim.2 = [upValue])
    (fixed : ∀ dimension ∈ dimensions, dimension.1 ≠ dimensionName →
      dimension.2.isDynamic = false) :
    ∃ dims, List.Forall₂ (Fans library clock dimensionName [upValue]) dims dimensions ∧
      List.Forall₂ PartitionKey.Picks choice dims := by
  induction chosen with
  | nil => exact ⟨[], .nil, .nil⟩
  | @cons dim dimension choice rest chooses _ ih =>
    obtain ⟨ownUp, restUp⟩ := List.forall_mem_cons.mp isUp
    obtain ⟨ownFixed, restFixed⟩ := List.forall_mem_cons.mp fixed
    obtain ⟨dims, fans, picks⟩ := ih restUp restFixed
    obtain ⟨sameName, keys, enumerated, value, mem, isValue⟩ := chooses
    by_cases named : dimension.1 = dimensionName
    · refine ⟨(dimension.1, [upValue]) :: dims, .cons ⟨rfl, by rw [if_pos named]⟩ fans,
        .cons ⟨sameName, ?_⟩ picks⟩
      grind
    · rw [resolveAxis_of_not_isDynamic (ownFixed named)] at enumerated
      exact ⟨(dimension.1, keys) :: dims, .cons ⟨rfl, by rwa [if_neg named]⟩ fans,
        .cons ⟨sameName, value, mem, isValue⟩ picks⟩

end FanOut

theorem exists_innerDef :
    ∃ innerDef, (multiToSingle dimensionName inner).mappingToKind library clock (some up) =
    .multiToSingle dimensionName (inner.mappingToKind library clock innerDef) :=
  ⟨_, rfl⟩

theorem derives_of_value (axis : inner.OnAxis) (spans : downKey.Spans downDims downNames)
    (inUniverse : downKey ∈ downstreamUniverse) :
    (multiToSingle dimensionName inner).derives library clock up downstreamUniverse
      (.single [upValue]) downKey ↔
      inner.isAllPartitions ∨ ∃ value, (dimensionName, [value]) ∈ downDims ∧ inner.loadValue value =
        upValue := by
  have noDims : (single [upValue]).multiDims = none := rfl
  have vals : (single [upValue]).singleValues = some [upValue] := rfl
  obtain ⟨innerDef, isKind⟩ := @exists_innerDef library clock up dimensionName inner
  have isImage : (inner.mappingToKind library clock innerDef).mapToDownstreamIn
      (singleSelection [upValue]) none = inner.image library clock innerDef upValue := rfl
  simp only [derives, isKind, mapToDownstreamIn, Finset.singleton_biUnion, noDims, vals,
    Option.bind_none, Option.toFinset_none, Option.toFinset_some, Finset.image_empty,
    Finset.image_singleton, isImage, Finset.empty_union, Finset.mem_singleton, Finset.biUnion_empty]
  by_cases all : inner.isAllPartitions
  · simp [image_allPartitions all, all]
  · obtain ⟨notWild, -⟩ := @image_axis library clock inner innerDef upValue axis
      (by simpa using all)
    have mem_wanted (vals : List String) :
        vals ∈ ((inner.image library clock innerDef upValue).explicit.biUnion fun key =>
          key.singleValues.toFinset) ↔
          ∃ value, vals = [value] ∧ inner.loadValue value = upValue := by
      simp only [Finset.mem_biUnion, mem_explicit_image axis (by simpa using all),
        Option.mem_toFinset]
      constructor
      · rintro ⟨_, ⟨value, rfl, loads⟩, isValues⟩
        exact ⟨value, (Option.some.inj isValues).symm, loads⟩
      · rintro ⟨value, rfl, loads⟩
        exact ⟨_, ⟨value, rfl, loads⟩, rfl⟩
    rw [if_neg (Ne.symm notWild)]
    simp only [all, Bool.false_eq_true, false_or]
    split
    · simp_all
    · simp only [PartitionSelection.covers_fromKeys, decide_eq_true_eq, Finset.mem_filter,
        inUniverse, true_and,
        spans.multiDims, Option.mem_def, Option.some.injEq, exists_eq_left', List.any_eq_true,
        Bool.and_eq_true, mem_wanted]
      simp

theorem derives_of_dimension (axis : inner.OnAxis) (spans : upKey.Spans upDims upNames) {value}
    (isUp : (dimensionName, [upValue]) ∈ upDims) :
    (multiToSingle dimensionName inner).derives library clock up downstreamUniverse upKey
      (.single [value]) ↔
      inner.isAllPartitions ∨ inner.loadValue value = upValue := by
  obtain ⟨innerDef, isKind⟩ := @exists_innerDef library clock up dimensionName inner
  have isImage : (inner.mappingToKind library clock innerDef).mapToDownstreamIn
      (singleSelection [upValue]) none = inner.image library clock innerDef upValue := rfl
  have found := (Assoc.map_find?_eq_some_iff_mem spans.distinct).mpr isUp
  simp only [derives, isKind, mapToDownstreamIn, Finset.singleton_biUnion, spans.multiDims,
    spans.singleValues, Option.bind_some, found, Option.toFinset_none, Option.toFinset_some,
    Finset.image_empty,
    Finset.image_singleton, isImage, Finset.union_empty, Finset.mem_singleton,
    Finset.biUnion_empty, if_true]
  by_cases all : inner.isAllPartitions
  · simp [image_allPartitions all, all]
  · obtain ⟨notWild, -⟩ := @image_axis library clock inner innerDef upValue axis
      (by simpa using all)
    rw [if_neg (Ne.symm notWild), PartitionSelection.covers_fromKeys, decide_eq_true_eq,
      mem_explicit_image axis (by simpa using all)]
    grind [single_inj]

end OneDimension

variable {downDef : PartitionsDefinition} {known : String → Finset String}
  {executorClock : DateTime}

variable (library clock mapping up upKey) in
def Loadable : Prop :=
  match mapping with
  | .subset => up.validatePartitionKey library clock upKey = .ok true
  | .multi dimensionMappings => ∀ entry ∈ dimensionMappings, entry.2.2.isSubset = false
  | .multiToSingle dimensionName inner => inner.isSubset = false ∧
      match up with
      | .multi dimensions =>
          ∀ dimension ∈ dimensions, dimension.1 ≠ dimensionName → dimension.2.isDynamic = false
      | _ => True
  | _ => True

structure Mirrors (library : TimeLibrary) (clock executorClock : DateTime)
    (known : String → Finset String) (downstreamUniverse : Finset PartitionKey)
    (up : PartitionsDefinition) (downKey upKey : PartitionKey)
    (mapping : PartitionMapping) : Prop where
  derived : mapping.loads library executorClock up downKey upKey →
    mapping.derives library clock up downstreamUniverse upKey downKey
  loaded : (up.resolveDynamic known).hasKey library executorClock upKey →
    mapping.everyPart (!·.isAllPartitions) →
    mapping.derives library clock up downstreamUniverse upKey downKey →
      (mapping.loads library executorClock up downKey upKey ↔
        mapping.Loadable library executorClock up upKey)

section Cases

theorem derives_same (same : mapping = .identity ∨ mapping = .subset) :
    mapping.derives library clock up downstreamUniverse upKey downKey ↔ downKey = upKey := by
  rcases same with rfl | rfl <;>
    simp [derives, mappingToKind, mapToDownstreamIn]

theorem mirrors_identity (single : downKey.SingleValued) :
    Mirrors library clock executorClock known downstreamUniverse up downKey upKey identity := by
  have loads_same : identity.loads library executorClock up downKey upKey ↔ downKey = upKey := by
    rw [loads_iff rfl rfl]
    simp [mapKey, members_of_singleValued single, eq_comm]
  refine ⟨fun loaded => ?_, fun _ _ derived => ?_⟩
  · exact (derives_same (.inl rfl)).mpr (loads_same.mp loaded)
  · exact iff_of_true (loads_same.mpr ((derives_same (.inl rfl)).mp derived)) trivial

theorem mirrors_subset (single : downKey.SingleValued) :
    Mirrors library clock executorClock known downstreamUniverse up downKey upKey subset := by
  have loads_same : subset.loads library executorClock up downKey upKey ↔
      up.validatePartitionKey library executorClock downKey = .ok true ∧ upKey = downKey := by
    simp only [loads, resolveUpstreamKey]
    grind [members_of_singleValued]
  refine ⟨fun loaded => ?_, fun _ _ derived => ?_⟩
  · exact (derives_same (.inr rfl)).mpr (loads_same.mp loaded).2.symm
  · obtain rfl := (derives_same (.inr rfl)).mp derived
    exact loads_same.trans (and_iff_left rfl)

theorem mirrors_allPartitions :
    Mirrors library clock executorClock known downstreamUniverse up downKey upKey
    allPartitions := by
  refine ⟨fun _ => ?_, fun _ notAll _ => ?_⟩
  · simp [derives, mappingToKind, mapToDownstreamIn, PartitionSelection.isEmpty]
  · cases everyPart_self notAll

theorem mirrors_static {table} (single : downKey.SingleValued) :
    Mirrors library clock executorClock known downstreamUniverse up downKey upKey
      (static table) := by
  have derives_iff : (static table).derives library clock up downstreamUniverse upKey downKey ↔
      ∃ value, downKey = .single [value] ∧ upKey = .single [(static table).loadValue value] := by
    simp only [derives, mappingToKind, mapToDownstreamIn]
    exact covers_mapStatic
  have axis : (static table).OnAxis := trivial
  have loads_same : (static table).loads library executorClock up downKey upKey ↔
      ∃ value, downKey = .single [value] ∧ upKey = .single [(static table).loadValue value] := by
    rw [loads_iff rfl rfl]
    constructor
    · rintro ⟨key, mapped, mem⟩
      rcases single_or_multi single with ⟨value, rfl⟩ | ⟨dims, raw⟩
      · obtain ⟨-, rfl⟩ := (mapKey_axis axis).mp mapped
        exact ⟨value, rfl, List.mem_singleton.mp mem⟩
      · simp only [mapKey, raw] at mapped
        cases mapped
    · rintro ⟨value, rfl, rfl⟩
      exact ⟨_, (mapKey_axis axis).mpr ⟨rfl, rfl⟩, List.mem_singleton_self _⟩
  exact ⟨fun loaded => derives_iff.mpr (loads_same.mp loaded),
    fun _ _ derived => iff_of_true (loads_same.mpr (derives_iff.mp derived)) trivial⟩

section Validated

variable (downValid : downDef.validateDefinition library = .ok ())
  (upValid : up.validateDefinition library = .ok ())
  (isDown : (downDef.resolveDynamic known).hasKey library clock downKey)
  (inUniverse : downKey ∈ downstreamUniverse) {validationClock : DateTime}

include downValid upValid isDown inUniverse

theorem mirrors_multi {dimensionMappings} (keyed : (multi dimensionMappings).everyPart isKeyed)
    (timeless : (multi dimensionMappings).everyPart isTimeless)
    (edge : (multi dimensionMappings).validatePartitionedPair library validationClock downDef up =
      .ok ()) :
    Mirrors library clock executorClock known downstreamUniverse up downKey upKey
      (multi dimensionMappings) := by
  obtain ⟨downDims, upDims, rfl, rfl, pairs⟩ := pairsDimensions_of_edge edge
  have downDistinct := nodup_of_validate downValid
  have upDistinct := nodup_of_validate upValid
  have distinctKeys : (dimensionMappings.map (·.1)).Nodup :=
    of_decide_eq_true (everyPart_self keyed)
  obtain ⟨downChoice, downChosen, rfl⟩ := exists_choice_of_hasKey isDown
  have downSpans := spans_of_chooses downDistinct downChosen
  have ents := pairs.onAxis timeless downValid upValid
  have axes := fun entry mem => (ents entry mem).1
  have tgts := fun entry mem => (ents entry mem).2
  refine ⟨fun loaded => ?_, fun isUp notAll derived => ?_⟩
  · obtain ⟨-, rfl⟩ := (loads_multi axes distinctKeys downSpans tgts).mp loaded
    exact derives_of_loadDims axes distinctKeys pairs.distinct downSpans tgts
      pairs.covers.1 inUniverse
  · obtain ⟨upChoice, upChosen, rfl⟩ := exists_choice_of_hasKey isUp
    have upSpans := spans_of_chooses upDistinct upChosen
    have tame : ∀ entry ∈ dimensionMappings, entry.2.2.isAllPartitions = false :=
      fun entry mem => by
      simpa using everyPart_self (everyPart_perDim notAll entry mem)
    have same := eq_loadDims_of_derives axes distinctKeys tame downSpans upSpans
      pairs.covers.2 derived
    exact (loads_multi axes distinctKeys downSpans tgts).trans (and_iff_left same)

theorem mirrors_toSingle {dimensionName inner axis dimensions}
    (isMulti : downDef = .multi dimensions) (isAxis : dimensions.lookup dimensionName = some axis)
    (notMulti : ∀ upDims, up ≠ .multi upDims) (timeless : inner.isTimeless)
    (edge : inner.validatePartitionedPair library validationClock axis up = .ok ()) :
    Mirrors library clock executorClock known downstreamUniverse up downKey upKey
      (multiToSingle dimensionName inner) := by
  subst isMulti
  have downDistinct := nodup_of_validate downValid
  have inDown := (Assoc.lookup_eq_some_iff_mem downDistinct).mp isAxis
  have upAxis := isAxis_of_not_multi upValid notMulti
  have onAxis := onAxis_of_edge timeless ((wellFormed_of_validate downValid).2 _ inDown) upAxis edge
  obtain ⟨downChoice, downChosen, rfl⟩ := exists_choice_of_hasKey isDown
  have spans := spans_of_chooses downDistinct downChosen
  have inNames : dimensionName ∈ dimensions.map (·.1) := List.mem_map_of_mem inDown
  obtain ⟨value, isValue⟩ := spans.exists_value inNames
  have loads_same := @loads_of_dimension library executorClock up _ upKey dimensionName inner _ _
    onAxis spans inNames
  rw [valueAt_eq spans.distinct isValue] at loads_same
  refine ⟨fun loaded => ?_, fun isUp notAll derived => ?_⟩
  · grind [derives_of_value]
  · obtain ⟨upValue, rfl⟩ := exists_single_of_hasKey upAxis isUp
    have tame : ¬ inner.isAllPartitions := by simpa using everyPart_self (everyPart_inner notAll)
    obtain ⟨other, isOther, rfl⟩ := ((derives_of_value onAxis spans inUniverse).mp
      derived).resolve_left tame
    have same : other = value := by
      rw [← valueAt_eq spans.distinct isOther, valueAt_eq spans.distinct isValue]
    rw [loads_same, same, and_iff_left rfl]
    cases up with
    | multi upDims => exact absurd rfl (notMulti upDims)
    | static _ | timeWindow _ | dynamic _ => exact (and_iff_left trivial).symm

omit inUniverse in
theorem mirrors_fromSingle {dimensionName inner axis dimensions} (isMulti : up = .multi dimensions)
    (isAxis : dimensions.lookup dimensionName = some axis)
    (notMulti : ∀ downDims, downDef ≠ .multi downDims) (timeless : inner.isTimeless)
    (edge : inner.validatePartitionedPair library validationClock downDef axis = .ok ()) :
    Mirrors library clock executorClock known downstreamUniverse up downKey upKey
      (multiToSingle dimensionName inner) := by
  subst isMulti
  have upDistinct := nodup_of_validate upValid
  have inUp := (Assoc.lookup_eq_some_iff_mem upDistinct).mp isAxis
  have downAxis := isAxis_of_not_multi downValid notMulti
  have onAxis := onAxis_of_edge timeless downAxis ((wellFormed_of_validate upValid).2 _ inUp) edge
  obtain ⟨value, rfl⟩ := exists_single_of_hasKey downAxis isDown
  have loads_same := @loads_of_value library executorClock upKey dimensionName inner dimensions
    value onAxis upDistinct
  refine ⟨fun loaded => ?_, fun isUp notAll derived => ?_⟩
  · obtain ⟨-, dims, choice, fans, picks, rfl⟩ := loads_same.mp loaded
    obtain ⟨spans, isUpValue⟩ := spans_of_fans upDistinct inUp fans picks
    exact (derives_of_dimension onAxis spans isUpValue).mpr (.inr rfl)
  · obtain ⟨choice, chosen, rfl⟩ := exists_choice_of_hasKey isUp
    have spans := spans_of_chooses upDistinct chosen
    have tame : ¬ inner.isAllPartitions := by simpa using everyPart_self (everyPart_inner notAll)
    obtain ⟨upValue, isUpValue⟩ := spans.exists_value (List.mem_map_of_mem inUp)
    obtain rfl := ((derives_of_dimension onAxis spans isUpValue).mp derived).resolve_left tame
    have isLoaded : ∀ dim ∈ choice, dim.1 = dimensionName → dim.2 = [inner.loadValue value] := by
      intro dim member named
      have inDims := (perm_sortDims choice).mem_iff.mpr member
      exact congrArg Prod.snd (List.inj_on_of_nodup_map spans.distinct inDims isUpValue named)
    rw [loads_same]
    refine and_congr_right fun _ => ⟨fun ⟨dims, _, fans, _, _⟩ => fixed_of_fans fans,
      fun fixed => ?_⟩
    obtain ⟨dims, fans, picks⟩ := exists_fans chosen isLoaded fixed
    exact ⟨dims, choice, fans, picks, rfl⟩

end Validated

end Cases

/-- On a validated edge the engine derives a downstream key from every upstream key that the
executor loads for it. -/
theorem loaded_keys_mirror_derived {validationClock : DateTime}
    (downValid : downDef.validateDefinition library = .ok ())
    (upValid : up.validateDefinition library = .ok ()) (keyed : mapping.everyPart isKeyed)
    (timeless : mapping.everyPart isTimeless)
    (edge : mapping.validatePartitionedPair library validationClock downDef up = .ok ())
    (isDown : (downDef.resolveDynamic known).hasKey library clock downKey)
    (inUniverse : downKey ∈ downstreamUniverse) :
    (mapping.loads library executorClock up downKey upKey →
      mapping.derives library clock up downstreamUniverse upKey downKey) ∧
    ((up.resolveDynamic known).hasKey library executorClock upKey →
      mapping.everyPart (!·.isAllPartitions) →
      mapping.derives library clock up downstreamUniverse upKey downKey →
        (mapping.loads library executorClock up downKey upKey ↔
          mapping.Loadable library executorClock up upKey)) := by
  have single := singleValued_of_hasKey downValid isDown
  suffices mirrors : Mirrors library clock executorClock known downstreamUniverse up downKey upKey
      mapping from
    ⟨mirrors.derived, mirrors.loaded⟩
  cases mapping with
  | identity => exact mirrors_identity single
  | allPartitions => exact mirrors_allPartitions
  | static table => exact mirrors_static single
  | subset => exact mirrors_subset single
  | timeWindow _ | specificPartitions _ | forKeys _ => cases everyPart_self timeless
  | multi dimensionMappings =>
    exact mirrors_multi downValid upValid isDown inUniverse keyed timeless edge
  | multiToSingle dimensionName inner =>
    have innerTimeless := everyPart_self (everyPart_inner timeless)
    rcases sides_of_edge edge with ⟨_, _, isMulti, isAxis, notMulti, valid⟩ | ⟨_, _, isMulti,
      isAxis, notMulti, valid⟩
    · exact mirrors_toSingle downValid upValid isDown inUniverse isMulti isAxis notMulti
        innerTimeless valid
    · exact mirrors_fromSingle downValid upValid isDown isMulti isAxis notMulti innerTimeless valid

def oneDimension (name : String) (keys : List String) : PartitionsDefinition :=
  .multi [(name, .static keys)]

def regionKey (name value : String) : PartitionKey :=
  .multi [(name, [value])]

def renamed : PartitionMapping :=
  multi [("area", "region", static (Finmap.singleton "eu" "europe"))]

theorem loaded_keys_mirror_derived_renamed :
    renamed.derives dayLibrary (day 0) (oneDimension "area" ["europe", "us"])
      {regionKey "region" "eu"}
        (regionKey "area" "europe") (regionKey "region" "eu") ∧
      (renamed.loads dayLibrary (day 0) (oneDimension "area" ["europe", "us"])
        (regionKey "region" "eu")
          (regionKey "area" "europe") ↔
        renamed.Loadable dayLibrary (day 0) (oneDimension "area" ["europe", "us"])
          (regionKey "area" "europe")) := by
  have mirror := @loaded_keys_mirror_derived dayLibrary (day 0) renamed
    (oneDimension "area" ["europe", "us"])
    (regionKey "region" "eu") (regionKey "area" "europe") {regionKey "region" "eu"}
    (oneDimension "region" ["eu", "us"]) (fun _ => ∅) (day 0) (day 0)
    (by decide +kernel) (by decide +kernel) (by decide +kernel) (by decide +kernel) rfl
      (by decide +kernel)
    (by decide +kernel)
  have derived := mirror.1 (by decide +kernel)
  exact ⟨derived, mirror.2 (by decide +kernel) (by decide +kernel) derived⟩

def nestedSubset : PartitionMapping :=
  multi [("region", "region", subset)]

/-- Validation accepts a subset in a dimension. -/
theorem nested_subset_not_loaded :
    (oneDimension "region" ["eu"]).validateDefinition dayLibrary = .ok () ∧
      nestedSubset.everyPart isKeyed ∧ nestedSubset.everyPart isTimeless ∧
      nestedSubset.everyPart (!·.isAllPartitions) ∧
      nestedSubset.validatePartitionedPair dayLibrary (day 0) (oneDimension "region" ["eu"])
        (oneDimension "region" ["eu"]) = .ok () ∧
      (oneDimension "region" ["eu"]).hasKey dayLibrary (day 0) (regionKey "region" "eu") ∧
      nestedSubset.derives dayLibrary (day 0) (oneDimension "region" ["eu"])
        {regionKey "region" "eu"}
        (regionKey "region" "eu") (regionKey "region" "eu") ∧
      nestedSubset.loads dayLibrary (day 0) (oneDimension "region" ["eu"]) (regionKey "region" "eu")
        (regionKey "region" "eu") = false := by
  refine ⟨by decide +kernel, by decide +kernel, by decide +kernel, by decide +kernel,
    rfl, by decide +kernel, by decide +kernel, by decide +kernel⟩

end Edge

end PartitionMapping

end Rivers

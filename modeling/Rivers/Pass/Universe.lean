import Mathlib.Data.List.Permutation
import Rivers.Lib.Fallible
import Rivers.Partitions.TimeGrid
import Rivers.Pass.UniverseCore

/-! The universe that a pass maintains is the enumerated one. -/

namespace Rivers

open FiniteMap PartitionsDefinition PartitionKey TimeWindow

namespace PartitionsDefinition

def resolveDynamic (known : String → Finset String) : PartitionsDefinition → PartitionsDefinition
  | .multi dimensions => .multi (dimensions.map fun dim => (dim.1, resolveAxis known dim.2))
  | single => resolveAxis known single

def HasAxisKey (library : TimeLibrary) (now : DateTime) (known : String → Finset String)
    (definition : PartitionsDefinition) (key : String) : Prop :=
  match definition with
  | .static keys => key ∈ keys
  | .timeWindow window =>
      ∃ time, window.IsWindowStart library time ∧ time < cappedEnd now window ∧
        key = library.strftime time window.fmt
  | .dynamic name => key ∈ known name
  | .multi _ => False

def IsAxis (library : TimeLibrary) : PartitionsDefinition → Prop
  | .timeWindow window => window.Schedule library
  | .multi _ => False
  | _ => True

variable {library : TimeLibrary} {now : DateTime} {known : String → Finset String}
  {definition : PartitionsDefinition}

theorem isAxis_of_validate (valid : definition.validateSingleDim library = .ok ()) :
    definition.IsAxis library := by
  cases definition with
  | static keys => trivial
  | timeWindow window => exact schedule_of_validate valid
  | multi dimensions => cases valid
  | dynamic name => trivial

theorem singleDimKeys_resolveAxis (axis : definition.IsAxis library) :
    ∃ keys, (definition.resolveAxis known).singleDimKeys library (cappedEnd now) = .ok keys ∧
      ∀ key, key ∈ keys ↔ definition.HasAxisKey library now known key := by
  cases definition with
  | static keys => exact ⟨keys, rfl, fun _ => Iff.rfl⟩
  | timeWindow window =>
    obtain ⟨found, ticksAre⟩ := exists_ticks axis (cappedEnd now window)
    refine ⟨found.map (library.strftime · window.fmt), ?_, fun key => ?_⟩
    · simp only [resolveAxis, singleDimKeys, ticksAre]
    · grind [mem_ticks, HasAxisKey, IsAxis]
  | multi dimensions => cases axis
  | dynamic name => exact ⟨_, rfl, fun key => Finset.mem_sort _⟩

end PartitionsDefinition

section Product

open PartitionKey (Picks combos mem_combos)

def axisDims (dims : List (String × DimensionUniverse)) : List Dimension :=
  dims.map fun dim => (dim.1, dim.2.keys.items)

def combination (dims : List (String × DimensionUniverse)) (index : List Nat) : List Dimension :=
  (dims.zip index).map fun (dim, i) => (dim.1, (dim.2.keys.items[i]?).toList)

theorem exists_reading {dims choice} :
    (∃ index, Odometer.Within (dims.map fun dim => dim.2.keys.items.length) index ∧
      combination dims index = choice) ↔
      List.Forall₂ Picks choice (axisDims dims) := by
  induction dims generalizing choice with
  | nil =>
    constructor
    · rintro ⟨index, within, rfl⟩
      exact .nil
    · rintro ⟨⟩
      exact ⟨[], .nil, rfl⟩
  | cons dim dims ih =>
    constructor
    · rintro ⟨reading, within, rfl⟩
      cases within with
      | @cons i _ index _ below within =>
        refine .cons ⟨rfl, dim.2.keys.items[i], List.getElem_mem below,
          ?_⟩ (ih.mp ⟨index, within, rfl⟩)
        simp [List.getElem?_eq_getElem below]
    · rintro (_ | @⟨first, _, rest, _, ⟨sameName, value, member, sameValue⟩, picks⟩)
      obtain ⟨index, within, rfl⟩ := ih.mpr picks
      obtain ⟨i, below, valueIs⟩ := List.getElem_of_mem member
      refine ⟨i :: index, .cons below within, ?_⟩
      grind [combination]

theorem mem_cartesianUniverse {dims} (nonempty : dims ≠ []) {key} :
    key ∈ cartesianUniverse dims ↔ ∃ choice, List.Forall₂ Picks choice (axisDims dims) ∧
    .multi choice = key := by
  unfold cartesianUniverse
  by_cases vacant : ∃ dim ∈ dims, dim.2.keys.items = []
  · grind [List.getElem_of_mem, List.forall₂_iff_get, PartitionKey.Picks, axisDims]
  · rw [if_neg (not_or.mpr ⟨nonempty, vacant⟩)]
    have positive : ∀ limit ∈ dims.map fun dim => dim.2.keys.items.length, 0 < limit := by grind
    simp only [List.mem_toFinset, List.mem_map, Odometer.mem_all positive, ← exists_reading]
    simp [combination]

def SameAxis (left right : Dimension) : Prop :=
  left.1 = right.1 ∧ ∀ value, value ∈ left.2 ↔ value ∈ right.2

theorem picks_congr {left right choice} (same : List.Forall₂ SameAxis left right) :
    List.Forall₂ Picks choice left ↔ List.Forall₂ Picks choice right := by
  induction same generalizing choice with
  | nil => exact Iff.rfl
  | @cons first other _ _ sameFirst _ ih =>
    have firstPicks (value : Dimension) : Picks value first ↔ Picks value other := by
      simp only [Picks, sameFirst.1, sameFirst.2]
    cases choice with
    | nil => simp
    | cons value choice => rw [List.forall₂_cons, List.forall₂_cons, ih, firstPicks]

theorem toFinset_combos {keys dims} (nonempty : dims ≠ [])
    (same : List.Forall₂ SameAxis keys (axisDims dims)) :
    ((combos keys).map PartitionKey.multi).toFinset = cartesianUniverse dims := by
  ext key
  simp only [List.mem_toFinset, List.mem_map, mem_combos, mem_cartesianUniverse nonempty,
    picks_congr same]

theorem cartesianUniverse_congr {dims others} (same : axisDims dims = axisDims others) :
    cartesianUniverse dims = cartesianUniverse others := by
  grind [List.length_map, List.length_eq_zero_iff, mem_cartesianUniverse, axisDims]

theorem cartesianUniverse_vacant {dims} (vacant : ∃ dim ∈ dims, dim.2.keys.items = []) :
    cartesianUniverse dims = ∅ :=
  if_pos (.inr vacant)

end Product

section Axis

open PartitionsDefinition (HasAxisKey cappedEnd)

variable {library : TimeLibrary} {now later clock : DateTime} {known : String → Finset String}

theorem cappedEnd_mono (ordered : now ≤ later) (window : TimeWindow) :
    cappedEnd now window ≤ cappedEnd later window := by
  unfold cappedEnd
  cases window.endTime with
  | none => exact ordered
  | some stop => exact min_le_min_left stop ordered

theorem cappedEnd_le_endBound (timely : now ≤ clock) (window : TimeWindow) :
    cappedEnd now window ≤ window.endBound clock := by
  unfold cappedEnd endBound
  cases window.endTime with
  | none => exact timely
  | some stop => exact min_le_left stop now

section Insertion

variable {keySet item : Type} (insert : keySet → String → keySet × Bool) (member : keySet →
  item → Prop)
  (embed : String → item)

structure Inserts : Prop where
  member_iff : ∀ keys key other, member (insert keys key).1 other ↔ member keys other ∨
    other = embed key
  unchanged : ∀ keys key, (insert keys key).2 = false → (insert keys key).1 = keys

variable {insert member embed}

theorem Inserts.foldl (inserts : Inserts insert member embed) (newKeys : List String)
    (keys : keySet) (changed : Bool) :
    let result := newKeys.foldl (fun (keys, changed) key =>
      let (keys, inserted) := insert keys key
      (keys, changed || inserted)) (keys, changed)
    (∀ other, member result.1 other ↔ member keys other ∨ ∃ key ∈ newKeys, other = embed key) ∧
      (result.2 = false → result.1 = keys ∧ changed = false) := by
  induction newKeys generalizing keys changed with
  | nil => simp
  | cons key newKeys ih =>
    obtain ⟨members, same⟩ := ih (insert keys key).1 (changed || (insert keys key).2)
    refine ⟨fun other => ?_, fun quiet => ?_⟩
    · refine (members other).trans ?_
      rw [inserts.member_iff, or_assoc]
      simp
    · obtain ⟨sameKeys, quiet⟩ := same quiet
      rw [Bool.or_eq_false_iff] at quiet
      exact ⟨sameKeys.trans (inserts.unchanged keys key quiet.2), quiet.1⟩

theorem advanceTimeWindowAxis_spec (inserts : Inserts insert member embed) {window}
    (schedule : window.Schedule library) (ordered : now ≤ later) (timely : later ≤ clock)
    (spans : window.Spans (cappedEnd later window)) {keys}
    (compl : ∀ other, member keys other ↔ ∃ time, window.IsWindowStart library time ∧
      time < cappedEnd now window ∧ other = embed (library.strftime time window.fmt)) :
    let result := advanceTimeWindowAxis library clock later insert window (cappedEnd now window)
      keys
    result.1 = cappedEnd later window ∧
      (∀ other, member result.2.1 other ↔ ∃ time, window.IsWindowStart library time ∧
        time < cappedEnd later window ∧ other = embed (library.strftime time window.fmt)) ∧
      (result.2.2 = false → result.2.1 = keys) := by
  intro result
  have forward := cappedEnd_mono ordered window
  have resultIs : result = advanceTimeWindowAxis library clock later insert window
    (cappedEnd now window) keys := rfl
  unfold advanceTimeWindowAxis at resultIs
  change result = if cappedEnd later window ≤ cappedEnd now window then _ else _ at resultIs
  by_cases same : cappedEnd later window ≤ cappedEnd now window
  · rw [if_pos same] at resultIs
    have sameEnd : cappedEnd now window = cappedEnd later window := le_antisymm forward same
    rw [resultIs]
    grind
  · rw [if_neg same] at resultIs
    obtain ⟨found, foundIs, starts⟩ :=
      @TimeWindow.windowStartsIn_spec _ _ clock (cappedEnd now window) _ schedule spans
    rw [min_eq_left (cappedEnd_le_endBound timely window)] at starts
    rw [show window.endTime.elim later (min · later) = cappedEnd later window from rfl, foundIs] at resultIs
    obtain ⟨members, quiet⟩ := inserts.foldl (found.map (library.strftime · window.fmt)) keys false
    rw [resultIs]
    refine ⟨rfl, fun other => (members other).trans ?_, fun unchanged => (quiet unchanged).1⟩
    rw [compl]
    simp only [List.mem_map, starts _]
    constructor
    · rintro (⟨time, onGrid, pre, rfl⟩ | ⟨_, ⟨time, ⟨onGrid, _, pre⟩, rfl⟩, rfl⟩)
      · exact ⟨time, onGrid, lt_of_lt_of_le pre forward, rfl⟩
      · exact ⟨time, onGrid, pre, rfl⟩
    · rintro ⟨time, onGrid, pre, rfl⟩
      by_cases old : time < cappedEnd now window
      · exact .inl ⟨time, onGrid, old, rfl⟩
      · exact .inr ⟨_, ⟨time, ⟨onGrid, not_lt.mp old, pre⟩, rfl⟩, rfl⟩

end Insertion

theorem dynamicAxisChanged_eq_false {fresh current currentLen contains}
    (length : currentLen = current.card) (members : ∀ key, contains key = true ↔ key ∈ current) :
    dynamicAxisChanged fresh currentLen contains = false ↔ fresh = current := by
  simp only [dynamicAxisChanged, length, members, Bool.or_eq_false_iff, decide_eq_false_iff_not,
    not_not, Bool.not_eq_false', decide_eq_true_eq, ne_eq]
  constructor
  · rintro ⟨sameCard, subset⟩
    exact Finset.eq_of_subset_of_card_le subset sameCard.ge
  simp_all

def readKeys (known : String → Finset String) (dynamicKeys : HashMap String (Finset String)) :
    String → Finset String :=
  fun name => (dynamicKeys.lookup name).getD (known name)

variable (library now known) in
structure MaintainsAxis (definition : PartitionsDefinition) (dim : DimensionUniverse) : Prop where
  kind : dim.kind = (dimensionUniverseFor library now definition).kind
  keys : ∀ key, key ∈ dim.keys.items ↔ HasAxisKey library now known definition key

def PartitionsDefinition.SpansAxis (now : DateTime) : PartitionsDefinition → Prop
  | .timeWindow window => window.Spans (cappedEnd now window)
  | _ => True

instance (now : DateTime) : DecidablePred (PartitionsDefinition.SpansAxis now)
  | .timeWindow window => inferInstanceAs (Decidable (window.Spans (cappedEnd now window)))
  | .static _ | .multi _ | .dynamic _ => isTrue trivial

theorem inserts_orderSet :
    Inserts OrderSet.insert (fun keys (key : String) => key ∈ OrderSet.items keys)
      (fun key => key) :=
  ⟨fun _ _ _ => OrderSet.mem_insert, fun _ _ => OrderSet.insert_unchanged⟩

theorem MaintainsAxis.refresh {definition dim}
    (keeps : MaintainsAxis library now known definition dim) (axis : definition.IsAxis library)
    (ordered : now ≤ later) (timely : later ≤ clock) (spans : definition.SpansAxis later)
    (dynamicKeys : HashMap String (Finset String)) :
    MaintainsAxis library later (readKeys known dynamicKeys) definition
        (refreshDimension library clock later dynamicKeys dim).1 ∧
      ((refreshDimension library clock later dynamicKeys dim).2 = false →
        (refreshDimension library clock later dynamicKeys dim).1.keys = dim.keys) := by
  obtain ⟨kind, keys⟩ := keeps
  cases definition with
  | static staticKeys =>
    have frozen : dim.kind = .frozen := kind
    simp only [refreshDimension, frozen]
    exact ⟨⟨frozen, keys⟩, fun _ => trivial⟩
  | timeWindow window =>
    have isWindow : dim.kind = .timeWindow window (cappedEnd now window) := kind
    simp only [refreshDimension, isWindow]
    obtain ⟨watermark, members, quiet⟩ :=
      advanceTimeWindowAxis_spec inserts_orderSet axis ordered timely spans keys
    exact ⟨⟨congrArg (DimensionKind.timeWindow window) watermark, members⟩, quiet⟩
  | multi dimensions => cases axis
  | dynamic name =>
    have isDynamic : dim.kind = .dynamic name := kind
    simp only [refreshDimension, isDynamic]
    cases found : dynamicKeys.lookup name with
    | none =>
      refine ⟨⟨isDynamic, fun key => (keys key).trans ?_⟩, fun _ => rfl⟩
      simp only [HasAxisKey, readKeys, found, Option.getD_none]
    | some fresh =>
      have decides := @dynamicAxisChanged_eq_false fresh dim.keys.items.toFinset _
        (fun key => key ∈ dim.keys.items) (OrderSet.card_eq dim.keys).symm (by simp)
      dsimp only
      split
      · refine ⟨⟨rfl, fun key => ?_⟩, fun quiet => by cases quiet⟩
        simp [HasAxisKey, readKeys, found, OrderSet.mem_ofList]
      · rename_i unchanged
        have same := decides.mp (Bool.eq_false_iff.mpr unchanged)
        refine ⟨⟨isDynamic, fun key => ?_⟩, fun _ => rfl⟩
        simp [HasAxisKey, readKeys, found, same]

end Axis

section Universe

open PartitionsDefinition (HasAxisKey cappedEnd dimensionKeys)

variable {library : TimeLibrary} {now later clock : DateTime} {known : String → Finset String}
  {definition : PartitionsDefinition} {dimensions : List (String × PartitionsDefinition)}

variable (library) in
def PartitionsDefinition.WellFormed : PartitionsDefinition → Prop
  | .multi dimensions => dimensions ≠ [] ∧ ∀ dim ∈ dimensions, dim.2.IsAxis library
  | single => single.IsAxis library

theorem wellFormed_of_validate (valid : definition.validateDefinition library = .ok ()) :
    definition.WellFormed library := by
  cases definition with
  | static keys => trivial
  | timeWindow window => exact schedule_of_validate valid
  | dynamic name => trivial
  | multi dimensions =>
    simp only [validateDefinition] at valid
    split at valid
    · cases valid
    · rename_i nonempty
      split at valid
      · cases valid
      · refine ⟨nonempty, fun dim member => ?_⟩
        obtain ⟨name, definition⟩ := dim
        have checked := Fallible.forM_eq_ok valid (name, definition) member
        cases definition with
        | multi _ => cases checked
        | static keys => trivial
        | dynamic name => trivial
        | timeWindow window =>
          simp only [bind, Except.bind] at checked
          grind [isAxis_of_validate]

def PartitionsDefinition.Spans (now : DateTime) : PartitionsDefinition → Prop
  | .multi dimensions => ∀ dim ∈ dimensions, dim.2.SpansAxis now
  | single => single.SpansAxis now

instance (now : DateTime) : DecidablePred (PartitionsDefinition.Spans now)
  | .multi dimensions => inferInstanceAs (Decidable (∀ dim ∈ dimensions, dim.2.SpansAxis now))
  | .timeWindow window => inferInstanceAs (Decidable ((timeWindow window).SpansAxis now))
  | .static _ | .dynamic _ => isTrue trivial

theorem dimensionKeys_spec (bound : TimeWindow → DateTime) :
    match dimensionKeys library bound dimensions with
    | .ok keys =>
        List.Forall₂ (fun dim key => dim.1 = key.1 ∧ dim.2.singleDimKeys library bound = .ok key.2)
        dimensions keys
    | .error _ =>
        ∃ dim ∈ dimensions, ∃ reason, dim.2.singleDimKeys library bound = .error reason := by
  induction dimensions with
  | nil => exact .nil
  | cons dim dimensions ih =>
    obtain ⟨name, definition⟩ := dim
    simp only [dimensionKeys, bind, Except.bind]
    cases own : definition.singleDimKeys library bound with
    | error reason => exact ⟨(name, definition), List.mem_cons_self .., reason, own⟩
    | ok keys =>
      cases rest : dimensionKeys library bound dimensions with
      | error reason => grind
      | ok others =>
        rw [rest] at ih
        exact .cons ⟨rfl, own⟩ ih

variable (library now known) in
def Maintains (definition : PartitionsDefinition)
    (state : Finset PartitionKey × PartitionUniverse) : Prop :=
  match definition with
  | .multi dimensions => ∃ dims, state.2 = .multi dims ∧ state.1 = cartesianUniverse dims ∧
      List.Forall₂ (fun dim axis => dim.1 = axis.1 ∧ MaintainsAxis library now known dim.2 axis.2)
        dimensions dims
  | single => state.2 = partitionUniverseFor library now single ∧
      ∀ key, key ∈ state.1 ↔ ∃ value, HasAxisKey library now known single value ∧
        key = .single [value]

section Initial

theorem maintainsAxis_initial (axis : definition.IsAxis library) :
    MaintainsAxis library now (fun _ => ∅) definition
      (dimensionUniverseFor library now definition) := by
  refine ⟨rfl, fun key => ?_⟩
  simp only [dimensionUniverseFor, OrderSet.mem_ofList, enumerateSingleDimKeysCapped]
  cases definition with
  | multi dimensions => cases axis
  | dynamic name => simp [singleDimKeys, Except.toOption, HasAxisKey]
  | static keys => exact Iff.rfl
  | timeWindow window =>
    obtain ⟨keys, enumerated, members⟩ := @PartitionsDefinition.singleDimKeys_resolveAxis _ now
      (fun _ => ∅) _ axis
    have enumerated : (timeWindow window).singleDimKeys library (cappedEnd now) = .ok keys :=
      enumerated
    rw [enumerated]
    exact members key

theorem mem_defKeys (axis : definition.IsAxis library) {key} :
    key ∈ (defKeysAndUniverse library now definition).1 ↔
      ∃ value, HasAxisKey library now (fun _ => ∅) definition value ∧ key = .single [value] := by
  have members := (@maintainsAxis_initial _ now _ axis).keys
  simp only [dimensionUniverseFor, OrderSet.mem_ofList, enumerateSingleDimKeysCapped] at members
  have keysAre : definition.getPartitionKeysCapped library now =
      (definition.singleDimKeys library (cappedEnd now)).map fun keys => keys.map fun key =>
        .single [key] := by
    cases definition with
    | multi dimensions => cases axis
    | _ => rfl
  simp only [defKeysAndUniverse, keysAre, ← members]
  cases definition.singleDimKeys library (cappedEnd now) <;>
    simp [Except.map, Except.toOption, eq_comm]

theorem defKeys_multi (wellFormed : (multi dimensions).WellFormed library) :
    (defKeysAndUniverse library now (.multi dimensions)).1 =
      cartesianUniverse (dimensions.map fun dim =>
        (dim.1, dimensionUniverseFor library now dim.2)) := by
  have spec := @dimensionKeys_spec library dimensions (cappedEnd now)
  simp only [defKeysAndUniverse, getPartitionKeysCapped, partitionKeys]
  cases enumerated : dimensionKeys library (cappedEnd now) dimensions with
  | error reason =>
    rw [enumerated] at spec
    obtain ⟨dim, member, reason, failed⟩ := spec
    refine (cartesianUniverse_vacant ⟨(dim.1, dimensionUniverseFor library now dim.2),
      List.mem_map.mpr ⟨dim, member, rfl⟩, ?_⟩).symm
    simp only [dimensionUniverseFor, enumerateSingleDimKeysCapped, failed]
    rfl
  | ok keys =>
    rw [enumerated] at spec
    refine toFinset_combos (by simpa using wellFormed.1) ?_
    rw [axisDims, List.map_map, List.forall₂_map_right_iff]
    refine (List.Forall₂.flip spec).imp fun key dim same => ⟨same.1.symm, fun value => ?_⟩
    simp [dimensionUniverseFor, enumerateSingleDimKeysCapped, same.2, OrderSet.mem_ofList,
      Except.toOption]

theorem maintains_initial (wellFormed : definition.WellFormed library) :
    Maintains library now (fun _ => ∅) definition (defKeysAndUniverse library now definition) := by
  cases definition with
  | multi dimensions =>
    refine ⟨dimensions.map fun dim => (dim.1, dimensionUniverseFor library now dim.2), rfl,
      defKeys_multi wellFormed, ?_⟩
    rw [List.forall₂_map_right_iff, List.forall₂_same]
    exact fun dim member => ⟨rfl, maintainsAxis_initial (wellFormed.2 dim member)⟩
  | static keys => exact ⟨rfl, fun key => @mem_defKeys _ _ (.static keys) wellFormed _⟩
  | timeWindow window => exact ⟨rfl, fun key => @mem_defKeys _ _ (.timeWindow window) wellFormed _⟩
  | dynamic name => exact ⟨rfl, fun key => @mem_defKeys _ _ (.dynamic name) wellFormed _⟩

end Initial

section Step

theorem inserts_single :
    Inserts (fun (keys : Finset PartitionKey) key =>
        (insert (single [key]) keys, decide (single [key] ∉ keys)))
      (fun keys key => key ∈ keys) (fun key => single [key]) := by
  refine ⟨fun keys key other => ?_, fun keys key same => ?_⟩
  · rw [Finset.mem_insert, or_comm]
  · simp_all

structure Refresh where
  now : DateTime
  clock : DateTime
  dynamicKeys : HashMap String (Finset String)

variable (library) in
def maintain (state : Finset PartitionKey × PartitionUniverse) (refresh : Refresh) :
    Finset PartitionKey × PartitionUniverse :=
  let (shape, allKeys, _) := refreshUniverse library refresh.clock refresh.now refresh.dynamicKeys
    state.2 state.1
  (allKeys, shape)

variable {state : Finset PartitionKey × PartitionUniverse} {refresh : Refresh}

theorem maintains_dynamic {name} (keeps : Maintains library now known (.dynamic name) state) :
    Maintains library refresh.now (readKeys known refresh.dynamicKeys) (.dynamic name)
      (maintain library state refresh) := by
  obtain ⟨shape, keys⟩ := keeps
  have isDynamic : state.2 = .dynamic name := shape
  have keysAre : state.1 = (known name).image fun key => single [key] := by
    ext key
    simp [keys, HasAxisKey, eq_comm]
  simp only [Maintains, maintain, isDynamic, refreshUniverse]
  cases found : refresh.dynamicKeys.lookup name with
  | none =>
    refine ⟨rfl, fun key => (keys key).trans ?_⟩
    simp only [HasAxisKey, readKeys, found, Option.getD_none]
  | some fresh =>
    have decides := @dynamicAxisChanged_eq_false fresh (known name) state.1.card
      (fun key => single [key] ∈ state.1)
      (by rw [keysAre, Finset.card_image_of_injective _ fun _ _ => single_inj.mp])
      (fun key => by simp [keysAre, single_inj])
    grind [partitionUniverseFor, PartitionsDefinition.HasAxisKey, readKeys]

theorem refreshDimension_axes {dims}
    (axes : List.Forall₂ (fun dim axis => dim.1 = axis.1 ∧
      MaintainsAxis library now known dim.2 axis.2)
      dimensions dims)
    (isAxis : ∀ dim ∈ dimensions, dim.2.IsAxis library) (ordered : now ≤ later)
    (timely : later ≤ clock)
    (spans : ∀ dim ∈ dimensions, dim.2.SpansAxis later)
    (dynamicKeys : HashMap String (Finset String)) :
    let refreshed := dims.map fun dim =>
      (dim.1, refreshDimension library clock later dynamicKeys dim.2)
    let newDims := refreshed.map fun dim => (dim.1, dim.2.1)
    List.Forall₂ (fun dim axis => dim.1 = axis.1 ∧
        MaintainsAxis library later (readKeys known dynamicKeys) dim.2 axis.2) dimensions newDims ∧
      ((refreshed.any fun dim => dim.2.2) = false → axisDims newDims = axisDims dims) := by
  induction axes with
  | nil => exact ⟨.nil, fun _ => rfl⟩
  | @cons dim axis dimensions dims first _ ih =>
    obtain ⟨maintained, quiet⟩ := first.2.refresh (isAxis dim (List.mem_cons_self ..))
      ordered timely
      (spans dim (List.mem_cons_self ..)) dynamicKeys
    obtain ⟨rest, restQuiet⟩ := ih (fun dim member => isAxis dim (List.mem_cons_of_mem _ member))
      (fun dim member => spans dim (List.mem_cons_of_mem _ member))
    refine ⟨.cons ⟨first.1, maintained⟩ rest, fun same => ?_⟩
    simp only [List.map_cons, List.any_cons, Bool.or_eq_false_iff] at same
    simp only [axisDims, List.map_cons, quiet same.1, List.cons.injEq, true_and]
    exact restQuiet same.2

theorem maintains_multi (wellFormed : (multi dimensions).WellFormed library)
    (ordered : now ≤ refresh.now) (timely : refresh.now ≤ refresh.clock)
    (spans : (multi dimensions).Spans refresh.now)
    (keeps : Maintains library now known (.multi dimensions) state) :
    Maintains library refresh.now (readKeys known refresh.dynamicKeys) (.multi dimensions)
      (maintain library state refresh) := by
  obtain ⟨dims, isMulti, keysAre, axes⟩ := keeps
  obtain ⟨newAxes, quiet⟩ :=
    refreshDimension_axes axes wellFormed.2 ordered timely spans refresh.dynamicKeys
  simp only [Maintains, maintain, isMulti, refreshUniverse]
  split
  · exact ⟨_, rfl, rfl, newAxes⟩
  · rename_i same
    refine ⟨_, rfl, ?_, newAxes⟩
    rw [keysAre]
    exact (cartesianUniverse_congr (quiet (Bool.eq_false_iff.mpr same))).symm

theorem exists_windowKey {window} {key : PartitionKey} :
    (∃ value, HasAxisKey library now known (.timeWindow window) value ∧ key = .single [value]) ↔
      ∃ time, window.IsWindowStart library time ∧ time < cappedEnd now window ∧
        key = .single [library.strftime time window.fmt] := by
  grind [PartitionsDefinition.HasAxisKey]

theorem Maintains.step (wellFormed : definition.WellFormed library) (ordered : now ≤ refresh.now)
    (timely : refresh.now ≤ refresh.clock) (spans : definition.Spans refresh.now)
    (keeps : Maintains library now known definition state) :
    Maintains library refresh.now (readKeys known refresh.dynamicKeys) definition
      (maintain library state refresh) := by
  cases definition with
  | multi dimensions => exact maintains_multi wellFormed ordered timely spans keeps
  | dynamic name => exact maintains_dynamic keeps
  | static keys =>
    grind [partitionUniverseFor, PartitionsDefinition.HasAxisKey, Maintains, maintain,
      refreshUniverse]
  | timeWindow window =>
    obtain ⟨shape, keys⟩ := keeps
    have isWindow : state.2 = .timeWindow window (cappedEnd now window) := shape
    simp only [exists_windowKey] at keys
    obtain ⟨watermark, members, -⟩ :=
      advanceTimeWindowAxis_spec inserts_single wellFormed ordered timely spans keys
    simp only [Maintains, maintain, isWindow, refreshUniverse, exists_windowKey]
    exact ⟨congrArg (PartitionUniverse.timeWindow window) watermark, members⟩

end Step

section Run

variable (library) in
def universeAfter (definition : PartitionsDefinition) (first : DateTime)
    (refreshes : List Refresh) :
    Finset PartitionKey × PartitionUniverse :=
  refreshes.foldl (maintain library) (defKeysAndUniverse library first definition)

def knownAfter (refreshes : List Refresh) : String → Finset String :=
  refreshes.foldl (fun known refresh => readKeys known refresh.dynamicKeys) fun _ => ∅

def instantAfter (first : DateTime) (refreshes : List Refresh) : DateTime :=
  refreshes.foldl (fun _ refresh => refresh.now) first

variable {first : DateTime} {refreshes : List Refresh}

theorem Maintains.run (wellFormed : definition.WellFormed library) {state}
    (keeps : Maintains library first known definition state)
    (ordered : (first :: refreshes.map (·.now)).IsChain (· ≤ ·))
    (timely : ∀ refresh ∈ refreshes, refresh.now ≤ refresh.clock)
    (spans : ∀ refresh ∈ refreshes, definition.Spans refresh.now) :
    Maintains library (instantAfter first refreshes)
      (refreshes.foldl (fun known refresh => readKeys known refresh.dynamicKeys) known) definition
      (refreshes.foldl (maintain library) state) := by
  induction refreshes generalizing first known state with
  | nil => exact keeps
  | cons refresh refreshes ih =>
    rw [List.map_cons, List.isChain_cons_cons] at ordered
    obtain ⟨timelyFirst, timely⟩ := List.forall_mem_cons.mp timely
    obtain ⟨spansFirst, spans⟩ := List.forall_mem_cons.mp spans
    exact ih (keeps.step wellFormed ordered.1 timelyFirst spansFirst) ordered.2 timely spans

theorem fresh_axis (axis : definition.IsAxis library) {keys}
    (compl : ∀ key, key ∈ keys ↔ ∃ value, HasAxisKey library now known definition value ∧
      key = .single [value]) :
    ((definition.resolveAxis known).getPartitionKeysCapped library now).map List.toFinset =
      .ok keys := by
  obtain ⟨vals, enumerated, members⟩ := @PartitionsDefinition.singleDimKeys_resolveAxis _ now
    known _ axis
  have keysAre : (definition.resolveAxis known).getPartitionKeysCapped library now =
      .ok (vals.map fun value => .single [value]) := by
    cases definition with
    | multi dimensions => cases axis
    | _ => exact congrArg (Except.map _) enumerated
  rw [keysAre]
  refine congrArg Except.ok (Finset.ext fun key => ?_)
  simp only [compl, List.mem_toFinset, List.mem_map, members, eq_comm]

theorem sameAxis_of_axes {dims keys}
    (axes : List.Forall₂ (fun dim axis => dim.1 = axis.1 ∧
      MaintainsAxis library now known dim.2 axis.2)
      dimensions dims) (isAxis : ∀ dim ∈ dimensions, dim.2.IsAxis library)
    (enumerated : List.Forall₂ (fun dim key => dim.1 = key.1 ∧
        (dim.2.resolveAxis known).singleDimKeys library (cappedEnd now) = .ok key.2)
          dimensions keys) :
    List.Forall₂ SameAxis keys (axisDims dims) := by
  induction axes generalizing keys with
  | nil =>
    cases enumerated
    exact .nil
  | @cons dim axis dimensions dims first _ ih =>
    cases enumerated with
    | @cons _ key _ keys sameFirst enumerated =>
      obtain ⟨isAxisFirst, isAxis⟩ := List.forall_mem_cons.mp isAxis
      obtain ⟨vals, valuesAre, members⟩ :=
        @PartitionsDefinition.singleDimKeys_resolveAxis _ now known _ isAxisFirst
      have sameValues : key.2 = vals := Except.ok.inj (sameFirst.2.symm.trans valuesAre)
      refine .cons ⟨sameFirst.1.symm.trans first.1, fun value => ?_⟩ (ih isAxis enumerated)
      rw [sameValues, members, ← first.2.keys]

theorem Maintains.fresh (wellFormed : definition.WellFormed library) {state}
    (keeps : Maintains library now known definition state) :
    ((definition.resolveDynamic known).getPartitionKeysCapped library now).map List.toFinset =
      .ok state.1 := by
  cases definition with
  | static keys => exact @fresh_axis _ _ _ (.static keys) wellFormed _ keeps.2
  | timeWindow window => exact @fresh_axis _ _ _ (.timeWindow window) wellFormed _ keeps.2
  | dynamic name => exact @fresh_axis _ _ _ (.dynamic name) wellFormed _ keeps.2
  | multi dimensions =>
    obtain ⟨dims, -, keysAre, axes⟩ := keeps
    have nonempty : dims ≠ [] := fun none =>
      wellFormed.1 (List.length_eq_zero_iff.mp (by simp [axes.length_eq, none]))
    have spec := @dimensionKeys_spec library
      (dimensions.map fun dim => (dim.1, dim.2.resolveAxis known))
      (cappedEnd now)
    simp only [resolveDynamic, getPartitionKeysCapped,
      partitionKeys]
    cases enumerated : dimensionKeys library (cappedEnd now)
        (dimensions.map fun dim => (dim.1, dim.2.resolveAxis known)) with
    | error reason =>
      rw [enumerated] at spec
      obtain ⟨_, member, reason, failed⟩ := spec
      obtain ⟨dim, inDimensions, rfl⟩ := List.mem_map.mp member
      obtain ⟨vals, valuesAre, -⟩ :=
        @PartitionsDefinition.singleDimKeys_resolveAxis _ now known _
          (wellFormed.2 dim inDimensions)
      cases failed.symm.trans valuesAre
    | ok keys =>
      rw [enumerated] at spec
      rw [keysAre]
      exact congrArg Except.ok (toFinset_combos nonempty
        (sameAxis_of_axes axes wellFormed.2 (List.forall₂_map_left_iff.mp spec)))

/-- After every refresh the maintained universe is the enumerated one. -/
theorem universeAfter_eq_fresh (valid : definition.validateDefinition library = .ok ())
    (ordered : (first :: refreshes.map (·.now)).IsChain (· ≤ ·))
    (timely : ∀ refresh ∈ refreshes, refresh.now ≤ refresh.clock)
    (spans : ∀ refresh ∈ refreshes, definition.Spans refresh.now) :
    ((definition.resolveDynamic (knownAfter refreshes)).getPartitionKeysCapped library
        (instantAfter first refreshes)).map List.toFinset =
      .ok (universeAfter library definition first refreshes).1 :=
  have wellFormed := wellFormed_of_validate valid
  ((maintains_initial wellFormed).run wellFormed ordered timely spans).fresh wellFormed

end Run

end Universe

section HalfCenturies

def atSecond (second : Int) (inRange : -377705116800 ≤ second ∧ second < 253402300800) : DateTime :=
  ⟨second * 1000000000, by unfold minNanos maxNanos; omega⟩

def yearLabels : List String :=
  ["1700-01-01", "1750-01-01", "1800-01-01", "1850-01-01", "1900-01-01", "1950-01-01", "2000-01-01"]

def yearLibrary : TimeLibrary where
  parseCron _ := none
  strftime time _ := yearLabels.getD ((time.1 / 1000000000 + 8520336000) / 1577836800).toNat ""
  parseKeyDatetime key _ :=
    (yearLabels.findIdx? (· = key)).bind fun index =>
      DateTime.ofNanos? ((-8520336000 + index * 1577836800) * 1000000000)

def halfCenturies : TimeWindow where
  cronSchedule := none
  intervalNanos := some (1577836800 * 1000000000)
  start := atSecond (-8520336000) (by decide)
  endTime := none
  fmt := "%Y-%m-%d"

def earlyRefreshes : List Refresh :=
  [⟨atSecond (-5364662400) (by decide), atSecond (-5364662400) (by decide), ∅⟩,
    ⟨atSecond (-5049129600) (by decide), atSecond (-5049129600) (by decide),
      Finmap.singleton "regions" {"eu", "us"}⟩]

def byYearAndRegion : PartitionsDefinition :=
  .multi [("year", .timeWindow halfCenturies), ("region", .dynamic "regions")]

theorem universeAfter_eq_fresh_regions :
    ((byYearAndRegion.resolveDynamic (knownAfter earlyRefreshes)).getPartitionKeysCapped yearLibrary
        (instantAfter (atSecond (-6626966400) (by decide)) earlyRefreshes)).map List.toFinset =
      .ok (universeAfter yearLibrary byYearAndRegion (atSecond (-6626966400) (by decide))
        earlyRefreshes).1 :=
  universeAfter_eq_fresh (by decide +kernel) (by decide +kernel) (by decide +kernel)
    (by decide +kernel)

def lateRefreshes : List Refresh :=
  [⟨atSecond 978307200 (by decide), atSecond 978307200 (by decide), ∅⟩]

/-- More than 2^63 nanoseconds after the start the refresh misses the window of 2000. -/
theorem universeAfter_ne_fresh :
    (PartitionsDefinition.timeWindow halfCenturies).validateDefinition yearLibrary = .ok () ∧
      (atSecond 788918400 (by decide) :: lateRefreshes.map (·.now)).IsChain (· ≤ ·) ∧
      (∀ refresh ∈ lateRefreshes, refresh.now ≤ refresh.clock) ∧
      (((PartitionsDefinition.timeWindow halfCenturies).resolveDynamic
        (knownAfter lateRefreshes)).getPartitionKeysCapped
          yearLibrary (instantAfter (atSecond 788918400 (by decide)) lateRefreshes)).map
            List.toFinset ≠
        .ok (universeAfter yearLibrary (.timeWindow halfCenturies) (atSecond 788918400 (by decide))
          lateRefreshes).1 := by
  refine ⟨by decide +kernel, by decide +kernel, by decide +kernel, by decide +kernel⟩

end HalfCenturies

end Rivers

import Rivers.Backfill.GroupingCore
import Rivers.Lib.Fold
import Rivers.Partitions.DefinitionCore

/-! The runs of a backfill share out its keys. -/

namespace Rivers

open PartitionKey

open RawPartitionKey (sortDims)
open PartitionKey (SingleValued)

section Candidate

theorem nodup_members_multi {dims} (dist : ∀ dim ∈ dims, dim.2.Nodup) :
    (multi dims).members.Nodup := by
  have sorted : (multi dims).raw = .multi (sortDims dims) := rfl
  have distinctSorted : ∀ dim ∈ sortDims dims, dim.2.Nodup := fun dim mem =>
    dist dim ((List.perm_insertionSort _ dims).mem_iff.mp mem)
  rw [members, sorted, rawMembers, RawPartitionKey.sortDims_sortDims, List.map_map]
  grind [List.Nodup.map_on, sortDims_of_mem_combos, nodup_combos, ofRaw, RawPartitionKey.canon]

theorem nodup_members_single {vals} (dist : vals.Nodup) :
    (single vals).members.Nodup := by
  grind [single, members, ofRaw, rawMembers, RawPartitionKey.canon]

theorem nodup_foldl_pushNew (vals : List String) {seen} (dist : seen.Nodup) :
    (vals.foldl pushNew seen).Nodup := by
  refine Fold.foldl_invariant List.Nodup pushNew vals (fun seen value _ dist => ?_) seen dist
  grind [pushNew]

theorem nodup_unionDim {union} (dist : ∀ dim ∈ union, dim.2.Nodup) (dim : Dimension) :
    ∀ other ∈ unionDim union dim, other.2.Nodup :=
  @Assoc.forall_upsert _ _ _ _ _ _ (fun _ (vals : List String) => vals.Nodup) dist
    (nodup_foldl_pushNew dim.2 List.nodup_nil) fun _ old => nodup_foldl_pushNew dim.2 old

theorem nodup_unionDims (keys : List PartitionKey) : ∀ dim ∈ unionDims keys, dim.2.Nodup := by
  refine Fold.foldl_invariant (fun union : List Dimension => ∀ dim ∈ union, dim.2.Nodup)
    unionKey keys
    (fun union key _ dist => ?_) [] (by simp)
  unfold unionKey
  split
  · exact Fold.foldl_invariant (fun union : List Dimension => ∀ dim ∈ union, dim.2.Nodup) unionDim _
      (fun union dim _ dist => nodup_unionDim dist dim) union dist
  · exact dist

theorem isChain_lt {vals : List String} (sorted : vals.Pairwise (· ≤ ·))
    (differ : vals.IsChain (· ≠ ·)) :
    vals.IsChain (· < ·) := by
  induction differ with
  | nil => exact .nil
  | singleton => exact .singleton _
  | cons_cons other _ ih => grind

theorem nodup_destutter_insertionSort (vals : List String) :
    ((vals.insertionSort (· ≤ ·)).destutter (· ≠ ·)).Nodup := by
  have sorted := (List.pairwise_insertionSort (· ≤ ·) vals).sublist
    (List.destutter_sublist (· ≠ ·) _)
  have increasing := isChain_lt sorted (List.isChain_destutter (· ≠ ·) _)
  exact (List.isChain_iff_pairwise.mp increasing).imp fun below => below.ne

theorem nodup_members_candidate (keys : List PartitionKey) :
    (cartesianCandidate keys).members.Nodup := by
  unfold cartesianCandidate
  split
  · refine nodup_members_multi fun dim mem => ?_
    obtain ⟨source, inUnion, rfl⟩ := List.mem_map.mp mem
    exact (List.perm_insertionSort _ _).nodup_iff.mpr (nodup_unionDims keys source inUnion)
  · exact nodup_members_single (nodup_destutter_insertionSort _)

end Candidate

section Bundle

variable {toJson : PartitionKey → String} {keys : List PartitionKey}

theorem perm_of_sameSet {found} (dist : found.Nodup) (same : sameSet found keys) :
    found.Perm keys := by grind [List.Subperm.perm_of_length_le, List.subperm_of_subset, sameSet]

theorem members_set (keys : List PartitionKey) : (set keys).members = keys.flatMap (·.members) := by
  have raws : (set keys).raw = .set (keys.map (·.raw)) := by
    refine congrArg RawPartitionKey.set ?_
    induction keys with
    | nil => rfl
    | cons key keys ih => rw [List.map_cons, RawPartitionKey.canonList, ih, key.sorted]
  rw [members, raws, rawMembers]
  clear raws
  induction keys with
  | nil => rfl
  | cons key keys ih =>
    rw [List.map_cons, rawMembersList, List.map_append, ih, List.flatMap_cons]
    rfl

theorem flatMap_members (single : ∀ key ∈ keys, key.SingleValued) :
    keys.flatMap (·.members) = keys := by
  induction keys with
  | nil => rfl
  | cons key keys ih => grind [members_of_singleValued]

theorem members_bundleKeys_perm (single : ∀ key ∈ keys, key.SingleValued) :
    (bundleKeys toJson keys).members.Perm keys := by
  rw [bundleKeys]
  split
  · rename_i same
    exact perm_of_sameSet (nodup_members_candidate keys) same
  · grind [List.perm_insertionSort, members_set, flatMap_members]

theorem mem_members_bundleKeys {key} :
    key ∈ (bundleKeys toJson keys).members ↔ ∃ asked ∈ keys, key ∈ asked.members := by
  rw [bundleKeys]
  split
  · rename_i same
    have perm := perm_of_sameSet (nodup_members_candidate keys) same
    grind [members_of_mem]
  · simp [members_set]

end Bundle

section Groups

variable {strategy : BackfillStrategy} {keys : List PartitionKey}

theorem flatten_groupIntoRuns_perm (strategy : BackfillStrategy) (keys : List PartitionKey) :
    (groupIntoRuns strategy keys).flatten.Perm keys := by
  unfold groupIntoRuns
  split
  · rw [← List.flatMap_def, List.flatMap_singleton']
  · split
    · rename_i none
      simp [none]
    · simp
  · rename_i multiRun _
    refine .trans ?_ (@Assoc.grouped_group _ _ _ (fun key => key.extractMultiRunDims multiRun)
      keys).perm
    rw [← List.flatMap_def]
    exact (List.perm_insertionSort _ _).flatMap_right _

theorem flatMap_runs_perm {toJson} (single : ∀ key ∈ keys, key.SingleValued) :
    (((groupIntoRuns strategy keys).map (bundleKeys toJson)).flatMap (·.members)).Perm keys := by
  refine .trans ?_ (flatten_groupIntoRuns_perm strategy keys)
  have inGroups : ∀ group ∈ groupIntoRuns strategy keys, ∀ key ∈ group, key.SingleValued := by
    grind [flatten_groupIntoRuns_perm, List.mem_flatten]
  generalize groupIntoRuns strategy keys = groups at inGroups
  induction groups with
  | nil => rfl
  | cons group groups ih => grind [members_bundleKeys_perm]

end Groups

section Dimensions

def PartitionKey.dimension (key : PartitionKey) (name : String) : Option (List String) :=
  match key.raw with
  | .multi dims => dims.lookup name
  | _ => none

variable {dims others : List Dimension}

theorem filter_names_eq_iff (sorted : dims.Pairwise fun left right => left.1 < right.1)
    (otherSorted : others.Pairwise fun left right => left.1 < right.1) (names : List String) :
    (dims.filter fun dim => dim.1 ∈ names) = (others.filter fun dim => dim.1 ∈ names) ↔
      ∀ name ∈ names, dims.lookup name = others.lookup name := by
  have dist : (dims.map (·.1)).Nodup := (List.pairwise_map.mpr sorted).imp fun below => below.ne
  have otherDistinct : (others.map (·.1)).Nodup :=
    (List.pairwise_map.mpr otherSorted).imp fun below => below.ne
  have members (name : String) (inNames : name ∈ names)
    (vals : List String) {list : List Dimension} :
      (name, vals) ∈ list.filter (fun dim => dim.1 ∈ names) ↔ (name, vals) ∈ list := by
    simp [inNames]
  constructor
  · intro same name inNames
    refine Option.ext fun vals => ?_
    grind [Assoc.lookup_eq_some_iff_mem]
  · intro agree
    have sameMembers (dim : Dimension) :
        dim ∈ dims.filter (fun dim => dim.1 ∈ names) ↔
        dim ∈ others.filter (fun dim => dim.1 ∈ names) := by
      obtain ⟨name, vals⟩ := dim
      by_cases inNames : name ∈ names
      · rw [members name inNames, members name inNames, ← Assoc.lookup_eq_some_iff_mem dist,
          agree name inNames, Assoc.lookup_eq_some_iff_mem otherDistinct]
      · simp [inNames]
    have irrefl : Std.Irrefl fun left right : Dimension => left.1 < right.1 :=
      ⟨fun dim => lt_irrefl dim.1⟩
    have antisymm : Std.Antisymm fun left right : Dimension => left.1 < right.1 :=
      ⟨fun _ _ below above => absurd above (lt_asymm below)⟩
    exact List.Pairwise.eq_of_mem_iff (sorted.filter _) (otherSorted.filter _) sameMembers

def PartitionsDefinition.IsSingleValuedKey (definition : PartitionsDefinition)
    (key : PartitionKey) : Prop :=
  match definition with
  | .multi dimensions => ∃ dims : List Dimension, key = .multi dims ∧
      dims.map (·.1) = dimensions.map (·.1) ∧ ∀ dim ∈ dims, ∃ value, dim.2 = [value]
  | _ => ∃ value, key = .single [value]

variable {library : TimeLibrary} {definition : PartitionsDefinition} {key left right : PartitionKey}

theorem singleValued_of_key (isKey : definition.IsSingleValuedKey key) : key.SingleValued := by
  cases definition with
  | multi dimensions =>
    obtain ⟨dims, rfl, -, single⟩ := isKey
    exact fun dim mem => single dim ((List.perm_insertionSort _ dims).mem_iff.mp mem)
  | _ =>
    obtain ⟨value, rfl⟩ := isKey
    exact ⟨value, rfl⟩

theorem sorted_of_key {dimensions}
    (valid : (PartitionsDefinition.multi dimensions).validateDefinition library = .ok ())
    (isKey : (PartitionsDefinition.multi dimensions).IsSingleValuedKey key) :
    ∃ dims, key.raw = .multi dims ∧ dims.Pairwise fun left right => left.1 < right.1 := by
  obtain ⟨dims, rfl, names, -⟩ := isKey
  have dist : (dims.map (·.1)).Nodup := names ▸ PartitionsDefinition.nodup_of_validate valid
  refine ⟨sortDims dims, rfl, ?_⟩
  have sorted := List.pairwise_insertionSort (fun left right : Dimension => left.1 ≤ right.1) dims
  have differ : (sortDims dims).Pairwise fun left right => left.1 ≠ right.1 :=
    List.pairwise_map.mp (((List.perm_insertionSort _ dims).map _).nodup_iff.mpr dist)
  exact (sorted.and differ).imp fun ⟨below, other⟩ => lt_of_le_of_ne below other

theorem extractMultiRunDims_eq_iff (valid : definition.validateDefinition library = .ok ())
    (leftKey : definition.IsSingleValuedKey left) (rightKey : definition.IsSingleValuedKey right)
    (multiRun : List String) :
    left.extractMultiRunDims multiRun = right.extractMultiRunDims multiRun ↔
      ∀ name ∈ multiRun, left.dimension name = right.dimension name := by
  cases definition with
  | multi dimensions =>
    obtain ⟨dims, leftRaw, leftSorted⟩ := sorted_of_key valid leftKey
    obtain ⟨others, rightRaw, rightSorted⟩ := sorted_of_key valid rightKey
    have keeps {list : List Dimension} (sorted : list.Pairwise fun left right => left.1 < right.1) :
        sortDims (list.filter fun dim => dim.1 ∈ multiRun) = list.filter fun dim => dim.1 ∈
          multiRun := by
      grind [List.Pairwise.insertionSort_eq, RawPartitionKey.sortDims]
    simp only [extractMultiRunDims, dimension, leftRaw, rightRaw, keeps leftSorted,
      keeps rightSorted]
    exact filter_names_eq_iff leftSorted rightSorted multiRun
  | _ =>
    obtain ⟨value, rfl⟩ := leftKey
    obtain ⟨other, rfl⟩ := rightKey
    simp [extractMultiRunDims, dimension, single, ofRaw,
      RawPartitionKey.canon]

end Dimensions

section Runs

variable {library : TimeLibrary} {definition : PartitionsDefinition} {keys : List PartitionKey}
  {toJson : PartitionKey → String}

def backfillRuns (toJson : PartitionKey → String) (strategy : BackfillStrategy)
    (keys : List PartitionKey) :
    List PartitionKey :=
  (groupIntoRuns strategy keys).map (bundleKeys toJson)

theorem same_run_iff (single : ∀ key ∈ keys, key.SingleValued) (strategy : BackfillStrategy)
    {left right} :
    (∃ run ∈ backfillRuns toJson strategy keys, left ∈ run.members ∧ right ∈ run.members) ↔
      ∃ group ∈ groupIntoRuns strategy keys, left ∈ group ∧ right ∈ group := by
  have members (group : List PartitionKey) (inGroup : group ∈ groupIntoRuns strategy keys)
    (key : PartitionKey) :
      key ∈ (bundleKeys toJson group).members ↔ key ∈ group := by
    grind [members_bundleKeys_perm, flatten_groupIntoRuns_perm, List.mem_flatten]
  constructor
  · grind [backfillRuns]
  · grind [backfillRuns]

theorem same_group_perDimension {multiRun singleRun left right} (inLeft : left ∈ keys)
    (inRight : right ∈ keys) :
    (∃ group ∈ groupIntoRuns (.perDimension multiRun singleRun) keys, left ∈ group ∧
      right ∈ group) ↔
      left.extractMultiRunDims multiRun = right.extractMultiRunDims multiRun := by
  grind [Assoc.Grouped.same_group_iff, Assoc.grouped_group, List.perm_insertionSort, groupIntoRuns]

/-- Grouping, bundling and expanding permute the keys. -/
theorem backfillRuns_members (valid : definition.validateDefinition library = .ok ())
    (isKey : ∀ key ∈ keys, definition.IsSingleValuedKey key) (strategy : BackfillStrategy) :
    ((backfillRuns toJson strategy keys).flatMap (·.members)).Perm keys ∧
      (keys.Nodup → (backfillRuns toJson strategy keys).Pairwise fun left right =>
        left.members.Disjoint right.members) ∧
      ∀ multiRun singleRun, strategy = .perDimension multiRun singleRun →
        ∀ left ∈ keys, ∀ right ∈ keys,
        ((∃ run ∈ backfillRuns toJson strategy keys, left ∈ run.members ∧ right ∈ run.members) ↔
          ∀ name ∈ multiRun, left.dimension name = right.dimension name) := by
  have single : ∀ key ∈ keys, key.SingleValued :=
    fun key member => singleValued_of_key (isKey key member)
  have perm : ((backfillRuns toJson strategy keys).flatMap (·.members)).Perm keys :=
    flatMap_runs_perm single
  refine ⟨perm, fun distinct => ?_, ?_⟩
  · exact (List.nodup_flatMap.mp (perm.nodup_iff.mpr distinct)).2
  · rintro multiRun singleRun rfl left inLeft right inRight
    rw [same_run_iff single, same_group_perDimension inLeft inRight]
    exact extractMultiRunDims_eq_iff valid (isKey left inLeft) (isKey right inRight) multiRun

def noLibrary : TimeLibrary :=
  ⟨fun _ => none, fun _ _ => "", fun _ _ => none⟩

def regionsByDate : PartitionsDefinition :=
  .multi [("region", .static ["us", "eu"]), ("date", .static ["d1", "d2"])]

def threeKeys : List PartitionKey :=
  [.multi [("region", ["us"]), ("date", ["d1"])], .multi [("region", ["us"]), ("date", ["d2"])],
    .multi [("region", ["eu"]), ("date", ["d1"])]]

theorem isSingleValuedKey_threeKeys : ∀ key ∈ threeKeys, regionsByDate.IsSingleValuedKey key := by
  grind [threeKeys, PartitionsDefinition.IsSingleValuedKey, regionsByDate]

theorem backfillRuns_members_threeKeys :
    ((backfillRuns (fun _ => "") (.perDimension ["region"] ["date"]) threeKeys).flatMap
      (·.members)).Perm
        threeKeys ∧
      (threeKeys.Nodup → (backfillRuns (fun _ => "") (.perDimension ["region"] ["date"])
        threeKeys).Pairwise
        fun left right => left.members.Disjoint right.members) ∧
      ∀ multiRun singleRun, BackfillStrategy.perDimension ["region"] ["date"] =
        .perDimension multiRun singleRun →
        ∀ left ∈ threeKeys, ∀ right ∈ threeKeys,
          ((∃ run ∈ backfillRuns (fun _ => "") (.perDimension ["region"] ["date"]) threeKeys,
              left ∈ run.members ∧ right ∈ run.members) ↔
            ∀ name ∈ multiRun, left.dimension name = right.dimension name) :=
  @backfillRuns_members noLibrary regionsByDate _ _ (by decide +kernel)
    isSingleValuedKey_threeKeys _

end Runs

end Rivers

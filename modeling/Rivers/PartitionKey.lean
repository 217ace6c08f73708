import Mathlib.Data.List.Perm.Basic
import Mathlib.Data.List.Sort
import Mathlib.Data.String.Basic

/-! Partition keys of `storage/partition_key.rs`. -/

namespace Rivers

abbrev Dimension := String × List String

inductive RawPartitionKey where
  | single (keys : List String)
  | multi (dims : List Dimension)
  | set (keys : List RawPartitionKey)
  deriving Repr

inductive HashWrite where
  | discriminant (index : Nat)
  | length (count : Nat)
  | text (value : String)

namespace RawPartitionKey

mutual

def decEq : (left right : RawPartitionKey) → Decidable (left = right)
  | .single keys, .single others =>
      if same : keys = others then isTrue (by rw [same])
      else isFalse (by simpa using same)
  | .multi dims, .multi others =>
      if same : dims = others then isTrue (by rw [same])
      else isFalse (by simpa using same)
  | .set keys, .set others =>
      match decEqList keys others with
      | isTrue same => isTrue (by rw [same])
      | isFalse differ => isFalse (by simpa using differ)
  | .single _, .multi _ | .single _, .set _ | .multi _, .single _
  | .multi _, .set _ | .set _, .single _ | .set _, .multi _ => isFalse (by simp)

def decEqList : (left right : List RawPartitionKey) → Decidable (left = right)
  | [], [] => isTrue rfl
  | [], _ :: _ => isFalse (by simp)
  | _ :: _, [] => isFalse (by simp)
  | key :: keys, other :: others =>
      match decEq key other, decEqList keys others with
      | isTrue sameHead, isTrue sameTail => isTrue (by rw [sameHead, sameTail])
      | isFalse differ, _ => isFalse (by simp [differ])
      | _, isFalse differ => isFalse (by simp [differ])

end

instance : DecidableEq RawPartitionKey := decEq

def sortDims (dims : List Dimension) : List Dimension :=
  dims.insertionSort fun left right => left.1 ≤ right.1

mutual

def canon : RawPartitionKey → RawPartitionKey
  | .single keys => .single keys
  | .multi dims => .multi (sortDims dims)
  | .set keys => .set (canonList keys)

def canonList : List RawPartitionKey → List RawPartitionKey
  | [] => []
  | key :: keys => canon key :: canonList keys

end

mutual

def eq : RawPartitionKey → RawPartitionKey → Bool
  | .single keys, .single others => keys = others
  | .multi dims, .multi others =>
      dims.length = others.length && sortDims dims = sortDims others
  | .set keys, .set others => eqList keys others
  | _, _ => false

def eqList : List RawPartitionKey → List RawPartitionKey → Bool
  | [], [] => true
  | key :: keys, other :: others => eq key other && eqList keys others
  | _, _ => false

end

instance dimensionOrder : Std.Total fun left right : Dimension => left.1 ≤ right.1 :=
  ⟨fun left right => le_total left.1 right.1⟩

instance dimensionTrans : IsTrans Dimension fun left right => left.1 ≤ right.1 :=
  ⟨fun _ _ _ first second => le_trans first second⟩

theorem sortDims_sortDims (dims : List Dimension) :
    sortDims (sortDims dims) = sortDims dims :=
  (List.pairwise_insertionSort _ dims).insertionSort_eq

mutual

theorem canon_canon : (key : RawPartitionKey) → key.canon.canon = key.canon
  | .single _ => rfl
  | .multi dims => by simp [canon, sortDims_sortDims]
  | .set keys => by simp [canon, canonList_canonList keys]

theorem canonList_canonList :
    (keys : List RawPartitionKey) → canonList (canonList keys) = canonList keys
  | [] => rfl
  | key :: keys => by simp [canonList, canon_canon key, canonList_canonList keys]

end

theorem sortDims_length (dims : List Dimension) : (sortDims dims).length = dims.length :=
  List.length_insertionSort _ dims

mutual

theorem eq_iff_canon : (left right : RawPartitionKey) →
    (left.eq right = true ↔ left.canon = right.canon)
  | .single _, .single _ => by simp [eq, canon]
  | .multi dims, .multi others => by
      grind [sortDims_length, eq, canon]
  | .set keys, .set others => by simp [eq, canon, eqList_iff_canon keys others]
  | .single _, .multi _ | .single _, .set _ | .multi _, .single _
  | .multi _, .set _ | .set _, .single _ | .set _, .multi _ => by simp [eq, canon]

theorem eqList_iff_canon : (left right : List RawPartitionKey) →
    (eqList left right = true ↔ canonList left = canonList right)
  | [], [] => by simp [eqList, canonList]
  | [], _ :: _ => by simp [eqList, canonList]
  | _ :: _, [] => by simp [eqList, canonList]
  | key :: keys, other :: others => by
      simp [eqList, canonList, eq_iff_canon key other, eqList_iff_canon keys others]

end

def hashStrings (values : List String) : List HashWrite :=
  .length values.length :: values.map .text

mutual

/-- What `hash` feeds to the hasher. -/
def hash : RawPartitionKey → List HashWrite
  | .single keys => .discriminant 0 :: hashStrings keys
  | .multi dims =>
      .discriminant 1 :: .length (sortDims dims).length ::
        (sortDims dims).flatMap fun dim => .text dim.1 :: hashStrings dim.2
  | .set keys => .discriminant 2 :: .length keys.length :: hashList keys

def hashList : List RawPartitionKey → List HashWrite
  | [] => []
  | key :: keys => hash key ++ hashList keys

end

mutual

theorem hash_canon : (key : RawPartitionKey) → key.canon.hash = key.hash
  | .single _ => rfl
  | .multi dims => by rw [canon, hash, hash, sortDims_sortDims]
  | .set keys => by rw [canon, hash, hash, (hashList_canonList keys).1, (hashList_canonList keys).2]

theorem hashList_canonList : (keys : List RawPartitionKey) →
    (canonList keys).length = keys.length ∧ hashList (canonList keys) = hashList keys
  | [] => ⟨rfl, rfl⟩
  | key :: keys => by simp [canonList, hashList, hash_canon key, hashList_canonList keys]

end

/-- Equal keys hash alike, and equality is an equivalence, as the maps and sets over keys need. -/
theorem hash_eq_of_eq : Equivalence (fun left right : RawPartitionKey => left.eq right = true) ∧
    ∀ left right : RawPartitionKey, left.eq right = true → left.hash = right.hash := by
  simp only [eq_iff_canon]
  refine ⟨⟨fun key => rfl, Eq.symm, Eq.trans⟩, fun left right same => ?_⟩
  rw [← hash_canon left, same, hash_canon]

end RawPartitionKey

structure PartitionKey where
  raw : RawPartitionKey
  sorted : raw.canon = raw
  deriving DecidableEq

namespace PartitionKey

open RawPartitionKey (sortDims)

def ofRaw (raw : RawPartitionKey) : PartitionKey :=
  ⟨raw.canon, raw.canon_canon⟩

def single (keys : List String) : PartitionKey :=
  ofRaw (.single keys)

theorem single_inj {left right} : single [left] = single [right] ↔ left = right := by
  refine ⟨fun same => ?_, fun same => same ▸ rfl⟩
  simpa [single, ofRaw, RawPartitionKey.canon] using same

def multi (dims : List Dimension) : PartitionKey :=
  ofRaw (.multi dims)

def combos : List Dimension → List (List Dimension)
  | [] => [[]]
  | (name, values) :: dims =>
      values.flatMap fun value => (combos dims).map ((name, [value]) :: ·)

mutual

def rawMembers : RawPartitionKey → List RawPartitionKey
  | .single keys => keys.map fun key => .single [key]
  | .multi dims => (combos (sortDims dims)).map .multi
  | .set keys => rawMembersList keys

def rawMembersList : List RawPartitionKey → List RawPartitionKey
  | [] => []
  | key :: keys => rawMembers key ++ rawMembersList keys

end

def members (key : PartitionKey) : List PartitionKey :=
  (rawMembers key.raw).map ofRaw

section Members

def Picks (choice dim : Dimension) : Prop :=
  choice.1 = dim.1 ∧ ∃ value ∈ dim.2, choice.2 = [value]

theorem mem_combos {dims choice} : choice ∈ combos dims ↔ List.Forall₂ Picks choice dims := by
  induction dims generalizing choice with
  | nil => simp [combos]
  | cons dim dims ih =>
    obtain ⟨name, vals⟩ := dim
    simp only [combos, List.mem_flatMap, List.mem_map]
    constructor
    · rintro ⟨value, mem, rest, inRest, rfl⟩
      exact .cons ⟨rfl, value, mem, rfl⟩ (ih.mp inRest)
    · rintro (_ | @⟨first, _, rest, _, ⟨sameName, value, mem, sameValue⟩, picks⟩)
      grind

theorem nodup_combos {dims} (dist : ∀ dim ∈ dims, dim.2.Nodup) : (combos dims).Nodup := by
  induction dims with
  | nil => simp [combos]
  | cons dim dims ih =>
    obtain ⟨first, rest⟩ := List.forall_mem_cons.mp dist
    refine List.nodup_flatMap.mpr ⟨fun value _ => (ih rest).map fun _ _ same => List.cons.inj
      same |>.2, ?_⟩
    refine first.imp fun {left right} differ => ?_
    simp only [Function.onFun, List.disjoint_left, List.mem_map, not_exists, not_and]
    grind

theorem names_of_mem_combos {dims choice} (mem : choice ∈ combos dims) :
    choice.map (·.1) = dims.map (·.1) := by
  have picks := mem_combos.mp mem
  clear mem
  induction picks with
  | nil => rfl
  | cons first _ ih => rw [List.map_cons, List.map_cons, ih, first.1]

theorem sortDims_of_mem_combos {dims choice} (mem : choice ∈ combos (sortDims dims)) :
    sortDims choice = choice := by
  have names := names_of_mem_combos mem
  have sorted := List.pairwise_insertionSort (fun left right : Dimension => left.1 ≤ right.1) dims
  have sortedNames : ((sortDims dims).map (·.1)).Pairwise (· ≤ ·) := List.pairwise_map.mpr sorted
  rw [← names, List.pairwise_map] at sortedNames
  exact sortedNames.insertionSort_eq

def SingleValued (key : PartitionKey) : Prop :=
  match key.raw with
  | .single values => ∃ value, values = [value]
  | .multi dims => ∀ dim ∈ dims, ∃ value, dim.2 = [value]
  | .set _ => False

theorem combos_of_single {dims} (single : ∀ dim ∈ dims, ∃ value, dim.2 = [value]) :
    combos dims = [dims] := by
  induction dims with
  | nil => rfl
  | cons dim dims ih =>
    obtain ⟨⟨value, first⟩, rest⟩ := List.forall_mem_cons.mp single
    obtain ⟨name, values⟩ := dim
    obtain rfl : values = [value] := first
    simp [combos, ih rest]

theorem ofRaw_raw (key : PartitionKey) : ofRaw key.raw = key := by
  obtain ⟨raw, sorted⟩ := key
  simp only [ofRaw, sorted]

theorem members_of_singleValued {key : PartitionKey} (single : key.SingleValued) :
    key.members = [key] := by
  unfold SingleValued at single
  have sorted := key.sorted
  unfold members
  cases raw : key.raw with
  | single vals => grind [ofRaw_raw, rawMembers]
  | multi dims =>
    grind [combos_of_single, ofRaw_raw, RawPartitionKey.canon, rawMembers]
  | set keys =>
    rw [raw] at single
    exact single.elim

theorem single_of_mem_combos {dims choice} (mem : choice ∈ combos dims) :
    ∀ dim ∈ choice, ∃ value, dim.2 = [value] := by
  have picks := mem_combos.mp mem
  clear mem
  induction picks with
  | nil => simp
  | cons first _ ih => grind [Picks]

mutual

theorem singleValued_rawMembers : (raw : RawPartitionKey) →
    ∀ mem ∈ rawMembers raw, (ofRaw mem).SingleValued
  | .single vals => by
      simp only [rawMembers, List.forall_mem_map]
      exact fun value _ => ⟨value, rfl⟩
  | .multi dims => by
      simp only [rawMembers, List.forall_mem_map]
      intro choice picked
      have sorted : (ofRaw (.multi choice)).raw = .multi choice :=
        congrArg RawPartitionKey.multi (sortDims_of_mem_combos picked)
      rw [SingleValued, sorted]
      exact single_of_mem_combos picked
  | .set keys => singleValued_rawMembersList keys

theorem singleValued_rawMembersList :
    (raws : List RawPartitionKey) → ∀ mem ∈ rawMembersList raws, (ofRaw mem).SingleValued
  | [] => by simp [rawMembersList]
  | raw :: raws => by
      rw [rawMembersList, List.forall_mem_append]
      exact ⟨singleValued_rawMembers raw, singleValued_rawMembersList raws⟩

end

theorem members_of_mem {key mem : PartitionKey} (isMem : mem ∈ key.members) :
    mem.members = [mem] := by
  obtain ⟨raw, inRaw, rfl⟩ := List.mem_map.mp isMem
  exact members_of_singleValued (singleValued_rawMembers key.raw raw inRaw)

end Members

section Dimensions

variable {dims others : List Dimension}

theorem perm_sortDims (dims : List Dimension) : (sortDims dims).Perm dims :=
  List.perm_insertionSort _ dims

theorem nodup_sortDims (dist : (dims.map (·.1)).Nodup) : ((sortDims dims).map (·.1)).Nodup :=
  ((perm_sortDims dims).map _).nodup_iff.mpr dist

theorem sortDims_eq_of_perm (dist : (dims.map (·.1)).Nodup) (same : dims.Perm others) :
    sortDims dims = sortDims others := by
  have sortedSame : (sortDims dims).Perm (sortDims others) :=
    (perm_sortDims dims).trans (same.trans (perm_sortDims others).symm)
  refine sortedSame.eq_of_pairwise (fun left right inDims inOthers below above => ?_)
    (List.pairwise_insertionSort _ dims) (List.pairwise_insertionSort _ others)
  grind [perm_sortDims, List.inj_on_of_nodup_map]

theorem multi_eq_of_perm (dist : (dims.map (·.1)).Nodup) (same : dims.Perm others) :
    multi dims = multi others := by
  grind [sortDims_eq_of_perm, multi, ofRaw, RawPartitionKey.canon]

theorem exists_picks_of_perm {choice} (same : others.Perm dims)
    (picks : List.Forall₂ Picks choice dims) :
    ∃ other, List.Forall₂ Picks other others ∧ other.Perm choice := by
  obtain ⟨other, picked, reordered⟩ := List.perm_comp_forall₂ same picks.flip
  exact ⟨other, picked.flip, reordered⟩

theorem Picks.names {choice} (picks : List.Forall₂ Picks choice dims) :
    choice.map (·.1) = dims.map (·.1) :=
  names_of_mem_combos (mem_combos.mpr picks)

theorem mem_members_multi (dist : (dims.map (·.1)).Nodup) {key} :
    key ∈ (multi dims).members ↔ ∃ choice, List.Forall₂ Picks choice dims ∧ key = multi choice := by
  have raw : rawMembers (multi dims).raw = (combos (sortDims dims)).map .multi := by
    show rawMembers (.multi (sortDims dims)) = _
    rw [rawMembers, RawPartitionKey.sortDims_sortDims]
  rw [members, raw, List.map_map, List.mem_map]
  constructor
  · rintro ⟨choice, picked, rfl⟩
    obtain ⟨other, picks, same⟩ := exists_picks_of_perm (perm_sortDims dims).symm
      (mem_combos.mp picked)
    exact ⟨other, picks, (multi_eq_of_perm (Picks.names picks ▸ dist) same).symm⟩
  · rintro ⟨choice, picks, rfl⟩
    obtain ⟨other, picked, same⟩ := exists_picks_of_perm (perm_sortDims dims) picks
    exact ⟨other, mem_combos.mpr picked,
      multi_eq_of_perm (Picks.names picked ▸ nodup_sortDims dist) same⟩

end Dimensions

end PartitionKey

end Rivers

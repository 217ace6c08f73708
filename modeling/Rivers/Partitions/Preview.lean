import Mathlib.Algebra.BigOperators.Group.List.Basic
import Rivers.PartitionKey

/-! The member preview and the member count of `storage/partition_key.rs`. -/

namespace Rivers.RawPartitionKey

open PartitionKey (combos rawMembers rawMembersList)

def usizeSize : Nat :=
  2 ^ 64

def saturatingMul (left right : Nat) : Nat :=
  min (left * right) (usizeSize - 1)

mutual

/-- The lengths of vectors are `usize`; the sum over a set is a plain one and wraps in a release
build. -/
def memberCount : RawPartitionKey → Nat
  | .single keys => keys.length % usizeSize
  | .multi dims => (dims.map (·.2.length)).foldl saturatingMul 1
  | .set keys => memberCountList keys

def memberCountList : List RawPartitionKey → Nat
  | [] => 0
  | key :: keys => (memberCount key + memberCountList keys) % usizeSize

end

def previewCombos (limit : Nat) (dims : List Dimension) : List (List Dimension) :=
  dims.foldl (fun combos dim =>
    (combos.flatMap fun combo => dim.2.map fun value => combo ++ [(dim.1, [value])]).take limit)
      [[]]

/-- The inner loop over a set: it returns from the whole function once `limit` members are out. -/
def pushMembers (limit : Nat) : List RawPartitionKey → List RawPartitionKey →
    Except (List RawPartitionKey) (List RawPartitionKey)
  | [], out => .ok out
  | mem :: rest, out =>
      if limit ≤ (out ++ [mem]).length then .error (out ++ [mem])
      else pushMembers limit rest (out ++ [mem])

mutual

def membersPreview : RawPartitionKey → Nat → List RawPartitionKey
  | .single keys, limit => if limit = 0 then [] else (keys.take limit).map fun key => .single [key]
  | .multi dims, limit => if limit = 0 then [] else (previewCombos limit (sortDims dims)).map .multi
  | .set keys, limit => if limit = 0 then [] else previewSet keys limit []

def previewSet : List RawPartitionKey → Nat → List RawPartitionKey → List RawPartitionKey
  | [], _, out => out
  | key :: keys, limit, out =>
      match pushMembers limit (membersPreview key (limit - out.length)) out with
      | .error out => out
      | .ok out => previewSet keys limit out

end

def members (key : RawPartitionKey) : List RawPartitionKey :=
  key.membersPreview (usizeSize - 1)

mutual

/-- The number of members without a bound on it. -/
def exactCount : RawPartitionKey → Nat
  | .single keys => keys.length
  | .multi dims => (dims.map (·.2.length)).prod
  | .set keys => exactCountList keys

def exactCountList : List RawPartitionKey → Nat
  | [] => 0
  | key :: keys => exactCount key + exactCountList keys

end

mutual

/-- Whether a product in the count is cut off. -/
def saturates : RawPartitionKey → Bool
  | .single _ => false
  | .multi dims => usizeSize ≤ (dims.map (·.2.length)).prod
  | .set keys => saturatesList keys

def saturatesList : List RawPartitionKey → Bool
  | [] => false
  | key :: keys => saturates key || saturatesList keys

end

section Prefixes

variable {α β : Type}

theorem take_flatMap_take {items : List α} {expand : α → List β} {width}
    (even : ∀ item, (expand item).length = width) (limit : Nat) :
    ((items.take limit).flatMap expand).take limit = (items.flatMap expand).take limit := by
  by_cases short : items.length ≤ limit
  · rw [List.take_of_length_le short]
  have cut : items.flatMap expand = (items.take limit).flatMap expand ++ (items.drop limit).flatMap
    expand := by
    rw [← List.flatMap_append, List.take_append_drop]
  have length : ((items.take limit).flatMap expand).length = limit * width := by
    simp only [List.length_flatMap, even, List.map_const', List.sum_replicate_nat, List.length_take]
    rw [Nat.min_eq_left (by omega)]
  by_cases none : width = 0
  · have empty (items : List α) : items.flatMap expand = [] := by
      refine List.flatMap_eq_nil_iff.mpr fun item _ => List.eq_nil_of_length_eq_zero ?_
      rw [even, none]
    rw [empty, empty]
  · rw [cut, List.take_append_of_le_length]
    rw [length]
    exact Nat.le_mul_of_pos_right limit (Nat.pos_of_ne_zero none)

end Prefixes

theorem length_combos (dims : List Dimension) : (combos dims).length =
    (dims.map (·.2.length)).prod := by
  induction dims with
  | nil => rfl
  | cons dim dims ih => simp [combos, ih]

theorem previewCombos_eq {limit : Nat} (some : limit ≠ 0) (dims : List Dimension) :
    previewCombos limit dims = (combos dims).take limit := by
  have loop (start : List (List Dimension)) (fits : start.length ≤ limit) :
      dims.foldl (fun combos dim =>
        (combos.flatMap fun combo => dim.2.map fun value => combo ++ [(dim.1, [value])]).take limit)
          start =
      (start.flatMap fun combo => (combos dims).map (combo ++ ·)).take limit := by
    induction dims generalizing start with
    | nil => simp [combos, List.take_of_length_le fits]
    | cons dim dims ih =>
      rw [List.foldl_cons, ih _ (List.length_take_le ..),
        take_flatMap_take (fun _ => List.length_map _), List.flatMap_assoc]
      congr 2
      funext combo
      simp [combos, List.flatMap_map, List.map_flatMap, Function.comp_def]
  rw [previewCombos, loop [[]] (by simp; omega)]
  simp

theorem pushMembers_eq {limit found out} (room : out.length < limit)
    (fits : out.length + found.length ≤ limit) :
    pushMembers limit found out =
      if out.length + found.length = limit then .error (out ++ found) else .ok (out ++ found) := by
  induction found generalizing out with
  | nil =>
    rw [pushMembers, List.append_nil, if_neg]
    rw [List.length_nil]
    omega
  | cons mem rest ih =>
    rw [pushMembers]
    rw [List.length_cons] at fits ⊢
    by_cases full : limit ≤ (out ++ [mem]).length
    · rw [if_pos full]
      rw [List.length_append, List.length_singleton] at full
      obtain rfl : rest = [] := List.eq_nil_of_length_eq_zero (by omega)
      rw [if_pos (by rw [List.length_nil]; omega)]
    · rw [if_neg full]
      rw [List.length_append, List.length_singleton] at full
      rw [ih (by rw [List.length_append, List.length_singleton]; omega)
        (by rw [List.length_append, List.length_singleton]; omega), List.length_append,
        List.length_singleton,
        List.append_assoc, List.singleton_append, Nat.add_assoc, Nat.add_comm 1]

mutual

/-- The preview is a prefix of the whole expansion. -/
theorem membersPreview_eq : (key : RawPartitionKey) → (limit : Nat) →
    key.membersPreview limit = (rawMembers key).take limit
  | .single keys, limit => by
      rw [membersPreview, rawMembers]
      split
      · simp_all
      · rw [List.map_take]
  | .multi dims, limit => by
      rw [membersPreview, rawMembers]
      split
      · simp_all
      · rename_i some
        rw [previewCombos_eq some, List.map_take]
  | .set keys, limit => by
      rw [membersPreview, rawMembers]
      split
      · simp_all
      · rename_i some
        rw [previewSet_eq keys limit [] (Nat.pos_of_ne_zero some)]
        rfl

theorem previewSet_eq : (keys : List RawPartitionKey) → (limit : Nat) →
    (out : List RawPartitionKey) →
    out.length < limit → previewSet keys limit out = out ++ (rawMembersList keys).take
      (limit - out.length)
  | [], limit, out, room => by simp [previewSet, rawMembersList]
  | key :: keys, limit, out, room => by
      have length : ((rawMembers key).take (limit - out.length)).length =
          min (limit - out.length) (rawMembers key).length := List.length_take
      rw [previewSet, membersPreview_eq key, pushMembers_eq room (by omega), rawMembersList,
        List.take_append]
      by_cases full : out.length + ((rawMembers key).take (limit - out.length)).length = limit
      · rw [if_pos full]
        have none : limit - out.length - (rawMembers key).length = 0 := by omega
        rw [none, List.take_zero, List.append_nil]
      · rw [if_neg full]
        dsimp only
        rw [previewSet_eq keys limit _ (by rw [List.length_append]; omega), List.append_assoc,
          List.length_append]
        congr 3
        omega

end

mutual

theorem length_rawMembers : (key : RawPartitionKey) → (rawMembers key).length = key.exactCount
  | .single keys => by rw [rawMembers, List.length_map, exactCount]
  | .multi dims => by
      rw [rawMembers, List.length_map, length_combos, exactCount]
      exact ((PartitionKey.perm_sortDims dims).map _).prod_eq
  | .set keys => by rw [rawMembers, exactCount, length_rawMembersList keys]

theorem length_rawMembersList : (keys : List RawPartitionKey) → (rawMembersList keys).length =
    exactCountList keys
  | [] => rfl
  | key :: keys => by
      rw [rawMembersList, List.length_append, length_rawMembers key, length_rawMembersList keys,
        exactCountList]

end

theorem foldl_saturatingMul {counts : List Nat} (start : Nat) (below : start < usizeSize) :
    counts.foldl saturatingMul start = min (start * counts.prod) (usizeSize - 1) := by
  induction counts generalizing start with
  | nil =>
    rw [List.foldl_nil, List.prod_nil, Nat.mul_one]
    omega
  | cons count counts ih =>
    have bounded : saturatingMul start count < usizeSize := by
      unfold saturatingMul usizeSize
      omega
    rw [List.foldl_cons, ih _ bounded, List.prod_cons, ← Nat.mul_assoc, saturatingMul]
    by_cases cut : start * count ≤ usizeSize - 1
    · rw [Nat.min_eq_left cut]
    · have above : usizeSize - 1 ≤ start * count := by omega
      rw [Nat.min_eq_right above]
      by_cases none : counts.prod = 0
      · rw [none, Nat.mul_zero, Nat.mul_zero]
      · have positive := Nat.pos_of_ne_zero none
        rw [Nat.min_eq_right (Nat.le_mul_of_pos_right _ positive),
          Nat.min_eq_right (above.trans (Nat.le_mul_of_pos_right _ positive))]

mutual

theorem memberCount_eq : (key : RawPartitionKey) → key.saturates = false →
    key.memberCount = key.exactCount % usizeSize
  | .single keys, _ => rfl
  | .multi dims, exact => by
      have below : (dims.map (·.2.length)).prod < usizeSize := by
        rw [saturates, decide_eq_false_iff_not] at exact
        omega
      rw [memberCount, exactCount, foldl_saturatingMul 1 (by decide), Nat.one_mul,
        Nat.mod_eq_of_lt below]
      omega
  | .set keys, exact => memberCountList_eq keys exact

theorem memberCountList_eq : (keys : List RawPartitionKey) → saturatesList keys = false →
    memberCountList keys = exactCountList keys % usizeSize
  | [], _ => rfl
  | key :: keys, exact => by
      obtain ⟨first, rest⟩ := Bool.or_eq_false_iff.mp exact
      rw [memberCountList, exactCountList, memberCount_eq key first, memberCountList_eq keys rest,
        ← Nat.add_mod]

end

theorem preview_and_count_iff (key : RawPartitionKey) (limit : Fin usizeSize) :
    (key.membersPreview limit = key.members.take limit ∧
      (key.saturates = false → (key.membersPreview limit).length = min limit.val key.memberCount)) ↔
      key.saturates = true ∨ key.exactCount < usizeSize ∨
      limit.val ≤ key.exactCount % usizeSize := by
  have below := limit.isLt
  have first : key.membersPreview limit = key.members.take limit := by
    rw [members, membersPreview_eq, membersPreview_eq, List.take_take, Nat.min_eq_left (by omega)]
  have length : (key.membersPreview limit).length = min limit.val key.exactCount := by
    rw [membersPreview_eq, List.length_take, length_rawMembers]
  cases cut : key.saturates with
  | true => simp [first]
  | false =>
    rw [memberCount_eq key cut, length]
    by_cases fits : key.exactCount < usizeSize
    · simp [first, fits, Nat.mod_eq_of_lt fits]
    · simp only [first, true_and, forall_const, Bool.false_eq_true, false_or, fits]
      omega

/-- A dimension of 63 binary choices. -/
def binary : RawPartitionKey :=
  .multi (List.replicate 63 ("day", ["am", "pm"]))

theorem two_binary_count_none :
    (set [binary, binary]).saturates = false ∧ (set [binary, binary]).memberCount = 0 ∧
      ((set [binary, binary]).membersPreview 1).length = 1 := by
  have whole : (set [binary, binary]).saturates = false := by decide
  refine ⟨whole, ?_, ?_⟩
  · rw [memberCount_eq _ whole]
    decide
  · rw [membersPreview_eq, List.length_take, length_rawMembers]
    decide

end Rivers.RawPartitionKey

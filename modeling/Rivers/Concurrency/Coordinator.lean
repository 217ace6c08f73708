import Mathlib.Data.List.Nodup
import Rivers.Concurrency.CoordinatorCore

/-! A dequeue cycle keeps within its limits. -/

namespace Rivers

open Tally TagConcurrencyCounter

section Counting

def tagMatches (key : String) (value : Option String) (tag : Tag) : Bool :=
  tag.1 = key && value.all (· = tag.2)

def runMatches (key : String) (value : Option String) (run : CoordinatorRunInfo) : Bool :=
  run.tags.any (tagMatches key value)

def allTags (runs : List CoordinatorRunInfo) : List Tag :=
  runs.flatMap (·.tags)

def tagCount (key : String) (value : Option String) (runs : List CoordinatorRunInfo) : Nat :=
  (allTags runs).countP (tagMatches key value)

variable {key : String} {value : Option String} {run : CoordinatorRunInfo}
  {runs : List CoordinatorRunInfo}

theorem countP_runMatches_le : runs.countP (runMatches key value) ≤ tagCount key value runs := by
  induction runs with
  | nil => simp [tagCount, allTags]
  | cons run runs ih => grind [List.countP_pos_iff, runMatches, tagCount, allTags]

theorem tagCount_eq (dist : ∀ run ∈ runs, (run.tags.map (·.1)).Nodup) :
    tagCount key value runs = runs.countP (runMatches key value) := by
  induction runs with
  | nil => simp [tagCount, allTags]
  | cons run runs ih =>
    obtain ⟨first, rest⟩ := List.forall_mem_cons.mp dist
    have atMostOne : run.tags.countP (tagMatches key value) ≤ 1 := by
      calc run.tags.countP (tagMatches key value)
          ≤ run.tags.countP (fun tag => tag.1 == key) :=
            List.countP_mono_left fun tag _ isMatch => by grind [tagMatches]
        _ = (run.tags.map (·.1)).count key := by rw [List.count, List.countP_map]; rfl
        _ ≤ 1 := List.nodup_iff_count_le_one.mp first key
    have own : run.tags.countP (tagMatches key value) = if runMatches key value run then 1
      else 0 := by
      grind [List.countP_pos_iff, runMatches]
    grind [tagCount, allTags]

namespace TagConcurrencyCounter

variable {counter : TagConcurrencyCounter}

theorem counts_keys : Counts (fun counter key => counter.keyCounts.lookup key) countTag (·.1) :=
  ⟨fun counter tag key => lookup_bump counter.keyCounts tag.1 key⟩

theorem counts_keyValues :
    Counts (fun counter tag => counter.keyValueCounts.lookup tag) countTag id :=
  ⟨fun counter tag other => lookup_bump counter.keyValueCounts tag other⟩

theorem counts_uniqueValues :
    Counts (fun counter (tag : Tag) => lookupIn counter.uniqueValueCounts tag.1 tag.2)
      countTag id :=
  ⟨fun counter tag other => lookupIn_bumpIn counter.uniqueValueCounts tag.1 tag.2 other⟩

theorem fromRuns_eq (limits : List TagConcurrencyLimit) (runs : List CoordinatorRunInfo) :
    fromRuns limits runs =
      ((allTags runs).filter fun tag => tag.1 ∈ limits.map (·.key)).foldl countTag ⟨∅, ∅, ∅,
        limits⟩ := by
  simp only [fromRuns, allTags, List.foldl_filter, List.foldl_flatMap, decide_eq_true_eq]

theorem limits_foldl (tags : List Tag) : (tags.foldl countTag counter).limits = counter.limits := by
  induction tags generalizing counter with
  | nil => rfl
  | cons tag tags ih => rw [List.foldl_cons, ih]; rfl

def counted (limits : List TagConcurrencyLimit) (tags : List Tag) : TagConcurrencyCounter :=
  tags.foldl countTag ⟨∅, ∅, ∅, limits⟩

variable {limits : List TagConcurrencyLimit} {tags : List Tag}

theorem countP_tagMatches_none : tags.countP (tagMatches key none) = tags.countP (·.1 = key) :=
  List.countP_congr fun tag _ => by simp [tagMatches]

theorem countP_tagMatches_some {value} :
    tags.countP (tagMatches key (some value)) = tags.countP (id · = (key, value)) := by
  grind [List.countP_congr, tagMatches]

theorem getD_keyCounts :
    ((counted limits tags).keyCounts.lookup key).getD 0 = tags.countP (tagMatches key none) := by
  rw [countP_tagMatches_none]
  exact (counts_keys.getD_foldl tags ⟨∅, ∅, ∅, limits⟩ key).trans (Nat.zero_add _)

theorem getD_keyValueCounts {value} :
    ((counted limits tags).keyValueCounts.lookup (key, value)).getD 0 =
      tags.countP (tagMatches key (some value)) := by
  rw [countP_tagMatches_some]
  exact (counts_keyValues.getD_foldl tags ⟨∅, ∅, ∅, limits⟩ (key, value)).trans (Nat.zero_add _)

theorem getD_uniqueValueCounts {value} :
    (lookupIn (counted limits tags).uniqueValueCounts key value).getD 0 =
      tags.countP (tagMatches key (some value)) := by
  rw [countP_tagMatches_some]
  exact (counts_uniqueValues.getD_foldl tags ⟨∅, ∅, ∅, limits⟩ (key, value)).trans (Nat.zero_add _)

end TagConcurrencyCounter

end Counting

section Blocking

def TagConcurrencyLimit.Counts (limit : TagConcurrencyLimit) (value : Option String) : Prop :=
  if limit.perUniqueValue then value.isSome = true else value = limit.value

namespace TagConcurrencyCounter

variable {limits : List TagConcurrencyLimit} {tags : List Tag} {run : CoordinatorRunInfo}
  {limit : TagConcurrencyLimit} {reason : BlockReason}

def FilledFor (tags : List Tag) (run : CoordinatorRunInfo) (limit : TagConcurrencyLimit)
    (value : Option String) :
    Prop :=
  limit.Counts value ∧ runMatches limit.key value run ∧
  limit.limit ≤ tags.countP (tagMatches limit.key value)

theorem blockedBy_eq_some {value current} :
    blockedBy limit value current = some reason ↔
      limit.limit ≤ current ∧ reason = .tagLimit limit.key value current limit.limit := by
  unfold blockedBy
  split
  · rename_i full
    simp [full, eq_comm]
  · rename_i free
    simp [free]

theorem isBlockedBy_eq_some (blocked : (counted limits tags).isBlockedBy run limit = some reason) :
    ∃ value, FilledFor tags run limit value ∧
      reason = .tagLimit limit.key value (tags.countP (tagMatches limit.key value))
        limit.limit := by
  unfold isBlockedBy at blocked
  split at blocked
  · rename_i unique
    obtain ⟨⟨key, value⟩, mem, blocked⟩ := List.exists_of_findSome?_eq_some blocked
    simp only at blocked
    split at blocked
    · cases blocked
    · rename_i sameKey
      rw [not_not] at sameKey
      subst sameKey
      rw [getD_uniqueValueCounts] at blocked
      obtain ⟨full, rfl⟩ := blockedBy_eq_some.mp blocked
      refine ⟨some value, ⟨by simp [TagConcurrencyLimit.Counts, unique], ?_, full⟩, rfl⟩
      exact List.any_eq_true.mpr ⟨_, mem, by simp [tagMatches]⟩
  · rename_i notUnique
    split at blocked
    · rename_i required isRequired
      split at blocked
      · rename_i carries
        rw [getD_keyValueCounts] at blocked
        grind [tagMatches, FilledFor, blockedBy, TagConcurrencyLimit.Counts, runMatches]
      · cases blocked
    · rename_i noValue
      split at blocked
      · rename_i carries
        rw [getD_keyCounts] at blocked
        grind [tagMatches, FilledFor, blockedBy, TagConcurrencyLimit.Counts, runMatches]
      · cases blocked

theorem not_filledFor_of_none (free : (counted limits tags).isBlockedBy run limit = none)
    (value : Option String) :
    ¬ FilledFor tags run limit value := by
  rintro ⟨counts, isMatch, full⟩
  unfold isBlockedBy at free
  unfold TagConcurrencyLimit.Counts at counts
  obtain ⟨⟨name, found⟩, mem, tagMatch⟩ := List.any_eq_true.mp isMatch
  simp only [tagMatches, Bool.and_eq_true, decide_eq_true_eq] at tagMatch
  obtain ⟨rfl, tagMatch⟩ := tagMatch
  split at counts
  · grind [Option.isSome_iff_exists, getD_uniqueValueCounts, blockedBy]
  · grind [getD_keyCounts, getD_keyValueCounts, blockedBy]

theorem isBlocked_eq_some (blocked : (counted limits tags).isBlocked run = some reason) :
    ∃ limit ∈ limits, ∃ value, FilledFor tags run limit value ∧
      reason = .tagLimit limit.key value (tags.countP (tagMatches limit.key value))
        limit.limit := by
  rw [isBlocked, counted, limits_foldl] at blocked
  obtain ⟨limit, mem, blocked⟩ := List.exists_of_findSome?_eq_some blocked
  obtain ⟨value, filled⟩ := isBlockedBy_eq_some blocked
  exact ⟨limit, mem, value, filled⟩

theorem not_filledFor_of_isBlocked (free : (counted limits tags).isBlocked run = none)
    (mem : limit ∈ limits) (value : Option String) : ¬ FilledFor tags run limit value := by
  rw [isBlocked, counted, limits_foldl, List.findSome?_eq_none_iff] at free
  exact not_filledFor_of_none (free limit mem) value

end TagConcurrencyCounter

end Blocking

section Loop

open TagConcurrencyCounter (counted FilledFor)

variable {limits : List TagConcurrencyLimit} {inProgress queue : List CoordinatorRunInfo}
  {slots : Nat} {state : DequeueState} {run : CoordinatorRunInfo}

def limitedTags (limits : List TagConcurrencyLimit) (runs : List CoordinatorRunInfo) : List Tag :=
  (allTags runs).filter fun tag => tag.1 ∈ limits.map (·.key)

theorem countP_limitedTags {key} (limited : key ∈ limits.map (·.key)) (value : Option String)
    (runs : List CoordinatorRunInfo) :
    (limitedTags limits runs).countP (tagMatches key value) = tagCount key value runs := by
  grind [List.countP_filter, List.countP_congr, tagMatches, limitedTags, tagCount]

theorem countP_counted {limit} (mem : limit ∈ limits) (value : Option String)
    (launched : List CoordinatorRunInfo) :
    (limitedTags limits inProgress ++ allTags launched).countP (tagMatches limit.key value) =
      tagCount limit.key value (inProgress ++ launched) := by
  grind [countP_limitedTags, allTags, tagCount]

structure WithinLimits (limits : List TagConcurrencyLimit) (inProgress : List CoordinatorRunInfo)
    (slots : Nat) (state : DequeueState) : Prop where
  recounted : state.counter =
    counted limits (limitedTags limits inProgress ++ allTags state.toLaunch)
  room : state.toLaunch.length ≤ slots
  capped : ∀ limit ∈ limits, ∀ value, limit.Counts value →
    (inProgress ++ state.toLaunch).countP (runMatches limit.key value) ≤
      max limit.limit (inProgress.countP (runMatches limit.key value))

def startState (limits : List TagConcurrencyLimit) (inProgress : List CoordinatorRunInfo) :
    DequeueState :=
  ⟨.fromRuns limits inProgress, [], []⟩

theorem withinLimits_start :
    WithinLimits limits inProgress slots (startState limits inProgress) := by
  refine ⟨?_, Nat.zero_le _, fun limit _ value _ => ?_⟩
  · simp [fromRuns_eq, startState, counted, limitedTags, allTags]
  · rw [startState, List.append_nil]
    exact Nat.le_max_right ..

theorem WithinLimits.launch (within : WithinLimits limits inProgress slots state)
    (room : ¬ slots ≤ state.toLaunch.length) (free : state.counter.isBlocked run = none) :
    WithinLimits limits inProgress slots
      { state with counter := state.counter.recordLaunch run, toLaunch := state.toLaunch ++
        [run] } := by
  refine ⟨?_, ?_, fun limit mem value counts => ?_⟩
  · grind [recordLaunch, counted, allTags, WithinLimits]
  · simp only [List.length_append, List.length_singleton]
    omega
  · rw [within.recounted] at free
    have notFilled := not_filledFor_of_isBlocked free mem value
    have capped := within.capped limit mem value counts
    simp only [← List.append_assoc, @List.countP_append _ _ _ [run], List.countP_singleton]
    split
    · grind [countP_runMatches_le, countP_counted, TagConcurrencyCounter.FilledFor]
    · exact capped

theorem WithinLimits.dequeue (within : WithinLimits limits inProgress slots state)
    (queue : List CoordinatorRunInfo) :
    WithinLimits limits inProgress slots (dequeue slots state queue) := by
  induction queue generalizing state with
  | nil => exact within
  | cons run queue ih =>
    unfold Rivers.dequeue
    split
    · exact within
    · rename_i room
      split
      · exact ih ⟨within.recounted, within.room, within.capped⟩
      · rename_i free
        exact ih (within.launch room free)

theorem dequeue_append (pre rest : List CoordinatorRunInfo) :
    dequeue slots state (pre ++ rest) = dequeue slots (dequeue slots state pre) rest := by
  induction pre generalizing state with
  | nil => rfl
  | cons run pre ih =>
    rw [List.cons_append, dequeue, dequeue]
    split
    · rename_i full
      cases rest with
      | nil => rfl
      | cons next rest => rw [dequeue, if_pos full]
    · split <;> exact ih

theorem toLaunch_append (queue : List CoordinatorRunInfo) :
    ∃ launched, (dequeue slots state queue).toLaunch = state.toLaunch ++ launched ∧
      launched.Sublist queue := by
  induction queue generalizing state with
  | nil => exact ⟨[], (List.append_nil _).symm, List.nil_sublist _⟩
  | cons run queue ih =>
    unfold dequeue
    split
    · exact ⟨[], (List.append_nil _).symm, List.nil_sublist _⟩
    · split
      · exact ih.imp fun launched ⟨isLaunched, sublist⟩ => ⟨isLaunched, sublist.cons run⟩
      · obtain ⟨launched, isLaunched, sublist⟩ := @ih { state with
          counter := state.counter.recordLaunch run, toLaunch := state.toLaunch ++ [run] }
        exact ⟨run :: launched, by rw [isLaunched, List.append_assoc]; rfl, sublist.cons_cons run⟩

structure BlockedAtTurn (limits : List TagConcurrencyLimit) (inProgress : List CoordinatorRunInfo)
    (slots : Nat) (before : List CoordinatorRunInfo) (run : CoordinatorRunInfo)
    (limit : TagConcurrencyLimit) (value : Option String) : Prop where
  limited : limit ∈ limits
  counts : limit.Counts value
  carries : runMatches limit.key value run
  refused : (dequeue slots (startState limits inProgress) before).counter.isBlocked run =
    some (.tagLimit limit.key value (tagCount limit.key value
      (inProgress ++ (dequeue slots (startState limits inProgress) before).toLaunch)) limit.limit)
  full : limit.limit ≤ tagCount limit.key value
    (inProgress ++ (dequeue slots (startState limits inProgress) before).toLaunch)
  fullOfRuns : (∀ other ∈ inProgress ++ before, (other.tags.map (·.1)).Nodup) →
    limit.limit ≤ (inProgress ++
      (dequeue slots (startState limits inProgress) before).toLaunch).countP
      (runMatches limit.key value)

theorem blockedAtTurn_of_isBlocked (pre : List CoordinatorRunInfo) {reason}
    (refused : (dequeue slots (startState limits inProgress) pre).counter.isBlocked run =
      some reason) :
    ∃ limit value, BlockedAtTurn limits inProgress slots pre run limit value := by
  have within := (@withinLimits_start limits inProgress slots).dequeue pre
  have refusedCounted := refused
  rw [within.recounted] at refusedCounted
  obtain ⟨limit, limited, value, ⟨counts, carries, full⟩, isReason⟩ :=
    isBlocked_eq_some refusedCounted
  rw [countP_counted limited] at full isReason
  refine ⟨limit, value, limited, counts, carries, isReason ▸ refused, full, fun dist => ?_⟩
  rw [← tagCount_eq fun other mem => dist other ?_]
  · exact full
  · obtain ⟨launched, isLaunched, sublist⟩ := @toLaunch_append slots (startState limits inProgress)
      pre
    grind [startState]

theorem blocked_of_overtaken {pre rest left} (dist : (pre ++ left :: rest).Nodup)
    (behind : left ∉ (dequeue slots (startState limits inProgress) (pre ++ left :: rest)).toLaunch)
    (later : run ∈ rest)
    (launched : run ∈ (dequeue slots (startState limits inProgress)
      (pre ++ left :: rest)).toLaunch) :
    ∃ limit value, BlockedAtTurn limits inProgress slots pre left limit value := by
  rw [dequeue_append, dequeue] at behind launched
  split at behind
  · rename_i full
    rw [if_pos full] at launched
    obtain ⟨found, isFound, sublist⟩ := @toLaunch_append slots (startState limits inProgress) pre
    grind [startState]
  · rename_i room
    cases refused : (dequeue slots (startState limits inProgress) pre).counter.isBlocked left with
    | some reason => exact blockedAtTurn_of_isBlocked pre refused
    | none =>
      simp only [refused] at behind
      obtain ⟨found, isFound, -⟩ := @toLaunch_append slots
        { dequeue slots (startState limits inProgress) pre with
          counter := (dequeue slots (startState limits inProgress) pre).counter.recordLaunch left
          toLaunch := (dequeue slots (startState limits inProgress) pre).toLaunch ++ [left] } rest
      exact absurd (by rw [isFound]; simp) behind

end Loop

section Tick

variable {config : RunQueueConfig} {inProgress queued queue : List CoordinatorRunInfo}
  {statusWritten : String → Bool}

structure AgreesOnLimits (limits : List TagConcurrencyLimit)
    (counter other : TagConcurrencyCounter) : Prop where
  keys : ∀ limit ∈ limits, counter.keyCounts.lookup limit.key = other.keyCounts.lookup limit.key
  keyValues : ∀ limit ∈ limits, ∀ value,
    counter.keyValueCounts.lookup (limit.key, value) = other.keyValueCounts.lookup
      (limit.key, value)
  uniqueValues : ∀ limit ∈ limits, ∀ value,
    lookupIn counter.uniqueValueCounts limit.key value = lookupIn other.uniqueValueCounts
      limit.key value

open TagConcurrencyCounter in
theorem agreesOnLimits_recount (limits : List TagConcurrencyLimit)
    (launched : List CoordinatorRunInfo) :
    AgreesOnLimits limits (counted limits (limitedTags limits inProgress ++ allTags launched))
      (.fromRuns limits (inProgress ++ launched)) := by
  have same {limit : TagConcurrencyLimit} (member : limit ∈ limits) (value : Option String) :
      (limitedTags limits inProgress ++ allTags launched).countP (tagMatches limit.key value) =
        (limitedTags limits (inProgress ++ launched)).countP (tagMatches limit.key value) := by
    rw [countP_counted member, countP_limitedTags (List.mem_map_of_mem member)]
  rw [fromRuns_eq]
  refine ⟨fun limit member => ?_, fun limit member value => ?_, fun limit member value => ?_⟩
  · have counts := same member none
    simp only [countP_tagMatches_none] at counts
    refine (counts_keys.foldl _ _ _).trans (.trans ?_ (counts_keys.foldl _ _ _).symm)
    rw [counts]
    rfl
  · have counts := same member (some value)
    simp only [countP_tagMatches_some] at counts
    refine (counts_keyValues.foldl _ _ (limit.key, value)).trans
      (.trans ?_ (counts_keyValues.foldl _ _ (limit.key, value)).symm)
    rw [counts]
    rfl
  · have counts := same member (some value)
    simp only [countP_tagMatches_some] at counts
    refine (counts_uniqueValues.foldl _ _ (limit.key, value)).trans
      (.trans ?_ (counts_uniqueValues.foldl _ _ (limit.key, value)).symm)
    rw [counts]
    rfl

theorem split_of_precedes (sorted : queue.Pairwise dequeuesBefore) {left run}
    (leftQueued : left ∈ queue) (runQueued : run ∈ queue)
    (precedes : run.priority < left.priority ∨ run.priority = left.priority ∧
      [left, run].Sublist queue) :
    ∃ pre rest, queue = pre ++ left :: rest ∧ run ∈ rest := by
  rcases precedes with lower | ⟨-, inOrder⟩
  · obtain ⟨pre, rest, rfl⟩ := List.append_of_mem leftQueued
    grind [dequeuesBefore]
  · obtain ⟨first, second, rfl, inFirst, inSecond⟩ := List.cons_sublist_iff.mp inOrder
    obtain ⟨pre, rest, rfl⟩ := List.append_of_mem inFirst
    grind

/-- A dequeue cycle keeps to its slots and limits, and a run left behind met a full limit. -/
theorem tick_keeps_limits (order : IsDequeueOrder queued queue)
    (distinct : (queued.map (·.runId)).Nodup) {launched : List CoordinatorRunInfo}
    (finished : (tick statusWritten config inProgress queue).launched = some launched) :
    (0 ≤ config.maxConcurrentRuns → (inProgress.length : Int) ≤ config.maxConcurrentRuns →
        ((inProgress.length + launched.length : Nat) : Int) ≤ config.maxConcurrentRuns) ∧
      (∀ limit ∈ config.tagConcurrencyLimits, ∀ value, limit.Counts value →
        (inProgress ++ launched).countP (runMatches limit.key value) ≤
          max limit.limit (inProgress.countP (runMatches limit.key value))) ∧
      (∀ left ∈ queued, left ∉ launched → ∀ run ∈ launched,
        run.priority < left.priority ∨ run.priority = left.priority ∧ [left, run].Sublist queue →
          ∃ before rest limit value, queue = before ++ left :: rest ∧
            BlockedAtTurn config.tagConcurrencyLimits inProgress (config.slotsAvailable inProgress)
              before left limit value) ∧
      ∀ counter, (tick statusWritten config inProgress queue).counter = some counter →
        AgreesOnLimits config.tagConcurrencyLimits counter
          (.fromRuns config.tagConcurrencyLimits (inProgress ++ launched)) := by
  unfold tick at finished ⊢
  split at finished
  · simp_all
  · rename_i belowCapacity
    rw [if_neg belowCapacity]
    have within := (@withinLimits_start config.tagConcurrencyLimits inProgress
      (config.slotsAvailable inProgress)).dequeue queue
    have isLaunched : (dequeue (config.slotsAvailable inProgress)
        (startState config.tagConcurrencyLimits inProgress) queue).toLaunch =
          launched := by grind [startState]
    obtain ⟨found, isFound, sublist⟩ := @toLaunch_append (config.slotsAvailable inProgress)
      (startState config.tagConcurrencyLimits inProgress) queue
    obtain rfl : launched = found := isLaunched.symm.trans isFound
    refine ⟨fun nonneg fits => ?_, isLaunched ▸ within.capped, ?_, ?_⟩
    · grind [RunQueueConfig.slotsAvailable, WithinLimits]
    · intro left leftQueued behind run isRun precedes
      obtain ⟨before, rest, rfl, later⟩ := split_of_precedes order.sorted
        (order.perm.mem_iff.mpr leftQueued)
        (sublist.subset isRun) precedes
      have nodup : (before ++ left :: rest).Nodup :=
        order.perm.nodup_iff.mpr (List.Nodup.of_map _ distinct)
      grind [blocked_of_overtaken]
    · rintro counter isCounter
      obtain rfl := Option.some.inj isCounter
      have recounted := within.recounted
      rw [isLaunched] at recounted
      exact recounted ▸ agreesOnLimits_recount _ launched

def oneOfTeam : RunQueueConfig :=
  ⟨3, [⟨"team", none, false, 1⟩]⟩

def teamRun : CoordinatorRunInfo := ⟨"r1", [("team", "alpha")], 0, 1⟩

def urgentRun : CoordinatorRunInfo := ⟨"r2", [("team", "beta")], 5, 3⟩

def plainRun : CoordinatorRunInfo := ⟨"r3", [], 0, 2⟩

theorem tick_keeps_limits_oneOfTeam :
    ∃ before rest limit value, [urgentRun, plainRun] = before ++ urgentRun :: rest ∧
      BlockedAtTurn oneOfTeam.tagConcurrencyLimits [teamRun] (oneOfTeam.slotsAvailable [teamRun])
        before urgentRun
        limit value :=
  have order : IsDequeueOrder [plainRun, urgentRun] [urgentRun, plainRun] := ⟨by decide, by decide⟩
  (@tick_keeps_limits oneOfTeam [teamRun] _ _ (fun _ => true) order (by decide) [plainRun]
    (by decide +kernel)).2.2.1 urgentRun (by decide) (by decide)
    plainRun (by decide) (.inl (by decide))

end Tick

end Rivers

import Rivers.Storage.Convergence

/-! The provenance that stores of materializations leave. -/

namespace Rivers

open Newest AssetEvent EventTransaction AssetProvenance EventStore

structure ProvenanceStamp where
  timestamp : Int
  codeVersion : Option String
  idv : Option (List (String × String))
  deriving DecidableEq

def EventTransaction.provenanceStamp : EventTransaction → Option ProvenanceStamp
  | .applyMaterialization m =>
      if m.fromAction then none else some ⟨m.provenanceTimestamp, m.codeVersion, m.idv⟩
  | _ => none

namespace AssetProvenance

variable (provenance : AssetProvenance)

def accept (stamp : ProvenanceStamp) : AssetProvenance :=
  if provenance.lastProvenanceTimestamp ≤ (stamp.timestamp : WithBot Int) then
    { lastMaterializationCodeVersion := stamp.codeVersion
      lastInputDataVersions := stamp.idv.getD provenance.lastInputDataVersions
      lastProvenanceTimestamp := stamp.timestamp }
  else provenance

variable {provenance} {stamps : List ProvenanceStamp} {stamp : ProvenanceStamp}

theorem accept_of_le (order : provenance.lastProvenanceTimestamp ≤
    (stamp.timestamp : WithBot Int)) :
    provenance.accept stamp =
      ⟨stamp.codeVersion, stamp.idv.getD provenance.lastInputDataVersions, stamp.timestamp⟩ :=
  if_pos order

theorem accept_of_lt (order : (stamp.timestamp : WithBot Int) <
    provenance.lastProvenanceTimestamp) :
    provenance.accept stamp = provenance :=
  if_neg (not_le_of_gt order)

theorem foldl_accept_le {bound : Int}
    (held : provenance.lastProvenanceTimestamp ≤ (bound : WithBot Int))
    (older : ∀ stamp ∈ stamps, stamp.timestamp ≤ bound) :
    (stamps.foldl accept provenance).lastProvenanceTimestamp ≤ (bound : WithBot Int) := by
  induction stamps generalizing provenance with
  | nil => exact held
  | cons stamp stamps ih =>
    refine ih ?_ fun later mem => older later (List.mem_cons_of_mem stamp mem)
    unfold accept
    split
    · exact WithBot.coe_le_coe.mpr (older stamp List.mem_cons_self)
    · exact held

theorem foldl_accept_lt
    (older : ∀ stamp ∈ stamps, (stamp.timestamp : WithBot Int) <
      provenance.lastProvenanceTimestamp) :
    stamps.foldl accept provenance = provenance := by
  induction stamps with
  | nil => rfl
  | cons stamp stamps ih => grind [accept_of_lt]

theorem foldl_accept_newest {pre after inputs} (isInputs : stamp.idv = some inputs)
    (early : ∀ other ∈ pre, other.timestamp ≤ stamp.timestamp)
    (later : ∀ other ∈ after, other.timestamp < stamp.timestamp) :
    (pre ++ stamp :: after).foldl accept {} = ⟨stamp.codeVersion, inputs, stamp.timestamp⟩ := by
  have held : (pre.foldl accept {}).lastProvenanceTimestamp ≤ (stamp.timestamp : WithBot Int) :=
    foldl_accept_le bot_le early
  rw [List.foldl_append, List.foldl_cons, accept_of_le held, isInputs, Option.getD_some]
  exact foldl_accept_lt fun other mem => WithBot.coe_lt_coe.mpr (later other mem)

theorem foldl_accept_noInputs {bound} (none : provenance.lastInputDataVersions = [])
    (held : bound ≤ provenance.lastProvenanceTimestamp)
    (refused : ∀ stamp ∈ stamps, stamp.idv = .none ∨ (stamp.timestamp : WithBot Int) < bound) :
    (stamps.foldl accept provenance).lastInputDataVersions = [] := by
  induction stamps generalizing provenance with
  | nil => exact none
  | cons stamp stamps ih => grind [accept]

theorem foldl_accept_codeVersion {codeVersion}
    (same : ∀ stamp ∈ stamps, stamp.codeVersion = codeVersion)
    (held : provenance.lastMaterializationCodeVersion = codeVersion) :
    (stamps.foldl accept provenance).lastMaterializationCodeVersion = codeVersion := by
  induction stamps generalizing provenance with
  | nil => exact held
  | cons stamp stamps ih => grind [accept]

theorem codeVersion_of_stamps {codeVersion}
    (same : ∀ stamp ∈ stamps, stamp.codeVersion = codeVersion) (some : stamps ≠ []) :
    (stamps.foldl accept {}).lastMaterializationCodeVersion = codeVersion := by
  cases stamps with
  | nil => exact absurd rfl some
  | cons stamp stamps =>
    rw [List.foldl_cons, accept_of_le bot_le]
    exact foldl_accept_codeVersion (fun later mem => same later (List.mem_cons_of_mem stamp mem))
      (same stamp List.mem_cons_self)

end AssetProvenance

theorem provenance_foldl_apply {txns : List EventTransaction} {tables}
    (undeleted : tables.lastDeletionTimestamp = ⊥)
    (materializes : ∀ txn ∈ txns, ∃ m, txn = .applyMaterialization m) :
    (txns.foldl apply tables).provenance =
      (txns.filterMap provenanceStamp).foldl accept tables.provenance := by
  induction txns generalizing tables with
  | nil => rfl
  | cons txn txns ih =>
    obtain ⟨m, rfl⟩ := materializes txn List.mem_cons_self
    have kept : (m.apply tables).lastDeletionTimestamp = ⊥ := by
      simp only [Materialization.apply, Materialization.updateData]
      split <;> exact undeleted
    have updated : (m.apply tables).provenance = m.updateProvenance tables := rfl
    rw [List.foldl_cons, apply,
      ih kept fun later mem => materializes later (List.mem_cons_of_mem _ mem), updated]
    simp only [Materialization.updateProvenance, undeleted, WithBot.bot_lt_coe, and_true]
    grind [accept, provenanceStamp]

def AssetEvent.carriesInputs (event : AssetEvent) : Bool :=
  event.inputDataVersions ≠ []

theorem latestIdv_drain {events} :
    (drain events).latestIdv =
      newest timestamp (events.filter fun event => event.isMaterialization &&
        event.carriesInputs) := by
  induction events using List.reverseRecOn with
  | nil => rfl
  | append_singleton events event ih => grind [drain, newest, carriesInputs, Drained.add]

inductive Arrival where
  | single (event : AssetEvent)
  | batch (events : List AssetEvent)

namespace Arrival

variable (codeVersion : Option String) (isAction : String → Bool)

def events : Arrival → List AssetEvent
  | .single event => [event]
  | .batch events => events

def store : Arrival → EventStore
  | .single event => .single codeVersion isAction event
  | .batch events => .batch codeVersion isAction events

def stamp (arrival : Arrival) : Option ProvenanceStamp :=
  match newest timestamp (arrival.events.filter (·.carriesInputs)) with
  | some event => some ⟨event.timestamp, codeVersion, some event.inputDataVersions⟩
  | none =>
      match newest timestamp arrival.events with
      | some event =>
          if isAction event.runId then none else some ⟨event.timestamp, codeVersion, none⟩
      | none => none

variable {codeVersion isAction} {arrival : Arrival} {event : AssetEvent} {mark : ProvenanceStamp}

theorem transactions_batch {events} (mats : ∀ event ∈ events, event.isMaterialization = true) :
    storeEvents codeVersion isAction events =
      ((newest timestamp events).map ((drain events).materialize codeVersion isAction)).toList := by
  have kinds (event : AssetEvent) (isMat : event.isMaterialization = true) :
      event.isObservation = false ∧ event.isDeletion = false := by
    cases kind : event.kind <;>
      simp_all [isMaterialization, isObservation, isDeletion]
  have observations : events.filter (·.isObservation) = [] :=
    List.filter_eq_nil_iff.mpr fun event mem => by simp [(kinds event (mats event mem)).1]
  have parts : partDeletes events = [] :=
    List.filterMap_eq_nil_iff.mpr fun event mem => by simp [(kinds event (mats event mem)).2]
  have wholes : wholeDeletes events = none := by
    refine newest_eq_none_iff.mpr (List.filter_eq_nil_iff.mpr fun event mem => ?_)
    simp [(kinds event (mats event mem)).2]
  grind [List.filter_eq_self, latestMat_drain, storeEvents]

theorem stamps_store (mats : ∀ event ∈ arrival.events, event.isMaterialization = true)
    (unread : ∀ event ∈ arrival.events, isAction event.runId = true →
      event.inputDataVersions = []) :
    (arrival.store codeVersion isAction).transactions.filterMap provenanceStamp =
      (arrival.stamp codeVersion isAction).toList := by
  cases arrival with
  | single event =>
    have isMat := mats event List.mem_cons_self
    have isUnread := unread event List.mem_cons_self
    unfold isMaterialization at isMat
    split at isMat
    · rename_i ver isKind
      by_cases carries : event.inputDataVersions = []
      · cases action : isAction event.runId <;>
          simp [store, transactions, storeEvent, isKind, provenanceStamp, action, stamp,
            events, carriesInputs, carries]
      · have action : isAction event.runId = false :=
          Bool.eq_false_iff.mpr fun action => carries (isUnread action)
        simp [store, transactions, storeEvent, isKind, provenanceStamp, action, stamp,
          events, carriesInputs, carries]
    · cases isMat
  | batch events =>
    have carried : events.filter (fun event => event.isMaterialization && event.carriesInputs) =
        events.filter (·.carriesInputs) :=
      List.filter_congr fun event mem => by rw [mats event mem, Bool.true_and]
    rw [store, transactions, @transactions_batch codeVersion isAction events mats, stamp,
      Arrival.events]
    cases latest : newest timestamp events with
    | none =>
      rw [newest_eq_none_iff.mp latest]
      rfl
    | some event =>
      cases carrying : newest timestamp (events.filter (·.carriesInputs)) with
      | none =>
        cases action : isAction event.runId <;>
          simp [Drained.materialize, latestIdv_drain, carried, carrying, provenanceStamp, action]
      | some other =>
        simp [Drained.materialize, latestIdv_drain, carried, carrying, provenanceStamp]

theorem codeVersion_of_stamp (found : arrival.stamp codeVersion isAction = some mark) :
    mark.codeVersion = codeVersion := by
  unfold stamp at found
  grind

theorem source_of_stamp (found : arrival.stamp codeVersion isAction = some mark) :
    ∃ event ∈ arrival.events, mark.timestamp = event.timestamp ∧
      (mark.idv = none ∧ isAction event.runId = false ∨ event.carriesInputs = true) := by
  unfold stamp at found
  split at found
  · rename_i event isNewest
    cases found
    obtain ⟨mem, carries⟩ := List.mem_filter.mp (newest_spec isNewest).1
    exact ⟨event, mem, rfl, .inr carries⟩
  · grind [newest_spec]

theorem materializes_store (mats : ∀ event ∈ arrival.events, event.isMaterialization = true) :
    ∀ txn ∈ (arrival.store codeVersion isAction).transactions, ∃ m, txn =
      .applyMaterialization m := by
  intro txn mem
  cases arrival with
  | single event =>
    have isMat := mats event List.mem_cons_self
    unfold isMaterialization at isMat
    split at isMat
    · rename_i ver isKind
      simp only [store, transactions, storeEvent, isKind, List.mem_singleton] at mem
      exact ⟨_, mem⟩
    · cases isMat
  | batch events =>
    rw [store, transactions, @transactions_batch codeVersion isAction events mats,
      Option.mem_toList, Option.map_eq_some_iff] at mem
    obtain ⟨event, -, rfl⟩ := mem
    exact ⟨_, rfl⟩

theorem stamp_of_newest_carrying (mem : event ∈ arrival.events)
    (carries : event.carriesInputs = true)
    (isNewest : ∀ other ∈ arrival.events, other.carriesInputs = true →
      other.timestamp ≤ event.timestamp)
    (dist : ∀ other ∈ arrival.events, other.timestamp = event.timestamp → other = event) :
    arrival.stamp codeVersion isAction = some ⟨event.timestamp, codeVersion,
      some event.inputDataVersions⟩ := by
  have inside : event ∈ arrival.events.filter (·.carriesInputs) :=
    List.mem_filter.mpr ⟨mem, carries⟩
  unfold stamp
  split
  · rename_i other found
    obtain ⟨isOther, bound⟩ := newest_spec found
    obtain ⟨isMem, otherCarries⟩ := List.mem_filter.mp isOther
    have same := dist other isMem (le_antisymm (isNewest other isMem otherCarries)
      (bound event inside))
    rw [same]
  · rename_i found
    rw [newest_eq_none_iff.mp found] at inside
    cases inside

theorem stamp_isSome_of_newest (mem : event ∈ arrival.events)
    (noAction : isAction event.runId = false)
    (isNewest : ∀ other ∈ arrival.events, other.timestamp ≤ event.timestamp)
    (dist : ∀ other ∈ arrival.events, other.timestamp = event.timestamp → other = event) :
    (arrival.stamp codeVersion isAction).isSome := by
  unfold stamp
  split
  · rfl
  · split
    · rename_i other found
      obtain ⟨isOther, bound⟩ := newest_spec found
      grind
    · rename_i found
      rw [newest_eq_none_iff.mp found] at mem
      cases mem

end Arrival

structure Materializations (isAction : String → Bool) (events : List AssetEvent) : Prop where
  mats : ∀ event ∈ events, event.isMaterialization = true
  distinct : (events.map timestamp).Nodup
  unread : ∀ event ∈ events, isAction event.runId = true → event.inputDataVersions = []

section Arrivals

variable (codeVersion : Option String) (isAction : String → Bool)

def storedProvenance (arrivals : List Arrival) : AssetProvenance :=
  ((arrivals.flatMap fun arrival => (arrival.store codeVersion isAction).transactions).foldl
    apply {}).provenance

def newestCarrying (events : List AssetEvent) : Option AssetEvent :=
  newest timestamp (events.filter (·.carriesInputs))

def newestInputs (events : List AssetEvent) : List (String × String) :=
  (newestCarrying events).elim [] (·.inputDataVersions)

def ProvenanceSettled (events : List AssetEvent) : Prop :=
  match newestCarrying events with
  | some carrying =>
      ∀ event ∈ events, isAction event.runId = false → event.timestamp ≤ carrying.timestamp
  | none => codeVersion = none ∨ (∀ event ∈ events, isAction event.runId = true) ∨
      ∃ event ∈ events, isAction event.runId = false ∧ ∀ other ∈ events, other.timestamp ≤
        event.timestamp

variable {codeVersion isAction} {events : List AssetEvent} {arrivals : List Arrival}
  {carrying event : AssetEvent}

theorem newestCarrying_spec (found : newestCarrying events = some carrying) :
    carrying ∈ events ∧ carrying.carriesInputs = true ∧
      ∀ event ∈ events, event.carriesInputs = true → event.timestamp ≤ carrying.timestamp := by
  obtain ⟨mem, bound⟩ := newest_spec found
  simp_all

theorem not_carriesInputs_of_newestCarrying (found : newestCarrying events = none) :
    ∀ event ∈ events, event.carriesInputs = false := fun event mem =>
  Bool.eq_false_iff.mpr (List.filter_eq_nil_iff.mp (newest_eq_none_iff.mp found) event mem)

namespace Materializations

theorem eq_of_timestamp (known : Materializations isAction events) {left right}
    (isLeft : left ∈ events) (isRight : right ∈ events)
    (same : left.timestamp = right.timestamp) : left = right :=
  List.inj_on_of_nodup_map known.distinct isLeft isRight same

theorem storedProvenance_eq (known : Materializations isAction events)
    (arrive : (arrivals.flatMap Arrival.events).Perm events) :
    storedProvenance codeVersion isAction arrivals =
      (arrivals.filterMap (Arrival.stamp codeVersion isAction)).foldl accept {} := by
  have inside (arrival : Arrival) (mem : arrival ∈ arrivals) (event : AssetEvent)
    (isEvent : event ∈ arrival.events) :
      event ∈ events :=
    arrive.mem_iff.mp (List.mem_flatMap.mpr ⟨arrival, mem, isEvent⟩)
  have stamps : (arrivals.flatMap fun arrival =>
      (arrival.store codeVersion isAction).transactions).filterMap
      provenanceStamp = arrivals.filterMap (Arrival.stamp codeVersion isAction) := by
    rw [List.filterMap_flatMap, List.filterMap_eq_flatMap_toList]
    refine List.flatMap_congr fun arrival mem => ?_
    exact Arrival.stamps_store
      (fun event isEvent => known.mats event (inside arrival mem event isEvent))
      fun event isEvent => known.unread event (inside arrival mem event isEvent)
  grind [provenance_foldl_apply, Arrival.materializes_store, mats, storedProvenance]

theorem storedProvenance_of_carrying (known : Materializations isAction events)
    (arrive : (arrivals.flatMap Arrival.events).Perm events)
    (found : newestCarrying events = some carrying)
    (settled : ∀ event ∈ events, isAction event.runId = false →
      event.timestamp ≤ carrying.timestamp) :
    storedProvenance codeVersion isAction arrivals =
      ⟨codeVersion, carrying.inputDataVersions, carrying.timestamp⟩ := by
  obtain ⟨isEvent, carries, isNewest⟩ := newestCarrying_spec found
  obtain ⟨arrival, isArrival, inside⟩ := List.mem_flatMap.mp (arrive.mem_iff.mpr isEvent)
  obtain ⟨pre, after, rfl⟩ := List.append_of_mem isArrival
  have mem (other : Arrival) (isOther : other ∈ pre ++ arrival :: after) (event : AssetEvent)
      (inOther : event ∈ other.events) : event ∈ events :=
    arrive.mem_iff.mp (List.mem_flatMap.mpr ⟨other, isOther, inOther⟩)
  have stamped : arrival.stamp codeVersion isAction =
      some ⟨carrying.timestamp, codeVersion, some carrying.inputDataVersions⟩ :=
    Arrival.stamp_of_newest_carrying inside carries
      (fun other inOther => isNewest other (mem arrival isArrival other inOther))
      fun other inOther => known.eq_of_timestamp (mem arrival isArrival other inOther) isEvent
  have source (marks : List Arrival) (mark : ProvenanceStamp)
      (isMark : mark ∈ marks.filterMap (Arrival.stamp codeVersion isAction))
      (sub : ∀ other ∈ marks, other ∈ pre ++ arrival :: after) :
      ∃ event ∈ marks.flatMap Arrival.events, mark.timestamp = event.timestamp ∧
        event.timestamp ≤ carrying.timestamp := by
    obtain ⟨other, isOther, isStamp⟩ := List.mem_filterMap.mp isMark
    obtain ⟨event, inOther, sameTime, cases⟩ := Arrival.source_of_stamp isStamp
    grind
  have nodup : ((pre ++ arrival :: after).flatMap Arrival.events |>.map timestamp).Nodup :=
    (arrive.map timestamp).nodup_iff.mpr known.distinct
  rw [known.storedProvenance_eq arrive, List.filterMap_append, List.filterMap_cons, stamped]
  refine foldl_accept_newest rfl (fun mark isMark => ?_) fun mark isMark => ?_
  · obtain ⟨event, -, sameTime, order⟩ := source pre mark isMark fun other isOther =>
      List.mem_append_left _ isOther
    exact sameTime ▸ order
  · obtain ⟨event, inAfter, sameTime, order⟩ := source after mark isMark fun other isOther =>
      List.mem_append_right _ (List.mem_cons_of_mem _ isOther)
    refine lt_of_le_of_ne (sameTime ▸ order) fun same => ?_
    rw [List.flatMap_append, List.flatMap_cons, List.map_append, List.map_append] at nodup
    exact (List.nodup_append.mp (List.nodup_append.mp nodup).2.1).2.2 carrying.timestamp
      (List.mem_map_of_mem inside)
      event.timestamp (List.mem_map_of_mem inAfter) (same.symm.trans sameTime)

theorem inputs_of_newestCarrying_none (known : Materializations isAction events)
    (arrive : (arrivals.flatMap Arrival.events).Perm events)
    (found : newestCarrying events = none) :
    (storedProvenance codeVersion isAction arrivals).lastInputDataVersions = [] := by
  rw [known.storedProvenance_eq arrive]
  refine foldl_accept_noInputs rfl bot_le fun mark isMark => .inl ?_
  obtain ⟨arrival, isArrival, isStamp⟩ := List.mem_filterMap.mp isMark
  obtain ⟨event, inArrival, -, ⟨isNone, -⟩ | carries⟩ := Arrival.source_of_stamp isStamp
  · exact isNone
  · grind [not_carriesInputs_of_newestCarrying]

theorem codeVersion_of_stamped (known : Materializations isAction events)
    (arrive : (arrivals.flatMap Arrival.events).Perm events)
    (stamped : ∃ arrival ∈ arrivals, (arrival.stamp codeVersion isAction).isSome) :
    (storedProvenance codeVersion isAction arrivals).lastMaterializationCodeVersion =
      codeVersion := by
  obtain ⟨arrival, isArrival, isStamped⟩ := stamped
  obtain ⟨mark, isMark⟩ := Option.isSome_iff_exists.mp isStamped
  rw [known.storedProvenance_eq arrive]
  refine AssetProvenance.codeVersion_of_stamps (fun other isOther => ?_)
    (List.ne_nil_of_mem (List.mem_filterMap.mpr ⟨arrival, isArrival, isMark⟩))
  obtain ⟨source, -, isStamp⟩ := List.mem_filterMap.mp isOther
  exact Arrival.codeVersion_of_stamp isStamp

theorem codeVersion_of_unstamped (known : Materializations isAction events)
    (arrive : (arrivals.flatMap Arrival.events).Perm events)
    (unstamped : ∀ arrival ∈ arrivals, arrival.stamp codeVersion isAction = none) :
    (storedProvenance codeVersion isAction arrivals).lastMaterializationCodeVersion = none := by
  rw [known.storedProvenance_eq arrive, List.filterMap_eq_nil_iff.mpr unstamped]
  rfl

end Materializations

theorem flatMap_single (events : List AssetEvent) :
    (events.map Arrival.single).flatMap Arrival.events = events := by
  induction events with
  | nil => rfl
  | cons event events ih => simpa [Arrival.events] using ih

theorem stamp_single (noAction : isAction event.runId = false)
    (carries : event.carriesInputs = false) :
    (Arrival.single event).stamp codeVersion isAction = some ⟨event.timestamp,
      codeVersion, none⟩ := by
  simp [Arrival.stamp, Arrival.events, carries, noAction]

namespace Materializations

theorem inputs_lost_of_newer (known : Materializations isAction events)
    (found : newestCarrying events = some carrying) (mem : event ∈ events)
    (noAction : isAction event.runId = false) (newer : carrying.timestamp < event.timestamp) :
    (storedProvenance codeVersion isAction
      ((event :: events.erase event).map .single)).lastInputDataVersions = [] := by
  obtain ⟨-, -, isNewest⟩ := newestCarrying_spec found
  have older (other : AssetEvent) (isOther : other ∈ events)
    (carries : other.carriesInputs = true) :
      other.timestamp < event.timestamp :=
    (isNewest other isOther carries).trans_lt newer
  have uncarried : event.carriesInputs = false :=
    Bool.eq_false_iff.mpr fun carries => lt_irrefl _ (older event mem carries)
  have perm : (((event :: events.erase event).map Arrival.single).flatMap Arrival.events).Perm
    events := by
    rw [flatMap_single]
    exact (List.perm_cons_erase mem).symm
  rw [known.storedProvenance_eq perm, List.map_cons, List.filterMap_cons,
    stamp_single noAction uncarried, List.foldl_cons, accept_of_le bot_le]
  refine foldl_accept_noInputs rfl (le_refl _) fun mark isMark => ?_
  obtain ⟨arrival, isArrival, isStamp⟩ := List.mem_filterMap.mp isMark
  obtain ⟨other, inArrival, sameTime, ⟨isNone, -⟩ | carries⟩ := Arrival.source_of_stamp isStamp
  · exact .inl isNone
  · obtain ⟨single, isSingle, rfl⟩ := List.mem_map.mp isArrival
    rw [List.mem_singleton.mp inArrival] at sameTime carries
    exact .inr (sameTime ▸ WithBot.coe_lt_coe.mpr
      (older single (List.mem_of_mem_erase isSingle) carries))

theorem settled_of_determined (known : Materializations isAction events) {code}
    (determined : ∀ arrivals : List Arrival, (arrivals.flatMap Arrival.events).Perm events →
      (storedProvenance codeVersion isAction arrivals).lastMaterializationCodeVersion = code ∧
        (storedProvenance codeVersion isAction arrivals).lastInputDataVersions =
          newestInputs events) :
    ProvenanceSettled codeVersion isAction events := by
  unfold ProvenanceSettled
  split
  · rename_i carrying found
    intro event mem noAction
    refine le_of_not_gt fun newer => ?_
    have kept := (determined ((event :: events.erase event).map .single) (by
      rw [flatMap_single]
      exact (List.perm_cons_erase mem).symm)).2
    rw [known.inputs_lost_of_newer found mem noAction newer, newestInputs, found,
      Option.elim_some] at kept
    have carries := (newestCarrying_spec found).2.1
    simp [carriesInputs, ← kept] at carries
  · rename_i found
    by_cases all : ∀ event ∈ events, isAction event.runId = true
    · exact .inr (.inl all)
    push Not at all
    obtain ⟨event, mem, noAction⟩ := all
    have isSingle : (Arrival.single event).stamp codeVersion isAction = some ⟨event.timestamp,
        codeVersion, none⟩ :=
      stamp_single (Bool.eq_false_iff.mpr noAction)
        (not_carriesInputs_of_newestCarrying found event mem)
    have singles := known.codeVersion_of_stamped (by rw [flatMap_single])
      ⟨.single event, List.mem_map_of_mem mem, by rw [isSingle]; rfl⟩
    cases latest : newest timestamp events with
    | none =>
      rw [newest_eq_none_iff.mp latest] at mem
      cases mem
    | some last =>
      obtain ⟨isLast, bound⟩ := newest_spec latest
      cases action : isAction last.runId with
      | false => exact .inr (.inr ⟨last, isLast, action, bound⟩)
      | true =>
        have whole : ([Arrival.batch events].flatMap Arrival.events).Perm events := by
          simp [Arrival.events]
        have unstamped : (Arrival.batch events).stamp codeVersion isAction = none := by
          grind [Arrival.stamp, Arrival.events, newestCarrying]
        have batched := known.codeVersion_of_unstamped whole
          (List.forall_mem_singleton.mpr unstamped)
        grind [flatMap_single]

end Materializations

/-- The stored provenance does not depend on the order of arrival exactly if no materialization is
newer than the newest one that carries inputs, or, where none does, the asset has no code version,
all are of actions or one that is not is a newest event. -/
theorem storedProvenance_determined_iff (known : Materializations isAction events) :
    (∃ code, ∀ arrivals : List Arrival, (arrivals.flatMap Arrival.events).Perm events →
      (storedProvenance codeVersion isAction arrivals).lastMaterializationCodeVersion = code ∧
        (storedProvenance codeVersion isAction arrivals).lastInputDataVersions =
          newestInputs events) ↔
      ProvenanceSettled codeVersion isAction events := by
  refine ⟨fun ⟨code, determined⟩ => known.settled_of_determined determined, fun settled => ?_⟩
  unfold ProvenanceSettled at settled
  split at settled
  · rename_i carrying found
    refine ⟨codeVersion, fun arrivals arrive => ?_⟩
    rw [known.storedProvenance_of_carrying arrive found settled, newestInputs, found]
    exact ⟨rfl, rfl⟩
  · rename_i found
    have inputs (arrivals : List Arrival) (arrive : (arrivals.flatMap Arrival.events).Perm events) :
        (storedProvenance codeVersion isAction arrivals).lastInputDataVersions =
          newestInputs events := by
      rw [known.inputs_of_newestCarrying_none arrive found, newestInputs, found, Option.elim_none]
    have unstamped (arrivals : List Arrival)
      (arrive : (arrivals.flatMap Arrival.events).Perm events)
        (all : ∀ event ∈ events, isAction event.runId = true) (arrival : Arrival)
        (isArrival : arrival ∈ arrivals) :
        arrival.stamp codeVersion isAction = none := by
      refine Option.eq_none_iff_forall_ne_some.mpr fun mark isMark => ?_
      grind [Arrival.source_of_stamp, not_carriesInputs_of_newestCarrying]
    rcases settled with isNone | all | ⟨event, member, noAction, isNewest⟩
    · refine ⟨none, fun arrivals arrive => ⟨?_, inputs arrivals arrive⟩⟩
      by_cases stamped : ∃ arrival ∈ arrivals, (arrival.stamp codeVersion isAction).isSome
      · exact (known.codeVersion_of_stamped arrive stamped).trans isNone
      · grind [Materializations.codeVersion_of_unstamped, Option.not_isSome_iff_eq_none]
    · exact ⟨none, fun arrivals arrive =>
        ⟨known.codeVersion_of_unstamped arrive (unstamped arrivals arrive all),
          inputs arrivals arrive⟩⟩
    · refine ⟨codeVersion, fun arrivals arrive => ⟨known.codeVersion_of_stamped arrive ?_,
        inputs arrivals arrive⟩⟩
      obtain ⟨arrival, isArrival, inside⟩ := List.mem_flatMap.mp (arrive.mem_iff.mpr member)
      have inEvents (other : AssetEvent) (inOther : other ∈ arrival.events) : other ∈ events :=
        arrive.mem_iff.mp (List.mem_flatMap.mpr ⟨arrival, isArrival, inOther⟩)
      exact ⟨arrival, isArrival, Arrival.stamp_isSome_of_newest inside noAction
        (fun other inOther => isNewest other (inEvents other inOther))
        fun other inOther => known.eq_of_timestamp (inEvents other inOther) member⟩

def twoMaterializations (inputs : List (String × String)) : List AssetEvent :=
  [ { eventId := "first", kind := .materialization (some "v1"), runId := "run1", partitionKey := none, timestamp := 1,
      inputDataVersions := [("orders", "v7")] },
    { eventId := "second", kind := .materialization (some "v2"), runId := "run2",
      partitionKey := none, timestamp := 2, inputDataVersions := inputs } ]

theorem storedProvenance_determined_both_read :
    ∃ code, ∀ arrivals : List Arrival,
      (arrivals.flatMap Arrival.events).Perm (twoMaterializations [("orders", "v8")]) →
      (storedProvenance (some "c1") (fun _ => false) arrivals).lastMaterializationCodeVersion =
        code ∧
        (storedProvenance (some "c1") (fun _ => false) arrivals).lastInputDataVersions = [("orders", "v8")] := by
  have known : Materializations (fun _ => false) (twoMaterializations [("orders", "v8")]) :=
    ⟨by decide, by decide, by decide⟩
  refine (storedProvenance_determined_iff known).mpr ?_
  have found : newestCarrying (twoMaterializations [("orders", "v8")]) =
      (twoMaterializations [("orders", "v8")])[1]? := by decide
  simp only [ProvenanceSettled, found]
  simp [twoMaterializations]

/-- Stored one by one, the two leave the first one's inputs in order of their times and none in the
other order. -/
theorem storedProvenance_depends_on_order :
    let events := twoMaterializations []
    let stored := storedProvenance (some "c1") (fun _ => false)
    Materializations (fun _ => false) events ∧
      (stored (events.map .single)).lastInputDataVersions = [("orders", "v7")] ∧
      (stored (events.reverse.map .single)).lastInputDataVersions = [] ∧
      newestInputs events = [("orders", "v7")] := by
  refine ⟨⟨by decide, by decide, by decide⟩, by decide, by decide, by decide⟩

end Arrivals

end Rivers

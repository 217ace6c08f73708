import Rivers.Condition.EvalLemmas

/-! One simulation between two evaluations of the same tree. -/

namespace Rivers

open FiniteMap

inductive Scope where
  | root
  | dep (condition : ConditionNode)

def ConditionNode.enters (ctx : EvalContext) : ConditionNode → List String
  | .anyDepsMatch _ _ | .allDepsMatch _ _ => upstreamDepsOf ctx
  | .assetMatches keys _ => keys
  | _ => []

variable {Sel₁ Sel₂ : Type}

structure EvalSim (D₁ : EvalDomain Sel₁) (D₂ : EvalDomain Sel₂) (R : Sel₁ → Sel₂ → Prop)
    (C : Scope → EvalContext → EvalContext → Prop)
    (S : Scope → EvalState Sel₁ → EvalState Sel₂ → Prop)
    (ok : Scope → ConditionNode → Prop) : Prop where
  child : ∀ {scope node child}, ok scope node → node.isDepAggregate = false →
    child ∈ node.children → ok scope child
  condition : ∀ {scope node child}, ok scope node → node.isDepAggregate = true →
    child ∈ node.children → ok (.dep child) child
  counter : ∀ {scope st₁ st₂}, S scope st₁ st₂ → st₁.counter = st₂.counter
  atCounter : ∀ {scope st₁ st₂}, S scope st₁ st₂ → ∀ counter,
    S scope (st₁.atCounter counter) (st₂.atCounter counter)
  record : ∀ {scope st₁ st₂ sel₁ sel₂}, S scope st₁ st₂ → R sel₁ sel₂ → ∀ index,
    S scope (st₁.record index sel₁) (st₂.record index sel₂)
  leaf : ∀ {scope kind ctx₁ ctx₂}, ok scope (.leaf kind) → C scope ctx₁ ctx₂ →
    R (evalLeaf D₁ ctx₁ kind) (evalLeaf D₂ ctx₂ kind)
  init : ∀ quant : Quantifier, R (quant.init D₁) (quant.init D₂)
  combine : ∀ {left₁ left₂ right₁ right₂} (quant : Quantifier), R left₁ left₂ → R right₁ right₂ →
    R (quant.combine D₁ left₁ right₁) (quant.combine D₂ left₂ right₂)
  saturated : ∀ {sel₁ sel₂} {quant : Quantifier}, R sel₁ sel₂ → quant.saturated D₁ sel₁ = true →
    quant.saturated D₂ sel₂ = true
  absorb : ∀ {sel₁ sel₂} {quant : Quantifier}, R sel₁ sel₂ → quant.saturated D₁ sel₁ = false →
    quant.saturated D₂ sel₂ = true → ∀ other, R (quant.combine D₁ sel₁ other) sel₂
  not : ∀ {scope ctx₁ ctx₂ sel₁ sel₂}, C scope ctx₁ ctx₂ → R sel₁ sel₂ →
    R (D₁.not sel₁ ctx₁) (D₂.not sel₂ ctx₂)
  difference : ∀ {scope ctx₁ ctx₂ left₁ left₂ right₁ right₂}, C scope ctx₁ ctx₂ →
    R left₁ left₂ → R right₁ right₂ →
    R (D₁.difference left₁ right₁ ctx₁) (D₂.difference left₂ right₂ ctx₂)
  restrict : ∀ {scope ctx₁ ctx₂ sel₁ sel₂}, C scope ctx₁ ctx₂ → R sel₁ sel₂ →
    R (D₁.restrict sel₁ ctx₁) (D₂.restrict sel₂ ctx₂)
  sinceLastHandled : ∀ {scope child ctx₁ ctx₂ sel₁ sel₂}, ok scope (.sinceLastHandled child) →
    C scope ctx₁ ctx₂ → R sel₁ sel₂ →
    R (D₁.sinceLastHandled sel₁ ctx₁) (D₂.sinceLastHandled sel₂ ctx₂)
  prevLatch : ∀ {scope node ctx₁ ctx₂ st₁ st₂}, ok scope node → node.isStateful = true →
    C scope ctx₁ ctx₂ → S scope st₁ st₂ → ∀ index,
    R (D₁.prevLatch st₁.scope ctx₁ index) (D₂.prevLatch st₂.scope ctx₂ index)
  deps : ∀ {scope node ctx₁ ctx₂}, ok scope node → node.isDepAggregate = true →
    C scope ctx₁ ctx₂ → upstreamDepsOf ctx₁ = upstreamDepsOf ctx₂
  pivot : ∀ {scope condition ctx₁ ctx₂ st₁ st₂}
    {inner₁ : EvalContext → EvalState Sel₁ → Evaluated Sel₁}
    {inner₂ : EvalContext → EvalState Sel₂ → Evaluated Sel₂},
    ok (.dep condition) condition → C scope ctx₁ ctx₂ → S scope st₁ st₂ →
    (∀ {depCtx₁ depCtx₂ depSt₁ depSt₂}, C (.dep condition) depCtx₁ depCtx₂ →
      S (.dep condition) depSt₁ depSt₂ →
      R (inner₁ depCtx₁ depSt₁).sel (inner₂ depCtx₂ depSt₂).sel ∧
        S (.dep condition) (inner₁ depCtx₁ depSt₁).state (inner₂ depCtx₂ depSt₂).state) →
    ∀ depKey, (∃ node, ok scope node ∧ depKey ∈ node.enters ctx₁) →
      R (D₁.pivotIntoDep depKey condition ctx₁ inner₁ st₁).1
        (D₂.pivotIntoDep depKey condition ctx₂ inner₂ st₂).1 ∧
      S scope (D₁.pivotIntoDep depKey condition ctx₁ inner₁ st₁).2
        (D₂.pivotIntoDep depKey condition ctx₂ inner₂ st₂).2
  stateless : StatelessPivot D₁

section Simulation

variable {D₁ : EvalDomain Sel₁} {D₂ : EvalDomain Sel₂} {R : Sel₁ → Sel₂ → Prop}
  {C : Scope → EvalContext → EvalContext → Prop}
  {S : Scope → EvalState Sel₁ → EvalState Sel₂ → Prop} {ok : Scope → ConditionNode → Prop}

theorem foldDepsLoop_absorb (sim : EvalSim D₁ D₂ R C S ok)
    (pivot : String → EvalState Sel₁ → Sel₁ × EvalState Sel₁) (quant : Quantifier) (evalAll : Bool)
    (base : Nat) (deps : List String) {result₁ result₂} (related : R result₁ result₂)
    (done : quant.saturated D₂ result₂ = true) (open₁ : quant.saturated D₁ result₁ = false)
    (stop : evalAll = false) (st : EvalState Sel₁) :
    R (foldDepsLoop D₁ pivot quant evalAll base deps result₁ st).1 result₂ := by
  subst stop
  induction deps generalizing result₁ st with
  | nil => exact related
  | cons dep deps ih =>
    have combined := sim.absorb related open₁ done (pivot dep (st.atCounter base)).1
    simp only [foldDepsLoop, Bool.not_false, Bool.and_true]
    split
    · exact combined
    · rename_i unsaturated
      exact ih combined (by simpa using unsaturated) _

theorem foldDepsLoop_sim (sim : EvalSim D₁ D₂ R C S ok) {scope}
    (pivot₁ : String → EvalState Sel₁ → Sel₁ × EvalState Sel₁)
    (pivot₂ : String → EvalState Sel₂ → Sel₂ × EvalState Sel₂) (quant : Quantifier) (evalAll : Bool)
    (base : Nat) (deps : List String) (pivots : ∀ dep ∈ deps, ∀ st₁ st₂, S scope st₁ st₂ →
      R (pivot₁ dep st₁).1 (pivot₂ dep st₂).1 ∧ S scope (pivot₁ dep st₁).2 (pivot₂ dep st₂).2)
    (stateless : evalAll = false → ∀ dep st, ∃ counter, (pivot₁ dep st).2 = st.atCounter counter)
    {result₁ result₂}
    (related : R result₁ result₂) {st₁ st₂} (states : S scope st₁ st₂) :
    R (foldDepsLoop D₁ pivot₁ quant evalAll base deps result₁ st₁).1
        (foldDepsLoop D₂ pivot₂ quant evalAll base deps result₂ st₂).1 ∧
      ∀ counter, S scope
        ((foldDepsLoop D₁ pivot₁ quant evalAll base deps result₁ st₁).2.atCounter counter)
        ((foldDepsLoop D₂ pivot₂ quant evalAll base deps result₂ st₂).2.atCounter counter) := by
  induction deps generalizing result₁ result₂ st₁ st₂ with
  | nil => exact ⟨related, sim.atCounter states⟩
  | cons dep deps ih =>
    obtain ⟨selRel, stRel⟩ := pivots dep (by simp) _ _ (sim.atCounter states base)
    have rest := @ih fun other mem => pivots other (by simp [mem])
    have combined := sim.combine quant related selRel
    simp only [foldDepsLoop]
    cases evalAll with
    | true => simpa using rest combined stRel
    | false =>
      simp only [Bool.not_false, Bool.and_true]
      split
      · rename_i saturated₁
        rw [if_pos (sim.saturated combined saturated₁)]
        exact ⟨combined, sim.atCounter stRel⟩
      · rename_i open₁
        split
        · rename_i saturated₂
          refine ⟨foldDepsLoop_absorb sim pivot₁ quant false base deps combined saturated₂
            (by simpa using open₁) rfl _, ?_⟩
          intro counter
          obtain ⟨final, looped⟩ := foldDepsLoop_stateless D₁ pivot₁ quant false base deps
            (fun other _ => stateless rfl other)
            (quant.combine D₁ result₁ (pivot₁ dep (st₁.atCounter base)).1)
            (pivot₁ dep (st₁.atCounter base)).2
          rw [looped, EvalState.atCounter_atCounter]
          exact sim.atCounter stRel counter
        · exact rest combined stRel

theorem foldDeps_sim (sim : EvalSim D₁ D₂ R C S ok) {scope}
    (pivot₁ : String → EvalState Sel₁ → Sel₁ × EvalState Sel₁)
    (pivot₂ : String → EvalState Sel₂ → Sel₂ × EvalState Sel₂) (quant : Quantifier)
    (deps : List String) (cond : ConditionNode) (pivots : ∀ dep ∈ deps, ∀ st₁ st₂, S scope st₁ st₂ →
      R (pivot₁ dep st₁).1 (pivot₂ dep st₂).1 ∧ S scope (pivot₁ dep st₁).2 (pivot₂ dep st₂).2)
    (stateless : cond.hasStatefulNodes = false → ∀ dep st, ∃ counter, (pivot₁ dep st).2 =
      st.atCounter counter) {st₁ st₂}
    (states : S scope st₁ st₂) :
    R (foldDeps D₁ pivot₁ deps cond quant st₁).1
        (foldDeps D₂ pivot₂ deps cond quant st₂).1 ∧
      S scope (foldDeps D₁ pivot₁ deps cond quant st₁).2
        (foldDeps D₂ pivot₂ deps cond quant st₂).2 := by
  have looped := foldDepsLoop_sim sim pivot₁ pivot₂ quant cond.hasStatefulNodes st₁.counter
    deps pivots stateless (sim.init quant) states
  simp only [foldDeps, ← sim.counter states]
  exact ⟨looped.1, looped.2 _⟩

theorem foldCombinator_sim (sim : EvalSim D₁ D₂ R C S ok) {scope} (quant : Quantifier)
    (kids : List ConditionNode)
    {ctx₁ ctx₂ build₁ build₂} (each : ∀ child ∈ kids, ∀ {st₁ st₂}, S scope st₁ st₂ →
      R (eval D₁ child ctx₁ build₁ st₁).sel (eval D₂ child ctx₂ build₂ st₂).sel ∧
        S scope (eval D₁ child ctx₁ build₁ st₁).state (eval D₂ child ctx₂ build₂ st₂).state)
          {result₁ result₂}
    (related : R result₁ result₂) {st₁ st₂} (states : S scope st₁ st₂) :
    R (foldCombinator D₁ quant kids ctx₁ build₁ result₁ st₁).1
        (foldCombinator D₂ quant kids ctx₂ build₂ result₂ st₂).1 ∧
      S scope (foldCombinator D₁ quant kids ctx₁ build₁ result₁ st₁).2.2
        (foldCombinator D₂ quant kids ctx₂ build₂ result₂ st₂).2.2 := by
  induction kids generalizing result₁ result₂ st₁ st₂ with
  | nil => exact ⟨related, states⟩
  | cons child kids ih =>
    have rest := @ih fun other mem => each other (by simp [mem])
    obtain ⟨selRel, stRel⟩ := each child (by simp) states
    have combined := sim.combine quant related selRel
    have counters := sim.counter states
    simp only [foldCombinator, skippedCounter_eq]
    cases stateful : child.hasStatefulNodes with
    | true =>
      simp only [Bool.not_true, Bool.and_false, Bool.false_eq_true, if_false]
      cases saturated₁ : quant.saturated D₁ result₁ with
      | true =>
        rw [sim.saturated related saturated₁]
        exact rest related stRel
      | false =>
        cases saturated₂ : quant.saturated D₂ result₂ with
        | true => exact rest (sim.absorb related saturated₁ saturated₂ _) stRel
        | false => exact rest combined stRel
    | false =>
      simp only [Bool.not_false, Bool.and_true]
      cases saturated₁ : quant.saturated D₁ result₁ with
      | true =>
        rw [sim.saturated related saturated₁, ← counters]
        exact rest related (sim.atCounter states _)
      | false =>
        cases saturated₂ : quant.saturated D₂ result₂ with
        | true =>
          -- the second evaluation skips the child, the first one's state only counts it
          have counted := eval_stateless D₁ sim.stateless child stateful ctx₁ build₁ st₁
          simp only [Bool.false_eq_true, if_false, if_true]
          rw [counted, ← counters]
          exact rest (sim.absorb related saturated₁ saturated₂ _) (sim.atCounter states _)
        | false => exact rest combined stRel

theorem eval_sim (sim : EvalSim D₁ D₂ R C S ok) (node : ConditionNode) (scope : Scope)
    (allowed : ok scope node) {ctx₁ ctx₂} (ctxs : C scope ctx₁ ctx₂) (build₁ build₂ : Bool)
    {st₁ st₂}
      (states : S scope st₁ st₂) :
    R (eval D₁ node ctx₁ build₁ st₁).sel (eval D₂ node ctx₂ build₂ st₂).sel ∧
      S scope (eval D₁ node ctx₁ build₁ st₁).state (eval D₂ node ctx₂ build₂ st₂).state := by
  have next : ∀ {sc : Scope} {s₁ : EvalState Sel₁} {s₂ : EvalState Sel₂}, S sc s₁ s₂ →
      S sc s₁.next s₂.next := by grind [EvalState.next_eq_atCounter, EvalSim]
  induction node generalizing scope ctx₁ ctx₂ build₁ build₂ st₁ st₂ with
  | leaf kind => exact ⟨sim.leaf allowed ctxs, next states⟩
  | anyDepsMatch cond label ih | allDepsMatch cond label ih
  | assetMatches keys cond ih =>
    have inner := sim.condition allowed rfl (List.mem_singleton.mpr rfl)
    simp only [eval, finish_sel, finish_state, ← sim.deps allowed rfl ctxs]
    apply foldDeps_sim sim
    · intro dep isEntered s₁ s₂ stRel
      exact sim.pivot inner ctxs stRel
        (fun depContexts depStates => ih (.dep cond) inner depContexts false false depStates) dep
        ⟨_, allowed, isEntered⟩
    · intro stateless dep s₁
      exact sim.stateless dep cond ctx₁ _ s₁ stateless fun depCtx depSt =>
        ⟨_, eval_stateless D₁ sim.stateless cond stateless depCtx false depSt⟩
    · exact next states
  | and kids ih | or kids ih =>
    simp only [eval, finish_sel, finish_state]
    exact foldCombinator_sim sim _ kids
      (fun child mem => ih child mem scope (sim.child allowed rfl mem) ctxs build₁ build₂)
      (sim.init _) (next states)
  | not child ih =>
    have inner := ih scope (sim.child allowed rfl (List.mem_singleton.mpr rfl)) ctxs build₁ build₂
      (next states)
    exact ⟨sim.not ctxs inner.1, inner.2⟩
  | newlyTrue child ih =>
    have inner := ih scope (sim.child allowed rfl (List.mem_singleton.mpr rfl)) ctxs build₁ build₂
      (next states)
    have previous := sim.prevLatch allowed rfl ctxs inner.2 st₁.counter
    simp only [eval, finish_sel, finish_state, ← sim.counter states]
    exact ⟨sim.difference ctxs inner.1 previous, sim.record inner.2 inner.1 _⟩
  | since trigger reset triggerIh resetIh =>
    have triggered := triggerIh scope (sim.child allowed rfl (by simp [ConditionNode.children]))
      ctxs build₁ build₂ (next states)
    have resetted := resetIh scope (sim.child allowed rfl (by simp [ConditionNode.children]))
      ctxs build₁ build₂ triggered.2
    have previous := sim.prevLatch allowed rfl ctxs resetted.2 st₁.counter
    have latched := sim.restrict ctxs
      (sim.difference ctxs (sim.combine .any previous triggered.1) resetted.1)
    simp only [eval, finish_sel, finish_state, ← sim.counter states]
    exact ⟨latched, sim.record resetted.2 latched _⟩
  | sinceLastHandled child ih =>
    have inner := ih scope (sim.child allowed rfl (List.mem_singleton.mpr rfl)) ctxs build₁ build₂
      (next states)
    exact ⟨sim.sinceLastHandled allowed ctxs inner.1, inner.2⟩

end Simulation

end Rivers

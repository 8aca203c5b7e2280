import Cardplay.Proofs.Execution.Failure

/-!
# What a failure leaves

The steps of an execution are its visits of leaves and of parallel groups, those inside a parallel group left
out. They hand the state on from one to the next, and a failure is found at the last of them: a library effect
that fails leaves the state that this step was given, as it was (`Effect.execute_failed_state`). It is that
state and not one like it: whatever is replaced gets a later revision (`Effect.Library.same_or_later`).
-/

set_option autoImplicit false

namespace Cardplay

open Visit

/-- Each call is given the state that the call before it left, and succeeds. -/
inductive Threads : GameState → List Call → GameState → Prop
  | nil (s : GameState) : Threads s [] s
  | cons {k : Call} {rest : List Call} {r : Result} {t : GameState} (hr : k.result? = some r)
      (hs : r.success = true) (h : Threads r.state rest t) : Threads k.context.state (k :: rest) t

theorem Threads.append {s t u : GameState} {ks ls : List Call} (h : Threads s ks t)
    (h' : Threads t ls u) : Threads s (ks ++ ls) u := by
  induction h with
  | nil => exact h'
  | cons hr hs _ ih => exact .cons hr hs (ih h')

namespace Visit

/-- The outermost parallel group around, or the call itself if there is none. -/
def step (v : Visit) : Call := v.parallel?.getD v.toCall

def isStep (v : Visit) : Bool :=
  (v.effect.isLeaf || v.effect.isParallel) && v.parallel?.isNone

def steps (vs : List Visit) : List Call := (vs.filter isStep).map Visit.toCall

theorem steps_append (vs ws : List Visit) : steps (vs ++ ws) = steps vs ++ steps ws := by
  simp [steps]

section Enter
variable {e : Effect} {inner : Tour} {c : Context} {run : Run}

theorem steps_leaf (h : e.isLeaf = true) :
    steps (Tour.enter e (fun _ _ => []) c run) = [⟨e, c, run⟩] := by
  simp [steps, Tour.enter, isStep, h, parallel?]

theorem steps_enter_of_isParallel (h : e.isParallel = true) :
    steps (Tour.enter e inner c run) = [⟨e, c, run⟩] := by
  have hnone : ((inner c run).map (inside ⟨e, c, run⟩)).filter isStep = [] := by
    apply List.filter_eq_nil_iff.mpr
    intro v hv
    obtain ⟨w, _, rfl⟩ := List.mem_map.mp hv
    have hw : (w.inside ⟨e, c, run⟩).parallel? = some ⟨e, c, run⟩ :=
      parallel?_inside_of_isParallel h w
    simp [isStep, hw]
  simp [steps, Tour.enter, hnone, isStep, h, parallel?]

theorem steps_enter (hl : e.isLeaf = false) (hp : e.isParallel = false) :
    steps (Tour.enter e inner c run) = steps (inner c run) := by
  have hinside : isStep ∘ inside ⟨e, c, run⟩ = isStep := by
    funext v
    have hv : (v.inside ⟨e, c, run⟩).parallel? = v.parallel? := parallel?_inside_of_not hp v
    simp [isStep, hv]
  simp [steps, Tour.enter, List.filter_map, hinside, isStep, hl, hp]

end Enter

end Visit

/-- The state is handed from step to step, and a failure is that of the last step. -/
structure Stepped (s : GameState) (vs : List Visit) (r : Result) : Prop where
  through : r.success = true → Threads s (steps vs) r.state
  stopped : ∀ v, firstFailed? vs = some v → ∃ before own, steps vs = before ++ [v.step] ∧
    Threads s before v.step.context.state ∧ v.step.result? = some own ∧ own.success = false ∧
      r.state = own.state

namespace Stepped
variable {group : Bool} {s : GameState} {vs ws : List Visit} {r first last : Result}
variable {e : Effect} {inner : Tour} {c : Context} {run : Run}

theorem nothing (c : Context) (messages : List String) : Stepped c.state [] (.ok c.state messages) :=
  ⟨fun _ => .nil c.state, fun v h => by cases h⟩

theorem single {k : Call} (hk : k.result? = some r) (hx : Explained group vs r)
    (hsteps : steps vs = [k]) (hstep : ∀ v, firstFailed? vs = some v → v.step = k) :
    Stepped k.context.state vs r := by
  refine ⟨?_, ?_⟩
  · intro hs
    rw [hsteps]
    exact .cons hk hs (.nil r.state)
  · intro v hv
    have hf : r.success = false := by
      apply Bool.eq_false_iff.mpr
      intro hs
      rw [hx.clean hs] at hv
      cases hv
    rw [hstep v hv]
    exact ⟨[], r, hsteps, .nil k.context.state, hk, hf, rfl⟩

theorem leaf {run' : Run} (he : e.isLeaf = true) (h : e.execute c run = .ok r run') :
    Stepped c.state (Tour.enter e (fun _ _ => []) c run) r := by
  have hresult : Call.result? ⟨e, c, run⟩ = some r := Call.result?_eq_some_iff.mpr ⟨run', h⟩
  apply single hresult (Explained.leaf he h) (steps_leaf he)
  intro v hv
  have hmem := List.mem_of_find?_eq_some hv
  obtain rfl : v = ⟨⟨e, c, run⟩, []⟩ := by simpa [Tour.enter] using hmem
  rfl

theorem parallel {run' : Run} (he : e.isParallel = true) (h : e.execute c run = .ok r run')
    (hl : e.isLeaf = false) (hx : Explained group (Tour.enter e inner c run) r) :
    Stepped c.state (Tour.enter e inner c run) r := by
  have hresult : Call.result? ⟨e, c, run⟩ = some r := Call.result?_eq_some_iff.mpr ⟨run', h⟩
  apply single hresult hx (steps_enter_of_isParallel he)
  intro v hv
  rw [firstFailed?_enter hl] at hv
  obtain ⟨w, _, rfl⟩ := Option.map_eq_some_iff.mp hv
  have hw : (w.inside ⟨e, c, run⟩).parallel? = some ⟨e, c, run⟩ := parallel?_inside_of_isParallel he w
  rw [step, hw]
  rfl

theorem enter (hl : e.isLeaf = false) (hp : e.isParallel = false)
    (h : Stepped s (inner c run) r) : Stepped s (Tour.enter e inner c run) r := by
  refine ⟨?_, ?_⟩
  · rw [steps_enter hl hp]
    exact h.through
  · intro v hv
    rw [firstFailed?_enter hl] at hv
    obtain ⟨w, hw, rfl⟩ := Option.map_eq_some_iff.mp hv
    have hstep : (w.inside ⟨e, c, run⟩).step = w.step := by
      rw [step, parallel?_inside_of_not hp w]
      rfl
    rw [steps_enter hl hp, hstep]
    exact h.stopped w hw

theorem append (hvs : firstFailed? vs = none) (h : Stepped s vs first)
    (hs : first.success = true) (h' : Stepped first.state ws last) (messages : List String) :
    Stepped s (vs ++ ws) (last.after messages) := by
  refine ⟨?_, ?_⟩
  · intro hl
    rw [steps_append]
    exact (h.through hs).append (h'.through hl)
  · intro v hv
    rw [firstFailed?_append, hvs, Option.none_or] at hv
    obtain ⟨before, own, hsteps, hthreads, hown, hf, hstate⟩ := h'.stopped v hv
    refine ⟨steps vs ++ before, own, ?_, (h.through hs).append hthreads, hown, hf, hstate⟩
    rw [steps_append, hsteps, List.append_assoc]

theorem stop (h : Stepped s vs first) : Stepped s vs (Behaviour.stopAt first) :=
  ⟨fun hs => Bool.noConfusion hs, h.stopped⟩

end Stepped

def stepping : Account := fun group c _ vs r _ => Explained group vs r ∧ Stepped c.state vs r

theorem stepping_law : TourLaw stepping where
  leaf he h := ⟨Explained.leaf he h, Stepped.leaf he h⟩
  nothing _ c _ := ⟨Explained.of_clean rfl rfl, Stepped.nothing c []⟩
  next := by
    rintro group c run mid run' vs ws first last ⟨hx, hfirst⟩ hs ⟨hx', hlast⟩
    exact ⟨hx'.append (hx.clean hs) _, hfirst.append (hx.clean hs) hs hlast _⟩
  stop := by
    rintro c run run' vs first ⟨hx, hfirst⟩ hf
    exact ⟨hx.stop hf _ _, hfirst.stop⟩
  enter := by
    rintro e inner c run r run' hl hp _ ⟨hx, h⟩
    exact ⟨hx.enter hl, h.enter hl hp⟩
  declined := by
    intro child holds c run g _
    have hstepped : Stepped c.state
        (Tour.enter (.conditional child holds) (fun _ _ => []) c run)
        (.ok c.state [s!"Condition not met for: {child.description}"]) :=
      (Stepped.nothing c _).enter rfl rfl
    exact ⟨Explained.of_clean rfl rfl, hstepped⟩
  parallel := by
    intro children c run r run' _ h
    have hx := Effect.explained h
    refine ⟨hx, ?_⟩
    rw [Effect.visits_parallel] at hx ⊢
    exact Stepped.parallel rfl h rfl hx
  drawn h := h
  valued h := h

namespace Effect
variable {e : Effect} {c : Context} {run run' : Run} {r : Result}

theorem stepped (h : e.execute c run = .ok r run') : Stepped c.state (e.visits c run) r :=
  (stepping_law.holds h).2

theorem parallel_failed_state {children : List Effect}
    (h : (parallel children).execute c run = .ok r run') (hf : r.success = false) :
    r.state = c.state := by
  rw [execute_parallel] at h
  obtain ⟨rs, mid, _, hcases⟩ := Behaviour.parallel_eq_ok_iff.mp h
  rcases hcases with ⟨_, _, s, _, rfl⟩ | ⟨first, others, _, rfl, _⟩
  · cases hf
  · rfl

/-- A failing step of a library effect hands back the state that it was given. -/
theorem Library.step_state (he : e.Library) {v : Visit}
    (hv : firstFailed? (e.visits c run) = some v) {own : Result}
    (hown : v.step.result? = some own) (hf : own.success = false) :
    own.state = v.step.context.state := by
  obtain ⟨mid, hout⟩ := Call.result?_eq_some_iff.mp hown
  rw [step] at hout ⊢
  -- The step is a parallel group around the failed leaf, or a leaf of the library.
  cases hp : v.parallel? with
  | some k =>
    rw [hp] at hout
    have hk : k.effect.isParallel = true := isParallel_of_parallel? hp
    cases heff : k.effect with
    | parallel children =>
      rw [Option.getD_some, Call.outcome, heff] at hout
      exact parallel_failed_state hout hf
    | _ => simp [heff, isParallel] at hk
  | none =>
    rw [hp, Option.getD_none] at hout
    have hleaf : v.effect.isLeaf = true := by
      have hfailed : v.failedLeaf = true := List.find?_some hv
      exact (Bool.and_eq_true_iff.mp hfailed).1
    obtain ⟨l, hl⟩ := he.leaf_of_visit (List.mem_of_find?_eq_some hv) hleaf
    rw [Call.outcome, hl] at hout
    exact (Leaf.execute_failed hout hf).1

/-- Every pipeline and every chain lies below a parallel group. -/
def Shielded : Effect → Prop
  | leaf _ | custom _ | parallel _ => True
  | conditional child _ | contextual child _ _ => child.Shielded
  | _ => False

theorem Library.shielded_state (he : e.Library) (hs : e.Shielded)
    (h : e.execute c run = .ok r run') (hf : r.success = false) : r.state = c.state := by
  induction e using Effect.induction generalizing c run with
  | leaf l => exact (Leaf.execute_failed h hf).1
  | custom l => cases he
  | parallel children _ => exact parallel_failed_state h hf
  | conditional child holds ih =>
    cases he with
    | conditional hchild _ =>
      rw [execute_conditional] at h
      obtain ⟨met, g, _, hcases⟩ := Behaviour.conditional_eq_ok_iff.mp h
      rcases hcases with ⟨_, h⟩ | ⟨_, rfl, _⟩
      · exact ih hchild hs h
      · cases hf
  | contextual child key value ih =>
    cases he with
    | contextual hchild =>
      rw [execute_contextual] at h
      have hstate : r.state = (c.withValue key value).state := ih hchild hs h
      exact hstate
  | composite => cases hs
  | sequential => cases hs
  | chained => cases hs
  | repeated => cases hs

end Effect

namespace Duel

/-- The healing is done before the group that fails; the group draws before it fails. -/
def overreach : Effect := .composite [.leaf (.heal 1 ⟨.self, by decide⟩),
  .contextual (.parallel [.sequential [.leaf (.draw 1 toSelf),
    .leaf (.resource "mana" 2 .spend toSelf)]]) "dear" (.bool true),
  .leaf (.draw 1 toSelf)]

theorem overreach_library : overreach.Library := by
  refine .composite (List.forall_mem_cons.mpr ⟨.leaf trivial, ?_⟩)
  refine List.forall_mem_cons.mpr ⟨.contextual (.parallel ?_), ?_⟩
  · refine List.forall_mem_singleton.mpr (.sequential ?_)
    exact List.forall_mem_cons.mpr ⟨.leaf trivial, List.forall_mem_singleton.mpr (.leaf trivial)⟩
  · exact List.forall_mem_singleton.mpr (.leaf trivial)

end Duel

namespace Effect
variable {e : Effect} {c : Context} {run run' : Run} {r : Result}

/-- A library effect that fails leaves the state that its failing step was given: the outermost parallel
group around the first failed leaf, or that leaf. The steps before it all succeeded and made that state
out of the given one; there is no step after it. -/
theorem execute_failed_state (he : e.Library) (h : e.execute c run = .ok r run')
    (hf : r.success = false) : ∃ v, firstFailed? (e.visits c run) = some v ∧
      r.state = v.step.context.state ∧
      (∃ before, steps (e.visits c run) = before ++ [v.step] ∧
        Threads c.state before v.step.context.state) ∧
      (e.Shielded → r.state = c.state) := by
  cases hv : firstFailed? (e.visits c run) with
  | none => simp [(explained h).success hv] at hf
  | some v =>
    obtain ⟨before, own, hsteps, hthreads, hown, hfail, hstate⟩ := (stepped h).stopped v hv
    refine ⟨v, rfl, ?_, ⟨before, hsteps, hthreads⟩, fun hs => he.shielded_state hs h hf⟩
    rw [hstate]
    exact he.step_state hv hown hfail

theorem execute_failed_state_overreach : Duel.overreach.Library ∧ ∃ r run',
    Duel.overreach.execute (Duel.context "ann") default = .ok r run' ∧ r.success = false ∧
      ∃ v, firstFailed? (Duel.overreach.visits (Duel.context "ann") default) = some v ∧
        v.step.effect.isParallel = true ∧ r.state = v.step.context.state ∧
        ∃ before, steps (Duel.overreach.visits (Duel.context "ann") default) = before ++ [v.step] ∧
          Threads Duel.table before v.step.context.state := by
  obtain ⟨r, run', h, hf⟩ : ∃ r run',
      Duel.overreach.execute (Duel.context "ann") default = .ok r run' ∧ r.success = false :=
    ⟨_, _, rfl, rfl⟩
  obtain ⟨v, hv, hstate, hbefore, _⟩ := execute_failed_state Duel.overreach_library h hf
  obtain ⟨w, hw, hgroup⟩ : ∃ w,
      firstFailed? (Duel.overreach.visits (Duel.context "ann") default) = some w ∧
        w.step.effect.isParallel = true := ⟨_, rfl, rfl⟩
  rw [hw] at hv
  cases hv
  exact ⟨Duel.overreach_library, r, run', h, hf, v, hw, hgroup, hstate, hbefore⟩

end Effect

end Cardplay

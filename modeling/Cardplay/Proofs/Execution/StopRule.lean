import Cardplay.Proofs.Execution.Pipelines

/-!
# Where a pipeline stops

Pipelines and repetitions call their parts in turn. As long as the parts succeed, each of them gets the state
and the run that the one before it has left (`Relay`), and what follows is the pipeline over the other parts
(`Relay.pipeline`). So the first part that fails or raises decides what the whole answers, whatever parts were
still to come, and none of those is called (`Effect.execute_stops`).
-/

set_option autoImplicit false

namespace Cardplay

/-- The calls that a call makes itself, in order; the calls inside of these are not among them. -/
def Call.made (k : Call) : List Call :=
  ((k.effect.visits k.context k.run).filter fun v => v.within.length = 1).map Visit.toCall

theorem Call.succeeded_iff {k : Call} :
    k.succeeded = true ↔ ∃ r run', k.outcome = .ok r run' ∧ r.success = true := by
  unfold Call.succeeded Call.result?
  cases k.outcome with
  | ok r run' => simp
  | error e run' => simp

/-- The calls are made one after the other, the first from the given state and run. Each of them succeeds,
and the next gets the state and the run that it leaves, and the same context for the rest. -/
inductive Relay (c : Context) : GameState → Run → List Call → List Result → GameState → Run → Prop
  | nil (s : GameState) (run : Run) : Relay c s run [] [] s run
  | cons {e : Effect} {s t : GameState} {run mid run' : Run} {r : Result} {ks : List Call}
      {rs : List Result} (h : e.execute (c.withState s) run = .ok r mid) (hs : r.success = true)
      (rest : Relay c r.state mid ks rs t run') :
      Relay c s run (⟨e, c.withState s, run⟩ :: ks) (r :: rs) t run'

namespace Effect

/-- The effects that call the given parts in turn. -/
inductive RunsInTurn (parts : List Effect) : Effect → Prop
  | composite : RunsInTurn parts (.composite parts)
  | sequential : RunsInTurn parts (.sequential parts)
  | repeated {child : Effect} {times : Int} (htimes : times ≤ Behaviour.maxTimes)
      (hparts : parts = List.replicate times.toNat child) : RunsInTurn parts (.repeated child times)

namespace RunsInTurn
variable {parts : List Effect} {e : Effect}

theorem execute_eq (h : RunsInTurn parts e) :
    e.execute = Behaviour.pipeline (parts.map execute) := by
  cases h with
  | composite => exact execute_composite parts
  | sequential => exact execute_sequential parts
  | repeated htimes hparts =>
    rw [hparts, List.map_replicate, execute_repeated, ← Behaviour.iterate_eq_pipeline]
    funext c
    exact if_neg (Int.not_lt.mpr htimes)

theorem visits_eq (h : RunsInTurn parts e) : e.visits = .enter e (.inTurn (parts.map part)) := by
  cases h with
  | composite => exact visits_composite parts
  | sequential => exact visits_sequential parts
  | repeated htimes hparts => rw [hparts, List.map_replicate, visits_repeated _ htimes]

theorem repetition {child : Effect} {times : Int} (htimes : times ≤ Behaviour.maxTimes) {i : Nat}
    (hi : i < times.toNat) : RunsInTurn
      (List.replicate i child ++ [child] ++ List.replicate (times.toNat - i - 1) child)
      (.repeated child times) := by
  refine .repeated htimes ?_
  rw [← List.replicate_one, List.replicate_append_replicate, List.replicate_append_replicate]
  congr 1
  omega

end RunsInTurn

end Effect

namespace Visit

/-- The calls among the visits that are no part of another one. -/
def outermost (vs : List Visit) : List Call := (vs.filter fun v => v.within = []).map Visit.toCall

theorem outermost_append (vs ws : List Visit) :
    outermost (vs ++ ws) = outermost vs ++ outermost ws := by
  simp [outermost]

theorem outermost_inside (k : Call) (vs : List Visit) : outermost (vs.map (inside k)) = [] := by
  simp [outermost, inside]

theorem outermost_enter (e : Effect) (inner : Tour) (c : Context) (run : Run) :
    outermost (Tour.enter e inner c run) = [⟨e, c, run⟩] := by
  have hinside := outermost_inside ⟨e, c, run⟩ (inner c run)
  unfold outermost at hinside ⊢
  simp [Tour.enter, hinside]

end Visit

open Visit

namespace Effect

theorem outermost_visits (e : Effect) (c : Context) (run : Run) :
    outermost (e.visits c run) = [⟨e, c, run⟩] := by
  cases e with
  | leaf l => exact outermost_enter (leaf l) _ c run
  | custom l => exact outermost_enter (custom l) _ c run
  | composite children => rw [visits_composite, outermost_enter]
  | sequential children => rw [visits_sequential, outermost_enter]
  | parallel children => rw [visits_parallel, outermost_enter]
  | chained first next => exact outermost_enter (chained first next) _ c run
  | conditional child holds => exact outermost_enter (conditional child holds) _ c run
  | repeated child times => exact outermost_enter (repeated child times) _ c run
  | contextual child key value => exact outermost_enter (contextual child key value) _ c run

theorem made_eq {parts : List Effect} {e : Effect} (he : RunsInTurn parts e) (c : Context)
    (run : Run) : Call.made ⟨e, c, run⟩ = outermost (Tour.inTurn (parts.map part) c run) := by
  have hinside : (fun v : Visit => decide (v.within.length = 1)) ∘ inside ⟨e, c, run⟩ =
      fun v => decide (v.within = []) := by
    funext v
    simp [inside]
  simp [Call.made, he.visits_eq, Tour.enter, List.filter_map, hinside, outermost, Function.comp_def]

theorem outermost_inTurn_cons (e : Effect) (rest : List Effect) (c : Context) (run : Run) :
    outermost (Tour.inTurn ((e :: rest).map part) c run) =
      ⟨e, c, run⟩ :: outermost (Tour.goOn (e.execute c run) fun r run' =>
        if r.success then Tour.inTurn (rest.map part) (c.withState r.state) run' else []) := by
  rw [List.map_cons, Tour.inTurn, outermost_append, part, outermost_visits]
  rfl

end Effect

namespace Behaviour
variable {b : Behaviour} {c : Context} {run mid : Run} {r : Result}

theorem pipeline_cons_of_success (h : b c run = .ok r mid) (hs : r.success = true)
    (bs : List Behaviour) : pipeline (b :: bs) c run =
      EStateM.map (fun last => last.after r.messages) (pipeline bs (c.withState r.state)) mid := by
  change EStateM.bind (b c) _ run = _
  simp only [EStateM.bind, h, hs, if_true]
  rfl

theorem pipeline_cons_of_failure {run' : Run} (h : b c run = .ok r run') (hs : r.success = false)
    (bs : List Behaviour) : pipeline (b :: bs) c run = .ok (stopAt r) run' :=
  pipeline_cons_eq_ok_iff.mpr ⟨r, run', h, Or.inr ⟨hs, rfl, rfl⟩⟩

end Behaviour

namespace Relay
variable {c : Context} {s t : GameState} {run mid run' : Run} {ks : List Call} {rs : List Result}
variable {f : Effect} {r : Result}

/-- After parts that succeeded, a pipeline goes on as the pipeline over the other parts. -/
theorem pipeline (h : Relay c s run ks rs t mid) (rest : List Effect) :
    Behaviour.pipeline ((ks.map Call.effect ++ rest).map Effect.execute) (c.withState s) run =
      EStateM.map (fun last => last.after (rs.flatMap Result.messages))
        (Behaviour.pipeline (rest.map Effect.execute) (c.withState t)) mid := by
  induction h with
  | nil s run =>
    simp only [List.map_nil, List.nil_append, List.flatMap_nil, Result.after_nil, EStateM.map]
    cases Behaviour.pipeline (rest.map Effect.execute) (c.withState s) run <;> rfl
  | @cons e s t run mid run' r ks rs h hs _ ih =>
    rw [List.map_cons, List.cons_append, List.map_cons, Behaviour.pipeline_cons_of_success h hs]
    simp only [EStateM.map, Context.withState_withState, ih, List.flatMap_cons]
    cases Behaviour.pipeline (rest.map Effect.execute) (c.withState t) run' with
    | ok last end' => simp
    | error e end' => rfl

theorem pipeline_succeeds (h : Relay c s run ks rs t run') :
    Behaviour.pipeline ((ks.map Call.effect).map Effect.execute) (c.withState s) run =
      .ok (.ok t (rs.flatMap Result.messages)) run' := by
  have hall := h.pipeline []
  have hend : Behaviour.pipeline (([] : List Effect).map Effect.execute) (c.withState t) run' =
      .ok (.ok t []) run' := rfl
  rw [List.append_nil, EStateM.map, hend] at hall
  rw [hall]
  simp [Result.ok, Result.after]

theorem pipeline_fails (h : Relay c s run ks rs t mid)
    (hf : f.execute (c.withState t) mid = .ok r run') (hr : r.success = false) (rest : List Effect) :
    Behaviour.pipeline ((ks.map Call.effect ++ [f] ++ rest).map Effect.execute) (c.withState s) run =
      .ok (.fail r.state (rs.flatMap Result.messages ++ r.messages) (some r.reasonOrChild)) run' := by
  have hstop : Behaviour.pipeline ((f :: rest).map Effect.execute) (c.withState t) mid =
      .ok (Behaviour.stopAt r) run' := Behaviour.pipeline_cons_of_failure hf hr _
  rw [List.append_assoc, List.singleton_append, h.pipeline, EStateM.map, hstop]
  rfl

/-- The parts that succeeded are called once each, and the other parts after them. -/
theorem outermost (h : Relay c s run ks rs t mid) (rest : List Effect) :
    Visit.outermost (Tour.inTurn ((ks.map Call.effect ++ rest).map Effect.part) (c.withState s) run) =
      ks ++ Visit.outermost (Tour.inTurn (rest.map Effect.part) (c.withState t) mid) := by
  induction h with
  | nil s run => rfl
  | @cons e s t run mid run' r ks rs h hs _ ih =>
    rw [List.map_cons, List.cons_append, Effect.outermost_inTurn_cons, h]
    simp only [Tour.goOn, hs, if_true, Context.withState_withState, ih, List.cons_append]

theorem outermost_succeeds (h : Relay c s run ks rs t run') :
    Visit.outermost (Tour.inTurn ((ks.map Call.effect).map Effect.part) (c.withState s) run) = ks := by
  have hall := h.outermost []
  rw [List.append_nil] at hall
  exact hall.trans (List.append_nil ks)

theorem outermost_stopped (h : Relay c s run ks rs t mid)
    (hf : Call.succeeded ⟨f, c.withState t, mid⟩ = false) (rest : List Effect) :
    Visit.outermost
        (Tour.inTurn ((ks.map Call.effect ++ [f] ++ rest).map Effect.part) (c.withState s) run) =
      ks ++ [⟨f, c.withState t, mid⟩] := by
  rw [List.append_assoc, List.singleton_append, h.outermost, Effect.outermost_inTurn_cons]
  cases hout : f.execute (c.withState t) mid with
  | ok r run' =>
    have hcall : Call.outcome ⟨f, c.withState t, mid⟩ = .ok r run' := hout
    have hr : r.success ≠ true := by
      intro hs
      rw [Call.succeeded_iff.mpr ⟨r, run', hcall, hs⟩] at hf
      cases hf
    simp [Tour.goOn, hr, Visit.outermost]
  | error e run' => simp [Tour.goOn, Visit.outermost]

theorem of_pipeline {xs : List Effect}
    (h : Behaviour.pipeline (xs.map Effect.execute) (c.withState s) run = .ok r run')
    (hr : r.success = true) : ∃ ks rs, Relay c s run ks rs r.state run' ∧ ks.map Call.effect = xs := by
  induction xs generalizing s run r with
  | nil =>
    obtain ⟨rfl, rfl⟩ := Behaviour.pipeline_nil_eq_ok_iff.mp h
    exact ⟨[], [], .nil s run', rfl⟩
  | cons e xs ih =>
    obtain ⟨first, mid, he, hcases⟩ := Behaviour.pipeline_cons_eq_ok_iff.mp h
    rcases hcases with ⟨hs, last, hlast, rfl⟩ | ⟨_, rfl, _⟩
    · obtain ⟨ks, rs, hrelay, rfl⟩ := ih hlast hr
      exact ⟨_, _, .cons he hs hrelay, rfl⟩
    · cases hr

/-- Unless one of the calls that are made fails or raises, all parts are called. -/
theorem of_outermost {parts : List Effect} (h : ∀ k ∈ Visit.outermost
      (Tour.inTurn (parts.map Effect.part) (c.withState s) run), k.succeeded = true) :
    ∃ ks rs t run', Relay c s run ks rs t run' ∧ ks.map Call.effect = parts := by
  induction parts generalizing s run with
  | nil => exact ⟨[], [], s, run, .nil s run, rfl⟩
  | cons e rest ih =>
    rw [Effect.outermost_inTurn_cons] at h
    obtain ⟨hfirst, hrest⟩ := List.forall_mem_cons.mp h
    obtain ⟨r, mid, he, hs⟩ := Call.succeeded_iff.mp hfirst
    have hgoes : e.execute (c.withState s) run = .ok r mid := he
    simp only [hgoes, Tour.goOn, hs, if_true, Context.withState_withState] at hrest
    obtain ⟨ks, rs, t, run', hrelay, rfl⟩ := ih hrest
    exact ⟨_, _, t, run', .cons hgoes hs hrelay, rfl⟩

end Relay

namespace Duel

/-- It would raise if it were called. -/
def curse : CustomLeaf where
  label := "curse"
  type := ⟨"duel", "Curse"⟩
  description := "Curse"
  behaviour := fun _ => throw (.raised "cursed")

end Duel

namespace Effect

section InTurn
variable {xs ys parts : List Effect} {e f : Effect} {c : Context} {run mid run' : Run} {r rx : Result}
variable {ks : List Call} {rs : List Result} {t : GameState}

theorem exists_relay (h : (composite xs).execute c run = .ok r run') (hr : r.success = true) :
    ∃ ks rs, Relay c c.state run ks rs r.state run' ∧ ks.map Call.effect = xs ∧
      r.messages = rs.flatMap Result.messages := by
  rw [execute_composite] at h
  obtain ⟨ks, rs, hrelay, rfl⟩ := Relay.of_pipeline h hr
  have hall := hrelay.pipeline_succeeds
  rw [Context.withState_self, h] at hall
  exact ⟨ks, rs, hrelay, rfl, congrArg Result.messages (EStateM.Result.ok.inj hall).1⟩

theorem RunsInTurn.stops (he : RunsInTurn (ks.map Call.effect ++ [f] ++ ys) e)
    (h : Relay c c.state run ks rs t mid) (hf : f.execute (c.withState t) mid = .ok r run')
    (hr : r.success = false) :
    e.execute c run =
        .ok (.fail r.state (rs.flatMap Result.messages ++ r.messages) (some r.reasonOrChild)) run' ∧
      Call.made ⟨e, c, run⟩ = ks ++ [⟨f, c.withState t, mid⟩] := by
  have hresult : Call.result? ⟨f, c.withState t, mid⟩ = some r :=
    Call.result?_eq_some_iff.mpr ⟨run', hf⟩
  have hfailed : Call.succeeded ⟨f, c.withState t, mid⟩ = false :=
    (Call.succeeded_eq hresult).trans hr
  rw [he.execute_eq, made_eq he]
  exact ⟨h.pipeline_fails hf hr ys, h.outermost_stopped hfailed ys⟩

theorem RunsInTurn.completes (he : RunsInTurn parts e)
    (h : ∀ k ∈ Call.made ⟨e, c, run⟩, k.succeeded = true) :
    ∃ rs t run', Relay c c.state run (Call.made ⟨e, c, run⟩) rs t run' ∧
      (Call.made ⟨e, c, run⟩).map Call.effect = parts ∧
      e.execute c run = .ok (.ok t (rs.flatMap Result.messages)) run' := by
  rw [made_eq he] at h ⊢
  obtain ⟨ks, rs, t, run', hrelay, rfl⟩ := Relay.of_outermost (s := c.state) h
  have hmade := hrelay.outermost_succeeds
  rw [Context.withState_self] at hmade
  rw [he.execute_eq, hmade]
  exact ⟨rs, t, run', hrelay, rfl, hrelay.pipeline_succeeds⟩

end InTurn

/-- Parts that are called in turn stop at the first that fails. The answer has its state, the messages of all
that were called, and its reason or that of a failed child; the run is the one that it left, and no part after
it is called. So it is with a repetition when its child fails for the first time. Unless a call fails or
raises, every part is called once, in order and on the state that the part before it left. -/
theorem execute_stops :
    (∀ xs f c run rx mid r run', (composite xs).execute c run = .ok rx mid → rx.success = true →
      f.execute (c.withState rx.state) mid = .ok r run' → r.success = false →
        ∃ ks rs, Relay c c.state run ks rs rx.state mid ∧ ks.map Call.effect = xs ∧
          rx.messages = rs.flatMap Result.messages ∧
          ∀ ys e, RunsInTurn (xs ++ [f] ++ ys) e →
            e.execute c run =
              .ok (.fail r.state (rx.messages ++ r.messages) (some r.reasonOrChild)) run' ∧
            Call.made ⟨e, c, run⟩ = ks ++ [⟨f, c.withState rx.state, mid⟩]) ∧
    (∀ f times i c run rx mid r run', times ≤ Behaviour.maxTimes → i < times.toNat →
      (composite (List.replicate i f)).execute c run = .ok rx mid → rx.success = true →
      f.execute (c.withState rx.state) mid = .ok r run' → r.success = false →
        (repeated f times).execute c run =
          .ok (.fail r.state (rx.messages ++ r.messages) (some r.reasonOrChild)) run' ∧
        (Call.made ⟨repeated f times, c, run⟩).map Call.effect = List.replicate (i + 1) f) ∧
    ∀ parts e c run, RunsInTurn parts e → (∀ k ∈ Call.made ⟨e, c, run⟩, k.succeeded = true) →
      ∃ rs t run', Relay c c.state run (Call.made ⟨e, c, run⟩) rs t run' ∧
        (Call.made ⟨e, c, run⟩).map Call.effect = parts ∧
        e.execute c run = .ok (.ok t (rs.flatMap Result.messages)) run' := by
  refine ⟨?_, ?_, fun parts e c run he h => he.completes h⟩
  · intro xs f c run rx mid r run' hx hs hf hr
    obtain ⟨ks, rs, hrelay, rfl, hmessages⟩ := exists_relay hx hs
    refine ⟨ks, rs, hrelay, rfl, hmessages, fun ys e he => ?_⟩
    rw [hmessages]
    exact he.stops hrelay hf hr
  · intro f times i c run rx mid r run' htimes hi hx hs hf hr
    obtain ⟨ks, rs, hrelay, hks, hmessages⟩ := exists_relay hx hs
    have he : RunsInTurn (List.replicate i f ++ [f] ++ List.replicate (times.toNat - i - 1) f)
        (repeated f times) := .repetition htimes hi
    rw [← hks] at he
    obtain ⟨hexecute, hmade⟩ := he.stops hrelay hf hr
    rw [hmessages, hexecute, hmade, List.map_append, hks, List.replicate_succ']
    exact ⟨rfl, rfl⟩

/-- The curse is listed after the stumble and never raises; a stumble that is repeated is done once. -/
theorem execute_stops_stumble :
    (∃ r run', (sequential [Duel.bandage, .custom Duel.stumble, .custom Duel.curse]).execute
        (Duel.context "ann") default = .ok r run' ∧ r.success = false ∧
      r.messages = ["ann heals 1 health", "stumbled"] ∧
      r.reason? = some (.str FailureReason.childFailed.name)) ∧
    (∃ r run', (repeated (.custom Duel.stumble) 3).execute (Duel.context "ann") default = .ok r run' ∧
      r.messages = ["stumbled"] ∧
      (Call.made ⟨repeated (.custom Duel.stumble) 3, Duel.context "ann", default⟩).length = 1) ∧
    ∃ rs t run', Relay (Duel.context "ann") Duel.table default
      (Call.made ⟨composite [Duel.bandage, Duel.glance], Duel.context "ann", default⟩) rs t run' := by
  obtain ⟨hstops, hrepeats, hcompletes⟩ := execute_stops
  refine ⟨?_, ?_, ?_⟩
  · obtain ⟨ks, rs, _, _, _, hall⟩ := hstops [Duel.bandage] (.custom Duel.stumble)
      (Duel.context "ann") default _ _ _ _ rfl rfl rfl rfl
    obtain ⟨hexecute, _⟩ := hall [.custom Duel.curse] _ .sequential
    exact ⟨_, _, hexecute, rfl, by decide +kernel, rfl⟩
  · obtain ⟨hexecute, hmade⟩ := hrepeats (.custom Duel.stumble) 3 0 (Duel.context "ann") default _ _ _ _
      (by decide) (by decide) rfl rfl rfl rfl
    have hlength := congrArg List.length hmade
    exact ⟨_, _, hexecute, by decide +kernel, by simpa using hlength⟩
  · obtain ⟨rs, t, run', hrelay, _⟩ := hcompletes [Duel.bandage, Duel.glance] _ (Duel.context "ann")
      default .composite (by decide +kernel)
    exact ⟨rs, t, run', hrelay⟩

end Effect

end Cardplay

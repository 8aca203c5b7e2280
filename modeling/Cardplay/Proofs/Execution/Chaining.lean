import Cardplay.Proofs.Execution.Pipelines
import Cardplay.Proofs.Execution.Upkeep

/-!
# Chains

A chain hands a failure on as it is, a pipeline rewrites it. The answers of library effects are settled
(`Effect.settled`): a pipeline finds nothing to rewrite in them, so a chain whose second part is always the same
is the pipeline of its two parts. Chains of chains can be regrouped as long as the last choice looks at nothing
but the state (`Behaviour.chained_assoc`). Both together are `Effect.execute_chains`.
-/

set_option autoImplicit false

namespace Cardplay

namespace Result
variable {r : Result}

/-- A success without metadata or a failure with a reason of its own, which a pipeline hands on unchanged. -/
structure Settled (r : Result) : Prop where
  success : r.success = true → r.metadata = none
  failure : r.success = false → Behaviour.stopAt r = r

namespace Settled

theorem ok (s : GameState) (messages : List String) : (Result.ok s messages).Settled :=
  ⟨fun _ => rfl, (nomatch ·)⟩

theorem stopAt (r : Result) : (Behaviour.stopAt r).Settled :=
  ⟨(nomatch ·), fun _ => Behaviour.stopAt_stopAt⟩

theorem fail {reason : Value} (h : reason.truthy = true) (s : GameState) (messages : List String) :
    (Result.fail s messages (some reason)).Settled := by
  refine ⟨(nomatch ·), fun _ => ?_⟩
  rw [Behaviour.stopAt, reasonOrChild_of_truthy (reason?_fail s messages reason) h]
  rfl

theorem after (h : r.Settled) (earlier : List String) : (r.after earlier).Settled :=
  ⟨h.success, fun hf => congrArg (Result.after · earlier) (h.failure hf)⟩

end Settled

end Result

namespace Behaviour
variable {b : Behaviour}

/-- A pipeline with one part changes nothing about settled answers. -/
theorem pipeline_singleton (h : ∀ c run r run', b c run = .ok r run' → r.Settled) :
    pipeline [b] = b := by
  funext c
  conv_rhs => rw [← bind_pure (b c)]
  refine Exec.bind_congr_of_ok fun run r run' hr => ?_
  have hsettled := h c run r run' hr
  cases hs : r.success with
  | true =>
    have hmetadata := hsettled.success hs
    cases r
    simp_all [pipeline, Result.ok, Result.after]
  | false => simp [hsettled.failure hs]

theorem chained_assoc (b : Behaviour) (f : Result → Behaviour) {g : Result → Behaviour}
    (h : ∀ r r', r.state = r'.state → g r = g r') :
    chained (chained b f) g = chained b fun r => chained (f r) g := by
  funext c
  simp only [chained, bind_assoc]
  refine bind_congr fun first => ?_
  cases hs : first.success with
  | true =>
    simp only [if_true, bind_assoc]
    refine bind_congr fun second => ?_
    have hnext : g (second.after first.messages) = g second := h _ _ rfl
    cases hs' : second.success with
    | true => simp [hs', hnext]
    | false => simp [hs']
  | false => simp [hs]

end Behaviour

theorem Leaf.settled {l : Leaf} {c : Context} {run run' : Run} {r : Result}
    (h : l.execute c run = .ok r run') : r.Settled := by
  cases hr : l.target.resolve c.playerId c.state with
  | error e =>
    rw [execute_unresolved hr] at h
    cases h
    exact .fail (by decide) c.state _
  | ok seats =>
    cases hm : l.move seats with
    | error e => exact absurd h (execute_ne_ok_of_error hr hm)
    | ok m =>
      cases m with
      | refuse message =>
        rw [execute_refused hr hm] at h
        cases h
        exact .fail (by decide) c.state _
      | apply players messages =>
        rw [execute_applied hr hm] at h
        obtain ⟨_, t, _, rfl⟩ := finish_eq_ok_iff.mp h
        exact .ok t messages

/-- The account of executions that answer with settled results. -/
def settling : Account := fun _ _ _ vs r _ => (∀ v ∈ vs, v.effect.kind? ≠ none) → r.Settled

theorem settling_law : TourLaw settling where
  leaf := by
    intro e c run r run' he h hvs
    obtain ⟨l, rfl⟩ := Effect.exists_leaf (hvs ⟨⟨e, c, run⟩, []⟩ List.mem_cons_self) he
    exact Leaf.settled h
  nothing _ c _ _ := .ok c.state []
  next := by
    intro group c run mid run' vs ws first last _ _ hlast hvs
    exact (hlast (List.forall_mem_append.mp hvs).2).after first.messages
  stop _ _ _ := .stopAt _
  enter := by
    intro e inner c run r run' _ _ _ h hvs
    exact h fun v hv => hvs (v.inside ⟨e, c, run⟩) (Tour.inside_mem_enter e hv)
  declined := by
    intro child holds c run g _ _
    exact .ok c.state _
  parallel := by
    intro children c run r run' _ h _
    rw [Effect.execute_parallel] at h
    obtain ⟨rs, mid, _, hcases⟩ := Behaviour.parallel_eq_ok_iff.mp h
    rcases hcases with ⟨_, _, s, _, rfl⟩ | ⟨first, others, _, rfl, _⟩
    · exact .ok s _
    · exact .fail first.truthy_reasonOrChild c.state _
  drawn h := h
  valued h := h

namespace Effect
variable {a b : Effect}

theorem settled {e : Effect} (he : e.Native) {c : Context} {run run' : Run} {r : Result}
    (h : e.execute c run = .ok r run') : r.Settled :=
  settling_law.holds h (Throughout.visits he c run)

/-- How the second part of a chain is chosen: from the result of the first and with draws. -/
abbrev Continuation := Result → Generator → EStateM.Result Error Generator Effect

/-- Chooses the same effect after every result. -/
def constantly (e : Effect) : Continuation := fun _ g => .ok e g

/-- Chooses what `next` chooses, with a further choice chained to it. -/
def linking (next later : Continuation) : Continuation := fun r g =>
  match next r g with
  | .ok e g' => .ok (chained e later) g'
  | .error e g' => .error e g'

theorem execute_chained_constantly (ha : a.Native) (hb : b.Native) :
    (chained a (constantly b)).execute = (composite [a, b]).execute := by
  have hfirst : Behaviour.pipeline [a.execute] = a.execute :=
    Behaviour.pipeline_singleton fun _ _ _ _ h => settled ha h
  have hsecond : Behaviour.pipeline [b.execute] = b.execute :=
    Behaviour.pipeline_singleton fun _ _ _ _ h => settled hb h
  have hpair := Behaviour.pipeline_append [a.execute] [b.execute]
  rw [hfirst, hsecond] at hpair
  exact hpair.symm.trans (execute_composite [a, b]).symm

/-- The behaviour that a choice leads to. -/
def follow (f : Continuation) (r : Result) : Behaviour := fun c run =>
  executeChoice (f r run.generator) c run

theorem execute_chained_eq (first : Effect) (f : Continuation) :
    (chained first f).execute = Behaviour.chained first.execute (follow f) := rfl

theorem follow_linking (f g : Continuation) (r : Result) :
    follow (linking f g) r = Behaviour.chained (follow f r) (follow g) := by
  funext c run
  change _ = EStateM.bind (follow f r c) _ run
  unfold follow EStateM.bind
  cases hf : f r run.generator with
  | ok e generator =>
    simp only [linking, hf, executeChoice]
    rfl
  | error e generator => simp only [linking, hf, executeChoice]

theorem execute_chained_chained (a : Effect) (f : Continuation) {g : Continuation}
    (h : ∀ r r', r.state = r'.state → g r = g r') :
    (chained (chained a f) g).execute = (chained a (linking f g)).execute := by
  have hstate : ∀ r r', r.state = r'.state → follow g r = follow g r' := by
    intro r r' hr
    unfold follow
    rw [h r r' hr]
  rw [execute_chained_eq, execute_chained_eq, execute_chained_eq,
    Behaviour.chained_assoc a.execute (follow f) hstate]
  congr 1
  funext r
  exact (follow_linking f g r).symm

end Effect

namespace Duel

/-- More than ann has. -/
def debt : Effect := .leaf (.resource "mana" 2 .spend toSelf)

/-- Chooses by the messages. -/
def falter : Effect.Continuation := fun r =>
  Effect.constantly (if r.messages.length = 1 then .custom stumble else glance) r

/-- Chooses by the state alone. -/
def goOn : Effect.Continuation := fun r => Effect.constantly (if r.state.turn = 1 then glance else debt) r

theorem goOn_congr (r r' : Result) (h : r.state = r'.state) : goOn r = goOn r' := by
  unfold goOn Effect.constantly
  rw [h]

end Duel

namespace Effect

/-- A chain that always goes on with the same library effect runs as the pipeline of its two parts, with the same
state, messages and metadata, the same error, log, draws and journal, and fails as that does. A chain of a chain
may as well choose, after its first part, a chain of the second and the third, for any effects whatever, provided
that the last choice depends on the state alone. -/
theorem execute_chains :
    (∀ a b : Effect, a.Native → b.Native →
      (chained a (constantly b)).execute = (composite [a, b]).execute) ∧
    ∀ (a : Effect) (f g : Continuation), (∀ r r', r.state = r'.state → g r = g r') →
      (chained (chained a f) g).execute = (chained a (linking f g)).execute :=
  ⟨fun _ _ ha hb => execute_chained_constantly ha hb, fun a f _ h => execute_chained_chained a f h⟩

/-- The second part fails in both; the failure without a reason is handed on without one. -/
theorem execute_chains_falter :
    (∃ r run', (composite [Duel.glance, Duel.debt]).execute (Duel.context "ann") default = .ok r run' ∧
      (chained Duel.glance (constantly Duel.debt)).execute (Duel.context "ann") default = .ok r run' ∧
      r.success = false ∧ r.state ≠ Duel.table ∧
      r.reason? = some (.str FailureReason.insufficientResource.name)) ∧
    (∃ r run', (chained Duel.bandage (linking Duel.falter Duel.goOn)).execute (Duel.context "ann")
        default = .ok r run' ∧
      (chained (chained Duel.bandage Duel.falter) Duel.goOn).execute (Duel.context "ann") default =
        .ok r run' ∧
      r.messages = ["ann heals 1 health", "stumbled"] ∧ r.reason? = none) ∧
    ∃ r run', (chained (chained Duel.debt Duel.falter) Duel.goOn).execute (Duel.context "bob") default =
        .ok r run' ∧
      (chained Duel.debt (linking Duel.falter Duel.goOn)).execute (Duel.context "bob") default =
        .ok r run' ∧ r.state = Duel.table := by
  obtain ⟨hconstant, hregroup⟩ := execute_chains
  have hglance : Duel.glance.Native := Library.native (.leaf trivial)
  have hdebt : Duel.debt.Native := Library.native (.leaf trivial)
  rw [hconstant _ _ hglance hdebt, hregroup Duel.bandage Duel.falter Duel.goOn Duel.goOn_congr,
    hregroup Duel.debt Duel.falter Duel.goOn Duel.goOn_congr]
  exact ⟨⟨_, _, rfl, rfl, rfl, by decide +kernel, rfl⟩, ⟨_, _, rfl, rfl, by decide +kernel, rfl⟩,
    ⟨_, _, rfl, rfl, rfl⟩⟩

end Effect

end Cardplay

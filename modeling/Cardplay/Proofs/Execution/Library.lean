import Cardplay.Proofs.Execution.Answer

/-!
# Library effects

`Effect.BuiltFrom allowed` holds of the finite trees over allowed leaves and all seven combinators, with
predicates that always answer and continuations that always answer such a tree again. A relation between
the state before and the state after that every allowed leaf keeps is kept by all of these trees
(`Effect.BuiltFrom.serves`), provided that it is reflexive, transitive and kept by a merge.
-/

set_option autoImplicit false

namespace Cardplay

/-- What must be known of a relation `S` on states with `I` so that combining behaviours keeps it. -/
structure Lawful (I : GameState → Prop) (S : GameState → GameState → Prop) : Prop where
  refl : ∀ {s}, I s → S s s
  trans : ∀ {s t u}, S s t → S t u → S s u
  keeps : ∀ {s t}, I s → S s t → I t
  merge : ∀ {base siblings}, I base → (∀ s ∈ siblings, S base s) →
    ∃ t, base.merge siblings = .ok t ∧ S base t

/-- On every state with `I` the behaviour answers, with a state that `S` relates to the given one. -/
def Serves (I : GameState → Prop) (S : GameState → GameState → Prop) (b : Behaviour) : Prop :=
  ∀ c run, I c.state → ∃ r run', b c run = .ok r run' ∧ S c.state r.state

namespace Serves
variable {I : GameState → Prop} {S : GameState → GameState → Prop}
variable {b : Behaviour} {bs : List Behaviour}

theorem pipeline (laws : Lawful I S) (h : ∀ b ∈ bs, Serves I S b) :
    Serves I S (Behaviour.pipeline bs) := by
  induction bs with
  | nil =>
    intro c run hc
    exact ⟨_, _, Behaviour.pipeline_nil_eq_ok_iff.mpr ⟨rfl, rfl⟩, laws.refl hc⟩
  | cons b bs ih =>
    intro c run hc
    obtain ⟨first, mid, hb, hS⟩ := h b List.mem_cons_self c run hc
    have hrest := ih fun x hx => h x (List.mem_cons_of_mem b hx)
    cases hs : first.success with
    | true =>
      obtain ⟨last, run', hp, hS'⟩ := hrest (c.withState first.state) mid (laws.keeps hc hS)
      exact ⟨_, run', Behaviour.pipeline_cons_eq_ok_iff.mpr
        ⟨first, mid, hb, Or.inl ⟨hs, last, hp, rfl⟩⟩, laws.trans hS hS'⟩
    | false =>
      exact ⟨_, mid, Behaviour.pipeline_cons_eq_ok_iff.mpr
        ⟨first, mid, hb, Or.inr ⟨hs, rfl, rfl⟩⟩, hS⟩

theorem gather (h : ∀ b ∈ bs, Serves I S b) (c : Context) (run : Run) (hc : I c.state) :
    ∃ rs run', Behaviour.gather bs c run = .ok rs run' ∧ ∀ r ∈ rs, S c.state r.state :=
  Behaviour.gather_answers (fun b hb run => h b hb c run hc) run

theorem parallel (laws : Lawful I S) (h : ∀ b ∈ bs, Serves I S b) :
    Serves I S (Behaviour.parallel bs) := by
  intro c run hc
  obtain ⟨rs, mid, hg, hS⟩ := gather h c run hc
  cases hf : rs.filter fun q => !q.success with
  | nil =>
    have hmerge : ∀ s ∈ rs.map Result.state, S c.state s := by
      intro s hs
      obtain ⟨r, hr, rfl⟩ := List.mem_map.mp hs
      exact hS r hr
    obtain ⟨t, ht, hSt⟩ := laws.merge hc hmerge
    exact ⟨_, mid, Behaviour.parallel_eq_ok_iff.mpr
      ⟨rs, mid, hg, Or.inl ⟨hf, rfl, t, ht, rfl⟩⟩, hSt⟩
  | cons first others =>
    exact ⟨_, _, Behaviour.parallel_eq_ok_iff.mpr
      ⟨rs, mid, hg, Or.inr ⟨first, others, hf, rfl, rfl⟩⟩, laws.refl hc⟩

theorem chained (laws : Lawful I S) (h : Serves I S b) {second : Result → Behaviour}
    (h' : ∀ r, Serves I S (second r)) : Serves I S (Behaviour.chained b second) := by
  intro c run hc
  obtain ⟨first, mid, hb, hS⟩ := h c run hc
  cases hs : first.success with
  | true =>
    obtain ⟨last, run', hl, hS'⟩ := h' first (c.withState first.state) mid (laws.keeps hc hS)
    exact ⟨_, run', Behaviour.chained_eq_ok_iff.mpr
      ⟨first, mid, hb, Or.inl ⟨hs, last, hl, rfl⟩⟩, laws.trans hS hS'⟩
  | false =>
    exact ⟨_, mid, Behaviour.chained_eq_ok_iff.mpr
      ⟨first, mid, hb, Or.inr ⟨hs, rfl, rfl⟩⟩, hS⟩

theorem conditional (laws : Lawful I S) (h : Serves I S b) {holds : Condition}
    (total : ∀ c g, ∃ met g', (holds c g).answer = .ok met g') (otherwise : String) :
    Serves I S (Behaviour.conditional b holds otherwise) := by
  intro c run hc
  obtain ⟨met, g, hm⟩ := total c run.generator
  cases met with
  | true =>
    obtain ⟨r, run', hb, hS⟩ := h c (run.heard (holds c run.generator) g) hc
    exact ⟨r, run', Behaviour.conditional_eq_ok_iff.mpr
      ⟨true, g, hm, Or.inl ⟨rfl, hb⟩⟩, hS⟩
  | false =>
    exact ⟨_, _, Behaviour.conditional_eq_ok_iff.mpr
      ⟨false, g, hm, Or.inr ⟨rfl, rfl, rfl⟩⟩, laws.refl hc⟩

theorem repeated (laws : Lawful I S) (h : Serves I S b) {times : Int}
    (ht : times ≤ Behaviour.maxTimes) : Serves I S (Behaviour.repeated b times) := by
  intro c run hc
  have hp : Serves I S (Behaviour.pipeline (List.replicate times.toNat b)) :=
    pipeline laws fun x hx => (List.eq_of_mem_replicate hx) ▸ h
  obtain ⟨r, run', hr, hS⟩ := hp c run hc
  exact ⟨r, run', Behaviour.repeated_eq_ok_iff.mpr ⟨ht, hr⟩, hS⟩

theorem contextual (h : Serves I S b) (key : String) (value : Value) :
    Serves I S (Behaviour.contextual b key value) := fun c run hc =>
  h (c.withValue key value) run hc

end Serves

namespace Effect

/-- Trees over allowed leaves whose predicates and continuations never raise. -/
inductive BuiltFrom (allowed : Leaf → Prop) : Effect → Prop
  | leaf {l : Leaf} (h : allowed l) : BuiltFrom allowed (.leaf l)
  | composite {children : List Effect} (h : ∀ child ∈ children, BuiltFrom allowed child) :
      BuiltFrom allowed (.composite children)
  | sequential {children : List Effect} (h : ∀ child ∈ children, BuiltFrom allowed child) :
      BuiltFrom allowed (.sequential children)
  | parallel {children : List Effect} (h : ∀ child ∈ children, BuiltFrom allowed child) :
      BuiltFrom allowed (.parallel children)
  | chained {first : Effect} {next : Result → Generator → EStateM.Result Error Generator Effect}
      (h : BuiltFrom allowed first) (total : ∀ r g, ∃ e g', next r g = .ok e g')
      (h' : ∀ r g e g', next r g = .ok e g' → BuiltFrom allowed e) :
      BuiltFrom allowed (.chained first next)
  | conditional {child : Effect} {holds : Condition} (h : BuiltFrom allowed child)
      (total : ∀ c g, ∃ met g', (holds c g).answer = .ok met g') :
      BuiltFrom allowed (.conditional child holds)
  | repeated {child : Effect} {times : Int} (h : BuiltFrom allowed child)
      (ht : times ≤ Behaviour.maxTimes) : BuiltFrom allowed (.repeated child times)
  | contextual {child : Effect} {key : String} {value : Value} (h : BuiltFrom allowed child) :
      BuiltFrom allowed (.contextual child key value)

/-- The trees that the library's own nodes make up. -/
def Library (e : Effect) : Prop := e.BuiltFrom fun _ => True

theorem BuiltFrom.serves {I : GameState → Prop} {S : GameState → GameState → Prop}
    {allowed : Leaf → Prop} {e : Effect} (laws : Lawful I S)
    (leaves : ∀ l, allowed l → Serves I S l.execute) (h : e.BuiltFrom allowed) :
    Serves I S e.execute := by
  induction h with
  | leaf h => exact leaves _ h
  | composite _ ih =>
    rw [execute_composite]
    exact Serves.pipeline laws (by simpa using ih)
  | sequential _ ih =>
    rw [execute_sequential]
    exact Serves.pipeline laws (by simpa using ih)
  | parallel _ ih =>
    rw [execute_parallel]
    exact Serves.parallel laws (by simpa using ih)
  | chained _ total _ ih ih' =>
    rw [execute_chained]
    refine Serves.chained laws ih ?_
    intro r c run hc
    obtain ⟨e, g, he⟩ := total r run.generator
    obtain ⟨q, run', hq, hS⟩ := ih' r _ e g he c { run with generator := g } hc
    exact ⟨q, run', executeChoice_eq_ok_iff.mpr ⟨e, g, he, hq⟩, hS⟩
  | conditional _ total ih => exact Serves.conditional laws ih total _
  | repeated _ ht ih => exact Serves.repeated laws ih ht
  | contextual _ ih => exact Serves.contextual ih _ _

end Effect

end Cardplay

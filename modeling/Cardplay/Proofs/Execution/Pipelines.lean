import Cardplay.Proofs.Execution.Failure

/-!
# Pipelines in pipelines

A pipeline that stands inside a pipeline runs as if its parts stood there themselves
(`Behaviour.pipeline_flatten`): a pipeline over two lists is the pipeline over the first followed by the one
over the second, and a pipeline that has failed is not changed by the failure of the pipeline around it. So
`compose` is associative with the empty pipeline as its unit, and the two kinds of pipelines stand for each
other (`Effect.execute_pipelines`) except where a conditional effect quotes the description of its child.
-/

set_option autoImplicit false

namespace Cardplay

namespace Exec
variable {α β : Type} {x : Exec α} {f g : α → Exec β}

theorem bind_congr_of_ok (h : ∀ run a run', x run = .ok a run' → f a run' = g a run') :
    x >>= f = x >>= g := by
  funext run
  change EStateM.bind x f run = EStateM.bind x g run
  unfold EStateM.bind
  cases hx : x run with
  | ok a run' => exact h run a run' hx
  | error e run' => rfl

end Exec

namespace Result
variable (r : Result) (earlier later : List String)

@[simp] theorem success_after : (r.after earlier).success = r.success := rfl

@[simp] theorem state_after : (r.after earlier).state = r.state := rfl

@[simp] theorem messages_after : (r.after earlier).messages = earlier ++ r.messages := rfl

@[simp] theorem after_nil : r.after [] = r := rfl

@[simp] theorem after_after : (r.after later).after earlier = r.after (earlier ++ later) := by
  simp [after]

end Result

namespace Behaviour
variable {bs : List Behaviour} {c : Context} {run run' : Run} {r : Result}

@[simp] theorem success_stopAt : (stopAt r).success = false := rfl

theorem stopAt_stopAt : stopAt (stopAt r) = stopAt r := by
  have hreason : (stopAt r).reasonOrChild = r.reasonOrChild :=
    Result.reasonOrChild_of_truthy (Result.reason?_fail _ _ _) r.truthy_reasonOrChild
  unfold stopAt at hreason ⊢
  rw [hreason]
  rfl

/-- A pipeline around a failed pipeline finds nothing left to change. -/
theorem stopAt_of_pipeline (h : pipeline bs c run = .ok r run') (hf : r.success = false) :
    stopAt r = r := by
  induction bs generalizing c run r with
  | nil =>
    obtain ⟨rfl, _⟩ := pipeline_nil_eq_ok_iff.mp h
    cases hf
  | cons b bs ih =>
    obtain ⟨first, mid, _, hcases⟩ := pipeline_cons_eq_ok_iff.mp h
    rcases hcases with ⟨_, last, hlast, rfl⟩ | ⟨_, rfl, _⟩
    · exact congrArg (Result.after · first.messages) (ih hlast hf)
    · exact stopAt_stopAt

theorem pipeline_append (xs ys : List Behaviour) :
    pipeline (xs ++ ys) = chained (pipeline xs) fun _ => pipeline ys := by
  induction xs with
  | nil =>
    funext c
    simp [pipeline, chained, Result.ok]
  | cons b xs ih =>
    funext c
    simp only [List.cons_append, pipeline, ih, chained, bind_assoc]
    refine bind_congr fun first => ?_
    -- After a failed first part neither side runs anything.
    cases hs : first.success with
    | true =>
      simp only [if_true, bind_assoc]
      refine bind_congr fun last => ?_
      cases hl : last.success with
      | true => simp [hl]
      | false => simp [hl]
    | false => simp

theorem pipeline_cons_pipeline (ys zs : List Behaviour) :
    pipeline (pipeline ys :: zs) = pipeline (ys ++ zs) := by
  rw [pipeline_append]
  funext c
  -- The two sides differ in `stopAt` only, which is idle on what a pipeline answers.
  refine Exec.bind_congr_of_ok fun run r run' hr => ?_
  cases hs : r.success with
  | true => rfl
  | false => simp [stopAt_of_pipeline hr hs]

theorem pipeline_flatten (xs ys zs : List Behaviour) :
    pipeline (xs ++ [pipeline ys] ++ zs) = pipeline (xs ++ ys ++ zs) := by
  rw [List.append_assoc, List.append_assoc, pipeline_append, pipeline_append xs,
    List.singleton_append, pipeline_cons_pipeline]

end Behaviour

namespace Effect

/-- The effects that run the children one after another. -/
inductive PipelineOver (children : List Effect) : Effect → Prop
  | composite : PipelineOver children (.composite children)
  | sequential : PipelineOver children (.sequential children)

/-- Two outcomes of a choice that differ at most in the effect chosen. -/
def SameDraw : EStateM.Result Error Generator Effect → EStateM.Result Error Generator Effect → Prop
  | .ok _ g, .ok _ g' => g = g'
  | .error e g, .error e' g' => e = e' ∧ g = g'
  | _, _ => False

/-- The trees differ at most in the kinds of their pipelines. Below a condition that may fail to hold, the
descriptions have to agree, since they are quoted then. -/
inductive Recast : Effect → Effect → Prop
  | leaf (l : Leaf) : Recast (.leaf l) (.leaf l)
  | custom (l : CustomLeaf) : Recast (.custom l) (.custom l)
  | pipeline {pairs : List (Effect × Effect)} {e e' : Effect}
      (he : PipelineOver (pairs.map Prod.fst) e) (he' : PipelineOver (pairs.map Prod.snd) e')
      (h : ∀ pair ∈ pairs, Recast pair.1 pair.2) : Recast e e'
  | parallel {pairs : List (Effect × Effect)} (h : ∀ pair ∈ pairs, Recast pair.1 pair.2) :
      Recast (.parallel (pairs.map Prod.fst)) (.parallel (pairs.map Prod.snd))
  | chained {first first' : Effect}
      {next next' : Result → Generator → EStateM.Result Error Generator Effect}
      (h : Recast first first') (same : ∀ r g, SameDraw (next r g) (next' r g))
      (h' : ∀ r g e e' g₁ g₂, next r g = .ok e g₁ → next' r g = .ok e' g₂ → Recast e e') :
      Recast (.chained first next) (.chained first' next')
  | conditional {child child' : Effect} {holds : Condition} (h : Recast child child')
      (quoted : child.description = child'.description ∨ ∀ c g g', (holds c g).answer ≠ .ok false g') :
      Recast (.conditional child holds) (.conditional child' holds)
  | repeated {child child' : Effect} (h : Recast child child') (times : Int) :
      Recast (.repeated child times) (.repeated child' times)
  | contextual {child child' : Effect} (h : Recast child child') (key : String) (value : Value) :
      Recast (.contextual child key value) (.contextual child' key value)

variable {children xs ys zs : List Effect} {e e' f p : Effect}

theorem PipelineOver.execute_eq (h : PipelineOver children e) :
    e.execute = Behaviour.pipeline (children.map execute) := by
  cases h with
  | composite => exact execute_composite children
  | sequential => exact execute_sequential children

theorem PipelineOver.execute_eq_composite (h : PipelineOver children e) :
    e.execute = (Effect.composite children).execute :=
  h.execute_eq.trans (execute_composite children).symm

theorem execute_flatten (hp : PipelineOver ys p) (he : PipelineOver (xs ++ [p] ++ zs) e) :
    e.execute = (composite (xs ++ ys ++ zs)).execute := by
  rw [he.execute_eq, execute_composite]
  simp only [List.map_append, List.map_cons, List.map_nil, hp.execute_eq]
  exact Behaviour.pipeline_flatten _ _ _

theorem execute_compose_assoc (e f g : Effect) :
    ((e.compose f).compose g).execute = (e.compose (f.compose g)).execute := by
  have hleft : ((e.compose f).compose g).execute = (composite ([] ++ [e, f] ++ [g])).execute :=
    execute_flatten .composite .composite
  have hright : (e.compose (f.compose g)).execute = (composite ([e] ++ [f, g] ++ [])).execute :=
    execute_flatten .composite .composite
  exact hleft.trans hright.symm

/-- Two pipelines that are composed are one pipeline. -/
theorem execute_compose (he : PipelineOver xs e) (hf : PipelineOver ys f) :
    (e.compose f).execute = (composite (xs ++ ys)).execute := by
  have hfirst : (e.compose f).execute = (composite ([] ++ xs ++ [f])).execute :=
    execute_flatten he .composite
  have hsecond : (composite (xs ++ [f] ++ [])).execute = (composite (xs ++ ys ++ [])).execute :=
    execute_flatten hf .composite
  rw [List.nil_append] at hfirst
  rw [List.append_nil, List.append_nil] at hsecond
  exact hfirst.trans hsecond

theorem executeChoice_congr {choice choice' : EStateM.Result Error Generator Effect}
    (same : SameDraw choice choice')
    (h : ∀ e e' g g', choice = .ok e g → choice' = .ok e' g' → e.execute = e'.execute) :
    executeChoice choice = executeChoice choice' := by
  cases choice with
  | ok e g =>
    cases choice' with
    | ok e' g' =>
      cases same
      funext c run
      rw [executeChoice, executeChoice, h e e' g g rfl rfl]
    | error e' g' => cases same
  | error e g =>
    cases choice' with
    | ok e' g' => cases same
    | error e' g' =>
      obtain ⟨rfl, rfl⟩ := same
      rfl

theorem conditional_congr {b : Behaviour} {holds : Condition} {otherwise otherwise' : String}
    (quoted : otherwise = otherwise' ∨ ∀ c g g', (holds c g).answer ≠ .ok false g') :
    Behaviour.conditional b holds otherwise = Behaviour.conditional b holds otherwise' := by
  rcases quoted with rfl | hnever
  · rfl
  · funext c
    refine Exec.bind_congr_of_ok fun run met run' hmet => ?_
    obtain ⟨g, hg, _⟩ := Exec.consult_eq_ok_iff.mp hmet
    cases met with
    | true => rfl
    | false => exact absurd hg (hnever c _ g)

theorem Recast.execute_eq (h : Recast e e') : e.execute = e'.execute := by
  have hmap {pairs : List (Effect × Effect)} (ih : ∀ pair ∈ pairs, pair.1.execute = pair.2.execute) :
      (pairs.map Prod.fst).map execute = (pairs.map Prod.snd).map execute := by
    rw [List.map_map, List.map_map]
    exact List.map_congr_left ih
  induction h with
  | leaf l => rfl
  | custom l => rfl
  | pipeline he he' _ ih => rw [he.execute_eq, he'.execute_eq, hmap ih]
  | parallel _ ih => rw [execute_parallel, execute_parallel, hmap ih]
  | chained _ same _ ih ih' =>
    rw [execute_chained, execute_chained, ih]
    have hnext := fun r g => executeChoice_congr (same r g) (ih' r g)
    congr 1
    funext r c run
    rw [hnext]
  | conditional _ quoted ih =>
    rw [execute_conditional, execute_conditional, ih]
    exact conditional_congr (quoted.imp_left fun h => by rw [h])
  | repeated _ times ih => rw [execute_repeated, execute_repeated, ih]
  | contextual _ key value ih => rw [execute_contextual, execute_contextual, ih]

theorem description_composite_ne_sequential (xs ys : List Effect) :
    (composite xs).description ≠ (sequential ys).description := by
  have hcomposite : (composite xs).description.toList.head? = some 'C' := by
    rw [show (composite xs).description = "Composite: " ++ _ from rfl, String.toList_append]
    rfl
  have hsequential : (sequential ys).description.toList.head? = some 'S' := by
    rw [show (sequential ys).description = "Sequential: " ++ _ from rfl, String.toList_append]
    rfl
  intro h
  rw [h, hsequential] at hcomposite
  cases hcomposite

/-- Where the condition does not hold, the kind of the pipeline can be read off the message. -/
theorem execute_conditional_ne {holds : Condition} {c : Context} {run : Run} {g : Generator}
    (hmet : (holds c run.generator).answer = .ok false g) (ys : List Effect) :
    (conditional (composite ys) holds).execute c run ≠
      (conditional (sequential ys) holds).execute c run := by
  have hdeclined (child : Effect) : (conditional child holds).execute c run =
      .ok (.ok c.state [s!"Condition not met for: {child.description}"])
        (run.heard (holds c run.generator) g) := by
    rw [execute_conditional]
    exact Behaviour.conditional_eq_ok_iff.mpr ⟨false, g, hmet, Or.inr ⟨rfl, rfl, rfl⟩⟩
  rw [hdeclined, hdeclined]
  intro h
  have htext : toString (composite ys).description = toString (sequential ys).description := by
    simpa [Result.ok] using h
  exact description_composite_ne_sequential ys ys htext

theorem Recast.refl (e : Effect) : Recast e e := by
  have hfst (children : List Effect) :
      (children.map fun child => (child, child)).map Prod.fst = children := by
    simp [Function.comp_def]
  have hsnd (children : List Effect) :
      (children.map fun child => (child, child)).map Prod.snd = children := by
    simp [Function.comp_def]
  have hpairs (children : List Effect) (ih : ∀ child ∈ children, Recast child child) :
      ∀ pair ∈ children.map fun child => (child, child), Recast pair.1 pair.2 := by
    simpa using ih
  induction e using Effect.induction with
  | leaf l => exact .leaf l
  | custom l => exact .custom l
  | composite children ih =>
    exact .pipeline ((hfst children).symm ▸ .composite) ((hsnd children).symm ▸ .composite)
      (hpairs children ih)
  | sequential children ih =>
    exact .pipeline ((hfst children).symm ▸ .sequential) ((hsnd children).symm ▸ .sequential)
      (hpairs children ih)
  | parallel children ih =>
    have hparallel := Recast.parallel (hpairs children ih)
    rwa [hfst, hsnd] at hparallel
  | chained first next ih ih' =>
    refine .chained ih ?_ ?_
    · intro r g
      cases next r g with
      | ok e g' => rfl
      | error e g' => exact ⟨rfl, rfl⟩
    · intro r g e e' g₁ g₂ he he'
      rw [he] at he'
      cases he'
      exact ih' r g e g₁ he
  | conditional child holds ih => exact .conditional ih (Or.inl rfl)
  | repeated child times ih => exact .repeated ih times
  | contextual child key value ih => exact .contextual ih key value

/-- Inside a pipeline, composing with an empty one on either side makes no difference. -/
theorem execute_compose_empty (hp : PipelineOver [] p) (he : PipelineOver (xs ++ [f] ++ zs) e)
    (he' : PipelineOver (xs ++ [p.compose f] ++ zs) e' ∨ PipelineOver (xs ++ [f.compose p] ++ zs) e') :
    e'.execute = e.execute := by
  rw [he.execute_eq_composite]
  rcases he' with he' | he'
  · have houter : e'.execute = (composite (xs ++ [p] ++ ([f] ++ zs))).execute := by
      simpa using execute_flatten .composite he'
    have hinner : (composite (xs ++ [p] ++ ([f] ++ zs))).execute =
        (composite (xs ++ [] ++ ([f] ++ zs))).execute := execute_flatten hp .composite
    simpa using houter.trans hinner
  · have houter : e'.execute = (composite (xs ++ [f] ++ [p] ++ zs)).execute := by
      simpa using execute_flatten .composite he'
    have hinner : (composite (xs ++ [f] ++ [p] ++ zs)).execute =
        (composite (xs ++ [f] ++ [] ++ zs)).execute := execute_flatten hp .composite
    simpa using houter.trans hinner

end Effect

namespace Duel

theorem self_mem_healTargets : Target.self ∈ healTargets := by decide

def bandage : Effect := .leaf (.heal 1 ⟨.self, self_mem_healTargets⟩)

def glance : Effect := .leaf (.draw 1 toSelf)

def stumbling : List Effect := [glance, .custom stumble]

/-- A pipeline of one kind within a pipeline of the other. -/
def brawl (outer inner : List Effect → Effect) : Effect :=
  outer ([bandage] ++ [inner stumbling] ++ [glance])

def always : Condition := fun _ g => { answer := .ok true g }

def never : Condition := fun _ g => { answer := .ok false g }

end Duel

namespace Effect

/-- A pipeline within a pipeline of either kind executes as its parts in its place, with the same state,
messages and metadata, the same error, log, draws and journal in every context. So composing is associative,
has the empty pipelines as units, and nothing tells the two kinds of pipelines apart but the message of a
condition that does not hold. -/
theorem execute_pipelines :
    (∀ xs ys zs p e, PipelineOver ys p → PipelineOver (xs ++ [p] ++ zs) e →
      e.execute = (composite (xs ++ ys ++ zs)).execute) ∧
    (∀ e f g : Effect, ((e.compose f).compose g).execute = (e.compose (f.compose g)).execute) ∧
    (∀ p, PipelineOver [] p →
      (∀ xs e, PipelineOver xs e →
        (p.compose e).execute = e.execute ∧ (e.compose p).execute = e.execute) ∧
      ∀ xs zs f e e', PipelineOver (xs ++ [f] ++ zs) e →
        PipelineOver (xs ++ [p.compose f] ++ zs) e' ∨ PipelineOver (xs ++ [f.compose p] ++ zs) e' →
          e'.execute = e.execute) ∧
    (∀ e e', Recast e e' → e.execute = e'.execute) ∧
    ∀ ys holds c run g, (holds c run.generator).answer = .ok false g →
      (conditional (composite ys) holds).execute c run ≠
        (conditional (sequential ys) holds).execute c run := by
  refine ⟨fun xs ys zs p e hp he => execute_flatten hp he, execute_compose_assoc, ?_,
    fun e e' h => h.execute_eq, fun ys _ _ _ _ hmet => execute_conditional_ne hmet ys⟩
  intro p hp
  refine ⟨?_, fun xs zs f e e' he he' => execute_compose_empty hp he he'⟩
  intro xs e he
  constructor
  · rw [execute_compose hp he, List.nil_append, he.execute_eq_composite]
  · rw [execute_compose he hp, List.append_nil, he.execute_eq_composite]

theorem execute_pipelines_brawl :
    (Duel.brawl sequential composite).execute =
      (composite ([Duel.bandage] ++ Duel.stumbling ++ [Duel.glance])).execute ∧
    (parallel [conditional (Duel.brawl sequential composite) Duel.always]).execute =
      (parallel [conditional (Duel.brawl composite sequential) Duel.always]).execute ∧
    ((composite []).compose (Duel.brawl composite sequential)).execute =
      (Duel.brawl composite sequential).execute ∧
    (conditional (composite []) Duel.never).execute (Duel.context "bob") default ≠
      (conditional (sequential []) Duel.never).execute (Duel.context "bob") default := by
  obtain ⟨hflatten, _, hunit, hrecast, hquoted⟩ := execute_pipelines
  refine ⟨hflatten _ _ _ _ _ .composite .sequential, hrecast _ _ ?_,
    ((hunit _ .composite).1 _ _ .composite).1, hquoted [] Duel.never _ _ _ rfl⟩
  have hinner : Recast (composite Duel.stumbling) (sequential Duel.stumbling) :=
    @Recast.pipeline (Duel.stumbling.map fun child => (child, child)) _ _ .composite .sequential
      (by simp [Duel.stumbling, Recast.refl])
  have houter : Recast (Duel.brawl sequential composite) (Duel.brawl composite sequential) :=
    @Recast.pipeline
      [(Duel.bandage, Duel.bandage), (composite Duel.stumbling, sequential Duel.stumbling),
        (Duel.glance, Duel.glance)] _ _ .sequential .composite (by simp [hinner, Recast.refl])
  have hnever : ∀ c g g', (Duel.always c g).answer ≠ .ok false g' := fun c g g' h => by cases h
  exact @Recast.parallel [(_, _)]
    (List.forall_mem_singleton.mpr (.conditional houter (Or.inr hnever)))

/-- The message of a condition that does not hold names the kind of the pipeline. -/
theorem conditional_quotes_kind : ∃ r r' run run',
    (conditional (composite Duel.stumbling) Duel.never).execute (Duel.context "ann") default =
      .ok r run ∧
    (conditional (sequential Duel.stumbling) Duel.never).execute (Duel.context "ann") default =
      .ok r' run' ∧
    r.messages = ["Condition not met for: Composite: Draw 1 card (self), Stumble"] ∧
    r.messages ≠ r'.messages := by
  refine ⟨_, _, _, _, rfl, rfl, ?_, ?_⟩
  · decide +kernel
  · decide +kernel

end Effect

end Cardplay

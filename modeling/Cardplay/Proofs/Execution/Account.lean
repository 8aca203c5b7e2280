import Cardplay.Proofs.Execution.Visit

/-!
# Accounts of executions

An account relates what an execution was given, its visits, what it answered and the run that it left. It
holds of every execution that answers (`TourLaw.holds`) when it holds at leaves, at parallel groups and where a
condition does not hold, and is kept by going on after a success, by stopping at a failure and by entering any
other node. A pipeline is made of the latter three, whether its parts are listed, repeated or chosen on the way.
-/

set_option autoImplicit false

namespace Cardplay

/-- The flag says whether the visits are made for a group. -/
abbrev Account := Bool → Context → Run → List Visit → Result → Run → Prop

def Part.Keeps (P : Account) (p : Part) : Prop := ∀ {c run r run'},
  p.behaviour c run = .ok r run' → P false c run (p.tour c run) r run'

/-- What must be known of an account so that it holds of every execution. -/
structure TourLaw (P : Account) : Prop where
  leaf : ∀ {e c run r run'}, e.isLeaf = true → e.execute c run = .ok r run' →
    P false c run (Tour.enter e (fun _ _ => []) c run) r run'
  nothing : ∀ group c run, P group c run [] (.ok c.state []) run
  next : ∀ {group c run mid run' vs ws first last}, P false c run vs first mid →
    first.success = true → P group (c.withState first.state) mid ws last run' →
      P group c run (vs ++ ws) (last.after first.messages) run'
  stop : ∀ {c run run' vs first}, P false c run vs first run' → first.success = false →
    P true c run vs (Behaviour.stopAt first) run'
  enter : ∀ {e inner c run r run'}, e.isLeaf = false → e.isParallel = false →
    Call.declines ⟨e, c, run⟩ = false →
      P e.isGroup c (Call.entered ⟨e, c, run⟩) (inner c run) r run' →
        P false c run (Tour.enter e inner c run) r run'
  declined : ∀ {child holds c run g}, (holds c run.generator).answer = .ok false g →
    P false c run [⟨⟨.conditional child holds, c, run⟩, []⟩]
      (.ok c.state [s!"Condition not met for: {child.description}"])
      (run.heard (holds c run.generator) g)
  parallel : ∀ {children c run r run'}, (∀ p ∈ children.map Effect.part, p.Keeps P) →
    (Effect.parallel children).execute c run = .ok r run' →
      P false c run ((Effect.parallel children).visits c run) r run'
  drawn : ∀ {group c run g vs r run'}, P group c { run with generator := g } vs r run' →
    P group c run vs r run'
  valued : ∀ {group c key value run vs r run'}, P group (c.withValue key value) run vs r run' →
    P group c run vs r run'

namespace TourLaw
variable {P : Account} {c : Context} {run run' : Run} {r : Result}

theorem inTurn (law : TourLaw P) {ps : List Part} (h : ∀ p ∈ ps, p.Keeps P)
    (hr : Behaviour.pipeline (ps.map Part.behaviour) c run = .ok r run') :
    P true c run (Tour.inTurn ps c run) r run' := by
  induction ps generalizing c run r with
  | nil =>
    obtain ⟨rfl, rfl⟩ := Behaviour.pipeline_nil_eq_ok_iff.mp hr
    exact law.nothing true c run'
  | cons p rest ih =>
    obtain ⟨first, mid, hp, hcases⟩ := Behaviour.pipeline_cons_eq_ok_iff.mp hr
    have hfirst := h p List.mem_cons_self hp
    rcases hcases with ⟨hs, last, hlast, rfl⟩ | ⟨hf, rfl, rfl⟩
    · have hrest := ih (fun q hq => h q (List.mem_cons_of_mem p hq)) hlast
      simpa [Tour.inTurn, Tour.goOn, hp, hs] using law.next hfirst hs hrest
    · simpa [Tour.inTurn, Tour.goOn, hp, hf] using law.stop hfirst hf

theorem keeps_parts {children : List Effect} (h : ∀ child ∈ children, ∀ {c run run' r},
      child.execute c run = .ok r run' → P false c run (child.visits c run) r run') :
    ∀ p ∈ children.map Effect.part, p.Keeps P := by
  intro p hp
  obtain ⟨child, hchild, rfl⟩ := List.mem_map.mp hp
  exact h child hchild

theorem holds (law : TourLaw P) {e : Effect} (h : e.execute c run = .ok r run') :
    P false c run (e.visits c run) r run' := by
  induction e using Effect.induction generalizing c run r run' with
  | leaf l => exact law.leaf rfl h
  | custom l => exact law.leaf rfl h
  | composite children ih =>
    rw [Effect.execute_composite, ← Effect.map_behaviour_part] at h
    rw [Effect.visits_composite]
    exact law.enter rfl rfl rfl (law.inTurn (keeps_parts ih) h)
  | sequential children ih =>
    rw [Effect.execute_sequential, ← Effect.map_behaviour_part] at h
    rw [Effect.visits_sequential]
    exact law.enter rfl rfl rfl (law.inTurn (keeps_parts ih) h)
  | parallel children ih => exact law.parallel (keeps_parts ih) h
  | chained first next ih ih' =>
    -- The chosen effect starts from the generator that the choice left, in a run with the same lines.
    rw [Effect.execute_chained] at h
    obtain ⟨one, mid, hone, hcases⟩ := Behaviour.chained_eq_ok_iff.mp h
    have hfirst := ih hone
    apply law.enter rfl rfl rfl
    change P false c run _ r run'
    rcases hcases with ⟨hs, last, hlast, rfl⟩ | ⟨hf, rfl, rfl⟩
    · obtain ⟨e, g, he, hlast⟩ := Effect.executeChoice_eq_ok_iff.mp hlast
      have hsecond := law.drawn (ih' one mid.generator e g he hlast)
      simpa [Effect.isGroup, Tour.goOn, hone, hs, he, Effect.choiceVisits] using
        law.next hfirst hs hsecond
    · simpa [Effect.isGroup, Tour.goOn, hone, hf] using hfirst
  | conditional child holds ih =>
    rw [Effect.execute_conditional] at h
    obtain ⟨met, g, hmet, hcases⟩ := Behaviour.conditional_eq_ok_iff.mp h
    have hconsult := Exec.consult_eq_ok_iff.mpr ⟨g, hmet, rfl⟩
    rcases hcases with ⟨rfl, hchild⟩ | ⟨rfl, rfl, rfl⟩
    · apply law.enter rfl rfl (Call.declines_conditional hmet)
      simpa [Effect.isGroup, Call.entered, Tour.goOn, hconsult] using ih hchild
    · simpa [Effect.visits, Tour.enter, Tour.goOn, hconsult] using law.declined hmet
  | repeated child times ih =>
    rw [Effect.execute_repeated] at h
    obtain ⟨htimes, hpipe⟩ := Behaviour.repeated_eq_ok_iff.mp h
    have hparts : ∀ p ∈ List.replicate times.toNat child.part, p.Keeps P := by
      intro p hp
      rw [List.eq_of_mem_replicate hp]
      exact ih
    rw [Effect.visits_repeated child htimes]
    exact law.enter rfl rfl rfl (law.inTurn hparts (by rwa [List.map_replicate]))
  | contextual child key value ih =>
    rw [Effect.execute_contextual] at h
    exact law.enter rfl rfl rfl (law.valued (ih h))

end TourLaw

/-- The account holds of every call of a group. All of them are made in one context, each in the run that the
one before it left. -/
inductive Gathered (P : Account) (c : Context) : Run → List Visit → List Result → Run → Prop
  | nil (run : Run) : Gathered P c run [] [] run
  | cons {run mid run' : Run} {vs ws : List Visit} {r : Result} {rs : List Result}
      (h : P false c run vs r mid) (rest : Gathered P c mid ws rs run') :
      Gathered P c run (vs ++ ws) (r :: rs) run'

theorem gathered {P : Account} {ps : List Part} {c : Context} {run run' : Run} {rs : List Result}
    (h : ∀ p ∈ ps, p.Keeps P) (hr : Behaviour.gather (ps.map Part.behaviour) c run = .ok rs run') :
    Gathered P c run (Tour.abreast ps c run) rs run' := by
  induction ps generalizing run rs with
  | nil =>
    obtain ⟨rfl, rfl⟩ := Behaviour.gather_nil_eq_ok_iff.mp hr
    exact .nil run'
  | cons p rest ih =>
    obtain ⟨r, mid, others, hp, hothers, rfl⟩ := Behaviour.gather_cons_eq_ok_iff.mp hr
    have hrest := ih (fun q hq => h q (List.mem_cons_of_mem p hq)) hothers
    simpa [Tour.abreast, Tour.goOn, hp] using Gathered.cons (h p List.mem_cons_self hp) hrest

/-- The members of a group that answers are all accounted for. Then their states are merged or, if one of them
failed, given up; the run is that of the last member up to the journal. -/
theorem gathered_parallel {P : Account} {children : List Effect} {c : Context} {run run' : Run}
    {r : Result} (h : ∀ p ∈ children.map Effect.part, p.Keeps P)
    (hr : (Effect.parallel children).execute c run = .ok r run') :
    ∃ rs mid, Gathered P c run (Tour.abreast (children.map Effect.part) c run) rs mid ∧
      r.messages = rs.flatMap Result.messages ∧ run'.lines = mid.lines ∧
      (r.state = c.state ∨ c.state.merge (rs.map Result.state) = .ok r.state) := by
  rw [Effect.execute_parallel, ← Effect.map_behaviour_part] at hr
  obtain ⟨rs, mid, hrs, hcases⟩ := Behaviour.parallel_eq_ok_iff.mp hr
  refine ⟨rs, mid, gathered h hrs, ?_⟩
  rcases hcases with ⟨_, rfl, s, hs, rfl⟩ | ⟨first, others, _, rfl, rfl⟩
  · exact ⟨rfl, rfl, Or.inr hs⟩
  · exact ⟨rfl, rfl, Or.inl rfl⟩

end Cardplay

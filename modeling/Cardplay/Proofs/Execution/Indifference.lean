import Cardplay.Proofs.Execution.Answer

/-!
# Runs that are not told apart

An execution is indifferent to a relation between runs if it answers or raises the same in related runs and
leaves related runs. Logging and drawing are all that the library's own effects do with a run, so a tree is
indifferent as soon as its custom leaves, its conditions and its continuations are
(`Effect.Indifferent.execute`). Two relations matter: `Run.Agrees`, agreement in everything but the records of
failed groups, which nothing but a custom leaf can fail to respect, and `Run.Any`, by which all runs are
related, so that what is indifferent to it draws nothing that it would use.
-/

set_option autoImplicit false

namespace Cardplay

namespace Exec
variable {α β : Type} {R : Run → Run → Prop} {x : Exec α} {f : α → Exec β} {run run' mid : Run}

def Alike (R : Run → Run → Prop) :
    EStateM.Result Error Run α → EStateM.Result Error Run α → Prop
  | .ok a run, .ok a' run' => a = a' ∧ R run run'
  | .error e run, .error e' run' => e = e' ∧ R run run'
  | _, _ => False

/-- Related runs make no difference to the answer and stay related. -/
def Indifferent (R : Run → Run → Prop) (x : Exec α) : Prop :=
  ∀ run run', R run run' → Alike R (x run) (x run')

theorem Indifferent.eq_ok {a : α} (hx : Indifferent R x) (h : R run run') (ha : x run = .ok a mid) :
    ∃ mid', x run' = .ok a mid' ∧ R mid mid' := by
  have hx := hx run run' h
  rw [ha] at hx
  cases ha' : x run' with
  | ok a' mid' =>
    rw [ha'] at hx
    obtain ⟨rfl, hmid⟩ := hx
    exact ⟨mid', rfl, hmid⟩
  | error e mid' =>
    rw [ha'] at hx
    cases hx

theorem Indifferent.pure (a : α) : Indifferent R (Pure.pure a) := fun _ _ h => ⟨rfl, h⟩

theorem Indifferent.throw (e : Error) : Indifferent R (throw e : Exec α) := fun _ _ h => ⟨rfl, h⟩

theorem Indifferent.bind_of_ok (hx : Indifferent R x)
    (hf : ∀ run a mid, x run = .ok a mid → Indifferent R (f a)) : Indifferent R (x >>= f) := by
  intro run run' h
  have hx := hx run run' h
  change Alike R (EStateM.bind x f run) (EStateM.bind x f run')
  unfold EStateM.bind
  cases hr : x run with
  | ok a mid =>
    cases hr' : x run' with
    | ok a' mid' =>
      rw [hr, hr'] at hx
      obtain ⟨rfl, hmid⟩ := hx
      exact hf run a mid hr mid mid' hmid
    | error e' mid' =>
      rw [hr, hr'] at hx
      cases hx
  | error e mid =>
    cases hr' : x run' with
    | ok a' mid' =>
      rw [hr, hr'] at hx
      cases hx
    | error e' mid' =>
      rw [hr, hr'] at hx
      exact hx

theorem Indifferent.bind (hx : Indifferent R x) (hf : ∀ a, Indifferent R (f a)) :
    Indifferent R (x >>= f) := hx.bind_of_ok fun _ a _ _ => hf a

theorem Indifferent.ite {p : Prop} [Decidable p] {y : Exec α} (hx : Indifferent R x)
    (hy : Indifferent R y) : Indifferent R (if p then x else y) := by
  by_cases hp : p
  · rw [if_pos hp]
    exact hx
  · rw [if_neg hp]
    exact hy

theorem Indifferent.orRaise (answer : Except StateError α) : Indifferent R (orRaise answer) := by
  cases answer with
  | ok a => exact .pure a
  | error e => exact .throw _

end Exec

/-- Runs that are related stay so when the same is logged in both. -/
structure Run.Loggable (R : Run → Run → Prop) : Prop where
  line : ∀ {run run'} (line : String), R run run' →
    R { run with lines := run.lines.push line } { run' with lines := run'.lines.push line }
  entry : ∀ {run run'} (entry : Entry), R run run' →
    R { run with journal := run.journal.push entry } { run' with journal := run'.journal.push entry }

variable {R : Run → Run → Prop}

theorem Exec.Indifferent.note (law : Run.Loggable R) (entry : Entry) : Indifferent R (note entry) :=
  fun _ _ h => ⟨rfl, law.entry entry h⟩

theorem Exec.Indifferent.log (law : Run.Loggable R) (c : Context) (line : String) :
    Indifferent R (c.log line) := by
  have hline : Indifferent R (modify fun run => { run with lines := run.lines.push line } : Exec Unit) :=
    fun _ _ h => ⟨rfl, law.line line h⟩
  exact hline.bind fun _ => .ite (.note law _) (.pure ())

theorem Exec.Indifferent.logAll (law : Run.Loggable R) (c : Context) (lines : List String) :
    Indifferent R (c.logAll lines) := by
  induction lines with
  | nil => exact .pure ()
  | cons line rest ih => exact (Indifferent.log law c line).bind fun _ => ih

theorem Leaf.execute_indifferent (law : Run.Loggable R) (l : Leaf) (c : Context) :
    Exec.Indifferent R (l.execute c) := by
  unfold execute
  cases l.target.resolve c.playerId c.state with
  | error e =>
    exact (Exec.Indifferent.note law _).bind fun _ => (Exec.Indifferent.log law c _).bind fun _ => .pure _
  | ok seats =>
    refine (Exec.Indifferent.orRaise _).bind fun m => ?_
    cases m with
    | refuse message => exact (Exec.Indifferent.log law c message).bind fun _ => .pure _
    | apply players messages =>
      refine (Exec.Indifferent.logAll law c messages).bind fun _ => .ite (.pure _) ?_
      exact (Exec.Indifferent.orRaise _).bind fun _ => .pure _

namespace Behaviour
variable {b : Behaviour} {bs : List Behaviour}

abbrev Indifferent (R : Run → Run → Prop) (b : Behaviour) : Prop := ∀ c, Exec.Indifferent R (b c)

theorem pipeline_indifferent (h : ∀ b ∈ bs, Indifferent R b) : Indifferent R (pipeline bs) := by
  induction bs with
  | nil => exact fun _ => .pure _
  | cons b rest ih =>
    obtain ⟨hb, hrest⟩ := List.forall_mem_cons.mp h
    intro c
    exact (hb c).bind fun r => .ite ((ih hrest _).bind fun _ => .pure _) (.pure _)

theorem gather_indifferent {c : Context} (h : ∀ b ∈ bs, Exec.Indifferent R (b c)) :
    Exec.Indifferent R (gather bs c) := by
  induction bs with
  | nil => exact .pure _
  | cons b rest ih =>
    obtain ⟨hb, hrest⟩ := List.forall_mem_cons.mp h
    exact hb.bind fun _ => (ih hrest).bind fun _ => .pure _

theorem parallel_indifferent (law : Run.Loggable R) (h : ∀ b ∈ bs, Indifferent R b) :
    Indifferent R (parallel bs) := by
  intro c
  refine (gather_indifferent fun b hb => h b hb c).bind fun rs => ?_
  cases rs.filter fun r => !r.success with
  | nil => exact (Exec.Indifferent.orRaise _).bind fun _ => .pure _
  | cons first others => exact (Exec.Indifferent.note law _).bind fun _ => .pure _

theorem chained_indifferent {second : Result → Behaviour} (h : Indifferent R b)
    (h' : ∀ r, Indifferent R (second r)) : Indifferent R (chained b second) := fun c =>
  (h c).bind fun r => .ite ((h' r _).bind fun _ => .pure _) (.pure _)

theorem conditional_indifferent {holds : Condition} (h : Indifferent R b)
    (hd : ∀ c, Exec.Indifferent R (Exec.consult (holds c))) (otherwise : String) :
    Indifferent R (conditional b holds otherwise) := fun c =>
  (hd c).bind fun _ => .ite (h c) (.pure _)

theorem repeated_indifferent (h : Indifferent R b) (times : Int) :
    Indifferent R (repeated b times) := by
  intro c
  refine .ite (.throw _) ?_
  rw [iterate_eq_pipeline]
  apply pipeline_indifferent
  intro x hx
  rw [List.eq_of_mem_replicate hx]
  exact h

end Behaviour

namespace Effect

/-- Nothing that the tree brings along tells related runs apart. -/
inductive Indifferent (R : Run → Run → Prop) : Effect → Prop
  | leaf (l : Leaf) : Indifferent R (.leaf l)
  | custom {l : CustomLeaf} (h : l.behaviour.Indifferent R) : Indifferent R (.custom l)
  | composite {children : List Effect} (h : ∀ child ∈ children, Indifferent R child) :
      Indifferent R (.composite children)
  | sequential {children : List Effect} (h : ∀ child ∈ children, Indifferent R child) :
      Indifferent R (.sequential children)
  | parallel {children : List Effect} (h : ∀ child ∈ children, Indifferent R child) :
      Indifferent R (.parallel children)
  | chained {first : Effect} {next : Result → Generator → EStateM.Result Error Generator Effect}
      (h : Indifferent R first) (hd : ∀ r, Exec.Indifferent R (Exec.draw (next r)))
      (h' : ∀ r g e g', next r g = .ok e g' → Indifferent R e) : Indifferent R (.chained first next)
  | conditional {child : Effect} {holds : Condition} (h : Indifferent R child)
      (hd : ∀ c, Exec.Indifferent R (Exec.consult (holds c))) :
      Indifferent R (.conditional child holds)
  | repeated {child : Effect} (h : Indifferent R child) (times : Int) :
      Indifferent R (.repeated child times)
  | contextual {child : Effect} (h : Indifferent R child) (key : String) (value : Value) :
      Indifferent R (.contextual child key value)

theorem executeChoice_eq_bind (choice : Generator → EStateM.Result Error Generator Effect) (c : Context) :
    (fun run => executeChoice (choice run.generator) c run) =
      (Exec.draw choice >>= fun e => e.execute c) := by
  funext run
  change _ = EStateM.bind (Exec.draw choice) (fun e => e.execute c) run
  unfold EStateM.bind Exec.draw
  cases choice run.generator with
  | ok e g => rfl
  | error e g => rfl

theorem executeChoice_indifferent {choice : Generator → EStateM.Result Error Generator Effect}
    (hd : Exec.Indifferent R (Exec.draw choice))
    (h : ∀ g e g', choice g = .ok e g' → e.execute.Indifferent R) (c : Context) :
    Exec.Indifferent R fun run => executeChoice (choice run.generator) c run := by
  rw [executeChoice_eq_bind]
  refine hd.bind_of_ok fun run e mid hrun => ?_
  obtain ⟨g, hg, _⟩ := Exec.draw_eq_ok_iff.mp hrun
  exact h run.generator e g hg c

theorem Indifferent.execute (law : Run.Loggable R) {e : Effect} (h : e.Indifferent R) :
    e.execute.Indifferent R := by
  induction h with
  | leaf l => exact l.execute_indifferent law
  | custom h => exact h
  | composite _ ih =>
    rw [execute_composite]
    exact Behaviour.pipeline_indifferent (List.forall_mem_map.mpr ih)
  | sequential _ ih =>
    rw [execute_sequential]
    exact Behaviour.pipeline_indifferent (List.forall_mem_map.mpr ih)
  | parallel _ ih =>
    rw [execute_parallel]
    exact Behaviour.parallel_indifferent law (List.forall_mem_map.mpr ih)
  | chained _ hd _ ih ih' =>
    rw [execute_chained]
    exact Behaviour.chained_indifferent ih fun r => executeChoice_indifferent (hd r) (ih' r)
  | conditional _ hd ih => exact Behaviour.conditional_indifferent ih hd _
  | repeated _ times ih => exact Behaviour.repeated_indifferent ih times
  | contextual _ key value ih => exact fun c => ih (c.withValue key value)

end Effect

def Entry.isGroupRecord (entry : Entry) : Bool :=
  entry.severity = .debug && entry.event = "Parallel group failed"

namespace Run

def Any (_ _ : Run) : Prop := True

theorem any (run run' : Run) : run.Any run' := trivial

/-- The journal without the records of failed groups. -/
def ordinary (run : Run) : List Entry := run.journal.toList.filter fun entry => !entry.isGroupRecord

/-- The runs differ in records of failed groups only. -/
structure Agrees (run run' : Run) : Prop where
  generator_eq : run'.generator = run.generator
  lines_eq : run'.lines = run.lines
  ordinary_eq : run'.ordinary = run.ordinary

namespace Agrees
variable {run run' run'' : Run}

theorem refl (run : Run) : run.Agrees run := ⟨rfl, rfl, rfl⟩

theorem symm (h : run.Agrees run') : run'.Agrees run :=
  ⟨h.generator_eq.symm, h.lines_eq.symm, h.ordinary_eq.symm⟩

theorem trans (h : run.Agrees run') (h' : run'.Agrees run'') : run.Agrees run'' :=
  ⟨h'.generator_eq.trans h.generator_eq, h'.lines_eq.trans h.lines_eq,
    h'.ordinary_eq.trans h.ordinary_eq⟩

theorem loggable : Loggable Agrees where
  line line h := ⟨h.generator_eq, congrArg (Array.push · line) h.lines_eq, h.ordinary_eq⟩
  entry entry h := by
    refine ⟨h.generator_eq, h.lines_eq, ?_⟩
    have hordinary := h.ordinary_eq
    unfold ordinary at hordinary ⊢
    rw [Array.toList_push, Array.toList_push, List.filter_append, List.filter_append, hordinary]

theorem settle {α : Type} (answer : EStateM.Result Error Generator α) :
    Exec.Indifferent Agrees (Exec.settle answer) := by
  intro run run' h
  cases answer with
  | ok a g => exact ⟨rfl, rfl, h.lines_eq, h.ordinary_eq⟩
  | error e g => exact ⟨rfl, rfl, h.lines_eq, h.ordinary_eq⟩

/-- A draw sees nothing of the journal. -/
theorem draw {α : Type} (d : Draw α) : Exec.Indifferent Agrees (Exec.draw d) := by
  intro run run' h
  change Exec.Alike Agrees (Exec.settle (d run.generator) run) (Exec.settle (d run'.generator) run')
  rw [h.generator_eq]
  exact settle _ run run' h

theorem consult (holds : Generator → Verdict) : Exec.Indifferent Agrees (Exec.consult holds) := by
  intro run run' h
  unfold Exec.consult
  rw [h.generator_eq]
  refine settle _ _ _ ⟨rfl, congrArg (· ++ _) h.lines_eq, ?_⟩
  have hordinary := h.ordinary_eq
  unfold ordinary at hordinary ⊢
  simp only [Array.toList_appendList, List.filter_append, hordinary]

end Agrees

end Run

end Cardplay

import Cardplay.Effect.Behaviour
import Cardplay.Effect.LeafRun

/-!
# Effects

An effect is a finite tree of leaves and combinators. A chained effect holds only its first part; the
second is chosen, possibly with a draw, when the first has succeeded, and that choice may raise. A custom
leaf brings its own behaviour and may carry a label outside the closed set of kinds.
-/

set_option autoImplicit false

namespace Cardplay

structure CustomLeaf where
  label : String
  type : TypeName
  description : String
  behaviour : Behaviour

inductive Effect
  | leaf (leaf : Leaf)
  | custom (leaf : CustomLeaf)
  | composite (children : List Effect)
  | sequential (children : List Effect)
  | parallel (children : List Effect)
  | chained (first : Effect) (next : Result → Generator → EStateM.Result Error Generator Effect)
  | conditional (child : Effect) (holds : Condition)
  | repeated (child : Effect) (times : Int)
  | contextual (child : Effect) (key : String) (value : Value)

namespace Effect

instance : Inhabited Effect := ⟨composite []⟩

mutual

def description : Effect → String
  | leaf l => l.description
  | custom l => l.description
  | composite children => "Composite: " ++ ", ".intercalate (descriptions children)
  | sequential children => "Sequential: " ++ " -> ".intercalate (descriptions children)
  | parallel children => "Parallel: " ++ " | ".intercalate (descriptions children)
  | chained first _ => s!"Chained: {first.description} -> (dynamic)"
  | conditional child _ => s!"Conditional: {child.description}"
  | repeated child times => s!"Repeat {times}x: {child.description}"
  | contextual child key _ => s!"With context [{key}]: {child.description}"

def descriptions : List Effect → List String
  | [] => []
  | child :: rest => child.description :: descriptions rest

end

mutual

def execute : Effect → Behaviour
  | leaf l, c => l.execute c
  | custom l, c => l.behaviour c
  | composite children, c => Behaviour.pipeline (behaviours children) c
  | sequential children, c => Behaviour.pipeline (behaviours children) c
  | parallel children, c => Behaviour.parallel (behaviours children) c
  | chained first next, c =>
    Behaviour.chained first.execute
      (fun r c run => executeChoice (next r run.generator) c run) c
  | conditional child holds, c =>
    Behaviour.conditional child.execute holds s!"Condition not met for: {child.description}" c
  | repeated child times, c => Behaviour.repeated child.execute times c
  | contextual child key value, c => Behaviour.contextual child.execute key value c

def behaviours : List Effect → List Behaviour
  | [] => []
  | child :: rest => child.execute :: behaviours rest

/-- Runs a chosen effect with the generator that the choice has left. -/
def executeChoice : EStateM.Result Error Generator Effect → Behaviour
  | .ok effect generator, c => fun run => effect.execute c { run with generator }
  | .error e generator, _ => fun run => .error e { run with generator }

end

/-- Induction over effects: a chained effect stands above every effect that its continuation may choose. -/
@[elab_as_elim]
theorem induction {P : Effect → Prop} (leaf : ∀ l, P (.leaf l)) (custom : ∀ l, P (.custom l))
    (composite : ∀ children, (∀ child ∈ children, P child) → P (.composite children))
    (sequential : ∀ children, (∀ child ∈ children, P child) → P (.sequential children))
    (parallel : ∀ children, (∀ child ∈ children, P child) → P (.parallel children))
    (chained : ∀ first next, P first → (∀ r g e g', next r g = .ok e g' → P e) →
      P (.chained first next))
    (conditional : ∀ child holds, P child → P (.conditional child holds))
    (repeated : ∀ child times, P child → P (.repeated child times))
    (contextual : ∀ child key value, P child → P (.contextual child key value)) (e : Effect) :
    P e := by
  refine @Effect.rec P (fun children => ∀ child ∈ children, P child)
    (fun choice => ∀ e g, choice = .ok e g → P e) leaf custom composite sequential
    parallel ?_ conditional repeated contextual ?_ ?_ ?_ ?_ e
  · intro first next hfirst hnext
    exact chained first next hfirst fun r g e g' he => hnext r g e g' he
  · intro child hchild
    cases hchild
  · intro child rest hchild hrest
    exact List.forall_mem_cons.mpr ⟨hchild, hrest⟩
  · intro e g he e' g' heq
    cases heq
    exact he
  · intro e g e' g' heq
    cases heq

theorem behaviours_eq_map (children : List Effect) :
    behaviours children = children.map execute := by
  induction children with
  | nil => rfl
  | cons child rest ih => simp [behaviours, ih]

theorem descriptions_eq_map (children : List Effect) :
    descriptions children = children.map description := by
  induction children with
  | nil => rfl
  | cons child rest ih => simp [descriptions, ih]

theorem execute_composite (children : List Effect) :
    (composite children).execute = Behaviour.pipeline (children.map execute) := by
  funext c
  rw [execute, behaviours_eq_map]

theorem execute_sequential (children : List Effect) :
    (sequential children).execute = Behaviour.pipeline (children.map execute) := by
  funext c
  rw [execute, behaviours_eq_map]

theorem execute_parallel (children : List Effect) :
    (parallel children).execute = Behaviour.parallel (children.map execute) := by
  funext c
  rw [execute, behaviours_eq_map]

theorem execute_chained (first : Effect)
    (next : Result → Generator → EStateM.Result Error Generator Effect) :
    (chained first next).execute = Behaviour.chained first.execute
      (fun r c run => executeChoice (next r run.generator) c run) := rfl

theorem execute_conditional (child : Effect) (holds : Condition) :
    (conditional child holds).execute = Behaviour.conditional child.execute holds
      s!"Condition not met for: {child.description}" := rfl

theorem execute_repeated (child : Effect) (times : Int) :
    (repeated child times).execute = Behaviour.repeated child.execute times := rfl

theorem execute_contextual (child : Effect) (key : String) (value : Value) :
    (contextual child key value).execute = Behaviour.contextual child.execute key value := rfl

/-- Runs the other effect after this one, stopping on failure. -/
def compose (e other : Effect) : Effect := composite [e, other]

end Effect

/-- A card with the effects it resolves when played. -/
structure AuthoredCard extends Card where
  effects : List Effect

namespace AuthoredCard

/-- One pipeline over the card's effects. -/
def asEffect (card : AuthoredCard) : Effect := .composite card.effects

end AuthoredCard

end Cardplay

import Cardplay.Effect.Introspection
import Cardplay.Proofs.Execution.Failure

/-!
# Scopes

The acting player and the extra values make up the scope of a context. A scope is lexical: what an effect
finds there follows from the nodes around it in the tree, whatever was executed before
(`Effect.execute_scoped`). This is said of every call (`Visit.InScope`) and of the execution itself: a tree
whose leaves and conditions are given their scopes in advance (`Effect.bound`) executes as the tree that is
given them by its contexts.
-/

set_option autoImplicit false

namespace Cardplay

structure Scope where
  playerId : String
  extras : OrderedMap Value

namespace Scope

def bind (scope : Scope) (binding : String × Value) : Scope :=
  { scope with extras := scope.extras.insert binding.1 binding.2 }

theorem foldl_bind (scope : Scope) (bindings : List (String × Value)) :
    bindings.foldl bind scope = ⟨scope.playerId,
      bindings.foldl (fun extras binding => extras.insert binding.1 binding.2) scope.extras⟩ := by
  induction bindings generalizing scope with
  | nil => rfl
  | cons binding rest ih =>
    rw [List.foldl_cons, ih]
    rfl

end Scope

namespace Context

def scope (c : Context) : Scope := ⟨c.playerId, c.extras⟩

def within (c : Context) (scope : Scope) : Context :=
  { c with playerId := scope.playerId, extras := scope.extras }

@[simp] theorem scope_withState (c : Context) (s : GameState) : (c.withState s).scope = c.scope := rfl

@[simp] theorem scope_withValue (c : Context) (key : String) (value : Value) :
    (c.withValue key value).scope = c.scope.bind (key, value) := rfl

end Context

namespace Effect

/-- What the effect adds to the scope of its child. -/
def binding? : Effect → Option (String × Value)
  | contextual _ key value => some (key, value)
  | _ => none

/-- One effect stands directly inside another, or is chosen by its continuation. -/
inductive Encloses : Effect → Effect → Prop
  | composite {children : List Effect} {e : Effect} (h : e ∈ children) :
      Encloses (.composite children) e
  | sequential {children : List Effect} {e : Effect} (h : e ∈ children) :
      Encloses (.sequential children) e
  | parallel {children : List Effect} {e : Effect} (h : e ∈ children) :
      Encloses (.parallel children) e
  | first (e : Effect) (next : Result → Generator → EStateM.Result Error Generator Effect) :
      Encloses (.chained e next) e
  | chosen (first : Effect) {next : Result → Generator → EStateM.Result Error Generator Effect}
      {r : Result} {g g' : Generator} {e : Effect} (h : next r g = .ok e g') :
      Encloses (.chained first next) e
  | conditional (e : Effect) (holds : Condition) : Encloses (.conditional e holds) e
  | repeated (e : Effect) (times : Int) : Encloses (.repeated e times) e
  | contextual (e : Effect) (key : String) (value : Value) : Encloses (.contextual e key value) e

end Effect

/-- The scope of the parts of an effect. -/
def Scope.under (scope : Scope) (e : Effect) : Scope := e.binding?.toList.foldl Scope.bind scope

namespace Visit
variable {e child : Effect} {k : Call} {scope : Scope} {v : Visit}

/-- The effects around the visited one, the outermost first, and the visited one itself. -/
def path (v : Visit) : List Effect := v.within.map (fun k => k.effect) ++ [v.effect]

/-- What the effects around add to the scope, the outermost first. -/
def bindings (v : Visit) : List (String × Value) := v.within.filterMap fun k => k.effect.binding?

theorem path_inside : (v.inside k).path = k.effect :: v.path := rfl

theorem bindings_inside : (v.inside k).bindings = k.effect.binding?.toList ++ v.bindings := by
  unfold bindings inside
  rw [List.filterMap_cons]
  cases k.effect.binding? with
  | none => rfl
  | some binding => rfl

/-- The path leads from the effect to the visited one, and the nodes on it alone tell the scope. -/
structure InScope (e : Effect) (scope : Scope) (v : Visit) : Prop where
  start : v.path.head? = some e
  path : v.path.IsChain Effect.Encloses
  scope_eq : v.context.scope = v.bindings.foldl Scope.bind scope

theorem InScope.inside (h : v.InScope child (scope.under e)) (he : e.Encloses child)
    (hk : k.effect = e) : (v.inside k).InScope e scope := by
  subst hk
  obtain ⟨rest, hrest⟩ := List.head?_eq_some_iff.mp h.start
  refine ⟨rfl, ?_, ?_⟩
  · have hpath := h.path
    rw [hrest] at hpath
    rw [path_inside, hrest]
    exact List.isChain_cons_cons.mpr ⟨he, hpath⟩
  · rw [bindings_inside, List.foldl_append]
    exact h.scope_eq

end Visit

namespace Tour
variable {e : Effect} {inner : Tour} {scope : Scope} {c : Context} {run : Run}

/-- The visit is made inside a part of the effect, in the scope that this part has. -/
def PartOf (e : Effect) (scope : Scope) (v : Visit) : Prop :=
  ∃ child, e.Encloses child ∧ v.InScope child scope

theorem inScope_enter (h : ∀ v ∈ inner c run, PartOf e (c.scope.under e) v) :
    ∀ v ∈ enter e inner c run, v.InScope e c.scope := by
  intro v hv
  rcases List.mem_cons.mp hv with rfl | hv
  · exact ⟨rfl, .singleton e, rfl⟩
  · obtain ⟨w, hw, rfl⟩ := List.mem_map.mp hv
    obtain ⟨child, hchild, hw⟩ := h w hw
    exact hw.inside hchild rfl

end Tour

namespace Effect

def LexicallyScoped (e : Effect) : Prop := ∀ c run, ∀ v ∈ e.visits c run, v.InScope e c.scope

theorem LexicallyScoped.shows {e child : Effect} (h : child.LexicallyScoped) (he : e.Encloses child)
    (scope : Scope) : child.visits.Shows (fun c => c.scope = scope) (Tour.PartOf e scope) := by
  rintro c run rfl v hv
  exact ⟨child, he, h c run v hv⟩

theorem shows_parts {e : Effect} {children : List Effect} (h : ∀ child ∈ children, child.LexicallyScoped)
    (he : ∀ child ∈ children, e.Encloses child) (scope : Scope) :
    ∀ x ∈ children.map part, x.tour.Shows (fun c => c.scope = scope) (Tour.PartOf e scope) :=
  List.forall_mem_map.mpr fun child hm => (h child hm).shows (he child hm) scope

theorem lexicallyScoped (e : Effect) : e.LexicallyScoped := by
  -- A part is called in the context of its node, up to the state, or with the value of its node.
  have hstate (scope : Scope) (c : Context) (s : GameState) (h : c.scope = scope) :
      (c.withState s).scope = scope := (c.scope_withState s).trans h
  induction e using Effect.induction with
  | leaf l =>
    intro c run
    exact Tour.inScope_enter fun v hv => by cases hv
  | custom l =>
    intro c run
    exact Tour.inScope_enter fun v hv => by cases hv
  | composite children ih =>
    intro c run
    rw [visits_composite]
    exact Tour.inScope_enter
      (Tour.shows_inTurn (hstate _) (shows_parts ih (fun _ => .composite) _) c run rfl)
  | sequential children ih =>
    intro c run
    rw [visits_sequential]
    exact Tour.inScope_enter
      (Tour.shows_inTurn (hstate _) (shows_parts ih (fun _ => .sequential) _) c run rfl)
  | parallel children ih =>
    intro c run
    rw [visits_parallel]
    exact Tour.inScope_enter
      (Tour.shows_abreast (shows_parts ih (fun _ => .parallel) _) c run rfl)
  | chained first next ih ih' =>
    intro c run
    refine Tour.inScope_enter fun v hv => ?_
    rcases List.mem_append.mp hv with hv | hv
    · exact ih.shows (.first first next) _ c run rfl v hv
    · obtain ⟨r, run', _, hv⟩ := Tour.mem_goOn hv
      obtain ⟨_, hv⟩ := List.mem_ite_nil_right.mp hv
      cases hnext : next r run'.generator with
      | ok e g =>
        rw [hnext] at hv
        exact (ih' r _ e g hnext).shows (.chosen first hnext) _ (c.withState r.state) _ rfl v hv
      | error e g =>
        rw [hnext] at hv
        cases hv
  | conditional child holds ih =>
    intro c run
    refine Tour.inScope_enter fun v hv => ?_
    obtain ⟨met, run', _, hv⟩ := Tour.mem_goOn hv
    obtain ⟨_, hv⟩ := List.mem_ite_nil_right.mp hv
    exact ih.shows (.conditional child holds) _ c run' rfl v hv
  | repeated child times ih =>
    intro c run
    refine Tour.inScope_enter fun v hv => ?_
    obtain ⟨_, hv⟩ := List.mem_ite_nil_left.mp hv
    refine Tour.shows_inTurn (hstate _) ?_ c run rfl v hv
    intro x hx
    rw [List.eq_of_mem_replicate hx]
    exact ih.shows (.repeated child times) _
  | contextual child key value ih =>
    intro c run
    refine Tour.inScope_enter fun v hv => ?_
    exact ih.shows (.contextual child key value) _ _ run (c.scope_withValue key value) v hv

end Effect

namespace Behaviour
variable {b : Behaviour} {bs : List Behaviour} {scope : Scope}

/-- Runs in the given scope, whatever the scope of the context. -/
def inScope (b : Behaviour) (scope : Scope) : Behaviour := fun c => b (c.within scope)

theorem pipeline_inScope :
    pipeline (bs.map fun b => b.inScope scope) = (pipeline bs).inScope scope := by
  funext c
  induction bs generalizing c with
  | nil => rfl
  | cons b rest ih =>
    refine bind_congr fun r => ?_
    rw [ih]
    rfl

theorem gather_inScope (c : Context) :
    gather (bs.map fun b => b.inScope scope) c = gather bs (c.within scope) := by
  induction bs with
  | nil => rfl
  | cons b rest ih =>
    refine bind_congr fun r => ?_
    rw [ih]

theorem parallel_inScope :
    parallel (bs.map fun b => b.inScope scope) = (parallel bs).inScope scope := by
  funext c
  unfold parallel
  rw [gather_inScope]
  rfl

theorem chained_inScope (second : Result → Behaviour) :
    chained (b.inScope scope) (fun r => (second r).inScope scope) =
      (chained b second).inScope scope := rfl

theorem conditional_inScope (holds : Condition) (otherwise : String) :
    conditional (b.inScope scope) (fun c => holds (c.within scope)) otherwise =
      (conditional b holds otherwise).inScope scope := rfl

theorem repeated_inScope (times : Int) :
    repeated (b.inScope scope) times = (repeated b times).inScope scope := by
  have hiterate (n : Nat) : iterate (b.inScope scope) n = (iterate b n).inScope scope := by
    rw [iterate_eq_pipeline, iterate_eq_pipeline, ← pipeline_inScope, List.map_replicate]
  funext c
  unfold repeated
  rw [hiterate]
  rfl

theorem contextual_inScope (key : String) (value : Value) :
    contextual (b.inScope (scope.bind (key, value))) key value =
      (contextual b key value).inScope scope := rfl

end Behaviour

def CustomLeaf.bound (l : CustomLeaf) (scope : Scope) : CustomLeaf :=
  { l with behaviour := l.behaviour.inScope scope }

def Leaf.asCustom (l : Leaf) : CustomLeaf :=
  ⟨l.kind.name, (Effect.leaf l).type, l.description, l.execute⟩

namespace Effect

mutual

/-- Every leaf and every condition gets the scope in which it stands, once and for all. -/
def bound : Effect → Scope → Effect
  | leaf l, scope => custom (l.asCustom.bound scope)
  | custom l, scope => custom (l.bound scope)
  | composite children, scope => composite (allBound children scope)
  | sequential children, scope => sequential (allBound children scope)
  | parallel children, scope => parallel (allBound children scope)
  | chained first next, scope =>
    chained (first.bound scope) fun r g => choiceBound (next r g) scope
  | conditional child holds, scope =>
    conditional (child.bound scope) fun c => holds (c.within scope)
  | repeated child times, scope => repeated (child.bound scope) times
  | contextual child key value, scope =>
    contextual (child.bound (scope.bind (key, value))) key value

def allBound : List Effect → Scope → List Effect
  | [], _ => []
  | child :: rest, scope => child.bound scope :: allBound rest scope

def choiceBound : EStateM.Result Error Generator Effect → Scope →
    EStateM.Result Error Generator Effect
  | .ok effect g, scope => .ok (effect.bound scope) g
  | .error e g, _ => .error e g

end

theorem allBound_eq_map (children : List Effect) (scope : Scope) :
    allBound children scope = children.map fun child => child.bound scope := by
  induction children with
  | nil => rfl
  | cons child rest ih => rw [allBound, ih, List.map_cons]

theorem description_bound (e : Effect) (scope : Scope) :
    (e.bound scope).description = e.description := by
  have hchildren {children : List Effect} {scope : Scope}
      (ih : ∀ child ∈ children, ∀ scope, (child.bound scope).description = child.description) :
      descriptions (allBound children scope) = descriptions children := by
    rw [allBound_eq_map, descriptions_eq_map, descriptions_eq_map, List.map_map]
    exact List.map_congr_left fun child hm => ih child hm scope
  induction e using Effect.induction generalizing scope with
  | leaf l => rfl
  | custom l => rfl
  | composite children ih =>
    exact congrArg (fun texts => "Composite: " ++ ", ".intercalate texts) (hchildren ih)
  | sequential children ih =>
    exact congrArg (fun texts => "Sequential: " ++ " -> ".intercalate texts) (hchildren ih)
  | parallel children ih =>
    exact congrArg (fun texts => "Parallel: " ++ " | ".intercalate texts) (hchildren ih)
  | chained first next ih _ => exact congrArg (fun text => s!"Chained: {text} -> (dynamic)") (ih scope)
  | conditional child holds ih => exact congrArg (fun text => s!"Conditional: {text}") (ih scope)
  | repeated child times ih => exact congrArg (fun text => s!"Repeat {times}x: {text}") (ih scope)
  | contextual child key value ih =>
    exact congrArg (fun text => s!"With context [{key}]: {text}") (ih (scope.bind (key, value)))

theorem executeChoice_choiceBound {choice : EStateM.Result Error Generator Effect} {scope : Scope}
    (h : ∀ e g, choice = .ok e g → (e.bound scope).execute = e.execute.inScope scope) :
    executeChoice (choiceBound choice scope) = (executeChoice choice).inScope scope := by
  cases choice with
  | ok e g =>
    funext c run
    exact congrFun (congrFun (h e g rfl) c) { run with generator := g }
  | error e g => rfl

/-- The scopes given in advance are those that the contexts hand down. -/
theorem execute_bound (e : Effect) (scope : Scope) :
    (e.bound scope).execute = e.execute.inScope scope := by
  have hchildren {children : List Effect} {scope : Scope}
      (ih : ∀ child ∈ children, ∀ scope, (child.bound scope).execute = child.execute.inScope scope) :
      (allBound children scope).map execute =
        (children.map execute).map fun b => b.inScope scope := by
    rw [allBound_eq_map, List.map_map, List.map_map]
    exact List.map_congr_left fun child hm => ih child hm scope
  induction e using Effect.induction generalizing scope with
  | leaf l => rfl
  | custom l => rfl
  | composite children ih =>
    rw [bound, execute_composite, execute_composite, hchildren ih, Behaviour.pipeline_inScope]
  | sequential children ih =>
    rw [bound, execute_sequential, execute_sequential, hchildren ih, Behaviour.pipeline_inScope]
  | parallel children ih =>
    rw [bound, execute_parallel, execute_parallel, hchildren ih, Behaviour.parallel_inScope]
  | chained first next ih ih' =>
    have hnext (r : Result) (g : Generator) := executeChoice_choiceBound
      fun e g' he => ih' r g e g' he scope
    rw [bound, execute_chained, execute_chained, ih]
    simp only [hnext]
    exact Behaviour.chained_inScope fun r c run => executeChoice (next r run.generator) c run
  | conditional child holds ih =>
    rw [bound, execute_conditional, execute_conditional, ih, description_bound,
      Behaviour.conditional_inScope]
  | repeated child times ih =>
    rw [bound, execute_repeated, execute_repeated, ih, Behaviour.repeated_inScope]
  | contextual child key value ih =>
    rw [bound, execute_contextual, execute_contextual, ih, Behaviour.contextual_inScope]

end Effect

namespace Duel

def shod : Context :=
  { context "ann" with extras := .ofList [("foot", .str "bare"), ("hand", .str "full")] }

/-- The stumble is chosen after one foot was named and comes after another one. -/
def whisper : Effect :=
  .contextual (.chained (.contextual (.leaf (.draw 0 toSelf)) "foot" (.str "right")) fun _ g =>
    .ok (.sequential [.contextual (.leaf (.draw 0 toSelf)) "foot" (.str "back"), .custom stumble]) g)
    "foot" (.str "left")

end Duel

namespace Effect

/-- Whatever is executed, every effect is called by the initial player and finds the initial extra values
with those on top that the contextual nodes around it add, the innermost last. So the tree in which every leaf
and every condition was given these values beforehand executes the same, whatever the context says. -/
theorem execute_scoped (e : Effect) (c : Context) :
    (∀ run, ∀ v ∈ e.visits c run, v.path.head? = some e ∧ v.path.IsChain Encloses ∧
      v.context.playerId = c.playerId ∧
      v.context.extras =
        v.bindings.foldl (fun extras binding => extras.insert binding.1 binding.2) c.extras ∧
      ∀ key, v.context.extras.get? key =
        ((v.bindings.reverse.find? fun binding => binding.1 = key).map Prod.snd).or
          (c.extras.get? key)) ∧
    ∀ playerId extras, (e.bound c.scope).execute { c with playerId, extras } = e.execute c := by
  constructor
  · intro run v hv
    have hscope := lexicallyScoped e c run v hv
    have heq := hscope.scope_eq
    rw [Scope.foldl_bind] at heq
    obtain ⟨hplayer, hextras⟩ := Scope.mk.inj heq
    refine ⟨hscope.start, hscope.path, hplayer, hextras, ?_⟩
    intro key
    rw [hextras]
    exact OrderedMap.get?_foldl_insert _ _ key
  · intro playerId extras
    rw [execute_bound]
    rfl

theorem execute_scoped_whisper :
    (∃ v ∈ Duel.whisper.visits Duel.shod default, v.effect = .custom Duel.stumble ∧
      v.context.playerId = "ann" ∧ v.context.extras.get? "foot" = some (.str "left") ∧
      v.context.extras.get? "hand" = some (.str "full")) ∧
    (Duel.whisper.bound Duel.shod.scope).execute (Duel.context "bob") =
      Duel.whisper.execute Duel.shod := by
  obtain ⟨hvisits, hbound⟩ := execute_scoped Duel.whisper Duel.shod
  obtain ⟨v, hv, hstumble, hbindings⟩ : ∃ v,
      Visit.firstFailed? (Duel.whisper.visits Duel.shod default) = some v ∧
        v.effect = .custom Duel.stumble ∧ v.bindings = [("foot", .str "left")] := ⟨_, rfl, rfl, rfl⟩
  have hmem := List.mem_of_find?_eq_some hv
  obtain ⟨_, _, hplayer, _, hget⟩ := hvisits default v hmem
  rw [hbindings] at hget
  exact ⟨⟨v, hmem, hstumble, hplayer, hget "foot", hget "hand"⟩, hbound "bob" .empty⟩

end Effect

end Cardplay

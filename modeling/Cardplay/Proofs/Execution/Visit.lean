import Cardplay.Proofs.Execution.Library

/-!
# Visits

The visits of an execution are the calls that it makes, in the order in which they begin: the call of the
effect itself, then those of its parts. Each comes with the calls that it is part of. A pipeline goes on to
its next part only from a success, with the state that this success left; a parallel group goes on after every
answer, with the state that it was given.

Which parts are called is read off what the calls before them answered, so a visit is never a guess:
`Call.outcome` is the execution itself.
-/

set_option autoImplicit false

namespace Cardplay

namespace Effect

def isLeaf : Effect → Bool
  | leaf _ | custom _ => true
  | _ => false

def isParallel : Effect → Bool
  | parallel _ => true
  | _ => false

/-- Whether a failure inside that has no reason gets one here. -/
def isGroup : Effect → Bool
  | composite _ | sequential _ | parallel _ | repeated _ _ => true
  | _ => false

end Effect

/-- An effect, what it is given and the run in which it starts. -/
structure Call where
  effect : Effect
  context : Context
  run : Run

namespace Call

def outcome (k : Call) : EStateM.Result Error Run Result := k.effect.execute k.context k.run

/-- What the call answers, if it does not raise. -/
def result? (k : Call) : Option Result :=
  match k.outcome with
  | .ok r _ => some r
  | .error _ _ => none

def succeeded (k : Call) : Bool := k.result?.any Result.success

/-- What the predicate logs that is asked in the call. -/
def said (k : Call) : List String :=
  match k.effect with
  | .conditional _ holds => (holds k.context k.run.generator).lines
  | _ => []

/-- The run in which the parts begin: a predicate is asked before. -/
def entered (k : Call) : Run :=
  match k.effect with
  | .conditional _ holds =>
    match Exec.consult (holds k.context) k.run with
    | .ok _ run | .error _ run => run
  | _ => k.run

/-- Whether it is the call of a conditional effect whose condition does not hold. -/
def declines (k : Call) : Bool :=
  match k.effect with
  | .conditional _ holds =>
    match (holds k.context k.run.generator).answer with
    | .ok met _ => !met
    | .error _ _ => false
  | _ => false

theorem result?_eq_some_iff {k : Call} {r : Result} :
    k.result? = some r ↔ ∃ run', k.outcome = .ok r run' := by
  unfold result?
  cases k.outcome with
  | ok q run' => simp
  | error e run' => simp

theorem declines_conditional {child : Effect} {holds : Condition} {c : Context} {run : Run}
    {met : Bool} {g : Generator} (h : (holds c run.generator).answer = .ok met g) :
    declines ⟨.conditional child holds, c, run⟩ = !met := by
  simp only [declines, h]

theorem succeeded_eq {k : Call} {r : Result} (h : k.result? = some r) : k.succeeded = r.success := by
  rw [succeeded, h]
  rfl

end Call

/-- A call and the calls that it is part of, the outermost first. -/
structure Visit extends Call where
  within : List Call

namespace Visit

def inside (k : Call) (v : Visit) : Visit := { v with within := k :: v.within }

def grouped (v : Visit) : Bool := v.within.any fun k => k.effect.isGroup

/-- The outermost parallel group around. -/
def parallel? (v : Visit) : Option Call := v.within.find? fun k => k.effect.isParallel

@[simp] theorem toCall_inside (k : Call) (v : Visit) : (v.inside k).toCall = v.toCall := rfl

@[simp] theorem grouped_inside (k : Call) (v : Visit) :
    (v.inside k).grouped = (k.effect.isGroup || v.grouped) := List.any_cons

theorem parallel?_inside_of_isParallel {k : Call} (h : k.effect.isParallel) (v : Visit) :
    (v.inside k).parallel? = some k := List.find?_cons_of_pos h

theorem parallel?_inside_of_not {k : Call} (h : k.effect.isParallel = false) (v : Visit) :
    (v.inside k).parallel? = v.parallel? := List.find?_cons_of_neg (by simp [h])

theorem isParallel_of_parallel? {v : Visit} {k : Call} (h : v.parallel? = some k) :
    k.effect.isParallel = true := List.find?_some (p := fun k : Call => k.effect.isParallel) h

end Visit

abbrev Tour := Context → Run → List Visit

structure Part where
  behaviour : Behaviour
  tour : Tour

namespace Tour

/-- Goes on after an answer and ends where something was raised. -/
def goOn {α : Type} (answer : EStateM.Result Error Run α) (next : α → Run → List Visit) :
    List Visit :=
  match answer with
  | .ok a run => next a run
  | .error _ _ => []

/-- The call of an effect and, inside it, the visits of its parts. -/
def enter (e : Effect) (inner : Tour) : Tour := fun c run =>
  ⟨⟨e, c, run⟩, []⟩ :: (inner c run).map (Visit.inside ⟨e, c, run⟩)

def inTurn : List Part → Tour
  | [], _, _ => []
  | p :: rest, c, run => p.tour c run ++ goOn (p.behaviour c run) fun r run' =>
      if r.success then inTurn rest (c.withState r.state) run' else []

def abreast : List Part → Tour
  | [], _, _ => []
  | p :: rest, c, run => p.tour c run ++ goOn (p.behaviour c run) fun _ run' => abreast rest c run'

end Tour

namespace Effect

mutual

def visits : Effect → Tour
  | leaf l => .enter (leaf l) fun _ _ => []
  | custom l => .enter (custom l) fun _ _ => []
  | composite children => .enter (composite children) (.inTurn (parts children))
  | sequential children => .enter (sequential children) (.inTurn (parts children))
  | parallel children => .enter (parallel children) (.abreast (parts children))
  | chained first next => .enter (chained first next) fun c run =>
      first.visits c run ++ Tour.goOn (first.execute c run) fun r run' =>
        if r.success then choiceVisits (next r run'.generator) (c.withState r.state) run' else []
  | conditional child holds => .enter (conditional child holds) fun c run =>
      Tour.goOn (Exec.consult (holds c) run) fun met run' => if met then child.visits c run' else []
  | repeated child times => .enter (repeated child times) fun c run =>
      if Behaviour.maxTimes < times then []
      else Tour.inTurn (List.replicate times.toNat ⟨child.execute, child.visits⟩) c run
  | contextual child key value => .enter (contextual child key value) fun c run =>
      child.visits (c.withValue key value) run

def parts : List Effect → List Part
  | [] => []
  | child :: rest => ⟨child.execute, child.visits⟩ :: parts rest

def choiceVisits : EStateM.Result Error Generator Effect → Tour
  | .ok effect generator, c, run => effect.visits c { run with generator }
  | .error _ _, _, _ => []

end

def part (e : Effect) : Part := ⟨e.execute, e.visits⟩

theorem parts_eq_map (children : List Effect) : parts children = children.map part := by
  induction children with
  | nil => rfl
  | cons child rest ih => simp [parts, part, ih]

theorem map_behaviour_part (children : List Effect) :
    (children.map part).map Part.behaviour = children.map execute := by
  simp [part]

theorem visits_composite (children : List Effect) :
    (composite children).visits = .enter (composite children) (.inTurn (children.map part)) := by
  rw [visits, parts_eq_map]

theorem visits_sequential (children : List Effect) :
    (sequential children).visits = .enter (sequential children) (.inTurn (children.map part)) := by
  rw [visits, parts_eq_map]

theorem visits_parallel (children : List Effect) :
    (parallel children).visits = .enter (parallel children) (.abreast (children.map part)) := by
  rw [visits, parts_eq_map]

theorem visits_repeated (child : Effect) {times : Int} (h : times ≤ Behaviour.maxTimes) :
    (repeated child times).visits =
      .enter (repeated child times) (.inTurn (List.replicate times.toNat child.part)) := by
  rw [visits, part]
  simp only [if_neg (Int.not_lt.mpr h)]

end Effect

/-- Whatever is visited from a context with `I` has `p`. -/
def Tour.Shows (I : Context → Prop) (p : Visit → Prop) (tour : Tour) : Prop :=
  ∀ c run, I c → ∀ v ∈ tour c run, p v

def Tour.Only (p : Effect → Prop) (tour : Tour) : Prop := ∀ c run, ∀ v ∈ tour c run, p v.effect

namespace Tour
variable {I : Context → Prop} {p : Visit → Prop} {q : Effect → Prop} {ps : List Part}

theorem inside_mem_enter {inner : Tour} {c : Context} {run : Run} {v : Visit} (e : Effect)
    (hv : v ∈ inner c run) : v.inside ⟨e, c, run⟩ ∈ enter e inner c run :=
  List.mem_cons_of_mem _ (List.mem_map_of_mem hv)

theorem mem_goOn {α : Type} {answer : EStateM.Result Error Run α} {next : α → Run → List Visit}
    {v : Visit} (h : v ∈ goOn answer next) : ∃ a run, answer = .ok a run ∧ v ∈ next a run := by
  cases answer with
  | ok a run => exact ⟨a, run, rfl, h⟩
  | error e run => cases h

theorem shows_inTurn (hI : ∀ c s, I c → I (c.withState s)) (h : ∀ x ∈ ps, x.tour.Shows I p) :
    (inTurn ps).Shows I p := by
  induction ps with
  | nil =>
    intro c run _ v hv
    cases hv
  | cons x rest ih =>
    obtain ⟨hx, hrest⟩ := List.forall_mem_cons.mp h
    intro c run hc v hv
    rcases List.mem_append.mp hv with hv | hv
    · exact hx c run hc v hv
    · obtain ⟨r, run', _, hv⟩ := mem_goOn hv
      obtain ⟨_, hv⟩ := List.mem_ite_nil_right.mp hv
      exact ih hrest _ _ (hI c r.state hc) v hv

theorem shows_abreast (h : ∀ x ∈ ps, x.tour.Shows I p) : (abreast ps).Shows I p := by
  induction ps with
  | nil =>
    intro c run _ v hv
    cases hv
  | cons x rest ih =>
    obtain ⟨hx, hrest⟩ := List.forall_mem_cons.mp h
    intro c run hc v hv
    rcases List.mem_append.mp hv with hv | hv
    · exact hx c run hc v hv
    · obtain ⟨r, run', _, hv⟩ := mem_goOn hv
      exact ih hrest _ _ hc v hv

theorem shows_of_only {tour : Tour} (h : tour.Only q) : tour.Shows (fun _ => True) fun v => q v.effect :=
  fun c run _ => h c run

theorem only_enter {e : Effect} {inner : Tour} (he : q e) (h : inner.Only q) :
    (enter e inner).Only q := by
  intro c run v hv
  rcases List.mem_cons.mp hv with rfl | hv
  · exact he
  · obtain ⟨w, hw, rfl⟩ := List.mem_map.mp hv
    exact h c run w hw

theorem only_inTurn (h : ∀ x ∈ ps, x.tour.Only q) : (inTurn ps).Only q := fun c run =>
  shows_inTurn (fun _ _ _ => trivial) (fun x hx => shows_of_only (h x hx)) c run trivial

theorem only_abreast (h : ∀ x ∈ ps, x.tour.Only q) : (abreast ps).Only q := fun c run =>
  shows_abreast (fun x hx => shows_of_only (h x hx)) c run trivial

theorem only_parts {children : List Effect} (h : ∀ child ∈ children, child.visits.Only q) :
    ∀ x ∈ children.map Effect.part, x.tour.Only q := List.forall_mem_map.mpr h

end Tour

namespace Effect

/-- Nothing but trees over the allowed leaves is visited, whatever is chosen on the way. -/
theorem BuiltFrom.visits {allowed : Leaf → Prop} {e : Effect} (h : e.BuiltFrom allowed) :
    e.visits.Only fun e => e.BuiltFrom allowed := by
  induction h with
  | leaf h => exact Tour.only_enter (.leaf h) fun _ _ _ hv => by cases hv
  | composite h ih =>
    rw [visits_composite]
    exact Tour.only_enter (.composite h) (Tour.only_inTurn (Tour.only_parts ih))
  | sequential h ih =>
    rw [visits_sequential]
    exact Tour.only_enter (.sequential h) (Tour.only_inTurn (Tour.only_parts ih))
  | parallel h ih =>
    rw [visits_parallel]
    exact Tour.only_enter (.parallel h) (Tour.only_abreast (Tour.only_parts ih))
  | chained h total h' ih ih' =>
    refine Tour.only_enter (.chained h total h') ?_
    intro c run v hv
    rcases List.mem_append.mp hv with hv | hv
    · exact ih c run v hv
    · obtain ⟨r, run', _, hv⟩ := Tour.mem_goOn hv
      obtain ⟨_, hv⟩ := List.mem_ite_nil_right.mp hv
      obtain ⟨e, g, he⟩ := total r run'.generator
      rw [he] at hv
      exact ih' r _ e g he _ _ v hv
  | conditional h total ih =>
    refine Tour.only_enter (.conditional h total) ?_
    intro c run v hv
    obtain ⟨met, run', _, hv⟩ := Tour.mem_goOn hv
    obtain ⟨_, hv⟩ := List.mem_ite_nil_right.mp hv
    exact ih c run' v hv
  | repeated h ht ih =>
    rw [visits_repeated _ ht]
    refine Tour.only_enter (.repeated h ht) (Tour.only_inTurn ?_)
    intro q hq
    rw [List.eq_of_mem_replicate hq]
    exact ih
  | contextual h ih => exact Tour.only_enter (.contextual h) fun c run => ih _ run

theorem Library.leaf_of_visit {e : Effect} (h : e.Library) {c : Context} {run : Run} {v : Visit}
    (hv : v ∈ e.visits c run) (hl : v.effect.isLeaf = true) : ∃ l, v.effect = .leaf l := by
  have hb := BuiltFrom.visits h c run v hv
  cases hv : v.effect with
  | leaf l => exact ⟨l, rfl⟩
  | custom l =>
    rw [hv] at hb
    cases hb
  | _ => simp [hv, isLeaf] at hl

end Effect

end Cardplay

import Cardplay.Proofs.Execution.Scope
import Cardplay.Proofs.State.SeatWise
import Mathlib.Data.List.Chain

/-!
# What the leaves keep

Whatever is visited stands in the tree or is chosen in it while it runs (`Effect.Throughout.visits`). A
relation between states that every visited leaf keeps is kept by the whole execution, provided that it is
reflexive, transitive and kept by merges (`Effect.kept_by_leaves`). Leaves, conditions and continuations may
raise here: this is about the executions that answer.
-/

set_option autoImplicit false

namespace Cardplay

namespace Effect
variable {q : Effect → Prop} {e : Effect}

/-- The effect and all that stands inside it, what may be chosen there included, has `q`. -/
def Throughout (q : Effect → Prop) (e : Effect) : Prop := ∀ x, Relation.ReflTransGen Encloses e x → q x

/-- All nodes are the library's own. -/
def Native (e : Effect) : Prop := e.Throughout fun x => x.kind? ≠ none

theorem Throughout.of_closed {P : Effect → Prop} (closed : ∀ a b, Encloses a b → P a → P b)
    (h : ∀ x, P x → q x) (he : P e) : e.Throughout q := by
  intro x hx
  apply h
  induction hx with
  | refl => exact he
  | tail _ hstep ih => exact closed _ _ hstep ih

theorem exists_leaf (he : e.kind? ≠ none) (hl : e.isLeaf = true) : ∃ l, e = .leaf l := by
  cases e with
  | leaf l => exact ⟨l, rfl⟩
  | custom l => exact absurd rfl he
  | _ => cases hl

theorem Throughout.of_inside (he : q e) (h : ∀ x, e.Encloses x → x.Throughout q) : e.Throughout q := by
  intro y hy
  rcases Relation.ReflTransGen.cases_head hy with rfl | ⟨x, hx, hxy⟩
  · exact he
  · exact h x hx y hxy

theorem Throughout.inside {x : Effect} (h : e.Throughout q) (he : e.Encloses x) : x.Throughout q :=
  fun y hy => h y (hy.head he)

theorem Throughout.visits (h : e.Throughout q) : e.visits.Only q := by
  intro c run v hv
  obtain ⟨hstart, hpath, _⟩ := lexicallyScoped e c run v hv
  have hreached : ∀ x ∈ v.path, Relation.ReflTransGen Encloses e x := by
    refine hpath.induction (Relation.ReflTransGen Encloses e) v.path (fun _ _ hstep hx => hx.tail hstep) ?_
    intro hne
    rw [List.head?_eq_some_head hne] at hstart
    cases hstart
    exact .refl
  exact h v.effect (hreached v.effect (by simp [Visit.path]))

theorem BuiltFrom.encloses {allowed : Leaf → Prop} {a b : Effect} (h : a.Encloses b)
    (ha : a.BuiltFrom allowed) : b.BuiltFrom allowed := by
  cases h with
  | composite hm =>
    cases ha with
    | composite ha => exact ha b hm
  | sequential hm =>
    cases ha with
    | sequential ha => exact ha b hm
  | parallel hm =>
    cases ha with
    | parallel ha => exact ha b hm
  | first next =>
    cases ha with
    | chained ha _ _ => exact ha
  | chosen first hnext =>
    cases ha with
    | chained _ _ ha => exact ha _ _ _ _ hnext
  | conditional holds =>
    cases ha with
    | conditional ha _ => exact ha
  | repeated times =>
    cases ha with
    | repeated ha _ => exact ha
  | contextual key value =>
    cases ha with
    | contextual ha => exact ha

/-- A finite tree over leaves of the library is the library's own throughout. -/
theorem Library.native {e : Effect} (h : e.Library) : e.Native := by
  refine Throughout.of_closed (P := Library) (fun _ _ => BuiltFrom.encloses) ?_ h
  intro x hx
  cases hx <;> simp [kind?]

end Effect

/-- What must be known of a relation between states with `I` so that an execution that answers keeps it. -/
structure Lasting (I : GameState → Prop) (S : GameState → GameState → Prop) : Prop where
  refl : ∀ {s}, I s → S s s
  trans : ∀ {s t u}, S s t → S t u → S s u
  keeps : ∀ {s t}, I s → S s t → I t
  merge : ∀ {base siblings t}, I base → (∀ s ∈ siblings, S base s) →
    base.merge siblings = .ok t → S base t

section Keeping
variable {I : GameState → Prop} {S : GameState → GameState → Prop}

theorem Lawful.lasting (laws : Lawful I S) : Lasting I S where
  refl := laws.refl
  trans := laws.trans
  keeps := laws.keeps
  merge hb h ht := by
    obtain ⟨t, ht', hS⟩ := laws.merge hb h
    rw [ht] at ht'
    cases ht'
    exact hS

/-- A call of a leaf that answers keeps the relation. -/
def Call.Keeps (I : GameState → Prop) (S : GameState → GameState → Prop) (k : Call) : Prop :=
  k.effect.isLeaf = true → I k.context.state → ∀ r, k.result? = some r → S k.context.state r.state

theorem Call.keeps_of_serves {k : Call} {l : Leaf} (hk : k.effect = .leaf l)
    (h : Serves I S l.execute) : k.Keeps I S := by
  intro _ hc r hr
  obtain ⟨run', hout⟩ := Call.result?_eq_some_iff.mp hr
  rw [Call.outcome, hk] at hout
  obtain ⟨r', mid, hexecute, hS⟩ := h k.context k.run hc
  cases hexecute.symm.trans hout
  exact hS

def keeping (I : GameState → Prop) (S : GameState → GameState → Prop) : Account := fun _ c _ vs r _ =>
  I c.state → (∀ v ∈ vs, v.toCall.Keeps I S) → S c.state r.state

theorem Gathered.kept {c : Context} {run run' : Run} {vs : List Visit} {rs : List Result}
    (h : Gathered (keeping I S) c run vs rs run') (hc : I c.state)
    (hvs : ∀ v ∈ vs, v.toCall.Keeps I S) : ∀ r ∈ rs, S c.state r.state := by
  induction h with
  | nil run =>
    intro r hr
    cases hr
  | cons h _ ih =>
    obtain ⟨hfirst, hrest⟩ := List.forall_mem_append.mp hvs
    exact List.forall_mem_cons.mpr ⟨h hc hfirst, ih hrest⟩

theorem keeping_law (laws : Lasting I S) : TourLaw (keeping I S) where
  leaf := by
    intro e c run r run' he h hc hvs
    exact hvs ⟨⟨e, c, run⟩, []⟩ List.mem_cons_self he hc r (Call.result?_eq_some_iff.mpr ⟨run', h⟩)
  nothing _ _ _ hc _ := laws.refl hc
  next := by
    intro group c run mid run' vs ws first last hfirst _ hlast hc hvs
    obtain ⟨hleft, hright⟩ := List.forall_mem_append.mp hvs
    have hS := hfirst hc hleft
    exact laws.trans hS (hlast (laws.keeps hc hS) hright)
  stop hfirst _ := hfirst
  enter := by
    intro e inner c run r run' _ _ _ h hc hvs
    exact h hc fun v hv => hvs (v.inside ⟨e, c, run⟩) (Tour.inside_mem_enter e hv)
  declined _ hc _ := laws.refl hc
  parallel := by
    intro children c run r run' hparts h hc hvs
    obtain ⟨rs, mid, hgathered, _, _, hstate⟩ := gathered_parallel hparts h
    rw [Effect.visits_parallel] at hvs
    have hmembers := hgathered.kept hc fun v hv =>
      hvs (v.inside _) (Tour.inside_mem_enter (.parallel children) hv)
    rcases hstate with hback | hmerged
    · rw [hback]
      exact laws.refl hc
    · exact laws.merge hc (List.forall_mem_map.mpr hmembers) hmerged
  drawn h := h
  valued h := h

/-- What every visited leaf keeps is kept by the execution that visits them. -/
theorem Effect.kept_by_leaves (laws : Lasting I S) {e : Effect} {c : Context} {run run' : Run}
    {r : Result} (h : e.execute c run = .ok r run') (hc : I c.state)
    (hvs : ∀ v ∈ e.visits c run, v.toCall.Keeps I S) : S c.state r.state :=
  (keeping_law laws).holds h hc hvs

end Keeping

/-- A relation between the players of a seat is kept if every leaf that is visited keeps it. -/
theorem Effect.Native.seatWise {R : Player → Player → Prop} (law : SeatLaw R) {e : Effect} {c : Context}
    {run run' : Run} {r : Result} (he : e.Native) (hc : c.state.Valid) (h : e.execute c run = .ok r run')
    (touch : ∀ l, (∃ v ∈ e.visits c run, v.effect = .leaf l) → ∀ p q, l.Touch p q → R p q) :
    c.state.SeatWise R r.state := by
  refine kept_by_leaves (GameState.seatWise_lawful law).lasting h hc fun v hv hl => ?_
  obtain ⟨l, heq⟩ := exists_leaf (he.visits c run v hv) hl
  have hserves := l.serves_seatWise law fun p q _ => touch l ⟨v, hv, heq⟩ p q
  exact Call.keeps_of_serves heq hserves hl

end Cardplay

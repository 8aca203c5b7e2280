import Cardplay.Proofs.Capability.Stock
import Mathlib.Logic.Relation

/-!
# Sources of randomness

Registries that come from one default registry, used in any order: registered with, forked, asked for services
and contexts, and drawn from. All of this comes down to five kinds of shift (`Streams.Shift`), each of which
keeps every random service where its draws have left it (`Streams.Sound`), and keeps apart two registries that
have no random instance in common (`Streams.Shift.apart`).
-/

set_option autoImplicit false

namespace Cardplay

namespace Generator

/-- The generator after some outputs. -/
def skip (g : Generator) : Nat → Generator
  | 0 => g
  | n + 1 => (g.skip n).next.2

def output (g : Generator) (n : Nat) : Nat := (g.skip n).next.1

def outputs (g : Generator) (count : Nat) : List Nat := (List.range count).map g.output

@[simp] theorem skip_zero (g : Generator) : g.skip 0 = g := rfl

@[simp] theorem outputs_zero (g : Generator) : g.outputs 0 = [] := rfl

theorem outputs_succ (g : Generator) (count : Nat) :
    g.outputs (count + 1) = g.outputs count ++ [g.output count] := by
  rw [outputs, List.range_succ, List.map_append]
  rfl

end Generator

/-- A service that was taken from a registry under an identifier, for itself or for a context. -/
structure Source where
  on : Nat
  id : String
  service : Provided

def Source.number? (source : Source) : Option Nat :=
  match source.service with
  | .service m => some m
  | .plain _ => none

theorem Source.number?_eq {source : Source} {m : Nat} :
    source.number? = some m ↔ source.service = .service m := by
  unfold Source.number?
  cases source.service <;> simp

structure Streams where
  shelf : Services := {}
  workshop : Workshop := {}
  registries : List Registry := []
  sources : List Source := []
  drawn : List (Source × Nat) := []

namespace Streams

/-- Something that is done with the registries, by number, or with what was taken from them, by place. -/
inductive Move
  | register (on : Nat) (id : { id : String // id ≠ Capability.random.id }) (factory : Factory)
  | fork (on : Nat)
  | provide (on : Nat) (id : String) (contract : Option Contract)
  | context (on : Nat) (playerId : String) (state : GameState)
  | draw (place : Nat)

section Definitions
variable {α : Type} (p : Streams)

def after (work : Work α) (keep : α → Streams → Streams) : Streams :=
  match work (p.shelf, p.workshop) with
  | .ok a (shelf, workshop) => keep a { p with shelf, workshop }
  | .error _ (shelf, workshop) => { p with shelf, workshop }

def bear (r : Registry) : Streams := { p with registries := p.registries ++ [r] }

def take (source : Source) : Streams := { p with sources := p.sources ++ [source] }

def write (source : Source) (x : Nat) : Streams := { p with drawn := p.drawn ++ [(source, x)] }

/-- What becomes of a request to the registry with the number, if there is one. -/
def asking (on : Nat) (request : Registry → Streams) : Streams :=
  match p.registries[on]? with
  | some r => request r
  | none => p

def step : Move → Streams
  | .register on id factory =>
    p.asking on fun r => p.after (Work.register r id.val factory) fun child p => p.bear child
  | .fork on => p.asking on fun r => p.after (Work.fork r) fun child p => p.bear child
  | .provide on id contract =>
    p.asking on fun r => p.after (Work.provide r id contract) fun service p => p.take ⟨on, id, service⟩
  | .context on playerId state =>
    p.asking on fun r => p.after (Work.buildContext r playerId state) fun (_, random) p =>
      p.take ⟨on, Capability.random.id, random⟩
  | .draw place =>
    match p.sources[place]? with
    | some source =>
      p.after (Work.runWith source.service (Exec.draw Draw.fraction)) fun x p => p.write source x
    | none => p

def start (settings : Settings) (seed : Int) : Streams :=
  ({} : Streams).after (Work.createDefault { settings with seed := some seed }) fun r p => p.bear r

def run (settings : Settings) (seed : Int) (moves : List Move) : Streams :=
  moves.foldl step (start settings seed)

def drawnFrom (m : Nat) : List Nat :=
  (p.drawn.filter fun draw => draw.1.number? = some m).map Prod.snd

/-- What was drawn from the service is what a generator with the seed gives first. -/
def Replays (m : Nat) (seed : Int) : Prop :=
  p.drawnFrom m = (Generator.ofSeed seed).outputs (p.drawnFrom m).length

/-- The source was taken as the random capability of a registry that has cached the service. -/
def Through (m : Nat) (source : Source) : Prop :=
  source.id = Capability.random.id ∧ ∃ r, p.registries[source.on]? = some r ∧
    p.shelf.cached? r Capability.random.id = some (.service m)

end Definitions

/-- All that can come of a move, one thing at a time. -/
inductive Shift : Streams → Streams → Prop
  | note (p : Streams) (journal : List Entry) :
    Shift p { p with workshop := { p.workshop with journal } }
  | bear (p : Streams) {r : Registry} {factories : OrderedMap Factory} (hr : r ∈ p.registries)
    (hfactory : factories.get? Capability.random.id = p.shelf.factory? r Capability.random.id) :
    Shift p ({ p with shelf := (p.shelf.add factories (p.shelf.instancesOf r) r.builtIn).2 }.bear
      (p.shelf.add factories (p.shelf.instancesOf r) r.builtIn).1)
  | make (p : Streams) {r : Registry} {id : String} {factory : Factory} {found : Provided}
    {w : Workshop} (hr : r ∈ p.registries) (hnone : p.shelf.cached? r id = none)
    (hfactory : p.shelf.factory? r id = some factory)
    (hmade : Workshop.instantiate id factory p.workshop = .ok found w) :
    Shift p { p with shelf := p.shelf.putInstance r id found, workshop := w }
  | take (p : Streams) {on : Nat} {r : Registry} {id : String} {service : Provided}
    (hr : p.registries[on]? = some r) (hcached : p.shelf.cached? r id = some service) :
    Shift p (p.take ⟨on, id, service⟩)
  | draw (p : Streams) {source : Source} {m : Nat} {seed : Int} {generator : Generator}
    (journal : List Entry) (hsource : source ∈ p.sources) (hservice : source.service = .service m)
    (hm : p.workshop.services[m]? = some (.random seed generator)) :
    Shift p ({ p with
      workshop := ⟨p.workshop.services.set m (.random seed generator.next.2), journal⟩ }.write
        source generator.next.1)

abbrev Shifts : Streams → Streams → Prop := Relation.ReflTransGen Shift

/-- Nothing is mixed up: what is cached is in stock, what was taken is still cached, what was drawn was drawn
through something taken, and every random service stands where its draws have left it. -/
structure Sound (seed : Int) (p : Streams) : Prop where
  stocked : Stocked seed p.shelf p.workshop.services p.registries
  sources : ∀ source ∈ p.sources, ∃ r, p.registries[source.on]? = some r ∧
    p.shelf.cached? r source.id = some source.service
  drawn : ∀ draw ∈ p.drawn, draw.1 ∈ p.sources
  streams : ∀ {m s generator}, p.workshop.services[m]? = some (.random s generator) →
    p.Replays m s ∧ generator = (Generator.ofSeed s).skip (p.drawnFrom m).length

variable {seed : Int} {p q : Streams} {n : Nat} {r : Registry}

namespace Shift

/-- Registries keep their numbers and what they have cached. -/
theorem keeps (hpq : Shift p q) (h : p.shelf.Separate p.registries)
    (hr : p.registries[n]? = some r) : q.registries[n]? = some r ∧
      ∀ {id found}, p.shelf.cached? r id = some found → q.shelf.cached? r id = some found := by
  cases hpq with
  | note journal => exact ⟨hr, fun hc => hc⟩
  | take _ _ => exact ⟨hr, fun hc => hc⟩
  | draw journal _ _ _ => exact ⟨hr, fun hc => hc⟩
  | @bear parent factories hparent hfactory =>
    obtain ⟨hn, -⟩ := List.getElem?_eq_some_iff.mp hr
    have hkeeps := Shelf.Keeps.add factories (p.shelf.instancesOf parent) parent.builtIn
      (h.holds_at hr)
    refine ⟨(List.getElem?_append_left hn).trans hr, fun {id found} hc => ?_⟩
    exact (hkeeps.unchanged.cached id).trans hc
  | make hq hnone hfactory hmade =>
    refine ⟨hr, fun {other found} hc => ?_⟩
    rw [h.cached_putInstance hq (List.mem_of_getElem? hr), if_neg]
    · exact hc
    · rintro ⟨rfl, rfl⟩
      rw [hnone] at hc
      cases hc

end Shift

theorem drawnFrom_eq_nil {m : Nat} (h : ∀ draw ∈ p.drawn, draw.1.number? ≠ some m) :
    p.drawnFrom m = [] := by
  rw [drawnFrom, List.map_eq_nil_iff, List.filter_eq_nil_iff]
  intro draw hdraw
  simpa using h draw hdraw

theorem replays_of_nil {m : Nat} {generator : Generator} (h : p.drawnFrom m = [])
    (hgenerator : generator = .ofSeed seed) :
    p.Replays m seed ∧ generator = (Generator.ofSeed seed).skip (p.drawnFrom m).length := by
  rw [Replays, h, List.length_nil, Generator.outputs_zero, Generator.skip_zero]
  exact ⟨rfl, hgenerator⟩

theorem drawnFrom_write_self {source : Source} {m : Nat} (h : source.number? = some m) (x : Nat) :
    (p.write source x).drawnFrom m = p.drawnFrom m ++ [x] := by
  simp [drawnFrom, write, h]

theorem drawnFrom_write_of_ne {source : Source} {m : Nat} (h : source.number? ≠ some m) (x : Nat) :
    (p.write source x).drawnFrom m = p.drawnFrom m := by
  simp [drawnFrom, write, h]

namespace Sound

theorem number_lt (h : Sound seed p) {draw : Source × Nat} {m : Nat} (hdraw : draw ∈ p.drawn)
    (hm : draw.1.number? = some m) : m < p.workshop.services.length := by
  obtain ⟨r, hr, hc⟩ := h.sources draw.1 (h.drawn draw hdraw)
  rw [Source.number?_eq.mp hm] at hc
  exact h.stocked.inStock r (List.mem_of_getElem? hr) hc

/-- One registry whose random services are to have the seed, before anything was made. -/
theorem init (hregistries : p.registries = [r]) (hholds : p.shelf.Holds r)
    (hfactory : p.shelf.factory? r Capability.random.id = some (.random seed))
    (hinstances : p.shelf.instancesOf r = .empty) (hservices : p.workshop.services = [])
    (hsources : p.sources = []) (hdrawn : p.drawn = []) : Sound seed p := by
  have hmem : ∀ a ∈ p.registries, a = r := by
    intro a ha
    rw [hregistries] at ha
    exact List.mem_singleton.mp ha
  have hcached : ∀ a ∈ p.registries, ∀ {id found}, p.shelf.cached? a id ≠ some found := by
    intro a ha id found hc
    rw [hmem a ha, Shelf.cached?, hinstances] at hc
    cases hc
  refine ⟨⟨⟨?_, ?_⟩, ?_, ?_, ?_, ?_⟩, ?_, ?_, ?_⟩
  · intro a ha
    rw [hmem a ha]
    exact hholds
  · rw [hregistries]
    exact List.pairwise_singleton _ _
  · intro a ha
    rw [hmem a ha, hfactory]
  · intro a ha id m hc
    exact absurd hc (hcached a ha)
  · intro a ha found hc
    exact absurd hc (hcached a ha)
  · intro a ha b hb id other m hc
    exact absurd hc (hcached a ha)
  · simp [hsources]
  · simp [hdrawn]
  · intro m s generator hm
    rw [hservices] at hm
    cases hm

/-- A new service stands at the start of its stream, and nobody has drawn from it. -/
theorem streams_append (h : Sound seed p) {service : Service} (hunused : service.Unused) {m : Nat}
    {s : Int} {generator : Generator}
    (hm : (p.workshop.services ++ [service])[m]? = some (.random s generator)) :
    p.Replays m s ∧ generator = (Generator.ofSeed s).skip (p.drawnFrom m).length := by
  rcases Nat.lt_or_ge m p.workshop.services.length with hlt | hge
  · rw [List.getElem?_append_left hlt] at hm
    exact h.streams hm
  · rw [List.getElem?_append_right hge, List.getElem?_singleton] at hm
    split at hm
    · have hnil : p.drawnFrom m = [] := by
        apply drawnFrom_eq_nil
        intro draw hdraw hnumber
        have hlt := h.number_lt hdraw hnumber
        omega
      exact replays_of_nil hnil (hunused s generator (Option.some.inj hm))
    · cases hm

/-- A draw is the next output of the service that it was made from, and no other service moves. -/
theorem streams_draw (h : Sound seed p) {source : Source} {m m' : Nat} {s s' : Int}
    {generator generator' : Generator} (hservice : source.service = .service m)
    (hm : p.workshop.services[m]? = some (.random s generator))
    (hm' : (p.workshop.services.set m (.random s generator.next.2))[m']? =
      some (.random s' generator')) :
    (p.write source generator.next.1).Replays m' s' ∧ generator' =
      (Generator.ofSeed s').skip ((p.write source generator.next.1).drawnFrom m').length := by
  by_cases heq : m' = m
  · subst heq
    obtain ⟨hlt, -⟩ := List.getElem?_eq_some_iff.mp hm
    rw [List.getElem?_set_self hlt] at hm'
    cases hm'
    obtain ⟨hreplays, hgenerator⟩ := h.streams hm
    rw [Replays] at hreplays
    rw [Replays, drawnFrom_write_self (Source.number?_eq.mpr hservice), List.length_append,
      List.length_singleton, Generator.outputs_succ, hgenerator]
    exact ⟨congrArg (· ++ _) hreplays, rfl⟩
  · rw [List.getElem?_set_ne (Ne.symm heq)] at hm'
    have hother : source.number? ≠ some m' := by
      rw [Ne, Source.number?_eq, hservice]
      rintro ⟨⟩
      exact heq rfl
    rw [Replays, drawnFrom_write_of_ne hother]
    exact h.streams hm'

theorem shift (h : Sound seed p) (hpq : Shift p q) : Sound seed q := by
  have hsources : ∀ source ∈ p.sources, ∃ r, q.registries[source.on]? = some r ∧
      q.shelf.cached? r source.id = some source.service := by
    intro source hsource
    obtain ⟨r, hr, hc⟩ := h.sources source hsource
    obtain ⟨hr', hcached⟩ := hpq.keeps h.stocked.separate hr
    exact ⟨r, hr', hcached hc⟩
  cases hpq with
  | note journal => exact ⟨h.stocked, h.sources, h.drawn, h.streams⟩
  | take hr hc =>
    refine ⟨h.stocked, fun source hsource => ?_, fun draw hdraw => ?_, h.streams⟩
    · rcases List.mem_append.mp hsource with hold | hnew
      · exact h.sources source hold
      · rw [List.mem_singleton.mp hnew]
        exact ⟨_, hr, hc⟩
    · exact List.mem_append_left _ (h.drawn draw hdraw)
  | @bear parent factories hparent hfactory =>
    have hstocked := h.stocked.add hparent (hfactory.trans (h.stocked.factory _ hparent)) parent.builtIn
    exact ⟨hstocked, hsources, h.drawn, h.streams⟩
  | @make r id factory found w hr hnone hfactory hmade =>
    have hrandom : id = Capability.random.id → ∃ m generator, found = .service m ∧
        w.services[m]? = some (.random seed generator) := by
      rintro rfl
      exact h.stocked.makes_random hr hfactory hmade
    obtain ⟨services, journal⟩ := w
    rcases Workshop.instantiate_made hmade with ⟨service, rfl, rfl, hunused⟩ | ⟨v, rfl, rfl⟩
    · refine ⟨h.stocked.putInstance hr (.append _ service) ?_ hrandom, hsources, h.drawn, ?_⟩
      · rintro m ⟨⟩
        refine ⟨rfl, ?_⟩
        rw [List.length_append, List.length_singleton]
        omega
      · intro m s generator hm
        exact h.streams_append hunused hm
    · refine ⟨h.stocked.putInstance hr (.refl _) ?_ hrandom, hsources, h.drawn, h.streams⟩
      rintro m ⟨⟩
  | @draw source m s generator journal hsource hservice hm =>
    refine ⟨h.stocked.restock (.set hm _), hsources, fun draw hdraw => ?_, fun hm' => ?_⟩
    · rcases List.mem_append.mp hdraw with hold | hnew
      · exact h.drawn draw hold
      · rw [List.mem_singleton.mp hnew]
        exact hsource
    · exact h.streams_draw hservice hm hm'

end Sound

/-- Registries with no random instance in common never come to have one. -/
theorem Shift.apart {other : Registry} (hpq : Shift p q) (h : Sound seed p) (hr : r ∈ p.registries)
    (hother : other ∈ p.registries) (hne : r ≠ other)
    (hapart : ∀ found, p.shelf.cached? r Capability.random.id = some found →
      p.shelf.cached? other Capability.random.id ≠ some found) :
    ∀ found, q.shelf.cached? r Capability.random.id = some found →
      q.shelf.cached? other Capability.random.id ≠ some found := by
  cases hpq with
  | note journal => exact hapart
  | take _ _ => exact hapart
  | draw journal _ _ _ => exact hapart
  | @bear parent factories hparent hfactory =>
    have hsame := fun a (ha : a ∈ p.registries) =>
      (Shelf.Keeps.add factories (p.shelf.instancesOf parent) parent.builtIn
        (h.stocked.separate.holds a ha)).unchanged.cached Capability.random.id
    intro found hc hc'
    exact hapart found ((hsame r hr).symm.trans hc) ((hsame other hother).symm.trans hc')
  | @make parent id factory new w hparent hnone hfactory hmade =>
    -- what is made gets a number that nobody has cached
    have hfresh : ∀ a ∈ p.registries, p.shelf.cached? a Capability.random.id ≠ some new := by
      intro a ha hc
      obtain ⟨m, generator, rfl, -⟩ := h.stocked.random a ha hc
      have hlt := h.stocked.inStock a ha hc
      rcases Workshop.instantiate_made hmade with ⟨_, heq, -, -⟩ | ⟨_, heq, -⟩
      · cases heq
        omega
      · cases heq
    intro found hc hc'
    rw [h.stocked.separate.cached_putInstance hparent hr] at hc
    rw [h.stocked.separate.cached_putInstance hparent hother] at hc'
    split at hc
    · rename_i heq
      cases hc
      split at hc'
      · rename_i heq'
        exact hne (heq.1.trans heq'.1.symm)
      · exact hfresh other hother hc'
    · split at hc'
      · cases hc'
        exact hfresh r hr hc
      · exact hapart found hc hc'

theorem asking_of_registry (hr : p.registries[n]? = some r) (request : Registry → Streams) :
    p.asking n request = request r := by
  simp only [asking, hr]

namespace Shifts

theorem asking {request : Registry → Streams}
    (h : ∀ r, p.registries[n]? = some r → Shifts p (request r)) : Shifts p (p.asking n request) := by
  rw [Streams.asking]
  split
  · rename_i r hr
    exact h r hr
  · exact .refl

theorem sound (hpq : Shifts p q) (h : Sound seed p) : Sound seed q := by
  induction hpq with
  | refl => exact h
  | tail _ hshift ih => exact ih.shift hshift

theorem keeps (hpq : Shifts p q) (h : Sound seed p) (hr : p.registries[n]? = some r) :
    q.registries[n]? = some r ∧
      ∀ {id found}, p.shelf.cached? r id = some found → q.shelf.cached? r id = some found := by
  induction hpq with
  | refl => exact ⟨hr, fun hc => hc⟩
  | tail hbefore hshift ih =>
    obtain ⟨hr', hcached⟩ := hshift.keeps (Shifts.sound hbefore h).stocked.separate ih.1
    exact ⟨hr', fun hc => hcached (ih.2 hc)⟩

theorem apart {other : Registry} {n' : Nat} (hpq : Shifts p q) (h : Sound seed p)
    (hr : p.registries[n]? = some r) (hother : p.registries[n']? = some other) (hne : r ≠ other)
    (hapart : ∀ found, p.shelf.cached? r Capability.random.id = some found →
      p.shelf.cached? other Capability.random.id ≠ some found) :
    ∀ found, q.shelf.cached? r Capability.random.id = some found →
      q.shelf.cached? other Capability.random.id ≠ some found := by
  induction hpq with
  | refl => exact hapart
  | tail hbefore hshift ih =>
    have hr' := (Shifts.keeps hbefore h hr).1
    have hother' := (Shifts.keeps hbefore h hother).1
    exact hshift.apart (Shifts.sound hbefore h) (List.mem_of_getElem? hr')
      (List.mem_of_getElem? hother') hne ih

end Shifts

end Streams

end Cardplay

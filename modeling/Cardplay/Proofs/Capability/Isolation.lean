import Cardplay.Capability.Services
import Cardplay.Proofs.Capability.Lineage

/-!
# Isolation

What is asked of one registry makes no difference to another (`Family.registries_isolated`): it goes on
reporting the same identifiers and would provide from the same factories and instances, however they were made
from one another and whatever comes in between. The identifiers of a registry are those registered on its
lineage. A caller hears of a missing provider for the others, and for these only if the factory itself raises
such an error (`Family.lack_passed_on`).
-/

set_option autoImplicit false

namespace Cardplay

namespace Request
variable {φ κ σ : Type}

def ProvidesOn (q : Request φ κ σ) (n : Nat) : Prop := ∃ id expected, q = .provide n id expected

def ProvidesAt (q : Request φ κ σ) (n : Nat) (id : String) : Prop :=
  ∃ expected, q = .provide n id expected

/-- The request makes a registry from the one with the given number. -/
def Derives (q : Request φ κ σ) (n : Nat) : Prop :=
  q = .fork n ∨ ∃ id factory, q = .register n id factory

end Request

section Lacks
variable {ε ι κ : Type} {lacks : ε → Prop}

/-- The caller hears of a missing provider, from the registry or from the factory that it ran. -/
def Refusal.Lacks (lacks : ε → Prop) : Refusal ε ι κ → Prop
  | unregistered => True
  | raised e => lacks e
  | mistyped _ _ => False

theorem Provision.of_lacks {provision : Provision ε ι} {meets : ι → κ → Bool} {expected : Option κ}
    {refusal : Refusal ε ι κ} (h : provision.outcome meets expected = .error refusal)
    (hlacks : refusal.Lacks lacks) :
    provision = .unregistered ∨ ∃ e, provision = .raised e ∧ lacks e := by
  cases provision with
  | unregistered => exact .inl rfl
  | raised e =>
    cases h
    exact .inr ⟨e, rfl, hlacks⟩
  | cached found | made found =>
    cases expected with
    | none => cases h
    | some type =>
      simp only [outcome] at h
      split at h
      · cases h
      · cases h
        exact hlacks.elim

end Lacks

namespace Shelf
variable {φ ι : Type}

/-- Nothing is different but that one instance may have been cached that was not there. -/
structure Caches (r : Registry) (id : String) (shelf shelf' : Shelf φ ι) : Prop where
  has : ∀ other, shelf'.has r other = shelf.has r other
  ids : shelf'.ids r = shelf.ids r
  factory : ∀ other, shelf'.factory? r other = shelf.factory? r other
  cached : ∀ other, other ≠ id → shelf'.cached? r other = shelf.cached? r other
  kept : ∀ found, shelf.cached? r id = some found → shelf'.cached? r id = some found

variable {shelf shelf' : Shelf φ ι} {r : Registry} {line : Lineage φ ι} {id : String}

theorem ids_of_tells (h : line.Tells (shelf.factoriesOf r) (shelf.instancesOf r)) :
    shelf.ids r = (shelf.factoriesOf r).keys := by
  have hnone : (shelf.instancesOf r).keys.filter
      (fun id => !(shelf.factoriesOf r).contains id) = [] := by
    refine List.filter_eq_nil_iff.mpr fun id hid => ?_
    rw [OrderedMap.contains_iff.mpr (h.keys_subset hid)]
    simp
  rw [ids, hnone, List.append_nil]

theorem has_iff_of_tells (h : line.Tells (shelf.factoriesOf r) (shelf.instancesOf r)) :
    shelf.has r id ↔ id ∈ (shelf.factoriesOf r).keys := by
  rw [has, Bool.or_eq_true, OrderedMap.contains_iff, OrderedMap.contains_iff]
  exact ⟨fun hid => hid.elim (fun hid => hid) h.keys_subset, .inl⟩

end Shelf

namespace Family
variable {φ ι ε κ σ : Type} {make : String → φ → EStateM ε σ ι} {meets : σ → ι → κ → Bool}
  {f : Family φ ι σ} {n : Nat} {r : Registry} {id : String} {world : σ}
  {past future : List (Request φ κ σ)}

section Step
variable (h : f.shelf.Separate f.registries) (hr : f.registries[n]? = some r) (q : Request φ κ σ)
include h hr

theorem step_factoriesOf : (f.step make meets q).2.shelf.factoriesOf r = f.shelf.factoriesOf r := by
  rcases step_shelf h hr q with hkeeps | ⟨_, _, found, _, _, hput⟩
  · exact hkeeps.factories
  · rw [hput]
    rfl

theorem step_cached_of_some {found : ι} (hc : f.shelf.cached? r id = some found) :
    (f.step make meets q).2.shelf.cached? r id = some found := by
  rcases step_shelf h hr q with hkeeps | ⟨other, _, made, _, hnone, hput⟩
  · rw [hkeeps.unchanged.cached, hc]
  · have hne : id ≠ other := by
      rintro rfl
      rw [hc] at hnone
      cases hnone
    rw [hput, Shelf.cached?, Shelf.instancesOf_putInstance _ _ (h.holds_at hr),
      OrderedMap.get?_insert_of_ne _ hne]
    exact hc

theorem step_cached (hq : ¬ q.ProvidesAt n id) :
    (f.step make meets q).2.shelf.cached? r id = f.shelf.cached? r id := by
  rcases step_shelf h hr q with hkeeps | ⟨other, expected, made, heq, _, hput⟩
  · exact hkeeps.unchanged.cached id
  · have hne : id ≠ other := by
      rintro rfl
      exact hq ⟨expected, heq⟩
    rw [hput, Shelf.cached?, Shelf.instancesOf_putInstance _ _ (h.holds_at hr),
      OrderedMap.get?_insert_of_ne _ hne]
    rfl

end Step

/-- What the registry with the given number had after the first requests, it has after all. -/
theorem run_keeps (hr : (run make meets world past).2.registries[n]? = some r)
    (future : List (Request φ κ σ)) :
    (run make meets world (past ++ future)).2.registries[n]? = some r ∧
      (run make meets world (past ++ future)).2.shelf.factoriesOf r =
        (run make meets world past).2.shelf.factoriesOf r ∧
      ∀ id found, (run make meets world past).2.shelf.cached? r id = some found →
        (run make meets world (past ++ future)).2.shelf.cached? r id = some found := by
  refine run_induction (P := fun f => f.registries[n]? = some r ∧
    f.shelf.factoriesOf r = (run make meets world past).2.shelf.factoriesOf r ∧
    ∀ id found, (run make meets world past).2.shelf.cached? r id = some found →
      f.shelf.cached? r id = some found) ⟨hr, rfl, fun _ _ hc => hc⟩ ?_
  rintro f hsep ⟨hf, hfactories, hcached⟩ q -
  refine ⟨registry_step hf q, (step_factoriesOf hsep hf q).trans hfactories, ?_⟩
  intro id found hc
  exact step_cached_of_some hsep hf q (hcached id found hc)

theorem run_cached (hr : (run make meets world past).2.registries[n]? = some r)
    (hfuture : ∀ q ∈ future, ¬ q.ProvidesAt n id) :
    (run make meets world (past ++ future)).2.shelf.cached? r id =
      (run make meets world past).2.shelf.cached? r id := by
  have hrun : (run make meets world (past ++ future)).2.registries[n]? = some r ∧
      (run make meets world (past ++ future)).2.shelf.cached? r id =
        (run make meets world past).2.shelf.cached? r id := by
    refine run_induction (P := fun f => f.registries[n]? = some r ∧ f.shelf.cached? r id =
      (run make meets world past).2.shelf.cached? r id) ⟨hr, rfl⟩ ?_
    rintro f hsep ⟨hf, hcached⟩ q hq
    exact ⟨registry_step hf q, (step_cached hsep hf q (hfuture q hq)).trans hcached⟩
  exact hrun.2

theorem run_tells (hr : (run make meets world past).2.registries[n]? = some r) :
    (lineage (run make meets world past).1 n).Tells ((run make meets world past).2.shelf.factoriesOf r)
      ((run make meets world past).2.shelf.instancesOf r) := by
  obtain ⟨line, hline, htells⟩ := (run_follows world past).line_at hr
  rw [lineage, hline]
  exact htells

theorem run_ids (hr : (run make meets world past).2.registries[n]? = some r) :
    (run make meets world (past ++ future)).2.shelf.ids r =
      (run make meets world past).2.shelf.ids r := by
  obtain ⟨hr', hfactories, -⟩ := run_keeps hr future
  rw [Shelf.ids_of_tells (run_tells hr'), Shelf.ids_of_tells (run_tells hr), hfactories]

theorem run_has (hr : (run make meets world past).2.registries[n]? = some r) (id : String) :
    (run make meets world (past ++ future)).2.shelf.has r id =
      (run make meets world past).2.shelf.has r id := by
  obtain ⟨hr', hfactories, -⟩ := run_keeps hr future
  rw [Bool.eq_iff_iff, Shelf.has_iff_of_tells (run_tells hr'), Shelf.has_iff_of_tells (run_tells hr),
    hfactories]

theorem run_unchanged (hr : (run make meets world past).2.registries[n]? = some r)
    (hfuture : ∀ q ∈ future, ¬ q.ProvidesOn n) :
    Shelf.Unchanged r (run make meets world past).2.shelf
      (run make meets world (past ++ future)).2.shelf where
  has := run_has hr
  ids := run_ids hr
  factory id := congrArg (fun m => m.get? id) (run_keeps hr _).2.1
  cached id := run_cached hr fun q hq ⟨expected, hprovides⟩ => hfuture q hq ⟨id, expected, hprovides⟩

theorem run_caches (hr : (run make meets world past).2.registries[n]? = some r) (id : String)
    (expected : Option κ) : Shelf.Caches r id (run make meets world past).2.shelf
      (run make meets world (past ++ [.provide n id expected])).2.shelf where
  has := run_has hr
  ids := run_ids hr
  factory other := congrArg (fun m => m.get? other) (run_keeps hr _).2.1
  cached other hne := by
    refine run_cached hr fun q hq hprovides => ?_
    obtain ⟨_, heq⟩ := hprovides
    rw [List.mem_singleton.mp hq] at heq
    cases heq
    exact hne rfl
  kept := (run_keeps hr _).2.2 id

/-- Providing is refused for want of a provider just when the registry has none. -/
theorem step_refuses_iff (hr : f.registries[n]? = some r) (expected : Option κ) :
    (f.step make meets (.provide n id expected)).1 =
      .provided n id .unregistered (.error .unregistered) ↔ ¬ f.shelf.has r id := by
  have hhas : f.shelf.has r id =
    ((f.shelf.factory? r id).isSome || (f.shelf.cached? r id).isSome) := rfl
  rw [step_provide hr, hhas]
  rcases Shelf.provide_cases make id f.world f.shelf r with
    ⟨found, hc, heq⟩ | ⟨hc, ⟨hf, heq⟩ | ⟨factory, hf, ⟨found, world, -, heq⟩ | ⟨e, world, -, heq⟩⟩⟩
  · simp [heq, hc]
  · simp [heq, hc, hf, Provision.outcome]
  · simp [heq, hf]
  · simp [heq, hf]

/-- A caller hears of a missing provider just when the registry has none, unless the factory that it runs
raises such an error. -/
theorem step_lacks_iff {lacks : ε → Prop} (hr : f.registries[n]? = some r)
    (hfactory : ∀ factory, f.shelf.factory? r id = some factory →
      ∀ e w, make id factory f.world = .error e w → ¬ lacks e) (expected : Option κ) :
    (∃ provision refusal, (f.step make meets (.provide n id expected)).1 =
      .provided n id provision (.error refusal) ∧ refusal.Lacks lacks) ↔ ¬ f.shelf.has r id := by
  constructor
  · rintro ⟨provision, refusal, hstep, hlacks⟩
    have hprovide := hstep
    rw [step_provide hr] at hprovide
    simp only [Event.provided.injEq, true_and] at hprovide
    obtain ⟨rfl, houtcome⟩ := hprovide
    rcases Provision.of_lacks houtcome hlacks with hnone | ⟨e, hraised, he⟩
    · rw [hnone] at hstep houtcome
      cases houtcome
      exact (step_refuses_iff hr expected).mp hstep
    · rcases Shelf.provide_cases make id f.world f.shelf r with
        ⟨found, -, heq⟩ | ⟨-, ⟨-, heq⟩ | ⟨factory, hf, ⟨found, w, -, heq⟩ | ⟨e', w, hmake, heq⟩⟩⟩
      · simp [heq] at hraised
      · simp [heq] at hraised
      · simp [heq] at hraised
      · rw [heq] at hraised
        cases hraised
        exact absurd he (hfactory factory hf e w hmake)
  · intro hnone
    exact ⟨_, _, (step_refuses_iff hr expected).mpr hnone, trivial⟩

/-- A registry that is made from another has all that the other one has. -/
theorem step_derives (hr : f.registries[n]? = some r) {q : Request φ κ σ} (hq : q.Derives n) :
    ∃ child, (f.step make meets q).2.registries = f.registries ++ [child] ∧
      ∀ id, f.shelf.has r id → (f.step make meets q).2.shelf.has child id := by
  rcases hq with rfl | ⟨id, factory, rfl⟩
  · simp only [step, hr]
    refine ⟨_, rfl, fun id hid => ?_⟩
    rw [Shelf.has, bear, Shelf.fork, Shelf.factoriesOf_add, Shelf.instancesOf_add]
    exact hid
  · simp only [step, hr]
    refine ⟨_, rfl, fun other hother => ?_⟩
    rw [Shelf.has, bear, Shelf.register_eq_add, Shelf.factoriesOf_add, Shelf.instancesOf_add]
    rw [Shelf.has, Bool.or_eq_true] at hother
    rw [Bool.or_eq_true, OrderedMap.contains_iff, OrderedMap.keys_insert]
    rcases hother with hfactory | hinstance
    · left
      rw [OrderedMap.contains_iff] at hfactory
      split
      · exact hfactory
      · exact List.mem_append_left _ hfactory
    · exact .inr hinstance

theorem run_derives (hr : (run make meets world past).2.registries[n]? = some r)
    {q : Request φ κ σ} (hq : q.Derives n) : ∃ child,
      (((run make meets world past).2.step make meets q).2.registries =
          (run make meets world past).2.registries ++ [child] ∧
        (run make meets world (past ++ [q])).2.registries[
          (run make meets world past).2.registries.length]? = some child) ∧
      ∀ id, (run make meets world past).2.shelf.has r id →
        (run make meets world (past ++ [q])).2.shelf.has child id := by
  rw [run_concat, record]
  obtain ⟨child, hchild, hhas⟩ := step_derives hr hq
  refine ⟨child, ⟨hchild, ?_⟩, hhas⟩
  rw [hchild]
  simp

/-- Requests that do not provide through a registry change nothing that it reports and nothing that it would
provide from; one that does may cache one instance for its identifier. The identifiers that a registry
reports are different from one another, they are those that it has, those that it does not refuse to provide,
and those registered on its lineage, and they stay with all that is ever made from it. For the others a caller
hears of a missing provider, and for these only from a factory that raises such an error. -/
theorem registries_isolated (lacks : ε → Prop) {events : List (Event φ ι ε κ)}
    (hrun : run make meets world past = (events, f)) (hr : f.registries[n]? = some r) :
    (∀ future : List (Request φ κ σ), (∀ q ∈ future, ¬ q.ProvidesOn n) →
      Shelf.Unchanged r f.shelf (run make meets world (past ++ future)).2.shelf) ∧
    (∀ id expected,
      Shelf.Caches r id f.shelf (f.step make meets (.provide n id expected)).2.shelf) ∧
    (f.shelf.ids r).Nodup ∧
    (∀ id, (id ∈ f.shelf.ids r ↔ f.shelf.has r id) ∧
      (f.shelf.has r id ↔ ∀ expected, (f.step make meets (.provide n id expected)).1 ≠
        .provided n id .unregistered (.error .unregistered)) ∧
      ((∀ factory, (lineage events n).lastRegistered? id = some factory →
          ∀ e w, make id factory f.world = .error e w → ¬ lacks e) →
        (f.shelf.has r id ↔ ∀ expected, ¬ ∃ provision refusal,
          (f.step make meets (.provide n id expected)).1 = .provided n id provision (.error refusal) ∧
          refusal.Lacks lacks)) ∧
      (f.shelf.has r id ↔ ∃ factory, Deed.registered id factory ∈ lineage events n)) ∧
    ∀ q : Request φ κ σ, q.Derives n → ∃ child,
      (f.step make meets q).2.registries = f.registries ++ [child] ∧
      ∀ (future : List (Request φ κ σ)) (id : String), f.shelf.has r id →
        (run make meets world (past ++ q :: future)).2.shelf.has child id := by
  obtain rfl : events = (run make meets world past).1 := by rw [hrun]
  obtain rfl : f = (run make meets world past).2 := by rw [hrun]
  have htells := run_tells hr
  refine ⟨fun future hfuture => run_unchanged hr hfuture, ?_, ?_, ?_, ?_⟩
  · intro id expected
    have hcaches := run_caches hr id expected
    rwa [run_concat] at hcaches
  · rw [Shelf.ids_of_tells htells]
    exact OrderedMap.nodup_keys _
  · intro id
    refine ⟨?_, ⟨fun hid expected heq => ?_, fun hnever => ?_⟩, fun hfactory => ?_, ?_⟩
    · rw [Shelf.ids_of_tells htells, Shelf.has_iff_of_tells htells]
    · exact (step_refuses_iff hr expected).mp heq hid
    · by_contra hid
      exact hnever none ((step_refuses_iff hr none).mpr hid)
    · have hraises : ∀ factory, (run make meets world past).2.shelf.factory? r id = some factory →
          ∀ e w, make id factory (run make meets world past).2.world = .error e w → ¬ lacks e :=
        fun factory hf => hfactory factory ((htells.factory id).symm.trans hf)
      refine ⟨fun hid expected h => (step_lacks_iff hr hraises expected).mp h hid, fun hnever => ?_⟩
      by_contra hid
      exact hnever none ((step_lacks_iff hr hraises none).mpr hid)
    · rw [Shelf.has_iff_of_tells htells, htells.has_iff]
  · intro q hq
    obtain ⟨child, hchild, hhas⟩ := run_derives hr hq
    refine ⟨child, hchild.1, fun future id hid => ?_⟩
    rw [List.append_cons, run_has hchild.2, hhas id hid]

/-- A registry with dice and its fork, which alone has thrown them. -/
def dicing : List (Request Factory Contract Workshop) :=
  [.create, .register 0 "dice" .gadget, .fork 1, .provide 2 "dice" none]

theorem registries_isolated_dicing :
    (run Workshop.instantiate Workshop.meets {} dicing).2.registries[1]? = some ⟨1, 1, []⟩ ∧
    Shelf.Unchanged ⟨1, 1, []⟩ (run Workshop.instantiate Workshop.meets {} dicing).2.shelf
      (run Workshop.instantiate Workshop.meets {}
        (dicing ++ [.register 1 "cup" .gadget, .provide 3 "cup" none])).2.shelf ∧
    ((run Workshop.instantiate Workshop.meets {} dicing).2.shelf.has ⟨1, 1, []⟩ "dice" ↔
      ∀ expected, ¬ ∃ provision refusal, ((run Workshop.instantiate Workshop.meets {} dicing).2.step
          Workshop.instantiate Workshop.meets (.provide 1 "dice" expected)).1 =
        .provided 1 "dice" provision (.error refusal) ∧ refusal.Lacks Error.LacksProvider) ∧
    ∃ child, ((run Workshop.instantiate Workshop.meets {} dicing).2.step Workshop.instantiate
        Workshop.meets (.fork 1)).2.registries =
          (run Workshop.instantiate Workshop.meets {} dicing).2.registries ++ [child] ∧
      (run Workshop.instantiate Workshop.meets {} (dicing ++ [.fork 1])).2.shelf.has child "dice" := by
  have hr : (run Workshop.instantiate Workshop.meets {} dicing).2.registries[1]? =
    some ⟨1, 1, []⟩ := rfl
  obtain ⟨hothers, _, _, hids, hderives⟩ := registries_isolated Error.LacksProvider rfl hr
  obtain ⟨_, _, hdice, _⟩ := hids "dice"
  obtain ⟨child, hchild, hhas⟩ := hderives (.fork 1) (.inl rfl)
  refine ⟨hr, hothers _ ?_, hdice ?_, child, hchild, hhas [] "dice" rfl⟩
  · rintro q hq ⟨id, expected, rfl⟩
    simp at hq
  · intro factory hfactory e w hmake
    cases hfactory
    cases hmake

/-- The factory of a set of dice that needs a cup. The registry has the set, and yet a caller hears of a missing
provider. -/
theorem lack_passed_on :
    let missing := Error.capability (.unregistered "cup")
    let (_, family) := run (ε := Error) (ι := Provided) Workshop.instantiate Workshop.meets {}
      ([.create, .register 0 "dice" (.fails missing)] : List (Request Factory Contract Workshop))
    family.registries[1]? = some ⟨1, 1, []⟩ ∧ family.shelf.has ⟨1, 1, []⟩ "dice" = true ∧
      Work.provide ⟨1, 1, []⟩ "dice" none (family.shelf, family.world) =
        .error missing (family.shelf, family.world) ∧
      missing.LacksProvider :=
  ⟨rfl, rfl, rfl, "cup", rfl⟩

end Family

end Cardplay

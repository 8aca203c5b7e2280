import Cardplay.Capability.Services
import Cardplay.Proofs.Capability.Ownership

/-!
# The stock of services

What the registries of one workshop have cached. Each service is made under a number of its own, so no service
is cached under two identifiers, and registries that cached a service separately have different ones
(`Stocked`). The random services of the registries all come from one seed as long as nobody registers another
factory for them.
-/

set_option autoImplicit false

namespace Cardplay

/-- A random service stands at the start of its stream. -/
def Service.Unused (service : Service) : Prop :=
  ∀ seed generator, service = .random seed generator → generator = .ofSeed seed

namespace Workshop
variable {id : String} {factory : Factory} {w w' : Workshop} {found : Provided}

/-- What a factory makes is a new unused service or a plain value. -/
theorem instantiate_made (h : Workshop.instantiate id factory w = .ok found w') :
    (∃ service, found = .service w.services.length ∧ w'.services = w.services ++ [service] ∧
      service.Unused) ∨
    ∃ v, found = .plain v ∧ w'.services = w.services := by
  cases factory with
  | logger =>
    cases h
    exact .inl ⟨_, rfl, rfl, by simp [Service.Unused]⟩
  | random seed =>
    cases h
    refine .inl ⟨_, rfl, rfl, fun seed' generator heq => ?_⟩
    cases heq
    rfl
  | storage space =>
    cases h
    exact .inl ⟨_, rfl, rfl, by simp [Service.Unused]⟩
  | eventBus =>
    cases h
    exact .inl ⟨_, rfl, rfl, by simp [Service.Unused]⟩
  | gadget =>
    cases h
    exact .inl ⟨_, rfl, rfl, by simp [Service.Unused]⟩
  | plain v =>
    cases h
    exact .inr ⟨v, rfl, rfl⟩
  | fails e => cases h
  | uncallable v => cases v <;> cases h

theorem instantiate_raised {e : Error} (h : Workshop.instantiate id factory w = .error e w') :
    w'.services = w.services := by
  cases factory with
  | fails e =>
    cases h
    rfl
  | uncallable v => cases v <;> (cases h; rfl)
  | _ => cases h

theorem instantiate_random (id : String) (seed : Int) (w : Workshop) : ∃ journal,
    Workshop.instantiate id (.random seed) w =
      .ok (.service w.services.length)
        ⟨w.services ++ [.random seed (.ofSeed seed)], journal⟩ := ⟨_, rfl⟩

end Workshop

/-- Later services: none is gone, and a random service still has its seed. -/
structure Restocked (services services' : List Service) : Prop where
  length_le : services.length ≤ services'.length
  random : ∀ {m : Nat} {seed : Int} {generator}, services[m]? = some (.random seed generator) →
    ∃ generator', services'[m]? = some (.random seed generator')

namespace Restocked
variable {services : List Service}

theorem refl (services : List Service) : Restocked services services := ⟨Nat.le_refl _, fun h => ⟨_, h⟩⟩

theorem append (services : List Service) (service : Service) :
    Restocked services (services ++ [service]) where
  length_le := by
    rw [List.length_append]
    omega
  random h := by
    obtain ⟨hm, -⟩ := List.getElem?_eq_some_iff.mp h
    exact ⟨_, (List.getElem?_append_left hm).trans h⟩

theorem set {m : Nat} {seed : Int} {generator : Generator}
    (h : services[m]? = some (.random seed generator)) (next : Generator) :
    Restocked services (services.set m (.random seed next)) where
  length_le := Nat.le_of_eq List.length_set.symm
  random {m' seed' generator'} h' := by
    by_cases hm : m' = m
    · subst hm
      cases h.symm.trans h'
      obtain ⟨hlt, -⟩ := List.getElem?_eq_some_iff.mp h
      exact ⟨next, List.getElem?_set_self hlt⟩
    · exact ⟨generator', (List.getElem?_set_ne (Ne.symm hm)).trans h'⟩

end Restocked

/-- What registries that come from a default one have cached in a workshop. -/
structure Stocked (seed : Int) (shelf : Services) (services : List Service)
    (registries : List Registry) : Prop where
  separate : shelf.Separate registries
  factory : ∀ r ∈ registries, shelf.factory? r Capability.random.id = some (.random seed)
  inStock : ∀ r ∈ registries, ∀ {id m}, shelf.cached? r id = some (.service m) → m < services.length
  random : ∀ r ∈ registries, ∀ {found}, shelf.cached? r Capability.random.id = some found →
    ∃ m generator, found = .service m ∧ services[m]? = some (.random seed generator)
  filed : ∀ r ∈ registries, ∀ q ∈ registries, ∀ {id other m},
    shelf.cached? r id = some (.service m) → shelf.cached? q other = some (.service m) → id = other

namespace Stocked
variable {seed : Int} {shelf : Services} {services services' : List Service}
  {registries : List Registry} {r : Registry}

theorem restock (h : Stocked seed shelf services registries) (hs : Restocked services services') :
    Stocked seed shelf services' registries where
  separate := h.separate
  factory := h.factory
  inStock r hr id m hc := Nat.lt_of_lt_of_le (h.inStock r hr hc) hs.length_le
  random r hr found hc := by
    obtain ⟨m, generator, hfound, hm⟩ := h.random r hr hc
    obtain ⟨generator', hm'⟩ := hs.random hm
    exact ⟨m, generator', hfound, hm'⟩
  filed := h.filed

/-- What is made for the random capability is a random service with the seed of all of them. -/
theorem makes_random (h : Stocked seed shelf services registries) (hr : r ∈ registries)
    {factory : Factory} (hfactory : shelf.factory? r Capability.random.id = some factory)
    {w w' : Workshop} {found : Provided}
    (hmade : Workshop.instantiate Capability.random.id factory w = .ok found w') :
    ∃ m generator, found = .service m ∧ w'.services[m]? = some (.random seed generator) := by
  rw [h.factory r hr] at hfactory
  cases hfactory
  obtain ⟨journal, hrandom⟩ := Workshop.instantiate_random Capability.random.id seed w
  cases hrandom.symm.trans hmade
  exact ⟨_, .ofSeed seed, rfl, List.getElem?_concat_length⟩

/-- A registry that is made from another starts with what that one has cached. -/
theorem add (h : Stocked seed shelf services registries) (hr : r ∈ registries)
    {factories : OrderedMap Factory}
    (hfactory : factories.get? Capability.random.id = some (.random seed)) (builtIn : List String) :
    Stocked seed (shelf.add factories (shelf.instancesOf r) builtIn).2 services
      (registries ++ [(shelf.add factories (shelf.instancesOf r) builtIn).1]) := by
  have hsource : ∀ q ∈ registries ++ [(shelf.add factories (shelf.instancesOf r) builtIn).1],
      (shelf.add factories (shelf.instancesOf r) builtIn).2.factory? q Capability.random.id =
        some (.random seed) ∧
      ∃ p ∈ registries, ∀ id,
        (shelf.add factories (shelf.instancesOf r) builtIn).2.cached? q id = shelf.cached? p id := by
    intro q hq
    rcases List.mem_append.mp hq with hold | hnew
    · have hsame := (Shelf.Keeps.add factories (shelf.instancesOf r) builtIn
        (h.separate.holds q hold)).unchanged
      exact ⟨(hsame.factory _).trans (h.factory q hold), q, hold, hsame.cached⟩
    · rw [List.mem_singleton.mp hnew]
      refine ⟨?_, r, hr, fun id => ?_⟩
      · rwa [Shelf.factory?, Shelf.factoriesOf_add]
      · rw [Shelf.cached?, Shelf.instancesOf_add, Shelf.cached?]
  constructor
  · exact h.separate.add factories (shelf.instancesOf r) builtIn
  · exact fun q hq => (hsource q hq).1
  · intro q hq id m hc
    obtain ⟨-, p, hp, hsame⟩ := hsource q hq
    exact h.inStock p hp ((hsame id).symm.trans hc)
  · intro q hq found hc
    obtain ⟨-, p, hp, hsame⟩ := hsource q hq
    exact h.random p hp ((hsame _).symm.trans hc)
  · intro q hq q' hq' id other m hc hc'
    obtain ⟨-, p, hp, hsame⟩ := hsource q hq
    obtain ⟨-, p', hp', hsame'⟩ := hsource q' hq'
    exact h.filed p hp p' hp' ((hsame id).symm.trans hc) ((hsame' other).symm.trans hc')

/-- A registry has cached something under a new number, or something that is no service. -/
theorem putInstance (h : Stocked seed shelf services registries) (hr : r ∈ registries) {id : String}
    {found : Provided} (hs : Restocked services services')
    (hnew : ∀ m, found = .service m → m = services.length ∧ m < services'.length)
    (hrandom : id = Capability.random.id →
      ∃ m generator, found = .service m ∧ services'[m]? = some (.random seed generator)) :
    Stocked seed (shelf.putInstance r id found) services' registries := by
  have hold := h.restock hs
  have hcached := fun q (hq : q ∈ registries) other =>
    h.separate.cached_putInstance hr hq id other found
  have hfresh : ∀ q ∈ registries, ∀ other m, found = .service m →
      shelf.cached? q other ≠ some (.service m) := by
    intro q hq other m hm hc
    have hlt := h.inStock q hq hc
    have heq := (hnew m hm).1
    omega
  constructor
  · exact h.separate.putInstance r id found
  · exact h.factory
  · intro q hq other m hc
    rw [hcached q hq] at hc
    split at hc
    · exact (hnew m (Option.some.inj hc)).2
    · exact hold.inStock q hq hc
  · intro q hq x hc
    rw [hcached q hq] at hc
    split at hc
    · rename_i heq
      rw [← Option.some.inj hc]
      exact hrandom heq.2.symm
    · exact hold.random q hq hc
  · intro q hq q' hq' other other' m hc hc'
    rw [hcached q hq] at hc
    rw [hcached q' hq'] at hc'
    split at hc
    · rename_i heq
      split at hc'
      · rename_i heq'
        rw [heq.2, heq'.2]
      · exact absurd hc' (hfresh q' hq' other' m (Option.some.inj hc))
    · split at hc'
      · exact absurd hc (hfresh q hq other m (Option.some.inj hc'))
      · exact h.filed q hq q' hq' hc hc'

end Stocked

end Cardplay

import Cardplay.Capability.Registry

/-!
# Ownership

Registries that come from copies have their maps to themselves (`Shelf.Separate`), so a write through one of
them is not seen through another (`Shelf.Keeps.putInstance`), and all that a registry is asked for depends on
its own two maps (`Shelf.Keeps.unchanged`).
-/

set_option autoImplicit false

namespace Cardplay

/-- Two registries share neither map. -/
structure Registry.Apart (r q : Registry) : Prop where
  factories : r.factories ≠ q.factories
  instances : r.instances ≠ q.instances

theorem Registry.Apart.symm {r q : Registry} (h : r.Apart q) : q.Apart r :=
  ⟨h.factories.symm, h.instances.symm⟩

namespace Shelf
variable {φ ι ε σ : Type} {shelf shelf' : Shelf φ ι} {r q : Registry} {made : List Registry}

/-- A registry reports the same identifiers, and would provide from the same factories and instances. -/
structure Unchanged (r : Registry) (shelf shelf' : Shelf φ ι) : Prop where
  has : ∀ id, shelf'.has r id = shelf.has r id
  ids : shelf'.ids r = shelf.ids r
  factory : ∀ id, shelf'.factory? r id = shelf.factory? r id
  cached : ∀ id, shelf'.cached? r id = shelf.cached? r id

/-- A registry finds the same two maps. -/
structure Keeps (r : Registry) (shelf shelf' : Shelf φ ι) : Prop where
  factories : shelf'.factoriesOf r = shelf.factoriesOf r
  instances : shelf'.instancesOf r = shelf.instancesOf r

namespace Keeps

theorem refl (r : Registry) (shelf : Shelf φ ι) : Keeps r shelf shelf := ⟨rfl, rfl⟩

theorem unchanged (h : Keeps r shelf shelf') : Unchanged r shelf shelf' where
  has id := by
    unfold Shelf.has
    rw [h.factories, h.instances]
  ids := by
    unfold Shelf.ids
    rw [h.factories, h.instances]
  factory id := congrArg (fun m => m.get? id) h.factories
  cached id := congrArg (fun m => m.get? id) h.instances

end Keeps

/-- Both maps of the registry stand on the shelf. -/
structure Holds (shelf : Shelf φ ι) (r : Registry) : Prop where
  factories : r.factories < shelf.factories.length
  instances : r.instances < shelf.instances.length

section Add
variable (factories : OrderedMap φ) (instances : OrderedMap ι) (builtIn : List String)

theorem register_eq_add (shelf : Shelf φ ι) (r : Registry) (id : String) (factory : φ) :
    shelf.register r id factory =
      shelf.add ((shelf.factoriesOf r).insert id factory) (shelf.instancesOf r) r.builtIn := by
  simp [register, fork, add, putFactory, factoriesOf]

theorem holds_add : (shelf.add factories instances builtIn).2.Holds
    (shelf.add factories instances builtIn).1 := by
  constructor <;> simp [add]

@[simp] theorem factoriesOf_add : (shelf.add factories instances builtIn).2.factoriesOf
    (shelf.add factories instances builtIn).1 = factories := by
  simp [add, factoriesOf]

@[simp] theorem instancesOf_add : (shelf.add factories instances builtIn).2.instancesOf
    (shelf.add factories instances builtIn).1 = instances := by
  simp [add, instancesOf]

theorem Holds.add (h : shelf.Holds r) : (shelf.add factories instances builtIn).2.Holds r := by
  obtain ⟨hf, hi⟩ := h
  constructor
  · simp only [Shelf.add, List.length_append, List.length_singleton]
    omega
  · simp only [Shelf.add, List.length_append, List.length_singleton]
    omega

theorem Keeps.add (h : shelf.Holds r) : Keeps r shelf (shelf.add factories instances builtIn).2 := by
  constructor
  · simp only [Shelf.add, factoriesOf, List.getElem?_append_left h.factories]
  · simp only [Shelf.add, instancesOf, List.getElem?_append_left h.instances]

theorem Holds.apart_add (h : shelf.Holds r) :
    r.Apart (shelf.add factories instances builtIn).1 :=
  ⟨Nat.ne_of_lt h.factories, Nat.ne_of_lt h.instances⟩

end Add

section Put
variable (id : String) (made : ι)

theorem Holds.putInstance (h : shelf.Holds q) : (shelf.putInstance r id made).Holds q :=
  ⟨h.factories, by simpa [Shelf.putInstance] using h.instances⟩

theorem factoriesOf_putInstance :
    (shelf.putInstance r id made).factoriesOf q = shelf.factoriesOf q := rfl

theorem instancesOf_putInstance (h : shelf.Holds r) :
    (shelf.putInstance r id made).instancesOf r = (shelf.instancesOf r).insert id made := by
  simp [putInstance, instancesOf, h.instances]

theorem Keeps.putInstance (shelf : Shelf φ ι) (id : String) (made : ι) (h : q.Apart r) :
    Keeps q shelf (shelf.putInstance r id made) := by
  refine ⟨rfl, ?_⟩
  simp only [Shelf.putInstance, instancesOf, List.getElem?_set_ne h.instances.symm]

end Put

/-- Every registry has maps of its own on the shelf. -/
structure Separate (shelf : Shelf φ ι) (made : List Registry) : Prop where
  holds : ∀ r ∈ made, shelf.Holds r
  apart : made.Pairwise Registry.Apart

namespace Separate

theorem nil (shelf : Shelf φ ι) : shelf.Separate [] := ⟨by simp, .nil⟩

theorem holds_at {n : Nat} (h : shelf.Separate made) (hr : made[n]? = some r) : shelf.Holds r :=
  h.holds r (List.mem_of_getElem? hr)

theorem apart_at {m n : Nat} (h : shelf.Separate made) (hr : made[m]? = some r)
    (hq : made[n]? = some q) (hne : m ≠ n) : r.Apart q := by
  have hpair := List.pairwise_iff_getElem.mp h.apart
  obtain ⟨hm, rfl⟩ := List.getElem?_eq_some_iff.mp hr
  obtain ⟨hn, rfl⟩ := List.getElem?_eq_some_iff.mp hq
  rcases Nat.lt_or_gt_of_ne hne with hlt | hgt
  · exact hpair m n hm hn hlt
  · exact (hpair n m hn hm hgt).symm

theorem add (h : shelf.Separate made) (factories : OrderedMap φ) (instances : OrderedMap ι)
    (builtIn : List String) : (shelf.add factories instances builtIn).2.Separate
      (made ++ [(shelf.add factories instances builtIn).1]) := by
  constructor
  · intro r hr
    rcases List.mem_append.mp hr with hold | hnew
    · exact (h.holds r hold).add factories instances builtIn
    · rw [List.mem_singleton.mp hnew]
      exact holds_add factories instances builtIn
  · refine List.pairwise_append.mpr ⟨h.apart, List.pairwise_singleton _ _, fun r hr q hq => ?_⟩
    rw [List.mem_singleton.mp hq]
    exact (h.holds r hr).apart_add factories instances builtIn

theorem putInstance (h : shelf.Separate made) (r : Registry) (id : String) (found : ι) :
    (shelf.putInstance r id found).Separate made :=
  ⟨fun q hq => (h.holds q hq).putInstance id found, h.apart⟩

theorem apart_of_ne (h : shelf.Separate made) (hr : r ∈ made) (hq : q ∈ made) (hne : r ≠ q) :
    r.Apart q := by
  obtain ⟨m, hm⟩ := List.mem_iff_getElem?.mp hr
  obtain ⟨n, hn⟩ := List.mem_iff_getElem?.mp hq
  refine h.apart_at hm hn ?_
  rintro rfl
  exact hne (Option.some.inj (hm.symm.trans hn))

/-- What is cached for one registry is found there and nowhere else. -/
theorem cached_putInstance (h : shelf.Separate made) (hr : r ∈ made) (hq : q ∈ made)
    (id other : String) (found : ι) : (shelf.putInstance r id found).cached? q other =
      if q = r ∧ other = id then some found else shelf.cached? q other := by
  by_cases hqr : q = r
  · subst hqr
    rw [cached?, instancesOf_putInstance id found (h.holds q hq)]
    by_cases ho : other = id
    · subst ho
      simp
    · rw [OrderedMap.get?_insert_of_ne _ ho, if_neg (by simp [ho])]
      rfl
  · rw [if_neg (by simp [hqr])]
    exact (Keeps.putInstance shelf id found (h.apart_of_ne hq hr hqr)).unchanged.cached other

end Separate

section Provide
variable (make : String → φ → EStateM ε σ ι) (id : String) (s : σ)

theorem provide_of_cached {found : ι} (h : shelf.cached? r id = some found) :
    shelf.provide make r id s = (.cached found, shelf, s) := by
  simp only [provide, h]

theorem provide_of_factory {factory : φ} (h : shelf.cached? r id = none)
    (hf : shelf.factory? r id = some factory) :
    shelf.provide make r id s = shelf.instantiate make r id factory s := by
  simp only [provide, h, hf]

theorem provide_of_unregistered (h : shelf.cached? r id = none)
    (hf : shelf.factory? r id = none) :
    shelf.provide make r id s = (.unregistered, shelf, s) := by
  simp only [provide, h, hf]

/-- All that can come of providing. -/
theorem provide_cases (shelf : Shelf φ ι) (r : Registry) :
    (∃ found, shelf.cached? r id = some found ∧
      shelf.provide make r id s = (.cached found, shelf, s)) ∨
    shelf.cached? r id = none ∧
      (shelf.factory? r id = none ∧ shelf.provide make r id s = (.unregistered, shelf, s) ∨
      ∃ factory, shelf.factory? r id = some factory ∧
        ((∃ found s', make id factory s = .ok found s' ∧
          shelf.provide make r id s = (.made found, shelf.putInstance r id found, s')) ∨
        ∃ e s', make id factory s = .error e s' ∧
          shelf.provide make r id s = (.raised e, shelf, s'))) := by
  cases hc : shelf.cached? r id with
  | some found => exact .inl ⟨found, rfl, provide_of_cached make id s hc⟩
  | none =>
    refine .inr ⟨rfl, ?_⟩
    cases hf : shelf.factory? r id with
    | none => exact .inl ⟨rfl, provide_of_unregistered make id s hc hf⟩
    | some factory =>
      refine .inr ⟨factory, rfl, ?_⟩
      rw [provide_of_factory make id s hc hf, instantiate]
      cases make id factory s with
      | ok found s' => exact .inl ⟨found, s', rfl, rfl⟩
      | error e s' => exact .inr ⟨e, s', rfl, rfl⟩

end Provide

end Shelf

end Cardplay

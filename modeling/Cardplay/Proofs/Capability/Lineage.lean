import Cardplay.Proofs.Capability.Ownership
import Mathlib.Data.List.Induction
import Mathlib.Data.List.Nodup

/-!
# Lineages

The lineage of a registry is what was registered and made on the way to it: by itself, and by each of its
ancestors before the step that led towards it. Whatever was asked of any registries in whatever order, the
lineage alone tells both maps of a registry (`Family.run_follows`), and only providing through a registry adds
to what it has cached (`Family.step_shelf`).
-/

set_option autoImplicit false

namespace Cardplay

/-- Something that adds to a registry. -/
inductive Deed (φ ι : Type)
  | registered (id : String) (factory : φ)
  | made (id : String) (found : ι)

abbrev Lineage (φ ι : Type) := List (Deed φ ι)

namespace Lineage
variable {φ ι : Type} {line : Lineage φ ι} {factories : OrderedMap φ} {instances : OrderedMap ι}
  {id : String}

def registrations (line : Lineage φ ι) : List (String × φ) :=
  line.filterMap fun
    | .registered id factory => some (id, factory)
    | .made _ _ => none

def makings (line : Lineage φ ι) : List (String × ι) :=
  line.filterMap fun
    | .registered _ _ => none
    | .made id found => some (id, found)

def lastRegistered? (line : Lineage φ ι) (id : String) : Option φ :=
  Entries.find? id line.registrations.reverse

def firstMade? (line : Lineage φ ι) (id : String) : Option ι := Entries.find? id line.makings

theorem mem_registrations_iff :
    id ∈ line.registrations.map Prod.fst ↔ ∃ factory, Deed.registered id factory ∈ line := by
  simp only [registrations, List.mem_map, List.mem_filterMap]
  constructor
  · rintro ⟨⟨_, factory⟩, ⟨deed, hdeed, heq⟩, rfl⟩
    cases deed with
    | registered id' factory' =>
      cases heq
      exact ⟨factory, hdeed⟩
    | made id' found => cases heq
  · rintro ⟨factory, hdeed⟩
    exact ⟨(id, factory), ⟨_, hdeed, rfl⟩, rfl⟩

/-- The maps hold what the lineage says, and nothing was made twice or without a factory. -/
structure Tells (line : Lineage φ ι) (factories : OrderedMap φ) (instances : OrderedMap ι) : Prop where
  factories_eq : factories = .ofList line.registrations
  instances_eq : instances = .ofList line.makings
  once : (line.makings.map Prod.fst).Nodup
  registered : ∀ id ∈ line.makings.map Prod.fst, id ∈ line.registrations.map Prod.fst

namespace Tells

theorem nil : Tells ([] : Lineage φ ι) .empty .empty := ⟨rfl, rfl, .nil, by simp [makings]⟩

theorem register (h : line.Tells factories instances) (id : String) (factory : φ) :
    Tells (line ++ [.registered id factory]) (factories.insert id factory) instances := by
  obtain ⟨hf, hi, honce, hreg⟩ := h
  have hregistrations : registrations (line ++ [.registered id factory]) =
      line.registrations ++ [(id, factory)] := by simp [registrations]
  have hmakings : makings (line ++ [.registered id factory]) = line.makings := by simp [makings]
  refine ⟨?_, by rw [hmakings, hi], by rwa [hmakings], ?_⟩
  · rw [hregistrations, OrderedMap.ofList_concat, hf]
  · intro other hother
    rw [hmakings] at hother
    rw [hregistrations, List.map_append]
    exact List.mem_append_left _ (hreg other hother)

theorem has_iff (h : line.Tells factories instances) (id : String) :
    id ∈ factories.keys ↔ ∃ factory, Deed.registered id factory ∈ line := by
  rw [h.factories_eq, OrderedMap.mem_keys_ofList, mem_registrations_iff]

theorem keys_subset (h : line.Tells factories instances) (hid : id ∈ instances.keys) :
    id ∈ factories.keys := by
  rw [h.instances_eq, OrderedMap.mem_keys_ofList] at hid
  rw [h.factories_eq, OrderedMap.mem_keys_ofList]
  exact h.registered id hid

theorem make (h : line.Tells factories instances) {found : ι} (hnone : instances.get? id = none)
    (hsome : (factories.get? id).isSome) :
    Tells (line ++ [.made id found]) factories (instances.insert id found) := by
  have hnot : id ∉ line.makings.map Prod.fst := by
    rw [← OrderedMap.mem_keys_ofList, ← h.instances_eq, ← OrderedMap.contains_iff,
      OrderedMap.contains, hnone]
    simp
  have hid : id ∈ line.registrations.map Prod.fst := by
    rw [← OrderedMap.mem_keys_ofList, ← h.factories_eq]
    exact OrderedMap.contains_iff.mp hsome
  have hregistrations : registrations (line ++ [.made id found]) = line.registrations := by
    simp [registrations]
  have hmakings : makings (line ++ [.made id found]) = line.makings ++ [(id, found)] := by
    simp [makings]
  refine ⟨by rw [hregistrations, h.factories_eq], ?_, ?_, ?_⟩
  · rw [hmakings, OrderedMap.ofList_concat, h.instances_eq]
  · rw [hmakings, List.map_append]
    refine List.nodup_append.mpr ⟨h.once, List.nodup_singleton _, fun other hother other' heq => ?_⟩
    rw [List.mem_singleton.mp heq]
    rintro rfl
    exact hnot hother
  · intro other hother
    rw [hmakings, List.map_append] at hother
    rw [hregistrations]
    rcases List.mem_append.mp hother with hold | hnew
    · exact h.registered other hold
    · rw [List.mem_singleton.mp hnew]
      exact hid

theorem factory (h : line.Tells factories instances) (id : String) :
    factories.get? id = line.lastRegistered? id := by
  rw [h.factories_eq, OrderedMap.get?_ofList]
  rfl

/-- Nothing is made twice along a lineage, so what was made first is what was made last. -/
theorem cached (h : line.Tells factories instances) (id : String) :
    instances.get? id = line.firstMade? id := by
  rw [h.instances_eq, OrderedMap.get?_ofList]
  ext found
  have hreverse : (line.makings.reverse.map Prod.fst).Nodup := by
    rw [List.map_reverse, List.nodup_reverse]
    exact h.once
  unfold firstMade?
  rw [← Entries.mem_iff_find? hreverse, ← Entries.mem_iff_find? h.once, List.mem_reverse]

end Tells

end Lineage

namespace Shelf
variable {φ ι : Type} {shelf : Shelf φ ι} {registries : List Registry}
  {lines : List (Lineage φ ι)}

/-- Every registry has maps of its own, and its lineage tells what they hold. -/
structure Follows (shelf : Shelf φ ι) (registries : List Registry) (lines : List (Lineage φ ι)) :
    Prop where
  separate : shelf.Separate registries
  length : lines.length = registries.length
  tells : ∀ {n : Nat} {r : Registry} {line : Lineage φ ι}, registries[n]? = some r →
    lines[n]? = some line → line.Tells (shelf.factoriesOf r) (shelf.instancesOf r)

namespace Follows
variable {r : Registry} {line : Lineage φ ι} {n : Nat}

theorem nil : (shelf.Follows [] ([] : List (Lineage φ ι))) := ⟨.nil shelf, rfl, by simp⟩

theorem line_at (h : shelf.Follows registries lines) (hr : registries[n]? = some r) :
    ∃ line, lines[n]? = some line ∧ line.Tells (shelf.factoriesOf r) (shelf.instancesOf r) := by
  obtain ⟨hn, -⟩ := List.getElem?_eq_some_iff.mp hr
  obtain ⟨line, hline⟩ : ∃ line, lines[n]? = some line := by
    rw [← h.length] at hn
    exact ⟨lines[n], List.getElem?_eq_getElem hn⟩
  exact ⟨line, hline, h.tells hr hline⟩

theorem add (h : shelf.Follows registries lines) {factories : OrderedMap φ}
    {instances : OrderedMap ι} (hline : line.Tells factories instances) (builtIn : List String) :
    (shelf.add factories instances builtIn).2.Follows
      (registries ++ [(shelf.add factories instances builtIn).1]) (lines ++ [line]) := by
  refine ⟨h.separate.add factories instances builtIn, by simp [h.length], ?_⟩
  intro m q other hq hother
  rcases Nat.lt_or_ge m registries.length with hm | hm
  · rw [List.getElem?_append_left hm] at hq
    rw [List.getElem?_append_left (h.length ▸ hm)] at hother
    have hkeeps := Keeps.add factories instances builtIn (h.separate.holds_at hq)
    rw [hkeeps.factories, hkeeps.instances]
    exact h.tells hq hother
  · rw [List.getElem?_append_right hm, List.getElem?_singleton] at hq
    rw [List.getElem?_append_right (h.length ▸ hm), List.getElem?_singleton, h.length] at hother
    split at hq
    · rename_i hzero
      rw [if_pos hzero] at hother
      cases hq
      cases hother
      rwa [factoriesOf_add, instancesOf_add]
    · cases hq

theorem putInstance (h : shelf.Follows registries lines) {id : String} {found : ι}
    (hr : registries[n]? = some r) (hnone : shelf.cached? r id = none)
    (hsome : (shelf.factory? r id).isSome) :
    (shelf.putInstance r id found).Follows registries
      (lines.modify n fun line => line ++ [.made id found]) := by
  refine ⟨h.separate.putInstance r id found, by simp [h.length], ?_⟩
  intro m q other hq hother
  by_cases hm : n = m
  · subst hm
    cases hr.symm.trans hq
    obtain ⟨line, hline, htells⟩ := h.line_at hr
    rw [List.getElem?_modify_eq, hline] at hother
    cases hother
    rw [factoriesOf_putInstance, instancesOf_putInstance id found (h.separate.holds_at hr)]
    exact htells.make hnone hsome
  · rw [List.getElem?_modify_ne _ _ hm] at hother
    have hkeeps := Keeps.putInstance shelf id found (h.separate.apart_at hq hr (Ne.symm hm))
    rw [hkeeps.factories, hkeeps.instances]
    exact h.tells hq hother

end Follows

end Shelf

/-- Registries by number, in the order in which they were made, and the world that factories work in. -/
structure Family (φ ι σ : Type) where
  shelf : Shelf φ ι := {}
  registries : List Registry := []
  world : σ

inductive Request (φ κ σ : Type)
  | create
  | register (on : Nat) (id : String) (factory : φ)
  | fork (on : Nat)
  | provide (on : Nat) (id : String) (expected : Option κ)
  | has (on : Nat) (id : String)
  /-- Something that happens in the world and asks nothing of a registry. -/
  | elsewhere (change : σ → σ)

inductive Event (φ ι ε κ : Type)
  | created
  | registered (on : Nat) (id : String) (factory : φ)
  | forked (on : Nat)
  | provided (on : Nat) (id : String) (provision : Provision ε ι)
      (outcome : Except (Refusal ε ι κ) ι)
  | told (on : Nat) (id : String) (answer : Bool)
  | elsewhere
  /-- There is no registry with that number. -/
  | missed

namespace Family
variable {φ ι ε κ σ : Type}

/-- What an event adds to the lineages. A registry that is made goes on from its parent's lineage. -/
def extend (lines : List (Lineage φ ι)) : Event φ ι ε κ → List (Lineage φ ι)
  | .created => lines ++ [[]]
  | .registered on id factory => lines ++ [lines[on]?.getD [] ++ [.registered id factory]]
  | .forked on => lines ++ [lines[on]?.getD []]
  | .provided on id (.made found) _ => lines.modify on fun line => line ++ [.made id found]
  | _ => lines

def lineages (events : List (Event φ ι ε κ)) : List (Lineage φ ι) := events.foldl extend []

def lineage (events : List (Event φ ι ε κ)) (n : Nat) : Lineage φ ι := (lineages events)[n]?.getD []

def bear (f : Family φ ι σ) (born : Registry × Shelf φ ι) : Family φ ι σ :=
  { f with shelf := born.2, registries := f.registries ++ [born.1] }

variable (make : String → φ → EStateM ε σ ι) (meets : σ → ι → κ → Bool)

def step (f : Family φ ι σ) : Request φ κ σ → Event φ ι ε κ × Family φ ι σ
  | .create => (.created, f.bear (f.shelf.add .empty .empty []))
  | .register on id factory =>
    match f.registries[on]? with
    | some r => (.registered on id factory, f.bear (f.shelf.register r id factory))
    | none => (.missed, f)
  | .fork on =>
    match f.registries[on]? with
    | some r => (.forked on, f.bear (f.shelf.fork r))
    | none => (.missed, f)
  | .provide on id expected =>
    match f.registries[on]? with
    | some r =>
      let (provision, shelf, world) := f.shelf.provide make r id f.world
      (.provided on id provision (provision.outcome (meets world) expected), { f with shelf, world })
    | none => (.missed, f)
  | .has on id =>
    match f.registries[on]? with
    | some r => (.told on id (f.shelf.has r id), f)
    | none => (.missed, f)
  | .elsewhere change => (.elsewhere, { f with world := change f.world })

def record (history : List (Event φ ι ε κ) × Family φ ι σ) (q : Request φ κ σ) :
    List (Event φ ι ε κ) × Family φ ι σ :=
  (history.1 ++ [(history.2.step make meets q).1], (history.2.step make meets q).2)

/-- All that happens when the requests are made in order, and what it leads to. -/
def run (world : σ) (requests : List (Request φ κ σ)) : List (Event φ ι ε κ) × Family φ ι σ :=
  requests.foldl (record make meets) ([], { world })

variable {make meets} {f : Family φ ι σ} {lines : List (Lineage φ ι)} {n : Nat} {r : Registry}

theorem run_concat (world : σ) (requests : List (Request φ κ σ)) (q : Request φ κ σ) :
    run make meets world (requests ++ [q]) = record make meets (run make meets world requests) q := by
  rw [run, List.foldl_append]
  rfl

theorem lineages_concat (events : List (Event φ ι ε κ)) (event : Event φ ι ε κ) :
    lineages (events ++ [event]) = extend (lineages events) event := by
  rw [lineages, List.foldl_append]
  rfl

theorem step_provide (hr : f.registries[n]? = some r) (id : String) (expected : Option κ) :
    f.step make meets (.provide n id expected) =
      (.provided n id (f.shelf.provide make r id f.world).1
        ((f.shelf.provide make r id f.world).1.outcome
          (meets (f.shelf.provide make r id f.world).2.2) expected),
        { f with
          shelf := (f.shelf.provide make r id f.world).2.1
          world := (f.shelf.provide make r id f.world).2.2 }) := by
  simp only [step, hr]

theorem step_provide_of_cached (hr : f.registries[n]? = some r) {id : String} {found : ι}
    (h : f.shelf.cached? r id = some found) (expected : Option κ) :
    f.step make meets (.provide n id expected) =
      (.provided n id (.cached found) (Provision.outcome (meets f.world) expected (.cached found)),
        f) := by
  rw [step_provide hr, Shelf.provide_of_cached make id f.world h]

theorem registry_bear (hr : f.registries[n]? = some r) (born : Registry × Shelf φ ι) :
    (f.bear born).registries[n]? = some r := by
  obtain ⟨hn, -⟩ := List.getElem?_eq_some_iff.mp hr
  rw [bear, List.getElem?_append_left hn, hr]

theorem registry_step (hr : f.registries[n]? = some r) (q : Request φ κ σ) :
    (f.step make meets q).2.registries[n]? = some r := by
  cases q with
  | create => exact registry_bear hr _
  | register on id factory =>
    simp only [step]
    split
    · exact registry_bear hr _
    · exact hr
  | fork on =>
    simp only [step]
    split
    · exact registry_bear hr _
    · exact hr
  | provide on id expected =>
    simp only [step]
    split <;> exact hr
  | has on id =>
    simp only [step]
    split <;> exact hr
  | elsewhere change => exact hr

/-- Only providing through a registry changes what it finds, by what a factory made for the first time. -/
theorem step_shelf (h : f.shelf.Separate f.registries) (hr : f.registries[n]? = some r)
    (q : Request φ κ σ) : Shelf.Keeps r f.shelf (f.step make meets q).2.shelf ∨
      ∃ id expected found, q = .provide n id expected ∧ f.shelf.cached? r id = none ∧
        (f.step make meets q).2.shelf = f.shelf.putInstance r id found := by
  have hholds := h.holds_at hr
  cases q with
  | create => exact .inl (.add .empty .empty [] hholds)
  | register on id factory =>
    cases hon : f.registries[on]? with
    | none =>
      simp only [step, hon]
      exact .inl (.refl r _)
    | some q =>
      simp only [step, hon, bear, Shelf.register_eq_add]
      exact .inl (.add _ _ q.builtIn hholds)
  | fork on =>
    cases hon : f.registries[on]? with
    | none =>
      simp only [step, hon]
      exact .inl (.refl r _)
    | some q =>
      simp only [step, hon]
      exact .inl (.add _ _ q.builtIn hholds)
  | provide on id expected =>
    cases hon : f.registries[on]? with
    | none =>
      simp only [step, hon]
      exact .inl (.refl r _)
    | some q =>
      rw [step_provide hon]
      rcases Shelf.provide_cases make id f.world f.shelf q with
        ⟨found, -, heq⟩ | ⟨hnone, ⟨-, heq⟩ | ⟨factory, -, ⟨found, world, -, heq⟩ | ⟨e, world, -, heq⟩⟩⟩
      · rw [heq]
        exact .inl (.refl r _)
      · rw [heq]
        exact .inl (.refl r _)
      · rw [heq]
        by_cases hne : n = on
        · subst hne
          cases hr.symm.trans hon
          exact .inr ⟨id, expected, found, rfl, hnone, rfl⟩
        · exact .inl (.putInstance f.shelf id found (h.apart_at hr hon hne))
      · rw [heq]
        exact .inl (.refl r _)
  | has on id =>
    simp only [step]
    split <;> exact .inl (.refl r _)
  | elsewhere change => exact .inl (.refl r _)

theorem step_follows (h : f.shelf.Follows f.registries lines) (q : Request φ κ σ) :
    (f.step make meets q).2.shelf.Follows (f.step make meets q).2.registries
      (extend lines (f.step make meets q).1) := by
  cases q with
  | create => exact h.add .nil []
  | register on id factory =>
    simp only [step]
    cases hr : f.registries[on]? with
    | none => exact h
    | some r =>
      obtain ⟨line, hline, htells⟩ := h.line_at hr
      simp only [bear, extend, hline, Shelf.register_eq_add]
      exact h.add (htells.register id factory) r.builtIn
  | fork on =>
    simp only [step]
    cases hr : f.registries[on]? with
    | none => exact h
    | some r =>
      obtain ⟨line, hline, htells⟩ := h.line_at hr
      simp only [bear, extend, hline]
      exact h.add htells r.builtIn
  | provide on id expected =>
    cases hr : f.registries[on]? with
    | none =>
      simp only [step, hr]
      exact h
    | some r =>
      rw [step_provide hr]
      rcases Shelf.provide_cases make id f.world f.shelf r with
        ⟨found, -, heq⟩ | ⟨hnone, ⟨-, heq⟩ | ⟨factory, hf, ⟨found, world, -, heq⟩ | ⟨e, world, -, heq⟩⟩⟩
      · rw [heq]
        exact h
      · rw [heq]
        exact h
      · rw [heq]
        exact h.putInstance hr hnone (by simp [hf])
      · rw [heq]
        exact h
  | has on id =>
    simp only [step]
    cases f.registries[on]? with
    | none => exact h
    | some r => exact h
  | elsewhere change => exact h

theorem run_follows (world : σ) (requests : List (Request φ κ σ)) :
    (run make meets world requests).2.shelf.Follows (run make meets world requests).2.registries
      (lineages (run make meets world requests).1) := by
  induction requests using List.reverseRecOn with
  | nil => exact .nil
  | append_singleton past q ih =>
    rw [run_concat, record, lineages_concat]
    exact step_follows ih q

/-- What holds after some requests and is kept by each later one holds after all of them. -/
theorem run_induction {P : Family φ ι σ → Prop} {world : σ} {past future : List (Request φ κ σ)}
    (hpast : P (run make meets world past).2)
    (hstep : ∀ f : Family φ ι σ, f.shelf.Separate f.registries → P f → ∀ q ∈ future,
      P (f.step make meets q).2) :
    P (run make meets world (past ++ future)).2 := by
  induction future using List.reverseRecOn with
  | nil => rwa [List.append_nil]
  | append_singleton before q ih =>
    rw [← List.append_assoc, run_concat]
    refine hstep _ (run_follows world _).separate (ih ?_) q (by simp)
    exact fun f hf hP q hq => hstep f hf hP q (List.mem_append_left _ hq)

end Family

end Cardplay

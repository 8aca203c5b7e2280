import Cardplay.Capability.Services
import Cardplay.Proofs.Capability.Isolation

/-!
# Providing

The lineage of a registry decides what it provides (`Family.provide_by_lineage`): the instance that was made
first on the way to it, or else what the factory that was registered last makes now. What was made stays, also
after a caller who expected another type; a factory that raised is run again.
-/

set_option autoImplicit false

namespace Cardplay

namespace Provision
variable {ε ι κ : Type} {meets : ι → κ → Bool} {expected : Option κ} {found other : ι}

/-- The caller gets the instance, or is refused it for its type. -/
def Concerns (found : ι) (outcome : Except (Refusal ε ι κ) ι) : Prop :=
  outcome = .ok found ∨ ∃ type, outcome = .error (.mistyped found type)

theorem eq_of_concerns
    (h : Concerns found ((made other : Provision ε ι).outcome meets expected)) : other = found := by
  unfold Concerns outcome at h
  cases expected with
  | none => simpa using h
  | some type =>
    simp only at h
    split at h <;> simpa using h

theorem of_concerns {provision : Provision ε ι}
    (h : Concerns found (provision.outcome meets expected)) :
    provision = .cached found ∨ provision = .made found := by
  cases provision with
  | unregistered => simp [Concerns, outcome] at h
  | raised e => simp [Concerns, outcome] at h
  | cached other => exact .inl (congrArg cached (eq_of_concerns h))
  | made other => exact .inr (congrArg made (eq_of_concerns h))

end Provision

/-- A factory succeeds for an identifier of one registry. -/
def Event.Makes {φ ι ε κ : Type} (event : Event φ ι ε κ) (n : Nat) (id : String) : Prop :=
  ∃ found outcome, event = .provided n id (.made found) outcome

namespace Family
variable {φ ι ε κ σ : Type} {make : String → φ → EStateM ε σ ι} {meets : σ → ι → κ → Bool}
  {f : Family φ ι σ} {n : Nat} {r : Registry} {id : String} {world : σ} {expected : Option κ}
  {past future : List (Request φ κ σ)}

variable (make meets) in
/-- One run of a factory for a registry, which caches what it makes. -/
def runFactory (f : Family φ ι σ) (r : Registry) (n : Nat) (id : String) (factory : φ)
    (expected : Option κ) : Event φ ι ε κ × Family φ ι σ :=
  match make id factory f.world with
  | .ok found world =>
    (.provided n id (.made found) (Provision.outcome (meets world) expected (.made found)),
      { f with shelf := f.shelf.putInstance r id found, world })
  | .error e world => (.provided n id (.raised e) (.error (.raised e)), { f with world })

variable (meets) in
/-- What was cached for a registry, given out again. -/
def giveAgain (f : Family φ ι σ) (n : Nat) (id : String) (found : ι) (expected : Option κ) :
    Event φ ι ε κ × Family φ ι σ :=
  (.provided n id (.cached found) (Provision.outcome (meets f.world) expected (.cached found)), f)

section Step
variable (hr : f.registries[n]? = some r)
include hr

theorem step_provide_of_factory (hc : f.shelf.cached? r id = none) {factory : φ}
    (hf : f.shelf.factory? r id = some factory) (expected : Option κ) :
    f.step make meets (.provide n id expected) = f.runFactory make meets r n id factory expected := by
  rw [step_provide hr, Shelf.provide_of_factory make id f.world hc hf, Shelf.instantiate, runFactory]
  cases make id factory f.world with
  | ok found world => rfl
  | error e world => rfl

theorem step_provide_of_unregistered (hc : f.shelf.cached? r id = none)
    (hf : f.shelf.factory? r id = none) (expected : Option κ) :
    f.step make meets (.provide n id expected) =
      (.provided n id .unregistered (.error .unregistered), f) := by
  rw [step_provide hr, Shelf.provide_of_unregistered make id f.world hc hf]
  rfl

theorem outcome_of_step {provision : Provision ε ι} {outcome : Except (Refusal ε ι κ) ι}
    (h : (f.step make meets (.provide n id expected)).1 = .provided n id provision outcome) :
    ∃ world, outcome = provision.outcome (meets world) expected := by
  rw [step_provide hr] at h
  simp only [Event.provided.injEq, true_and] at h
  exact ⟨_, by rw [← h.1, h.2]⟩

/-- An instance comes out of the cache, or out of a factory into the cache. -/
theorem step_caches (hsep : f.shelf.Separate f.registries) {found : ι}
    {provision : Provision ε ι} {outcome : Except (Refusal ε ι κ) ι}
    (h : (f.step make meets (.provide n id expected)).1 = .provided n id provision outcome)
    (hfound : provision = .cached found ∨ provision = .made found) :
    (f.step make meets (.provide n id expected)).2.shelf.cached? r id = some found ∧
      (provision = .made found → f.shelf.cached? r id = none) := by
  rw [step_provide hr] at h ⊢
  rcases Shelf.provide_cases make id f.world f.shelf r with
    ⟨old, hc, heq⟩ | ⟨hc, ⟨-, heq⟩ | ⟨factory, -, ⟨new, world, -, heq⟩ | ⟨e, world, -, heq⟩⟩⟩
  · simp only [heq, Event.provided.injEq, true_and] at h ⊢
    rw [← h.1] at hfound ⊢
    simpa [hc] using hfound
  · simp only [heq, Event.provided.injEq, true_and] at h
    simp [← h.1] at hfound
  · simp only [heq, Event.provided.injEq, true_and] at h ⊢
    refine ⟨?_, fun _ => hc⟩
    rw [Shelf.cached?, Shelf.instancesOf_putInstance _ _ (hsep.holds_at hr),
      OrderedMap.get?_insert_self]
    simpa [← h.1] using hfound
  · simp only [heq, Event.provided.injEq, true_and] at h
    simp [← h.1] at hfound

theorem step_raised {e : ε} {outcome : Except (Refusal ε ι κ) ι}
    (h : (f.step make meets (.provide n id expected)).1 = .provided n id (.raised e) outcome) :
    f.shelf.cached? r id = none ∧ (f.step make meets (.provide n id expected)).2.shelf = f.shelf := by
  rw [step_provide hr] at h ⊢
  rcases Shelf.provide_cases make id f.world f.shelf r with
    ⟨old, -, heq⟩ | ⟨hc, ⟨-, heq⟩ | ⟨factory, -, ⟨new, world, -, heq⟩ | ⟨e, world, -, heq⟩⟩⟩
  · simp [heq] at h
  · simp [heq] at h
  · simp [heq] at h
  · rw [heq]
    exact ⟨hc, rfl⟩

end Step

theorem step_makes (hsep : f.shelf.Separate f.registries) {q : Request φ κ σ}
    (h : (f.step make meets q).1.Makes n id) : ∃ r, f.registries[n]? = some r ∧
      f.shelf.cached? r id = none ∧ ((f.step make meets q).2.shelf.cached? r id).isSome := by
  obtain ⟨found, outcome, h⟩ := h
  cases q with
  | create => cases h
  | register on other factory =>
    simp only [step] at h
    split at h <;> cases h
  | fork on =>
    simp only [step] at h
    split at h <;> cases h
  | has on other =>
    simp only [step] at h
    split at h <;> cases h
  | elsewhere change => cases h
  | provide on other expected =>
    cases hr : f.registries[on]? with
    | none =>
      simp only [step, hr] at h
      cases h
    | some r =>
      obtain ⟨rfl, rfl⟩ : on = n ∧ other = id := by
        rw [step_provide hr] at h
        simp only [Event.provided.injEq] at h
        exact ⟨h.1, h.2.1⟩
      obtain ⟨hcached, hnone⟩ := step_caches hr hsep h (.inr rfl)
      exact ⟨r, hr, hnone rfl, by simp [hcached]⟩

theorem run_cached_of_makes {e : Event φ ι ε κ} (he : e ∈ (run make meets world past).1)
    (hmakes : e.Makes n id) : ∃ r found, (run make meets world past).2.registries[n]? = some r ∧
      (run make meets world past).2.shelf.cached? r id = some found := by
  induction past using List.reverseRecOn with
  | nil => cases he
  | append_singleton before q ih =>
    have hsep : (run make meets world before).2.shelf.Separate (run make meets world before).2.registries :=
      (run_follows world before).separate
    rw [run_concat, record] at he ⊢
    rcases List.mem_append.mp he with hold | hnew
    · obtain ⟨r, found, hr, hc⟩ := ih hold
      exact ⟨r, found, registry_step hr q, step_cached_of_some hsep hr q hc⟩
    · rw [List.mem_singleton.mp hnew] at hmakes
      obtain ⟨r, hr, -, hsome⟩ := step_makes hsep hmakes
      obtain ⟨found, hc⟩ := Option.isSome_iff_exists.mp hsome
      exact ⟨r, found, registry_step hr q, hc⟩

theorem run_makes_once (world : σ) (past : List (Request φ κ σ)) (n : Nat) (id : String) :
    (run make meets world past).1.Pairwise fun e e' => ¬ (e.Makes n id ∧ e'.Makes n id) := by
  induction past using List.reverseRecOn with
  | nil => exact .nil
  | append_singleton before q ih =>
    rw [run_concat, record]
    refine List.pairwise_append.mpr ⟨ih, List.pairwise_singleton _ _, ?_⟩
    rintro e he e' he' ⟨hmakes, hmakes'⟩
    rw [List.mem_singleton.mp he'] at hmakes'
    obtain ⟨r, found, hr, hc⟩ := run_cached_of_makes he hmakes
    obtain ⟨r', hr', hnone, -⟩ := step_makes (run_follows world before).separate hmakes'
    rw [hr] at hr'
    cases hr'
    rw [hc] at hnone
    cases hnone

/-- What a registry provides for an identifier: what was made first on its lineage, without running a factory,
or what one run makes of the factory that was registered last, or nothing. A caller who got an instance or was
refused it for its type settles what every later caller gets; after a factory has raised, the next caller runs
it again. For no registry does a factory succeed twice. -/
theorem provide_by_lineage {events : List (Event φ ι ε κ)}
    (hrun : run make meets world past = (events, f)) (hr : f.registries[n]? = some r) (id : String) :
    (∀ found, (lineage events n).firstMade? id = some found → ∀ expected,
      f.step make meets (.provide n id expected) = f.giveAgain meets n id found expected) ∧
    ((lineage events n).firstMade? id = none →
      (∀ factory, (lineage events n).lastRegistered? id = some factory → ∀ expected,
        f.step make meets (.provide n id expected) =
          f.runFactory make meets r n id factory expected) ∧
      ((lineage events n).lastRegistered? id = none → ∀ expected,
        f.step make meets (.provide n id expected) =
          (.provided n id .unregistered (.error .unregistered), f))) ∧
    (∀ expected provision outcome found,
      (f.step make meets (.provide n id expected)).1 = .provided n id provision outcome →
      Provision.Concerns found outcome → ∀ (future : List (Request φ κ σ)) expected',
        let later := (run make meets world (past ++ .provide n id expected :: future)).2
        later.step make meets (.provide n id expected') = later.giveAgain meets n id found expected') ∧
    (∀ expected e outcome,
      (f.step make meets (.provide n id expected)).1 = .provided n id (.raised e) outcome →
      (f.step make meets (.provide n id expected)).2.shelf = f.shelf ∧
      ∃ factory, (lineage events n).lastRegistered? id = some factory ∧
        ∀ future : List (Request φ κ σ), (∀ q ∈ future, ¬ q.ProvidesAt n id) → ∀ expected',
          let later := (run make meets world (past ++ .provide n id expected :: future)).2
          later.step make meets (.provide n id expected') =
            later.runFactory make meets r n id factory expected') ∧
    events.Pairwise fun e e' => ¬ (e.Makes n id ∧ e'.Makes n id) := by
  obtain rfl : events = (run make meets world past).1 := by rw [hrun]
  obtain rfl : f = (run make meets world past).2 := by rw [hrun]
  have hsep : (run make meets world past).2.shelf.Separate (run make meets world past).2.registries :=
    (run_follows world past).separate
  have htells := run_tells hr
  have hcached : (run make meets world past).2.shelf.cached? r id = _ := htells.cached id
  have hfactory : (run make meets world past).2.shelf.factory? r id = _ := htells.factory id
  -- the registry after one more request for the identifier
  have hnext : ∀ expected, (run make meets world (past ++ [.provide n id expected])).2 =
      ((run make meets world past).2.step make meets (.provide n id expected)).2 := by
    intro expected
    rw [run_concat, record]
  have hr' : ∀ expected,
      (run make meets world (past ++ [.provide n id expected])).2.registries[n]? = some r := by
    intro expected
    rw [hnext]
    exact registry_step hr _
  refine ⟨?_, ?_, ?_, ?_, run_makes_once world past n id⟩
  · intro found hfirst expected
    exact step_provide_of_cached hr (hcached.trans hfirst) expected
  · intro hfirst
    have hnone := hcached.trans hfirst
    refine ⟨fun factory hlast expected => ?_, fun hlast expected => ?_⟩
    · exact step_provide_of_factory hr hnone (hfactory.trans hlast) expected
    · exact step_provide_of_unregistered hr hnone (hfactory.trans hlast) expected
  · intro expected provision outcome found hstep hconcerns future expected'
    obtain ⟨w, rfl⟩ := outcome_of_step hr hstep
    have hstays := (step_caches hr hsep hstep (Provision.of_concerns hconcerns)).1
    rw [← hnext] at hstays
    obtain ⟨hlater, -, hkept⟩ := run_keeps (hr' expected) future
    rw [List.append_cons]
    exact step_provide_of_cached hlater (hkept id found hstays) expected'
  · intro expected e outcome hstep
    obtain ⟨hnone, hshelf⟩ := step_raised hr hstep
    refine ⟨hshelf, ?_⟩
    cases hf : (run make meets world past).2.shelf.factory? r id with
    | none =>
      rw [step_provide_of_unregistered hr hnone hf] at hstep
      simp at hstep
    | some factory =>
      refine ⟨factory, by rw [← hfactory, hf], fun future hfuture expected' => ?_⟩
      rw [List.append_cons]
      obtain ⟨hlater, hsame, -⟩ := run_keeps (hr' expected) future
      refine step_provide_of_factory hlater ?_ ?_ expected'
      · rw [run_cached (hr' expected) hfuture, hnext, hshelf, hnone]
      · rw [Shelf.factory?, hsame, hnext, Shelf.factoriesOf, hshelf]
        exact hf

/-- Dice that were made for a caller who wanted something else, registered anew, and a lost coin. -/
def heirloom : List (Request Factory Contract Workshop) :=
  [.create, .register 0 "dice" .gadget, .provide 1 "dice" (some (.capability .random)),
    .register 1 "dice" (.plain (.int 6)), .register 2 "coin" (.raises "lost")]

theorem provide_by_lineage_heirloom :
    let family := (run Workshop.instantiate Workshop.meets {} heirloom).2
    family.registries[3]? = some ⟨3, 3, []⟩ ∧
    family.step Workshop.instantiate Workshop.meets (.provide 3 "dice" none) =
      family.giveAgain Workshop.meets 3 "dice" (.service 0) none ∧
    ∀ future : List (Request Factory Contract Workshop), (∀ q ∈ future, ¬ q.ProvidesAt 3 "coin") →
      let later := (run Workshop.instantiate Workshop.meets {}
        (heirloom ++ .provide 3 "coin" none :: future)).2
      later.step Workshop.instantiate Workshop.meets (.provide 3 "coin" none) =
        later.runFactory Workshop.instantiate Workshop.meets ⟨3, 3, []⟩ 3 "coin" (.raises "lost") none := by
  have hr : (run Workshop.instantiate Workshop.meets {} heirloom).2.registries[3]? =
    some ⟨3, 3, []⟩ := rfl
  obtain ⟨hdice, -⟩ := provide_by_lineage rfl hr "dice"
  obtain ⟨-, -, -, hcoin, -⟩ := provide_by_lineage rfl hr "coin"
  obtain ⟨-, factory, hfactory, hagain⟩ := hcoin none (.raised "lost") (.error (.raised (.raised "lost"))) rfl
  cases hfactory
  exact ⟨hr, hdice (.service 0) rfl none, fun future hfuture => hagain future hfuture none⟩

end Family

end Cardplay

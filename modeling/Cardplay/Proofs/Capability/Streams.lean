import Cardplay.Proofs.Capability.Providing
import Cardplay.Proofs.Capability.Sources
import Mathlib.Data.List.Induction

/-!
# Random streams

Each random instance gives the outputs of its seed's generator from the start, in the order in which they are
drawn and whichever registry they are drawn through; a fork goes on with the instance that was there when it
was taken, or else gets one of its own (`Streams.shared_or_replayed`).
-/

set_option autoImplicit false

namespace Cardplay

namespace Streams
variable {seed : Int} {p q : Streams} {n : Nat} {r : Registry}

section After
variable {α β : Type} {keep : α → Streams → Streams}

theorem after_bind (work : Work α) (next : α → Work β) (keep : β → Streams → Streams) :
    p.after (work >>= next) keep = p.after work fun a q => q.after (next a) keep := by
  simp only [after, bind, EStateM.bind]
  cases work (p.shelf, p.workshop) with
  | ok a desk => rfl
  | error e desk => rfl

theorem after_pure (a : α) : p.after (pure a) keep = keep a p := rfl

theorem provide_shifts (h : Sound seed p) (hr : r ∈ p.registries) (id : String) :
    ∃ provision shelf w, p.shelf.provide Workshop.instantiate r id p.workshop = (provision, shelf, w) ∧
      Shifts p { p with shelf, workshop := w } ∧
      ∀ found, provision = .cached found ∨ provision = .made found →
        shelf.cached? r id = some found := by
  rcases Shelf.provide_cases Workshop.instantiate id p.workshop p.shelf r with
    ⟨old, hc, heq⟩ | ⟨hc, ⟨-, heq⟩ | ⟨factory, hf, ⟨new, w, hmade, heq⟩ | ⟨e, w, hraised, heq⟩⟩⟩
  · refine ⟨_, _, _, heq, .refl, ?_⟩
    rintro found (⟨⟨⟩⟩ | ⟨⟨⟩⟩)
    exact hc
  · refine ⟨_, _, _, heq, .refl, ?_⟩
    rintro found (⟨⟨⟩⟩ | ⟨⟨⟩⟩)
  · refine ⟨_, _, _, heq, .single (.make p hr hc hf hmade), ?_⟩
    rintro found (⟨⟨⟩⟩ | ⟨⟨⟩⟩)
    rw [h.stocked.separate.cached_putInstance hr hr, if_pos ⟨rfl, rfl⟩]
  · have hservices := Workshop.instantiate_raised hraised
    obtain ⟨services, journal⟩ := w
    cases hservices
    refine ⟨_, _, _, heq, .single (.note p journal), ?_⟩
    rintro found (⟨⟨⟩⟩ | ⟨⟨⟩⟩)

/-- Providing ends without an answer, or goes on with an instance that is cached. -/
theorem after_provide (h : Sound seed p) (hr : r ∈ p.registries) (id : String)
    (contract : Option Contract) (keep : Provided → Streams → Streams) :
    ∃ q, Shifts p q ∧ q.registries = p.registries ∧
      (p.after (Work.provide r id contract) keep = q ∨ ∃ found, q.shelf.cached? r id = some found ∧
        p.after (Work.provide r id contract) keep = keep found q) := by
  obtain ⟨provision, shelf, w, hprovide, hshifts, hcached⟩ := provide_shifts h hr id
  refine ⟨_, hshifts, rfl, ?_⟩
  simp only [after, Work.provide, hprovide]
  cases houtcome : provision.outcome w.meets contract with
  | ok found =>
    have hconcerns : Provision.Concerns found (provision.outcome w.meets contract) := .inl houtcome
    exact .inr ⟨found, hcached found (Provision.of_concerns hconcerns), rfl⟩
  | error refusal =>
    left
    cases refusal <;> rfl

theorem after_register (r : Registry) (id : String) (factory : Factory)
    (keep : Registry → Streams → Streams) :
    p.after (Work.register r id factory) keep = p ∨ ∃ journal,
      p.after (Work.register r id factory) keep =
        keep (p.shelf.register r id factory).1
          { p with
            shelf := (p.shelf.register r id factory).2
            workshop := { p.workshop with journal } } := by
  cases factory with
  | uncallable v => exact .inl rfl
  | _ => exact .inr ⟨_, rfl⟩

theorem after_draw {m : Nat} {s : Int} {generator : Generator}
    (hm : p.workshop.services[m]? = some (.random s generator)) (keep : Nat → Streams → Streams) :
    p.after (Work.runWith (.service m) (Exec.draw Draw.fraction)) keep =
      keep generator.next.1 { p with workshop :=
        ⟨p.workshop.services.set m (.random s generator.next.2), p.workshop.journal⟩ } := by
  simp [after, Work.runWith, hm, Exec.draw, Exec.settle, Draw.fraction]

theorem after_draw_of_not (service : Provided) (keep : Nat → Streams → Streams)
    (h : ∀ m s generator, service = .service m →
      p.workshop.services[m]? ≠ some (.random s generator)) :
    p.after (Work.runWith service (Exec.draw Draw.fraction)) keep = p := by
  cases service with
  | plain v => rfl
  | service m =>
    simp only [after, Work.runWith]
    split
    · rename_i heq
      split at heq
      · rename_i s generator hm
        exact absurd hm (h m s generator rfl)
      · cases heq
    · rename_i heq
      split at heq
      · rename_i s generator hm
        exact absurd hm (h m s generator rfl)
      · cases heq
        rfl

end After

theorem step_shifts (h : Sound seed p) (move : Move) : Shifts p (p.step move) := by
  cases move with
  | register on id factory =>
    refine Shifts.asking fun r hr => ?_
    rcases after_register r id.val factory fun child p => p.bear child with hsame | ⟨journal, hborn⟩
    · rw [hsame]
    · rw [hborn, Shelf.register_eq_add]
      refine .tail (.single (.note p journal)) (.bear _ (List.mem_of_getElem? hr) ?_)
      exact OrderedMap.get?_insert_of_ne _ id.property.symm _
  | fork on =>
    refine Shifts.asking fun r hr => ?_
    exact .single (.bear p (List.mem_of_getElem? hr) rfl)
  | provide on id contract =>
    refine Shifts.asking fun r hr => ?_
    obtain ⟨q, hshifts, hregistries, hend | ⟨found, hc, hend⟩⟩ :=
      after_provide h (List.mem_of_getElem? hr) id contract fun service p => p.take ⟨on, id, service⟩
    · rw [hend]
      exact hshifts
    · rw [hend]
      exact hshifts.tail (.take q (hregistries ▸ hr) hc)
  | context on playerId state =>
    refine Shifts.asking fun r hr => ?_
    rw [Work.buildContext, after_bind]
    obtain ⟨q, hshifts, hregistries, hend | ⟨random, hc, hend⟩⟩ :=
      after_provide h (List.mem_of_getElem? hr) Capability.random.id (some (.capability .random)) _
    · rw [hend]
      exact hshifts
    · have hq := hshifts.sound h
      rw [← hregistries] at hr
      rw [hend, after_bind]
      obtain ⟨q', hshifts', hregistries', hend' | ⟨_, _, hend'⟩⟩ :=
        after_provide hq (List.mem_of_getElem? hr) Capability.logger.id (some (.capability .logger)) _
      · rw [hend']
        exact hshifts.trans hshifts'
      · -- the random instance stays cached while the logger is provided
        obtain ⟨hr', hcached⟩ := Shifts.keeps hshifts' hq hr
        rw [hend', after_pure]
        exact (hshifts.trans hshifts').tail (.take q' hr' (hcached hc))
  | draw place =>
    cases hsource : p.sources[place]? with
    | none =>
      simp only [step, hsource]
      exact .refl
    | some source =>
      simp only [step, hsource]
      by_cases hrandom : ∃ m s generator, source.service = .service m ∧
          p.workshop.services[m]? = some (.random s generator)
      · obtain ⟨m, s, generator, hservice, hm⟩ := hrandom
        rw [hservice, after_draw hm]
        exact .single (.draw p p.workshop.journal (List.mem_of_getElem? hsource) hservice hm)
      · rw [after_draw_of_not]
        intro m s generator hservice hm
        exact hrandom ⟨m, s, generator, hservice, hm⟩

def root : Registry := ⟨4, 4, Capability.all.map Capability.id⟩

theorem start_registries (settings : Settings) (seed : Int) :
    (start settings seed).registries = [root] := rfl

theorem start_sound (settings : Settings) (seed : Int) : Sound seed (start settings seed) :=
  .init (start_registries settings seed) ⟨Nat.lt_succ_self 4, Nat.lt_succ_self 4⟩ rfl rfl rfl rfl rfl

theorem run_concat (settings : Settings) (seed : Int) (moves : List Move) (move : Move) :
    run settings seed (moves ++ [move]) = (run settings seed moves).step move := by
  rw [run, List.foldl_append]
  rfl

theorem run_sound (settings : Settings) (seed : Int) (moves : List Move) :
    Sound seed (run settings seed moves) := by
  induction moves using List.reverseRecOn with
  | nil => exact start_sound settings seed
  | append_singleton before move ih =>
    rw [run_concat]
    exact Shifts.sound (step_shifts ih move) ih

theorem run_shifts (settings : Settings) (seed : Int) (moves later : List Move) :
    Shifts (run settings seed moves) (run settings seed (moves ++ later)) := by
  induction later using List.reverseRecOn with
  | nil => rw [List.append_nil]
  | append_singleton before move ih =>
    rw [← List.append_assoc, run_concat]
    exact ih.trans (step_shifts (run_sound settings seed _) move)

/-- What was drawn from an instance was drawn through the registries that have it cached. -/
theorem Sound.number?_iff_through (h : Sound seed p) (hr : r ∈ p.registries) {m : Nat}
    (hc : p.shelf.cached? r Capability.random.id = some (.service m)) {draw : Source × Nat}
    (hdraw : draw ∈ p.drawn) : draw.1.number? = some m ↔ p.Through m draw.1 := by
  obtain ⟨r', hr', hc'⟩ := h.sources draw.1 (h.drawn draw hdraw)
  rw [Source.number?_eq]
  constructor
  · intro hservice
    rw [hservice] at hc'
    have hid := h.stocked.filed r' (List.mem_of_getElem? hr') r hr hc' hc
    exact ⟨hid, r', hr', hid ▸ hc'⟩
  · rintro ⟨hid, r'', hr'', hc''⟩
    cases hr'.symm.trans hr''
    rw [hid, hc''] at hc'
    exact (Option.some.inj hc').symm

theorem Sound.draws (h : Sound seed p) {place : Nat} {source : Source}
    (hsource : p.sources[place]? = some source) (hid : source.id = Capability.random.id) :
    ∃ m, source.service = .service m ∧ p.Through m source ∧ (p.step (.draw place)).drawn =
      p.drawn ++ [(source, (Generator.ofSeed seed).output (p.drawnFrom m).length)] := by
  obtain ⟨r, hr, hc⟩ := h.sources source (List.mem_of_getElem? hsource)
  rw [hid] at hc
  obtain ⟨m, generator, hservice, hm⟩ := h.stocked.random r (List.mem_of_getElem? hr) hc
  refine ⟨m, hservice, ⟨hid, r, hr, hservice ▸ hc⟩, ?_⟩
  simp only [step, hsource]
  rw [hservice, after_draw hm, (h.streams hm).2]
  rfl

theorem Sound.provides (h : Sound seed p) (hr : p.registries[n]? = some r) {contract : Option Contract}
    (hcontract : contract = none ∨ contract = some (.capability .random)) :
    ∃ service, (p.step (.provide n Capability.random.id contract)).sources =
      p.sources ++ [⟨n, Capability.random.id, service⟩] := by
  have hmem := List.mem_of_getElem? hr
  have hmeets : ∀ {w : Workshop} {m generator},
      w.services[m]? = some (.random seed generator) →
      Provision.outcome w.meets contract (.made (.service m) : Provision Error Provided) =
        .ok (.service m) := by
    intro w m generator hm
    rcases hcontract with rfl | rfl
    · rfl
    · simp [Provision.outcome, Workshop.meets, hm, Service.capability?]
  rw [step, asking_of_registry hr]
  simp only [after, Work.provide]
  cases hc : p.shelf.cached? r Capability.random.id with
  | some found =>
    obtain ⟨m, generator, rfl, hm⟩ := h.stocked.random r hmem hc
    have hcached : Provision.outcome p.workshop.meets contract
      (.cached (.service m) : Provision Error Provided) = .ok (.service m) := hmeets hm
    simp only [Shelf.provide_of_cached _ _ _ hc, hcached]
    exact ⟨_, rfl⟩
  | none =>
    obtain ⟨journal, hmade⟩ := Workshop.instantiate_random Capability.random.id seed p.workshop
    have hnew : (⟨p.workshop.services ++ [.random seed (.ofSeed seed)], journal⟩ :
        Workshop).services[p.workshop.services.length]? = some (.random seed (.ofSeed seed)) :=
      List.getElem?_concat_length
    simp only [Shelf.provide_of_factory _ _ _ hc (h.stocked.factory r hmem), Shelf.instantiate, hmade,
      hmeets hnew]
    exact ⟨_, rfl⟩

theorem Sound.forks (h : Sound seed p) (hr : p.registries[n]? = some r) :
    ∃ child, (p.step (.fork n)).registries = p.registries ++ [child] ∧
      ∀ id, (p.step (.fork n)).shelf.cached? r id = p.shelf.cached? r id ∧
        (p.step (.fork n)).shelf.cached? child id = p.shelf.cached? r id := by
  rw [step, asking_of_registry hr]
  refine ⟨(p.shelf.fork r).1, rfl, fun id => ⟨?_, ?_⟩⟩
  · exact (Shelf.Keeps.add _ _ r.builtIn (h.stocked.separate.holds_at hr)).unchanged.cached id
  · have hsame : (p.shelf.fork r).2.cached? (p.shelf.fork r).1 id = p.shelf.cached? r id := by
      rw [Shelf.fork, Shelf.cached?, Shelf.instancesOf_add, Shelf.cached?]
    exact hsame

/-- A fork has the random instance that was there when it was taken, or never the same one. -/
theorem run_fork (settings : Settings) (seed : Int) (moves later : List Move)
    (hr : (run settings seed moves).registries[n]? = some r) :
    let p := run settings seed moves
    let q := run settings seed (moves ++ .fork n :: later)
    ∃ child, q.registries[n]? = some r ∧ q.registries[p.registries.length]? = some child ∧
      (∀ found, p.shelf.cached? r Capability.random.id = some found →
        q.shelf.cached? r Capability.random.id = some found ∧
        q.shelf.cached? child Capability.random.id = some found) ∧
      (p.shelf.cached? r Capability.random.id = none → ∀ found,
        q.shelf.cached? r Capability.random.id = some found →
        q.shelf.cached? child Capability.random.id ≠ some found) := by
  intro p q
  have hforked := run_sound settings seed (moves ++ [.fork n])
  have hshifts := run_shifts settings seed (moves ++ [.fork n]) later
  obtain ⟨child, hborn, hcached⟩ := (run_sound settings seed moves).forks hr
  rw [← List.append_cons] at hshifts
  rw [run_concat] at hshifts hforked
  obtain ⟨hn, -⟩ := List.getElem?_eq_some_iff.mp hr
  have hparent : (p.step (.fork n)).registries[n]? = some r := by
    rw [hborn, List.getElem?_append_left hn, hr]
  have hchild : (p.step (.fork n)).registries[p.registries.length]? = some child := by
    rw [hborn]
    exact List.getElem?_concat_length
  obtain ⟨hparent', hkept⟩ := Shifts.keeps hshifts hforked hparent
  obtain ⟨hchild', hkept'⟩ := Shifts.keeps hshifts hforked hchild
  refine ⟨child, hparent', hchild', fun found hc => ⟨?_, ?_⟩, fun hnone => ?_⟩
  · exact hkept ((hcached _).1.trans hc)
  · exact hkept' ((hcached _).2.trans hc)
  · have hapart := hforked.stocked.separate.apart_at hparent hchild (Nat.ne_of_lt hn)
    refine Shifts.apart hshifts hforked hparent hchild ?_ fun found hc => ?_
    · rintro rfl
      exact hapart.factories rfl
    · cases ((hcached _).1.trans hnone).symm.trans hc

/-- Every random service gives what its seed's generator gives, from the start and in the order in which it is
drawn from. The random instance of a registry is such a service with the default seed, drawn from through the
registries that have it cached, and through no other; providing finds it or makes it, and a draw from it is
the next output. A fork that was taken when it was there goes on with it, and a fork that was taken
before never has the same one. -/
theorem shared_or_replayed (settings : Settings) (seed : Int) (moves : List Move) :
    let p := run settings seed moves
    (∃ r, (start settings seed).registries = [r]) ∧
    (∀ m s generator, p.workshop.services[m]? = some (.random s generator) → p.Replays m s) ∧
    (∀ n r, p.registries[n]? = some r →
      (∀ found, p.shelf.cached? r Capability.random.id = some found → ∃ m, found = .service m ∧
        p.Replays m seed ∧ ∀ draw ∈ p.drawn, draw.1.number? = some m ↔ p.Through m draw.1) ∧
      (∀ contract, contract = none ∨ contract = some (.capability .random) →
        ∃ service, (p.step (.provide n Capability.random.id contract)).sources =
          p.sources ++ [⟨n, Capability.random.id, service⟩]) ∧
      ∀ later : List Move,
        let q := run settings seed (moves ++ .fork n :: later)
        ∃ child, q.registries[n]? = some r ∧ q.registries[p.registries.length]? = some child ∧
          (∀ found, p.shelf.cached? r Capability.random.id = some found →
            q.shelf.cached? r Capability.random.id = some found ∧
            q.shelf.cached? child Capability.random.id = some found) ∧
          (p.shelf.cached? r Capability.random.id = none → ∀ found,
            q.shelf.cached? r Capability.random.id = some found →
            q.shelf.cached? child Capability.random.id ≠ some found)) ∧
    ∀ place source, p.sources[place]? = some source → source.id = Capability.random.id →
      ∃ m, source.service = .service m ∧ p.Through m source ∧ (p.step (.draw place)).drawn =
        p.drawn ++ [(source, (Generator.ofSeed seed).output (p.drawnFrom m).length)] := by
  intro p
  have hsound : Sound seed p := run_sound settings seed moves
  refine ⟨⟨root, start_registries settings seed⟩, ?_, fun n r hr => ⟨?_, ?_, ?_⟩, ?_⟩
  · intro m s generator hm
    exact (hsound.streams hm).1
  · intro found hc
    obtain ⟨m, generator, rfl, hm⟩ := hsound.stocked.random r (List.mem_of_getElem? hr) hc
    refine ⟨m, rfl, (hsound.streams hm).1, fun draw hdraw => ?_⟩
    exact hsound.number?_iff_through (List.mem_of_getElem? hr) hc hdraw
  · intro contract hcontract
    exact hsound.provides hr hcontract
  · intro later
    exact run_fork settings seed moves later hr
  · intro place source hsource hid
    exact hsound.draws hsource hid

end Streams

end Cardplay

import Cardplay.Proofs.Execution.Library
import Cardplay.Proofs.Leaf.Run

/-!
# Changes seat by seat

Two states are related seat by seat when they differ in their players only and a relation holds between the
two players of every seat. Replacing players and merging siblings keep such relations, so a relation between
players that every leaf keeps is kept by all effects built from these leaves
(`Effect.BuiltFrom.serves_seatWise`).
-/

set_option autoImplicit false

namespace Cardplay

/-- What must be known of a relation between the player before and the player after. -/
structure SeatLaw (R : Player → Player → Prop) : Prop where
  refl : ∀ p, R p p
  trans : ∀ {p q r}, R p q → R q r → R p r
  id_eq : ∀ {p q}, R p q → q.id = p.id
  valid : ∀ {p q}, R p q → p.Valid → q.Valid

namespace GameState
variable {R : Player → Player → Prop} {s t u : GameState} {changes later : Changes}

/-- The players of both maps sit in the same order, and `R` holds in every seat. -/
structure SeatsRelated (R : Player → Player → Prop) (m n : OrderedMap Player) : Prop where
  keys_eq : n.keys = m.keys
  related : ∀ id p, m.get? id = some p → ∃ q, n.get? id = some q ∧ R p q

/-- Nothing but the players differs, and `R` holds in every seat. -/
structure SeatWise (R : Player → Player → Prop) (s t : GameState) : Prop where
  turn_eq : t.turn = s.turn
  phase_eq : t.phase = s.phase
  current_eq : t.currentPlayer = s.currentPlayer
  turnObject_eq : t.turnObject = s.turnObject
  currentObject_eq : t.currentObject = s.currentObject
  loose : s.loose = [] → t.loose = []
  /-- A state that was replaced is told from the given one by its revision. -/
  same_or_later : t = s ∨ s.revision < t.revision
  seats : SeatsRelated R s.players t.players

/-- Changes of nothing but the players, which keep `R` in every seat. -/
structure Changes.OnlySeats (R : Player → Player → Prop) (s : GameState) (changes : Changes) :
    Prop where
  turn_eq : changes.turn = none
  phase_eq : changes.phase = none
  current_eq : changes.currentPlayer = none
  unknown_eq : changes.unknown = []
  loose : s.loose = [] → changes.loose = []
  seats : ∀ players, changes.players = some players → SeatsRelated R s.players players

theorem SeatsRelated.refl (law : SeatLaw R) (m : OrderedMap Player) : SeatsRelated R m m :=
  ⟨rfl, fun _ p h => ⟨p, h, law.refl p⟩⟩

theorem SeatsRelated.trans (law : SeatLaw R) {m n o : OrderedMap Player}
    (h : SeatsRelated R m n) (h' : SeatsRelated R n o) : SeatsRelated R m o := by
  refine ⟨h'.keys_eq.trans h.keys_eq, ?_⟩
  intro id p hp
  obtain ⟨q, hq, hpq⟩ := h.related id p hp
  obtain ⟨r, hr, hqr⟩ := h'.related id q hq
  exact ⟨r, hr, law.trans hpq hqr⟩

theorem SeatsRelated.exists_before {m n : OrderedMap Player} (h : SeatsRelated R m n) {id : String}
    {q : Player} (hq : n.get? id = some q) : ∃ p, m.get? id = some p ∧ R p q := by
  have hk : id ∈ m.keys := h.keys_eq ▸ OrderedMap.mem_keys_iff.mpr ⟨q, hq⟩
  obtain ⟨p, hp⟩ := OrderedMap.mem_keys_iff.mp hk
  obtain ⟨q', hq', hR⟩ := h.related id p hp
  rw [hq] at hq'
  cases hq'
  exact ⟨p, hp, hR⟩

theorem SeatsRelated.placeAll (law : SeatLaw R) {m : OrderedMap Player} {ps : List Player}
    (h : ∀ q ∈ ps, ∃ p, m.get? q.id = some p ∧ R p q) : SeatsRelated R m (placeAll m ps) := by
  have hk : ∀ q ∈ ps, q.id ∈ m.keys := by
    intro q hq
    obtain ⟨p, hp, _⟩ := h q hq
    exact OrderedMap.mem_keys_iff.mpr ⟨p, hp⟩
  refine ⟨keys_placeAll hk, ?_⟩
  intro id p hp
  have hid : id ∈ (GameState.placeAll m ps).keys := by
    rw [keys_placeAll hk]
    exact OrderedMap.mem_keys_iff.mpr ⟨p, hp⟩
  obtain ⟨q, hq⟩ := OrderedMap.mem_keys_iff.mp hid
  refine ⟨q, hq, ?_⟩
  rcases of_get?_placeAll hq with ⟨hm, rfl⟩ | hold
  · obtain ⟨p', hp', hR⟩ := h q hm
    rw [hp] at hp'
    cases hp'
    exact hR
  · rw [hp] at hold
    cases hold
    exact law.refl p

namespace SeatWise

theorem refl (law : SeatLaw R) (s : GameState) : s.SeatWise R s :=
  ⟨rfl, rfl, rfl, rfl, rfl, id, Or.inl rfl, SeatsRelated.refl law s.players⟩

theorem trans (law : SeatLaw R) (h : s.SeatWise R t) (h' : t.SeatWise R u) : s.SeatWise R u := by
  refine ⟨h'.turn_eq.trans h.turn_eq, h'.phase_eq.trans h.phase_eq, h'.current_eq.trans h.current_eq,
    h'.turnObject_eq.trans h.turnObject_eq, h'.currentObject_eq.trans h.currentObject_eq,
    fun hl => h'.loose (h.loose hl), ?_, h.seats.trans law h'.seats⟩
  rcases h.same_or_later with rfl | hlater
  · exact h'.same_or_later
  · rcases h'.same_or_later with rfl | hlater'
    · exact Or.inr hlater
    · exact Or.inr (Nat.lt_trans hlater hlater')

theorem valid (law : SeatLaw R) (hs : s.Valid) (h : s.SeatWise R t) : t.Valid := by
  refine valid_iff.mpr ⟨h.turn_eq ▸ hs.turn_nonneg, ?_, ?_⟩
  · rw [OrderedMap.isEmpty_iff, h.current_eq, playerIds, h.seats.keys_eq, ← OrderedMap.isEmpty_iff]
    exact hs.current
  · intro id q hq
    obtain ⟨p, hp, hR⟩ := h.seats.exists_before hq
    obtain ⟨hid, hv⟩ := hs.player hp
    exact ⟨(law.id_eq hR).trans hid, law.valid hR hv⟩

theorem replace (law : SeatLaw R) (h : changes.OnlySeats R s) : s.SeatWise R (s.replace changes) := by
  refine ⟨?_, ?_, ?_, ?_, ?_, ?_, Or.inr (Nat.lt_succ_self s.revision), ?_⟩
  · simp [GameState.replace, h.turn_eq]
  · simp [GameState.replace, h.phase_eq]
  · simp [GameState.replace, h.current_eq]
  · simp [GameState.replace, h.turn_eq]
  · simp [GameState.replace, h.current_eq]
  · intro hl
    simp [GameState.replace, h.loose hl, hl]
  · cases hp : changes.players with
    | none => simpa [GameState.replace, hp] using SeatsRelated.refl law s.players
    | some players => simpa [GameState.replace, hp] using h.seats players hp

end SeatWise

theorem SeatWise.sameTurn (h : s.SeatWise R t) : s.sameTurn t := by
  simp [GameState.sameTurn, sameObject, h.turn_eq, h.turnObject_eq]

theorem SeatWise.sameCurrent (h : s.SeatWise R t) : s.sameCurrent t := by
  simp [GameState.sameCurrent, sameObject, h.current_eq, h.currentObject_eq]

theorem replaced_onlySeats (h : s.SeatWise R t) : (s.replaced t).OnlySeats R s := by
  refine ⟨if_pos h.sameTurn, if_pos h.phase_eq, if_pos h.sameCurrent, rfl, ?_, ?_⟩
  · intro hl
    simp [replaced, h.loose hl]
  · intro players hp
    simp only [replaced] at hp
    split at hp
    · cases hp
    · cases hp
      exact h.seats

theorem override_onlySeats (h : changes.OnlySeats R s) (h' : later.OnlySeats R s) :
    (changes.override later).OnlySeats R s := by
  refine ⟨?_, ?_, ?_, ?_, ?_, ?_⟩
  · simp [Changes.override, h.turn_eq, h'.turn_eq]
  · simp [Changes.override, h.phase_eq, h'.phase_eq]
  · simp [Changes.override, h.current_eq, h'.current_eq]
  · simp [Changes.override, h.unknown_eq, h'.unknown_eq]
  · intro hl
    simp [Changes.override, h.loose hl, h'.loose hl]
  · intro players hp
    rcases Option.or_eq_some_iff.mp hp with hp | ⟨_, hp⟩
    · exact h'.seats players hp
    · exact h.seats players hp

theorem merged_onlySeats {siblings : List GameState} (h : ∀ t ∈ siblings, s.SeatWise R t) :
    (s.merged siblings).OnlySeats R s := by
  have fold : ∀ changes : Changes, changes.OnlySeats R s →
      (siblings.foldl (fun acc t => acc.override (s.replaced t)) changes).OnlySeats R s := by
    induction siblings with
    | nil => exact fun _ hc => hc
    | cons t rest ih =>
      intro changes hc
      have ht := replaced_onlySeats (h t List.mem_cons_self)
      exact ih (fun u hu => h u (List.mem_cons_of_mem t hu)) _ (override_onlySeats hc ht)
  exact fold {} ⟨rfl, rfl, rfl, rfl, fun _ => rfl, fun _ hp => by cases hp⟩

theorem evolve_onlySeats (law : SeatLaw R) (hs : s.Valid) (h : changes.OnlySeats R s) :
    s.evolve changes = .ok (s.replace changes) := by
  have hnew : (s.replace changes).Valid := (SeatWise.replace law h).valid law hs
  refine (evolve_eq_ok_iff hs ?_).mpr ⟨h.unknown_eq, hnew, rfl⟩
  intro players hp
  have heq : (s.replace changes).players = players := by simp [GameState.replace, hp]
  exact heq ▸ hnew.players

theorem merge_seatWise (law : SeatLaw R) (hs : s.Valid) {siblings : List GameState}
    (h : ∀ t ∈ siblings, s.SeatWise R t) : ∃ t, s.merge siblings = .ok t ∧ s.SeatWise R t := by
  have hm := merged_onlySeats h
  by_cases he : (s.merged siblings).isEmpty
  · exact ⟨s, if_pos he, SeatWise.refl law s⟩
  · exact ⟨s.replace (s.merged siblings), (if_neg he).trans (evolve_onlySeats law hs hm),
      SeatWise.replace law hm⟩

theorem seatWise_lawful (law : SeatLaw R) : Lawful Valid (SeatWise R) where
  refl _ := SeatWise.refl law _
  trans := SeatWise.trans law
  keeps hs h := h.valid law hs
  merge hs h := merge_seatWise law hs h

end GameState

open GameState in
theorem Leaf.serves_seatWise {R : Player → Player → Prop} (law : SeatLaw R) {l : Leaf}
    (touch : ∀ p q, p.Valid → l.Touch p q → R p q) : Serves Valid (SeatWise R) l.execute := by
  intro c run hs
  obtain ⟨r, run', hr, hstate⟩ := execute_touches (l := l) hs run
  refine ⟨r, run', hr, ?_⟩
  rcases hstate with heq | ⟨ps, hps, heq⟩
  · rw [heq]
    exact SeatWise.refl law c.state
  · have hseats : SeatsRelated R c.state.players (placeAll c.state.players ps) := by
      apply SeatsRelated.placeAll law
      intro q hq
      obtain ⟨p, hp, ht⟩ := hps q hq
      exact ⟨p, hp, touch p q (hs.player hp).2 ht⟩
    rw [heq]
    apply SeatWise.replace law
    exact ⟨rfl, rfl, rfl, rfl, fun _ => rfl, fun players hp => by cases hp; exact hseats⟩

open GameState in
theorem Effect.BuiltFrom.serves_seatWise {R : Player → Player → Prop} (law : SeatLaw R)
    {allowed : Leaf → Prop} (touch : ∀ l p q, allowed l → p.Valid → l.Touch p q → R p q)
    {e : Effect} (h : e.BuiltFrom allowed) : Serves Valid (SeatWise R) e.execute :=
  h.serves (seatWise_lawful law) fun l hl => Leaf.serves_seatWise law fun p q => touch l p q hl

end Cardplay

import Cardplay.Proofs.State.Construction

/-!
# Checking again after a change

A change is checked only against the rules that the changed fields can break. Of a valid player or state this
names the same problem as the check of all rules (`Player.changeProblem?_eq_problem?`,
`GameState.changeProblem?_eq_problem?`). So a change goes through exactly when what it leads to is sound, and
that is exactly what can be made out of a record as well (`evolve_iff_sound`).
-/

set_option autoImplicit false

namespace Cardplay

theorem mapError_eq_ok_iff {ε ε' α : Type} {x : Except ε α} {f : ε → ε'} {a : α} :
    x.mapError f = .ok a ↔ x = .ok a := by
  cases x with
  | ok b =>
    change (Except.ok b : Except ε' α) = .ok a ↔ _
    simp only [Except.ok.injEq]
  | error e =>
    change (Except.error (f e) : Except ε' α) = .ok a ↔ _
    simp only [reduceCtorEq]

namespace Player
variable {p q : Player} {changes : Changes}

/-- The rules for a player's fields, whatever its identifier. -/
structure Sound (p : Player) : Prop where
  health_nonneg : 0 ≤ p.health
  maxHealth_nonneg : 0 ≤ p.maxHealth
  health_le : p.health ≤ p.maxHealth
  nodup : ((p.hand ++ p.deck ++ p.discard).map Card.id).Nodup

theorem sound_iff_valid : p.Sound ↔ p.Valid :=
  ⟨fun h => ⟨h.health_nonneg, h.health_le, h.nodup⟩,
    fun h => ⟨h.health_nonneg, Int.le_trans h.health_nonneg h.health_le, h.health_le, h.nodup⟩⟩

/-- Only fields are named, and every value given is of its field's type. -/
structure Changes.Typed (changes : Changes) : Prop where
  known : changes.unknown = []
  plain : changes.loose = []

/-- Every field that is named has the value given, and every other field is kept. -/
structure Takes (p : Player) (changes : Changes) (q : Player) : Prop where
  id_eq : q.id = changes.id.getD p.id
  health_eq : q.health = changes.health.getD p.health
  maxHealth_eq : q.maxHealth = changes.maxHealth.getD p.maxHealth
  hand_eq : q.hand = changes.hand.getD p.hand
  deck_eq : q.deck = changes.deck.getD p.deck
  discard_eq : q.discard = changes.discard.getD p.discard
  resources_eq : q.resources = changes.resources.getD p.resources

theorem takes_replace (p : Player) (changes : Changes) : p.Takes changes (p.replace changes) :=
  ⟨rfl, rfl, rfl, rfl, rfl, rfl, rfl⟩

theorem loose_replace (hl : p.loose = []) (hc : changes.loose = []) :
    (p.replace changes).loose = [] := by
  simp [replace, hl, hc]

/-- A valid player has no card twice, so the zones need no look when none of them changed. -/
theorem changeProblem?_eq_problem? (hp : p.Valid) :
    p.changeProblem? changes = (p.replace changes).problem? := by
  unfold changeProblem? problem?
  cases ht : changes.touchesZones with
  | true => rfl
  | false =>
    have hzones : (p.replace changes).zoneProblem? = none := by
      rw [zoneProblem?_eq_none_iff, replace_cardIds ht]
      exact hp.nodup
    rw [hzones]
    rfl

theorem evolveOpen_of_typed (hl : p.loose = []) (hc : changes.Typed) :
    p.evolveOpen changes = (p.evolve changes).mapError .state :=
  evolveOpen_of_loose_eq_nil hc.known (loose_replace hl hc.plain)

theorem evolveOpen_eq_ok_iff (hp : p.Valid) (hl : p.loose = []) (hc : changes.Typed) :
    p.evolveOpen changes = .ok q ↔ (p.replace changes).Sound ∧ q = p.replace changes := by
  rw [evolveOpen_of_typed hl hc, mapError_eq_ok_iff, evolve_eq_ok_iff hp, sound_iff_valid]
  simp [hc.known]

theorem exists_evolveOpen_iff (hp : p.Valid) (hl : p.loose = []) (hc : changes.Typed) :
    (∃ q, p.evolveOpen changes = .ok q) ↔ (p.replace changes).Sound := by
  simp [evolveOpen_eq_ok_iff hp hl hc]

/-- A player that can be written can be made anew exactly when it is sound and has an identifier. -/
theorem readable_iff (hl : p.loose = []) (hc : ∀ card ∈ p.cards, card.Readable) :
    p.Readable ↔ p.id ≠ "" ∧ p.Sound := by
  rw [Readable, ofValue_toValue_eq_read_iff hl hc, sound_iff_valid]
  constructor
  · rintro ⟨⟨hid, _, hv⟩, _⟩
    exact ⟨hid, hv⟩
  · rintro ⟨hid, hv⟩
    exact ⟨⟨hid, Int.le_trans hv.health_nonneg hv.health_le, hv⟩, rfl⟩

end Player

namespace GameState
variable {s t : GameState} {changes : Changes}

/-- The rules for a state's fields, whatever its players are like. -/
structure Sound (s : GameState) : Prop where
  turn_nonneg : 0 ≤ s.turn
  seated : ∀ seat ∈ s.players.entries, seat.1 = seat.2.id
  current : s.playerIds ≠ [] → s.currentPlayer ∈ s.playerIds

theorem problem?_eq_none_iff_sound : s.problem? = none ↔ s.Sound := by
  have hcurrent : (s.players.isEmpty ∨ s.currentPlayer ∈ s.players.keys) ↔
      (s.playerIds ≠ [] → s.currentPlayer ∈ s.playerIds) := by
    rw [OrderedMap.isEmpty_iff, playerIds, Decidable.or_iff_not_imp_left]
  rw [problem?, Option.or_eq_none_iff, Option.or_eq_none_iff, turnProblem?_eq_none_iff,
    seatProblem?_eq_none_iff, currentProblem?_eq_none_iff, hcurrent]
  constructor
  · rintro ⟨⟨ht, hs⟩, hc⟩
    exact ⟨ht, hs, hc⟩
  · intro h
    exact ⟨⟨h.turn_nonneg, h.seated⟩, h.current⟩

/-- Only fields are named, and every value given is of its field's type. -/
structure Changes.Typed (changes : Changes) : Prop where
  known : changes.unknown = []
  plain : changes.loose = []

/-- Every field that is named has the value given, and every other field is kept. -/
structure Takes (s : GameState) (changes : Changes) (t : GameState) : Prop where
  players_eq : t.players = changes.players.getD s.players
  currentPlayer_eq : t.currentPlayer = changes.currentPlayer.getD s.currentPlayer
  turn_eq : t.turn = changes.turn.getD s.turn
  phase_eq : t.phase = changes.phase.getD s.phase

theorem takes_replace (s : GameState) (changes : Changes) : s.Takes changes (s.replace changes) :=
  ⟨rfl, rfl, rfl, rfl⟩

theorem loose_replace (hl : s.loose = []) (hc : changes.loose = []) :
    (s.replace changes).loose = [] := by
  simp [replace, hl, hc]

/-- The seats of a valid state need no look when the players were not replaced. -/
theorem changeProblem?_eq_problem? (hs : s.Valid) :
    s.changeProblem? changes = (s.replace changes).problem? := by
  unfold changeProblem? problem?
  cases hc : changes.players with
  | some players => rfl
  | none =>
    have hseats : (s.replace changes).seatProblem? = none := by
      rw [seatProblem?_eq_none_iff]
      simpa [replace, hc] using hs.seated
    rw [hseats]
    rfl

theorem evolveOpen_of_typed (hl : s.loose = []) (hc : changes.Typed) :
    s.evolveOpen changes = (s.evolve changes).mapError .state :=
  evolveOpen_of_loose_eq_nil hc.known (loose_replace hl hc.plain)

theorem evolveOpen_eq_ok_iff (hs : s.Valid) (hl : s.loose = []) (hc : changes.Typed) :
    s.evolveOpen changes = .ok t ↔ (s.replace changes).Sound ∧ t = s.replace changes := by
  rw [evolveOpen_of_typed hl hc, mapError_eq_ok_iff, evolve, changeProblem?_eq_problem? hs,
    ← problem?_eq_none_iff_sound]
  cases hp : (s.replace changes).problem? with
  | none => simp [hc.known, eq_comm]
  | some problem => simp [hc.known]

theorem exists_evolveOpen_iff (hs : s.Valid) (hl : s.loose = []) (hc : changes.Typed) :
    (∃ t, s.evolveOpen changes = .ok t) ↔ (s.replace changes).Sound := by
  simp [evolveOpen_eq_ok_iff hs hl hc]

theorem valid_of_sound (h : s.Sound) (hp : ∀ seat ∈ s.players.entries, seat.2.Valid) : s.Valid :=
  (problem?_eq_none_iff_valid hp).mp (problem?_eq_none_iff_sound.mpr h)

theorem Valid.sound (h : s.Valid) : s.Sound :=
  problem?_eq_none_iff_sound.mp ((problem?_eq_none_iff_valid h.players).mpr h)

/-- A state of players that can be made anew can itself be made anew exactly when it is sound. -/
theorem exists_ofValue_iff (hl : s.loose = []) (hp : ∀ seat ∈ s.players.entries, seat.2.Readable) :
    (∃ t, ofValue s.toValue = .read t) ↔ s.Sound := by
  simp only [ofValue_toValue_eq_read_iff hl hp, problem?_eq_none_iff_sound]
  constructor
  · rintro ⟨t, ⟨_, hs⟩, _⟩
    exact hs
  · exact fun hs => ⟨_, ⟨hs.turn_nonneg, hs⟩, rfl⟩

end GameState

namespace Solo

def fox : Card := { id := "fox", name := "Fox", cost := 1, tags := [] }

def owl : Card := { id := "owl", name := "Owl", cost := 2, tags := [] }

def cat : Player where
  id := "cat"
  health := 2
  maxHealth := 4
  hand := [fox]
  deck := [owl]
  discard := []
  resources := .empty

def table : GameState where
  players := ⟨[("cat", cat)], by decide⟩
  currentPlayer := "cat"
  turn := 3
  phase := .main

theorem cat_valid : cat.Valid := Player.problem?_eq_none_iff.mp (by decide +kernel)

theorem table_valid : table.Valid := by
  refine GameState.valid_of_sound (GameState.problem?_eq_none_iff_sound.mp (by decide +kernel)) ?_
  simpa [table] using cat_valid

/-- The highest health falls to the health, and a card moves from the hand to the discard pile. -/
def rest : Player.Changes := { maxHealth := some 2, hand := some [], discard := some [fox] }

/-- The owl is already in the deck. -/
def double : Player.Changes := { hand := some [fox, owl] }

/-- The identifier is lost; the seat has to follow. -/
def nameless : GameState.Changes where
  players := some ⟨[("", { cat with id := "" })], by decide⟩
  currentPlayer := some ""

def stranger : GameState.Changes := { currentPlayer := some "dog" }

end Solo

/-- A change to fields of a valid player or state, with values of their types, goes through exactly when the
changed player or state is sound, and then it changes just the fields named. What can be made out of a
record is the same. -/
theorem evolve_iff_sound :
    (∀ (p : Player) (changes : Player.Changes), p.Valid → p.loose = [] → changes.Typed →
      p.evolveOpen changes = (p.evolve changes).mapError .state ∧
      ((∃ q, p.evolveOpen changes = .ok q) ↔ (p.replace changes).Sound) ∧
      (∀ q, p.evolveOpen changes = .ok q → q.Sound ∧ p.Takes changes q) ∧
      ((∀ card ∈ (p.replace changes).cards, card.Readable) →
        ((p.replace changes).Readable ↔
          (p.replace changes).id ≠ "" ∧ ∃ q, p.evolveOpen changes = .ok q))) ∧
    ∀ (s : GameState) (changes : GameState.Changes), s.Valid → s.loose = [] → changes.Typed →
      (∀ players, changes.players = some players → ∀ seat ∈ players.entries, seat.2.Sound) →
      s.evolveOpen changes = (s.evolve changes).mapError .state ∧
      ((∃ t, s.evolveOpen changes = .ok t) ↔ (s.replace changes).Sound) ∧
      (∀ t, s.evolveOpen changes = .ok t → t.Valid ∧ s.Takes changes t) ∧
      ((∀ seat ∈ (s.replace changes).players.entries, seat.2.Readable) →
        ((∃ t, GameState.ofValue (s.replace changes).toValue = .read t) ↔
          ∃ t, s.evolveOpen changes = .ok t)) := by
  constructor
  · intro p changes hp hl hc
    have hexists := Player.exists_evolveOpen_iff hp hl hc
    refine ⟨Player.evolveOpen_of_typed hl hc, hexists, ?_, ?_⟩
    · intro q hq
      obtain ⟨hsound, rfl⟩ := (Player.evolveOpen_eq_ok_iff hp hl hc).mp hq
      exact ⟨hsound, p.takes_replace changes⟩
    · intro hcards
      rw [hexists]
      exact Player.readable_iff (Player.loose_replace hl hc.plain) hcards
  · intro s changes hs hl hc hplayers
    have hexists := GameState.exists_evolveOpen_iff hs hl hc
    refine ⟨GameState.evolveOpen_of_typed hl hc, hexists, ?_, ?_⟩
    · intro t ht
      obtain ⟨hsound, rfl⟩ := (GameState.evolveOpen_eq_ok_iff hs hl hc).mp ht
      refine ⟨GameState.valid_of_sound hsound ?_, s.takes_replace changes⟩
      cases hp : changes.players with
      | none => simpa [GameState.replace, hp] using hs.players
      | some players =>
        intro seat hm
        have hm' : seat ∈ players.entries := by simpa [GameState.replace, hp] using hm
        exact Player.sound_iff_valid.mp (hplayers players hp seat hm')
    · intro hread
      rw [hexists]
      exact GameState.exists_ofValue_iff (GameState.loose_replace hl hc.plain) hread

theorem evolve_iff_sound_solo :
    (Solo.cat.Valid ∧ (∃ q, Solo.cat.evolveOpen Solo.rest = .ok q) ∧
      ¬ ∃ q, Solo.cat.evolveOpen Solo.double = .ok q) ∧
    Solo.table.Valid ∧ (∃ t, Solo.table.evolveOpen Solo.nameless = .ok t ∧ t.Valid) ∧
      ¬ ∃ t, Solo.table.evolveOpen Solo.stranger = .ok t := by
  obtain ⟨player, game⟩ := evolve_iff_sound
  refine ⟨⟨Solo.cat_valid, ?_, ?_⟩, Solo.table_valid, ?_, ?_⟩
  · obtain ⟨_, hiff, _⟩ := player Solo.cat Solo.rest Solo.cat_valid rfl ⟨rfl, rfl⟩
    exact hiff.mpr ⟨by decide, by decide, by decide, by decide +kernel⟩
  · obtain ⟨_, hiff, _⟩ := player Solo.cat Solo.double Solo.cat_valid rfl ⟨rfl, rfl⟩
    intro h
    exact absurd (hiff.mp h).nodup (by decide +kernel)
  · have hplayers : ∀ players, Solo.nameless.players = some players →
        ∀ seat ∈ players.entries, seat.2.Sound := by
      rintro players ⟨⟩ seat hm
      rw [List.mem_singleton.mp hm]
      exact ⟨by decide, by decide, by decide, by decide +kernel⟩
    obtain ⟨_, hiff, htakes, _⟩ :=
      game Solo.table Solo.nameless Solo.table_valid rfl ⟨rfl, rfl⟩ hplayers
    obtain ⟨t, ht⟩ := hiff.mpr
      ⟨by decide, by decide +kernel, fun _ => by decide +kernel⟩
    exact ⟨t, ht, (htakes t ht).1⟩
  · have hplayers : ∀ players, Solo.stranger.players = some players →
        ∀ seat ∈ players.entries, seat.2.Sound := by
      rintro players ⟨⟩
    obtain ⟨_, hiff, _⟩ := game Solo.table Solo.stranger Solo.table_valid rfl ⟨rfl, rfl⟩ hplayers
    intro h
    exact absurd ((hiff.mp h).current (by decide +kernel)) (by decide +kernel)

end Cardplay

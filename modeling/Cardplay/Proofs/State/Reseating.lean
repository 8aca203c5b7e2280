import Cardplay.Proofs.Execution.Conservation

/-!
# Players seated together or one by one

Players who are seated together each take the seat of their own identifier, and the last listed of several keeps
it. Seating them one by one goes over the whole state again after every one of them, and yet it leads to the same
table, or stops at the same first player who has no seat (`GameState.withPlayers_one_by_one`).
-/

set_option autoImplicit false

namespace Cardplay

namespace GameState
variable {s : GameState} {ps : List Player} {p : Player}

/-- Seats the players one after the other, each at the state that the one before left. -/
def withEach (s : GameState) (ps : List Player) : Except StateError GameState := ps.foldlM withPlayer s

/-- The first listed player who has no seat. -/
def stranger? (s : GameState) (ps : List Player) : Option Player := ps.find? fun p => p.id ∉ s.playerIds

theorem stranger?_eq_none_iff : s.stranger? ps = none ↔ ∀ p ∈ ps, p.id ∈ s.playerIds := by
  simp [stranger?]

theorem stranger?_cons_of_seated (h : p.id ∈ s.playerIds) (ps : List Player) :
    s.stranger? (p :: ps) = s.stranger? ps :=
  List.find?_cons_of_neg (by simpa using h)

theorem stranger?_cons_of_unseated (h : p.id ∉ s.playerIds) (ps : List Player) :
    s.stranger? (p :: ps) = some p :=
  List.find?_cons_of_pos (by simpa using h)

theorem stranger?_congr {t : GameState} (h : t.playerIds = s.playerIds) : t.stranger? ps = s.stranger? ps := by
  rw [stranger?, stranger?, h]

theorem seatAll_of_stranger {players : OrderedMap Player}
    (h : ps.find? (fun p => p.id ∉ players.keys) = some p) :
    seatAll players ps = .error (.unseated (.str p.id)) := by
  induction ps generalizing players with
  | nil => cases h
  | cons q rest ih =>
    by_cases hq : q.id ∈ players.keys
    · have hkeys : (players.insert q.id q).keys = players.keys := by
        rw [OrderedMap.keys_insert, if_pos hq]
      rw [seatAll, if_pos (OrderedMap.contains_iff.mpr hq)]
      apply ih
      rw [hkeys]
      simpa [hq] using h
    · obtain rfl : q = p := by simpa [hq] using h
      rw [seatAll, if_neg (mt OrderedMap.contains_iff.mp hq)]

theorem withPlayers_of_stranger (h : s.stranger? ps = some p) :
    s.withPlayers ps = .error (.unseated (.str p.id)) := by
  rw [withPlayers, seatAll_of_stranger h]
  rfl

/-- Who has a seat can be seated. Only the seats change, and the state stays valid. -/
theorem withPlayers_of_seated (hs : s.Valid) (hp : ∀ p ∈ ps, p.Valid) (h : s.stranger? ps = none) :
    ∃ t, s.withPlayers ps = .ok t ∧ t.Valid ∧
      t.toTable = { s.toTable with players := placeAll s.players ps } := by
  have hseated := stranger?_eq_none_iff.mp h
  refine ⟨_, (withPlayers_eq_ok_iff hs hp).mpr ⟨hseated, rfl⟩, valid_placeAll hs hp hseated, ?_⟩
  simp [replace, Changes.settled]

theorem playerIds_of_placeAll {t : GameState} (h : s.stranger? ps = none)
    (ht : t.toTable = { s.toTable with players := placeAll s.players ps }) : t.playerIds = s.playerIds := by
  rw [playerIds, ht]
  exact keys_placeAll (stranger?_eq_none_iff.mp h)

theorem withEach_cons {t : GameState} (h : s.withPlayers [p] = .ok t) (ps : List Player) :
    s.withEach (p :: ps) = t.withEach ps := by
  rw [withEach, List.foldlM_cons, withPlayer, h]
  rfl

/-- The step of both runs below: one seated player, and nobody becomes or ceases to be a stranger by it. -/
theorem exists_withPlayer (hs : s.Valid) (hp : p.Valid) (h : p.id ∈ s.playerIds) :
    ∃ t, s.withPlayers [p] = .ok t ∧ t.Valid ∧
      t.toTable = { s.toTable with players := s.players.insert p.id p } ∧ t.playerIds = s.playerIds := by
  have hnone : s.stranger? [p] = none := stranger?_eq_none_iff.mpr (List.forall_mem_singleton.mpr h)
  obtain ⟨t, ht, hvalid, htable⟩ := withPlayers_of_seated hs (List.forall_mem_singleton.mpr hp) hnone
  exact ⟨t, ht, hvalid, htable, playerIds_of_placeAll hnone htable⟩

theorem withEach_of_seated (hs : s.Valid) (hp : ∀ p ∈ ps, p.Valid) (h : s.stranger? ps = none) :
    ∃ u, s.withEach ps = .ok u ∧ u.toTable = { s.toTable with players := placeAll s.players ps } := by
  induction ps generalizing s with
  | nil => exact ⟨s, rfl, rfl⟩
  | cons p rest ih =>
    obtain ⟨hfirst, hrest⟩ := List.forall_mem_cons.mp hp
    have hseat := stranger?_eq_none_iff.mp h p List.mem_cons_self
    obtain ⟨t, ht, hvalid, htable, hids⟩ := exists_withPlayer hs hfirst hseat
    rw [stranger?_cons_of_seated hseat, ← stranger?_congr hids] at h
    obtain ⟨u, hu, hutable⟩ := ih hvalid hrest h
    refine ⟨u, (withEach_cons ht rest).trans hu, ?_⟩
    rw [hutable, htable]
    rfl

theorem withEach_of_stranger (hs : s.Valid) (hp : ∀ p ∈ ps, p.Valid) (h : s.stranger? ps = some p) :
    s.withEach ps = .error (.unseated (.str p.id)) := by
  induction ps generalizing s with
  | nil => cases h
  | cons q rest ih =>
    obtain ⟨hfirst, hrest⟩ := List.forall_mem_cons.mp hp
    by_cases hseat : q.id ∈ s.playerIds
    · obtain ⟨t, ht, hvalid, _, hids⟩ := exists_withPlayer hs hfirst hseat
      rw [stranger?_cons_of_seated hseat, ← stranger?_congr hids] at h
      exact (withEach_cons ht rest).trans (ih hvalid hrest h)
    · rw [stranger?_cons_of_unseated hseat] at h
      obtain rfl : q = p := Option.some.inj h
      have hstops : s.withPlayers [q] = .error (.unseated (.str q.id)) :=
        withPlayers_of_stranger (stranger?_cons_of_unseated hseat [])
      rw [withEach, List.foldlM_cons, withPlayer, hstops]
      rfl

/-- Players can be seated together exactly if each of them has a seat. Then every seat holds the last player who is
listed for it, or who held it before, and nothing else has changed; one by one they lead to the same table. Else
both ways stop at the first player without a seat, with the same error about him. -/
theorem withPlayers_one_by_one (hs : s.Valid) (hp : ∀ p ∈ ps, p.Valid) :
    ((∃ t, s.withPlayers ps = .ok t) ↔ ∀ p ∈ ps, p.id ∈ s.playerIds) ∧
    (∀ t, s.withPlayers ps = .ok t → t.Valid ∧ t.playerIds = s.playerIds ∧ t.turn = s.turn ∧
      t.phase = s.phase ∧ t.currentPlayer = s.currentPlayer ∧
      (∀ id, t.player? id = (ps.reverse.find? fun p => p.id = id).or (s.player? id)) ∧
      ∃ u, s.withEach ps = .ok u ∧ u.toTable = t.toTable) ∧
    ((∃ p ∈ ps, p.id ∉ s.playerIds) → ∃ p, ps.find? (fun p => p.id ∉ s.playerIds) = some p ∧
      s.withPlayers ps = .error (.unseated (.str p.id)) ∧
      s.withEach ps = .error (.unseated (.str p.id))) := by
  have hsucceeds : (∃ t, s.withPlayers ps = .ok t) ↔ s.stranger? ps = none := by
    constructor
    · rintro ⟨t, ht⟩
      exact stranger?_eq_none_iff.mpr ((withPlayers_eq_ok_iff hs hp).mp ht).1
    · intro hnone
      obtain ⟨t, ht, _⟩ := withPlayers_of_seated hs hp hnone
      exact ⟨t, ht⟩
  refine ⟨hsucceeds.trans stranger?_eq_none_iff, ?_, ?_⟩
  · intro t ht
    have hnone := hsucceeds.mp ⟨t, ht⟩
    obtain ⟨t', ht', hvalid, htable⟩ := withPlayers_of_seated hs hp hnone
    obtain rfl : t' = t := Except.ok.inj (ht'.symm.trans ht)
    obtain ⟨u, hu, hutable⟩ := withEach_of_seated hs hp hnone
    refine ⟨hvalid, playerIds_of_placeAll hnone htable, ?_, ?_, ?_, ?_, u, hu, hutable.trans htable.symm⟩
    · rw [htable]
    · rw [htable]
    · rw [htable]
    · intro id
      rw [player?, htable]
      exact get?_placeAll s.players ps id
  · rintro ⟨q, hq, hunseated⟩
    cases hstranger : s.stranger? ps with
    | none => exact absurd (stranger?_eq_none_iff.mp hstranger q hq) hunseated
    | some p =>
      exact ⟨p, hstranger, withPlayers_of_stranger hstranger, withEach_of_stranger hs hp hstranger⟩

end GameState

namespace Duel

def tired : Player := { ann with health := 1 }

def rested : Player := { ann with health := 5 }

def cy : Player := { bob with id := "cy" }

theorem listed_valid : ∀ p ∈ [tired, bob, rested, cy], p.Valid := fun p hp =>
  Player.problem?_eq_none_iff.mp (by revert p; decide +kernel)

end Duel

namespace GameState

/-- Of the two who are listed for one seat the last one keeps it; the guest has none, wherever he is listed. -/
theorem withPlayers_one_by_one_guest : Duel.table.Valid ∧ (∀ p ∈ [Duel.tired, Duel.bob, Duel.rested], p.Valid) ∧
    (∃ t u, Duel.table.withPlayers [Duel.tired, Duel.bob, Duel.rested] = .ok t ∧
      Duel.table.withEach [Duel.tired, Duel.bob, Duel.rested] = .ok u ∧ u.toTable = t.toTable ∧
      t.player? "ann" = some Duel.rested ∧ t.playerIds = ["ann", "bob"]) ∧
    (∀ p ∈ [Duel.tired, Duel.cy, Duel.rested], p.Valid) ∧
    Duel.table.withPlayers [Duel.tired, Duel.cy, Duel.rested] = .error (.unseated (.str "cy")) ∧
    Duel.table.withEach [Duel.tired, Duel.cy, Duel.rested] = .error (.unseated (.str "cy")) := by
  have hplayers : ∀ p ∈ [Duel.tired, Duel.bob, Duel.rested], p.Valid := fun p hp =>
    Duel.listed_valid p (by simp only [List.mem_cons, List.not_mem_nil, or_false] at hp ⊢; tauto)
  have hguest : ∀ p ∈ [Duel.tired, Duel.cy, Duel.rested], p.Valid := fun p hp =>
    Duel.listed_valid p (by simp only [List.mem_cons, List.not_mem_nil, or_false] at hp ⊢; tauto)
  obtain ⟨hseated, hworks, -⟩ := withPlayers_one_by_one Duel.table_valid hplayers
  obtain ⟨t, ht⟩ := hseated.mpr (by decide +kernel)
  obtain ⟨-, hids, -, -, -, hget, u, hu, htable⟩ := hworks t ht
  obtain ⟨-, -, hstops⟩ := withPlayers_one_by_one Duel.table_valid hguest
  obtain ⟨p, hp, htogether, hsingly⟩ := hstops ⟨Duel.cy, by simp, by decide +kernel⟩
  obtain rfl : Duel.cy = p := Option.some.inj (.trans (by decide +kernel) hp)
  exact ⟨Duel.table_valid, hplayers, ⟨t, u, ht, hu, htable, (hget "ann").trans (by decide +kernel), hids⟩,
    hguest, htogether, hsingly⟩

end GameState

end Cardplay

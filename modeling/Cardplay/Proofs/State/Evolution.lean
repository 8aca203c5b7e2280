import Cardplay.State.Game

/-!
# Changes to valid states

A change to a valid player or game state goes through exactly when what it leads to is valid again, although
only the rules that the changed fields can break are checked. Replacing players goes through exactly when
all of them are seated.
-/

set_option autoImplicit false

namespace Cardplay

namespace Player
variable {p q : Player} {changes : Changes}

theorem replace_cardIds (h : changes.touchesZones = false) :
    (p.replace changes).cardIds = p.cardIds := by
  simp only [Changes.touchesZones, Bool.or_eq_false_iff, Option.isSome_eq_false_iff,
    Option.isNone_iff_eq_none] at h
  obtain ⟨⟨hh, hd⟩, hx⟩ := h
  simp [replace, cardIds, cards, hh, hd, hx]

theorem changeProblem?_eq_none_iff (hp : p.Valid) :
    p.changeProblem? changes = none ↔ (p.replace changes).Valid := by
  rw [← problem?_eq_none_iff, changeProblem?, problem?, Option.or_eq_none_iff,
    Option.or_eq_none_iff]
  refine and_congr_right fun _ => ?_
  cases ht : changes.touchesZones with
  | true => rfl
  | false =>
    have hn : (p.replace changes).zoneProblem? = none := by
      rw [zoneProblem?_eq_none_iff, replace_cardIds ht]
      exact hp.nodup
    simp [hn]

theorem evolve_eq_ok_iff (hp : p.Valid) :
    p.evolve changes = .ok q ↔
      changes.unknown = [] ∧ (p.replace changes).Valid ∧ q = p.replace changes := by
  rw [← changeProblem?_eq_none_iff hp, evolve]
  by_cases hu : changes.unknown = []
  · cases hc : p.changeProblem? changes with
    | none => simp [hu, eq_comm]
    | some problem => simp [hu]
  · simp [hu]

end Player

namespace GameState
variable {s t : GameState} {changes : Changes}

theorem turnProblem?_eq_none_iff : s.turnProblem? = none ↔ 0 ≤ s.turn := by
  unfold turnProblem?
  split
  · simp
    omega
  · simp
    omega

theorem seatProblem?_eq_none_iff :
    s.seatProblem? = none ↔ ∀ seat ∈ s.players.entries, seat.1 = seat.2.id := by
  simp [seatProblem?]

theorem currentProblem?_eq_none_iff :
    s.currentProblem? = none ↔ s.players.isEmpty ∨ s.currentPlayer ∈ s.players.keys := by
  unfold currentProblem?
  rw [← OrderedMap.contains_iff]
  split <;> simp_all

theorem problem?_eq_none_iff_valid (hp : ∀ seat ∈ s.players.entries, seat.2.Valid) :
    s.problem? = none ↔ s.Valid := by
  rw [problem?, Option.or_eq_none_iff, Option.or_eq_none_iff, turnProblem?_eq_none_iff,
    seatProblem?_eq_none_iff, currentProblem?_eq_none_iff]
  exact ⟨fun ⟨⟨ht, hs⟩, hc⟩ => ⟨ht, hs, hc, hp⟩, fun h => ⟨⟨h.turn_nonneg, h.seated⟩, h.current⟩⟩

theorem changeProblem?_eq_none_iff (hs : s.Valid)
    (hp : ∀ players, changes.players = some players → ∀ seat ∈ players.entries, seat.2.Valid) :
    s.changeProblem? changes = none ↔ (s.replace changes).Valid := by
  have hvalid : ∀ seat ∈ (s.replace changes).players.entries, seat.2.Valid := by
    cases hc : changes.players with
    | none => simpa [replace, hc] using hs.players
    | some players => simpa [replace, hc] using hp players hc
  rw [← problem?_eq_none_iff_valid hvalid, changeProblem?, problem?, Option.or_eq_none_iff,
    Option.or_eq_none_iff, Option.or_eq_none_iff, Option.or_eq_none_iff]
  refine and_congr_left fun _ => and_congr_right fun _ => ?_
  cases hc : changes.players with
  | some players => rfl
  | none =>
    have hn : (s.replace changes).seatProblem? = none := by
      rw [seatProblem?_eq_none_iff]
      simpa [replace, hc] using hs.seated
    simp [hn]

theorem evolve_eq_ok_iff (hs : s.Valid)
    (hp : ∀ players, changes.players = some players → ∀ seat ∈ players.entries, seat.2.Valid) :
    s.evolve changes = .ok t ↔
      changes.unknown = [] ∧ (s.replace changes).Valid ∧ t = s.replace changes := by
  rw [← changeProblem?_eq_none_iff hs hp, evolve]
  by_cases hu : changes.unknown = []
  · cases hc : s.changeProblem? changes with
    | none => simp [hu, eq_comm]
    | some problem => simp [hu]
  · simp [hu]

theorem Valid.player (hs : s.Valid) {id : String} {p : Player} (h : s.player? id = some p) :
    p.id = id ∧ p.Valid := by
  have hm := OrderedMap.mem_entries_iff.mpr h
  exact ⟨(hs.seated _ hm).symm, hs.players _ hm⟩

theorem valid_iff : s.Valid ↔ 0 ≤ s.turn ∧ (s.players.isEmpty ∨ s.currentPlayer ∈ s.playerIds) ∧
    ∀ id p, s.player? id = some p → p.id = id ∧ p.Valid := by
  constructor
  · intro hs
    exact ⟨hs.turn_nonneg, hs.current, fun id p h => hs.player h⟩
  · rintro ⟨ht, hc, hp⟩
    refine ⟨ht, ?_, hc, ?_⟩
    · intro seat hm
      exact (hp seat.1 seat.2 (OrderedMap.mem_entries_iff.mp hm)).1.symm
    · intro seat hm
      exact (hp seat.1 seat.2 (OrderedMap.mem_entries_iff.mp hm)).2

/-- The seats once each listed player has taken the place of the one with the same identifier. -/
def placeAll (players : OrderedMap Player) (ps : List Player) : OrderedMap Player :=
  ps.foldl (fun acc p => acc.insert p.id p) players

theorem keys_placeAll {players : OrderedMap Player} {ps : List Player}
    (h : ∀ p ∈ ps, p.id ∈ players.keys) : (placeAll players ps).keys = players.keys := by
  induction ps generalizing players with
  | nil => rfl
  | cons p ps ih =>
    have hk : (players.insert p.id p).keys = players.keys := by
      rw [OrderedMap.keys_insert, if_pos (h p List.mem_cons_self)]
    have hrest : ∀ q ∈ ps, q.id ∈ (players.insert p.id p).keys := by
      intro q hq
      rw [hk]
      exact h q (List.mem_cons_of_mem p hq)
    exact (ih hrest).trans hk

theorem get?_placeAll (players : OrderedMap Player) (ps : List Player) (id : String) :
    (placeAll players ps).get? id =
      (ps.reverse.find? fun p => p.id = id).or (players.get? id) := by
  induction ps generalizing players with
  | nil => rfl
  | cons p ps ih =>
    have hp := ih (players.insert p.id p)
    simp only [List.reverse_cons, List.find?_append, Option.or_assoc]
    rw [show placeAll players (p :: ps) = placeAll (players.insert p.id p) ps from rfl, hp]
    by_cases hid : p.id = id
    · subst hid
      simp
    · rw [OrderedMap.get?_insert_of_ne players fun e => hid e.symm]
      simp [hid]

theorem seatAll_eq_ok_iff {players seated : OrderedMap Player} {ps : List Player} :
    seatAll players ps = .ok seated ↔
      (∀ p ∈ ps, p.id ∈ players.keys) ∧ seated = placeAll players ps := by
  induction ps generalizing players with
  | nil => simp [seatAll, placeAll, eq_comm]
  | cons p ps ih =>
    by_cases hc : players.contains p.id
    · have hk := OrderedMap.contains_iff.mp hc
      have hkeys : (players.insert p.id p).keys = players.keys := by
        rw [OrderedMap.keys_insert, if_pos hk]
      rw [seatAll, if_pos hc, ih, hkeys]
      simp [placeAll, hk]
    · have hk : p.id ∉ players.keys := fun h => hc (OrderedMap.contains_iff.mpr h)
      simp [seatAll, hc, hk]

theorem of_get?_placeAll {players : OrderedMap Player} {ps : List Player} {id : String} {p : Player}
    (h : (placeAll players ps).get? id = some p) :
    (p ∈ ps ∧ p.id = id) ∨ players.get? id = some p := by
  rw [get?_placeAll] at h
  rcases Option.or_eq_some_iff.mp h with hf | ⟨_, hg⟩
  · have hid := List.find?_some hf
    exact Or.inl ⟨List.mem_reverse.mp (List.mem_of_find?_eq_some hf), by simpa using hid⟩
  · exact Or.inr hg

theorem valid_placeAll (hs : s.Valid) {ps : List Player} (hp : ∀ p ∈ ps, p.Valid)
    (hseat : ∀ p ∈ ps, p.id ∈ s.playerIds) :
    (s.replace { players := some (placeAll s.players ps) }).Valid := by
  have hkeys : (placeAll s.players ps).keys = s.players.keys := keys_placeAll hseat
  refine valid_iff.mpr ⟨hs.turn_nonneg, ?_, ?_⟩
  · rcases hs.current with he | hc
    · exact Or.inl (OrderedMap.isEmpty_iff.mpr (hkeys.trans (OrderedMap.isEmpty_iff.mp he)))
    · have hc' : s.currentPlayer ∈ (placeAll s.players ps).keys := hkeys.symm ▸ hc
      exact Or.inr hc'
  · intro id p h
    rcases of_get?_placeAll h with ⟨hm, hid⟩ | hold
    · exact ⟨hid, hp p hm⟩
    · exact hs.player hold

theorem withPlayers_eq_ok_iff (hs : s.Valid) {ps : List Player} (hp : ∀ p ∈ ps, p.Valid) :
    s.withPlayers ps = .ok t ↔ (∀ p ∈ ps, p.id ∈ s.playerIds) ∧
      t = s.replace { players := some (placeAll s.players ps) } := by
  unfold withPlayers
  cases hseat : seatAll s.players ps with
  | error e =>
    have hnot : ¬ ∀ p ∈ ps, p.id ∈ s.playerIds := by
      intro hall
      have hok := seatAll_eq_ok_iff.mpr ⟨hall, rfl⟩
      rw [hseat] at hok
      cases hok
    simp [hnot, bind, Except.bind]
  | ok seated =>
    obtain ⟨hall, rfl⟩ := seatAll_eq_ok_iff.mp hseat
    have hnew := valid_placeAll hs hp hall
    have hseats : ∀ players, some (placeAll s.players ps) = some players →
        ∀ seat ∈ players.entries, seat.2.Valid := by
      rintro players ⟨⟩
      exact hnew.players
    simp only [bind, Except.bind]
    rw [evolve_eq_ok_iff hs hseats]
    exact ⟨fun h => ⟨hall, h.2.2⟩, fun h => ⟨rfl, hnew, h.2⟩⟩

end GameState

end Cardplay

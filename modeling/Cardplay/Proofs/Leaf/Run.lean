import Cardplay.Proofs.Leaf.Touch

/-!
# Running leaves

A leaf fails for two reasons only, an unresolved target or an amount that cannot be spent, and hands the
state back untouched (`Leaf.execute_failed`). At a valid table it always answers, and the state it leaves is
the given one or has some seated players touched (`Leaf.execute_touches`).
-/

set_option autoImplicit false

namespace Cardplay

theorem Target.mem_of_resolve {target : Target} {id : String} {s : GameState} {seats : List Seat}
    (h : target.resolve id s = .ok seats) {seat : Seat} (hm : seat ∈ seats) :
    seat ∈ s.players.entries := by
  unfold resolve at h
  split at h
  · split at h
    · rename_i p hp
      cases h
      rw [List.mem_singleton.mp hm]
      exact OrderedMap.mem_entries_iff.mpr hp
    · cases h
  · split at h
    · rename_i other ho
      cases h
      rw [List.mem_singleton.mp hm]
      exact List.mem_of_find?_eq_some ho
    · cases h
  · split at h
    · rename_i other ho
      cases h
      rw [List.mem_singleton.mp hm]
      exact List.mem_of_find?_eq_some ho
    · cases h
  · cases h
    exact hm

theorem Target.exists_player {target : Target} {id key : String} {s : GameState} {seats : List Seat}
    (h : target.resolve id s = .ok seats) (hkey : key ∈ seats.map Prod.fst) :
    ∃ p, (key, p) ∈ seats ∧ s.player? key = some p := by
  obtain ⟨⟨key, p⟩, hm, rfl⟩ := List.mem_map.mp hkey
  exact ⟨p, hm, OrderedMap.mem_entries_iff.mp (mem_of_resolve h hm)⟩

namespace Leaf
variable {l : Leaf} {c : Context} {r : Result} {run run' : Run}

/-- What the journal keeps of a target that was not resolved. -/
def unresolvedEntry (l : Leaf) (c : Context) (e : Unresolved) : Entry :=
  ⟨.debug, "Target not resolved",
    [("kind", .str l.kind.name), ("player_id", .str c.playerId), ("error", .str e.text)]⟩

theorem finish_eq_ok_iff {players : List Player} {messages : List String} :
    finish c players messages run = .ok r run' ↔ run' = messages.foldl c.logged run ∧
      ∃ t, ((players = [] ∧ t = c.state) ∨
        (players ≠ [] ∧ c.state.withPlayers players = .ok t)) ∧ r = .ok t messages := by
  simp only [finish, Exec.bind_eq_ok_iff, Context.logAll_eq_ok_iff, Exec.ite_eq_ok_iff,
    Exec.orRaise_eq_ok_iff, Exec.pure_eq_ok_iff, List.isEmpty_iff]
  grind

theorem execute_unresolved {e : Unresolved} (hr : l.target.resolve c.playerId c.state = .error e) :
    l.execute c run = .ok (.fail c.state [e.text] (some (.str FailureReason.targetNotFound.name)))
      (c.logged { run with journal := run.journal.push (l.unresolvedEntry c e) } e.text) := by
  simp only [execute, hr, Exec.bind_eq_ok_iff, Exec.note_eq_ok_iff, Context.log_eq_ok_iff,
    Exec.pure_eq_ok_iff, true_and]
  exact ⟨(), _, rfl, (), _, rfl, rfl⟩

theorem execute_refused {seats : List Seat} {message : String}
    (hr : l.target.resolve c.playerId c.state = .ok seats)
    (hm : l.move seats = .ok (.refuse message)) :
    l.execute c run = .ok
      (.fail c.state [message] (some (.str FailureReason.insufficientResource.name)))
      (c.logged run message) := by
  simp only [execute, hr, hm, Exec.bind_eq_ok_iff, Exec.orRaise_eq_ok_iff]
  refine ⟨_, _, ⟨rfl, rfl⟩, ?_⟩
  simp only [Exec.bind_eq_ok_iff, Context.log_eq_ok_iff, Exec.pure_eq_ok_iff, true_and]
  exact ⟨(), _, rfl, rfl⟩

theorem execute_applied {seats : List Seat} {players : List Player} {messages : List String}
    (hr : l.target.resolve c.playerId c.state = .ok seats)
    (hm : l.move seats = .ok (.apply players messages)) :
    l.execute c run = finish c players messages run := by
  simp only [execute, hr, hm]
  rfl

theorem execute_ne_ok_of_error {seats : List Seat} {e : StateError}
    (hr : l.target.resolve c.playerId c.state = .ok seats) (hm : l.move seats = .error e) :
    l.execute c run ≠ .ok r run' := by
  simp only [execute, hr, hm]
  intro h
  cases h

theorem execute_failed (h : l.execute c run = .ok r run') (hf : r.success = false) :
    r.state = c.state ∧ (r.reason? = some (.str FailureReason.targetNotFound.name) ∨
      r.reason? = some (.str FailureReason.insufficientResource.name)) := by
  cases hr : l.target.resolve c.playerId c.state with
  | error e =>
    rw [execute_unresolved hr] at h
    cases h
    exact ⟨rfl, Or.inl rfl⟩
  | ok seats =>
    cases hm : l.move seats with
    | error e => exact absurd h (execute_ne_ok_of_error hr hm)
    | ok m =>
      cases m with
      | refuse message =>
        rw [execute_refused hr hm] at h
        cases h
        exact ⟨rfl, Or.inr rfl⟩
      | apply players messages =>
        rw [execute_applied hr hm] at h
        obtain ⟨_, t, _, rfl⟩ := finish_eq_ok_iff.mp h
        cases hf

/-- The state after a leaf is the one before, or the one before with touched players in their seats. -/
theorem execute_touches (hs : c.state.Valid) (run : Run) :
    ∃ r run', l.execute c run = .ok r run' ∧ (r.state = c.state ∨ ∃ ps,
      (∀ q ∈ ps, ∃ p, c.state.player? q.id = some p ∧ l.Touch p q) ∧
        r.state = c.state.replace { players := some (GameState.placeAll c.state.players ps) }) := by
  cases hr : l.target.resolve c.playerId c.state with
  | error e => exact ⟨_, _, execute_unresolved hr, Or.inl rfl⟩
  | ok seats =>
    have hseats : ∀ seat ∈ seats, c.state.player? seat.2.id = some seat.2 ∧ seat.2.Valid := by
      intro seat hm
      have he := Target.mem_of_resolve hr hm
      exact ⟨hs.seated seat he ▸ OrderedMap.mem_entries_iff.mp he, hs.players seat he⟩
    obtain ⟨m, hm, htouch⟩ := move_touches (l := l) fun seat h => (hseats seat h).2
    cases m with
    | refuse message => exact ⟨_, _, execute_refused hr hm, Or.inl rfl⟩
    | apply players messages =>
      by_cases hempty : players = []
      · exact ⟨_, _, (execute_applied hr hm).trans
          (finish_eq_ok_iff.mpr ⟨rfl, c.state, Or.inl ⟨hempty, rfl⟩, rfl⟩), Or.inl rfl⟩
      · have hold : ∀ q ∈ players, ∃ p, c.state.player? q.id = some p ∧ l.Touch p q := by
          intro q hq
          obtain ⟨seat, hseat, ht⟩ := htouch q hq
          exact ⟨seat.2, ht.id_eq ▸ (hseats seat hseat).1, ht⟩
        have hvalid : ∀ q ∈ players, q.Valid := by
          intro q hq
          obtain ⟨p, hp, ht⟩ := hold q hq
          exact ht.valid (hs.player hp).2
        have hseated : ∀ q ∈ players, q.id ∈ c.state.playerIds := by
          intro q hq
          obtain ⟨p, hp, _⟩ := hold q hq
          exact OrderedMap.mem_keys_iff.mpr ⟨p, hp⟩
        have hnew := (GameState.withPlayers_eq_ok_iff hs hvalid).mpr ⟨hseated, rfl⟩
        exact ⟨_, _, (execute_applied hr hm).trans
          (finish_eq_ok_iff.mpr ⟨rfl, _, Or.inr ⟨hempty, hnew⟩, rfl⟩), Or.inr ⟨players, hold, rfl⟩⟩

end Leaf

end Cardplay

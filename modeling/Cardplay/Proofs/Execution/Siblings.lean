import Cardplay.Proofs.Execution.Conservation
import Cardplay.Proofs.State.Merging

/-!
# Siblings that seat equal players

A merge tells by the objects which fields a sibling replaced, for the players by their seating. Whoever
replaces them takes a seating beyond every revision that was before (`GameState.Stamped`), so players that differ
never go unnoticed. The converse fails: a sibling may seat players equal to those it found.
`Effect.parallel_lastWritten` says when a parallel group of library effects is merged as by comparing the
players themselves, and `Effect.parallel_erased` shows a group that is not.
-/

set_option autoImplicit false

namespace Cardplay

namespace GameState
variable {base s t u : GameState} {siblings : List GameState}

/-- The players were seated at a revision that has been. -/
def Numbered (s : GameState) : Prop := s.seating ≤ s.revision

/-- The later state has either the seating of the earlier one, and then its players, or one beyond all
revisions up to the earlier. -/
structure Stamped (s t : GameState) : Prop where
  revision_le : s.revision ≤ t.revision
  numbered : t.Numbered
  seating : (t.seating = s.seating ∧ t.players = s.players) ∨ s.revision < t.seating

/-- What library effects need of a state. -/
def InOrder (s : GameState) : Prop := s.Valid ∧ s.Numbered

/-- What library effects make of a state in order. -/
def Proceeds (s t : GameState) : Prop := s.SeatWise Player.Progress t ∧ s.Stamped t

def changesPlayers (base s : GameState) : Bool := s.players ≠ base.players

/-- Whoever has another value in a field wrote it. -/
def changers (base : GameState) : Writers where
  players := base.changesPlayers
  currentPlayer s := s.currentPlayer ≠ base.currentPlayer
  turn s := s.turn ≠ base.turn
  phase s := s.phase ≠ base.phase

namespace Stamped

theorem refl (hs : s.Numbered) : s.Stamped s := ⟨Nat.le_refl _, hs, Or.inl ⟨rfl, rfl⟩⟩

theorem trans (h : s.Stamped t) (h' : t.Stamped u) : s.Stamped u := by
  refine ⟨Nat.le_trans h.revision_le h'.revision_le, h'.numbered, ?_⟩
  rcases h'.seating with ⟨hseating', hplayers'⟩ | hlater
  · rw [hseating', hplayers']
    exact h.seating
  · exact Or.inr (Nat.lt_of_le_of_lt h.revision_le hlater)

theorem replace (hs : s.Numbered) (changes : Changes) : s.Stamped (s.replace changes) := by
  unfold Numbered at hs
  cases hp : changes.players with
  | none =>
    refine ⟨Nat.le_succ _, ?_, Or.inl ⟨?_, ?_⟩⟩
    · simp only [Numbered, GameState.replace, hp, Option.isSome_none, Bool.false_eq_true, if_false]
      omega
    · simp [GameState.replace, hp]
    · simp [GameState.replace, hp]
  | some players =>
    refine ⟨Nat.le_succ _, ?_, Or.inr ?_⟩
    · simp [Numbered, GameState.replace, hp]
    · simp [GameState.replace, hp]

theorem merge (hs : s.Numbered) (h : s.merge siblings = .ok t) : s.Stamped t := by
  rcases eq_or_replace_of_merge h with ⟨_, rfl⟩ | rfl
  · exact refl hs
  · exact replace hs _

theorem players_eq (hs : s.Numbered) (h : s.Stamped t) (hseating : t.seating = s.seating) :
    t.players = s.players := by
  rcases h.seating with ⟨_, hplayers⟩ | hlater
  · exact hplayers
  · unfold Numbered at hs
    omega

end Stamped

theorem proceeds_lawful : Lawful InOrder Proceeds where
  refl hs := ⟨SeatWise.refl Player.Progress.seatLaw _, .refl hs.2⟩
  trans h h' := ⟨h.1.trans Player.Progress.seatLaw h'.1, h.2.trans h'.2⟩
  keeps hs h := ⟨h.1.valid Player.Progress.seatLaw hs.1, h.2.numbered⟩
  merge hb h := by
    obtain ⟨t, ht, hseats⟩ := merge_seatWise Player.Progress.seatLaw hb.1 fun s hs => (h s hs).1
    exact ⟨t, ht, hseats, .merge hb.2 ht⟩

theorem lastWriter_of_unwritten {wrote : GameState → Bool} (h : ∀ s ∈ siblings, wrote s = false) :
    base.lastWriter wrote siblings = base := by
  have hnone : siblings.reverse.find? wrote = none := by simpa using h
  rw [lastWriter, hnone, Option.getD_none]

/-- Among siblings that keep all fields but the players, objects and values tell the same of the others. -/
theorem lastWritten_eq_iff {R : Player → Player → Prop} (h : ∀ s ∈ siblings, base.SeatWise R s) :
    base.lastWritten base.replacers siblings = base.lastWritten base.changers siblings ↔
      (base.lastWriter base.reseats siblings).players =
        (base.lastWriter base.changesPlayers siblings).players := by
  have hcurrent : base.lastWriter base.replacers.currentPlayer siblings = base :=
    lastWriter_of_unwritten fun s hs => by simp [replacers, (h s hs).sameCurrent]
  have hturn : base.lastWriter base.replacers.turn siblings = base :=
    lastWriter_of_unwritten fun s hs => by simp [replacers, (h s hs).sameTurn]
  have hcurrent' : base.lastWriter base.changers.currentPlayer siblings = base :=
    lastWriter_of_unwritten fun s hs => by simp [changers, (h s hs).current_eq]
  have hturn' : base.lastWriter base.changers.turn siblings = base :=
    lastWriter_of_unwritten fun s hs => by simp [changers, (h s hs).turn_eq]
  simp only [lastWritten, hcurrent, hturn, hcurrent', hturn', Table.mk.injEq, and_true, true_and]
  exact and_iff_left rfl

theorem lastWriter_changesPlayers_iff :
    (base.lastWriter base.changesPlayers siblings).players = base.players ↔
      ∀ s ∈ siblings, s.players = base.players := by
  induction siblings using List.reverseRecOn with
  | nil => simp [lastWriter]
  | append_singleton rest s ih =>
    rw [lastWriter_concat, List.forall_mem_append, List.forall_mem_singleton, ← ih]
    by_cases hs : s.players = base.players
    · simp [changesPlayers, hs]
    · simp [changesPlayers, hs]

/-- Where a sibling of the same seating has the same players, the last one that took a new seating leaves
the players that the last one with other players leaves, unless it seats those of the base and some sibling
seats others. -/
theorem lastWriter_players_eq_iff
    (h : ∀ s ∈ siblings, s.seating = base.seating → s.players = base.players) :
    (base.lastWriter base.reseats siblings).players =
        (base.lastWriter base.changesPlayers siblings).players ↔
      ((base.lastWriter base.reseats siblings).players = base.players →
        ∀ s ∈ siblings, s.players = base.players) := by
  rw [← lastWriter_changesPlayers_iff]
  induction siblings using List.reverseRecOn with
  | nil => simp [lastWriter]
  | append_singleton rest s ih =>
    obtain ⟨hrest, hs⟩ := List.forall_mem_append.mp h
    have hsame := hs s (List.mem_singleton_self s)
    rw [lastWriter_concat, lastWriter_concat]
    by_cases hp : s.players = base.players
    · by_cases hseating : s.seating = base.seating
      · simpa [reseats, changesPlayers, hp, hseating] using ih hrest
      · simp [reseats, changesPlayers, hp, hseating, eq_comm]
    · have hseating : s.seating ≠ base.seating := mt hsame hp
      simp [reseats, changesPlayers, hp, hseating]

end GameState

theorem Leaf.serves_proceeds (l : Leaf) : Serves GameState.InOrder GameState.Proceeds l.execute := by
  intro c run hc
  obtain ⟨r, run', hr, hseats⟩ :=
    Leaf.serves_seatWise Player.Progress.seatLaw (fun _ _ _ ht => ht.progress) (l := l) c run hc.1
  obtain ⟨_, _, hr', hstate⟩ := execute_touches (l := l) hc.1 run
  rw [hr] at hr'
  cases hr'
  refine ⟨r, run', hr, hseats, ?_⟩
  rcases hstate with heq | ⟨ps, _, heq⟩
  · rw [heq]
    exact .refl hc.2
  · rw [heq]
    exact .replace hc.2 _

theorem Effect.Library.serves_proceeds {e : Effect} (h : e.Library) :
    Serves GameState.InOrder GameState.Proceeds e.execute :=
  BuiltFrom.serves GameState.proceeds_lawful (fun l _ => l.serves_proceeds) h

namespace Duel

/-- The second member gains nothing, and what it holds is what it held. -/
def graze : List Effect := [.leaf (.damage 1 ⟨.opponent, by decide⟩),
  .leaf (.resource "mana" 0 .gain toSelf)]

theorem graze_library : ∀ child ∈ graze, child.Library :=
  List.forall_mem_cons.mpr ⟨.leaf trivial, List.forall_mem_singleton.mpr (.leaf trivial)⟩

end Duel

namespace Effect
variable {children : List Effect} {c : Context}

/-- A parallel group of library effects that all succeed leaves in every field what the last of them that
replaced the field has there. Comparing the players would lead to the same exactly unless the last of them
that seated players seated equal ones although another changed some. -/
theorem parallel_lastWritten (he : ∀ child ∈ children, child.Library) (hc : c.state.Valid)
    (hl : c.state.loose = []) (hn : c.state.Numbered) (run : Run) :
    ∃ rs mid, Behaviour.gather (children.map execute) c run = .ok rs mid ∧
      ((∀ r ∈ rs, r.success = true) → ∃ t,
        (parallel children).execute c run = .ok (.ok t (rs.flatMap Result.messages)) mid ∧
        t.toTable = c.state.lastWritten c.state.replacers (rs.map Result.state) ∧
        (t.toTable = c.state.lastWritten c.state.changers (rs.map Result.state) ↔
          ((c.state.lastWriter c.state.reseats (rs.map Result.state)).players = c.state.players →
            ∀ r ∈ rs, r.state.players = c.state.players))) := by
  have hserves : ∀ b ∈ children.map execute, Serves GameState.InOrder GameState.Proceeds b := by
    intro b hb
    obtain ⟨child, hchild, rfl⟩ := List.mem_map.mp hb
    exact (he child hchild).serves_proceeds
  obtain ⟨rs, mid, hg, hsteps⟩ := Serves.gather hserves c run ⟨hc, hn⟩
  refine ⟨rs, mid, hg, ?_⟩
  intro hsuccess
  have hstates : ∀ s ∈ rs.map Result.state, c.state.Proceeds s := by simpa using hsteps
  obtain ⟨t, ht, _⟩ := GameState.merge_seatWise Player.Progress.seatLaw hc fun s hs => (hstates s hs).1
  have hfailed : rs.filter (fun q => !q.success) = [] := by simpa using hsuccess
  have htable : t.toTable = c.state.lastWritten c.state.replacers (rs.map Result.state) :=
    (GameState.toTable_of_merge hl (fun s hs => (hstates s hs).1.loose hl) ht).trans
      (GameState.foldl_overwrite hl _)
  refine ⟨t, ?_, htable, ?_⟩
  · rw [execute_parallel]
    exact Behaviour.parallel_eq_ok_iff.mpr ⟨rs, mid, hg, Or.inl ⟨hfailed, rfl, t, ht, rfl⟩⟩
  · have hplayers := GameState.lastWriter_players_eq_iff fun s hs => (hstates s hs).2.players_eq hn
    rw [List.forall_mem_map] at hplayers
    rw [htable, GameState.lastWritten_eq_iff fun s hs => (hstates s hs).1]
    exact hplayers

/-- The damage comes last here, and the condition holds. -/
theorem parallel_lastWritten_graze : (∀ child ∈ Duel.graze.reverse, child.Library) ∧
    (Duel.context "ann").state.Valid ∧ (Duel.context "ann").state.Numbered ∧
    ∃ first second mid t, Behaviour.gather (Duel.graze.reverse.map execute) (Duel.context "ann") default =
        .ok [first, second] mid ∧
      (parallel Duel.graze.reverse).execute (Duel.context "ann") default =
        .ok (.ok t (first.messages ++ second.messages)) mid ∧
      t.toTable = Duel.table.lastWritten Duel.table.replacers [first.state, second.state] ∧
      t.toTable = Duel.table.lastWritten Duel.table.changers [first.state, second.state] := by
  have hlibrary : ∀ child ∈ Duel.graze.reverse, child.Library := by
    simpa only [List.mem_reverse] using Duel.graze_library
  have hnumbered : (Duel.context "ann").state.Numbered := Nat.le_refl 0
  obtain ⟨rs, mid, hg, hmerged⟩ := parallel_lastWritten hlibrary (c := Duel.context "ann")
    Duel.table_valid rfl hnumbered default
  obtain ⟨first, second, run', hg', hsuccess, hother⟩ : ∃ first second run',
      Behaviour.gather (Duel.graze.reverse.map execute) (Duel.context "ann") default =
        .ok [first, second] run' ∧ (first.success = true ∧ second.success = true) ∧
      (Duel.table.lastWriter Duel.table.reseats [first.state, second.state]).players ≠
        Duel.table.players := ⟨_, _, _, rfl, ⟨rfl, rfl⟩, by decide +kernel⟩
  rw [hg] at hg'
  cases hg'
  obtain ⟨t, ht, htable, hiff⟩ := hmerged (by simpa using hsuccess)
  exact ⟨hlibrary, Duel.table_valid, hnumbered, first, second, mid, t, hg, by simpa using ht,
    htable, hiff.mpr fun h => absurd h hother⟩

/-- The damage is done in the first member's state and lost in the merged one, although the second member's
state is the given one in every field. -/
theorem parallel_erased : (∀ child ∈ Duel.graze, child.Library) ∧ (Duel.context "ann").state.Valid ∧
    ∃ first second mid t, Behaviour.gather (Duel.graze.map execute) (Duel.context "ann") default =
        .ok [first, second] mid ∧ first.success = true ∧ second.success = true ∧
      first.state.toTable ≠ Duel.table.toTable ∧ second.state.toTable = Duel.table.toTable ∧
      (parallel Duel.graze).execute (Duel.context "ann") default =
        .ok (.ok t (first.messages ++ second.messages)) mid ∧
      t.toTable = Duel.table.toTable ∧
      t.toTable ≠ Duel.table.lastWritten Duel.table.changers [first.state, second.state] := by
  refine ⟨Duel.graze_library, Duel.table_valid, _, _, _, _, rfl, rfl, rfl, ?_, ?_, rfl, ?_, ?_⟩
  · decide +kernel
  · decide +kernel
  · decide +kernel
  · decide +kernel

end Effect

end Cardplay

import Cardplay.Proofs.State.Recheck
import Cardplay.State.Merge
import Mathlib.Data.List.Induction

/-!
# What a merge leaves

A merge of siblings leaves in every field what the last sibling that replaced the field has there
(`GameState.lastWritten`), and whoever puts another object there has replaced it. Going through the siblings one
by one and overwriting the fields that each of them replaced leads to the same table
(`GameState.foldl_overwrite`). Siblings that seat the same players can always be merged, although the players
of one meet the current player and the turn of others (`GameState.merge_lastWritten`).
-/

set_option autoImplicit false

namespace Cardplay
variable {base s : GameState} {siblings : List GameState}

namespace GameState

/-- The last sibling that wrote a field, or the base if none did. -/
def lastWriter (base : GameState) (wrote : GameState → Bool) (siblings : List GameState) : GameState :=
  (siblings.reverse.find? wrote).getD base

/-- Whether the sibling replaced the players, possibly by equal ones. -/
def reseats (base s : GameState) : Bool := s.seating ≠ base.seating

/-- Which siblings count as writers of each field. -/
structure Writers where
  players : GameState → Bool
  currentPlayer : GameState → Bool
  turn : GameState → Bool
  phase : GameState → Bool

/-- Whoever put another object there, even an equal one, wrote a field. -/
def replacers (base : GameState) : Writers where
  players := base.reseats
  currentPlayer s := !base.sameCurrent s
  turn s := !base.sameTurn s
  phase s := s.phase ≠ base.phase

/-- Every field from the last sibling that wrote it. -/
def lastWritten (base : GameState) (wrote : Writers) (siblings : List GameState) : Table where
  players := (base.lastWriter wrote.players siblings).players
  currentPlayer := (base.lastWriter wrote.currentPlayer siblings).currentPlayer
  turn := (base.lastWriter wrote.turn siblings).turn
  phase := (base.lastWriter wrote.phase siblings).phase

/-- What was gathered so far, with the fields in their places that the next sibling replaced. -/
def overwrite (base : GameState) (acc : Table) (next : GameState) : Table :=
  { acc with
    players := if next.seating = base.seating then acc.players else next.players
    currentPlayer := if base.sameCurrent next then acc.currentPlayer else next.currentPlayer
    turn := if base.sameTurn next then acc.turn else next.turn
    phase := if next.phase = base.phase then acc.phase else next.phase }

theorem lastWriter_of_forall {P : GameState → Prop} (wrote : GameState → Bool) (hb : P base)
    (hs : ∀ s ∈ siblings, P s) : P (base.lastWriter wrote siblings) := by
  unfold lastWriter
  cases hf : siblings.reverse.find? wrote with
  | none => exact hb
  | some s => exact hs s (List.mem_reverse.mp (List.mem_of_find?_eq_some hf))

theorem lastWriter_concat (wrote : GameState → Bool) : base.lastWriter wrote (siblings ++ [s]) =
    if wrote s then s else base.lastWriter wrote siblings := by
  unfold lastWriter
  rw [List.reverse_append, List.reverse_singleton, List.singleton_append, List.find?_cons]
  cases wrote s <;> rfl

theorem lastWritten_concat :
    base.lastWritten base.replacers (siblings ++ [s]) =
      base.overwrite (base.lastWritten base.replacers siblings) s := by
  simp only [lastWritten, overwrite, replacers, lastWriter_concat, reseats, decide_eq_true_eq,
    Bool.not_eq_true', ← Bool.not_eq_true, ite_not, apply_ite]

theorem foldl_overwrite (hl : base.loose = []) (siblings : List GameState) :
    siblings.foldl base.overwrite base.toTable =
      base.lastWritten base.replacers siblings := by
  induction siblings using List.reverseRecOn with
  | nil =>
    obtain ⟨⟨players, current, turn, phase, loose⟩, _, _, _, _⟩ := base
    cases hl
    rfl
  | append_singleton rest s ih =>
    rw [List.foldl_append, List.foldl_cons, List.foldl_nil, ih, lastWritten_concat]

theorem merged_concat :
    base.merged (siblings ++ [s]) = (base.merged siblings).override (base.replaced s) := by
  simp [merged]

theorem replaced_typed (hl : s.loose = []) : (base.replaced s).Typed :=
  ⟨rfl, by simp [replaced, hl]⟩

theorem merged_typed (hs : ∀ s ∈ siblings, s.loose = []) : (base.merged siblings).Typed := by
  induction siblings using List.reverseRecOn with
  | nil => exact ⟨rfl, rfl⟩
  | append_singleton rest s ih =>
    have hrest := ih fun u hu => hs u (List.mem_append_left [s] hu)
    have hl : s.loose = [] := hs s (by simp)
    rw [merged_concat]
    exact ⟨by simp [Changes.override, replaced, hrest.known],
      by simp [Changes.override, replaced, hrest.plain, hl]⟩

theorem toTable_replace_merged (hl : base.loose = []) (hs : ∀ s ∈ siblings, s.loose = []) :
    (base.replace (base.merged siblings)).toTable = siblings.foldl base.overwrite base.toTable := by
  induction siblings using List.reverseRecOn with
  | nil =>
    obtain ⟨⟨players, current, turn, phase, loose⟩, _, _, _, _⟩ := base
    cases hl
    rfl
  | append_singleton rest s ih =>
    have hrest : ∀ u ∈ rest, u.loose = [] := fun u hu => hs u (List.mem_append_left [s] hu)
    have hls : s.loose = [] := hs s (by simp)
    rw [List.foldl_append, List.foldl_cons, List.foldl_nil, ← ih hrest, merged_concat]
    have hm := (@merged_typed base rest hrest).plain
    simp only [replace, Changes.override, replaced, overwrite, hl, hls, hm, Table.mk.injEq]
    refine ⟨?_, ?_, ?_, ?_, ?_⟩
    · split <;> simp
    · split <;> simp
    · split <;> simp
    · split <;> simp
    · simp

theorem toTable_replace_of_isEmpty {changes : Changes} (hl : base.loose = [])
    (h : changes.isEmpty = true) : (base.replace changes).toTable = base.toTable := by
  simp only [Changes.isEmpty, Bool.and_eq_true, Option.isNone_iff_eq_none, List.isEmpty_iff] at h
  obtain ⟨⟨⟨⟨⟨hp, hc⟩, ht⟩, hf⟩, _⟩, hx⟩ := h
  obtain ⟨⟨players, current, turn, phase, loose⟩, _, _, _, _⟩ := base
  cases hl
  simp [replace, hp, hc, ht, hf, hx]

theorem eq_or_replace_of_merge {t : GameState} (h : base.merge siblings = .ok t) :
    ((base.merged siblings).isEmpty = true ∧ t = base) ∨ t = base.replace (base.merged siblings) := by
  simp only [merge, evolve] at h
  split at h
  · cases h
    exact Or.inl ⟨‹_›, rfl⟩
  · split at h
    · cases h
    · split at h
      · cases h
      · cases h
        exact Or.inr rfl

theorem toTable_of_merge {t : GameState} (hl : base.loose = []) (hs : ∀ s ∈ siblings, s.loose = [])
    (h : base.merge siblings = .ok t) : t.toTable = siblings.foldl base.overwrite base.toTable := by
  rw [← toTable_replace_merged hl hs]
  rcases eq_or_replace_of_merge h with ⟨hempty, rfl⟩ | rfl
  · exact (toTable_replace_of_isEmpty hl hempty).symm
  · rfl

/-- Valid states that seat the players of the base. -/
structure Sibling (base s : GameState) : Prop where
  valid : s.Valid
  plain : s.loose = []
  same_seats : ∀ id, id ∈ s.playerIds ↔ id ∈ base.playerIds

theorem Sibling.current {u : GameState} (hs : base.Sibling s) (hu : base.Sibling u) :
    s.players.isEmpty ∨ u.currentPlayer ∈ s.players.keys := by
  have hseats (id : String) : id ∈ s.playerIds ↔ id ∈ u.playerIds :=
    (hs.same_seats id).trans (hu.same_seats id).symm
  rcases hu.valid.current with hempty | hcurrent
  · left
    rw [OrderedMap.isEmpty_iff] at hempty ⊢
    apply List.eq_nil_iff_forall_not_mem.mpr
    intro id hid
    have hid' : id ∈ u.players.keys := (hseats id).mp hid
    rw [hempty] at hid'
    cases hid'
  · exact Or.inr ((hseats _).mpr hcurrent)

/-- The players of one sibling, the current player of another and the turn of a third make a valid state. -/
theorem valid_replace_merged (hb : base.Valid) (hl : base.loose = [])
    (hs : ∀ s ∈ siblings, base.Sibling s) : (base.replace (base.merged siblings)).Valid := by
  have htable := toTable_replace_merged hl fun s hm => (hs s hm).plain
  rw [foldl_overwrite hl] at htable
  generalize base.replace (base.merged siblings) = t at htable ⊢
  have hwriter (wrote : GameState → Bool) : base.Sibling (base.lastWriter wrote siblings) :=
    lastWriter_of_forall wrote ⟨hb, hl, fun _ => Iff.rfl⟩ hs
  have hplayers := congrArg Table.players htable
  have hcurrent := congrArg Table.currentPlayer htable
  have hturn := congrArg Table.turn htable
  refine ⟨?_, ?_, ?_, ?_⟩
  · rw [hturn]
    exact (hwriter _).valid.turn_nonneg
  · rw [hplayers]
    exact (hwriter _).valid.seated
  · rw [hplayers, hcurrent]
    exact (hwriter _).current (hwriter _)
  · rw [hplayers]
    exact (hwriter _).valid.players

end GameState

namespace Solo

def drawn : GameState := table.replace
  { players := some ⟨[("cat", { cat with hand := [fox, owl], deck := [] })], by decide⟩ }

def late : GameState := table.replace { turn := some 5 }

def ended : GameState := table.replace { turn := some 7, phase := some .finish }

def moves : List GameState := [late, drawn, ended, late]

end Solo

end Cardplay

import Cardplay.Proofs.State.Merging

/-!
# Laws of merging

A merge sees its siblings only through the changes gathered from them, and the changes of two lists in a row
are those of the second over those of the first (`GameState.merged_append`). What a merge replaced is just
what was gathered (`GameState.replaced_merge`), so siblings may be merged among themselves before they take
part in a merge (`GameState.merge_flatten`). The order of siblings does not matter when no field is replaced
by two of them (`GameState.lastWritten_perm`).
-/

set_option autoImplicit false

namespace Cardplay.GameState
variable {base s t : GameState} {xs ys zs : List GameState} {a b c changes : Changes}

theorem override_nothing (ha : a.Typed) : a.override {} = a := by
  obtain ⟨players, current, turn, phase, unknown, loose⟩ := a
  obtain ⟨hu, hl⟩ := ha
  subst hu hl
  rfl

theorem handed_assoc {α : Type} (second third : Option α) (a b c : Option Nat) :
    (if third.isSome then c else if second.isSome then b else a) =
      if (third.or second).isSome then (if third.isSome then c else b) else a := by
  cases third with
  | none => rfl
  | some v => rfl

theorem override_assoc (ha : a.Typed) (hb : b.Typed) (hc : c.Typed) :
    (a.override b).override c = a.override (b.override c) := by
  simp only [Changes.override, ha.known, hb.known, hc.known, ha.plain, hb.plain, hc.plain,
    Option.or_assoc, handed_assoc, List.append_nil, List.filter_nil]

theorem merged_append (hx : ∀ s ∈ xs, s.loose = []) (hy : ∀ s ∈ ys, s.loose = []) :
    base.merged (xs ++ ys) = (base.merged xs).override (base.merged ys) := by
  induction ys using List.reverseRecOn with
  | nil =>
    rw [List.append_nil]
    exact (override_nothing (merged_typed hx)).symm
  | append_singleton rest s ih =>
    obtain ⟨hrest, hs⟩ := List.forall_mem_append.mp hy
    have hl : s.loose = [] := hs s (List.mem_singleton_self s)
    rw [← List.append_assoc, merged_concat, ih hrest, merged_concat]
    exact override_assoc (merged_typed hx) (merged_typed hrest) (replaced_typed hl)

section Field
variable {α : Type} [DecidableEq α] {unique : α → Bool} {old : α × Nat} {value : Option α}
  {object : Option Nat}

/-- If a field is replaced at all, another object than the one before is handed over for it. -/
def Renews (unique : α → Bool) (old : α × Nat) (value : Option α) (object : Option Nat) : Prop :=
  (value = none ∧ object = none) ∨
    ∃ v n, value = some v ∧ object = some n ∧ sameObject unique old (v, n) = false

theorem renews_nothing : Renews unique old none none := Or.inl ⟨rfl, rfl⟩

theorem renews_replaced (new : α × Nat) : Renews unique old
    (if sameObject unique old new then none else some new.1)
    (if sameObject unique old new then none else some new.2) := by
  by_cases h : sameObject unique old new
  · rw [if_pos h, if_pos h]
    exact renews_nothing
  · rw [if_neg h, if_neg h]
    exact Or.inr ⟨new.1, new.2, rfl, rfl, Bool.not_eq_true _ ▸ h⟩

theorem Renews.override {later : Option α} {laterObject : Option Nat}
    (h : Renews unique old value object) (h' : Renews unique old later laterObject) :
    Renews unique old (later.or value) (if later.isSome then laterObject else object) := by
  rcases h' with ⟨rfl, rfl⟩ | ⟨v, n, rfl, rfl, hne⟩
  · exact h
  · exact Or.inr ⟨v, n, rfl, rfl, hne⟩

theorem Renews.eq_none (h : Renews unique old value object) (hv : value = none) : object = none := by
  rcases h with ⟨_, ho⟩ | ⟨v, n, rfl, _, _⟩
  · exact ho
  · cases hv

theorem sameObject_refl (old : α × Nat) : sameObject unique old old = true := by
  simp [sameObject]

/-- Once an object has been handed over it is what counts as replaced. -/
theorem Renews.replaced (h : Renews unique old value object) (fresh : Nat) :
    let new := (value.getD old.1, if value.isSome then object.getD fresh else old.2)
    (if sameObject unique old new then none else some new.1) = value ∧
      (if sameObject unique old new then none else some new.2) = object := by
  rcases h with ⟨rfl, rfl⟩ | ⟨v, n, rfl, rfl, hne⟩
  · exact ⟨if_pos (sameObject_refl old), if_pos (sameObject_refl old)⟩
  · have hne' : ¬ sameObject unique old (v, n) = true := by simp [hne]
    exact ⟨if_neg hne', if_neg hne'⟩

/-- A phase counts as replaced only by another one. -/
theorem ne_of_replaced {old new v : α} (h : (if new = old then none else some new) = some v) :
    v ≠ old := by
  by_cases hnew : new = old
  · rw [if_pos hnew] at h
    cases h
  · rw [if_neg hnew] at h
    exact Option.some.inj h ▸ hnew

theorem replaced_getD {old : α} {change : Option α} (h : ∀ v, change = some v → v ≠ old) :
    (if change.getD old = old then none else some (change.getD old)) = change := by
  cases change with
  | none => exact if_pos rfl
  | some v => exact if_neg (h v rfl)

end Field

/-- No field is given the object that it has. Of the players the seating tells. -/
structure Changes.Proper (base : GameState) (changes : Changes) : Prop where
  current : Renews isLetter (base.currentPlayer, base.currentObject) changes.currentPlayer
    changes.currentObject
  turn : Renews isSmall (base.turn, base.turnObject) changes.turn changes.turnObject
  phase_ne : ∀ v, changes.phase = some v → v ≠ base.phase

theorem replaced_proper : (base.replaced s).Proper base :=
  ⟨renews_replaced (s.currentPlayer, s.currentObject), renews_replaced (s.turn, s.turnObject),
    fun _ h => ne_of_replaced h⟩

theorem override_proper (ha : a.Proper base) (hb : b.Proper base) : (a.override b).Proper base := by
  refine ⟨ha.current.override hb.current, ha.turn.override hb.turn, ?_⟩
  intro v hv
  rcases Option.or_eq_some_iff.mp hv with hv | ⟨_, hv⟩
  · exact hb.phase_ne v hv
  · exact ha.phase_ne v hv

theorem merged_proper : (base.merged xs).Proper base := by
  induction xs using List.reverseRecOn with
  | nil =>
    refine ⟨renews_nothing, renews_nothing, ?_⟩
    rintro v ⟨⟩
  | append_singleton rest s ih =>
    rw [merged_concat]
    exact override_proper ih replaced_proper

theorem Changes.Proper.eq_of_isEmpty (hp : changes.Proper base) (h : changes.isEmpty = true) :
    changes = {} := by
  obtain ⟨hcurrent, hturn, -⟩ := hp
  obtain ⟨players, current, currentObject, turn, turnObject, phase, unknown, loose⟩ := changes
  simp only [Changes.isEmpty, Bool.and_eq_true, Option.isNone_iff_eq_none, List.isEmpty_iff] at h
  obtain ⟨⟨⟨⟨⟨rfl, hc⟩, ht⟩, rfl⟩, rfl⟩, rfl⟩ := h
  obtain rfl := hcurrent.eq_none hc
  obtain rfl := hturn.eq_none ht
  subst hc ht
  rfl

theorem replaced_self (base : GameState) : base.replaced base = {} := by
  simp [replaced, sameCurrent, sameTurn, sameObject_refl]

theorem replaced_replace (hl : base.loose = []) (hn : base.seating ≤ base.revision)
    (ht : changes.Typed) (hp : changes.Proper base) :
    base.replaced (base.replace changes) = changes := by
  obtain ⟨hcurrent, hcurrentObject⟩ := hp.current.replaced (base.currentObject + 1)
  obtain ⟨hturn, hturnObject⟩ := hp.turn.replaced (base.turnObject + 1)
  have hphase := replaced_getD hp.phase_ne
  obtain ⟨players, current, currentObject, turn, turnObject, phase, unknown, loose⟩ := changes
  obtain ⟨hu, hx⟩ := ht
  subst hu hx
  simp only [replaced, replace, sameCurrent, sameTurn, hl, hcurrent, hcurrentObject, hturn, hturnObject,
    hphase, List.filter_nil, List.append_nil]
  congr 1
  -- A new seating has a number that no earlier one has.
  cases players with
  | none => exact if_pos rfl
  | some players =>
    have hne : base.revision + 1 ≠ base.seating := by omega
    exact if_neg hne

/-- What a merge replaced is what was gathered for it. -/
theorem replaced_merge (hl : base.loose = []) (hn : base.seating ≤ base.revision)
    (hs : ∀ s ∈ xs, s.loose = []) (h : base.merge xs = .ok t) : base.replaced t = base.merged xs := by
  rcases eq_or_replace_of_merge h with ⟨hempty, rfl⟩ | rfl
  · rw [replaced_self, merged_proper.eq_of_isEmpty hempty]
  · exact replaced_replace hl hn (merged_typed hs) merged_proper

theorem loose_merge (hl : base.loose = []) (hs : ∀ s ∈ xs, s.loose = []) (h : base.merge xs = .ok t) :
    t.loose = [] := by
  rcases eq_or_replace_of_merge h with ⟨_, rfl⟩ | rfl
  · exact hl
  · exact loose_replace hl (merged_typed hs).plain

/-- It makes no difference whether siblings are merged among themselves first. -/
theorem merge_flatten (hl : base.loose = []) (hn : base.seating ≤ base.revision)
    (hs : ∀ s ∈ xs ++ ys ++ zs, s.loose = []) (h : base.merge ys = .ok t) :
    base.merge (xs ++ [t] ++ zs) = base.merge (xs ++ ys ++ zs) := by
  obtain ⟨hxy, hz⟩ := List.forall_mem_append.mp hs
  obtain ⟨hx, hy⟩ := List.forall_mem_append.mp hxy
  have hxt : ∀ s ∈ xs ++ [t], s.loose = [] :=
    List.forall_mem_append.mpr ⟨hx, List.forall_mem_singleton.mpr (loose_merge hl hy h)⟩
  have hmerged : base.merged (xs ++ [t] ++ zs) = base.merged (xs ++ ys ++ zs) := by
    rw [merged_append hxt hz, merged_append hxy hz, merged_concat, merged_append hx hy,
      replaced_merge hl hn hy h]
  unfold merge
  rw [hmerged]

/-- Only the merged state has to be valid for a merge to go through. -/
theorem merge_of_valid (hb : base.Valid) (hl : base.loose = []) (hs : ∀ s ∈ xs, s.loose = [])
    (hv : (base.replace (base.merged xs)).Valid) :
    ∃ t, base.merge xs = .ok t ∧ t.toTable = xs.foldl base.overwrite base.toTable := by
  have htable := toTable_replace_merged hl hs
  by_cases hm : (base.merged xs).isEmpty
  · exact ⟨base, if_pos hm, (toTable_replace_of_isEmpty hl hm).symm.trans htable⟩
  · have hplayers : ∀ players, (base.merged xs).players = some players →
        ∀ seat ∈ players.entries, seat.2.Valid := by
      intro players hp
      have heq : (base.replace (base.merged xs)).players = players := by simp [replace, hp]
      exact heq ▸ hv.players
    have hevolve := (evolve_eq_ok_iff hb hplayers).mpr ⟨(merged_typed hs).known, hv, rfl⟩
    exact ⟨_, (if_neg hm).trans hevolve, htable⟩

theorem merge_of_siblings (hb : base.Valid) (hl : base.loose = []) (hs : ∀ s ∈ xs, base.Sibling s) :
    ∃ t, base.merge xs = .ok t ∧ t.toTable = base.lastWritten base.replacers xs := by
  have hplain : ∀ s ∈ xs, s.loose = [] := fun s hm => (hs s hm).plain
  obtain ⟨t, ht, htable⟩ := merge_of_valid hb hl hplain (valid_replace_merged hb hl hs)
  exact ⟨t, ht, htable.trans (foldl_overwrite hl xs)⟩

theorem valid_of_toTable_eq (h : s.toTable = t.toTable) (ht : t.Valid) : s.Valid := by
  obtain ⟨table, _, _, _, _⟩ := s
  obtain ⟨table', _, _, _, _⟩ := t
  subst h
  exact ⟨ht.turn_nonneg, ht.seated, ht.current, ht.players⟩

/-- The number of a seating stands for the players seated. -/
def Tells (base s : GameState) : Prop := s.seating = base.seating → s.players = base.players

theorem eq_of_sameObject {α : Type} [DecidableEq α] {unique : α → Bool} {old new : α × Nat}
    (h : sameObject unique old new = true) : new.1 = old.1 := by
  simp only [sameObject, Bool.and_eq_true, decide_eq_true_eq] at h
  exact h.1

theorem overwrite_of_tells (hl : base.loose = []) (hs : s.loose = []) (ht : base.Tells s) :
    base.overwrite base.toTable s = s.toTable := by
  have hcurrent : base.sameCurrent s → s.currentPlayer = base.currentPlayer := eq_of_sameObject
  have hturn : base.sameTurn s → s.turn = base.turn := eq_of_sameObject
  obtain ⟨⟨players, current, turn, phase, loose⟩, _, seating, _, _⟩ := s
  subst hs
  simp only [overwrite, hl, Table.mk.injEq, and_true]
  refine ⟨?_, ?_, ?_, ?_⟩
  · by_cases h : seating = base.seating
    · exact (if_pos h).trans (ht h).symm
    · exact if_neg h
  · exact ite_eq_right_iff.mpr fun h => (hcurrent h).symm
  · exact ite_eq_right_iff.mpr fun h => (hturn h).symm
  · exact ite_eq_right_iff.mpr Eq.symm

/-- A single sibling can always be merged, also one that seats other players. -/
theorem merge_singleton (hb : base.Valid) (hl : base.loose = []) (hv : s.Valid) (hs : s.loose = [])
    (ht : base.Tells s) : ∃ t, base.merge [s] = .ok t ∧ t.toTable = s.toTable := by
  have hplain : ∀ u ∈ [s], u.loose = [] := List.forall_mem_singleton.mpr hs
  have hwritten := overwrite_of_tells hl hs ht
  have hvalid : (base.replace (base.merged [s])).Valid :=
    valid_of_toTable_eq ((toTable_replace_merged hl hplain).trans hwritten) hv
  obtain ⟨t, hmerge, htable⟩ := merge_of_valid hb hl hplain hvalid
  exact ⟨t, hmerge, htable.trans hwritten⟩

/-- No field is replaced by both siblings, not even by an equal object. -/
structure Apart (base s t : GameState) : Prop where
  seating : s.seating = base.seating ∨ t.seating = base.seating
  current : base.sameCurrent s ∨ base.sameCurrent t
  turn : base.sameTurn s ∨ base.sameTurn t
  phase : s.phase = base.phase ∨ t.phase = base.phase

end Cardplay.GameState

import Cardplay.Proofs.Execution.Conservation
import Cardplay.Proofs.Leaf.Work

/-!
# What a draw does

A draw goes card by card, but it can be told in one step (`Pull.run_eq`): which cards come behind the hand, which
of the discard pile and the deck is left as the deck, and what is reported. Two draws in a row are one draw of both
numbers (`Pull.run_add`). The exact effect of a draw on the table is `Leaf.execute_draws`.
-/

set_option autoImplicit false

namespace Cardplay

namespace Pull

theorem run_succ_of_deck {p : Pull} {cards : List Card} {card : Card} (h : p.deck = cards ++ [card])
    (n : Nat) : run (n + 1) p =
      run n { p with hand := p.hand ++ [card], deck := cards, drawn := p.drawn + 1 } := by
  simp [run, h]

theorem run_succ_of_discard {p : Pull} {cards : List Card} {card : Card} (hd : p.deck = [])
    (h : p.discard = cards ++ [card]) (n : Nat) : run (n + 1) p =
      run n { p with hand := p.hand ++ [card], deck := cards, discard := [], drawn := p.drawn + 1,
                     reshuffled := true } := by
  simp [run, hd, h]

theorem run_succ_of_nothing {p : Pull} (hd : p.deck = []) (h : p.discard = []) (n : Nat) :
    run (n + 1) p = { p with exhausted := true } := by
  simp [run, hd, h]

/-- A draw in one step. Only a draw of more than the deck takes the discard pile. -/
theorem run_eq (n : Nat) (p : Pull) : run n p =
    { hand := p.hand ++ p.queue.reverse.take n
      deck := if n ≤ p.deck.length ∨ p.discard = [] then p.deck.rdrop n
        else p.discard.rdrop (n - p.deck.length)
      discard := if n ≤ p.deck.length ∨ p.discard = [] then p.discard else []
      drawn := p.drawn + min n p.queue.length
      reshuffled := p.reshuffled || decide (p.deck.length < n) && !p.discard.isEmpty
      exhausted := p.exhausted || decide (p.queue.length < n) } := by
  induction n generalizing p with
  | zero => simp [run]
  | succ n ih =>
    rcases List.eq_nil_or_concat' p.deck with hd | ⟨cards, card, hd⟩
    · rcases List.eq_nil_or_concat' p.discard with hx | ⟨cards, card, hx⟩
      · rw [run_succ_of_nothing hd hx]
        simp [queue, hd, hx]
      · rw [run_succ_of_discard hd hx, ih]
        simp only [queue, hd, hx, List.append_nil, List.nil_append]
        simp
        exact ⟨by omega, rfl⟩
    · rw [run_succ_of_deck hd, ih]
      simp [queue, hd, ← Nat.add_assoc, Nat.add_right_comm]

theorem run_add (m n : Nat) (p : Pull) : run (m + n) p = run n (run m p) := by
  induction m generalizing p with
  | zero => rw [Nat.zero_add, run]
  | succ m ih =>
    rw [Nat.add_right_comm]
    rcases List.eq_nil_or_concat' p.deck with hd | ⟨cards, card, hd⟩
    · rcases List.eq_nil_or_concat' p.discard with hx | ⟨cards, card, hx⟩
      · rw [run_succ_of_nothing hd hx, run_succ_of_nothing hd hx]
        cases n with
        | zero => rfl
        | succ n => exact (run_succ_of_nothing (p := { p with exhausted := true }) hd hx n).symm
      · rw [run_succ_of_discard hd hx, run_succ_of_discard hd hx, ih]
    · rw [run_succ_of_deck hd, run_succ_of_deck hd, ih]

/-- No message comes twice. -/
theorem nodup_messages (p : Pull) (id : String) : (p.messages id).Nodup := by
  have htexts {a b : String} (h : a.toList ≠ b.toList) : a ≠ b := fun e => h (congrArg String.toList e)
  have hall : [s!"{id} shuffles discard pile into deck", s!"{id} cannot draw - no cards available",
      s!"{id} draws {p.drawn} card{Leaf.plural p.drawn}"].Nodup := by
    simp only [List.nodup_cons, List.mem_cons, List.not_mem_nil, or_false, not_or, List.nodup_nil,
      not_false_eq_true, and_true]
    refine ⟨⟨htexts ?_, htexts ?_⟩, htexts ?_⟩ <;> simp [String.toList_append, toString]
  have hnone {given : Prop} [Decidable given] (text : String) :
      List.Sublist (if given then [text] else []) [text] := by
    split <;> simp
  exact (((hnone _).append (hnone _)).append (hnone _)).nodup hall

end Pull

namespace Player

/-- The player with the cards as a pull leaves them. -/
def holding (p : Player) (pull : Pull) : Player :=
  { p with hand := pull.hand, deck := pull.deck, discard := pull.discard }

theorem replace_changes (p : Player) (n : Nat) :
    p.replace (Pull.run n (.ofPlayer p)).changes = p.holding (Pull.run n (.ofPlayer p)) := by
  have hpile := Pull.keepsPile_run n (.ofPlayer p)
  generalize Pull.run n (.ofPlayer p) = pull at hpile ⊢
  rcases hpile with ⟨hx, hr⟩ | ⟨hx, hr⟩
  · have hr' : pull.reshuffled = false := hr
    simp [replace, Pull.changes, Changes.settled, holding, hr', hx, Pull.ofPlayer]
  · simp [replace, Pull.changes, Changes.settled, holding, hr, hx]

end Player

namespace Leaf
variable {count : Nat} {p : Player} (target : TargetIn singleTargets)

theorem changed?_draw_eq_none_iff :
    (draw count target).changed? p = none ↔ min count (p.discard.length + p.deck.length) = 0 := by
  rw [changed?, Pull.run_eq]
  simp only [ite_eq_left_iff, reduceCtorEq, imp_false, not_not, Nat.zero_add, Pull.queue, Pull.ofPlayer,
    List.length_append]

theorem after_draw : (draw count target).after p = p.holding (Pull.run count (.ofPlayer p)) := by
  unfold after
  cases h : (draw count target).changed? p with
  | none =>
    have hk := (changed?_draw_eq_none_iff target).mp h
    rw [Pull.run_eq]
    rcases Nat.eq_zero_or_pos count with rfl | hpos
    · simp [Player.holding, Pull.ofPlayer]
    · have hx : p.discard = [] := List.length_eq_zero_iff.mp (by omega)
      have hd : p.deck = [] := List.length_eq_zero_iff.mp (by omega)
      cases p
      simp_all [Player.holding, Pull.ofPlayer, Pull.queue]
  | some q =>
    obtain ⟨_, hq⟩ := Option.ite_none_left_eq_some.mp h
    cases hq
    exact p.replace_changes count

/-- The zones after a draw, in terms of the number `k` of cards that there are to be drawn. -/
theorem after_draw_eq {k : Nat} (hk : k = min count (p.discard.length + p.deck.length)) :
    (draw count target).after p = { p with
      hand := p.hand ++ (p.discard ++ p.deck).reverse.take k
      deck := if count ≤ p.deck.length ∨ p.discard = [] then p.deck.rdrop k
        else p.discard.rdrop (k - p.deck.length)
      discard := if count ≤ p.deck.length ∨ p.discard = [] then p.discard else [] } := by
  have htake : (p.discard ++ p.deck).reverse.take count = (p.discard ++ p.deck).reverse.take k := by
    rw [hk, List.take_eq_take_iff, List.length_reverse, List.length_append, Nat.min_assoc, Nat.min_self]
  have hdeck : (if count ≤ p.deck.length ∨ p.discard = [] then p.deck.rdrop count
        else p.discard.rdrop (count - p.deck.length)) =
      if count ≤ p.deck.length ∨ p.discard = [] then p.deck.rdrop k
        else p.discard.rdrop (k - p.deck.length) := by
    unfold List.rdrop
    split
    · rename_i h
      congr 1
      rcases h with h | h
      · omega
      · rw [h] at hk
        simp at hk
        omega
    · congr 1
      omega
  rw [after_draw, Pull.run_eq, ← htake, ← hdeck]
  rfl

theorem report_draw {k : Nat} (hk : k = min count (p.discard.length + p.deck.length)) (id : String) :
    (draw count target).report (id, p) =
      (if p.deck.length < count ∧ p.discard ≠ [] then [s!"{id} shuffles discard pile into deck"] else [])
        ++ (if p.discard.length + p.deck.length < count then [s!"{id} cannot draw - no cards available"]
          else [])
        ++ (if k ≠ 0 then [s!"{id} draws {k} card{plural k}"] else []) := by
  rw [report, Pull.run_eq, hk]
  -- The conditions become propositions before the pull is opened, whose fields they are decided from.
  simp only [Pull.messages, Bool.or_eq_true, Bool.and_eq_true, decide_eq_true_eq]
  simp [Pull.ofPlayer, Pull.queue]

variable {c : Context} {seats : List Seat}

/-- A draw always succeeds for the player that it means. With `k` the number of cards that there are to be drawn,
the first `k` cards of the reversed queue come behind the hand. The discard pile is untouched unless the deck does
not suffice and there are discarded cards; then it is the deck, without the cards that it had to give. Nothing else
at the table changes, and the very same state is handed back if `k` is zero. -/
theorem execute_draws (hs : c.state.Valid) (hr : target.1.resolve c.playerId c.state = .ok seats)
    (count : Nat) (run : Run) : ∃ id p k t q messages, seats = [(id, p)] ∧
      c.state.player? id = some p ∧ k = min count (p.discard.length + p.deck.length) ∧
      (draw count target).execute c run = .ok (.ok t messages) (messages.foldl c.logged run) ∧
      t.player? id = some q ∧
      q = { p with
        hand := p.hand ++ (p.discard ++ p.deck).reverse.take k
        deck := if count ≤ p.deck.length ∨ p.discard = [] then p.deck.rdrop k
          else p.discard.rdrop (k - p.deck.length)
        discard := if count ≤ p.deck.length ∨ p.discard = [] then p.discard else [] } ∧
      (∀ other, other ≠ id → t.player? other = c.state.player? other) ∧
      t.playerIds = c.state.playerIds ∧ t.turn = c.state.turn ∧ t.phase = c.state.phase ∧
      t.currentPlayer = c.state.currentPlayer ∧
      messages =
        (if p.deck.length < count ∧ p.discard ≠ [] then [s!"{id} shuffles discard pile into deck"] else [])
          ++ (if p.discard.length + p.deck.length < count then [s!"{id} cannot draw - no cards available"]
            else [])
          ++ (if k ≠ 0 then [s!"{id} draws {k} card{plural k}"] else []) ∧
      messages.Nodup ∧ (t = c.state ↔ k = 0) := by
  obtain ⟨⟨id, p⟩, rfl⟩ := Target.resolve_single target.2 hr
  have hp := OrderedMap.mem_entries_iff.mp (Target.mem_of_resolve hr List.mem_cons_self)
  have ha : ∀ seat ∈ [(id, p)], (draw count target).Affordable seat.2 := fun _ _ => trivial
  obtain ⟨t, hexecute, htable, _, hsame⟩ := execute_works (l := draw count target) hs hr ha run
  have hget (other : String) : t.player? other = (c.state.player? other).map fun q =>
      if other = id then (draw count target).after q else q := by
    rw [GameState.player?, htable, Table.get?_adjust]
    simp [GameState.player?]
  refine ⟨id, p, _, t, _, _, rfl, hp, rfl, hexecute, ?_, after_draw_eq target rfl,
    ?_, ?_, ?_, ?_, ?_, ?_, ?_, ?_⟩
  · rw [hget, GameState.player?, hp]
    simp
  · intro other hother
    rw [hget]
    simp [hother]
  · rw [GameState.playerIds, htable, Table.keys_adjust]
    rfl
  · rw [htable]
    rfl
  · rw [htable]
    rfl
  · rw [htable]
    rfl
  · rw [List.flatMap_singleton, report_draw target rfl]
  · rw [List.flatMap_singleton]
    exact Pull.nodup_messages _ id
  · rw [hsame, List.forall_mem_singleton, changed?_draw_eq_none_iff]

theorem execute_draws_owl : Duel.table.Valid ∧
    Target.self.resolve "ann" Duel.table = .ok [("ann", Duel.ann)] ∧ ∃ q messages run',
    q.hand = [Duel.card "fox", Duel.card "owl", Duel.card "bee"] ∧ q.deck = [Duel.card "elk"] ∧ q.discard = [] ∧
    messages = ["ann shuffles discard pile into deck", "ann draws 2 cards"] ∧
    ∃ t, (draw 2 Duel.toSelf).execute (Duel.context "ann") default = .ok (.ok t messages) run' ∧
      t.player? "ann" = some q ∧ t.player? "bob" = some Duel.bob ∧ t ≠ Duel.table := by
  have hresolve : Target.self.resolve "ann" Duel.table = .ok [("ann", Duel.ann)] := by rfl
  obtain ⟨id, p, k, t, q, messages, hseats, _, rfl, hexecute, hq, hdrawn, hothers, _, _, _, _,
    hmessages, _, hsame⟩ :=
    execute_draws (c := Duel.context "ann") Duel.toSelf Duel.table_valid hresolve 2 default
  cases hseats
  refine ⟨Duel.table_valid, hresolve, q, messages, _, ?_, ?_, ?_, ?_, t, hexecute, hq, ?_, ?_⟩
  · rw [hdrawn]
    decide +kernel
  · rw [hdrawn]
    decide +kernel
  · rw [hdrawn]
    decide +kernel
  · rw [hmessages]
    decide +kernel
  · exact hothers "bob" (by decide)
  · exact mt hsame.mp (by decide)

end Leaf

end Cardplay

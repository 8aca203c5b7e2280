import Cardplay.Effect.LeafRun
import Mathlib.Data.List.DropRight

/-!
# The queue of cards

Discard pile and deck together form one queue, whose last card is drawn next: taking the discard pile for
an empty deck moves no card of it. A draw takes cards off the end of the queue, one after the other, and
puts them behind the hand (`Pull.run_hand`, `Pull.run_queue`).
-/

set_option autoImplicit false

namespace Cardplay

namespace Pull

/-- The cards to be drawn, the next one last. -/
def queue (p : Pull) : List Card := p.discard ++ p.deck

/-- What a pull makes of the discard pile: it stays, or all of it was taken. -/
def KeepsPile (p next : Pull) : Prop :=
  (next.discard = p.discard ∧ next.reshuffled = p.reshuffled) ∨
    (next.discard = [] ∧ next.reshuffled = true)

theorem run_succ (p : Pull) :
    (p.queue = [] ∧ ∀ n, run (n + 1) p = { p with exhausted := true }) ∨
      ∃ card next, p.queue = next.queue ++ [card] ∧ next.hand = p.hand ++ [card] ∧
        p.KeepsPile next ∧ ∀ n, run (n + 1) p = run n next := by
  cases hd : p.deck.getLast? with
  | some card =>
    right
    have hdeck : p.deck = p.deck.dropLast ++ [card] := by
      rw [List.dropLast_append_getLast? card hd]
    refine ⟨card, { p with hand := p.hand ++ [card], deck := p.deck.dropLast, drawn := p.drawn + 1 },
      ?_, rfl, Or.inl ⟨rfl, rfl⟩, ?_⟩
    · simp only [queue, List.append_assoc]
      rw [← hdeck]
    · intro n
      simp [run, hd]
  | none =>
    have hempty : p.deck = [] := List.getLast?_eq_none_iff.mp hd
    cases hx : p.discard.getLast? with
    | some card =>
      right
      refine ⟨card, { p with hand := p.hand ++ [card], deck := p.discard.dropLast, discard := [],
                             drawn := p.drawn + 1, reshuffled := true },
        ?_, rfl, Or.inr ⟨rfl, rfl⟩, ?_⟩
      · simp only [queue, hempty, List.append_nil, List.nil_append]
        rw [List.dropLast_append_getLast? card hx]
      · intro n
        simp [run, hd, hx]
    | none =>
      left
      refine ⟨?_, ?_⟩
      · simp [queue, hempty, List.getLast?_eq_none_iff.mp hx]
      · intro n
        simp [run, hd, hx]

theorem run_hand (n : Nat) (p : Pull) : (run n p).hand = p.hand ++ (p.queue.rtake n).reverse := by
  induction n generalizing p with
  | zero => simp [run]
  | succ n ih =>
    rcases run_succ p with ⟨hq, hrun⟩ | ⟨card, next, hq, hh, _, hrun⟩
    · simp [hrun n, hq]
    · rw [hrun n, ih next, hh, hq, List.rtake_concat_succ]
      simp

theorem run_queue (n : Nat) (p : Pull) : (run n p).queue = p.queue.rdrop n := by
  induction n generalizing p with
  | zero => simp [run]
  | succ n ih =>
    rcases run_succ p with ⟨hq, hrun⟩ | ⟨card, next, hq, _, _, hrun⟩
    · rw [hrun n, hq, List.rdrop_nil]
      exact hq
    · rw [hrun n, ih next, hq, List.rdrop_concat_succ]

theorem keepsPile_run (n : Nat) (p : Pull) : p.KeepsPile (run n p) := by
  induction n generalizing p with
  | zero => exact Or.inl ⟨rfl, rfl⟩
  | succ n ih =>
    rcases run_succ p with ⟨_, hrun⟩ | ⟨card, next, _, _, hkeep, hrun⟩
    · rw [hrun n]
      exact Or.inl ⟨rfl, rfl⟩
    · rw [hrun n]
      rcases ih next with ⟨hx, hr⟩ | htaken
      · unfold KeepsPile
        rw [hx, hr]
        exact hkeep
      · exact Or.inr htaken

end Pull

namespace Player

/-- The cards that the player may still draw, the next one last. -/
def queue (p : Player) : List Card := p.discard ++ p.deck

/-- From the first player to the second, some cards went one by one off the end of the queue and behind
the hand. -/
def DrawsTo (p q : Player) : Prop :=
  ∃ k ≤ p.queue.length, q.hand = p.hand ++ (p.queue.rtake k).reverse ∧
    q.queue = p.queue.rdrop k ∧ (q.discard = p.discard ∨ q.discard = [])

namespace DrawsTo
variable {p q r : Player}

theorem of_zones_eq (hh : q.hand = p.hand) (hd : q.deck = p.deck) (hx : q.discard = p.discard) :
    p.DrawsTo q :=
  ⟨0, Nat.zero_le _, by simp [hh], by simp [queue, hd, hx], Or.inl hx⟩

theorem trans (h : p.DrawsTo q) (h' : q.DrawsTo r) : p.DrawsTo r := by
  obtain ⟨k, hk, hhand, hqueue, hpile⟩ := h
  obtain ⟨j, hj, hhand', hqueue', hpile'⟩ := h'
  have hlength : q.queue.length = p.queue.length - k := by
    rw [hqueue]
    simp [List.rdrop]
  refine ⟨k + j, by omega, ?_, ?_, ?_⟩
  · rw [hhand', hhand, hqueue]
    simp only [List.rtake_eq_reverse_take_reverse, List.rdrop_eq_reverse_drop_reverse,
      List.reverse_reverse, List.append_assoc, List.take_add]
  · rw [hqueue', hqueue]
    simp only [List.rdrop_eq_reverse_drop_reverse, List.reverse_reverse, List.drop_drop]
  · rcases hpile' with hx | hx
    · rw [hx]
      exact hpile
    · exact Or.inr hx

theorem cards_perm (h : p.DrawsTo q) : q.cards.Perm p.cards := by
  obtain ⟨k, _, hhand, hqueue, _⟩ := h
  have hsplit : p.queue.rdrop k ++ p.queue.rtake k = p.queue := List.take_append_drop _ _
  have hcards (x : Player) : x.cards.Perm (x.hand ++ x.queue) := by
    simp only [cards, queue, List.append_assoc]
    exact List.perm_append_comm.append_left x.hand
  calc List.Perm q.cards (q.hand ++ q.queue) := hcards q
    _ = p.hand ++ ((p.queue.rtake k).reverse ++ p.queue.rdrop k) := by
      rw [hhand, hqueue, List.append_assoc]
    List.Perm _ (p.hand ++ (p.queue.rtake k ++ p.queue.rdrop k)) :=
      ((List.reverse_perm _).append_right _).append_left _
    List.Perm _ (p.hand ++ (p.queue.rdrop k ++ p.queue.rtake k)) :=
      List.perm_append_comm.append_left _
    _ = p.hand ++ p.queue := by rw [hsplit]
    List.Perm _ p.cards := (hcards p).symm

theorem pull (p : Player) (n : Nat) : p.DrawsTo (p.replace (Pull.run n (.ofPlayer p)).changes) := by
  have hhand := Pull.run_hand n (.ofPlayer p)
  have hqueue := Pull.run_queue n (.ofPlayer p)
  have hpile := Pull.keepsPile_run n (.ofPlayer p)
  generalize Pull.run n (.ofPlayer p) = pulled at hhand hqueue hpile ⊢
  have hdiscard : (p.replace pulled.changes).discard = pulled.discard := by
    rcases hpile with ⟨hx, hr⟩ | ⟨hx, hr⟩
    · have hr' : pulled.reshuffled = false := hr
      simp [replace, Pull.changes, hr', hx, Pull.ofPlayer]
    · simp [replace, Pull.changes, hr, hx]
  have hall : (p.replace pulled.changes).queue = pulled.queue := by
    simp only [queue, Pull.queue, hdiscard]
    rfl
  refine ⟨min n p.queue.length, by omega, ?_, ?_, ?_⟩
  · have htake : p.queue.rtake (min n p.queue.length) = p.queue.rtake n := by
      simp only [List.rtake]
      congr 1
      omega
    rw [htake]
    exact hhand
  · have hdrop : p.queue.rdrop (min n p.queue.length) = p.queue.rdrop n := by
      simp only [List.rdrop]
      congr 1
      omega
    rw [hall, hdrop]
    exact hqueue
  · rw [hdiscard]
    rcases hpile with ⟨hx, _⟩ | ⟨hx, _⟩
    · exact Or.inl hx
    · exact Or.inr hx

end DrawsTo

end Player

end Cardplay

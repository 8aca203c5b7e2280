import Cardplay.Proofs.State.SeatWise

/-!
# What library effects keep

Library effects never raise at a valid table, they leave a valid table (`Effect.execute_valid`), and of
everything at it they move only health, resources and the cards that go from the end of a player's own
queue behind that player's hand (`Effect.execute_conserves`).
-/

set_option autoImplicit false

namespace Cardplay

/-- What library effects may make of a player. -/
structure Player.Progress (p q : Player) : Prop where
  id_eq : q.id = p.id
  maxHealth_eq : q.maxHealth = p.maxHealth
  valid : p.Valid → q.Valid
  loose : p.loose = [] → q.loose = []
  draws : p.DrawsTo q

theorem Player.Progress.seatLaw : SeatLaw Player.Progress where
  refl _ := ⟨rfl, rfl, fun h => h, fun h => h, Player.DrawsTo.of_zones_eq rfl rfl rfl⟩
  trans h h' := ⟨h'.id_eq.trans h.id_eq, h'.maxHealth_eq.trans h.maxHealth_eq,
    fun hp => h'.valid (h.valid hp), fun hl => h'.loose (h.loose hl), h.draws.trans h'.draws⟩
  id_eq h := h.id_eq
  valid h := h.valid

theorem Leaf.Touch.progress {l : Leaf} {p q : Player} (h : l.Touch p q) : p.Progress q :=
  ⟨h.id_eq, h.maxHealth_eq, fun hp => h.valid hp, fun hl => h.loose_eq_nil hl, h.drawsTo⟩

/-- No field shows a value that is not of its type. -/
def GameState.Plain (s : GameState) : Prop :=
  s.loose = [] ∧ ∀ id p, s.player? id = some p → p.loose = []

namespace GameState
variable {s t : GameState}

theorem SeatWise.plain (h : s.SeatWise Player.Progress t) (hs : s.Plain) : t.Plain := by
  refine ⟨h.loose hs.1, ?_⟩
  intro id q hq
  obtain ⟨p, hp, hpq⟩ := h.seats.exists_before hq
  exact hpq.loose (hs.2 id p hp)

end GameState

namespace Effect
variable {e : Effect} {c : Context}

theorem Library.serves (h : e.Library) :
    Serves GameState.Valid (GameState.SeatWise Player.Progress) e.execute :=
  BuiltFrom.serves_seatWise Player.Progress.seatLaw (fun _ _ _ _ _ ht => ht.progress) h

/-- A library effect hands back the given state or one of a later revision. -/
theorem Library.same_or_later (h : e.Library) (hc : c.state.Valid) {run run' : Run} {r : Result}
    (hr : e.execute c run = .ok r run') :
    r.state = c.state ∨ c.state.revision < r.state.revision := by
  obtain ⟨q, mid, hq, hstep⟩ := h.serves c run hc
  rw [hr] at hq
  cases hq
  exact hstep.same_or_later

end Effect

namespace Duel

def card (id : String) : Card := { id, name := id, cost := 0, tags := [] }

def ann : Player where
  id := "ann"
  health := 3
  maxHealth := 5
  hand := [card "fox"]
  deck := [card "owl"]
  discard := [card "elk", card "bee"]
  resources := .ofList [("mana", 1)]

def bob : Player where
  id := "bob"
  health := 1
  maxHealth := 4
  hand := []
  deck := [card "bat"]
  discard := []
  resources := .empty

def table : GameState where
  players := ⟨[("ann", ann), ("bob", bob)], by decide⟩
  currentPlayer := "ann"
  turn := 1
  phase := .main

def context (playerId : String) : Context := { playerId, state := table }

def toSelf : TargetIn singleTargets := ⟨.self, by decide⟩

theorem table_valid : table.Valid := by
  have hann : ann.Valid := Player.problem?_eq_none_iff.mp (by decide +kernel)
  have hbob : bob.Valid := Player.problem?_eq_none_iff.mp (by decide +kernel)
  refine (GameState.problem?_eq_none_iff_valid ?_).mp (by decide +kernel)
  simpa [table] using ⟨hann, hbob⟩

/-- One member draws through the discard pile, the other goes on as the repetition before it left things. -/
def volley : Effect := .parallel
  [.sequential [.leaf (.draw 2 toSelf), .leaf (.damage 2 ⟨.all, by decide⟩)],
    .chained (.repeated (.leaf (.heal 1 ⟨.ally, by decide⟩)) 2) fun r g => .ok
      (.conditional (.contextual (.composite [.leaf (.draw r.messages.length toSelf)])
        "healed" (.int 2)) fun c g => { answer := .ok (decide (0 < c.state.turn)) g }) g]

theorem volley_library : volley.Library := by
  refine .parallel (List.forall_mem_cons.mpr ⟨.sequential ?_, List.forall_mem_singleton.mpr ?_⟩)
  · exact List.forall_mem_cons.mpr ⟨.leaf trivial, List.forall_mem_singleton.mpr (.leaf trivial)⟩
  · refine .chained (.repeated (.leaf trivial) (by decide)) (fun r g => ⟨_, _, rfl⟩) ?_
    rintro r g e g' ⟨⟩
    refine .conditional (.contextual (.composite ?_)) fun c g => ⟨_, _, rfl⟩
    exact List.forall_mem_singleton.mpr (.leaf trivial)

end Duel

namespace Effect
variable {e : Effect} {c : Context}

/-- At a valid table a library effect always answers, and it leaves a valid table. -/
theorem execute_valid (he : e.Library) (hc : c.state.Valid) (run : Run) :
    ∃ r run', e.execute c run = .ok r run' ∧ r.state.Valid ∧ (c.state.Plain → r.state.Plain) := by
  obtain ⟨r, run', hr, hstep⟩ := he.serves c run hc
  exact ⟨r, run', hr, hstep.valid Player.Progress.seatLaw hc, hstep.plain⟩

/-- Turn, phase, current player and seating stay. In every seat identifier and highest health stay, and
some number of cards went off the end of discard pile and deck behind the hand, the last one first. -/
theorem execute_conserves (he : e.Library) (hc : c.state.Valid) (run : Run) :
    ∃ r run', e.execute c run = .ok r run' ∧ r.state.turn = c.state.turn ∧
      r.state.phase = c.state.phase ∧ r.state.currentPlayer = c.state.currentPlayer ∧
      r.state.playerIds = c.state.playerIds ∧
      ∀ id p, c.state.player? id = some p → ∃ q, r.state.player? id = some q ∧
        q.id = p.id ∧ q.maxHealth = p.maxHealth ∧ q.cards.Perm p.cards ∧
        ∃ k ≤ (p.discard ++ p.deck).length,
          q.hand = p.hand ++ ((p.discard ++ p.deck).rtake k).reverse ∧
          q.discard ++ q.deck = (p.discard ++ p.deck).rdrop k ∧
          (q.discard = p.discard ∨ q.discard = []) := by
  obtain ⟨r, run', hr, hstep⟩ := he.serves c run hc
  refine ⟨r, run', hr, hstep.turn_eq, hstep.phase_eq, hstep.current_eq, hstep.seats.keys_eq, ?_⟩
  intro id p hp
  obtain ⟨q, hq, hpq⟩ := hstep.seats.related id p hp
  exact ⟨q, hq, hpq.id_eq, hpq.maxHealth_eq, hpq.draws.cards_perm, hpq.draws⟩

theorem execute_conserves_volley : Duel.volley.Library ∧ (Duel.context "ann").state.Valid ∧
    ∃ r run', Duel.volley.execute (Duel.context "ann") default = .ok r run' ∧
      r.state.playerIds = ["ann", "bob"] ∧ ∃ q, r.state.player? "ann" = some q ∧ q.maxHealth = 5 ∧
        ∃ k ≤ 3, q.hand = [Duel.card "fox"] ++
            ([Duel.card "elk", Duel.card "bee", Duel.card "owl"].rtake k).reverse ∧
          q.discard ++ q.deck = [Duel.card "elk", Duel.card "bee", Duel.card "owl"].rdrop k := by
  refine ⟨Duel.volley_library, Duel.table_valid, ?_⟩
  obtain ⟨r, run', hr, _, _, _, hids, hseats⟩ :=
    execute_conserves Duel.volley_library (c := Duel.context "ann") Duel.table_valid default
  obtain ⟨q, hq, _, hmax, _, k, hk, hhand, hqueue, _⟩ := hseats "ann" Duel.ann (by decide +kernel)
  exact ⟨r, run', hr, hids, q, hq, hmax, k, hk, hhand, hqueue⟩

end Effect

end Cardplay

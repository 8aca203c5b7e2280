import Cardplay.Proofs.Execution.StopRule
import Cardplay.Proofs.Leaf.Footprint

/-!
# Independent leaves

Leaves whose footprints have nothing in common do not notice each other. What one of them makes of its seats is,
on the aspect that the other works on, what was there before, so that the other has the same seats, is afforded
there and says the same as if it came first (`Leaf.execute_after`). They can change places in a composite
(`Effect.execute_independent`).
-/

set_option autoImplicit false

namespace Cardplay

namespace Table
variable {t : Table} {ids ids' : List String} {f g : Player → Player}

/-- The two tables show the same players in the same seats, and the same else. -/
structure Alike (t u : Table) : Prop where
  seating : t.players.keys = u.players.keys
  players : ∀ id p q, t.players.get? id = some p → u.players.get? id = some q → p.Alike q
  currentPlayer : t.currentPlayer = u.currentPlayer
  turn : t.turn = u.turn
  phase : t.phase = u.phase
  loose : t.loose = u.loose

/-- Adjustments can be made in both orders if this makes no difference where they meet. -/
theorem adjust_comm (h : ∀ id ∈ ids, id ∈ ids' → ∀ p, (g (f p)).Alike (f (g p))) :
    ((t.adjust ids f).adjust ids' g).Alike ((t.adjust ids' g).adjust ids f) where
  seating := by simp only [keys_adjust]
  players := by
    intro id p q hp hq
    simp only [get?_adjust, Option.map_eq_some_iff, exists_exists_and_eq_and] at hp hq
    obtain ⟨old, hold, rfl⟩ := hp
    obtain ⟨_, hsame, rfl⟩ := hq
    cases hold.symm.trans hsame
    by_cases hid : id ∈ ids <;> by_cases hid' : id ∈ ids'
    · simpa [hid, hid'] using h id hid hid' old
    · simpa [hid, hid'] using Player.Alike.refl (f old)
    · simpa [hid, hid'] using Player.Alike.refl (g old)
    · simpa [hid, hid'] using Player.Alike.refl old
  currentPlayer := rfl
  turn := rfl
  phase := rfl
  loose := rfl

end Table

namespace Leaf
variable {a b l : Leaf} {c : Context} {s : GameState} {id : String} {seats others : List Seat} {run run' : Run}
variable {r : Result}

theorem footprint_eq (hr : l.target.resolve id s = .ok seats) :
    l.footprint id s = seats.map fun seat => (seat.1, l.aspect) := by
  rw [footprint, hr]

theorem mem_footprint_iff {key : String} {x : Aspect} (hr : l.target.resolve id s = .ok seats) :
    (key, x) ∈ l.footprint id s ↔ key ∈ seats.map Prod.fst ∧ l.aspect = x := by
  rw [footprint_eq hr]
  simp

/-- Where footprints are disjoint, leaves that share a seat work on different aspects of its player. -/
theorem aspect_ne_of_disjoint (ha : a.target.resolve id s = .ok others)
    (hb : b.target.resolve id s = .ok seats) (h : (a.footprint id s).Disjoint (b.footprint id s))
    {key : String} (hkey : key ∈ others.map Prod.fst) (hkey' : key ∈ seats.map Prod.fst) :
    a.aspect ≠ b.aspect := by
  intro heq
  exact h ((mem_footprint_iff ha).mpr ⟨hkey, rfl⟩) ((mem_footprint_iff hb).mpr ⟨hkey', heq.symm⟩)

theorem affordable_of_succeeded (h : l.execute c run = .ok r run') (hr : r.success = true) :
    ∃ seats, l.target.resolve c.playerId c.state = .ok seats ∧ ∀ seat ∈ seats, l.Affordable seat.2 := by
  cases hresolve : l.target.resolve c.playerId c.state with
  | error e =>
    rw [execute_unresolved hresolve] at h
    cases h
    cases hr
  | ok seats =>
    refine ⟨seats, rfl, fun seat hm => ?_⟩
    by_contra hn
    obtain ⟨message, hrefused⟩ := execute_refuses hresolve hm hn run
    rw [hrefused] at h
    cases h
    cases hr

theorem execute_succeeded (hs : c.state.Valid) (h : l.execute c run = .ok r run')
    (hr : r.success = true) : ∃ seats, l.target.resolve c.playerId c.state = .ok seats ∧
      (∀ seat ∈ seats, l.Affordable seat.2) ∧ r.messages = seats.flatMap l.report := by
  obtain ⟨seats, hresolve, ha⟩ := affordable_of_succeeded h hr
  obtain ⟨t, hworks, _⟩ := execute_works hs hresolve ha run
  rw [hworks] at h
  cases h
  exact ⟨seats, hresolve, ha, rfl⟩

/-- After another leaf that works on other things, a leaf does what it would have done before. -/
theorem execute_after {t : GameState} (ht : t.Valid)
    (htable : t.toTable = c.state.toTable.adjust (others.map Prod.fst) a.after)
    (hb : b.target.resolve c.playerId c.state = .ok seats) (haffords : ∀ seat ∈ seats, b.Affordable seat.2)
    (hne : ∀ key ∈ others.map Prod.fst, key ∈ seats.map Prod.fst → b.aspect ≠ a.aspect) (run : Run) :
    ∃ u run', b.execute (c.withState t) run = .ok (.ok u (seats.flatMap b.report)) run' ∧
      u.toTable = t.toTable.adjust (seats.map Prod.fst) b.after := by
  have hsame : ∀ seat ∈ seats,
      (Seat.adjust (others.map Prod.fst) a.after seat).2.AgreesOn seat.2 b.aspect := by
    intro seat hm
    unfold Seat.adjust
    by_cases hkey : seat.1 ∈ others.map Prod.fst
    · rw [if_pos hkey]
      exact after_agreesOn (hne _ hkey (List.mem_map_of_mem hm)) seat.2
    · rw [if_neg hkey]
      exact .refl _ _
  have hresolve := Target.resolve_adjusted htable b.target c.playerId
  rw [hb, Except.map] at hresolve
  have haffords' : ∀ seat ∈ seats.map (Seat.adjust (others.map Prod.fst) a.after), b.Affordable seat.2 := by
    intro seat hm
    obtain ⟨before, hbefore, rfl⟩ := List.mem_map.mp hm
    exact (affordable_congr (hsame before hbefore)).mpr (haffords before hbefore)
  have hreport : (seats.map (Seat.adjust (others.map Prod.fst) a.after)).flatMap b.report =
      seats.flatMap b.report := by
    rw [List.flatMap_map]
    exact List.flatMap_congr fun seat hm => report_congr (hsame seat hm) seat.1
  have hids : (seats.map (Seat.adjust (others.map Prod.fst) a.after)).map Prod.fst = seats.map Prod.fst := by
    rw [List.map_map]
    rfl
  obtain ⟨u, hexecute, hu, _⟩ := execute_works (c := c.withState t) ht hresolve haffords' run
  rw [hreport] at hexecute
  rw [hids] at hu
  exact ⟨u, _, hexecute, hu⟩

end Leaf

namespace Duel

theorem all_mem_damageTargets : Target.all ∈ damageTargets := by decide

def storm : Leaf := .damage 2 ⟨.all, all_mem_damageTargets⟩

def refill : Leaf := .draw 3 toSelf

end Duel

namespace Effect
variable {a b : Leaf} {c : Context} {seats others : List Seat}

/-- A composite of two leaves of which the second works on other things than the first. -/
theorem execute_pair (hs : c.state.Valid) (ha : a.target.resolve c.playerId c.state = .ok others)
    (haffords : ∀ seat ∈ others, a.Affordable seat.2) (hb : b.target.resolve c.playerId c.state = .ok seats)
    (haffords' : ∀ seat ∈ seats, b.Affordable seat.2)
    (hne : ∀ key ∈ others.map Prod.fst, key ∈ seats.map Prod.fst → b.aspect ≠ a.aspect) (run : Run) :
    ∃ t run', (composite [.leaf a, .leaf b]).execute c run =
        .ok (.ok t (others.flatMap a.report ++ seats.flatMap b.report)) run' ∧
      t.toTable = (c.state.toTable.adjust (others.map Prod.fst) a.after).adjust
        (seats.map Prod.fst) b.after := by
  obtain ⟨t, hfirst, htable, ht, _⟩ := Leaf.execute_works hs ha haffords run
  obtain ⟨u, run', hsecond, hu⟩ := Leaf.execute_after ht htable hb haffords' hne _
  have hrelay := Relay.cons (e := leaf a) hfirst rfl
    (.cons (e := leaf b) hsecond rfl (.nil u run'))
  have hexecute := hrelay.pipeline_succeeds
  rw [← htable]
  refine ⟨u, run', ?_, hu⟩
  rw [execute_composite]
  simpa [Result.ok] using hexecute

/-- Leaves with disjoint footprints that both succeed at a table succeed there in both orders. Each of them says
what it says alone, and the same table is left but for the order of resources. -/
theorem execute_independent (hs : c.state.Valid)
    (hdisjoint : (a.footprint c.playerId c.state).Disjoint (b.footprint c.playerId c.state))
    {run₁ run₂ run₁' run₂' : Run} {ra rb : Result} (ha : (leaf a).execute c run₁ = .ok ra run₁')
    (hra : ra.success = true) (hb : (leaf b).execute c run₂ = .ok rb run₂') (hrb : rb.success = true)
    (run : Run) : ∃ r r' run₃ run₄,
      (composite [.leaf a, .leaf b]).execute c run = .ok r run₃ ∧
      (composite [.leaf b, .leaf a]).execute c run = .ok r' run₄ ∧
      r.success = true ∧ r'.success = true ∧
      r.messages = ra.messages ++ rb.messages ∧ r'.messages = rb.messages ++ ra.messages ∧
      r.state.toTable.Alike r'.state.toTable := by
  obtain ⟨others, hresolve, haffords, hmessages⟩ := Leaf.execute_succeeded hs ha hra
  obtain ⟨seats, hresolve', haffords', hmessages'⟩ := Leaf.execute_succeeded hs hb hrb
  have hne : ∀ key ∈ others.map Prod.fst, key ∈ seats.map Prod.fst → a.aspect ≠ b.aspect :=
    fun key => Leaf.aspect_ne_of_disjoint hresolve hresolve' hdisjoint
  obtain ⟨t, run₃, hab, ht⟩ := execute_pair hs hresolve haffords hresolve' haffords'
    (fun key hm hm' => (hne key hm hm').symm) run
  obtain ⟨u, run₄, hba, hu⟩ := execute_pair hs hresolve' haffords' hresolve haffords
    (fun key hm hm' => hne key hm' hm) run
  refine ⟨_, _, run₃, run₄, hab, hba, rfl, rfl, ?_, ?_, ?_⟩
  · rw [hmessages, hmessages']
    rfl
  · rw [hmessages, hmessages']
    rfl
  · change t.toTable.Alike u.toTable
    rw [ht, hu]
    exact Table.adjust_comm fun key hm hm' => Leaf.after_comm (hne key hm hm')

/-- The storm hits all seats, the draw is of one of them, and both meet at the drawing player. -/
theorem execute_independent_storm : Duel.table.Valid ∧
    (Duel.storm.footprint "ann" Duel.table).Disjoint (Duel.refill.footprint "ann" Duel.table) ∧
    ∃ r r' run₃ run₄,
      (composite [.leaf Duel.storm, .leaf Duel.refill]).execute (Duel.context "ann") default = .ok r run₃ ∧
      (composite [.leaf Duel.refill, .leaf Duel.storm]).execute (Duel.context "ann") default = .ok r' run₄ ∧
      r.success = true ∧ r'.success = true ∧
      r.messages = ["ann takes 2 damage", "bob takes 1 damage", "ann shuffles discard pile into deck",
        "ann draws 3 cards"] ∧
      r'.messages = ["ann shuffles discard pile into deck", "ann draws 3 cards", "ann takes 2 damage",
        "bob takes 1 damage"] ∧
      r.state.toTable.Alike r'.state.toTable := by
  have hdisjoint : (Duel.storm.footprint "ann" Duel.table).Disjoint
      (Duel.refill.footprint "ann" Duel.table) := List.disjoint_left.mpr (by decide)
  obtain ⟨t, hstorm, _⟩ := Leaf.execute_works (l := Duel.storm) (c := Duel.context "ann")
    Duel.table_valid rfl (fun _ _ => trivial) default
  obtain ⟨u, hrefill, _⟩ := Leaf.execute_works (l := Duel.refill) (c := Duel.context "ann")
    Duel.table_valid rfl (fun _ _ => trivial) default
  obtain ⟨r, r', run₃, run₄, hr, hr', hworks, hworks', hmessages, hmessages', halike⟩ :=
    execute_independent (c := Duel.context "ann") Duel.table_valid hdisjoint hstorm rfl hrefill rfl default
  refine ⟨Duel.table_valid, hdisjoint, r, r', run₃, run₄, hr, hr', hworks, hworks', ?_, ?_, halike⟩
  · rw [hmessages]
    change Duel.table.players.entries.flatMap Duel.storm.report ++
      [("ann", Duel.ann)].flatMap Duel.refill.report = _
    decide +kernel
  · rw [hmessages']
    change [("ann", Duel.ann)].flatMap Duel.refill.report ++
      Duel.table.players.entries.flatMap Duel.storm.report = _
    decide +kernel

end Effect

end Cardplay

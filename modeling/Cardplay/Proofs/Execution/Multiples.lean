import Cardplay.Proofs.Execution.Repetition
import Cardplay.Proofs.Leaf.Multiples

/-!
# Repeated leaves

A leaf that is repeated acts on the same seats every time, since what it does to their players seats nobody else.
As long as they can afford it the repetition goes on (`Effect.exists_relay_works`), and it stops at the first time
that one cannot (`Effect.repeated_refused`). So a repeated leaf is one leaf of the multiplied amount, but for a
spending that is too large: the repetition has spent what it could when it fails (`Effect.execute_multiples`).
-/

set_option autoImplicit false

namespace Cardplay

namespace Effect
variable {l : Leaf} {c : Context} {s : GameState} {seats : List Seat} {n : Nat}

/-- A leaf that its players can afford every time is done every time. -/
theorem exists_relay_works (hs : s.Valid) (hr : l.target.resolve c.playerId s = .ok seats)
    (ha : ∀ i < n, ∀ seat ∈ seats, l.Affordable (l.after^[i] seat.2)) (run : Run) : ∃ ks rs t run',
      Relay c s run ks rs t run' ∧ ks.map Call.effect = List.replicate n (.leaf l) ∧
      t.toTable = s.toTable.adjust (seats.map Prod.fst) l.after^[n] ∧ t.Valid := by
  induction n generalizing s seats run with
  | zero => exact ⟨[], [], s, run, .nil s run, rfl, (Table.adjust_id _ _).symm, hs⟩
  | succ n ih =>
    obtain ⟨u, hexecute, hu, huvalid, _⟩ :=
      Leaf.execute_works (c := c.withState s) hs hr (ha 0 (Nat.succ_pos n)) run
    have hids : (seats.map fun seat => (seat.1, l.after seat.2)).map Prod.fst = seats.map Prod.fst := by
      simp
    have hnext : ∀ i < n, ∀ seat ∈ seats.map fun seat => (seat.1, l.after seat.2),
        l.Affordable (l.after^[i] seat.2) := by
      intro i hi seat hm
      obtain ⟨before, hbefore, rfl⟩ := List.mem_map.mp hm
      exact ha (i + 1) (Nat.succ_lt_succ hi) before hbefore
    obtain ⟨ks, rs, t, run', hrelay, hks, ht, htvalid⟩ := ih huvalid (Target.resolve_worked hu hr) hnext _
    refine ⟨_, _, t, run', .cons (e := leaf l) hexecute rfl hrelay, ?_, ?_, htvalid⟩
    · rw [List.map_cons, hks, List.replicate_succ]
    · rw [ht, hids, hu, Table.adjust_adjust]
      rfl

/-- A leaf that cannot be afforded any more ends its repetition. The table keeps what was done before. -/
theorem repeated_refused {times : Int} (htimes : times ≤ Behaviour.maxTimes) (hn : n < times.toNat)
    (hs : c.state.Valid) (hr : l.target.resolve c.playerId c.state = .ok seats)
    (ha : ∀ i < n, ∀ seat ∈ seats, l.Affordable (l.after^[i] seat.2)) {seat : Seat} (hm : seat ∈ seats)
    (hnot : ¬ l.Affordable (l.after^[n] seat.2)) (run : Run) : ∃ r run',
      (repeated (.leaf l) times).execute c run = .ok r run' ∧ r.success = false ∧
      r.state.toTable = c.state.toTable.adjust (seats.map Prod.fst) l.after^[n] := by
  obtain ⟨ks, rs, t, mid, hrelay, hks, ht, _⟩ := exists_relay_works hs hr ha run
  have hthere : (seat.1, l.after^[n] seat.2) ∈ seats.map fun seat => (seat.1, l.after^[n] seat.2) :=
    List.mem_map_of_mem hm
  obtain ⟨message, hrefuses⟩ := Leaf.execute_refuses (c := c.withState t) (Target.resolve_worked ht hr)
    hthere hnot mid
  have he : RunsInTurn (List.replicate n (leaf l) ++ [leaf l] ++ List.replicate (times.toNat - n - 1) (leaf l))
      (repeated (leaf l) times) := .repetition htimes hn
  rw [← hks] at he
  exact ⟨_, _, (he.stops hrelay hrefuses rfl).1, rfl, ht⟩

theorem repeated_unresolved {times : Int} (htimes : times ≤ Behaviour.maxTimes) (hn : 0 < times.toNat)
    {e : Unresolved} (hr : l.target.resolve c.playerId c.state = .error e) (run : Run) : ∃ r run',
      (repeated (.leaf l) times).execute c run = .ok r run' ∧ r.success = false ∧ r.state = c.state := by
  have he : RunsInTurn ([].map Call.effect ++ [leaf l] ++ List.replicate (times.toNat - 1) (leaf l))
      (repeated (leaf l) times) := .repetition htimes hn
  exact ⟨_, _, (he.stops (.nil c.state run) (Leaf.execute_unresolved hr) rfl).1, rfl, rfl⟩

theorem repeated_works {times : Int} (htimes : times ≤ Behaviour.maxTimes) (hs : c.state.Valid)
    (hr : l.target.resolve c.playerId c.state = .ok seats)
    (ha : ∀ i < times.toNat, ∀ seat ∈ seats, l.Affordable (l.after^[i] seat.2)) (run : Run) : ∃ r run',
      (repeated (.leaf l) times).execute c run = .ok r run' ∧ r.success = true ∧
      r.state.toTable = c.state.toTable.adjust (seats.map Prod.fst) l.after^[times.toNat] := by
  obtain ⟨ks, rs, t, run', hrelay, hks, ht, _⟩ := exists_relay_works hs hr ha run
  have he : RunsInTurn (List.replicate times.toNat (leaf l)) (repeated (leaf l) times) := .repeated htimes rfl
  rw [← hks] at he
  have hexecute := hrelay.pipeline_succeeds
  rw [← he.execute_eq] at hexecute
  exact ⟨_, _, hexecute, rfl, ht⟩

/-- Either every time can be afforded, or there is a first one that cannot. -/
theorem affordable_or_first_refusal (l : Leaf) (seats : List Seat) (n : Nat) :
    (∀ i < n, ∀ seat ∈ seats, l.Affordable (l.after^[i] seat.2)) ∨
      ∃ m < n, (∀ i < m, ∀ seat ∈ seats, l.Affordable (l.after^[i] seat.2)) ∧
        ∃ seat ∈ seats, ¬ l.Affordable (l.after^[m] seat.2) := by
  induction n with
  | zero => exact Or.inl fun i hi => absurd hi (Nat.not_lt_zero i)
  | succ n ih =>
    rcases ih with hall | ⟨m, hm, hrefusal⟩
    · by_cases hlast : ∀ seat ∈ seats, l.Affordable (l.after^[n] seat.2)
      · refine Or.inl fun i hi => ?_
        rcases Nat.lt_succ_iff_lt_or_eq.mp hi with hi | rfl
        · exact hall i hi
        · exact hlast
      · push Not at hlast
        exact Or.inr ⟨n, Nat.lt_succ_self n, hall, hlast⟩
    · exact Or.inr ⟨m, Nat.lt_succ_of_lt hm, hrefusal⟩

end Effect

namespace Duel

def saver : Player := { ann with resources := .ofList [("mana", 5)] }

def saved : GameState := { table with players := ⟨[("ann", saver), ("bob", bob)], by decide⟩ }

theorem saved_valid : saved.Valid := by
  have hsaver : saver.Valid := Player.problem?_eq_none_iff.mp (by decide +kernel)
  have hbob : bob.Valid := Player.problem?_eq_none_iff.mp (by decide +kernel)
  refine (GameState.problem?_eq_none_iff_valid ?_).mp (by decide +kernel)
  simpa [saved] using ⟨hsaver, hbob⟩

end Duel

namespace Effect
variable {c : Context} {n : Nat}

/-- A repeated leaf does what one leaf of the multiplied amount does: both succeed or both fail, and they leave the
same table. Only a spending that is too large leaves another table, for its repetition keeps what was spent before
the first time that it could not be afforded: of an amount that is not negative, the remainder is left. -/
theorem execute_multiples (hs : c.state.Valid) (hn : 1 ≤ n) (hmax : (n : Int) ≤ Behaviour.maxTimes)
    (l : Leaf) (run : Run) : ∃ r r' run₁ run₂,
      (repeated (.leaf l) n).execute c run = .ok r run₁ ∧
      (leaf (l.multiple n)).execute c run = .ok r' run₂ ∧ r.success = r'.success ∧
      ((r.success = true ∨ ∀ name k target, l ≠ .resource name k .spend target) →
        r.state.toTable = r'.state.toTable) ∧
      ∀ name k target id p, l = .resource name k .spend target →
        target.1.resolve c.playerId c.state = .ok [(id, p)] →
        0 ≤ p.resource name → p.resource name < n * k →
          r.success = false ∧ ∃ q, r.state.player? id = some q ∧ q.resource name = p.resource name % k := by
  cases hr : l.target.resolve c.playerId c.state with
  | error e =>
    obtain ⟨r, run₁, hrepeated, hfails, hsame⟩ := repeated_unresolved hmax hn hr run
    have honce : (leaf (l.multiple n)).execute c run = _ :=
      Leaf.execute_unresolved ((l.target_multiple n).symm ▸ hr)
    refine ⟨r, _, run₁, _, hrepeated, honce, hfails, fun _ => hsame ▸ rfl, ?_⟩
    rintro name k target id p rfl hresolve
    cases hr.symm.trans hresolve
  | ok seats =>
    have hr' : (l.multiple n).target.resolve c.playerId c.state = .ok seats := (l.target_multiple n).symm ▸ hr
    rcases affordable_or_first_refusal l seats n with hall | ⟨m, hm, hbefore, seat, hseat, hnot⟩
    · have ha : ∀ seat ∈ seats, (l.multiple n).Affordable seat.2 := fun seat hseat =>
        (Leaf.affordable_multiple_iff hn l seat.2).mpr fun i hi => hall i hi seat hseat
      obtain ⟨r, run₁, hrepeated, hworks, htable⟩ := repeated_works hmax hs hr hall run
      obtain ⟨t, honce, htable', _⟩ := Leaf.execute_works hs hr' ha run
      refine ⟨r, _, run₁, _, hrepeated, honce, hworks, fun _ => ?_, ?_⟩
      · rw [htable]
        refine (Table.adjust_congr fun seat hm _ => ?_).trans htable'.symm
        exact Leaf.after_iterate hn (hs.players seat hm) l
      · rintro name k target id p rfl hresolve _ hless
        cases hr.symm.trans hresolve
        have hpays : ((n * k : Nat) : Int) ≤ p.resource name := ha (id, p) List.mem_cons_self
        rw [Int.natCast_mul] at hpays
        omega
    · have hlacks : ¬ (l.multiple n).Affordable seat.2 := fun ha =>
        hnot ((Leaf.affordable_multiple_iff hn l seat.2).mp ha m hm)
      obtain ⟨r, run₁, hrepeated, hfails, htable⟩ :=
        repeated_refused hmax hm hs hr hbefore hseat hnot run
      obtain ⟨message, honce⟩ := Leaf.execute_refuses hr' hseat hlacks run
      refine ⟨r, _, run₁, _, hrepeated, honce, hfails, ?_, ?_⟩
      · rintro (hworks | hfree)
        · rw [hfails] at hworks
          cases hworks
        · exact absurd (Leaf.affordable_of_not_spends hfree _) hnot
      · rintro name k target id p rfl hresolve h0 _
        cases hr.symm.trans hresolve
        obtain rfl := List.mem_singleton.mp hseat
        have hp := OrderedMap.mem_entries_iff.mp (Target.mem_of_resolve hr List.mem_cons_self)
        refine ⟨hfails, _, ?_, Leaf.resource_left h0 (fun i hi => hbefore i hi _ hseat) hnot⟩
        rw [GameState.player?, htable, Table.get?_adjust, hp]
        simp

/-- Two of the three fees are paid. -/
theorem execute_multiples_fees : Duel.saved.Valid ∧ 1 ≤ 3 ∧ ((3 : Nat) : Int) ≤ Behaviour.maxTimes ∧
    (∃ r run', (repeated (.leaf (.resource "mana" 2 .spend Duel.toSelf)) 3).execute
        ⟨"ann", Duel.saved, false, .empty⟩ default = .ok r run' ∧
      r.success = false ∧ ∃ q, r.state.player? "ann" = some q ∧ q.resource "mana" = 1) ∧
    ∃ r r' run₁ run₂,
      (repeated (.leaf (.draw 2 Duel.toSelf)) 3).execute (Duel.context "ann") default = .ok r run₁ ∧
      (leaf (.draw 6 Duel.toSelf)).execute (Duel.context "ann") default = .ok r' run₂ ∧
      r.state.toTable = r'.state.toTable := by
  refine ⟨Duel.saved_valid, by decide, by decide, ?_, ?_⟩
  · obtain ⟨r, _, run₁, _, hrepeated, _, _, _, hleft⟩ := execute_multiples (n := 3)
      (c := ⟨"ann", Duel.saved, false, .empty⟩) Duel.saved_valid (by decide) (by decide)
      (.resource "mana" 2 .spend Duel.toSelf) default
    obtain ⟨hfails, q, hq, hremainder⟩ :=
      hleft "mana" 2 Duel.toSelf "ann" Duel.saver rfl rfl (by decide) (by decide)
    exact ⟨r, run₁, hrepeated, hfails, q, hq, hremainder⟩
  · obtain ⟨r, r', run₁, run₂, hrepeated, honce, _, hsame, _⟩ := execute_multiples (n := 3)
      (c := Duel.context "ann") Duel.table_valid (by decide) (by decide) (.draw 2 Duel.toSelf) default
    exact ⟨r, r', run₁, run₂, hrepeated, honce, hsame (Or.inr nofun)⟩

end Effect

end Cardplay

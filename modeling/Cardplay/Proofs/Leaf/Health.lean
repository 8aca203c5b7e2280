import Cardplay.Proofs.Leaf.Multiples

/-!
# Damage and healing, seat by seat

A damage takes what the player has left, a healing gives what the player lacks (`Leaf.Clamps`): each seat that the
target means gets the new health that its own player has coming, and all else at the table stays
(`Leaf.execute_clamps`). Which seats are meant can be told from the identifiers in seating order alone
(`Target.Means`), and so can whether there are any.
-/

set_option autoImplicit false

namespace Cardplay

namespace Target
variable {target : Target} {id : String} {s : GameState} {seats : List Seat} {ids meant : List String}

/-- Of the identifiers in seating order, the target means the given ones. -/
def Means (target : Target) (id : String) (ids meant : List String) : Prop :=
  match target with
  | self => id ∈ ids ∧ meant = [id]
  | opponent | ally => ∃ other, ids.find? (fun other => other ≠ id) = some other ∧ meant = [other]
  | all => meant = ids

/-- There is nobody whom the target could mean. -/
def Lost (target : Target) (id : String) (ids : List String) : Prop :=
  match target with
  | self => id ∉ ids
  | opponent | ally => ∀ other ∈ ids, other = id
  | all => False

theorem find?_playerIds (id : String) (s : GameState) : s.playerIds.find? (fun other => other ≠ id) =
    (s.players.entries.find? fun seat => seat.1 ≠ id).map Prod.fst :=
  List.find?_map ..

theorem means_of_resolve (h : target.resolve id s = .ok seats) :
    target.Means id s.playerIds (seats.map Prod.fst) := by
  cases target with
  | self =>
    cases hp : s.player? id with
    | some p =>
      simp only [resolve, hp] at h
      cases h
      exact ⟨OrderedMap.mem_keys_iff.mpr ⟨p, hp⟩, rfl⟩
    | none => simp only [resolve, hp, reduceCtorEq] at h
  | all =>
    cases h
    rfl
  | _ =>
    cases hother : s.players.entries.find? fun seat => seat.1 ≠ id with
    | some seat =>
      simp only [resolve, hother] at h
      cases h
      refine ⟨seat.1, ?_, rfl⟩
      rw [find?_playerIds, hother, Option.map_some]
    | none => simp only [resolve, hother, reduceCtorEq] at h

theorem exists_unresolved_iff : (∃ e, target.resolve id s = .error e) ↔ target.Lost id s.playerIds := by
  cases target with
  | self =>
    rw [Lost, GameState.playerIds, OrderedMap.mem_keys_iff]
    cases hp : s.players.get? id <;> simp [resolve, GameState.player?, hp]
  | all => simp [resolve, Lost]
  | _ =>
    have hnone : (∀ other ∈ s.playerIds, other = id) ↔
        s.players.entries.find? (fun seat => seat.1 ≠ id) = none := by
      simp [GameState.playerIds, OrderedMap.keys]
    simp only [Lost, hnone]
    cases hother : s.players.entries.find? fun seat => seat.1 ≠ id <;> simp only [resolve, hother] <;> simp

end Target

namespace Player

theorem withHealth_eq (p : Player) (x : Int) :
    p.withHealth x = { p with health := x, loose := (p.withHealth x).loose } := by
  unfold withHealth
  split
  · rename_i h
    rw [h]
  · rfl

theorem loose_withHealth (p : Player) (x : Int) : (p.withHealth x).loose = p.loose ∨
    (p.withHealth x).loose = p.loose.filter fun field => field.1 ≠ "health" := by
  unfold withHealth
  split
  · exact .inl rfl
  · right
    change p.loose.filter (fun field => !List.contains ["health"] field.1) = _
    simp

end Player

namespace Leaf
variable {l : Leaf} {health : Player → Int} {wording : String → Int → String} {p : Player}

/-- The leaf moves a health between zero and its maximum, and this is the new health and how the difference is
worded. -/
inductive Clamps : Leaf → (Player → Int) → (String → Int → String) → Prop
  | damage (amount : Nat) (target : TargetIn damageTargets) :
      Clamps (.damage amount target) (fun p => max 0 (p.health - amount))
        fun id n => s!"{id} takes {n} damage"
  | heal (amount : Nat) (target : TargetIn healTargets) :
      Clamps (.heal amount target) (fun p => min p.maxHealth (p.health + amount))
        fun id n => s!"{id} heals {n} health"

namespace Clamps
variable (hl : l.Clamps health wording)
include hl

theorem affordable (p : Player) : l.Affordable p := by
  cases hl <;> trivial

theorem after_eq (hp : p.Valid) : l.after p = p.withHealth (health p) := by
  have h0 := hp.health_nonneg
  have hm := hp.health_le
  cases hl with
  | damage amount target =>
    have hhealth : p.health - min (amount : Int) p.health = max 0 (p.health - amount) := by omega
    rw [after_damage, hhealth]
  | heal amount target =>
    have hhealth : p.health + min (amount : Int) (p.maxHealth - p.health) =
        min p.maxHealth (p.health + amount) := by omega
    rw [after_heal, hhealth]

theorem report_eq (hp : p.Valid) (id : String) :
    l.report (id, p) = [wording id (health p - p.health).natAbs] := by
  have h0 := hp.health_nonneg
  have hm := hp.health_le
  cases hl with
  | damage amount target =>
    have hdifference : min (amount : Int) p.health = (max 0 (p.health - amount) - p.health).natAbs := by omega
    rw [report, hdifference]
  | heal amount target =>
    have hdifference : min (amount : Int) (p.maxHealth - p.health) =
        (min p.maxHealth (p.health + amount) - p.health).natAbs := by omega
    rw [report, hdifference]

theorem changed?_eq_none_iff (hp : p.Valid) : l.changed? p = none ↔ health p - p.health = 0 := by
  have h0 := hp.health_nonneg
  have hm := hp.health_le
  cases hl with
  | damage amount target =>
    simp only [changed?, ite_eq_left_iff, reduceCtorEq, imp_false, not_not]
    omega
  | heal amount target =>
    simp only [changed?, ite_eq_left_iff, reduceCtorEq, imp_false, not_not]
    omega

end Clamps

variable {c : Context}

/-- A damage or healing of the seats that its target means always succeeds. Each of their players has its new health
then, instead of a loose value that showed in its place, and one message for each, in seating order, tells the
difference. Nothing else at the table changes, and the very same state is handed back if there is no difference. -/
theorem execute_clamps (hs : c.state.Valid) (hl : l.Clamps health wording) (run : Run) :
    (∀ seats, l.target.resolve c.playerId c.state = .ok seats →
      l.target.Means c.playerId c.state.playerIds (seats.map Prod.fst) ∧ ∃ t messages,
        l.execute c run = .ok (.ok t messages) (messages.foldl c.logged run) ∧
        (∀ id p, (id, p) ∈ seats → c.state.player? id = some p ∧ ∃ q, t.player? id = some q ∧
          q = { p with health := health p, loose := q.loose } ∧
          (q.loose = p.loose ∨ q.loose = p.loose.filter fun field => field.1 ≠ "health")) ∧
        (∀ id, id ∉ seats.map Prod.fst → t.player? id = c.state.player? id) ∧
        t.playerIds = c.state.playerIds ∧
        t = { c.state with players := t.players, revision := t.revision, seating := t.seating } ∧
        messages = (seats.map fun seat => wording seat.1 (health seat.2 - seat.2.health).natAbs) ∧
        (t = c.state ↔ ∀ seat ∈ seats, health seat.2 - seat.2.health = 0)) ∧
    ((∃ e, l.target.resolve c.playerId c.state = .error e) ↔ l.target.Lost c.playerId c.state.playerIds) := by
  refine ⟨fun seats hr => ⟨Target.means_of_resolve hr, ?_⟩, Target.exists_unresolved_iff⟩
  have hentries : ∀ seat ∈ seats, seat ∈ c.state.players.entries := fun seat hm => Target.mem_of_resolve hr hm
  have hvalid : ∀ seat ∈ seats, seat.2.Valid := fun seat hm => hs.players seat (hentries seat hm)
  obtain ⟨t, hexecute, htable, _, hsame⟩ := execute_works hs hr (fun seat _ => hl.affordable seat.2) run
  have hget (id : String) : t.player? id = (c.state.player? id).map fun p =>
      if id ∈ seats.map Prod.fst then l.after p else p := by
    rw [GameState.player?, htable, Table.get?_adjust]
    rfl
  have hmessages : seats.flatMap l.report =
      seats.map fun seat => wording seat.1 (health seat.2 - seat.2.health).natAbs := by
    rw [← List.flatMap_pure_eq_map]
    exact List.flatMap_congr fun seat hm => hl.report_eq (hvalid seat hm) seat.1
  refine ⟨t, _, hexecute, ?_, ?_, ?_, ?_, hmessages, ?_⟩
  · intro id p hm
    have hp := OrderedMap.mem_entries_iff.mp (hentries _ hm)
    refine ⟨hp, p.withHealth (health p), ?_, ?_⟩
    · rw [hget, GameState.player?, hp, Option.map_some, if_pos (List.mem_map_of_mem hm),
        hl.after_eq (hvalid _ hm)]
    · exact ⟨p.withHealth_eq (health p), p.loose_withHealth (health p)⟩
  · intro id hid
    rw [hget]
    simp [hid]
  · rw [GameState.playerIds, htable, Table.keys_adjust]
    rfl
  · have hothers : t.toTable = { c.state.toTable with players := t.players } := by
      rw [htable]
      rfl
    obtain ⟨_, _, hr', hstate⟩ := execute_touches (l := l) hs run
    rw [hexecute] at hr'
    cases hr'
    obtain ⟨hcurrent, hturn⟩ :
        t.currentObject = c.state.currentObject ∧ t.turnObject = c.state.turnObject := by
      rcases hstate with (heq : t = _) | ⟨ps, _, (heq : t = _)⟩
      · rw [heq]
        exact ⟨rfl, rfl⟩
      · rw [heq]
        exact ⟨rfl, rfl⟩
    calc t = { toTable := t.toTable, revision := t.revision, seating := t.seating,
               currentObject := t.currentObject, turnObject := t.turnObject } := rfl
      _ = _ := by rw [hothers, hcurrent, hturn]
  · rw [hsame]
    exact forall₂_congr fun seat hm => hl.changed?_eq_none_iff (hvalid seat hm)

theorem all_mem_healTargets : Target.all ∈ healTargets := by decide

/-- The one reaches the highest health before all is given, the other takes it all. -/
theorem execute_clamps_feast : Duel.table.Valid ∧
    (heal 3 ⟨.all, all_mem_healTargets⟩).Clamps (fun p => min p.maxHealth (p.health + (3 : Nat)))
      (fun id n => s!"{id} heals {n} health") ∧
    Target.all.resolve "cy" Duel.table = .ok [("ann", Duel.ann), ("bob", Duel.bob)] ∧
    ∃ t run' q q', (heal 3 ⟨.all, all_mem_healTargets⟩).execute (Duel.context "cy") default =
        .ok (.ok t ["ann heals 2 health", "bob heals 3 health"]) run' ∧
      t.player? "ann" = some q ∧ q.health = 5 ∧ t.player? "bob" = some q' ∧ q'.health = 4 ∧
      t.playerIds = ["ann", "bob"] ∧ t ≠ Duel.table := by
  have hclamps := Clamps.heal 3 ⟨.all, all_mem_healTargets⟩
  have hresolve : Target.all.resolve "cy" Duel.table = .ok [("ann", Duel.ann), ("bob", Duel.bob)] := rfl
  obtain ⟨hworks, -⟩ := execute_clamps (c := Duel.context "cy") Duel.table_valid hclamps default
  obtain ⟨-, t, messages, hexecute, hseats, -, hids, -, hmessages, hsame⟩ := hworks _ hresolve
  obtain ⟨-, q, hq, hann, -⟩ := hseats "ann" Duel.ann (by simp)
  obtain ⟨-, q', hq', hbob, -⟩ := hseats "bob" Duel.bob (by simp)
  have htexts : messages = ["ann heals 2 health", "bob heals 3 health"] := by
    rw [hmessages]
    decide +kernel
  refine ⟨Duel.table_valid, hclamps, hresolve, t, _, q, q', htexts ▸ hexecute, hq, ?_, hq', ?_, hids, ?_⟩
  · have hhealth : q.health = min Duel.ann.maxHealth (Duel.ann.health + 3) := congrArg Player.health hann
    exact hhealth.trans (by decide)
  · have hhealth : q'.health = min Duel.bob.maxHealth (Duel.bob.health + 3) := congrArg Player.health hbob
    exact hhealth.trans (by decide)
  · exact mt hsame.mp (by decide)

end Leaf

end Cardplay

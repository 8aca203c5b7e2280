import Cardplay.Proofs.Leaf.Run
import Cardplay.Proofs.State.Adjustment

/-!
# What leaves make of their seats

A leaf works on the seats that its target resolves to, on each of them by itself: `Leaf.after` is what it makes of
a player there and `Leaf.report` what it says of it. So a leaf that every one of these players affords succeeds and
adjusts the table (`Leaf.execute_works`). What a player cannot afford is refused and nothing changes
(`Leaf.execute_refuses`); only a spending can be refused.
-/

set_option autoImplicit false

namespace Cardplay

namespace ResourceOperation

/-- The amount held after the operation. -/
def result (amount : Nat) (held : Int) : ResourceOperation → Int
  | gain => held + amount
  | spend => held - amount
  | set => amount

def report (id name : String) (amount : Nat) : ResourceOperation → String
  | gain => s!"{id} gains {amount} {name}"
  | spend => s!"{id} spends {amount} {name}"
  | set => s!"{id} {name} set to {amount}"

end ResourceOperation

namespace Leaf

/-- The player that takes the place of one that the leaf works on; nobody does where nothing changes. -/
def changed? : Leaf → Player → Option Player
  | damage amount _, p =>
    if min (amount : Int) p.health = 0 then none
    else some (p.replace { health := some (p.health - min (amount : Int) p.health) })
  | heal amount _, p =>
    if min (amount : Int) (p.maxHealth - p.health) = 0 then none
    else some (p.replace { health := some (p.health + min (amount : Int) (p.maxHealth - p.health)) })
  | draw count _, p =>
    if (Pull.run count (.ofPlayer p)).drawn = 0 then none
    else some (p.replace (Pull.run count (.ofPlayer p)).changes)
  | resource name amount operation _, p => some (p.replace
      { resources := some (p.resources.insert name (operation.result amount (p.resource name))) })

/-- What the leaf makes of a player that it works on. -/
def after (l : Leaf) (p : Player) : Player := (l.changed? p).getD p

/-- What the leaf says of a seat that it works on. -/
def report : Leaf → Seat → List String
  | damage amount _, (id, p) => [s!"{id} takes {min (amount : Int) p.health} damage"]
  | heal amount _, (id, p) => [s!"{id} heals {min (amount : Int) (p.maxHealth - p.health)} health"]
  | draw count _, (id, p) => (Pull.run count (.ofPlayer p)).messages id
  | resource name amount operation _, (id, _) => [operation.report id name amount]

/-- Whether the leaf has a price, and the player can pay it. -/
def Affordable : Leaf → Player → Prop
  | resource name amount .spend _, p => (amount : Int) ≤ p.resource name
  | _, _ => True

variable {l : Leaf} {p q : Player}

theorem touch_of_changed? (ha : l.Affordable p) (h : l.changed? p = some q) : l.Touch p q := by
  cases l with
  | damage amount target =>
    obtain ⟨_, hq⟩ := Option.ite_none_left_eq_some.mp h
    cases hq
    exact .damage amount target p
  | heal amount target =>
    obtain ⟨_, hq⟩ := Option.ite_none_left_eq_some.mp h
    cases hq
    exact .heal amount target p
  | draw count target =>
    obtain ⟨_, hq⟩ := Option.ite_none_left_eq_some.mp h
    cases hq
    exact .draw count target p
  | resource name amount operation target =>
    cases h
    cases operation with
    | gain => exact .gain name amount target p
    | spend => exact .spend name amount target p (Int.not_lt.mpr ha)
    | set => exact .set name amount target p

theorem id_of_changed? (h : l.changed? p = some q) : q.id = p.id := by
  cases l with
  | resource name amount operation target =>
    cases h
    rfl
  | _ =>
    obtain ⟨_, hq⟩ := Option.ite_none_left_eq_some.mp h
    cases hq
    rfl

end Leaf

/-- A target that means one player resolves to one seat. -/
theorem Target.resolve_single {target : Target} {id : String} {s : GameState} {seats : List Seat}
    (ht : target ∈ singleTargets) (h : target.resolve id s = .ok seats) : ∃ seat, seats = [seat] := by
  cases target with
  | self =>
    cases hp : s.player? id with
    | some p =>
      simp only [resolve, hp] at h
      cases h
      exact ⟨_, rfl⟩
    | none => simp only [resolve, hp, reduceCtorEq] at h
  | opponent =>
    cases hp : s.players.entries.find? fun seat => seat.1 ≠ id with
    | some seat =>
      simp only [resolve, hp] at h
      cases h
      exact ⟨_, rfl⟩
    | none => simp only [resolve, hp, reduceCtorEq] at h
  | ally => exact absurd ht (by decide)
  | all => exact absurd ht (by decide)

namespace Leaf
variable {l : Leaf} {c : Context} {seats : List Seat}

theorem healthMove_eq_changed {amount : Player → Int} {sign : Int}
    (htouch : ∀ p, l.Touch p (p.replace { health := some (p.health + sign * amount p) }))
    (hchanged : ∀ p, l.changed? p = if amount p = 0 then none
      else some (p.replace { health := some (p.health + sign * amount p) }))
    (message : String → Int → String) (h : ∀ seat ∈ seats, seat.2.Valid) :
    healthMove amount sign message seats = .ok (seats.filterMap fun seat => l.changed? seat.2,
      seats.map fun seat => message seat.1 (amount seat.2)) := by
  rw [healthMove_eq_ok fun seat hm => (htouch seat.2).evolves (h seat hm) rfl, ← List.filterMap_eq_map,
    List.filterMap_filter]
  congr 3
  funext seat
  rw [hchanged]
  by_cases h0 : amount seat.2 = 0 <;> simp [h0]

/-- The move of a leaf that every player can afford, seat by seat. -/
theorem move_eq_apply (hr : l.target.resolve c.playerId c.state = .ok seats)
    (hvalid : ∀ seat ∈ seats, seat.2.Valid) (ha : ∀ seat ∈ seats, l.Affordable seat.2) :
    l.move seats = .ok (.apply (seats.filterMap fun seat => l.changed? seat.2) (seats.flatMap l.report)) := by
  cases l with
  | damage amount target =>
    have hhealth (p : Player) : p.health + -1 * min (amount : Int) p.health =
        p.health - min (amount : Int) p.health := by omega
    rw [move, healthMove_eq_changed (l := .damage amount target) ?touch ?changed _ hvalid,
      ← List.flatMap_pure_eq_map]
    case touch =>
      intro p
      rw [hhealth]
      exact .damage amount target p
    case changed =>
      intro p
      rw [hhealth]
      rfl
    rfl
  | heal amount target =>
    have hhealth (p : Player) : p.health + 1 * min (amount : Int) (p.maxHealth - p.health) =
        p.health + min (amount : Int) (p.maxHealth - p.health) := by omega
    rw [move, healthMove_eq_changed (l := .heal amount target) ?touch ?changed _ hvalid,
      ← List.flatMap_pure_eq_map]
    case touch =>
      intro p
      rw [hhealth]
      exact .heal amount target p
    case changed =>
      intro p
      rw [hhealth]
      rfl
    rfl
  | draw count target =>
    obtain ⟨⟨id, p⟩, rfl⟩ := Target.resolve_single target.2 hr
    have htouch := Touch.draw count target p
    have hp := hvalid _ List.mem_cons_self
    rw [move, drawMove_eq_ok (htouch.evolves hp rfl)]
    by_cases h0 : (Pull.run count (.ofPlayer p)).drawn = 0 <;> simp [changed?, report, h0]
  | resource name amount operation target =>
    obtain ⟨⟨id, p⟩, rfl⟩ := Target.resolve_single target.2 hr
    have hp := hvalid _ List.mem_cons_self
    cases operation with
    | gain => exact resourceMove_set_eq_ok hp
    | spend =>
      exact (if_neg (Int.not_lt.mpr (ha _ List.mem_cons_self))).trans (resourceMove_set_eq_ok hp)
    | set => exact resourceMove_set_eq_ok hp

/-- A leaf that all of its players can afford succeeds: it says something of every seat and adjusts the table. The
very same state is handed back if nobody is changed. -/
theorem execute_works (hs : c.state.Valid) (hr : l.target.resolve c.playerId c.state = .ok seats)
    (ha : ∀ seat ∈ seats, l.Affordable seat.2) (run : Run) : ∃ t,
      l.execute c run = .ok (.ok t (seats.flatMap l.report)) ((seats.flatMap l.report).foldl c.logged run) ∧
      t.toTable = c.state.toTable.adjust (seats.map Prod.fst) l.after ∧ t.Valid ∧
      (t = c.state ↔ ∀ seat ∈ seats, l.changed? seat.2 = none) := by
  have hentries : ∀ seat ∈ seats, seat ∈ c.state.players.entries := fun seat hm =>
    Target.mem_of_resolve hr hm
  have hmove := move_eq_apply hr (fun seat hm => hs.players seat (hentries seat hm)) ha
  have htable := GameState.toTable_reseated hs hentries fun p q h => id_of_changed? (l := l) h
  have hnone : seats.filterMap (fun seat => l.changed? seat.2) = [] ↔
      ∀ seat ∈ seats, l.changed? seat.2 = none := List.filterMap_eq_nil_iff
  rw [execute_applied hr hmove]
  by_cases hempty : seats.filterMap (fun seat => l.changed? seat.2) = []
  · have hidle : (c.state.replace { players := some (GameState.placeAll c.state.players []) }).toTable =
        c.state.toTable := by simp [GameState.replace, GameState.Changes.settled, GameState.placeAll]
    rw [hempty, hidle] at htable
    exact ⟨c.state, finish_eq_ok_iff.mpr ⟨rfl, c.state, Or.inl ⟨hempty, rfl⟩, rfl⟩, htable, hs,
      iff_of_true rfl (hnone.mp hempty)⟩
  · have hvalid : ∀ q ∈ seats.filterMap (fun seat => l.changed? seat.2), q.Valid := by
      intro q hq
      obtain ⟨seat, hm, hq⟩ := List.mem_filterMap.mp hq
      exact (touch_of_changed? (ha seat hm) hq).valid (hs.players seat (hentries seat hm))
    have hseated : ∀ q ∈ seats.filterMap (fun seat => l.changed? seat.2), q.id ∈ c.state.playerIds := by
      intro q hq
      obtain ⟨seat, hm, hq⟩ := List.mem_filterMap.mp hq
      rw [id_of_changed? hq, ← hs.seated seat (hentries seat hm)]
      exact List.mem_map_of_mem (hentries seat hm)
    have hnew := (GameState.withPlayers_eq_ok_iff hs hvalid).mpr ⟨hseated, rfl⟩
    refine ⟨_, finish_eq_ok_iff.mpr ⟨rfl, _, Or.inr ⟨hempty, hnew⟩, rfl⟩, htable,
      GameState.valid_placeAll hs hvalid hseated, iff_of_false ?_ fun h => hempty (hnone.mpr h)⟩
    intro heq
    exact Nat.succ_ne_self c.state.revision (congrArg GameState.revision heq)

theorem execute_refuses (hr : l.target.resolve c.playerId c.state = .ok seats) {seat : Seat}
    (hm : seat ∈ seats) (hn : ¬ l.Affordable seat.2) (run : Run) : ∃ message, l.execute c run =
      .ok (.fail c.state [message] (some (.str FailureReason.insufficientResource.name)))
        (c.logged run message) := by
  cases l with
  | resource name amount operation target =>
    obtain ⟨⟨id, p⟩, rfl⟩ := Target.resolve_single target.2 hr
    obtain rfl := List.mem_singleton.mp hm
    cases operation with
    | spend => exact ⟨_, execute_refused hr (if_pos (Int.not_le.mp hn))⟩
    | gain => exact absurd trivial hn
    | set => exact absurd trivial hn
  | _ => exact absurd trivial hn

end Leaf

end Cardplay

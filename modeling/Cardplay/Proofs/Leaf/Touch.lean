import Cardplay.Proofs.Execution.Answer
import Cardplay.Proofs.Leaf.Queue
import Cardplay.Proofs.State.Evolution

/-!
# What leaves do

`Leaf.Touch` lists what a leaf can make of one player. At a valid table a leaf always makes its move, and
every player that the move changes is touched (`Leaf.move_touches`); the touched player is valid again.
-/

set_option autoImplicit false

namespace Cardplay

theorem Player.evolve_eq_ok {p : Player} {changes : Player.Changes} (hp : p.Valid)
    (hu : changes.unknown = []) (h : (p.replace changes).Valid) :
    p.evolve changes = .ok (p.replace changes) :=
  (Player.evolve_eq_ok_iff hp).mpr ⟨hu, h, rfl⟩

namespace Leaf

/-- What a leaf makes of a player that it changes. -/
inductive Touch : Leaf → Player → Player → Prop
  | damage (amount : Nat) (target : TargetIn damageTargets) (p : Player) :
      Touch (.damage amount target) p
        (p.replace { health := some (p.health - min (amount : Int) p.health) })
  | heal (amount : Nat) (target : TargetIn healTargets) (p : Player) :
      Touch (.heal amount target) p
        (p.replace { health := some (p.health + min (amount : Int) (p.maxHealth - p.health)) })
  | draw (count : Nat) (target : TargetIn singleTargets) (p : Player) :
      Touch (.draw count target) p (p.replace (Pull.run count (.ofPlayer p)).changes)
  | gain (name : String) (amount : Nat) (target : TargetIn singleTargets) (p : Player) :
      Touch (.resource name amount .gain target) p
        (p.replace { resources := some (p.resources.insert name (p.resource name + amount)) })
  | spend (name : String) (amount : Nat) (target : TargetIn singleTargets) (p : Player)
      (affordable : ¬ p.resource name < amount) :
      Touch (.resource name amount .spend target) p
        (p.replace { resources := some (p.resources.insert name (p.resource name - amount)) })
  | set (name : String) (amount : Nat) (target : TargetIn singleTargets) (p : Player) :
      Touch (.resource name amount .set target) p
        (p.replace { resources := some (p.resources.insert name (amount : Int)) })

namespace Touch
variable {l : Leaf} {p q : Player}

theorem id_eq (h : l.Touch p q) : q.id = p.id := by
  cases h <;> rfl

theorem maxHealth_eq (h : l.Touch p q) : q.maxHealth = p.maxHealth := by
  cases h <;> rfl

theorem drawsTo (h : l.Touch p q) : p.DrawsTo q := by
  cases h with
  | draw count target p => exact Player.DrawsTo.pull p count
  | _ => exact Player.DrawsTo.of_zones_eq rfl rfl rfl

theorem health_bounds (hp : p.Valid) (h : l.Touch p q) : 0 ≤ q.health ∧ q.health ≤ q.maxHealth := by
  obtain ⟨h0, hm, _⟩ := hp
  cases h with
  | damage amount target p =>
    simp only [Player.replace, Option.getD_some, Option.getD_none]
    omega
  | heal amount target p =>
    simp only [Player.replace, Option.getD_some, Option.getD_none]
    omega
  | _ => exact ⟨h0, hm⟩

theorem valid (hp : p.Valid) (h : l.Touch p q) : q.Valid := by
  obtain ⟨h0, hm⟩ := h.health_bounds hp
  exact ⟨h0, hm, (h.drawsTo.cards_perm.map Card.id).nodup_iff.mpr hp.nodup⟩

theorem loose_eq_nil (hp : p.loose = []) (h : l.Touch p q) : q.loose = [] := by
  cases h <;> simp [Player.replace, Pull.changes, hp]

theorem evolves {changes : Player.Changes} (hp : p.Valid) (hu : changes.unknown = [])
    (h : l.Touch p (p.replace changes)) : p.evolve changes = .ok (p.replace changes) :=
  Player.evolve_eq_ok hp hu (h.valid hp)

end Touch

/-- The players that a move changes. -/
def Move.players : Move → List Player
  | .apply players _ => players
  | .refuse _ => []

theorem healthMove_eq_ok {amount : Player → Int} {sign : Int} {message : String → Int → String}
    {seats : List Seat}
    (h : ∀ seat ∈ seats, seat.2.evolve { health := some (seat.2.health + sign * amount seat.2) } =
      .ok (seat.2.replace { health := some (seat.2.health + sign * amount seat.2) })) :
    healthMove amount sign message seats =
      .ok ((seats.filter fun seat => amount seat.2 ≠ 0).map fun seat =>
          seat.2.replace { health := some (seat.2.health + sign * amount seat.2) },
        seats.map fun seat => message seat.1 (amount seat.2)) := by
  induction seats with
  | nil => rfl
  | cons seat rest ih =>
    obtain ⟨id, p⟩ := seat
    have hrest := ih fun seat hm => h seat (List.mem_cons_of_mem _ hm)
    have hp := h (id, p) List.mem_cons_self
    by_cases h0 : amount p = 0
    · simp [healthMove, hrest, h0, bind, Except.bind, pure, Except.pure]
    · simp [healthMove, hrest, h0, hp, bind, Except.bind, pure, Except.pure, Functor.map,
        Except.map, List.singleton]

theorem healthMove_touches {l : Leaf} {amount : Player → Int} {sign : Int} {seats : List Seat}
    (message : String → Int → String)
    (htouch : ∀ p, l.Touch p (p.replace { health := some (p.health + sign * amount p) }))
    (h : ∀ seat ∈ seats, seat.2.Valid) :
    ∃ ps messages, healthMove amount sign message seats = .ok (ps, messages) ∧
      ∀ q ∈ ps, ∃ seat ∈ seats, l.Touch seat.2 q := by
  refine ⟨_, _, healthMove_eq_ok fun seat hm => (htouch seat.2).evolves (h seat hm) rfl, ?_⟩
  intro q hq
  obtain ⟨seat, hseat, rfl⟩ := List.mem_map.mp hq
  exact ⟨seat, List.mem_of_mem_filter hseat, htouch seat.2⟩

theorem drawMove_eq_ok {id : String} {p : Player} {count : Nat}
    (h : p.evolve (Pull.run count (.ofPlayer p)).changes =
      .ok (p.replace (Pull.run count (.ofPlayer p)).changes)) :
    drawMove id p count = .ok (.apply
      (if (Pull.run count (.ofPlayer p)).drawn = 0 then []
        else [p.replace (Pull.run count (.ofPlayer p)).changes])
      ((Pull.run count (.ofPlayer p)).messages id)) := by
  unfold drawMove
  by_cases h0 : (Pull.run count (.ofPlayer p)).drawn = 0
  · simp [h0, bind, Except.bind, pure, Except.pure]
  · simp [h0, h, bind, Except.bind, pure, Except.pure, Functor.map, Except.map, List.singleton]

theorem resourceMove_set_eq_ok {p : Player} {name message : String} {value : Int} (hp : p.Valid) :
    resourceMove.set p name value message =
      .ok (.apply [p.replace { resources := some (p.resources.insert name value) }] [message]) := by
  have h : p.evolve { resources := some (p.resources.insert name value) } = .ok _ :=
    Player.evolve_eq_ok hp rfl ⟨hp.health_nonneg, hp.health_le, hp.nodup⟩
  simp [resourceMove.set, h, bind, Except.bind, pure, Except.pure]

theorem resourceMove_touches (id : String) {name : String} {p : Player} {amount : Nat}
    {operation : ResourceOperation} (target : TargetIn singleTargets) (hp : p.Valid) :
    ∃ m, resourceMove id p name amount operation = .ok m ∧
      ∀ q ∈ m.players, (Leaf.resource name amount operation target).Touch p q := by
  cases operation with
  | gain =>
    refine ⟨_, resourceMove_set_eq_ok hp, ?_⟩
    intro q hq
    rw [List.mem_singleton.mp hq]
    exact Touch.gain name amount target p
  | spend =>
    by_cases hs : p.resource name < amount
    · exact ⟨_, if_pos hs, by simp [Move.players]⟩
    · refine ⟨_, (if_neg hs).trans (resourceMove_set_eq_ok hp), ?_⟩
      intro q hq
      rw [List.mem_singleton.mp hq]
      exact Touch.spend name amount target p hs
  | set =>
    refine ⟨_, resourceMove_set_eq_ok hp, ?_⟩
    intro q hq
    rw [List.mem_singleton.mp hq]
    exact Touch.set name amount target p

theorem move_touches {l : Leaf} {seats : List Seat} (h : ∀ seat ∈ seats, seat.2.Valid) :
    ∃ m, l.move seats = .ok m ∧ ∀ q ∈ m.players, ∃ seat ∈ seats, l.Touch seat.2 q := by
  cases l with
  | damage amount target =>
    have htouch (p : Player) : (Leaf.damage amount target).Touch p
        (p.replace { health := some (p.health + -1 * min (amount : Int) p.health) }) := by
      rw [Int.neg_one_mul, ← Int.sub_eq_add_neg]
      exact Touch.damage amount target p
    obtain ⟨ps, messages, hm, hq⟩ := healthMove_touches
      (fun id actual => s!"{id} takes {actual} damage") htouch h
    refine ⟨.apply ps messages, ?_, hq⟩
    rw [move, hm]
    rfl
  | heal amount target =>
    have htouch (p : Player) : (Leaf.heal amount target).Touch p
        (p.replace { health := some (p.health + 1 * min (amount : Int) (p.maxHealth - p.health)) }) := by
      rw [Int.one_mul]
      exact Touch.heal amount target p
    obtain ⟨ps, messages, hm, hq⟩ := healthMove_touches
      (fun id actual => s!"{id} heals {actual} health") htouch h
    refine ⟨.apply ps messages, ?_, hq⟩
    rw [move, hm]
    rfl
  | draw count target =>
    cases seats with
    | nil => exact ⟨_, rfl, by simp [Move.players]⟩
    | cons seat rest =>
      have hp := h seat List.mem_cons_self
      have htouch := Touch.draw count target seat.2
      refine ⟨_, drawMove_eq_ok (htouch.evolves hp rfl), ?_⟩
      intro q hq
      refine ⟨seat, List.mem_cons_self, ?_⟩
      simp only [Move.players] at hq
      split at hq
      · simp at hq
      · rw [List.mem_singleton.mp hq]
        exact htouch
  | resource name amount operation target =>
    cases seats with
    | nil => exact ⟨_, rfl, by simp [Move.players]⟩
    | cons seat rest =>
      obtain ⟨m, hm, hq⟩ := resourceMove_touches seat.1 target (h seat List.mem_cons_self)
      exact ⟨m, hm, fun q hmem => ⟨seat, List.mem_cons_self, hq q hmem⟩⟩

end Leaf

end Cardplay

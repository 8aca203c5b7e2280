import Cardplay.Proofs.Leaf.Multiples

/-!
# What leaves work on

Every leaf works on one aspect of a player: the health, the zones of cards or the resource of one name. Whatever a
leaf makes of a player, says of it or asks of it depends on that aspect alone (`Leaf.after_congr`,
`Leaf.report_congr`, `Leaf.affordable_congr`), and the other aspects stay (`Leaf.after_agreesOn`). So two leaves
that work on different aspects of a player make the same of it in both orders (`Leaf.after_comm`), but for the
order in which resources were first held.

The footprint of a leaf is every seat that its target means, each with the aspect that the leaf works on.
-/

set_option autoImplicit false

namespace Cardplay

/-- A part of a player that leaves work on. -/
inductive Aspect
  | health
  | zones
  | resource (name : String)
deriving DecidableEq, Repr

namespace Player
variable {p q r : Player} {x : Aspect}

/-- The two players are the same in that aspect. -/
def AgreesOn (p q : Player) : Aspect → Prop
  | .health => p.health = q.health ∧ p.maxHealth = q.maxHealth
  | .zones => p.hand = q.hand ∧ p.deck = q.deck ∧ p.discard = q.discard
  | .resource name => p.resources.get? name = q.resources.get? name

/-- The two players are the same in every field; resources may have come in another order. -/
structure Alike (p q : Player) : Prop where
  id : p.id = q.id
  health : p.health = q.health
  maxHealth : p.maxHealth = q.maxHealth
  hand : p.hand = q.hand
  deck : p.deck = q.deck
  discard : p.discard = q.discard
  resources : p.resources.SameContents q.resources
  loose : p.loose = q.loose

theorem Alike.refl (p : Player) : p.Alike p := ⟨rfl, rfl, rfl, rfl, rfl, rfl, fun _ => rfl, rfl⟩

theorem Alike.of_agreesOn (hid : p.id = q.id) (h : ∀ x, p.AgreesOn q x) (hloose : p.loose = q.loose) :
    p.Alike q where
  id := hid
  health := (h .health).1
  maxHealth := (h .health).2
  hand := (h .zones).1
  deck := (h .zones).2.1
  discard := (h .zones).2.2
  resources := fun name => h (.resource name)
  loose := hloose

theorem AgreesOn.refl (p : Player) (x : Aspect) : p.AgreesOn p x := by
  cases x with
  | health => exact ⟨rfl, rfl⟩
  | zones => exact ⟨rfl, rfl, rfl⟩
  | resource name => rfl

theorem AgreesOn.symm (h : p.AgreesOn q x) : q.AgreesOn p x := by
  cases x with
  | health => exact ⟨h.1.symm, h.2.symm⟩
  | zones => exact ⟨h.1.symm, h.2.1.symm, h.2.2.symm⟩
  | resource name => exact Eq.symm h

theorem AgreesOn.trans (h : p.AgreesOn q x) (h' : q.AgreesOn r x) : p.AgreesOn r x := by
  cases x with
  | health => exact ⟨h.1.trans h'.1, h.2.trans h'.2⟩
  | zones => exact ⟨h.1.trans h'.1, h.2.1.trans h'.2.1, h.2.2.trans h'.2.2⟩
  | resource name => exact Eq.trans h h'

theorem withHealth_agreesOn {y : Int} (h : x ≠ .health) : (p.withHealth y).AgreesOn p x := by
  unfold withHealth
  split
  · exact .refl p x
  · cases x with
    | health => exact absurd rfl h
    | zones => exact ⟨rfl, rfl, rfl⟩
    | resource name => rfl

theorem holding_agreesOn {pull : Pull} (h : x ≠ .zones) : (p.holding pull).AgreesOn p x := by
  cases x with
  | health => exact ⟨rfl, rfl⟩
  | zones => exact absurd rfl h
  | resource name => rfl

theorem withResource_agreesOn {name : String} {y : Int} (h : x ≠ .resource name) :
    (p.withResource name y).AgreesOn p x := by
  cases x with
  | health => exact ⟨rfl, rfl⟩
  | zones => exact ⟨rfl, rfl, rfl⟩
  | resource other =>
    exact OrderedMap.get?_insert_of_ne _ (fun heq : other = name => h (congrArg Aspect.resource heq)) _

theorem exists_loose_withHealth (p : Player) (y : Int) : ∃ keeps : String × Value → Bool,
    ∀ q : Player, p.health = q.health → (q.withHealth y).loose = q.loose.filter keeps := by
  by_cases h : y = p.health
  -- The very same player stays if the health does, with all loose values.
  · refine ⟨fun _ => true, fun q hq => ?_⟩
    simp [withHealth, h, hq]
  · refine ⟨fun field => !List.contains ["health"] field.1, fun q hq => ?_⟩
    rw [withHealth, if_neg (hq ▸ h)]
    rfl

theorem resource_eq {name : String} (h : p.AgreesOn q (.resource name)) :
    p.resource name = q.resource name :=
  congrArg (fun held => held.getD 0) h

theorem ofPlayer_eq (h : p.AgreesOn q .zones) : Pull.ofPlayer p = Pull.ofPlayer q := by
  obtain ⟨hhand, hdeck, hdiscard⟩ := h
  simp only [Pull.ofPlayer, hhand, hdeck, hdiscard]

end Player

namespace Leaf
variable {l a b : Leaf} {p q : Player} {x : Aspect}

/-- What the leaf works on. -/
def aspect : Leaf → Aspect
  | damage .. | heal .. => .health
  | draw .. => .zones
  | resource name .. => .resource name

/-- What the leaf works on at a table, for that acting player. -/
def footprint (l : Leaf) (id : String) (s : GameState) : List (String × Aspect) :=
  match l.target.resolve id s with
  | .ok seats => seats.map fun seat => (seat.1, l.aspect)
  | .error _ => []

/-- Every other aspect stays. -/
theorem after_agreesOn (h : x ≠ l.aspect) (p : Player) : (l.after p).AgreesOn p x := by
  cases l with
  | damage amount target =>
    rw [after_damage]
    exact Player.withHealth_agreesOn h
  | heal amount target =>
    rw [after_heal]
    exact Player.withHealth_agreesOn h
  | draw count target =>
    rw [after_draw]
    exact Player.holding_agreesOn h
  | resource name amount operation target => exact Player.withResource_agreesOn h

theorem after_congr (h : p.AgreesOn q l.aspect) : (l.after p).AgreesOn (l.after q) l.aspect := by
  cases l with
  | damage amount target =>
    obtain ⟨hhealth, hmax⟩ := h
    constructor <;> simp [after_damage, hhealth, hmax]
  | heal amount target =>
    obtain ⟨hhealth, hmax⟩ := h
    constructor <;> simp [after_heal, hhealth, hmax]
  | draw count target =>
    rw [after_draw, after_draw, Player.ofPlayer_eq h]
    exact ⟨rfl, rfl, rfl⟩
  | resource name amount operation target =>
    rw [after_resource, after_resource, Player.resource_eq h]
    exact (OrderedMap.get?_insert_self ..).trans (OrderedMap.get?_insert_self ..).symm

theorem report_congr (h : p.AgreesOn q l.aspect) (id : String) : l.report (id, p) = l.report (id, q) := by
  cases l with
  | damage amount target =>
    obtain ⟨hhealth, _⟩ := h
    simp only [report, hhealth]
  | heal amount target =>
    obtain ⟨hhealth, hmax⟩ := h
    simp only [report, hhealth, hmax]
  | draw count target => simp only [report, Player.ofPlayer_eq h]
  | resource name amount operation target => rfl

theorem affordable_congr (h : p.AgreesOn q l.aspect) : l.Affordable p ↔ l.Affordable q := by
  cases l with
  | resource name amount operation target =>
    cases operation with
    | spend => simp only [Affordable, Player.resource_eq h]
    | gain => exact Iff.rfl
    | set => exact Iff.rfl
  | _ => exact Iff.rfl

theorem id_after (l : Leaf) (p : Player) : (l.after p).id = p.id := by
  unfold after
  cases h : l.changed? p with
  | none => rfl
  | some q => exact id_of_changed? h

/-- Which loose values a leaf drops depends on the aspect that it works on, too. -/
theorem exists_loose_after (l : Leaf) (p : Player) : ∃ keeps : String × Value → Bool,
    ∀ q, p.AgreesOn q l.aspect → (l.after q).loose = q.loose.filter keeps := by
  cases l with
  | damage amount target =>
    obtain ⟨keeps, hkeeps⟩ := Player.exists_loose_withHealth p (p.health - min (amount : Int) p.health)
    refine ⟨keeps, fun q hq => ?_⟩
    rw [after_damage, ← hq.1, hkeeps q hq.1]
  | heal amount target =>
    obtain ⟨keeps, hkeeps⟩ := Player.exists_loose_withHealth p (p.health + min (amount : Int) (p.maxHealth - p.health))
    refine ⟨keeps, fun q hq => ?_⟩
    rw [after_heal, ← hq.1, ← hq.2, hkeeps q hq.1]
  | draw count target =>
    refine ⟨fun _ => true, fun q _ => ?_⟩
    rw [after_draw]
    exact (List.filter_eq_self.mpr fun _ _ => rfl).symm
  | resource name amount operation target =>
    exact ⟨fun field => !List.contains ["resources"] field.1, fun q _ => rfl⟩

/-- What is the same in two players stays so, where the leaf works on nothing that is not. -/
theorem after_agreesOn_after (h : p.AgreesOn q l.aspect) (hx : p.AgreesOn q x) :
    (l.after p).AgreesOn (l.after q) x := by
  by_cases heq : x = l.aspect
  · rw [heq]
    exact after_congr h
  · exact (after_agreesOn heq p).trans (hx.trans (after_agreesOn heq q).symm)

/-- Leaves that work on different aspects of a player make the same of it in both orders. -/
theorem after_comm (h : a.aspect ≠ b.aspect) (p : Player) :
    (b.after (a.after p)).Alike (a.after (b.after p)) := by
  -- An aspect that the last leaf leaves alone is what the other leaf makes of it, first or last.
  have hlast {l k : Leaf} {x : Aspect} (hlk : l.aspect ≠ k.aspect) (hx : x ≠ k.aspect) :
      (k.after (l.after p)).AgreesOn (l.after (k.after p)) x :=
    (after_agreesOn hx _).trans
      (after_agreesOn_after (after_agreesOn hlk p).symm (after_agreesOn hx p).symm)
  refine .of_agreesOn ?id (fun x => ?agreesOn) ?loose
  case id => simp only [id_after]
  case agreesOn =>
    by_cases hx : x = b.aspect
    · exact (hlast h.symm (hx ▸ h.symm)).symm
    · exact hlast h hx
  case loose =>
    obtain ⟨keeps, hkeeps⟩ := exists_loose_after a p
    obtain ⟨keeps', hkeeps'⟩ := exists_loose_after b p
    rw [hkeeps' _ (after_agreesOn h.symm p).symm, hkeeps _ (.refl p _),
      hkeeps _ (after_agreesOn h p).symm, hkeeps' _ (.refl p _), List.filter_comm]

end Leaf

end Cardplay

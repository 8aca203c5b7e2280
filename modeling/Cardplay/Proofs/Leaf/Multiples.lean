import Cardplay.Proofs.Leaf.Drawing
import Mathlib.Logic.Function.Iterate

/-!
# A leaf done again

What a leaf makes of a player, done once more to what it made, is what the leaf of the two amounts together makes
of the player. A damage stops at zero, a healing at the highest health and a draw at the last card, each for good,
and what is set is set again. So a leaf that is done `n` times makes of a player what its `n`-th multiple makes
(`Leaf.after_iterate`), and the players who afford it every time are those who afford the multiple
(`Leaf.affordable_multiple_iff`).
-/

set_option autoImplicit false

namespace Cardplay

theorem OrderedMap.insert_insert {α : Type} (m : OrderedMap α) (key : String) (x y : α) :
    (m.insert key x).insert key y = m.insert key y := by
  refine ext_of_get? ?_ fun other => ?_
  · have hm : key ∈ (m.insert key x).keys := mem_keys_iff.mpr ⟨x, get?_insert_self m key x⟩
    rw [keys_insert, if_pos hm, keys_insert, keys_insert]
  · by_cases h : other = key
    · rw [h, get?_insert_self, get?_insert_self]
    · rw [get?_insert_of_ne _ h, get?_insert_of_ne _ h, get?_insert_of_ne _ h]

namespace Player
variable {p : Player} {name : String} {x y : Int}

/-- The player with that health, the very same one who has it already. -/
def withHealth (p : Player) (x : Int) : Player :=
  if x = p.health then p else p.replace { health := some x }

@[simp] theorem health_withHealth : (p.withHealth x).health = x := by
  unfold withHealth
  split
  · rename_i h
    exact h.symm
  · rfl

@[simp] theorem maxHealth_withHealth : (p.withHealth x).maxHealth = p.maxHealth := by
  unfold withHealth
  split <;> rfl

/-- Of two changes of health the last counts, if the first is none where both together are. -/
theorem withHealth_withHealth (h : y = p.health → x = p.health) :
    (p.withHealth x).withHealth y = p.withHealth y := by
  by_cases hx : x = p.health
  · simp [withHealth, hx]
  · have hy : y ≠ p.health := mt h hx
    by_cases hxy : y = x <;> simp [withHealth, hx, hy, hxy, replace, Changes.settled]

def withResource (p : Player) (name : String) (x : Int) : Player :=
  p.replace { resources := some (p.resources.insert name x) }

@[simp] theorem resource_withResource : (p.withResource name x).resource name = x := by
  simp [withResource, replace, resource]

theorem withResource_withResource :
    (p.withResource name x).withResource name y = p.withResource name y := by
  simp [withResource, replace, Changes.settled, OrderedMap.insert_insert]

/-- What is drawn depends on the zones only. -/
theorem holding_run (n : Nat) (pull : Pull) :
    (p.holding pull).holding (Pull.run n (.ofPlayer (p.holding pull))) = p.holding (Pull.run n pull) := by
  rw [Pull.run_eq, Pull.run_eq]
  rfl

end Player

namespace Leaf
variable {p : Player} {m n : Nat}

theorem after_damage (target : TargetIn damageTargets) :
    (damage n target).after p = p.withHealth (p.health - min (n : Int) p.health) := by
  by_cases h : min (n : Int) p.health = 0
  · simp [after, changed?, Player.withHealth, h]
  · have hmoved : p.health - min (n : Int) p.health ≠ p.health := by omega
    simp only [after, changed?, Player.withHealth, h, hmoved, if_false]
    rfl

theorem after_heal (target : TargetIn healTargets) :
    (heal n target).after p = p.withHealth (p.health + min (n : Int) (p.maxHealth - p.health)) := by
  by_cases h : min (n : Int) (p.maxHealth - p.health) = 0
  · simp [after, changed?, Player.withHealth, h]
  · have hmoved : p.health + min (n : Int) (p.maxHealth - p.health) ≠ p.health := by omega
    simp only [after, changed?, Player.withHealth, h, hmoved, if_false]
    rfl

theorem after_resource (name : String) (operation : ResourceOperation) (target : TargetIn singleTargets) :
    (resource name n operation target).after p =
      p.withResource name (operation.result n (p.resource name)) :=
  rfl

theorem after_damage_damage (hp : p.Valid) (target : TargetIn damageTargets) :
    (damage n target).after ((damage m target).after p) = (damage (m + n) target).after p := by
  have hhealth := hp.health_nonneg
  rw [after_damage, after_damage, after_damage, Player.health_withHealth, Player.withHealth_withHealth]
  · congr 1
    omega
  · omega

theorem after_heal_heal (hp : p.Valid) (target : TargetIn healTargets) :
    (heal n target).after ((heal m target).after p) = (heal (m + n) target).after p := by
  have hhealth := hp.health_le
  rw [after_heal, after_heal, after_heal, Player.health_withHealth, Player.maxHealth_withHealth,
    Player.withHealth_withHealth]
  · congr 1
    omega
  · omega

theorem after_draw_draw (target : TargetIn singleTargets) :
    (draw n target).after ((draw m target).after p) = (draw (m + n) target).after p := by
  rw [after_draw, after_draw, after_draw, Player.holding_run, Pull.run_add]

theorem after_resource_resource {k : Nat} {name : String} {operation : ResourceOperation}
    (h : ∀ held, operation.result n (operation.result m held) = operation.result k held)
    (target : TargetIn singleTargets) : (resource name n operation target).after
        ((resource name m operation target).after p) = (resource name k operation target).after p := by
  rw [after_resource, after_resource, after_resource, Player.resource_withResource, h,
    Player.withResource_withResource]

/-- The leaf with its amount or count multiplied, but what a resource is set to stays. -/
def multiple (n : Nat) : Leaf → Leaf
  | damage amount target => damage (n * amount) target
  | heal amount target => heal (n * amount) target
  | draw count target => draw (n * count) target
  | resource name amount .gain target => resource name (n * amount) .gain target
  | resource name amount .spend target => resource name (n * amount) .spend target
  | resource name amount .set target => resource name amount .set target

@[simp] theorem target_multiple (n : Nat) (l : Leaf) : (l.multiple n).target = l.target := by
  cases l with
  | resource name amount operation target => cases operation <;> rfl
  | _ => rfl

theorem multiple_one (l : Leaf) : l.multiple 1 = l := by
  cases l with
  | resource name amount operation target => cases operation <;> simp [multiple]
  | _ => simp [multiple]

/-- The leaf done once more to what a multiple of it has made. -/
theorem after_multiple (hp : p.Valid) (n : Nat) (l : Leaf) :
    l.after ((l.multiple n).after p) = (l.multiple (n + 1)).after p := by
  cases l with
  | damage amount target => simp only [multiple, after_damage_damage hp, Nat.succ_mul]
  | heal amount target => simp only [multiple, after_heal_heal hp, Nat.succ_mul]
  | draw count target => simp only [multiple, after_draw_draw, Nat.succ_mul]
  | resource name amount operation target =>
    cases operation with
    | gain =>
      refine after_resource_resource (fun held => ?_) target
      simp only [ResourceOperation.result, Nat.succ_mul]
      omega
    | spend =>
      refine after_resource_resource (fun held => ?_) target
      simp only [ResourceOperation.result, Nat.succ_mul]
      omega
    | set => exact after_resource_resource (fun held => rfl) target

/-- A leaf that is done again and again makes of a player what one leaf makes. -/
theorem after_iterate (hn : 1 ≤ n) (hp : p.Valid) (l : Leaf) :
    l.after^[n] p = (l.multiple n).after p := by
  induction n, hn using Nat.le_induction with
  | base => rw [multiple_one, Function.iterate_one]
  | succ n hn ih => rw [Function.iterate_succ_apply', ih, after_multiple hp]

/-- What has been spent after any number of times, whether or not it could be afforded. -/
theorem resource_spent (name : String) (amount n : Nat) (target : TargetIn singleTargets) (p : Player) :
    ((resource name amount .spend target).after^[n] p).resource name = p.resource name - (n * amount : Nat) := by
  induction n with
  | zero => simp
  | succ n ih =>
    rw [Function.iterate_succ_apply', after_resource, Player.resource_withResource, ih, Nat.succ_mul]
    simp only [ResourceOperation.result]
    omega

theorem affordable_of_not_spends {l : Leaf} (h : ∀ name amount target, l ≠ resource name amount .spend target)
    (p : Player) : l.Affordable p := by
  cases l with
  | resource name amount operation target =>
    cases operation with
    | spend => exact absurd rfl (h name amount target)
    | _ => trivial
  | _ => trivial

/-- A player who affords the multiple affords the leaf all the times, one after the other. -/
theorem affordable_multiple_iff (hn : 1 ≤ n) (l : Leaf) (p : Player) :
    (l.multiple n).Affordable p ↔ ∀ i < n, l.Affordable (l.after^[i] p) := by
  cases l with
  | resource name amount operation target =>
    cases operation with
    | spend =>
      simp only [multiple, Affordable, resource_spent]
      constructor
      · intro h i hi
        have hle : (i + 1) * amount ≤ n * amount := Nat.mul_le_mul_right amount hi
        rw [Nat.succ_mul] at hle
        omega
      · intro h
        obtain ⟨n, rfl⟩ := Nat.exists_eq_add_of_le' hn
        have hlast := h n (Nat.lt_succ_self n)
        rw [Nat.succ_mul]
        omega
    | _ => exact iff_of_true trivial fun i hi => trivial
  | _ => exact iff_of_true trivial fun i hi => trivial

/-- Where it can be afforded for the last time, less than the amount is left: the remainder. -/
theorem resource_left {name : String} {amount : Nat} {target : TargetIn singleTargets}
    (h0 : 0 ≤ p.resource name)
    (ha : ∀ i < n, (resource name amount .spend target).Affordable
      ((resource name amount .spend target).after^[i] p))
    (hn : ¬ (resource name amount .spend target).Affordable
      ((resource name amount .spend target).after^[n] p)) :
    ((resource name amount .spend target).after^[n] p).resource name = p.resource name % amount := by
  have hless : p.resource name - (n * amount : Nat) < amount := by
    simpa only [Affordable, resource_spent, Int.not_le] using hn
  have hleft : 0 ≤ p.resource name - (n * amount : Nat) := by
    rcases Nat.eq_zero_or_pos n with rfl | hpos
    · simpa using h0
    · have hall := (affordable_multiple_iff hpos (resource name amount .spend target) p).mpr ha
      exact Int.sub_nonneg_of_le hall
  rw [resource_spent, ← Int.emod_eq_of_lt hleft hless, Int.natCast_mul, Int.sub_mul_emod_self_right]

end Leaf

end Cardplay

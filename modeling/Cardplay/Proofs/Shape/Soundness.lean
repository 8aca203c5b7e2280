import Cardplay.Proofs.Execution.Pipelines
import Cardplay.Proofs.Shape.Walk
import Cardplay.Proofs.State.MergeLaws

/-!
# What a shape rules out

A leaf changes of a player what its kind is for: the cards, the resources, or the health in one direction
(`Leaf.Touch.spares`). Where nothing is chosen while a tree runs, the leaves that are visited are of kinds that
the counts report, so whatever the other kinds are for is left alone by every execution
(`Effect.execute_within_counts`).
-/

set_option autoImplicit false

namespace Cardplay

/-- What may be made of a player without leaves of the absent kinds. -/
structure Player.Spares (absent : EffectKind → Prop) (p q : Player) : Prop where
  progress : p.Progress q
  zones : absent .draw → q.hand = p.hand ∧ q.deck = p.deck ∧ q.discard = p.discard
  resources : absent .resource → q.resources = p.resources
  unhealed : absent .heal → p.Valid → q.health ≤ p.health
  unharmed : absent .damage → p.Valid → p.health ≤ q.health

namespace Player
variable {absent : EffectKind → Prop} {p q r : Player}

theorem Spares.refl (absent : EffectKind → Prop) (p : Player) : p.Spares absent p :=
  ⟨Progress.seatLaw.refl p, fun _ => ⟨rfl, rfl, rfl⟩, fun _ => rfl, fun _ _ => Int.le_refl _,
    fun _ _ => Int.le_refl _⟩

theorem Spares.trans (h : p.Spares absent q) (h' : q.Spares absent r) : p.Spares absent r where
  progress := Progress.seatLaw.trans h.progress h'.progress
  zones ha := by
    obtain ⟨hhand, hdeck, hdiscard⟩ := h.zones ha
    obtain ⟨hhand', hdeck', hdiscard'⟩ := h'.zones ha
    exact ⟨hhand'.trans hhand, hdeck'.trans hdeck, hdiscard'.trans hdiscard⟩
  resources ha := (h'.resources ha).trans (h.resources ha)
  unhealed ha hp := Int.le_trans (h'.unhealed ha (h.progress.valid hp)) (h.unhealed ha hp)
  unharmed ha hp := Int.le_trans (h.unharmed ha hp) (h'.unharmed ha (h.progress.valid hp))

theorem Spares.seatLaw (absent : EffectKind → Prop) : SeatLaw (Spares absent) where
  refl := Spares.refl absent
  trans := Spares.trans
  id_eq h := h.progress.id_eq
  valid h := h.progress.valid

end Player

theorem Leaf.Touch.spares {absent : EffectKind → Prop} {l : Leaf} {p q : Player} (h : l.Touch p q)
    (hl : ¬ absent l.kind) : p.Spares absent q := by
  have hprogress := h.progress
  cases h with
  | damage amount target p =>
    refine ⟨hprogress, fun _ => ⟨rfl, rfl, rfl⟩, fun _ => rfl, fun _ hp => ?_, fun ha => absurd ha hl⟩
    have h0 := hp.health_nonneg
    simp only [Player.replace, Option.getD_some]
    omega
  | heal amount target p =>
    refine ⟨hprogress, fun _ => ⟨rfl, rfl, rfl⟩, fun _ => rfl, fun ha => absurd ha hl, fun _ hp => ?_⟩
    have hle := hp.health_le
    simp only [Player.replace, Option.getD_some]
    omega
  | draw count target p =>
    exact ⟨hprogress, fun ha => absurd ha hl, fun _ => rfl, fun _ _ => Int.le_refl _,
      fun _ _ => Int.le_refl _⟩
  | _ =>
    exact ⟨hprogress, fun _ => ⟨rfl, rfl, rfl⟩, fun ha => absurd ha hl, fun _ _ => Int.le_refl _,
      fun _ _ => Int.le_refl _⟩

namespace GameState
variable {base : GameState} {siblings : List GameState}

theorem merged_of_forall_eq (h : ∀ s ∈ siblings, s = base) : base.merged siblings = {} := by
  unfold merged
  induction siblings with
  | nil => rfl
  | cons s rest ih =>
    obtain ⟨rfl, hrest⟩ := List.forall_mem_cons.mp h
    rw [List.foldl_cons, replaced_self]
    exact ih hrest

/-- Members that all hand back what they were given are merged to just that. -/
theorem eq_lasting : Lasting (fun _ => True) fun s t : GameState => t = s where
  refl _ := rfl
  trans h h' := h'.trans h
  keeps _ _ := trivial
  merge _ h ht := by
    rw [merge, merged_of_forall_eq h] at ht
    cases ht
    rfl

end GameState

namespace Effect
variable {e : Effect} {c : Context} {run run' : Run} {r : Result} {absent : EffectKind → Prop}

theorem Static.native (he : e.Static) : e.Native := by
  intro x hx
  obtain ⟨kind, hkind, _⟩ := he x hx
  simp [hkind]

theorem Static.spares (he : e.Static)
    (ha : ∀ kind, absent kind → e.Throughout fun x => x.kind? ≠ some kind)
    (hc : c.state.Valid) (h : e.execute c run = .ok r run') :
    c.state.SeatWise (Player.Spares absent) r.state := by
  refine he.native.seatWise (Player.Spares.seatLaw absent) hc h fun l hl p q ht => ?_
  obtain ⟨v, hv, heq⟩ := hl
  refine ht.spares fun habsent => ?_
  have hkind := (ha l.kind habsent).visits c run v hv
  rw [heq] at hkind
  exact hkind rfl

/-- A tree without leaves succeeds and hands back what it was given. -/
theorem idle (hnone : e.Throughout fun x => x.isLeaf = false) (h : e.execute c run = .ok r run') :
    r.success = true ∧ r.state = c.state := by
  have hvisits := hnone.visits c run
  have hleaf (v : Visit) (hv : v ∈ e.visits c run) (hl : v.effect.isLeaf = true) : False := by
    rw [hvisits v hv] at hl
    cases hl
  refine ⟨(explained h).success_iff.mpr (Visit.firstFailed?_eq_none_iff.mpr ?_), ?_⟩
  · intro v hv hl
    exact (hleaf v hv hl).elim
  · exact kept_by_leaves GameState.eq_lasting h trivial fun v hv hl => (hleaf v hv hl).elim

theorem Static.leafless (he : e.Static) (hnone : ∀ kind ∈ [.damage, .heal, .draw, .resource],
    e.Throughout fun x => x.kind? ≠ some kind) : e.Throughout fun x => x.isLeaf = false := by
  intro x hx
  refine Bool.eq_false_iff.mpr fun hl => ?_
  obtain ⟨l, rfl⟩ := exists_leaf (he.native x hx) hl
  exact hnone l.kind (by cases l <;> simp [Leaf.kind]) _ hx rfl

end Effect

namespace Duel

/-- Nobody draws or is harmed, whatever the condition says. -/
def supper : Effect := .parallel [.repeated bandage 2,
  .conditional (.leaf (.resource "mana" 2 .gain toSelf)) never]

theorem leaf_static (l : Leaf) : (Effect.leaf l).Static :=
  .of_inside ⟨l.kind, rfl, by cases l <;> simp [Leaf.kind]⟩ fun x hx => by cases hx

theorem supper_static : supper.Static := by
  refine .of_inside ⟨.parallel, rfl, by decide⟩ fun x hx => ?_
  cases hx with
  | parallel hm =>
    rcases List.mem_pair.mp hm with rfl | rfl
    · refine .of_inside ⟨.repeated, rfl, by decide⟩ fun x hx => ?_
      cases hx with
      | repeated => exact leaf_static _
    · refine .of_inside ⟨.conditional, rfl, by decide⟩ fun x hx => ?_
      cases hx with
      | conditional => exact leaf_static _

end Duel

namespace Effect
variable {e : Effect} {c : Context} {run run' : Run} {r : Result}

/-- The counts of a tree in which nothing is chosen bound what an execution does at a valid table. Without a
draw all cards stay where they are, without a resource effect all resources stay, without a heal no health
rises and without damage none falls. A tree without any leaf succeeds and hands back what it was given. -/
theorem execute_within_counts (he : e.Static) (hc : c.state.Valid) (h : e.execute c run = .ok r run') :
    ∃ counts, e.countKinds = .ok counts ∧ r.state.playerIds = c.state.playerIds ∧
      (∀ id p, c.state.player? id = some p → ∃ q, r.state.player? id = some q ∧
        (countOf counts .draw = 0 → q.hand = p.hand ∧ q.deck = p.deck ∧ q.discard = p.discard) ∧
        (countOf counts .resource = 0 → q.resources = p.resources) ∧
        (countOf counts .heal = 0 → q.health ≤ p.health) ∧
        (countOf counts .damage = 0 → p.health ≤ q.health)) ∧
      ((∀ kind ∈ [.damage, .heal, .draw, .resource], countOf counts kind = 0) →
        r.success = true ∧ r.state = c.state) := by
  obtain ⟨counts, hcounts, hzero⟩ := he.counts
  have hseats := he.spares (fun kind => (hzero kind).mp) hc h
  refine ⟨counts, hcounts, hseats.seats.keys_eq, ?_, ?_⟩
  · intro id p hp
    obtain ⟨q, hq, hspares⟩ := hseats.seats.related id p hp
    have hvalid := (hc.player hp).2
    exact ⟨q, hq, hspares.zones, hspares.resources, fun ha => hspares.unhealed ha hvalid,
      fun ha => hspares.unharmed ha hvalid⟩
  · intro hnone
    exact idle (he.leafless fun kind hk => (hzero kind).mp (hnone kind hk)) h

theorem execute_within_counts_supper : Duel.supper.Static ∧ Duel.table.Valid ∧ ∃ r run',
    Duel.supper.execute (Duel.context "ann") default = .ok r run' ∧
      ∃ q, r.state.player? "ann" = some q ∧ q.hand = Duel.ann.hand ∧ q.deck = Duel.ann.deck ∧
        q.discard = Duel.ann.discard ∧ Duel.ann.health ≤ q.health := by
  obtain ⟨r, run', h⟩ : ∃ r run', Duel.supper.execute (Duel.context "ann") default = .ok r run' :=
    ⟨_, _, rfl⟩
  obtain ⟨counts, hcounts, _, hplayers, _⟩ := execute_within_counts Duel.supper_static Duel.table_valid h
  obtain ⟨q, hq, hdraw, _, _, hdamage⟩ := hplayers "ann" Duel.ann rfl
  have hcount : Duel.supper.countKinds =
      .ok (countLabels .empty ["parallel", "repeated", "heal", "conditional", "resource"]) := rfl
  cases hcounts.symm.trans hcount
  obtain ⟨hhand, hdeck, hdiscard⟩ := hdraw (by decide +kernel)
  exact ⟨Duel.supper_static, Duel.table_valid, r, run', h, q, hq, hhand, hdeck, hdiscard,
    hdamage (by decide +kernel)⟩

end Effect

end Cardplay

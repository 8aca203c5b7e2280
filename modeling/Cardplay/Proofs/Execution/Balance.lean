import Cardplay.Proofs.Execution.Conservation
import Cardplay.Proofs.Execution.Independence
import Cardplay.Proofs.Execution.Upkeep
import Mathlib.Algebra.Order.Ring.Nat

/-!
# The resources of an execution

What a player holds of a resource is never spent below zero and no name is ever lost; names that are new come
after those that were there. Where nothing is set and no group runs side by side, an execution keeps a book: each
visit finds the amount that the visits before it have left, which is what was held at first with all gains added
and all spendings taken away that succeeded (`Effect.execute_balances`).
-/

set_option autoImplicit false

namespace Cardplay

/-- What library effects may make of the resources of a player. -/
structure Player.Accrues (p q : Player) : Prop where
  progress : p.Progress q
  names : p.resources.keys <+: q.resources.keys
  nonneg : ∀ name, 0 ≤ p.resource name → 0 ≤ q.resource name

namespace Player
variable {p q : Player} {name : String} {x : Int}

theorem Accrues.seatLaw : SeatLaw Accrues where
  refl p := ⟨Progress.seatLaw.refl p, List.prefix_rfl, fun _ h => h⟩
  trans h h' := ⟨Progress.seatLaw.trans h.progress h'.progress, h.names.trans h'.names,
    fun name h0 => h'.nonneg name (h.nonneg name h0)⟩
  id_eq h := h.progress.id_eq
  valid h := h.progress.valid

theorem Accrues.of_resources_eq (h : p.Progress q) (heq : q.resources = p.resources) : p.Accrues q := by
  refine ⟨h, ⟨[], by rw [heq, List.append_nil]⟩, fun name h0 => ?_⟩
  rwa [resource, heq]

theorem Accrues.withResource (h : p.Progress (p.withResource name x)) (h0 : 0 ≤ p.resource name → 0 ≤ x) :
    p.Accrues (p.withResource name x) := by
  refine ⟨h, ?_, fun other hother => ?_⟩
  · have hkeys : (p.withResource name x).resources.keys = (p.resources.insert name x).keys := rfl
    rw [hkeys, OrderedMap.keys_insert]
    split
    · exact List.prefix_rfl
    · exact List.prefix_append ..
  · by_cases heq : other = name
    · subst heq
      rw [resource_withResource]
      exact h0 hother
    · have hsame := withResource_agreesOn (p := p) (y := x) fun h => heq (Aspect.resource.inj h)
      rwa [resource_eq hsame]

end Player

theorem Leaf.Touch.accrues {l : Leaf} {p q : Player} (h : l.Touch p q) : p.Accrues q := by
  have hprogress := h.progress
  cases h with
  | damage amount target p => exact .of_resources_eq hprogress rfl
  | heal amount target p => exact .of_resources_eq hprogress rfl
  | draw count target p => exact .of_resources_eq hprogress rfl
  | gain name amount target p => exact .withResource hprogress fun h0 => by omega
  | spend name amount target p affordable => exact .withResource hprogress fun _ => by omega
  | set name amount target p => exact .withResource hprogress fun _ => Int.natCast_nonneg amount

/-- What the player holds of that name; who has no seat holds nothing. -/
def GameState.amount (s : GameState) (id name : String) : Int := (s.player? id).elim 0 fun p => p.resource name

theorem GameState.amount_adjust {s t : GameState} {ids : List String} {f : Player → Player} {delta : Int}
    {id name : String} (ht : t.toTable = s.toTable.adjust ids f)
    (h : ∀ p, s.player? id = some p → (if id ∈ ids then f p else p).resource name = p.resource name + delta)
    (hnone : s.player? id = none → delta = 0) : t.amount id name = s.amount id name + delta := by
  have hget : t.player? id = (s.player? id).map fun p => if id ∈ ids then f p else p := by
    rw [player?, ht, Table.get?_adjust]
    rfl
  rw [amount, amount, hget]
  cases hp : s.player? id with
  | none => simp [hnone hp]
  | some p => simpa using h p hp

/-- Whether it sets a resource, whatever was held. -/
def Effect.isSetting : Effect → Bool
  | leaf (.resource _ _ .set _) => true
  | _ => false

namespace Leaf
variable {l : Leaf}

/-- By how much a leaf that sets nothing changes what a player on whom it works holds of that name. -/
def delta (name : String) : Leaf → Int
  | resource other amount .gain _ => if other = name then amount else 0
  | resource other amount .spend _ => if other = name then -amount else 0
  | _ => 0

theorem resource_after (hl : (Effect.leaf l).isSetting = false) (name : String) (p : Player) :
    (l.after p).resource name = p.resource name + l.delta name := by
  have hother (h : l.aspect ≠ .resource name) : (l.after p).resource name = p.resource name :=
    Player.resource_eq (after_agreesOn h.symm p)
  cases l with
  | resource other amount operation target =>
    by_cases hname : other = name
    · subst hname
      cases operation with
      | gain => simp [after_resource, ResourceOperation.result, delta]
      | spend => simp [after_resource, ResourceOperation.result, delta, Int.sub_eq_add_neg]
      | set => cases hl
    · rw [hother fun h => hname (Aspect.resource.inj h)]
      cases operation <;> simp [delta, hname]
  | _ => simpa [delta] using hother (by simp [aspect])

end Leaf

namespace Call
variable {k : Call} {operation : ResourceOperation} {id name : String}

/-- What is booked on the player under that name: the amount of a leaf of that operation that succeeds for the
player. -/
def booked? (operation : ResourceOperation) (id name : String) (k : Call) : Option Nat :=
  match k.effect with
  | .leaf l@(.resource _ amount op _) =>
    if op = operation ∧ k.succeeded ∧ (id, .resource name) ∈ l.footprint k.context.playerId k.context.state
    then some amount else none
  | _ => none

/-- By how much the call changes what the player holds of that name. -/
def change (id name : String) (k : Call) : Int :=
  ((k.booked? .gain id name).getD 0 : Nat) - ((k.booked? .spend id name).getD 0 : Nat)

theorem booked?_eq_none (h : k.effect.isLeaf = false ∨ k.succeeded = false) :
    k.booked? operation id name = none := by
  unfold booked?
  split
  · rename_i heq
    have hfailed : k.succeeded = false := h.resolve_left (by simp [heq, Effect.isLeaf])
    simp [hfailed]
  · rfl

theorem change_eq_zero (h : k.effect.isLeaf = false ∨ k.succeeded = false) : k.change id name = 0 := by
  rw [change, booked?_eq_none h, booked?_eq_none h]
  rfl

/-- What is spent was held. -/
theorem le_amount_of_booked? {amount : Nat} (h : k.booked? .spend id name = some amount) :
    (amount : Int) ≤ k.context.state.amount id name := by
  unfold booked? at h
  split at h
  · rename_i other price op target heq
    obtain ⟨⟨rfl, hsucceeded, hfootprint⟩, hprice⟩ := Option.ite_none_right_eq_some.mp h
    obtain rfl := Option.some.inj hprice
    obtain ⟨r, run', hout, hr⟩ := succeeded_iff.mp hsucceeded
    rw [outcome, heq] at hout
    obtain ⟨seats, hresolve, hafford⟩ := Leaf.affordable_of_succeeded hout hr
    obtain ⟨hid, hname⟩ := (Leaf.mem_footprint_iff hresolve).mp hfootprint
    obtain rfl := Aspect.resource.inj hname
    obtain ⟨p, hm, hget⟩ := Target.exists_player hresolve hid
    rw [GameState.amount, hget]
    exact hafford _ hm
  · cases h

theorem change_eq_delta {l : Leaf} {c : Context} {run : Run} {seats : List Seat}
    (hs : Call.succeeded ⟨.leaf l, c, run⟩ = true) (hr : l.target.resolve c.playerId c.state = .ok seats) :
    change id name ⟨.leaf l, c, run⟩ = if id ∈ seats.map Prod.fst then l.delta name else 0 := by
  cases l with
  | resource other amount op target =>
    simp only [change, booked?, hs, Leaf.mem_footprint_iff hr, Leaf.aspect, Aspect.resource.injEq]
    cases op <;> by_cases hid : id ∈ seats.map Prod.fst <;> by_cases hname : other = name <;>
      simp [Leaf.delta, hid, hname]
  | _ => simp [change, booked?, Leaf.delta]

end Call

namespace Leaf
variable {l : Leaf} {id name : String} {c : Context} {run run' : Run} {r : Result}

/-- A leaf that sets nothing changes by just what it books what anyone holds. -/
theorem amount_execute (hs : c.state.Valid) (hl : (Effect.leaf l).isSetting = false)
    (h : l.execute c run = .ok r run') :
    r.state.Valid ∧ ∀ id name,
      r.state.amount id name = c.state.amount id name + Call.change id name ⟨.leaf l, c, run⟩ := by
  have hresult : Call.result? ⟨.leaf l, c, run⟩ = some r := Call.result?_eq_some_iff.mpr ⟨run', h⟩
  have hsucceeded := Call.succeeded_eq hresult
  cases hr : r.success with
  | false =>
    rw [hr] at hsucceeded
    rw [(execute_failed h hr).1]
    refine ⟨hs, fun id name => ?_⟩
    rw [Call.change_eq_zero (.inr hsucceeded), Int.add_zero]
  | true =>
    rw [hr] at hsucceeded
    obtain ⟨seats, hresolve, hafford⟩ := affordable_of_succeeded h hr
    obtain ⟨t, hworks, htable, ht, _⟩ := execute_works hs hresolve hafford run
    rw [hworks] at h
    cases h
    refine ⟨ht, fun id name => GameState.amount_adjust htable ?_ ?_⟩
    · intro p _
      rw [Call.change_eq_delta hsucceeded hresolve]
      split
      · exact resource_after hl name p
      · exact (Int.add_zero _).symm
    · intro hnone
      rw [Call.change_eq_delta hsucceeded hresolve, if_neg]
      intro hid
      obtain ⟨p, _, hget⟩ := Target.exists_player hresolve hid
      rw [hnone] at hget
      cases hget

end Leaf

/-- All that the visits book on the player under that name for the operation. -/
def total (operation : ResourceOperation) (id name : String) (vs : List Visit) : Nat :=
  (vs.filterMap fun v => v.toCall.booked? operation id name).sum

theorem total_cons (operation : ResourceOperation) (id name : String) (v : Visit) (vs : List Visit) :
    total operation id name (v :: vs) =
      (v.toCall.booked? operation id name).getD 0 + total operation id name vs := by
  unfold total
  cases h : v.toCall.booked? operation id name with
  | none => simp [h]
  | some amount => simp [h]

/-- A book on what the player holds of that name: every visit begins with what the one before it left, and the last
one leaves the final amount. -/
inductive Booked (id name : String) : Int → List Visit → Int → Prop
  | nil (held : Int) : Booked id name held [] held
  | cons {v : Visit} {vs : List Visit} {held final : Int} (h : v.context.state.amount id name = held)
      (rest : Booked id name (held + v.toCall.change id name) vs final) :
      Booked id name held (v :: vs) final

namespace Booked
variable {id name : String} {held mid final : Int} {v : Visit} {vs ws : List Visit}

theorem append (h : Booked id name held vs mid) (h' : Booked id name mid ws final) :
    Booked id name held (vs ++ ws) final := by
  induction h with
  | nil => exact h'
  | cons h _ ih => exact .cons h (ih h')

theorem inside (k : Call) (h : Booked id name held vs final) :
    Booked id name held (vs.map (Visit.inside k)) final := by
  induction h with
  | nil held => exact .nil held
  | cons h _ ih => exact .cons h ih

/-- What is there at the end is what was held with all gains added and all spendings taken away. -/
theorem final_eq (h : Booked id name held vs final) :
    final = held + total .gain id name vs - total .spend id name vs := by
  induction h with
  | nil held => simp [total]
  | cons _ _ ih =>
    rw [ih, total_cons, total_cons, Call.change]
    omega

theorem until_visit (h : Booked id name held (vs ++ v :: ws) final) :
    Booked id name held vs (v.context.state.amount id name) := by
  induction vs generalizing held with
  | nil =>
    cases h with
    | cons h rest =>
      rw [h]
      exact .nil held
  | cons w vs ih =>
    cases h with
    | cons h rest => exact .cons h (ih rest)

end Booked

/-- Whether the call can be booked: not if it sets a resource, if states are merged or if the effect is foreign. -/
structure Call.Bookable (k : Call) : Prop where
  native : k.effect.kind? ≠ none
  single : k.effect.isParallel = false
  unset : k.effect.isSetting = false

def booking (id name : String) : Account := fun _ c _ vs r _ => c.state.Valid →
  (∀ v ∈ vs, v.toCall.Bookable) →
    r.state.Valid ∧ Booked id name (c.state.amount id name) vs (r.state.amount id name)

theorem booking_law (id name : String) : TourLaw (booking id name) where
  leaf := by
    intro e c run r run' he h hc hvs
    have hbook := hvs _ List.mem_cons_self
    obtain ⟨l, rfl⟩ := Effect.exists_leaf hbook.native he
    obtain ⟨hvalid, hamount⟩ := Leaf.amount_execute hc hbook.unset h
    refine ⟨hvalid, .cons rfl ?_⟩
    rw [hamount id name]
    exact .nil _
  nothing _ c _ hc _ := ⟨hc, .nil _⟩
  next := by
    intro group c run mid run' vs ws first last hfirst _ hlast hc hvs
    obtain ⟨hleft, hright⟩ := List.forall_mem_append.mp hvs
    obtain ⟨hvalid, hbooked⟩ := hfirst hc hleft
    obtain ⟨hvalid', hbooked'⟩ := hlast hvalid hright
    exact ⟨hvalid', hbooked.append hbooked'⟩
  stop hfirst _ := hfirst
  enter := by
    intro e inner c run r run' hleaf _ _ h hc hvs
    obtain ⟨hvalid, hbooked⟩ := h hc fun v hv => hvs (v.inside ⟨e, c, run⟩) (Tour.inside_mem_enter e hv)
    refine ⟨hvalid, .cons rfl ?_⟩
    rw [Call.change_eq_zero (.inl hleaf), Int.add_zero]
    exact hbooked.inside _
  declined := by
    intro child holds c run g _ hc _
    refine ⟨hc, .cons rfl ?_⟩
    rw [Call.change_eq_zero (.inl rfl), Int.add_zero]
    exact .nil _
  parallel := by
    -- The group is its own first visit, and it cannot be booked.
    intro children c run r run' _ _ _ hvs
    rw [Effect.visits_parallel] at hvs
    cases (hvs _ List.mem_cons_self).single
  drawn h := h
  valued h := h

namespace Duel

/-- Ann holds one and gains two more, so the second of the three fees is one too many. -/
def budget : Effect := .chained (.leaf (.resource "mana" 2 .gain toSelf)) fun _ g =>
  .ok (.repeated (.leaf (.resource "mana" 2 .spend toSelf)) 3) g

theorem budget_library : budget.Library := by
  refine .chained (.leaf trivial) (fun r g => ⟨_, _, rfl⟩) ?_
  rintro r g e g' ⟨⟩
  exact .repeated (.leaf trivial) (by decide)

end Duel

namespace Effect
variable {e : Effect} {c : Context} {run run' : Run} {r : Result}

/-- At a valid table no execution of library nodes brings a resource below zero that was not, or loses a name; the
names that were there come first, in their order. Nothing is spent that is not held at that moment. If nothing is
set and no group runs side by side, everyone ends up with what was held at first, all gains that succeeded added
and all spendings that succeeded taken away, and so it is before each visit with the visits that come before. -/
theorem execute_balances (he : e.Native) (hc : c.state.Valid) (h : e.execute c run = .ok r run') :
    r.state.playerIds = c.state.playerIds ∧
    (∀ id p, c.state.player? id = some p → ∃ q, r.state.player? id = some q ∧
      p.resources.keys <+: q.resources.keys ∧ ∀ name, 0 ≤ p.resource name → 0 ≤ q.resource name) ∧
    (∀ v ∈ e.visits c run, ∀ id name amount, v.booked? .spend id name = some amount →
      (amount : Int) ≤ v.context.state.amount id name) ∧
    ((∀ v ∈ e.visits c run, v.effect.isParallel = false ∧ v.effect.isSetting = false) →
      ∀ id name, r.state.amount id name = c.state.amount id name +
          total .gain id name (e.visits c run) - total .spend id name (e.visits c run) ∧
        ∀ before v after, e.visits c run = before ++ v :: after → v.context.state.amount id name =
          c.state.amount id name + total .gain id name before - total .spend id name before) := by
  have hseats := he.seatWise Player.Accrues.seatLaw hc h fun l _ p q ht => ht.accrues
  refine ⟨hseats.seats.keys_eq, ?_, ?_, ?_⟩
  · intro id p hp
    obtain ⟨q, hq, haccrues⟩ := hseats.seats.related id p hp
    exact ⟨q, hq, haccrues.names, haccrues.nonneg⟩
  · intro v _ id name amount hbooked
    exact Call.le_amount_of_booked? hbooked
  · intro hplain id name
    have hbookable : ∀ v ∈ e.visits c run, v.toCall.Bookable := fun v hv =>
      ⟨he.visits c run v hv, (hplain v hv).1, (hplain v hv).2⟩
    obtain ⟨_, hbooked⟩ := (booking_law id name).holds h hc hbookable
    refine ⟨hbooked.final_eq, fun before v after hsplit => ?_⟩
    rw [hsplit] at hbooked
    exact hbooked.until_visit.final_eq

theorem execute_balances_budget : Duel.budget.Native ∧ Duel.table.Valid ∧ ∃ r run',
    Duel.budget.execute (Duel.context "ann") default = .ok r run' ∧ r.success = false ∧
      total .gain "ann" "mana" (Duel.budget.visits (Duel.context "ann") default) = 2 ∧
      total .spend "ann" "mana" (Duel.budget.visits (Duel.context "ann") default) = 2 ∧
      r.state.amount "ann" "mana" = 1 := by
  obtain ⟨r, run', h, hr⟩ : ∃ r run', Duel.budget.execute (Duel.context "ann") default = .ok r run' ∧
    r.success = false := ⟨_, _, rfl, rfl⟩
  obtain ⟨_, _, _, hbook⟩ := execute_balances Duel.budget_library.native Duel.table_valid h
  have hplain : ∀ v ∈ Duel.budget.visits (Duel.context "ann") default,
      v.effect.isParallel = false ∧ v.effect.isSetting = false := by decide +kernel
  obtain ⟨hfinal, _⟩ := hbook hplain "ann" "mana"
  have hgain : total .gain "ann" "mana" (Duel.budget.visits (Duel.context "ann") default) = 2 := by
    decide +kernel
  have hspend : total .spend "ann" "mana" (Duel.budget.visits (Duel.context "ann") default) = 2 := by
    decide +kernel
  rw [hgain, hspend] at hfinal
  exact ⟨Duel.budget_library.native, Duel.table_valid, r, run', h, hr, hgain, hspend, hfinal⟩

end Effect

end Cardplay

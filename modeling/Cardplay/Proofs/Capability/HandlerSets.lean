import Cardplay.Capability.EventBus
import Mathlib.Logic.Function.Basic

/-!
# Handler sets

How the handler sets of an event bus lie (`Bus.Laid`): a set belongs to one event at most, and it holds no
subscriptions when it is not in use. Subscribing and ending a subscription fill a set anew, open one or give one
up; each of these changes what is live for one event only. As long as no set is opened in vain, a set in use
holds something (`Bus.Full`).
-/

set_option autoImplicit false

namespace Cardplay

namespace Bus
variable {η : Type} {bus : Bus η} {event event' : String} {set other : Nat}
  {subs : List (Subscription η)}

/-- A set in use is one event's; a set that is not in use holds nothing. -/
structure Laid (bus : Bus η) : Prop where
  inRange : ∀ {event set}, bus.inUse.get? event = some set → set < bus.sets.length
  apart : ∀ {event event' set}, bus.inUse.get? event = some set →
    bus.inUse.get? event' = some set → event = event'
  idle : ∀ {set}, (∀ event, bus.inUse.get? event ≠ some set) → bus.members set = []

/-- Every set in use holds something. -/
structure Full (bus : Bus η) : Prop where
  holds : ∀ {event set}, bus.inUse.get? event = some set → bus.members set ≠ []

/-- The bus with other subscriptions in one of its sets. -/
def refill (bus : Bus η) (set : Nat) (subs : List (Subscription η)) : Bus η :=
  { bus with sets := bus.sets.set set subs }

/-- The bus with a new set for the event. -/
def opening (bus : Bus η) (event : String) (subs : List (Subscription η)) : Bus η :=
  { bus with sets := bus.sets ++ [subs], inUse := bus.inUse.insert event bus.sets.length }

/-- The bus without anything in the event's set, which is given up. -/
def closing (bus : Bus η) (event : String) (set : Nat) : Bus η :=
  { bus.refill set [] with inUse := bus.inUse.erase event }

def issuing (bus : Bus η) : Bus η := { bus with issued := bus.issued + 1 }

theorem live_of_inUse (h : bus.inUse.get? event = some set) : bus.live event = bus.members set := by
  rw [live, h]
  rfl

theorem live_of_unused (h : bus.inUse.get? event = none) : bus.live event = [] := by
  rw [live, h]
  rfl

theorem live_congr {bus' : Bus η} (hset : bus'.inUse.get? event = bus.inUse.get? event)
    (hmembers : ∀ set, bus.inUse.get? event = some set → bus'.members set = bus.members set) :
    bus'.live event = bus.live event := by
  cases hin : bus.inUse.get? event with
  | none => rw [live_of_unused hin, live_of_unused (hset.trans hin)]
  | some set => rw [live_of_inUse hin, live_of_inUse (hset.trans hin), hmembers set hin]

theorem members_refill_self (h : set < bus.sets.length) : (bus.refill set subs).members set = subs := by
  simp [refill, members, h]

theorem members_refill_of_ne (h : other ≠ set) :
    (bus.refill set subs).members other = bus.members other := by
  simp only [refill, members, List.getElem?_set_ne h.symm]

theorem members_opening_self : (bus.opening event subs).members bus.sets.length = subs := by
  simp [opening, members]

theorem members_opening_of_ne (h : other ≠ bus.sets.length) :
    (bus.opening event subs).members other = bus.members other := by
  simp only [opening, members]
  rcases Nat.lt_or_gt_of_ne h with hlt | hgt
  · rw [List.getElem?_append_left hlt]
  · have hlen : (bus.sets ++ [subs]).length ≤ other := by
      rw [List.length_append, List.length_singleton]
      omega
    rw [List.getElem?_eq_none hlen, List.getElem?_eq_none (Nat.le_of_lt hgt)]

/-- What is in use when a set was given up was in use before, for another event. -/
theorem inUse_of_closing (h : (bus.closing event set).inUse.get? event' = some other) :
    event' ≠ event ∧ bus.inUse.get? event' = some other := by
  have he : event' ≠ event := by
    rintro rfl
    rw [closing, OrderedMap.get?_erase_self] at h
    cases h
  rw [closing, OrderedMap.get?_erase_of_ne _ he] at h
  exact ⟨he, h⟩

namespace Laid

theorem init : ({} : Bus η).Laid where
  inRange h := by cases h
  apart h := by cases h
  idle _ := rfl

variable (h : bus.Laid)
include h

theorem issuing : bus.issuing.Laid := ⟨h.inRange, h.apart, h.idle⟩

/-- What is in use when a set was opened is that set, or was in use before. -/
theorem inUse_of_opening (hin : (bus.opening event subs).inUse.get? event' = some other) :
    event' = event ∧ other = bus.sets.length ∨
      bus.inUse.get? event' = some other ∧ other < bus.sets.length := by
  by_cases he : event' = event
  · rw [he, Bus.opening, OrderedMap.get?_insert_self] at hin
    exact .inl ⟨he, (Option.some.inj hin).symm⟩
  · rw [Bus.opening, OrderedMap.get?_insert_of_ne _ he] at hin
    exact .inr ⟨hin, h.inRange hin⟩

theorem ne_of_inUse (hin : bus.inUse.get? event = some set) (hin' : bus.inUse.get? event' = some other)
    (hne : event' ≠ event) : other ≠ set := by
  rintro rfl
  exact hne (h.apart hin' hin)

section InUse
variable (hin : bus.inUse.get? event = some set)
include hin

theorem live_refill : (bus.refill set subs).live = Function.update bus.live event subs := by
  funext event'
  by_cases he : event' = event
  · subst he
    have hstill : (bus.refill set subs).inUse.get? event' = some set := hin
    rw [Function.update_self, live_of_inUse hstill, members_refill_self (h.inRange hin)]
  · rw [Function.update_of_ne he]
    refine live_congr rfl fun other hin' => ?_
    exact members_refill_of_ne (h.ne_of_inUse hin hin' he)

theorem refill : (bus.refill set subs).Laid where
  inRange hin' := by
    rw [Bus.refill, List.length_set]
    exact h.inRange hin'
  apart := h.apart
  idle {other} hidle := by
    have ho : other ≠ set := fun heq => hidle event (heq ▸ hin)
    rw [members_refill_of_ne ho]
    exact h.idle hidle

theorem live_closing : (bus.closing event set).live = Function.update bus.live event [] := by
  funext event'
  by_cases he : event' = event
  · subst he
    rw [Function.update_self]
    exact live_of_unused (OrderedMap.get?_erase_self _ _)
  · rw [Function.update_of_ne he]
    refine live_congr (OrderedMap.get?_erase_of_ne _ he) fun other hin' => ?_
    exact members_refill_of_ne (h.ne_of_inUse hin hin' he)

theorem closing : (bus.closing event set).Laid := by
  constructor
  · intro event' other hin'
    rw [Bus.closing, Bus.refill, List.length_set]
    exact h.inRange (inUse_of_closing hin').2
  · intro e e' other he he'
    exact h.apart (inUse_of_closing he).2 (inUse_of_closing he').2
  · intro other hidle
    by_cases ho : other = set
    · rw [ho]
      exact members_refill_self (h.inRange hin)
    · refine (members_refill_of_ne ho).trans (h.idle fun event' hin' => ?_)
      have he : event' ≠ event := by
        rintro rfl
        exact ho (Option.some.inj (hin'.symm.trans hin))
      exact hidle event' ((OrderedMap.get?_erase_of_ne _ he).trans hin')

end InUse

section Unused
variable (hnone : bus.inUse.get? event = none)
include hnone

theorem live_opening : (bus.opening event subs).live = Function.update bus.live event subs := by
  funext event'
  by_cases he : event' = event
  · subst he
    rw [Function.update_self, live_of_inUse (OrderedMap.get?_insert_self ..), members_opening_self]
  · rw [Function.update_of_ne he]
    refine live_congr (OrderedMap.get?_insert_of_ne _ he _) fun other hin' => ?_
    exact members_opening_of_ne (Nat.ne_of_lt (h.inRange hin'))

theorem opening : (bus.opening event subs).Laid := by
  constructor
  · intro event' other hin'
    rw [Bus.opening, List.length_append, List.length_singleton]
    rcases h.inUse_of_opening hin' with ⟨-, rfl⟩ | ⟨-, hlt⟩ <;> omega
  · intro e e' other he he'
    rcases h.inUse_of_opening he with ⟨rfl, ho⟩ | ⟨he, hlt⟩
    · rcases h.inUse_of_opening he' with ⟨rfl, -⟩ | ⟨-, hlt'⟩
      · rfl
      · omega
    · rcases h.inUse_of_opening he' with ⟨-, ho'⟩ | ⟨he', -⟩
      · omega
      · exact h.apart he he'
  · intro other hidle
    have ho : other ≠ bus.sets.length := by
      rintro rfl
      exact hidle event (OrderedMap.get?_insert_self ..)
    rw [members_opening_of_ne ho]
    refine h.idle fun event' hin' => ?_
    have he : event' ≠ event := by
      rintro rfl
      rw [hnone] at hin'
      cases hin'
    exact hidle event' ((OrderedMap.get?_insert_of_ne _ he _).trans hin')

/-- Opening a set in vain leaves what is live. -/
theorem live_opening_nil : (bus.opening event []).live = bus.live := by
  rw [h.live_opening hnone, ← live_of_unused hnone, Function.update_eq_self]

end Unused

end Laid

namespace Full
variable (h : bus.Full)
include h

theorem live_eq_nil_iff : bus.live event = [] ↔ bus.inUse.get? event = none := by
  cases hin : bus.inUse.get? event with
  | none => simp [live_of_unused hin]
  | some set => simp [live_of_inUse hin, h.holds hin]

theorem mem_events_iff : event ∈ bus.events ↔ bus.live event ≠ [] := by
  rw [events, OrderedMap.mem_keys_iff, Ne, h.live_eq_nil_iff, ← Option.isSome_iff_exists]
  simp [Option.isSome_iff_ne_none]

theorem issuing : bus.issuing.Full := ⟨h.holds⟩

theorem refill (hlaid : bus.Laid) (hsubs : subs ≠ []) : (bus.refill set subs).Full := by
  refine ⟨fun {event' other} hin' => ?_⟩
  by_cases ho : other = set
  · rw [ho, members_refill_self (hlaid.inRange (ho ▸ hin'))]
    exact hsubs
  · rw [members_refill_of_ne ho]
    exact h.holds hin'

theorem closing (hlaid : bus.Laid) (hin : bus.inUse.get? event = some set) :
    (bus.closing event set).Full := by
  refine ⟨fun {event' other} hin' => ?_⟩
  obtain ⟨he, hin'⟩ := inUse_of_closing hin'
  have hsame : (bus.closing event set).members other = bus.members other :=
    members_refill_of_ne (hlaid.ne_of_inUse hin hin' he)
  rw [hsame]
  exact h.holds hin'

theorem opening (hlaid : bus.Laid) (hsubs : subs ≠ []) : (bus.opening event subs).Full := by
  refine ⟨fun {event' other} hin' => ?_⟩
  rcases hlaid.inUse_of_opening hin' with ⟨-, rfl⟩ | ⟨hin', hlt⟩
  · rw [members_opening_self]
    exact hsubs
  · rw [members_opening_of_ne (Nat.ne_of_lt hlt)]
    exact h.holds hin'

end Full

theorem setFor_of_inUse (hin : bus.inUse.get? event = some set) : bus.setFor event = (set, bus) := by
  simp only [setFor, hin]

theorem setFor_of_unused (hnone : bus.inUse.get? event = none) :
    bus.setFor event = (bus.sets.length, bus.opening event []) := by
  simp only [setFor, hnone, opening]

section Subscribe
variable [DecidableEq η] {handler : η} {handle : Handle η} {s : Subscription η}

theorem subscribe_of_subscribed (hin : bus.inUse.get? event = some set)
    (hfind : (bus.members set).find? (fun s => s.handler = handler) = some s) :
    bus.subscribe event handler = (bus, ⟨event, handler, set, s.number⟩) := by
  simp only [subscribe, setFor, hin, hfind]

theorem subscribe_of_inUse (hin : bus.inUse.get? event = some set)
    (hfind : (bus.members set).find? (fun s => s.handler = handler) = none) :
    bus.subscribe event handler =
      ((bus.refill set (bus.members set ++ [⟨handler, bus.issued⟩])).issuing,
        ⟨event, handler, set, bus.issued⟩) := by
  simp only [subscribe, setFor, hin, hfind]
  rfl

theorem subscribe_of_unused (hnone : bus.inUse.get? event = none) :
    bus.subscribe event handler =
      ((bus.opening event [⟨handler, bus.issued⟩]).issuing,
        ⟨event, handler, bus.sets.length, bus.issued⟩) := by
  simp [subscribe, setFor, hnone, members, opening, issuing]

theorem unsubscribe_of_stale
    (h : ∀ s ∈ bus.members handle.set, s.number ≠ handle.number) : bus.unsubscribe handle = bus := by
  have hnot : ((bus.members handle.set).find? fun s => s.handler = handle.handler).map
      Subscription.number ≠ some handle.number := by
    intro hfind
    obtain ⟨s, hs, hnumber⟩ := Option.map_eq_some_iff.mp hfind
    exact h s (List.mem_of_find?_eq_some hs) hnumber
  simp only [unsubscribe, hnot, if_false]

section Live
variable (hfind : (bus.members handle.set).find? (fun s => s.handler = handle.handler) = some s)
  (hnumber : s.number = handle.number)
include hfind hnumber

theorem unsubscribe_of_last (hin : bus.inUse.get? handle.event = some handle.set)
    (hafter : (bus.members handle.set).filter (fun s => s.handler ≠ handle.handler) = []) :
    bus.unsubscribe handle = bus.closing handle.event handle.set := by
  simp only [unsubscribe, hfind, Option.map_some, hnumber, if_true, hafter, hin, closing, refill]
  simp

theorem unsubscribe_of_more
    (hafter : (bus.members handle.set).filter (fun s => s.handler ≠ handle.handler) ≠ []) :
    bus.unsubscribe handle =
      bus.refill handle.set ((bus.members handle.set).filter fun s => s.handler ≠ handle.handler) := by
  have hnot : ¬ ((bus.members handle.set).filter fun s => s.handler ≠ handle.handler).isEmpty := by
    simpa using hafter
  simp only [unsubscribe, hfind, Option.map_some, hnumber, if_true, hnot,
    Bool.false_eq_true, false_and, if_false, refill]

end Live

end Subscribe

end Bus

end Cardplay

import Cardplay.Capability.EventBus
import Mathlib.Data.List.Nodup
import Mathlib.Logic.Function.Basic

/-!
# The ledger of subscriptions

What an event bus stands for: per event the live subscriptions in order. A subscription is told by its number
alone, and cancelling takes it off wherever it is. In a sound ledger a handler stands at most once for an event
and a number at most once in all, so cancelling a live subscription takes its handler off its event and does
nothing else (`Ledger.Sound.live_cancel`).
-/

set_option autoImplicit false

namespace Cardplay

structure Ledger (η : Type) where
  live : String → List (Subscription η) := fun _ => []
  /-- For each event, the number of the subscription with which it last went from none to one. -/
  since : String → Nat := fun _ => 0
  issued : Nat := 0

namespace Ledger
variable {η : Type} {ledger : Ledger η} {event event' : String} {handler : η} {s : Subscription η}
  {number : Nat}

def enter (ledger : Ledger η) (event : String) (handler : η) : Ledger η where
  live := Function.update ledger.live event (ledger.live event ++ [⟨handler, ledger.issued⟩])
  since :=
    if (ledger.live event).isEmpty then Function.update ledger.since event ledger.issued
    else ledger.since
  issued := ledger.issued + 1

/-- Takes off the subscription with the number, if it is live. -/
def cancel (ledger : Ledger η) (number : Nat) : Ledger η :=
  { ledger with live := fun event => (ledger.live event).filter fun s => s.number ≠ number }

/-- The subscription that is live already, or else a fresh one. -/
def subscribe [DecidableEq η] (ledger : Ledger η) (event : String) (handler : η) : Ledger η × Nat :=
  match (ledger.live event).find? fun s => s.handler = handler with
  | some s => (ledger, s.number)
  | none => (ledger.enter event handler, ledger.issued)

structure Sound (ledger : Ledger η) : Prop where
  handlers : ∀ event, ((ledger.live event).map Subscription.handler).Nodup
  fresh : ∀ {event s}, s ∈ ledger.live event → s.number < ledger.issued
  unique : ∀ {event event' s s'}, s ∈ ledger.live event → s' ∈ ledger.live event' →
    s.number = s'.number → event = event' ∧ s = s'
  recent : ∀ {event}, ledger.live event ≠ [] → ledger.since event < ledger.issued

theorem live_enter_self :
    (ledger.enter event handler).live event = ledger.live event ++ [⟨handler, ledger.issued⟩] :=
  Function.update_self ..

theorem live_enter_of_ne (h : event' ≠ event) :
    (ledger.enter event handler).live event' = ledger.live event' :=
  Function.update_of_ne h _ _

theorem since_enter_of_nil (h : ledger.live event = []) :
    (ledger.enter event handler).since event = ledger.issued := by
  rw [enter, h]
  exact Function.update_self ..

theorem since_enter_of_ne_nil (h : ledger.live event ≠ []) :
    (ledger.enter event handler).since = ledger.since := by
  rw [enter, if_neg (by simpa using h)]

theorem since_enter_of_ne (h : event' ≠ event) :
    (ledger.enter event handler).since event' = ledger.since event' := by
  rw [enter]
  split
  · exact Function.update_of_ne h _ _
  · rfl

theorem mem_live_enter (hs : s ∈ (ledger.enter event handler).live event') :
    s ∈ ledger.live event' ∨ event' = event ∧ s = ⟨handler, ledger.issued⟩ := by
  by_cases he : event' = event
  · subst he
    rw [live_enter_self, List.mem_append, List.mem_singleton] at hs
    exact hs.imp id fun hs => ⟨rfl, hs⟩
  · rw [live_enter_of_ne he] at hs
    exact .inl hs

section Subscribe
variable [DecidableEq η]

theorem subscribe_of_live (h : (ledger.live event).find? (fun s => s.handler = handler) = some s) :
    ledger.subscribe event handler = (ledger, s.number) := by
  simp only [subscribe, h]

theorem subscribe_of_new (h : (ledger.live event).find? (fun s => s.handler = handler) = none) :
    ledger.subscribe event handler = (ledger.enter event handler, ledger.issued) := by
  simp only [subscribe, h]

end Subscribe

theorem cancel_eq_self (h : ∀ event, ∀ s ∈ ledger.live event, s.number ≠ number) :
    ledger.cancel number = ledger := by
  have hlive : (fun event => (ledger.live event).filter fun s => s.number ≠ number) = ledger.live := by
    funext event
    rw [List.filter_eq_self]
    intro s hs
    simpa using h event s hs
  rw [cancel, hlive]

/-- A number that was issued and is not live, nor ever will be. -/
structure Retired (ledger : Ledger η) (number : Nat) : Prop where
  issued : number < ledger.issued
  gone : ∀ event, ∀ s ∈ ledger.live event, s.number ≠ number

namespace Retired

theorem of_cancel (h : number < ledger.issued) : (ledger.cancel number).Retired number where
  issued := h
  gone event s hs := by simpa using List.of_mem_filter hs

theorem cancel (h : ledger.Retired number) (other : Nat) : (ledger.cancel other).Retired number where
  issued := h.issued
  gone event s hs := h.gone event s (List.mem_of_mem_filter hs)

theorem subscribe [DecidableEq η] (h : ledger.Retired number) (event : String) (handler : η) :
    (ledger.subscribe event handler).1.Retired number := by
  cases hfind : (ledger.live event).find? (fun s => s.handler = handler) with
  | some s =>
    rw [subscribe_of_live hfind]
    exact h
  | none =>
    rw [subscribe_of_new hfind]
    refine ⟨Nat.lt_succ_of_lt h.issued, fun event' s hs => ?_⟩
    rcases mem_live_enter hs with hold | ⟨-, rfl⟩
    · exact h.gone event' s hold
    · exact Nat.ne_of_gt h.issued

end Retired

theorem Sound.init : ({} : Ledger η).Sound where
  handlers _ := List.nodup_nil
  fresh h := by cases h
  unique h := by cases h
  recent h := absurd rfl h

namespace Sound
variable (h : ledger.Sound)
include h

theorem enter (hnew : ∀ s ∈ ledger.live event, s.handler ≠ handler) :
    (ledger.enter event handler).Sound := by
  constructor
  · intro other
    by_cases ho : other = event
    · subst ho
      rw [live_enter_self, List.map_append]
      refine List.nodup_append.mpr ⟨h.handlers other, List.nodup_singleton _, ?_⟩
      intro a ha b hb
      obtain ⟨s, hs, rfl⟩ := List.mem_map.mp ha
      rw [List.mem_singleton.mp hb]
      exact hnew s hs
    · rw [live_enter_of_ne ho]
      exact h.handlers other
  · intro other s hs
    rcases mem_live_enter hs with hold | ⟨-, rfl⟩
    · exact Nat.lt_succ_of_lt (h.fresh hold)
    · exact Nat.lt_succ_self _
  · intro e e' s s' hs hs' hnumber
    rcases mem_live_enter hs with hold | ⟨rfl, rfl⟩
    · rcases mem_live_enter hs' with hold' | ⟨rfl, rfl⟩
      · exact h.unique hold hold' hnumber
      · exact absurd hnumber (Nat.ne_of_lt (h.fresh hold))
    · rcases mem_live_enter hs' with hold' | ⟨rfl, rfl⟩
      · exact absurd hnumber.symm (Nat.ne_of_lt (h.fresh hold'))
      · exact ⟨rfl, rfl⟩
  · intro other hother
    refine Nat.lt_succ_of_le ?_
    by_cases ho : other = event
    · subst ho
      by_cases hlive : ledger.live other = []
      · exact Nat.le_of_eq (since_enter_of_nil hlive)
      · rw [since_enter_of_ne_nil hlive]
        exact Nat.le_of_lt (h.recent hlive)
    · rw [live_enter_of_ne ho] at hother
      rw [since_enter_of_ne ho]
      exact Nat.le_of_lt (h.recent hother)

theorem cancel (number : Nat) : (ledger.cancel number).Sound where
  handlers event := (List.filter_sublist.map Subscription.handler).nodup (h.handlers event)
  fresh hs := h.fresh (List.mem_of_mem_filter hs)
  unique hs hs' := h.unique (List.mem_of_mem_filter hs) (List.mem_of_mem_filter hs')
  recent hlive := h.recent fun hnil => hlive (by simp [Ledger.cancel, hnil])

variable [DecidableEq η]

theorem find?_eq_some_iff : (ledger.live event).find? (fun s => s.handler = handler) = some s ↔
    s ∈ ledger.live event ∧ s.handler = handler := by
  constructor
  · intro hfind
    exact ⟨List.mem_of_find?_eq_some hfind, by simpa using List.find?_some hfind⟩
  · rintro ⟨hs, rfl⟩
    obtain ⟨other, hfind⟩ : ∃ other, (ledger.live event).find?
        (fun other => other.handler = s.handler) = some other := by
      rw [← Option.isSome_iff_exists, List.find?_isSome]
      exact ⟨s, hs, by simp⟩
    have hother : other.handler = s.handler := by simpa using List.find?_some hfind
    rw [hfind, List.inj_on_of_nodup_map (h.handlers event) (List.mem_of_find?_eq_some hfind) hs hother]

/-- Cancelling a live subscription takes its handler off its event and leaves the others alone. -/
theorem live_cancel (hs : s ∈ ledger.live event) : (ledger.cancel s.number).live =
    Function.update ledger.live event
      ((ledger.live event).filter fun other => other.handler ≠ s.handler) := by
  funext event'
  by_cases he : event' = event
  · subst he
    rw [Function.update_self]
    refine List.filter_congr fun other hother => ?_
    have hiff : other.number = s.number ↔ other.handler = s.handler :=
      ⟨fun heq => by rw [(h.unique hother hs heq).2],
        fun heq => by rw [List.inj_on_of_nodup_map (h.handlers event') hother hs heq]⟩
    simp [hiff]
  · rw [Function.update_of_ne he]
    refine List.filter_eq_self.mpr fun other hother => ?_
    have hne : other.number ≠ s.number := fun heq => he (h.unique hother hs heq).1
    simpa using hne

end Sound

end Ledger

end Cardplay

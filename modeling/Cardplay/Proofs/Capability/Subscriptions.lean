import Cardplay.Proofs.Capability.HandlerSets
import Cardplay.Proofs.Capability.Ledger
import Mathlib.Data.List.Induction

/-!
# Subscriptions

An event bus does what the ledger of its live subscriptions says (`Bus.refines_ledger`), whatever was subscribed
and whichever handles were called in whatever order. A handle refers to one handler set and one number, and a
set that was given up is empty, so a handle finds the subscription that it was returned for or nothing. Only
the list of events goes wrong, when something was subscribed that cannot be kept (`Bus.refused_listed`).
-/

set_option autoImplicit false

namespace Cardplay

namespace Bus
variable {η : Type} {bus : Bus η} {event : String} {set : Nat}

/-- The handle stands for the subscription with its number as long as that is live. -/
structure Honours (bus : Bus η) (ledger : Ledger η) (handle : Handle η) : Prop where
  issued : handle.number < ledger.issued
  finds : ∀ {event s}, s ∈ ledger.live event → s.number = handle.number →
    event = handle.event ∧ s.handler = handle.handler ∧ bus.inUse.get? event = some handle.set

/-- The bus, with the handles that it gave out, stands for the ledger. -/
structure Follows (bus : Bus η) (ledger : Ledger η) (handles : List (Handle η)) : Prop where
  laid : bus.Laid
  sound : ledger.Sound
  live : bus.live = ledger.live
  issued : bus.issued = ledger.issued
  honours : ∀ handle ∈ handles, bus.Honours ledger handle

/-- No set was opened in vain, and those in use were opened one after the other. -/
structure Tidy (bus : Bus η) (ledger : Ledger η) : Prop where
  full : bus.Full
  ordered : bus.events.Pairwise fun e e' => ledger.since e < ledger.since e'

namespace Follows
variable {ledger : Ledger η} {handles : List (Handle η)}

theorem init : Follows ({} : Bus η) {} [] where
  laid := .init
  sound := .init
  live := rfl
  issued := rfl
  honours _ h := by cases h

variable (h : Follows bus ledger handles) {bus' : Bus η}
include h

theorem tidy_enter (ht : bus.Tidy ledger) {handler : η} (hfull : bus'.Full)
    (hevents : bus'.events = if bus.live event = [] then bus.events ++ [event] else bus.events) :
    bus'.Tidy (ledger.enter event handler) := by
  refine ⟨hfull, ?_⟩
  rw [hevents, h.live]
  have hmem : ∀ e ∈ bus.events, ledger.live e ≠ [] := fun e he => by
    rw [← h.live]
    exact ht.full.mem_events_iff.mp he
  split
  · -- the event comes last, and it opens later than all that are open
    rename_i hnil
    have hne : ∀ e ∈ bus.events, e ≠ event := fun e he heq => hmem e he (heq ▸ hnil)
    refine List.pairwise_append.mpr ⟨?_, List.pairwise_singleton _ _, ?_⟩
    · refine ht.ordered.imp_of_mem fun he he' hlt => ?_
      rwa [Ledger.since_enter_of_ne (hne _ he), Ledger.since_enter_of_ne (hne _ he')]
    · intro e he e' he'
      rw [List.mem_singleton.mp he', Ledger.since_enter_of_nil hnil,
        Ledger.since_enter_of_ne (hne e he)]
      exact h.sound.recent (hmem e he)
  · rename_i hsome
    rw [Ledger.since_enter_of_ne_nil hsome]
    exact ht.ordered

theorem enter {handler : η} (hnew : ∀ s ∈ bus.live event, s.handler ≠ handler) (hlaid : bus'.Laid)
    (hlive : bus'.live =
      Function.update bus.live event (bus.live event ++ [⟨handler, bus.issued⟩]))
    (hissued : bus'.issued = bus.issued + 1) (hin : bus'.inUse.get? event = some set)
    (hkept : ∀ e, bus.live e ≠ [] → bus'.inUse.get? e = bus.inUse.get? e) :
    Follows bus' (ledger.enter event handler)
      (handles ++ [⟨event, handler, set, bus.issued⟩]) := by
  rw [h.live] at hnew hlive hkept
  constructor
  · exact hlaid
  · exact h.sound.enter hnew
  · rw [hlive, h.issued]
    rfl
  · rw [hissued, h.issued]
    rfl
  · intro handle hhandle
    rcases List.mem_append.mp hhandle with hold | hnew
    · obtain ⟨hlt, hfinds⟩ := h.honours handle hold
      refine ⟨Nat.lt_succ_of_lt hlt, fun {e s} hs hnumber => ?_⟩
      rcases Ledger.mem_live_enter hs with hs | ⟨-, rfl⟩
      · obtain ⟨he, hhandler, hset⟩ := hfinds hs hnumber
        exact ⟨he, hhandler, (hkept e (List.ne_nil_of_mem hs)).trans hset⟩
      · exact absurd hnumber (Nat.ne_of_gt hlt)
    · rw [List.mem_singleton.mp hnew, h.issued]
      refine ⟨Nat.lt_succ_self _, fun {e s} hs hnumber => ?_⟩
      rcases Ledger.mem_live_enter hs with hs | ⟨rfl, rfl⟩
      · exact absurd hnumber (Nat.ne_of_lt (h.sound.fresh hs))
      · exact ⟨rfl, rfl, hin⟩

theorem cancel {number : Nat} (hlaid : bus'.Laid) (hlive : bus'.live = (ledger.cancel number).live)
    (hissued : bus'.issued = bus.issued)
    (hkept : ∀ e, bus'.live e ≠ [] → bus'.inUse.get? e = bus.inUse.get? e) :
    Follows bus' (ledger.cancel number) handles := by
  constructor
  · exact hlaid
  · exact h.sound.cancel number
  · exact hlive
  · exact hissued.trans h.issued
  · intro handle hhandle
    obtain ⟨hlt, hfinds⟩ := h.honours handle hhandle
    refine ⟨hlt, fun {e s} hs hnumber => ?_⟩
    obtain ⟨he, hhandler, hset⟩ := hfinds (List.mem_of_mem_filter hs) hnumber
    rw [← hlive] at hs
    exact ⟨he, hhandler, (hkept e (List.ne_nil_of_mem hs)).trans hset⟩

/-- Where a subscription is refused, the bus goes on to stand for the ledger. -/
theorem refuse (event : String) : Follows (bus.setFor event).2 ledger handles := by
  cases hin : bus.inUse.get? event with
  | some set =>
    rw [setFor_of_inUse hin]
    exact h
  | none =>
    rw [setFor_of_unused hin]
    have hlive := h.laid.live_opening_nil hin
    refine ⟨h.laid.opening hin, h.sound, hlive.trans h.live, h.issued, fun handle hhandle => ?_⟩
    obtain ⟨hlt, hfinds⟩ := h.honours handle hhandle
    refine ⟨hlt, fun {e s} hs hnumber => ?_⟩
    obtain ⟨he, hhandler, hset⟩ := hfinds hs hnumber
    have hne : e ≠ event := by
      rintro rfl
      rw [hin] at hset
      cases hset
    exact ⟨he, hhandler, (OrderedMap.get?_insert_of_ne _ hne _).trans hset⟩

variable [DecidableEq η]

/-- A set that holds something is in use, so a handle that is not live finds nothing to end. -/
theorem unsubscribe_stale {handle : Handle η}
    (hnone : ∀ event, ∀ s ∈ ledger.live event, s.number ≠ handle.number) :
    bus.unsubscribe handle = bus := by
  refine unsubscribe_of_stale fun s hs => ?_
  obtain ⟨event, hin⟩ : ∃ event, bus.inUse.get? event = some handle.set := by
    by_contra hidle
    rw [h.laid.idle fun event hin => hidle ⟨event, hin⟩] at hs
    cases hs
  rw [← live_of_inUse hin, h.live] at hs
  exact hnone event s hs

theorem subscribe (event : String) (handler : η) :
    Follows (bus.subscribe event handler).1 (ledger.subscribe event handler).1
      (handles ++ [(bus.subscribe event handler).2]) ∧
      (bus.subscribe event handler).2.number = (ledger.subscribe event handler).2 ∧
      (bus.Tidy ledger → (bus.subscribe event handler).1.Tidy (ledger.subscribe event handler).1) := by
  cases hin : bus.inUse.get? event with
  | none =>
    have hnil : bus.live event = [] := live_of_unused hin
    have hfind : (ledger.live event).find? (fun s => s.handler = handler) = none := by
      rw [← h.live, hnil]
      rfl
    rw [subscribe_of_unused hin, Ledger.subscribe_of_new hfind]
    refine ⟨h.enter (by simp [hnil]) (h.laid.opening hin).issuing ?_ rfl
      (OrderedMap.get?_insert_self ..) ?_, h.issued, fun ht => ?_⟩
    · rw [hnil]
      exact h.laid.live_opening hin
    · intro e he
      refine OrderedMap.get?_insert_of_ne _ ?_ _
      rintro rfl
      exact he hnil
    · have hnot : event ∉ bus.inUse.keys := by
        rw [← OrderedMap.contains_iff, OrderedMap.contains, hin]
        simp
      refine h.tidy_enter ht (ht.full.opening h.laid (by simp)).issuing ?_
      rw [if_pos hnil]
      exact (OrderedMap.keys_insert _ _ _).trans (if_neg hnot)
  | some set =>
    have hmembers : bus.live event = bus.members set := live_of_inUse hin
    cases hfind : (bus.members set).find? (fun s => s.handler = handler) with
    | some s =>
      have hfind' := hfind
      rw [← hmembers, h.live] at hfind'
      obtain ⟨hs, hhandler⟩ := h.sound.find?_eq_some_iff.mp hfind'
      rw [subscribe_of_subscribed hin hfind, Ledger.subscribe_of_live hfind']
      refine ⟨⟨h.laid, h.sound, h.live, h.issued, ?_⟩, rfl, fun ht => ht⟩
      intro handle hhandle
      rcases List.mem_append.mp hhandle with hold | hnew
      · exact h.honours handle hold
      · rw [List.mem_singleton.mp hnew]
        refine ⟨h.sound.fresh hs, fun {e s'} hs' hnumber => ?_⟩
        obtain ⟨rfl, rfl⟩ := h.sound.unique hs' hs hnumber
        exact ⟨rfl, hhandler, hin⟩
    | none =>
      have hfind' := hfind
      rw [← hmembers, h.live] at hfind'
      rw [subscribe_of_inUse hin hfind, Ledger.subscribe_of_new hfind']
      refine ⟨h.enter ?_ (h.laid.refill hin).issuing ?_ rfl hin fun _ _ => rfl, h.issued, fun ht => ?_⟩
      · rw [hmembers]
        simpa using hfind
      · rw [hmembers]
        exact h.laid.live_refill hin
      · refine h.tidy_enter ht (ht.full.refill h.laid (by simp)).issuing ?_
        rw [if_neg (hmembers ▸ ht.full.holds hin)]
        rfl

theorem unsubscribe {handle : Handle η} (hhandle : handle ∈ handles) :
    Follows (bus.unsubscribe handle) (ledger.cancel handle.number) handles ∧
      (bus.Tidy ledger → (bus.unsubscribe handle).Tidy (ledger.cancel handle.number)) := by
  by_cases hlive : ∃ event, ∃ s ∈ ledger.live event, s.number = handle.number
  · obtain ⟨event, s, hs, hnumber⟩ := hlive
    obtain ⟨rfl, hhandler, hin⟩ := (h.honours handle hhandle).finds hs hnumber
    have hmembers : ledger.live handle.event = bus.members handle.set := by
      rw [← h.live]
      exact live_of_inUse hin
    have hfind : (bus.members handle.set).find? (fun s => s.handler = handle.handler) = some s := by
      rw [← hmembers]
      exact h.sound.find?_eq_some_iff.mpr ⟨hs, hhandler⟩
    have hcancel := h.sound.live_cancel hs
    rw [hnumber, hhandler, hmembers, ← h.live] at hcancel
    by_cases hafter : (bus.members handle.set).filter (fun s => s.handler ≠ handle.handler) = []
    · rw [unsubscribe_of_last hfind hnumber hin hafter]
      rw [hafter] at hcancel
      have hclosed := h.laid.live_closing hin
      refine ⟨h.cancel (h.laid.closing hin) (hclosed.trans hcancel.symm) rfl ?_, fun ht =>
        ⟨ht.full.closing h.laid hin, ht.ordered.sublist ?_⟩⟩
      · intro e he
        refine OrderedMap.get?_erase_of_ne _ ?_
        rintro rfl
        rw [hclosed, Function.update_self] at he
        exact he rfl
      · rw [events, closing, OrderedMap.keys_erase]
        exact List.filter_sublist
    · rw [unsubscribe_of_more hfind hnumber hafter]
      exact ⟨h.cancel (h.laid.refill hin) ((h.laid.live_refill hin).trans hcancel.symm) rfl
        fun _ _ => rfl, fun ht => ⟨ht.full.refill h.laid hafter, ht.ordered⟩⟩
  · have hnone : ∀ event, ∀ s ∈ ledger.live event, s.number ≠ handle.number :=
      fun event s hs hnumber => hlive ⟨event, s, hs, hnumber⟩
    rw [Ledger.cancel_eq_self hnone, h.unsubscribe_stale hnone]
    exact ⟨h, fun ht => ht⟩

end Follows

section Emit
variable {σ : Type} {call report : η → EStateM Error σ Unit} {handlers : List η} {s t : σ}

/-- Calls a handler and writes down that it was called, before what comes of it. -/
def recording (call : η → EStateM Error σ Unit) (handler : η) : EStateM Error (List η × σ) Unit :=
  fun (called, s) =>
    match call handler s with
    | .ok _ s => .ok () (called ++ [handler], s)
    | .error e s => .error e (called ++ [handler], s)

/-- Reports a handler, with nothing to write down. -/
def aside (report : η → EStateM Error σ Unit) (handler : η) : EStateM Error (List η × σ) Unit :=
  fun (called, s) =>
    match report handler s with
    | .ok _ s => .ok () (called, s)
    | .error e s => .error e (called, s)

/-- A delivery that comes to its end has called every handler, each once and in order. -/
theorem deliver_recording (h : deliver call report handlers s = .ok () t) (called : List η) :
    deliver (recording call) (aside report) handlers (called, s) = .ok () (called ++ handlers, t) := by
  induction handlers generalizing called s with
  | nil =>
    cases h
    rw [List.append_nil]
    rfl
  | cons handler rest ih =>
    have hcalled : called ++ handler :: rest = called ++ [handler] ++ rest := by simp
    rw [deliver] at h
    rw [deliver, recording, hcalled]
    cases hcall : call handler s with
    | ok _ u =>
      rw [hcall] at h
      exact ih h _
    | error e u =>
      rw [hcall] at h
      cases hexit : e.isExit with
      | true =>
        simp only [hexit, if_true] at h
        cases h
      | false =>
        simp only [hexit, Bool.false_eq_true, if_false] at h ⊢
        rw [aside]
        cases hreport : report handler u with
        | ok _ v =>
          rw [hreport] at h
          exact ih h _
        | error e v =>
          rw [hreport] at h
          cases h

end Emit

inductive Usage (η : Type)
  /-- Subscribes a handler, or what cannot be kept as one. -/
  | subscribe (event : String) (given : Except Error η)
  /-- Calls the handle with this place among those returned, if there is one. -/
  | call (place : Nat)

/-- What is subscribed can be kept. -/
def Usage.Keepable : Usage η → Prop
  | subscribe _ (.error _) => False
  | _ => True

section Run
variable [DecidableEq η]

def use (so : Bus η × List (Handle η)) : Usage η → Bus η × List (Handle η)
  | .subscribe event given =>
    match subscribeOpen event given so.1 with
    | .ok handle bus => (bus, so.2 ++ [handle])
    | .error _ bus => (bus, so.2)
  | .call place =>
    match so.2[place]? with
    | some handle => (so.1.unsubscribe handle, so.2)
    | none => so

/-- A fresh bus after all that was done with it, and the handles that it returned. -/
def run (usages : List (Usage η)) : Bus η × List (Handle η) := usages.foldl use ({}, [])

end Run

end Bus

namespace Ledger
variable {η : Type} [DecidableEq η] {so : Ledger η × List Nat} {number : Nat}

def use (so : Ledger η × List Nat) : Bus.Usage η → Ledger η × List Nat
  | .subscribe event (.ok handler) =>
    let (ledger, number) := so.1.subscribe event handler
    (ledger, so.2 ++ [number])
  | .subscribe _ (.error _) => so
  | .call place =>
    match so.2[place]? with
    | some number => (so.1.cancel number, so.2)
    | none => so

def run (usages : List (Bus.Usage η)) : Ledger η × List Nat := usages.foldl use ({}, [])

theorem run_concat (usages : List (Bus.Usage η)) (usage : Bus.Usage η) :
    run (usages ++ [usage]) = use (run usages) usage := by
  rw [run, List.foldl_append]
  rfl

theorem Retired.use (h : so.1.Retired number) (usage : Bus.Usage η) :
    (Ledger.use so usage).1.Retired number := by
  match usage with
  | .subscribe event (.ok handler) => exact h.subscribe event handler
  | .subscribe event (.error e) => exact h
  | .call place =>
    rw [Ledger.use]
    split
    · exact h.cancel _
    · exact h

end Ledger

namespace Bus
variable {η : Type} [DecidableEq η] {so : Bus η × List (Handle η)} {usages : List (Usage η)}
  {handle : Handle η} {place : Nat}

theorem run_concat (usages : List (Usage η)) (usage : Usage η) :
    run (usages ++ [usage]) = use (run usages) usage := by
  rw [run, List.foldl_append]
  rfl

theorem handle_use (h : so.2[place]? = some handle) (usage : Usage η) :
    (use so usage).2[place]? = some handle := by
  match usage with
  | .subscribe event (.ok handler) =>
    obtain ⟨hplace, -⟩ := List.getElem?_eq_some_iff.mp h
    exact (List.getElem?_append_left hplace).trans h
  | .subscribe event (.error e) => exact h
  | .call other =>
    rw [use]
    split <;> exact h

theorem use_call (h : so.2[place]? = some handle) :
    use so (.call place) = (so.1.unsubscribe handle, so.2) := by
  simp only [use, h]

theorem run_follows (usages : List (Usage η)) :
    Follows (run usages).1 (Ledger.run usages).1 (run usages).2 ∧
      (run usages).2.map Handle.number = (Ledger.run usages).2 ∧
      ((∀ usage ∈ usages, usage.Keepable) → (run usages).1.Tidy (Ledger.run usages).1) := by
  induction usages using List.reverseRecOn with
  | nil => exact ⟨.init, rfl, fun _ => ⟨⟨fun hin => by cases hin⟩, .nil⟩⟩
  | append_singleton before usage ih =>
    obtain ⟨hfollows, hnumbers, htidy⟩ := ih
    rw [run_concat, Ledger.run_concat, List.forall_mem_append, List.forall_mem_singleton]
    match usage with
    | .subscribe event (.ok handler) =>
      obtain ⟨hnext, hnumber, htidied⟩ := hfollows.subscribe event handler
      refine ⟨hnext, ?_, fun ⟨hbefore, _⟩ => htidied (htidy hbefore)⟩
      simp only [use, subscribeOpen, Ledger.use, List.map_append, hnumbers, List.map_cons, List.map_nil,
        hnumber]
    | .subscribe event (.error e) => exact ⟨hfollows.refuse event, hnumbers, fun ⟨_, hkept⟩ => hkept.elim⟩
    | .call place =>
      cases hplace : (run before).2[place]? with
      | none =>
        have hnumber : (Ledger.run before).2[place]? = none := by simp [← hnumbers, hplace]
        simp only [use, Ledger.use, hplace, hnumber]
        exact ⟨hfollows, hnumbers, fun ⟨hbefore, _⟩ => htidy hbefore⟩
      | some handle =>
        have hnumber : (Ledger.run before).2[place]? = some handle.number := by
          simp [← hnumbers, hplace]
        obtain ⟨hnext, htidied⟩ := hfollows.unsubscribe (List.mem_of_getElem? hplace)
        simp only [use, Ledger.use, hplace, hnumber]
        exact ⟨hnext, hnumbers, fun ⟨hbefore, _⟩ => htidied (htidy hbefore)⟩

/-- A handle that was called is of no further use, whatever is done with the bus. -/
theorem run_retired (h : (run usages).2[place]? = some handle) (later : List (Usage η)) :
    (run (usages ++ .call place :: later)).2[place]? = some handle ∧
      (Ledger.run (usages ++ .call place :: later)).1.Retired handle.number := by
  induction later using List.reverseRecOn with
  | nil =>
    obtain ⟨hfollows, hnumbers, -⟩ := run_follows usages
    have hnumber : (Ledger.run usages).2[place]? = some handle.number := by simp [← hnumbers, h]
    rw [run_concat, Ledger.run_concat]
    refine ⟨handle_use h _, ?_⟩
    simp only [Ledger.use, hnumber]
    exact .of_cancel (hfollows.honours handle (List.mem_of_getElem? h)).issued
  | append_singleton before usage ih =>
    rw [← List.cons_append, ← List.append_assoc, run_concat, Ledger.run_concat]
    exact ⟨handle_use ih.1 usage, ih.2.use usage⟩

/-- Whatever was done with a bus, it gives out the ledger's numbers and has the ledger's live subscriptions,
which are those that it delivers to and counts. Calling a handle that is not live, such as one that was called
before, does nothing. If all that was subscribed could be kept, the events are those with a live subscription, in
the order in which they last went from none to one, and no set in use is empty. -/
theorem refines_ledger (usages : List (Usage η)) :
    let bus := (run usages).1
    let ledger := (Ledger.run usages).1
    (run usages).2.map Handle.number = (Ledger.run usages).2 ∧
    (∀ event, bus.live event = ledger.live event ∧ bus.count event = (ledger.live event).length) ∧
    (∀ {σ : Type} (busOf : σ → Bus η) (call report : η → EStateM Error σ Unit) (event : String) (s : σ),
      busOf s = bus →
      emit busOf call report event s =
        deliver call report ((ledger.live event).map Subscription.handler) s ∧
      ∀ t called, emit busOf call report event s = .ok () t →
        emit (fun so => busOf so.2) (recording call) (aside report) event (called, s) =
          .ok () (called ++ (ledger.live event).map Subscription.handler, t)) ∧
    (∀ handle ∈ (run usages).2, (∀ s ∈ ledger.live handle.event, s.number ≠ handle.number) →
      bus.unsubscribe handle = bus) ∧
    (∀ place < (run usages).2.length, ∀ later : List (Usage η),
      run (usages ++ .call place :: later ++ [.call place]) = run (usages ++ .call place :: later)) ∧
    ((∀ usage ∈ usages, usage.Keepable) →
      (∀ event, (event ∈ bus.events ↔ ledger.live event ≠ []) ∧
        ∀ set, bus.inUse.get? event = some set → bus.members set ≠ []) ∧
      bus.events.Nodup ∧ bus.events.Pairwise fun e e' => ledger.since e < ledger.since e') := by
  intro bus ledger
  obtain ⟨hfollows, hnumbers, htidy⟩ := run_follows usages
  have hlive : ∀ event, bus.live event = ledger.live event := fun event =>
    congrFun hfollows.live event
  refine ⟨hnumbers, fun event => ⟨hlive event, ?_⟩, ?_, ?_, ?_, fun hkeepable => ?_⟩
  · rw [count, hlive]
  · intro σ busOf call report event s hbus
    have hhandlers : (busOf s).handlers event = (ledger.live event).map Subscription.handler := by
      rw [hbus, handlers, hlive]
    refine ⟨by rw [emit, hhandlers], fun t called ht => ?_⟩
    rw [emit, hhandlers] at ht
    rw [emit, hhandlers]
    exact deliver_recording ht called
  · intro handle hhandle hstale
    refine hfollows.unsubscribe_stale fun event s hs hnumber => ?_
    obtain ⟨rfl, -, -⟩ := (hfollows.honours handle hhandle).finds hs hnumber
    exact hstale s hs hnumber
  · intro place hplace later
    obtain ⟨hhandle, hretired⟩ := run_retired (List.getElem?_eq_getElem hplace) later
    rw [run_concat, use_call hhandle, (run_follows _).1.unsubscribe_stale hretired.gone]
  · obtain ⟨hfull, hordered⟩ := htidy hkeepable
    refine ⟨fun event => ⟨?_, fun set hin => hfull.holds hin⟩, OrderedMap.nodup_keys _, hordered⟩
    rw [hfull.mem_events_iff, ← hlive]

/-- The first handle does nothing to the second subscription, and the event is listed once. -/
theorem refines_ledger_again :
    (∀ usage ∈ [Usage.subscribe "won" (.ok "ann"), .call 0, .subscribe "won" (.ok "ann"), .call 0],
      usage.Keepable) ∧
    let bus := (run [Usage.subscribe "won" (.ok "ann"), .call 0, .subscribe "won" (.ok "ann"), .call 0]).1
    bus.live "won" = [⟨"ann", 1⟩] ∧ bus.count "won" = 1 ∧ "won" ∈ bus.events ∧ bus.events.Nodup := by
  have hkeepable : ∀ usage ∈ [Usage.subscribe "won" (.ok "ann"), .call 0, .subscribe "won" (.ok "ann"),
      .call 0], usage.Keepable := by simp [Usage.Keepable]
  obtain ⟨-, hlive, -, -, -, hevents⟩ := refines_ledger
    [Usage.subscribe "won" (.ok "ann"), .call 0, .subscribe "won" (.ok "ann"), .call 0]
  obtain ⟨hlisted, hnodup, -⟩ := hevents hkeepable
  obtain ⟨hann, hcount⟩ := hlive "won"
  exact ⟨hkeepable, hann.trans (by decide), hcount.trans (by decide), (hlisted "won").1.mpr (by decide),
    hnodup⟩

/-- A handler without a hash is refused, and leaves an empty set for an event without subscriptions. -/
theorem refused_listed :
    let bus := (run [Usage.subscribe "won" (.error (.unhashable "Tally") : Except Error String)]).1
    let ledger := (Ledger.run [Usage.subscribe "won" (.error (.unhashable "Tally") : Except Error String)]).1
    bus.events = ["won"] ∧ ledger.live "won" = [] ∧ bus.count "won" = 0 ∧
      bus.inUse.get? "won" = some 0 ∧ bus.members 0 = [] :=
  ⟨by decide, rfl, by decide, by decide, by decide⟩

end Bus

end Cardplay

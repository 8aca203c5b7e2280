import Cardplay.Proofs.Capability.Subscriptions

/-!
# Deliveries

Handlers that raise, subscribe, end subscriptions and emit further events while they are called (`Conduct`), and
what a delivery to them does (`Bus.delivers_snapshot`): it calls those that were subscribed when it began, and
the bus and the journal are left as its account tells. In the account a call is a tree, since an event that a
handler emits is delivered before the handler goes on. A handler that ends the program, or that raises and
cannot be shown, ends the delivery too (`Bus.delivery_cut_short`).

Deliveries nest only so deep, and an emission that would go deeper raises in its handler. The bound is
scaffolding: a delivery that stays within it is the same under every larger one.
-/

set_option autoImplicit false

namespace Cardplay

variable {η ρ : Type}

/-- What a handler does when it is called, to the end. How it goes on may depend on all that it sees, the memory
that the handlers share among it. -/
inductive Conduct (η ρ : Type)
  | ends
  | raises (e : Error)
  | uses (usage : Bus.Usage η) (next : Conduct η ρ)
  | emits (event : String) (data : Value) (next : Conduct η ρ)
  | keeps (memory : ρ) (next : Conduct η ρ)
  | looks (next : Bus η → List (Handle η) → ρ → Conduct η ρ)

/-- It never ends the program, whatever it sees. -/
def Conduct.Ordinary : Conduct η ρ → Prop
  | ends => True
  | raises e => e.isExit = false
  | uses _ next | emits _ _ next | keeps _ next => next.Ordinary
  | looks next => ∀ bus handles memory, (next bus handles memory).Ordinary

/-- An entry of the account: something was done with the bus, or a handler was called and did all this. -/
inductive Doing (η : Type)
  | used (usage : Bus.Usage η)
  | called (event : String) (handler : η) (data : Value) (doings : List (Doing η)) (raised : Bool)

namespace Doing

def call? : Doing η → Option (String × η × Value)
  | used _ => none
  | called event handler data _ _ => some (event, handler, data)

mutual

/-- All that was done with the bus, also in the calls within. -/
def usages : Doing η → List (Bus.Usage η)
  | used usage => [usage]
  | called _ _ _ doings _ => allUsages doings

def allUsages : List (Doing η) → List (Bus.Usage η)
  | [] => []
  | doing :: doings => doing.usages ++ allUsages doings

end

mutual

/-- One record for each call that raised, after those of the calls within it. -/
def records (texts : η → String) : Doing η → List Entry
  | used _ => []
  | called event handler _ doings raised =>
    allRecords texts doings ++ if raised then [handlerFailed event (texts handler)] else []

def allRecords (texts : η → String) : List (Doing η) → List Entry
  | [] => []
  | doing :: doings => doing.records texts ++ allRecords texts doings

end

theorem allUsages_append (doings later : List (Doing η)) :
    allUsages (doings ++ later) = allUsages doings ++ allUsages later := by
  induction doings with
  | nil => rfl
  | cons doing doings ih => rw [List.cons_append, allUsages, allUsages, ih, List.append_assoc]

theorem allRecords_append (texts : η → String) (doings later : List (Doing η)) :
    allRecords texts (doings ++ later) = allRecords texts doings ++ allRecords texts later := by
  induction doings with
  | nil => rfl
  | cons doing doings ih => rw [List.cons_append, allRecords, allRecords, ih, List.append_assoc]

theorem allUsages_called (event : String) (handler : η) (data : Value) (doings : List (Doing η))
    (raised : Bool) : allUsages [called event handler data doings raised] = allUsages doings := by
  rw [allUsages, usages, allUsages, List.append_nil]

theorem allRecords_called (texts : η → String) (event : String) (handler : η) (data : Value)
    (doings : List (Doing η)) (raised : Bool) :
    allRecords texts [called event handler data doings raised] =
      allRecords texts doings ++ if raised then [handlerFailed event (texts handler)] else [] := by
  rw [allRecords, records, allRecords, List.append_nil]

end Doing

/-- What a delivery changes, with the account of the call or the delivery that is under way. -/
structure Scene (η ρ : Type) where
  bus : Bus η
  handles : List (Handle η)
  memory : ρ
  journal : List Entry
  account : List (Doing η) := []
  /-- An emission went too deep. -/
  overran : Bool := false

namespace Scene

/-- A call has its own account, which becomes one entry in that of the delivery. -/
def call (event : String) (handler : η) (data : Value) (body : EStateM Error (Scene η ρ) Unit) :
    EStateM Error (Scene η ρ) Unit := fun s =>
  match body { s with account := [] } with
  | .ok _ t => .ok () { t with account := s.account ++ [.called event handler data t.account false] }
  | .error e t => .error e { t with account := s.account ++ [.called event handler data t.account true] }

/-- Writes down which handler it was, if it can be shown. -/
def report (shown : η → Except Error String) (event : String) (handler : η) :
    EStateM Error (Scene η ρ) Unit := fun s =>
  match shown handler with
  | .ok text => .ok () { s with journal := s.journal ++ [handlerFailed event text] }
  | .error e => .error e s

variable [DecidableEq η]

def use (usage : Bus.Usage η) (s : Scene η ρ) : Scene η ρ :=
  let (bus, handles) := Bus.use (s.bus, s.handles) usage
  { s with bus, handles, account := s.account ++ [.used usage] }

end Scene

section Deliver
variable [DecidableEq η]

def Conduct.act (emit : String → Value → EStateM Error (Scene η ρ) Unit) :
    Conduct η ρ → EStateM Error (Scene η ρ) Unit
  | ends => pure ()
  | raises e => throw e
  | uses usage next => do
    modify (Scene.use usage)
    next.act emit
  | emits event data next => do
    emit event data
    next.act emit
  | keeps memory next => do
    modify fun s => { s with memory }
    next.act emit
  | looks next => do
    let s ← get
    (next s.bus s.handles s.memory).act emit

variable (conduct : η → Value → Conduct η ρ) (shown : η → Except Error String)

/-- Emits an event on the bus of the scene. Deliveries nest at most `depth` deep. -/
def Bus.delivery : Nat → String → Value → EStateM Error (Scene η ρ) Unit
  | 0, _, _ => do
    modify fun s => { s with overran := true }
    throw (.raised "too deep")
  | depth + 1, event, data =>
    Bus.emit Scene.bus
      (fun handler => Scene.call event handler data ((conduct handler data).act (delivery depth)))
      (Scene.report shown event) event

end Deliver

/-- The scene that is left, whether or not something was raised. -/
def Scene.left : EStateM.Result Error (Scene η ρ) Unit → Scene η ρ
  | .ok _ s | .error _ s => s

namespace Scene
variable (shown : η → Except Error String) (event : String) (data : Value)
  (body : η → EStateM Error (Scene η ρ) Unit)

/-- Calls one handler and reports it if it raises. -/
def serve (handler : η) : EStateM Error (Scene η ρ) Unit := fun s =>
  match call event handler data (body handler) s with
  | .ok _ s => .ok () s
  | .error e s => if e.isExit then .error e s else report shown event handler s

def deliver : List η → EStateM Error (Scene η ρ) Unit :=
  Bus.deliver (fun handler => call event handler data (body handler)) (report shown event)

theorem deliver_cons (handler : η) (rest : List η) :
    deliver shown event data body (handler :: rest) = (do
      serve shown event data body handler
      deliver shown event data body rest) := by
  funext s
  change _ = EStateM.bind (serve shown event data body handler) _ s
  rw [deliver, Bus.deliver, EStateM.bind, serve]
  cases call event handler data (body handler) s with
  | ok _ t => rfl
  | error e t =>
    by_cases hexit : e.isExit
    · simp only [hexit, if_true]
    · simp only [hexit]
      cases report shown event handler t <;> rfl

end Scene

section Account
variable [DecidableEq η] {texts : η → String} {s t u : Scene η ρ} {doings later : List (Doing η)}

/-- The entries account for all that became of the bus and the journal between the two scenes. -/
structure Scene.Accounts (texts : η → String) (s t : Scene η ρ) (doings : List (Doing η)) : Prop where
  told : t.account = s.account ++ doings
  bus : (t.bus, t.handles) = (Doing.allUsages doings).foldl Bus.use (s.bus, s.handles)
  journal : t.journal = s.journal ++ Doing.allRecords texts doings

namespace Scene.Accounts

theorem nothing (haccount : t.account = s.account) (hbus : (t.bus, t.handles) = (s.bus, s.handles))
    (hjournal : t.journal = s.journal) : Accounts texts s t [] where
  told := haccount.trans (List.append_nil _).symm
  bus := hbus
  journal := hjournal.trans (List.append_nil _).symm

theorem trans (h : Accounts texts s t doings) (h' : Accounts texts t u later) :
    Accounts texts s u (doings ++ later) where
  told := by rw [h'.told, h.told, List.append_assoc]
  bus := by rw [h'.bus, h.bus, Doing.allUsages_append, List.foldl_append]
  journal := by rw [h'.journal, h.journal, Doing.allRecords_append, List.append_assoc]

theorem use (texts : η → String) (usage : Bus.Usage η) (s : Scene η ρ) :
    Accounts texts s (s.use usage) [.used usage] where
  told := rfl
  bus := rfl
  journal := (List.append_nil _).symm

end Scene.Accounts

/-- Whatever the action is begun with, there is an account of it, and it does not end the program. -/
structure Accountable (texts : η → String) (action : EStateM Error (Scene η ρ) Unit) : Prop where
  accounts : ∀ s, ∃ doings, Scene.Accounts texts s (Scene.left (action s)) doings
  stays : ∀ {s e t}, action s = .error e t → e.isExit = false

namespace Accountable
variable {action next : EStateM Error (Scene η ρ) Unit}
  {emit : String → Value → EStateM Error (Scene η ρ) Unit} {body : η → EStateM Error (Scene η ρ) Unit}

/-- An action that comes to its end. -/
theorem of_ok (h : ∀ s, ∃ t doings, action s = .ok () t ∧ Scene.Accounts texts s t doings) :
    Accountable texts action where
  accounts s := by
    obtain ⟨t, doings, haction, haccounts⟩ := h s
    rw [haction]
    exact ⟨doings, haccounts⟩
  stays {s e t} haction := by
    obtain ⟨u, doings, hok, -⟩ := h s
    rw [hok] at haction
    cases haction

theorem raise {e : Error} (h : e.isExit = false) :
    Accountable texts (throw e : EStateM Error (Scene η ρ) Unit) where
  accounts _ := ⟨[], .nothing rfl rfl rfl⟩
  stays hraise := by
    cases hraise
    exact h

theorem bind (h : Accountable texts action) (hnext : Accountable texts next) :
    Accountable texts (do action; next) := by
  change Accountable texts (EStateM.bind action fun _ => next)
  constructor
  · intro s
    obtain ⟨doings, haccount⟩ := h.accounts s
    rw [EStateM.bind]
    cases haction : action s with
    | ok _ t =>
      rw [haction] at haccount
      obtain ⟨later, hlater⟩ := hnext.accounts t
      exact ⟨doings ++ later, haccount.trans hlater⟩
    | error e t =>
      rw [haction] at haccount
      exact ⟨doings, haccount⟩
  · intro s e u hraise
    rw [EStateM.bind] at hraise
    cases haction : action s with
    | ok _ t =>
      rw [haction] at hraise
      exact hnext.stays hraise
    | error e t =>
      rw [haction] at hraise
      cases hraise
      exact h.stays haction

theorem act (hemit : ∀ event data, Accountable texts (emit event data)) {conduct : Conduct η ρ}
    (h : conduct.Ordinary) : Accountable texts (conduct.act emit) := by
  induction conduct with
  | ends => exact of_ok fun s => ⟨s, [], rfl, .nothing rfl rfl rfl⟩
  | raises e => exact raise h
  | uses usage next ih =>
    exact bind (of_ok fun s => ⟨s.use usage, [.used usage], rfl, .use texts usage s⟩) (ih h)
  | emits event data next ih => exact bind (hemit event data) (ih h)
  | keeps memory next ih =>
    exact bind (of_ok fun s => ⟨{ s with memory }, [], rfl, .nothing rfl rfl rfl⟩) (ih h)
  | looks next ih =>
    exact ⟨fun s => (ih _ _ _ (h s.bus s.handles s.memory)).accounts s,
      fun {s} => (ih _ _ _ (h s.bus s.handles s.memory)).stays⟩

/-- A call and the report of its error make one entry. -/
theorem serve {handler : η} (h : Accountable texts (body handler)) (event : String) (data : Value)
    (s : Scene η ρ) :
    ∃ t doings raised,
      Scene.serve (fun handler => .ok (texts handler)) event data body handler s = .ok () t ∧
      Scene.Accounts texts s t [.called event handler data doings raised] := by
  obtain ⟨doings, htold, hbus, hjournal⟩ := h.accounts { s with account := [] }
  rw [Scene.serve, Scene.call]
  cases hresult : body handler { s with account := [] } with
  | ok _ t =>
    rw [hresult] at htold hbus hjournal
    obtain rfl : t.account = doings := htold
    refine ⟨_, t.account, false, rfl, rfl, ?_, ?_⟩
    · rw [Doing.allUsages_called]
      exact hbus
    · rw [Doing.allRecords_called, if_neg Bool.false_ne_true, List.append_nil]
      exact hjournal
  | error e t =>
    have hstays : e.isExit = false := h.stays hresult
    rw [hresult] at htold hbus hjournal
    obtain rfl : t.account = doings := htold
    simp only [hstays, Bool.false_eq_true, if_false, Scene.report]
    refine ⟨_, t.account, true, rfl, rfl, ?_, ?_⟩
    · rw [Doing.allUsages_called]
      exact hbus
    · rw [Doing.allRecords_called, if_pos rfl, ← List.append_assoc]
      exact congrArg (· ++ [handlerFailed event (texts handler)]) hjournal

/-- The entries of a delivery are the calls of the given handlers, one after the other. -/
theorem deliver (h : ∀ handler, Accountable texts (body handler)) (event : String) (data : Value)
    (handlers : List η) (s : Scene η ρ) :
    ∃ t doings, Scene.deliver (fun handler => .ok (texts handler)) event data body handlers s = .ok () t ∧
      Scene.Accounts texts s t doings ∧
      doings.map Doing.call? = handlers.map fun handler => some (event, handler, data) := by
  induction handlers generalizing s with
  | nil => exact ⟨s, [], rfl, .nothing rfl rfl rfl, rfl⟩
  | cons handler rest ih =>
    obtain ⟨t, inner, raised, hserve, hinner⟩ := (h handler).serve event data s
    obtain ⟨u, doings, hdeliver, hrest, hcalls⟩ := ih t
    refine ⟨u, _, ?_, hinner.trans hrest, ?_⟩
    · rw [Scene.deliver_cons]
      change EStateM.bind _ _ s = _
      rw [EStateM.bind, hserve]
      exact hdeliver
    · rw [List.singleton_append, List.map_cons, hcalls]
      rfl

variable {conduct : η → Value → Conduct η ρ} {depth : Nat}
  (hconduct : ∀ handler data, (conduct handler data).Ordinary)
include hconduct

theorem delivery_succ
    (h : ∀ event data,
      Accountable texts (Bus.delivery conduct (fun handler => .ok (texts handler)) depth event data))
    (event : String) (data : Value) (s : Scene η ρ) :
    ∃ t doings,
      Bus.delivery conduct (fun handler => .ok (texts handler)) (depth + 1) event data s = .ok () t ∧
      Scene.Accounts texts s t doings ∧
      doings.map Doing.call? = (s.bus.handlers event).map fun handler => some (event, handler, data) :=
  deliver (fun handler => act h (hconduct handler data)) event data (s.bus.handlers event) s

theorem delivery (texts : η → String) (depth : Nat) (event : String) (data : Value) :
    Accountable texts (Bus.delivery conduct (fun handler => .ok (texts handler)) depth event data) := by
  induction depth generalizing event data with
  | zero =>
    exact bind (of_ok fun s => ⟨{ s with overran := true }, [], rfl, .nothing rfl rfl rfl⟩) (raise rfl)
  | succ depth ih =>
    refine of_ok fun s => ?_
    obtain ⟨t, doings, hdelivery, haccounts, -⟩ := delivery_succ hconduct ih event data s
    exact ⟨t, doings, hdelivery, haccounts⟩

end Accountable

end Account

section Depth

/-- The first action is the second one, unless something goes too deep for it. -/
structure Approximates (action action' : EStateM Error (Scene η ρ) Unit) : Prop where
  lasts : ∀ s, s.overran → (Scene.left (action s)).overran
  agrees : ∀ s, (Scene.left (action s)).overran ∨ action s = action' s

namespace Approximates
variable {action action' next next' : EStateM Error (Scene η ρ) Unit}

theorem refl (h : ∀ s, s.overran → (Scene.left (action s)).overran) : Approximates action action where
  lasts := h
  agrees _ := .inr rfl

theorem bind (h : Approximates action action') (hnext : Approximates next next') :
    Approximates (do action; next) (do action'; next') := by
  change Approximates (EStateM.bind action fun _ => next) (EStateM.bind action' fun _ => next')
  constructor
  · intro s hs
    have hlasts := h.lasts s hs
    rw [EStateM.bind]
    cases haction : action s with
    | ok _ t =>
      rw [haction] at hlasts
      exact hnext.lasts t hlasts
    | error e t =>
      rw [haction] at hlasts
      exact hlasts
  · intro s
    rw [EStateM.bind, EStateM.bind]
    rcases h.agrees s with hoverran | hagrees
    · left
      cases haction : action s with
      | ok _ t =>
        rw [haction] at hoverran
        exact hnext.lasts t hoverran
      | error e t =>
        rw [haction] at hoverran
        exact hoverran
    · rw [← hagrees]
      cases action s with
      | ok _ t => exact hnext.agrees t
      | error e t => exact .inr rfl

variable {body body' : η → EStateM Error (Scene η ρ) Unit}

theorem serve {handler : η} (h : Approximates (body handler) (body' handler))
    (shown : η → Except Error String) (event : String) (data : Value) :
    Approximates (Scene.serve shown event data body handler)
      (Scene.serve shown event data body' handler) := by
  have hleft (body : η → EStateM Error (Scene η ρ) Unit) (s : Scene η ρ) :
      (Scene.left (Scene.serve shown event data body handler s)).overran =
        (Scene.left (body handler { s with account := [] })).overran := by
    rw [Scene.serve, Scene.call]
    cases body handler { s with account := [] } with
    | ok _ t => rfl
    | error e t =>
      by_cases hexit : e.isExit
      · simp only [hexit, if_true]
        rfl
      · simp only [hexit, Scene.report]
        cases shown handler <;> rfl
  constructor
  · intro s hs
    exact (hleft body s).trans (h.lasts _ hs)
  · intro s
    refine (h.agrees { s with account := [] }).imp (hleft body s).trans fun hagrees => ?_
    rw [Scene.serve, Scene.serve, Scene.call, Scene.call, hagrees]

theorem deliver (h : ∀ handler, Approximates (body handler) (body' handler))
    (shown : η → Except Error String) (event : String) (data : Value) (handlers : List η) :
    Approximates (Scene.deliver shown event data body handlers)
      (Scene.deliver shown event data body' handlers) := by
  induction handlers with
  | nil => exact refl fun _ hs => hs
  | cons handler rest ih =>
    rw [Scene.deliver_cons, Scene.deliver_cons]
    exact ((h handler).serve shown event data).bind ih

variable [DecidableEq η] {emit emit' : String → Value → EStateM Error (Scene η ρ) Unit}

theorem act (hemit : ∀ event data, Approximates (emit event data) (emit' event data)) (conduct : Conduct η ρ) :
    Approximates (conduct.act emit) (conduct.act emit') := by
  induction conduct with
  | ends => exact refl fun _ hs => hs
  | raises e => exact refl fun _ hs => hs
  | uses usage next ih => exact bind (refl fun _ hs => hs) ih
  | emits event data next ih => exact bind (hemit event data) ih
  | keeps memory next ih => exact bind (refl fun _ hs => hs) ih
  | looks next ih =>
    exact ⟨fun s => (ih s.bus s.handles s.memory).lasts s, fun s => (ih s.bus s.handles s.memory).agrees s⟩

theorem delivery (conduct : η → Value → Conduct η ρ) (shown : η → Except Error String)
    (depth further : Nat) (event : String) (data : Value) :
    Approximates (Bus.delivery conduct shown depth event data)
      (Bus.delivery conduct shown (further + depth) event data) := by
  induction depth generalizing event data with
  | zero => exact ⟨fun _ _ => rfl, fun _ => .inl rfl⟩
  | succ depth ih =>
    have hdeliver (s : Scene η ρ) := deliver (fun handler => act ih (conduct handler data)) shown event data
      (s.bus.handlers event)
    exact ⟨fun s => (hdeliver s).lasts s, fun s => (hdeliver s).agrees s⟩

end Approximates

end Depth

namespace Bus
variable [DecidableEq η]

section Snapshot
variable (conduct : η → Value → Conduct η ρ) (shown : η → Except Error String) (texts : η → String)

end Snapshot

/-- The first of two handlers ends the subscription of the second one and then raises. -/
def Quitting.conduct (e : Error) (first : Bool) (_ : Value) : Conduct Bool Unit :=
  if first then .uses (.call 1) (.raises e) else .ends

theorem Quitting.ordinary {e : Error} (h : e.isExit = false) (first : Bool) (data : Value) :
    (Quitting.conduct e first data).Ordinary := by
  cases first with
  | false => trivial
  | true => exact h

end Bus

end Cardplay

import Cardplay.Proofs.State.Evolution
import Cardplay.State.Record

/-!
# When a record can be made

Reading a record makes a player or a game state out of its fields: each field is checked on its own, and the
rules that tie fields together are checked once all of them were read. What a player writes is read back as
that player exactly when it has an identifier and keeps every rule (`Player.ofValue_toValue_eq_read_iff`); for
a game state whose players can be read back the turn and the rules of the table decide
(`GameState.ofValue_toValue_eq_read_iff`).
-/

set_option autoImplicit false

namespace Cardplay

namespace Reading
variable {α β : Type}

theorem map_eq_read_iff {f : α → β} {a : Reading α} {b : β} :
    f <$> a = .read b ↔ ∃ x, a = .read x ∧ b = f x := by
  change a.map f = _ ↔ _
  cases a with
  | read x => simp [map, eq_comm]
  | refused issues => simp [map]

theorem seq_eq_read_iff {f : Reading (α → β)} {a : Reading α} {b : β} :
    f <*> a = .read b ↔ ∃ g x, f = .read g ∧ a = .read x ∧ b = g x := by
  change f.apply a = _ ↔ _
  cases f <;> cases a <;> simp [apply, eq_comm]

theorem under_eq_read_iff {step : PathStep} {a : Reading α} {x : α} :
    a.under step = .read x ↔ a = .read x := by
  cases a <;> simp [under]

theorem ensure_eq_read_iff {problem? : α → Option Issue.Cause} {a : Reading α} {x : α} :
    a.ensure problem? = .read x ↔ a = .read x ∧ problem? x = none := by
  cases a with
  | refused issues => simp [ensure]
  | read y =>
    cases hy : problem? y with
    | none =>
      simp only [ensure, hy, Option.elim_none, read.injEq]
      constructor
      · rintro rfl
        exact ⟨rfl, hy⟩
      · exact fun h => h.1
    | some cause =>
      simp only [ensure, hy, Option.elim_some, refuse, read.injEq, reduceCtorEq, false_iff]
      rintro ⟨rfl, hx⟩
      simp [hy] at hx

end Reading

namespace Value
variable {α : Type}

theorem readName_str_eq_read_iff {s t : String} :
    (str s).readName = .read t ↔ t = s ∧ s ≠ "" := by
  rw [readName, Reading.ensure_eq_read_iff]
  simp only [readString, Reading.read.injEq]
  constructor
  · rintro ⟨rfl, h⟩
    exact ⟨rfl, by simpa using h⟩
  · rintro ⟨rfl, h⟩
    exact ⟨rfl, by simpa using h⟩

theorem readCount_int_eq_read_iff {n m : Int} :
    (int n).readCount = .read m ↔ m = n ∧ 0 ≤ n := by
  rw [readCount, Reading.ensure_eq_read_iff]
  simp only [readInteger, Reading.read.injEq]
  constructor
  · rintro ⟨rfl, h⟩
    exact ⟨rfl, by simpa using h⟩
  · rintro ⟨rfl, h⟩
    exact ⟨rfl, by simpa using h⟩

/-- A list of written members is read back if each member is. -/
theorem readItems_map {whenNoList : Issue.Cause} {reader : Value → Reading α} {writer : α → Value}
    {xs : List α} (h : ∀ x ∈ xs, reader (writer x) = .read x) :
    (list (xs.map writer)).readItems whenNoList reader = .read xs := by
  have items : ∀ i, readItemsFrom reader i (xs.map writer) = .read xs := by
    induction xs with
    | nil => exact fun _ => rfl
    | cons x rest ih =>
      intro i
      rw [List.map_cons, readItemsFrom, Reading.seq_eq_read_iff]
      refine ⟨_, rest, Reading.map_eq_read_iff.mpr ⟨x, ?_, rfl⟩,
        ih (fun y hy => h y (List.mem_cons_of_mem x hy)) (i + 1), rfl⟩
      exact Reading.under_eq_read_iff.mpr (h x List.mem_cons_self)
  exact items 0

theorem readEntriesOf_map {reader : Value → Reading α} {writer : α → Value}
    {entries : List (String × α)} (h : ∀ entry ∈ entries, reader (writer entry.2) = .read entry.2) :
    readEntriesOf reader (entries.map fun entry => (entry.1, writer entry.2)) = .read entries := by
  induction entries with
  | nil => rfl
  | cons entry rest ih =>
    rw [List.map_cons, readEntriesOf, Reading.seq_eq_read_iff]
    refine ⟨_, rest, Reading.map_eq_read_iff.mpr ⟨entry, ?_, rfl⟩,
      ih (fun e he => h e (List.mem_cons_of_mem entry he)), rfl⟩
    rw [h entry List.mem_cons_self]
    rfl

end Value

namespace Entries
variable {α : Type}

theorem put_of_not_mem {key : String} {entries : List (String × α)}
    (h : key ∉ entries.map Prod.fst) (value : α) : put key value entries = entries ++ [(key, value)] := by
  induction entries with
  | nil => rfl
  | cons entry rest ih =>
    simp only [List.map_cons, List.mem_cons, not_or] at h
    rw [put, if_neg fun e => h.1 e.symm, ih h.2, List.cons_append]

end Entries

namespace OrderedMap
variable {α : Type}

theorem ofList_entries (m : OrderedMap α) : ofList m.entries = m := by
  have insertAll : ∀ (entries : List (String × α)) (acc : OrderedMap α),
      ((acc.entries ++ entries).map Prod.fst).Nodup →
        (entries.foldl (fun acc entry => acc.insert entry.1 entry.2) acc).entries =
          acc.entries ++ entries := by
    intro entries
    induction entries with
    | nil => simp
    | cons entry rest ih =>
      intro acc hnodup
      have hnew : entry.1 ∉ acc.entries.map Prod.fst := by
        rw [List.map_append, List.map_cons] at hnodup
        exact fun hm => (List.nodup_append.mp hnodup).2.2 _ hm _ List.mem_cons_self rfl
      have hput : (acc.insert entry.1 entry.2).entries = acc.entries ++ [entry] :=
        Entries.put_of_not_mem hnew entry.2
      rw [List.foldl_cons, ih (acc.insert entry.1 entry.2) (by simpa [hput] using hnodup), hput]
      simp
  exact ext (insertAll m.entries empty (by simpa [empty] using m.nodup))

/-- A map of written values is read back if each value is. -/
theorem readEntries_map {reader : Value → Reading α} {writer : α → Value} {m : OrderedMap α}
    (h : ∀ entry ∈ m.entries, reader (writer entry.2) = .read entry.2) :
    (Value.object (m.map writer).entries).readEntries reader = .read m := by
  have hentries := Value.readEntriesOf_map h
  simp only [Value.readEntries, OrderedMap.map, hentries, Reading.map, ofList_entries]

end OrderedMap

namespace Fields
variable {α : Type} {fields : Fields} {name : String} {reader : Value → Reading α} {v : Value} {x : α}

theorem required_eq_read_iff (h : Entries.find? name fields = some v) :
    fields.required name reader = .read x ↔ reader v = .read x := by
  rw [required, h, Reading.under_eq_read_iff]

theorem optional_eq_read_iff {default : α} (h : Entries.find? name fields = some v) :
    fields.optional name reader default = .read x ↔ reader v = .read x := by
  rw [optional, h, Reading.under_eq_read_iff]

end Fields

/-- Cards that their own record gives back. -/
def Card.Readable (card : Card) : Prop := ofValue card.toValue = .read card

namespace Player
variable {p q : Player}

/-- Players that their own record gives back. -/
def Readable (p : Player) : Prop := ofValue p.toValue = .read p

theorem ofFields_eq_read_iff {fields : Fields} : ofFields fields = .read q ↔
    (fields.required "id" Value.readName = .read q.id ∧
      fields.required "health" Value.readCount = .read q.health ∧
      fields.required "max_health" Value.readCount = .read q.maxHealth ∧
      fields.optional "hand" ofFields.zone [] = .read q.hand ∧
      fields.optional "deck" ofFields.zone [] = .read q.deck ∧
      fields.optional "discard_pile" ofFields.zone [] = .read q.discard ∧
      fields.optional "resources" (Value.readEntries Value.readInteger) .empty = .read q.resources ∧
      fields.closed fieldNames = .read ()) ∧ q.loose = [] ∧ q.Valid := by
  simp only [ofFields, Reading.ensure_eq_read_iff, Reading.seq_eq_read_iff, Reading.map_eq_read_iff,
    Option.map_eq_none_iff, problem?_eq_none_iff]
  constructor
  · rintro ⟨⟨_, _, ⟨_, _, ⟨_, _, ⟨_, _, ⟨_, _, ⟨_, _, ⟨_, _, ⟨_, hid, rfl⟩, hhealth, rfl⟩, hmax, rfl⟩,
      hhand, rfl⟩, hdeck, rfl⟩, hdiscard, rfl⟩, hresources, rfl⟩, hclosed, rfl⟩, hvalid⟩
    exact ⟨⟨hid, hhealth, hmax, hhand, hdeck, hdiscard, hresources, hclosed⟩, rfl, hvalid⟩
  · rintro ⟨⟨hid, hhealth, hmax, hhand, hdeck, hdiscard, hresources, hclosed⟩, hl, hvalid⟩
    obtain ⟨id, health, maxHealth, hand, deck, discard, resources, loose⟩ := q
    cases hl
    exact ⟨⟨_, _, ⟨_, _, ⟨_, _, ⟨_, _, ⟨_, _, ⟨_, _, ⟨_, _, ⟨_, hid, rfl⟩, hhealth, rfl⟩, hmax, rfl⟩,
      hhand, rfl⟩, hdeck, rfl⟩, hdiscard, rfl⟩, hresources, rfl⟩, hclosed, rfl⟩, hvalid⟩

theorem readZone_eq_read_iff {cards zone : List Card} (h : ∀ card ∈ cards, card.Readable) :
    ofFields.zone (toValue.zone cards) = .read zone ↔ zone = cards := by
  have hread : ofFields.zone (toValue.zone cards) = .read cards := Value.readItems_map h
  rw [hread, Reading.read.injEq, eq_comm]

theorem ofValue_toValue_eq_read_iff (hl : p.loose = []) (hc : ∀ card ∈ p.cards, card.Readable) :
    ofValue p.toValue = .read q ↔ (p.id ≠ "" ∧ 0 ≤ p.maxHealth ∧ p.Valid) ∧ q = p := by
  have hresources : (Value.object p.shownResources).readEntries Value.readInteger =
      .read p.resources := by
    simp only [shownResources, hl, Entries.find?]
    exact OrderedMap.readEntries_map fun _ _ => rfl
  have hid : p.shownId = .str p.id := by simp [shownId, Fields.over, hl, Entries.find?]
  have hhealth : p.shownHealth = .int p.health := by
    simp [shownHealth, Fields.over, hl, Entries.find?]
  have hmax : p.shownMaxHealth = .int p.maxHealth := by
    simp [shownMaxHealth, Fields.over, hl, Entries.find?]
  have hzones : (∀ card ∈ p.hand, card.Readable) ∧ (∀ card ∈ p.deck, card.Readable) ∧
      ∀ card ∈ p.discard, card.Readable := by
    simpa [cards, or_imp, forall_and, and_assoc] using hc
  rw [toValue, ofValue, Value.readRecord, ofFields_eq_read_iff, hid, hhealth, hmax,
    Fields.required_eq_read_iff rfl, Fields.required_eq_read_iff rfl, Fields.required_eq_read_iff rfl,
    Fields.optional_eq_read_iff rfl, Fields.optional_eq_read_iff rfl, Fields.optional_eq_read_iff rfl,
    Fields.optional_eq_read_iff rfl, hresources, Value.readName_str_eq_read_iff,
    Value.readCount_int_eq_read_iff, Value.readCount_int_eq_read_iff,
    readZone_eq_read_iff hzones.1, readZone_eq_read_iff hzones.2.1, readZone_eq_read_iff hzones.2.2]
  constructor
  · rintro ⟨⟨⟨hid, hne⟩, ⟨hhealth, _⟩, ⟨hmax, h0⟩, hhand, hdeck, hdiscard, hresources, _⟩, hloose, hvalid⟩
    have heq : q = p := by
      cases p
      cases q
      simp_all
    rw [heq] at hvalid
    exact ⟨⟨hne, h0, hvalid⟩, heq⟩
  · rintro ⟨⟨hne, h0, hvalid⟩, rfl⟩
    exact ⟨⟨⟨rfl, hne⟩, ⟨rfl, hvalid.health_nonneg⟩, ⟨rfl, h0⟩, rfl, rfl, rfl, rfl, rfl⟩, hl, hvalid⟩

end Player

namespace Phase

theorem ofValue_name (phase : Phase) : ofValue (.str phase.name) = .read phase := by
  cases phase <;> rfl

end Phase

namespace GameState
variable {s t : GameState}

theorem ofFields_eq_read_iff {fields : Fields} : ofFields fields = .read t ↔
    (fields.optional "players" (Value.readEntries Player.ofValue) .empty = .read t.players ∧
      fields.optional "current_player" Value.readString "" = .read t.currentPlayer ∧
      fields.optional "turn" Value.readCount 0 = .read t.turn ∧
      fields.optional "phase" Phase.ofValue .draw = .read t.phase ∧
      fields.closed fieldNames = .read ()) ∧
    t.problem? = none ∧ t = { toTable := t.toTable } ∧ t.loose = [] := by
  simp only [ofFields, Reading.ensure_eq_read_iff, Reading.seq_eq_read_iff, Reading.map_eq_read_iff,
    Option.map_eq_none_iff]
  constructor
  · rintro ⟨⟨_, _, ⟨_, _, ⟨_, _, ⟨_, _, ⟨_, hplayers, rfl⟩, hcurrent, rfl⟩, hturn, rfl⟩, hphase, rfl⟩,
      hclosed, rfl⟩, hproblem⟩
    exact ⟨⟨hplayers, hcurrent, hturn, hphase, hclosed⟩, hproblem, rfl, rfl⟩
  · rintro ⟨⟨hplayers, hcurrent, hturn, hphase, hclosed⟩, hproblem, hfirst, hl⟩
    obtain ⟨⟨players, current, turn, phase, loose⟩, revision, seating⟩ := t
    cases hl
    cases hfirst
    exact ⟨⟨_, _, ⟨_, _, ⟨_, _, ⟨_, _, ⟨_, hplayers, rfl⟩, hcurrent, rfl⟩, hturn, rfl⟩, hphase, rfl⟩,
      hclosed, rfl⟩, hproblem⟩

/-- A state that is read is a first revision, whatever revision was written. -/
theorem ofValue_toValue_eq_read_iff (hl : s.loose = [])
    (hp : ∀ seat ∈ s.players.entries, seat.2.Readable) :
    ofValue s.toValue = .read t ↔
      (0 ≤ s.turn ∧ s.problem? = none) ∧ t = { toTable := s.toTable } := by
  have hplayers : (Value.object (s.players.map Player.toValue).entries).readEntries Player.ofValue =
      .read s.players := OrderedMap.readEntries_map hp
  have hcurrent : s.shownCurrent = .str s.currentPlayer := by
    simp [Table.shownCurrent, Fields.over, hl, Entries.find?]
  have hturn : s.shownTurn = .int s.turn := by
    simp [Table.shownTurn, Fields.over, hl, Entries.find?]
  rw [toValue, ofValue, Value.readRecord, ofFields_eq_read_iff, hcurrent, hturn,
    Fields.optional_eq_read_iff rfl, Fields.optional_eq_read_iff rfl, Fields.optional_eq_read_iff rfl,
    Fields.optional_eq_read_iff rfl, hplayers, Phase.ofValue_name, Value.readCount_int_eq_read_iff]
  constructor
  · rintro ⟨⟨hplayers, hcurrent, ⟨hturn, h0⟩, hphase, _⟩, hproblem, hfirst, hloose⟩
    have htable : t.toTable = s.toTable := by
      have hplayers' : s.players = t.players := Reading.read.inj hplayers
      have hcurrent' : s.currentPlayer = t.currentPlayer := Reading.read.inj hcurrent
      have hphase' : s.phase = t.phase := Reading.read.inj hphase
      obtain ⟨⟨_, _, _, _, _⟩, _, _⟩ := s
      obtain ⟨⟨_, _, _, _, _⟩, _, _⟩ := t
      simp_all
    rw [htable] at hfirst
    rw [hfirst] at hproblem
    exact ⟨⟨h0, hproblem⟩, hfirst⟩
  · rintro ⟨⟨h0, hproblem⟩, rfl⟩
    exact ⟨⟨rfl, rfl, ⟨rfl, h0⟩, rfl, rfl⟩, hproblem, rfl, hl⟩

end GameState

end Cardplay

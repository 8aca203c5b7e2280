/-!
# Maps that remember the order of first insertion

An `OrderedMap α` is a list of pairs whose keys are all different. `insert` replaces a value where
its key already stands and appends a new key at the end; `erase` closes the gap, so a key that comes
back stands last. Two maps are equal when they hold equal pairs in the same order; `SameContents`
forgets the order.
-/

set_option autoImplicit false

namespace Cardplay

universe u v

namespace Entries
variable {α : Type u} {β : Type v}

/-- Replaces the value of `key` where it stands, or appends the pair. -/
def put (key : String) (value : α) : List (String × α) → List (String × α)
  | [] => [(key, value)]
  | entry :: rest =>
    if entry.1 = key then (key, value) :: rest else entry :: put key value rest

def find? (key : String) : List (String × α) → Option α
  | [] => none
  | entry :: rest => if entry.1 = key then some entry.2 else find? key rest

def drop (key : String) (entries : List (String × α)) : List (String × α) :=
  entries.filter fun entry => entry.1 ≠ key

theorem keys_put (key : String) (value : α) (entries : List (String × α)) :
    (put key value entries).map Prod.fst =
      if key ∈ entries.map Prod.fst then entries.map Prod.fst
      else entries.map Prod.fst ++ [key] := by
  induction entries with
  | nil => simp [put]
  | cons entry rest ih =>
    by_cases h : entry.1 = key
    · simp [put, h]
    · have h' : ¬ key = entry.1 := fun e => h e.symm
      simp only [put, h, if_false, List.map_cons, ih, List.mem_cons, h', false_or]
      split <;> simp

theorem nodup_keys_put {entries : List (String × α)} (h : (entries.map Prod.fst).Nodup)
    (key : String) (value : α) : ((put key value entries).map Prod.fst).Nodup := by
  rw [keys_put]
  split
  · exact h
  · rename_i hk
    exact List.nodup_append.2 ⟨h, by simp, fun a ha b hb => by
      simp only [List.mem_singleton] at hb
      exact fun e => hk (hb ▸ e ▸ ha)⟩

theorem nodup_keys_drop {entries : List (String × α)} (h : (entries.map Prod.fst).Nodup)
    (key : String) : ((drop key entries).map Prod.fst).Nodup :=
  (List.Sublist.map _ List.filter_sublist).nodup h

@[simp] theorem find?_put_self (key : String) (value : α) (entries : List (String × α)) :
    find? key (put key value entries) = some value := by
  induction entries with
  | nil => simp [put, find?]
  | cons entry rest ih => by_cases h : entry.1 = key <;> simp [put, find?, h, ih]

theorem find?_put_of_ne {key other : String} (hne : other ≠ key) (value : α)
    (entries : List (String × α)) : find? other (put key value entries) = find? other entries := by
  have hne' : ¬ key = other := fun e => hne e.symm
  induction entries with
  | nil => simp [put, find?, hne']
  | cons entry rest ih =>
    by_cases h : entry.1 = key
    · simp [put, find?, h, hne']
    · simp [put, find?, h, ih]

@[simp] theorem find?_drop_self (key : String) (entries : List (String × α)) :
    find? key (drop key entries) = none := by
  induction entries with
  | nil => rfl
  | cons entry rest ih =>
    by_cases h : entry.1 = key <;> simp_all [drop, find?]

theorem find?_drop_of_ne {key other : String} (hne : other ≠ key) (entries : List (String × α)) :
    find? other (drop key entries) = find? other entries := by
  induction entries with
  | nil => rfl
  | cons entry rest ih =>
    by_cases h : entry.1 = key
    · have h' : ¬ entry.1 = other := fun e => hne (e ▸ h)
      simp_all [drop, find?]
    · by_cases h' : entry.1 = other <;> simp_all [drop, find?]

theorem find?_isSome_iff {key : String} {entries : List (String × α)} :
    (find? key entries).isSome ↔ key ∈ entries.map Prod.fst := by
  induction entries with
  | nil => simp [find?]
  | cons entry rest ih =>
    by_cases h : entry.1 = key
    · simp [find?, h]
    · have h' : ¬ key = entry.1 := fun e => h e.symm
      simp only [find?, h, if_false, ih, List.map_cons, List.mem_cons, h', false_or]

theorem find?_eq (key : String) (entries : List (String × α)) :
    find? key entries = (entries.find? fun entry => entry.1 = key).map Prod.snd := by
  induction entries with
  | nil => rfl
  | cons entry rest ih => by_cases h : entry.1 = key <;> simp [find?, h, ih]

theorem mem_iff_find? {key : String} {value : α} {entries : List (String × α)}
    (h : (entries.map Prod.fst).Nodup) : (key, value) ∈ entries ↔ find? key entries = some value := by
  induction entries with
  | nil => simp [find?]
  | cons entry rest ih =>
    obtain ⟨hentry, hrest⟩ := List.nodup_cons.mp h
    by_cases hk : entry.1 = key
    · have hnot : (key, value) ∉ rest := fun hm => hentry (hk ▸ List.mem_map_of_mem hm)
      simp [find?, hk, hnot, Prod.ext_iff, eq_comm]
    · have hne : (key, value) ≠ entry := fun e => hk (e ▸ rfl)
      simp [find?, hk, hne, ih hrest]

end Entries

/-- Pairs in order of first insertion, no key twice. -/
structure OrderedMap (α : Type u) where
  entries : List (String × α)
  nodup : (entries.map Prod.fst).Nodup

namespace OrderedMap
variable {α : Type u} {β : Type v}

theorem ext {m n : OrderedMap α} (h : m.entries = n.entries) : m = n := by
  cases m; cases n; cases h; rfl

instance [DecidableEq α] : DecidableEq (OrderedMap α) := fun m n =>
  decidable_of_iff (m.entries = n.entries) ⟨ext, fun h => h ▸ rfl⟩

def empty : OrderedMap α := ⟨[], by simp⟩

instance : Inhabited (OrderedMap α) := ⟨empty⟩

instance : EmptyCollection (OrderedMap α) := ⟨empty⟩

def keys (m : OrderedMap α) : List String := m.entries.map Prod.fst

def values (m : OrderedMap α) : List α := m.entries.map Prod.snd

def isEmpty (m : OrderedMap α) : Bool := m.entries.isEmpty

def get? (m : OrderedMap α) (key : String) : Option α := Entries.find? key m.entries

def contains (m : OrderedMap α) (key : String) : Bool := (m.get? key).isSome

def insert (m : OrderedMap α) (key : String) (value : α) : OrderedMap α :=
  ⟨Entries.put key value m.entries, Entries.nodup_keys_put m.nodup key value⟩

def erase (m : OrderedMap α) (key : String) : OrderedMap α :=
  ⟨Entries.drop key m.entries, Entries.nodup_keys_drop m.nodup key⟩

/-- A repeated key keeps its first place and takes its last value. -/
def ofList (entries : List (String × α)) : OrderedMap α :=
  entries.foldl (fun m entry => m.insert entry.1 entry.2) empty

/-- The first map overridden by the second. -/
def override (m n : OrderedMap α) : OrderedMap α :=
  n.entries.foldl (fun acc entry => acc.insert entry.1 entry.2) m

def map (f : α → β) (m : OrderedMap α) : OrderedMap β :=
  ⟨m.entries.map fun entry => (entry.1, f entry.2), by
    simpa [List.map_map, Function.comp_def] using m.nodup⟩

/-- Same keys with same values, in any order. -/
def SameContents (m n : OrderedMap α) : Prop := ∀ key, m.get? key = n.get? key

theorem contains_iff {m : OrderedMap α} {key : String} : m.contains key ↔ key ∈ m.keys :=
  Entries.find?_isSome_iff

theorem mem_entries_iff {m : OrderedMap α} {key : String} {value : α} :
    (key, value) ∈ m.entries ↔ m.get? key = some value :=
  Entries.mem_iff_find? m.nodup

theorem mem_keys_iff {m : OrderedMap α} {key : String} :
    key ∈ m.keys ↔ ∃ value, m.get? key = some value := by
  rw [← contains_iff, contains, Option.isSome_iff_exists]

theorem isEmpty_iff {m : OrderedMap α} : m.isEmpty ↔ m.keys = [] := by
  simp [isEmpty, keys]

theorem nodup_keys (m : OrderedMap α) : m.keys.Nodup := m.nodup

@[simp] theorem keys_empty : (empty : OrderedMap α).keys = [] := rfl

@[simp] theorem get?_empty (key : String) : (empty : OrderedMap α).get? key = none := rfl

theorem keys_insert (m : OrderedMap α) (key : String) (value : α) :
    (m.insert key value).keys = if key ∈ m.keys then m.keys else m.keys ++ [key] :=
  Entries.keys_put key value m.entries

@[simp] theorem get?_insert_self (m : OrderedMap α) (key : String) (value : α) :
    (m.insert key value).get? key = some value :=
  Entries.find?_put_self key value m.entries

theorem get?_insert_of_ne (m : OrderedMap α) {key other : String} (h : other ≠ key) (value : α) :
    (m.insert key value).get? other = m.get? other :=
  Entries.find?_put_of_ne h value m.entries

@[simp] theorem get?_erase_self (m : OrderedMap α) (key : String) :
    (m.erase key).get? key = none :=
  Entries.find?_drop_self key m.entries

theorem get?_erase_of_ne (m : OrderedMap α) {key other : String} (h : other ≠ key) :
    (m.erase key).get? other = m.get? other :=
  Entries.find?_drop_of_ne h m.entries

theorem keys_erase (m : OrderedMap α) (key : String) :
    (m.erase key).keys = m.keys.filter fun k => k ≠ key := by
  simp [keys, erase, Entries.drop, List.filter_map, Function.comp_def]

/-- Of several values under one key the last one counts. -/
theorem get?_foldl_insert (m : OrderedMap α) (pairs : List (String × α)) (key : String) :
    (pairs.foldl (fun acc pair => acc.insert pair.1 pair.2) m).get? key =
      ((pairs.reverse.find? fun pair => pair.1 = key).map Prod.snd).or (m.get? key) := by
  induction pairs generalizing m with
  | nil => rfl
  | cons pair rest ih =>
    rw [List.foldl_cons, ih, List.reverse_cons, List.find?_append, Option.map_or, Option.or_assoc]
    congr 1
    by_cases h : pair.1 = key
    · subst h
      simp
    · rw [get?_insert_of_ne _ (Ne.symm h)]
      simp [h]

theorem get?_ofList (pairs : List (String × α)) (key : String) :
    (ofList pairs).get? key = Entries.find? key pairs.reverse := by
  rw [ofList, get?_foldl_insert, get?_empty, Option.or_none, Entries.find?_eq]

theorem ofList_concat (pairs : List (String × α)) (key : String) (value : α) :
    ofList (pairs ++ [(key, value)]) = (ofList pairs).insert key value := by
  rw [ofList, List.foldl_append]
  rfl

theorem mem_keys_ofList {pairs : List (String × α)} {key : String} :
    key ∈ (ofList pairs).keys ↔ key ∈ pairs.map Prod.fst := by
  rw [← contains_iff, contains, get?_ofList, Entries.find?_isSome_iff, List.map_reverse,
    List.mem_reverse]

end OrderedMap

end Cardplay

import Cardplay.Capability.Storage
import Cardplay.Settings.Settings
import Mathlib.Data.List.Basic

/-!
# Namespaces

What a store writes another store over the same map sees under the keys that stand for the same full key, and
nowhere else (`Store.spares_iff`, `Store.hides_iff`). A store tells its own keys apart, but the leads of two
stores need not: the empty namespace is the start of every other, and a namespace with a colon may go on where
another one ends. Stores of different namespaces are isolated exactly if neither lead starts with the other
(`Store.isolated_iff`); a colon is no blank, so settings accept namespaces that are not.
-/

set_option autoImplicit false

namespace Cardplay

/-- Settings accept every short namespace without blanks. -/
theorem Settings.spaceAlone_of_plain {space : String} (hlimit : space.length ≤ spaceLimit)
    (hplain : space.toList.any Text.isBlank = false) :
    spaceAlone {} [("namespace", .str space)] = .ok space := by
  have hlower : Text.lower "namespace" = "namespace" := by decide +kernel
  have hfield : field [("namespace", .str space)] {} "namespace" "storage_namespace" =
      [("namespace", .str space)] := by
    simp [field, given?, hlower]
  have hread : readSpace (.str space) = .read space := by
    simp [readSpace, Value.readString, Reading.ensure, Nat.not_lt.mpr hlimit]
  have hoptional : Fields.optional [("namespace", .str space)] "namespace" readSpace "" = .read space := by
    simp [Fields.optional, Entries.find?, hread, Reading.under]
  have hany : space.any Text.isBlank = false := String.contains_bool_eq.trans hplain
  rw [spaceAlone, storageSection, hfield, hoptional]
  simp only [hany]
  rfl

namespace Store
variable {store a b : Store} {full key key' : String} {data data' : Backing}

theorem eq_of_space_eq (h : a.space = b.space) : a = b := congrArg Store.mk h

theorem lead_prefix_fullKey (store : Store) (key : String) :
    store.lead.toList <+: (store.fullKey key).toList := by
  simp [fullKey, String.toList_append]

theorem ownKey?_eq_some_iff : store.ownKey? full = some key ↔ full = store.fullKey key := by
  unfold ownKey? fullKey
  rw [Option.ite_none_right_eq_some, List.isPrefixOf_iff_prefix]
  constructor
  · rintro ⟨⟨rest, hrest⟩, hkey⟩
    rw [← String.toList_inj, String.toList_append, ← Option.some.inj hkey, String.toList_ofList, ← hrest,
      List.drop_left]
  · rintro rfl
    simp [String.toList_append]

@[simp] theorem ownKey?_fullKey (store : Store) (key : String) :
    store.ownKey? (store.fullKey key) = some key :=
  ownKey?_eq_some_iff.mpr rfl

theorem ownKey?_eq_none_iff : store.ownKey? full = none ↔ ∀ key, full ≠ store.fullKey key := by
  simp only [Option.eq_none_iff_forall_ne_some, Ne, ownKey?_eq_some_iff]

theorem fullKey_injective (store : Store) : Function.Injective store.fullKey := by
  intro key key' h
  rw [← Option.some.injEq, ← ownKey?_fullKey store key, h, ownKey?_fullKey]

/-- The second map is what the store makes of the first when it saves or deletes the key. -/
inductive Writes (store : Store) (key : String) (data : Backing) : Backing → Prop
  | save (value : Value) : Writes store key data (store.save key value data)
  | delete : Writes store key data (store.delete key data)

theorem Writes.get?_of_ne (h : a.Writes key data data') (hne : full ≠ a.fullKey key) :
    data'.get? full = data.get? full := by
  cases h with
  | save value => exact OrderedMap.get?_insert_of_ne _ hne _
  | delete => exact OrderedMap.get?_erase_of_ne _ hne

theorem Writes.keys_eq (h : a.Writes key data data') (hnone : b.ownKey? (a.fullKey key) = none) :
    b.keys data' = b.keys data := by
  cases h with
  | save value =>
    rw [keys, Store.save, OrderedMap.keys_insert]
    split
    · rfl
    · simp [keys, List.filterMap_append, hnone]
  | delete =>
    rw [keys, Store.delete, OrderedMap.keys_erase, List.filterMap_filter]
    refine List.filterMap_congr fun full _ => ?_
    by_cases hfull : full = a.fullKey key
    · simp [hfull, hnone]
    · simp [hfull]

/-- Whatever the one store writes under its key, the other finds the same as before under its own. -/
def Spares (a : Store) (key : String) (b : Store) (key' : String) : Prop :=
  ∀ {data data'}, a.Writes key data data' →
    b.load key' data' = b.load key' data ∧ b.has key' data' = b.has key' data

/-- Whatever the one store writes under its key, the other lists the same keys as before. -/
def Hides (a : Store) (key : String) (b : Store) : Prop :=
  ∀ {data data'}, a.Writes key data data' → b.keys data' = b.keys data

theorem spares_iff : a.Spares key b key' ↔ a.fullKey key ≠ b.fullKey key' := by
  constructor
  · intro h heq
    have hwrites : a.Writes key .empty (a.save key .null .empty) := .save .null
    obtain ⟨-, hhas⟩ := h hwrites
    simp [has, save, heq, OrderedMap.contains] at hhas
  · intro hne data data' hwrites
    have hget := hwrites.get?_of_ne hne.symm
    exact ⟨hget, congrArg Option.isSome hget⟩

theorem hides_iff : a.Hides key b ↔ ∀ key', a.fullKey key ≠ b.fullKey key' := by
  rw [← ownKey?_eq_none_iff]
  constructor
  · intro h
    have hwrites : a.Writes key .empty (a.save key .null .empty) := .save .null
    have hkeys := h hwrites
    rw [keys, save, OrderedMap.keys_insert] at hkeys
    cases hown : b.ownKey? (a.fullKey key) with
    | none => rfl
    | some own => simp [keys, hown] at hkeys
  · exact fun hnone _ _ hwrites => hwrites.keys_eq hnone

/-- What the first store writes under one key shows nowhere else in the second, and not at all in the list of
its keys if the namespaces differ. -/
structure Isolated (a b : Store) : Prop where
  finds : ∀ key key', (a.space, key) ≠ (b.space, key') → a.Spares key b key'
  lists : a.space ≠ b.space → ∀ key, a.Hides key b

/-- Neither lead starts with the other. -/
structure Apart (a b : Store) : Prop where
  left : ¬ a.lead.toList <+: b.lead.toList
  right : ¬ b.lead.toList <+: a.lead.toList

theorem apart_iff : a.Apart b ↔ ∀ key key', a.fullKey key ≠ b.fullKey key' := by
  constructor
  · intro h key key' heq
    have ha := a.lead_prefix_fullKey key
    have hb := b.lead_prefix_fullKey key'
    rw [← heq] at hb
    rcases List.prefix_or_prefix_of_prefix ha hb with hab | hba
    · exact h.left hab
    · exact h.right hba
  · intro h
    -- What the longer lead has more is a key for the store with the shorter one.
    constructor
    · rintro ⟨rest, hrest⟩
      refine h (String.ofList rest) "" (String.toList_inj.mp ?_)
      simp [fullKey, String.toList_append, hrest]
    · rintro ⟨rest, hrest⟩
      refine h "" (String.ofList rest) (String.toList_inj.mp ?_)
      simp [fullKey, String.toList_append, hrest]

/-- The full key tells the namespace and the key. -/
theorem isolated_iff_fullKey : a.Isolated b ↔
    ∀ key key', a.fullKey key = b.fullKey key' → (a.space, key) = (b.space, key') := by
  constructor
  · intro h key key' heq
    by_contra hne
    exact spares_iff.mp (h.finds key key' hne) heq
  · intro h
    refine ⟨fun key key' hne => spares_iff.mpr fun heq => hne (h key key' heq), fun hspace key => ?_⟩
    exact hides_iff.mpr fun key' heq => hspace (congrArg Prod.fst (h key key' heq))

theorem isolated_iff : a.Isolated b ↔ a = b ∨ a.Apart b := by
  rw [isolated_iff_fullKey, apart_iff]
  constructor
  · intro h
    by_cases hab : a = b
    · exact .inl hab
    · refine .inr fun key key' heq => hab ?_
      exact eq_of_space_eq (congrArg Prod.fst (h key key' heq))
  · rintro (rfl | h) key key' heq
    · rw [a.fullKey_injective heq]
    · exact absurd heq (h key key')

/-- A namespace that is a word of its own: not empty, and without a colon. -/
structure Proper (store : Store) : Prop where
  named : store.space ≠ ""
  plain : ':' ∉ store.space.toList

theorem lead_of_named (h : store.space ≠ "") : store.lead = store.space ++ ":" := by
  rw [lead, if_neg (by simpa using h)]

/-- A lead with its first colon at the end starts with no other lead. -/
theorem Proper.eq_of_prefix (ha : a.Proper) (hb : b.Proper) (h : a.lead.toList <+: b.lead.toList) :
    a = b := by
  obtain ⟨rest, hrest⟩ := h
  rw [lead_of_named ha.named, lead_of_named hb.named, String.toList_append, String.toList_append,
    List.append_assoc] at hrest
  obtain ⟨hspace, -⟩ := (List.append_cons_inj_of_notMem hb.plain List.not_mem_nil).mp hrest.symm
  exact eq_of_space_eq (String.toList_inj.mp hspace.symm)

theorem Proper.isolated (ha : a.Proper) (hb : b.Proper) : a.Isolated b := by
  rw [isolated_iff]
  by_cases hab : a = b
  · exact .inl hab
  · exact .inr ⟨fun h => hab (ha.eq_of_prefix hb h), fun h => hab (hb.eq_of_prefix ha h).symm⟩

/-- What one of two stores writes shows in the other exactly where both mean the same full key. So the stores are
isolated exactly if the full key tells the namespace and the key, which is to say that they are one store or
neither lead starts with the other. Two namespaces that are words of their own always are. -/
theorem namespaces_isolated (a b : Store) :
    (∀ key key', a.Spares key b key' ↔ a.fullKey key ≠ b.fullKey key') ∧
    (∀ key, a.Hides key b ↔ ∀ key', a.fullKey key ≠ b.fullKey key') ∧
    (a.Isolated b ↔ ∀ key key', a.fullKey key = b.fullKey key' → (a.space, key) = (b.space, key')) ∧
    (a.Isolated b ↔ a = b ∨ a.Apart b) ∧ (a.Proper ∧ b.Proper → a.Isolated b) :=
  ⟨fun _ _ => spares_iff, fun _ => hides_iff, isolated_iff_fullKey, isolated_iff, fun h => h.1.isolated h.2⟩

/-- Settings accept both namespaces, and what the first store saves under `b:c` is what the second finds and lists
under `c`. -/
theorem namespaces_shared :
    Settings.spaceAlone {} [("namespace", .str "a")] = .ok "a" ∧
    Settings.spaceAlone {} [("namespace", .str "a:b")] = .ok "a:b" ∧
    let data := (Store.mk "a").save "b:c" (.int 1) .empty
    (Store.mk "a:b").load "c" .empty = none ∧ (Store.mk "a:b").load "c" data = some (.int 1) ∧
    (Store.mk "a:b").has "c" .empty = false ∧ (Store.mk "a:b").has "c" data = true ∧
    (Store.mk "a:b").keys .empty = [] ∧ (Store.mk "a:b").keys data = ["c"] ∧
    ¬ (Store.mk "a").Isolated (Store.mk "a:b") := by
  refine ⟨Settings.spaceAlone_of_plain (by decide) (by decide),
    Settings.spaceAlone_of_plain (by decide) (by decide), rfl, rfl, rfl, ?_, rfl, ?_, ?_⟩
  · decide +kernel
  · decide +kernel
  · rw [isolated_iff_fullKey]
    intro h
    have hsame : ("a", "b:c") = ("a:b", "c") := h "b:c" "c" (by decide)
    exact absurd hsame (by decide)

end Store

end Cardplay

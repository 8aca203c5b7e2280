import Cardplay.Proofs.Capability.Namespaces
import Mathlib.Data.List.Induction
import Mathlib.Data.List.Nodup

/-!
# A store and its chronicle

What a store answers can be told from the requests that were made before, without the map, the prefix and the
order in which the map has its keys: a key holds the value of its last save unless it was deleted since, and the
keys are listed in the order of the saves with which they entered (`Store.Told`). On its own keys a store is a map
that remembers the order of insertion (`Store.keys_save`, `Store.keys_delete`), so a fresh store answers every
request as its chronicle tells (`Store.answers_told`).
-/

set_option autoImplicit false

namespace Cardplay

namespace Store
variable {store : Store} {key key' : String} {value : Value} {data : Backing}

theorem load_save_self : store.load key (store.save key value data) = some value :=
  OrderedMap.get?_insert_self ..

theorem load_save_of_ne (h : key' ≠ key) :
    store.load key' (store.save key value data) = store.load key' data :=
  OrderedMap.get?_insert_of_ne _ (store.fullKey_injective.ne h) _

theorem load_delete_self : store.load key (store.delete key data) = none :=
  OrderedMap.get?_erase_self ..

theorem load_delete_of_ne (h : key' ≠ key) :
    store.load key' (store.delete key data) = store.load key' data :=
  OrderedMap.get?_erase_of_ne _ (store.fullKey_injective.ne h)

theorem has_iff : store.has key data ↔ ∃ value, store.load key data = some value :=
  Option.isSome_iff_exists

theorem fullKey_mem_keys_iff : store.fullKey key ∈ data.keys ↔ key ∈ store.keys data := by
  simp [keys, ownKey?_eq_some_iff]

theorem mem_keys_iff : key ∈ store.keys data ↔ store.has key data := by
  rw [has, OrderedMap.contains_iff, fullKey_mem_keys_iff]

theorem nodup_keys (store : Store) (data : Backing) : (store.keys data).Nodup := by
  apply List.Nodup.filterMap _ data.nodup_keys
  intro full full' own hown hown'
  exact (ownKey?_eq_some_iff.mp hown).trans (ownKey?_eq_some_iff.mp hown').symm

theorem keys_save : store.keys (store.save key value data) =
    if key ∈ store.keys data then store.keys data else store.keys data ++ [key] := by
  rw [← if_congr fullKey_mem_keys_iff rfl rfl, keys, save, OrderedMap.keys_insert]
  split
  · rfl
  · simp [keys, List.filterMap_append]

theorem keys_delete :
    store.keys (store.delete key data) = (store.keys data).filter fun other => other ≠ key := by
  rw [keys, delete, OrderedMap.keys_erase, keys, List.filterMap_filter, List.filter_filterMap]
  refine List.filterMap_congr fun full _ => ?_
  cases hown : store.ownKey? full with
  | none => simp
  | some own =>
    obtain rfl := ownKey?_eq_some_iff.mp hown
    simp [store.fullKey_injective.eq_iff, Option.filter]

/-- What can be asked of a store. -/
inductive Request
  | save (key : String) (value : Value)
  | load (key : String)
  | has (key : String)
  | delete (key : String)
  | keys

namespace Request

/-- The key that the request saves or deletes. -/
def written? : Request → Option String
  | save key _ | delete key => some key
  | load _ | has _ | keys => none

end Request

inductive Reply
  | done
  | value (found : Option Value)
  | truth (holds : Bool)
  | keys (listed : List String)

/-- The reply to a request, and what is stored then. -/
def answer (store : Store) (data : Backing) : Request → Reply × Backing
  | .save key value => (.done, store.save key value data)
  | .load key => (.value (store.load key data), data)
  | .has key => (.truth (store.has key data), data)
  | .delete key => (.done, store.delete key data)
  | .keys => (.keys (store.keys data), data)

/-- What is stored in a fresh store after the requests. -/
def after (store : Store) (requests : List Request) : Backing :=
  requests.foldl (fun data request => (store.answer data request).2) .empty

/-! ### The chronicle -/

/-- The last save of the key had that value, and no delete followed. -/
def Held (requests : List Request) (key : String) (value : Value) : Prop :=
  ∃ before later, requests = before ++ .save key value :: later ∧
    ∀ request ∈ later, request.written? ≠ some key

/-- That place in the chronicle is the first save of the key since it was last absent. -/
def Entered (requests : List Request) (key : String) (place : Nat) : Prop :=
  ∃ before value later, requests = before ++ .save key value :: later ∧ before.length = place ∧
    (∀ value, ¬ Held before key value) ∧ .delete key ∉ later

/-- The one key entered before the other. -/
def Earlier (requests : List Request) (key key' : String) : Prop :=
  ∃ place place', Entered requests key place ∧ Entered requests key' place' ∧ place < place'

/-- The reply to a request, as the requests before it tell. -/
def Told (before : List Request) : Request → Reply → Prop
  | .save _ _, .done => True
  | .delete _, .done => True
  | .load key, .value found => ∀ value, found = some value ↔ Held before key value
  | .has key, .truth holds => holds ↔ ∃ value, Held before key value
  | .keys, .keys listed => listed.Nodup ∧ (∀ key, key ∈ listed ↔ ∃ value, Held before key value) ∧
      listed.Pairwise (Earlier before)
  | _, _ => False

variable {requests : List Request} {request : Request} {value' : Value} {place place' : Nat}

theorem held_nil : ¬ Held [] key value := by
  rintro ⟨before, later, hnil, -⟩
  simp at hnil

theorem held_concat : Held (requests ++ [request]) key value ↔
    request = .save key value ∨ request.written? ≠ some key ∧ Held requests key value := by
  constructor
  · rintro ⟨before, later, heq, hlater⟩
    rcases List.eq_nil_or_concat' later with rfl | ⟨earlier, last, rfl⟩
    · exact .inl (List.append_inj_right' heq rfl |> List.singleton_inj.mp)
    · rw [← List.cons_append, ← List.append_assoc] at heq
      obtain ⟨rfl, hlast⟩ := List.append_inj' heq rfl
      obtain rfl := List.singleton_inj.mp hlast
      exact .inr ⟨hlater _ (by simp), before, earlier, rfl, fun r hr => hlater r (by simp [hr])⟩
  · rintro (rfl | ⟨hrequest, before, later, rfl, hlater⟩)
    · exact ⟨requests, [], rfl, by simp⟩
    · refine ⟨before, later ++ [request], by simp, fun r hr => ?_⟩
      rcases List.mem_append.mp hr with hr | hr
      · exact hlater r hr
      · rwa [List.mem_singleton.mp hr]

/-- A key that was saved and not deleted since holds something. -/
theorem exists_held {before later : List Request} (h : .delete key ∉ later) :
    ∃ value', Held (before ++ .save key value :: later) key value' := by
  induction later using List.reverseRecOn with
  | nil => exact ⟨value, held_concat.mpr (.inl rfl)⟩
  | append_singleton earlier last ih =>
    rw [List.mem_append, List.mem_singleton, not_or] at h
    obtain ⟨held, hheld⟩ := ih h.1
    rw [← List.cons_append, ← List.append_assoc]
    by_cases hlast : last.written? = some key
    · cases last with
      | save other value' =>
        obtain rfl := Option.some.inj hlast
        exact ⟨value', held_concat.mpr (.inl rfl)⟩
      | delete other => exact absurd (congrArg Request.delete (Option.some.inj hlast).symm) h.2
      | load other => cases hlast
      | has other => cases hlast
      | keys => cases hlast
    · exact ⟨held, held_concat.mpr (.inr ⟨hlast, hheld⟩)⟩

theorem Entered.lt_length (h : Entered requests key place) : place < requests.length := by
  obtain ⟨before, value, later, rfl, rfl, -, -⟩ := h
  simp

theorem Entered.concat (h : Entered requests key place) (hne : request ≠ .delete key) :
    Entered (requests ++ [request]) key place := by
  obtain ⟨before, value, later, rfl, rfl, habsent, hlater⟩ := h
  refine ⟨before, value, later ++ [request], by simp, rfl, habsent, ?_⟩
  rw [List.mem_append, List.mem_singleton, not_or]
  exact ⟨hlater, hne.symm⟩

theorem Entered.of_absent (h : ∀ value, ¬ Held requests key value) (value : Value) :
    Entered (requests ++ [.save key value]) key requests.length :=
  ⟨requests, value, [], rfl, rfl, h, List.not_mem_nil⟩

/-- Where the key entered it was absent, so it did not enter before without being deleted since. -/
theorem Entered.le (h : Entered requests key place) (h' : Entered requests key place') : place ≤ place' := by
  obtain ⟨before, value, later, rfl, rfl, habsent, hlater⟩ := h
  obtain ⟨before', value', later', heq, rfl, habsent', hlater'⟩ := h'
  rcases List.append_eq_append_iff.mp heq with ⟨between, rfl, -⟩ | ⟨between, rfl, hlast⟩
  · simp
  · cases between with
    | nil => simp
    | cons first between =>
      obtain ⟨rfl, rfl⟩ := List.cons_eq_cons.mp hlast
      have hbetween : .delete key ∉ between := fun hmem => hlater' (List.mem_append_left _ hmem)
      obtain ⟨held, hheld⟩ := exists_held hbetween
      exact absurd hheld (habsent held)

theorem Entered.unique (h : Entered requests key place) (h' : Entered requests key place') : place = place' :=
  Nat.le_antisymm (h.le h') (h'.le h)

/-- What is held has entered. -/
theorem Held.entered (h : Held requests key value) : ∃ place, Entered requests key place := by
  induction requests using List.reverseRecOn generalizing value with
  | nil => exact absurd h held_nil
  | append_singleton earlier last ih =>
    rcases held_concat.mp h with rfl | ⟨hlast, hheld⟩
    · by_cases hbefore : ∃ value, Held earlier key value
      · obtain ⟨value', hheld⟩ := hbefore
        obtain ⟨place, hplace⟩ := ih hheld
        exact ⟨place, hplace.concat (by simp)⟩
      · exact ⟨earlier.length, .of_absent (not_exists.mp hbefore) value⟩
    · obtain ⟨place, hplace⟩ := ih hheld
      refine ⟨place, hplace.concat ?_⟩
      rintro rfl
      exact hlast rfl

theorem Earlier.concat (h : Earlier requests key key') (hne : request ≠ .delete key)
    (hne' : request ≠ .delete key') : Earlier (requests ++ [request]) key key' := by
  obtain ⟨place, place', hplace, hplace', hlt⟩ := h
  exact ⟨place, place', hplace.concat hne, hplace'.concat hne', hlt⟩

theorem Earlier.asymm (h : Earlier requests key key') : ¬ Earlier requests key' key := by
  obtain ⟨place, place', hplace, hplace', hlt⟩ := h
  rintro ⟨other', other, hother', hother, hlt'⟩
  rw [hplace.unique hother, hplace'.unique hother'] at hlt
  exact Nat.lt_asymm hlt hlt'

theorem Told.keys_unique {listed listed' : List String} (h : Told requests .keys (.keys listed))
    (h' : Told requests .keys (.keys listed')) : listed = listed' := by
  obtain ⟨hnodup, hmem, hordered⟩ := h
  obtain ⟨hnodup', hmem', hordered'⟩ := h'
  have hperm : listed.Perm listed' :=
    (List.perm_ext_iff_of_nodup hnodup hnodup').mpr fun key => (hmem key).trans (hmem' key).symm
  apply hperm.eq_of_pairwise _ hordered hordered'
  exact fun _ _ _ _ hearlier hlater => absurd hlater hearlier.asymm

/-- The requests before tell one reply. -/
theorem Told.unique {reply reply' : Reply} (h : Told requests request reply) (h' : Told requests request reply') :
    reply = reply' := by
  cases request with
  | save key value =>
    cases reply with
    | done =>
      cases reply' with
      | done => rfl
      | _ => cases h'
    | _ => cases h
  | delete key =>
    cases reply with
    | done =>
      cases reply' with
      | done => rfl
      | _ => cases h'
    | _ => cases h
  | load key =>
    cases reply with
    | value found =>
      cases reply' with
      | value found' => exact congrArg Reply.value (Option.ext fun value => (h value).trans (h' value).symm)
      | _ => cases h'
    | _ => cases h
  | has key =>
    cases reply with
    | truth holds =>
      cases reply' with
      | truth holds' => exact congrArg Reply.truth (Bool.eq_iff_iff.mpr (h.trans h'.symm))
      | _ => cases h'
    | _ => cases h
  | keys =>
    cases reply with
    | keys listed =>
      cases reply' with
      | keys listed' => exact congrArg Reply.keys (h.keys_unique h')
      | _ => cases h'
    | _ => cases h

/-! ### The store -/

/-- The store finds what the chronicle of these requests tells and lists it in that order, and the map holds
nothing else. -/
structure Follows (store : Store) (requests : List Request) (data : Backing) : Prop where
  held : ∀ key value, store.load key data = some value ↔ Held requests key value
  ordered : (store.keys data).Pairwise (Earlier requests)
  prefixed : data.keys = (store.keys data).map store.fullKey

namespace Follows

theorem init : store.Follows [] .empty where
  held key value := iff_of_false (by simp [load]) held_nil
  ordered := .nil
  prefixed := rfl

variable (h : store.Follows requests data)
include h

theorem has_iff : store.has key data ↔ ∃ value, Held requests key value := by
  rw [Store.has_iff]
  exact exists_congr fun value => h.held key value

theorem mem_keys_iff : key ∈ store.keys data ↔ ∃ value, Held requests key value := by
  rw [Store.mem_keys_iff, h.has_iff]

theorem save (key : String) (value : Value) :
    store.Follows (requests ++ [.save key value]) (store.save key value data) := by
  constructor
  · intro other found
    rw [held_concat]
    by_cases hother : other = key
    · subst hother
      simp [load_save_self, Request.written?]
    · simp [load_save_of_ne hother, h.held, Request.written?, Ne.symm hother]
  · have hkept : (store.keys data).Pairwise (Earlier (requests ++ [.save key value])) :=
      h.ordered.imp fun hearlier => hearlier.concat (by simp) (by simp)
    rw [keys_save]
    split
    · exact hkept
    · rename_i hnew
      refine List.pairwise_append.mpr ⟨hkept, List.pairwise_singleton _ _, ?_⟩
      intro other hother last hlast
      rw [List.mem_singleton.mp hlast]
      obtain ⟨found, hfound⟩ := h.mem_keys_iff.mp hother
      obtain ⟨place, hplace⟩ := hfound.entered
      have habsent : ∀ value, ¬ Held requests key value := fun value hheld =>
        hnew (h.mem_keys_iff.mpr ⟨value, hheld⟩)
      exact ⟨place, requests.length, hplace.concat (by simp), .of_absent habsent value, hplace.lt_length⟩
  · rw [keys_save, Store.save, OrderedMap.keys_insert, if_congr fullKey_mem_keys_iff rfl rfl, h.prefixed]
    split <;> simp

theorem delete (key : String) :
    store.Follows (requests ++ [.delete key]) (store.delete key data) := by
  constructor
  · intro other found
    rw [held_concat]
    by_cases hother : other = key
    · subst hother
      simp [load_delete_self, Request.written?]
    · simp [load_delete_of_ne hother, h.held, Request.written?, Ne.symm hother]
  · rw [keys_delete, List.pairwise_filter]
    refine h.ordered.imp fun hearlier hne hne' => ?_
    have hother {other : String} (hne : decide (other ≠ key) = true) :
        Request.delete key ≠ .delete other := fun heq =>
      of_decide_eq_true hne (Request.delete.inj heq).symm
    exact hearlier.concat (hother hne) (hother hne')
  · rw [keys_delete, Store.delete, OrderedMap.keys_erase, h.prefixed, List.filter_map]
    simp only [Function.comp_def, ne_eq, store.fullKey_injective.eq_iff]

/-- A request that writes nothing is passed over. -/
theorem idle (hidle : request.written? = none) : store.Follows (requests ++ [request]) data := by
  have hne (other : String) : request.written? ≠ some other := by simp [hidle]
  constructor
  · intro key value
    rw [h.held, held_concat]
    refine ⟨fun hheld => .inr ⟨hne key, hheld⟩, ?_⟩
    rintro (rfl | ⟨-, hheld⟩)
    · cases hidle
    · exact hheld
  · refine h.ordered.imp fun hearlier => hearlier.concat ?_ ?_
    · rintro rfl
      cases hidle
    · rintro rfl
      cases hidle
  · exact h.prefixed

theorem answer (request : Request) :
    store.Follows (requests ++ [request]) (store.answer data request).2 := by
  cases request with
  | save key value => exact h.save key value
  | delete key => exact h.delete key
  | load key => exact h.idle rfl
  | has key => exact h.idle rfl
  | keys => exact h.idle rfl

theorem told (request : Request) : Told requests request (store.answer data request).1 := by
  cases request with
  | save key value => trivial
  | delete key => trivial
  | load key => exact h.held key
  | has key => exact h.has_iff
  | keys => exact ⟨store.nodup_keys data, fun key => h.mem_keys_iff, h.ordered⟩

end Follows

/-- A key that is saved again stays in its place, one that was deleted in between comes last. -/
example : let store := Store.mk "a"
    store.keys (store.after [.save "a:x" .null, .save "y" .null, .save "a:x" (.int 1)]) = ["a:x", "y"] ∧
      store.keys (store.after [.save "a:x" .null, .save "y" .null, .delete "a:x", .save "a:x" (.int 1)]) =
        ["y", "a:x"] := by decide +kernel

end Store

end Cardplay

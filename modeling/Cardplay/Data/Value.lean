import Cardplay.Data.Binary
import Cardplay.Data.OrderedMap

/-!
# Open values

Context extras, result metadata, stored values, event data and authored fields hold values that no
schema describes. An object keeps its pairs in order of first insertion. Truth, equality and
order treat a boolean as the integer 0 or 1 and compare integers with binary fractions by value. A
value may also be something that is no data, of which only the type is known.
-/

set_option autoImplicit false

namespace Cardplay

/-- A type by its name and the place that defines it. -/
structure TypeName where
  scope : String
  name : String
deriving DecidableEq, Repr, Inhabited

namespace TypeName

def full (type : TypeName) : String :=
  if type.scope.isEmpty then type.name else type.scope ++ "." ++ type.name

end TypeName

inductive Value
  | null
  | bool (b : Bool)
  | int (n : Int)
  | binary (x : Binary)
  | str (s : String)
  /-- A text in which a code unit stands alone, with U+FFFD in its place. -/
  | brokenStr (s : String)
  | foreign (type : TypeName)
  | list (items : List Value)
  | object (entries : List (String × Value))
deriving Inhabited, Repr

/-- The fields of a record by name. -/
abbrev Fields := List (String × Value)

/-- What stands under a name, or else the field of that name. -/
def Fields.over (fields : Fields) (name : String) (field : Value) : Value :=
  (Entries.find? name fields).getD field

namespace Value

mutual

/-- Whether two values are built alike. -/
def same : Value → Value → Bool
  | null, null => true
  | bool a, bool b => a = b
  | int a, int b => a = b
  | binary a, binary b => a = b
  | str a, str b => a = b
  | brokenStr a, brokenStr b => a = b
  | foreign a, foreign b => a = b
  | list xs, list ys => sameItems xs ys
  | object xs, object ys => sameEntries xs ys
  | _, _ => false

def sameItems : List Value → List Value → Bool
  | [], [] => true
  | x :: xs, y :: ys => same x y && sameItems xs ys
  | _, _ => false

def sameEntries : List (String × Value) → List (String × Value) → Bool
  | [], [] => true
  | (key, x) :: xs, (other, y) :: ys => decide (key = other) && same x y && sameEntries xs ys
  | _, _ => false

end

mutual

theorem same_eq_true_iff : ∀ {a b : Value}, same a b = true ↔ a = b
  | a, b => by
    cases a <;> cases b <;> simp [same, sameItems_eq_true_iff, sameEntries_eq_true_iff]

theorem sameItems_eq_true_iff : ∀ {xs ys : List Value}, sameItems xs ys = true ↔ xs = ys
  | [], ys => by cases ys <;> simp [sameItems]
  | x :: xs, ys => by
    cases ys <;> simp [sameItems, same_eq_true_iff, sameItems_eq_true_iff]

theorem sameEntries_eq_true_iff : ∀ {xs ys : List (String × Value)},
    sameEntries xs ys = true ↔ xs = ys
  | [], ys => by cases ys <;> simp [sameEntries]
  | x :: xs, ys => by
    cases ys <;>
      simp [sameEntries, same_eq_true_iff, sameEntries_eq_true_iff, Prod.ext_iff, and_assoc]

end

instance : DecidableEq Value := fun a b => decidable_of_iff (same a b = true) same_eq_true_iff

end Value

/-- The types a value can be asked to have. -/
inductive ValueType
  | int | str | bool | binary | list | object
deriving DecidableEq, Repr, Inhabited

namespace ValueType

def name : ValueType → String
  | int => "int"
  | str => "str"
  | bool => "bool"
  | binary => "float"
  | list => "list"
  | object => "dict"

end ValueType

namespace Value

def typeName : Value → String
  | null => "NoneType"
  | bool _ => "bool"
  | int _ => "int"
  | binary _ => "float"
  | str _ | brokenStr _ => "str"
  | foreign type => type.name
  | list _ => "list"
  | object _ => "dict"

/-- A boolean also counts as an integer; no other type has a second name. -/
def hasType : Value → ValueType → Bool
  | int _, .int => true
  | bool _, .int => true
  | bool _, .bool => true
  | str _, .str => true
  | brokenStr _, .str => true
  | binary _, .binary => true
  | list _, .list => true
  | object _, .object => true
  | _, _ => false

def truthy : Value → Bool
  | null => false
  | bool b => b
  | int n => n != 0
  | binary x => !x.isZero
  | str s => !s.isEmpty
  | brokenStr _ | foreign _ => true
  | list items => !items.isEmpty
  | object entries => !entries.isEmpty

def integer? : Value → Option Int
  | bool b => some (if b then 1 else 0)
  | int n => some n
  | _ => none

def number? : Value → Option Binary
  | binary x => some x
  | v => v.integer?.map .ofInt

def string? : Value → Option String
  | str s => some s
  | _ => none

def entry? : Value → String → Option Value
  | object entries, key => Entries.find? key entries
  | _, _ => none

/-- Numbers by value, objects whatever their order. -/
def equals : Value → Value → Bool
  | null, null => true
  | bool a, b => b.number?.any (Binary.equals (.ofInt (if a then 1 else 0)))
  | int a, b => b.number?.any (Binary.equals (.ofInt a))
  | binary a, b => b.number?.any a.equals
  | str a, str b => a == b
  | brokenStr a, brokenStr b => a == b
  | list xs, list ys => equalLists xs ys
  | object xs, object ys => xs.length == ys.length && equalEntries xs ys
  | _, _ => false
where
  equalLists : List Value → List Value → Bool
    | [], [] => true
    | x :: xs, y :: ys => equals x y && equalLists xs ys
    | _, _ => false
  equalEntries : List (String × Value) → List (String × Value) → Bool
    | [], _ => true
    | (key, x) :: xs, ys => (Entries.find? key ys).any (equals x) && equalEntries xs ys

/-- Whether a value is below another one, or not above it when `strict` is false. Numbers are ordered by
value, strings by code points and lists by the first items that differ; of other pairs the two values
without an order are answered. -/
def ordered (strict : Bool) : Value → Value → Except (Value × Value) Bool
  | str a, str b => .ok (if strict then a < b else a ≤ b)
  | list xs, list ys => orderedLists strict xs ys
  | a, b =>
    match a.number?, b.number? with
    | some x, some y => .ok (if strict then x.lt y else x.lt y || x.equals y)
    | _, _ => .error (a, b)
where
  orderedLists (strict : Bool) : List Value → List Value → Except (Value × Value) Bool
    | [], ys => .ok (!strict || !ys.isEmpty)
    | _ :: _, [] => .ok false
    | x :: xs, y :: ys => if x.equals y then orderedLists strict xs ys else ordered strict x y

/-- A number rounded for reckoning with fractions; an integer beyond all of them has no rounded form. -/
def rounded? : Value → Option Binary
  | binary x => some x
  | v => do
    match (Binary.ofInt (← v.integer?)).rounded with
    | .infinite _ => none
    | x => some x

/-- The difference of two numbers, an integer when both are. -/
def minus? (a b : Value) : Option Value :=
  match a.integer?, b.integer? with
  | some a, some b => some (.int (a - b))
  | _, _ => do return .binary ((← a.rounded?).sub (← b.rounded?))

/-- The type of the first part that is no data. -/
def firstForeign? : Value → Option TypeName
  | foreign type => some type
  | list items => inItems items
  | object entries => inEntries entries
  | _ => none
where
  inItems : List Value → Option TypeName
    | [] => none
    | item :: rest => (firstForeign? item).or (inItems rest)
  inEntries : List (String × Value) → Option TypeName
    | [] => none
    | (_, value) :: rest => (firstForeign? value).or (inEntries rest)

def ofEntries (m : OrderedMap Value) : Value := .object m.entries

end Value

end Cardplay

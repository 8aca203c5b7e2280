import Cardplay.Error
import Cardplay.Text.Blank

/-!
# Reading typed values out of open ones

A `Reading α` is a value of type `α` or the issues found. Readings combine side by side: the issues of
both parts are kept, in order, so one attempt reports all of them. An integer may also be given as a
boolean, a text or a number without fraction that is not too large, a boolean as 0, 1 or a word.

Open values are also compared and used as keys as they are. Then they may be of types without an order, or of
types that no key can have.
-/

set_option autoImplicit false

namespace Cardplay

inductive Reading (α : Type)
  | read (value : α)
  | refused (issues : List Issue)

namespace Reading
variable {α β : Type}

def map (f : α → β) : Reading α → Reading β
  | read a => read (f a)
  | refused issues => refused issues

def apply : Reading (α → β) → Reading α → Reading β
  | read f, read a => read (f a)
  | read _, refused issues => refused issues
  | refused issues, read _ => refused issues
  | refused issues, refused more => refused (issues ++ more)

instance : Applicative Reading where
  pure := read
  map := map
  seq f a := f.apply (a ())

def refuse (cause : Issue.Cause) : Reading α := refused [⟨[], cause⟩]

def under (step : PathStep) : Reading α → Reading α
  | read a => read a
  | refused issues => refused (issues.map (Issue.under step))

/-- A check of the whole value, made only when every part of it was read. -/
def ensure (problem? : α → Option Issue.Cause) : Reading α → Reading α
  | read a => (problem? a).elim (read a) refuse
  | refused issues => refused issues

def toExcept (model : Model) : Reading α → Except Error α
  | read a => .ok a
  | refused issues => .error (.invalid model issues)

end Reading

namespace Value
variable {α : Type}

def readString : Value → Reading String
  | str s => .read s
  | brokenStr _ => .refuse .brokenString
  | _ => .refuse .notString

def readName (v : Value) : Reading String :=
  v.readString.ensure fun s => if s.isEmpty then some .tooShort else none

/-- Whether an integer can start with the character; a zero is dropped. -/
def startsInteger (c : Char) : Bool := ('1' ≤ c && c ≤ '9') || c = '-'

/-- What is left after a zero and more zeros, with underscores among them. Where nothing is left, and
in front of a point, the last of them stays. -/
def afterZeros (last : Char) : List Char → Option (List Char)
  | [] => some [last]
  | c :: rest =>
    if c = '0' ∨ c = '_' then afterZeros c rest
    else if startsInteger c then some (c :: rest)
    else if c = '.' then some (last :: c :: rest)
    else none

/-- The text without zeros in front. A minus sign may stand after the zeros. -/
def withoutZeros? : List Char → Option (List Char)
  | '0' :: rest => afterZeros '0' rest
  | c :: rest => if startsInteger c then some (c :: rest) else none
  | [] => none

/-- The text without a plus sign and without zeros after its sign. -/
def bareInteger? : List Char → Option (List Char)
  | '-' :: rest => (withoutZeros? rest).map ('-' :: ·)
  | '+' :: '-' :: _ => none
  | '+' :: rest => withoutZeros? rest
  | s => withoutZeros? s

/-- Drops a point and one zero or more at the end. -/
def withoutFraction (s : List Char) : List Char :=
  let fraction := (s.dropWhile (· ≠ '.')).drop 1
  if fraction ≠ [] ∧ fraction.all (· = '0') then s.takeWhile (· ≠ '.') else s

def hasDouble : List Char → Bool
  | '_' :: '_' :: _ => true
  | _ :: rest => hasDouble rest
  | [] => false

/-- Drops the underscores if each stands alone between other characters. -/
def withoutUnderscores (s : List Char) : List Char :=
  if s.head? = some '_' ∨ s.getLast? = some '_' ∨ hasDouble s then s else s.filter (· ≠ '_')

/-- The greatest number of digits in an integer's text. -/
def integerLimit : Nat := 4300

/-- Whether there is a minus sign in front, and what follows it. -/
def signAndRest : List Char → Bool × List Char
  | '-' :: rest => (true, rest)
  | s => (false, s)

/-- Whether the text starts with an integer of too many digits. Zeros, white space or a plus sign in
front are no part of an integer. -/
def startsOversized (s : List Char) : Bool :=
  let digits := (signAndRest s).2.takeWhile Char.isDigit
  digits.head? ≠ some '0' && integerLimit < digits.length

/-- A minus sign or none, then digits, not too many, that start with a zero only if they are a zero. -/
def readDigits (s : List Char) : Reading Int :=
  let (negative, digits) := signAndRest s
  let magnitude : Int := (digits.foldl (fun n c => n * 10 + (c.toNat - 48)) 0 : Nat)
  if digits = ['0'] then .read 0
  else if digits.isEmpty ∨ digits.head? = some '0' ∨ integerLimit < digits.length then
    .refuse .unreadableInteger
  else if ¬ digits.all Char.isDigit then .refuse .unreadableInteger
  else .read (if negative then -magnitude else magnitude)

/-- An integer in white space, with what its text may have besides the digits. Only a text that starts
with too many digits as it stands is refused for its size. -/
def readIntegerText (s : String) : Reading Int :=
  if startsOversized s.toList then .refuse .oversizedInteger
  else
    match bareInteger? (Text.trimmed s.toList) with
    | some bare => readDigits (withoutUnderscores (withoutFraction bare))
    | none => .refuse .unreadableInteger

/-- The first integer beyond 64 bits with a sign, `2 ^ 63`. -/
def wordLimit : Int := 0x8000000000000000

/-- A number without fraction, less than the limit away from zero. -/
def readWhole (x : Binary) : Reading Int :=
  match x, x.toInt? with
  | .finite .., some n => if n.natAbs < wordLimit then .read n else .refuse .oversizedInteger
  | .finite .., none => .refuse .fraction
  | _, _ => .refuse .notFinite

def readInteger : Value → Reading Int
  | int n => .read n
  | bool b => .read (if b then 1 else 0)
  | binary x => readWhole x
  | str s => readIntegerText s
  | brokenStr _ => .refuse .brokenString
  | _ => .refuse .notInteger

def readCount (v : Value) : Reading Int :=
  v.readInteger.ensure fun n => if n < 0 then some .negative else none

def booleanOfText? (s : String) : Option Bool :=
  if ["1", "true", "t", "yes", "y", "on"].contains (Text.lower s) then some true
  else if ["0", "false", "f", "no", "n", "off"].contains (Text.lower s) then some false
  else none

def readBit (n : Int) : Reading Bool :=
  if n = 1 then .read true else if n = 0 then .read false else .refuse .unreadableBoolean

def readBoolean : Value → Reading Bool
  | bool b => .read b
  | int n => if -wordLimit ≤ n ∧ n < wordLimit then readBit n else .refuse .notBoolean
  | binary x =>
    match readWhole x with
    | .read n => readBit n
    | .refused _ => .refuse .notBoolean
  | str s => (booleanOfText? s).elim (.refuse .unreadableBoolean) .read
  | _ => .refuse .notBoolean

def readItemsFrom (reader : Value → Reading α) : Nat → List Value → Reading (List α)
  | _, [] => .read []
  | i, v :: rest =>
    List.cons <$> (reader v).under (.index i) <*> readItemsFrom reader (i + 1) rest

/-- The items of a list, each refused under its index. -/
def readItems (whenNoList : Issue.Cause) (reader : Value → Reading α) : Value → Reading (List α)
  | list items => readItemsFrom reader 0 items
  | _ => .refuse whenNoList

def readEntriesOf (reader : Value → Reading α) : List (String × Value) →
    Reading (List (String × α))
  | [] => .read []
  | (key, v) :: rest =>
    List.cons <$> ((reader v).under (.name key)).map (key, ·) <*> readEntriesOf reader rest

/-- The entries of an object, each refused under its key. -/
def readEntries (reader : Value → Reading α) : Value → Reading (OrderedMap α)
  | object entries => (readEntriesOf reader entries).map .ofList
  | _ => .refuse .notMapping

/-- Whether the first value is below the second. -/
def isBelow (a b : Value) : Except Error Bool :=
  (a.ordered true b).mapError fun (a, b) => .unordered "<" a.typeName b.typeName

/-- Whether the first value is above the second. -/
def isAbove (a b : Value) : Except Error Bool :=
  (b.ordered true a).mapError fun (b, a) => .unordered ">" a.typeName b.typeName

/-- The key that a value is. No value but a text is a key in use, and a list or an object is none at
all. -/
def toKey : Value → Except Error (Option String)
  | str s => .ok (some s)
  | list items => .error (.unhashable (list items).typeName)
  | object entries => .error (.unhashable (object entries).typeName)
  | _ => .ok none

end Value

namespace Fields
variable {α : Type}

def required (fields : Fields) (name : String) (reader : Value → Reading α) : Reading α :=
  (match Entries.find? name fields with
    | some v => reader v
    | none => .refuse .missing).under (.name name)

def optional (fields : Fields) (name : String) (reader : Value → Reading α) (default : α) :
    Reading α :=
  (match Entries.find? name fields with
    | some v => reader v
    | none => .read default).under (.name name)

/-- Refuses every field outside the known ones. -/
def closed (fields : Fields) (known : List String) : Reading Unit :=
  let extra := fields.filter fun field => !known.contains field.1
  if extra.isEmpty then .read ()
  else .refused (extra.map fun field => ⟨[.name field.1], .extra⟩)

end Fields

end Cardplay

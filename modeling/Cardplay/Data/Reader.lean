import Cardplay.Data.Value

/-!
# Reading JSON text

`Value.ofJson?` reads one JSON value and nothing after it. A number with a fraction or an exponent is
a binary fraction, any other number an integer of at most 4300 digits; the words NaN and Infinity are
numbers too. A repeated key of an object keeps its first place and takes its last value. A code unit
that escapes name may stand alone. Each reader answers what it read and what is left to read. Every
step uses up a character, so the length of the text bounds the reading.
-/

set_option autoImplicit false

namespace Cardplay.Json

def skipSpace (s : List Char) : List Char :=
  s.dropWhile fun c => c = ' ' || c = '\t' || c = '\n' || c = '\r'

def hexValue? (c : Char) : Option Nat :=
  if '0' ≤ c ∧ c ≤ '9' then some (c.toNat - 48)
  else if 'a' ≤ c ∧ c ≤ 'f' then some (c.toNat - 87)
  else if 'A' ≤ c ∧ c ≤ 'F' then some (c.toNat - 55)
  else none

def fourHex? : List Char → Option (Nat × List Char)
  | a :: b :: c :: d :: rest => do
    let n := ((← hexValue? a) * 16 + (← hexValue? b)) * 256 + (← hexValue? c) * 16 + (← hexValue? d)
    return (n, rest)
  | _ => none

def shortEscape? : Char → Option Char
  | '"' => some '"'
  | '\\' => some '\\'
  | '/' => some '/'
  | 'b' => some '\x08'
  | 'f' => some '\x0c'
  | 'n' => some '\n'
  | 'r' => some '\r'
  | 't' => some '\t'
  | _ => none

/-- A character by its code units. A unit that leads a pair takes the second one with it; a unit that
stands alone names no character. -/
def unicodeEscape? (s : List Char) : Option (Option Char × List Char) := do
  let (unit, rest) ← fourHex? s
  let second? : Option (Nat × List Char) := do
    guard (0xd800 ≤ unit ∧ unit < 0xdc00)
    match rest with
    | '\\' :: 'u' :: tail =>
      let (low, tail) ← fourHex? tail
      guard (0xdc00 ≤ low ∧ low < 0xe000)
      return (low, tail)
    | _ => none
  match second? with
  | some (low, tail) =>
    return (some (Char.ofNat (0x10000 + (unit - 0xd800) * 0x400 + (low - 0xdc00))), tail)
  | none =>
    if 0xd800 ≤ unit ∧ unit < 0xe000 then return (none, rest)
    else return (some (Char.ofNat unit), rest)

/-- A text that has been read, and whether all its units are parts of characters. -/
structure Passage where
  text : String
  whole : Bool

/-- The rest of a string, up to and with its closing quote. -/
def stringTail (whole : Bool) : Nat → List Char → List Char → Option (Passage × List Char)
  | 0, _, _ => none
  | fuel + 1, acc, s =>
    match s with
    | '"' :: rest => some (⟨String.ofList acc.reverse, whole⟩, rest)
    | '\\' :: 'u' :: rest => do
      let (c?, rest) ← unicodeEscape? rest
      stringTail (whole && c?.isSome) fuel (c?.getD '\ufffd' :: acc) rest
    | '\\' :: c :: rest => do stringTail whole fuel ((← shortEscape? c) :: acc) rest
    | c :: rest => if c.toNat < 0x20 then none else stringTail whole fuel (c :: acc) rest
    | [] => none

def takeDigits (s : List Char) : List Char × List Char :=
  (s.takeWhile Char.isDigit, s.dropWhile Char.isDigit)

def natOfDigits (ds : List Char) : Nat :=
  ds.foldl (fun n c => n * 10 + (c.toNat - 48)) 0

/-- The greatest number of digits of an integer. -/
def digitLimit : Nat := 4300

/-- Digits, then optionally a fraction, then optionally an exponent. -/
def number? (s : List Char) : Option (Value × List Char) := do
  let (negative, s) := match s with
    | '-' :: rest => (true, rest)
    | s => (false, s)
  let (whole, s) := takeDigits s
  guard (whole.length = 1 ∨ whole.head?.any (· != '0'))
  let (fraction, s) ← match s with
    | '.' :: rest =>
      let (ds, rest) := takeDigits rest
      if ds.isEmpty then some ([], s) else some (ds, rest)
    | s => some ([], s)
  let (exponent, s) := match s with
    | e :: rest =>
      if e = 'e' ∨ e = 'E' then
        let (minus, digits) := match rest with
          | '-' :: tail => (true, tail)
          | '+' :: tail => (false, tail)
          | tail => (false, tail)
        let (ds, tail) := takeDigits digits
        if ds.isEmpty then (none, s)
        else (some (if minus then -(natOfDigits ds : Int) else natOfDigits ds), tail)
      else (none, s)
    | [] => (none, s)
  let magnitude := natOfDigits (whole ++ fraction)
  if fraction.isEmpty ∧ exponent.isNone then
    guard (whole.length ≤ digitLimit)
    return (.int (if negative then -magnitude else magnitude), s)
  return (.binary (.ofDecimal negative magnitude (exponent.getD 0 - fraction.length)), s)

def word? (word : String) (value : Value) (s : List Char) : Option (Value × List Char) :=
  if word.toList.isPrefixOf s then some (value, s.drop word.length) else none

mutual

def value? : Nat → List Char → Option (Value × List Char)
  | 0, _ => none
  | fuel + 1, s =>
    match s with
    | '"' :: rest =>
      (stringTail true (rest.length + 1) [] rest).map fun (passage, rest) =>
        (if passage.whole then .str passage.text else .brokenStr passage.text, rest)
    | '[' :: rest =>
      match skipSpace rest with
      | ']' :: rest => some (.list [], rest)
      | rest => (items? fuel [] rest).map fun (items, rest) => (.list items, rest)
    | '\x7b' :: rest =>
      match skipSpace rest with
      | '\x7d' :: rest => some (.object [], rest)
      | rest => (fields? fuel .empty rest).map fun (fields, rest) => (.ofEntries fields, rest)
    | 't' :: _ => word? "true" (.bool true) s
    | 'f' :: _ => word? "false" (.bool false) s
    | 'n' :: _ => word? "null" .null s
    | 'N' :: _ => word? "NaN" (.binary .undefined) s
    | 'I' :: _ => word? "Infinity" (.binary (.infinite false)) s
    | '-' :: 'I' :: _ => word? "-Infinity" (.binary (.infinite true)) s
    | _ => number? s

/-- The items up to the closing bracket; the first of them stands at the start of the text. -/
def items? : Nat → List Value → List Char → Option (List Value × List Char)
  | 0, _, _ => none
  | fuel + 1, acc, s => do
    let (item, rest) ← value? fuel (skipSpace s)
    match skipSpace rest with
    | ',' :: rest => items? fuel (item :: acc) rest
    | ']' :: rest => return ((item :: acc).reverse, rest)
    | _ => none

def fields? : Nat → OrderedMap Value → List Char → Option (OrderedMap Value × List Char)
  | 0, _, _ => none
  | fuel + 1, acc, s =>
    match skipSpace s with
    | '"' :: rest => do
      let (key, rest) ← stringTail true (rest.length + 1) [] rest
      match skipSpace rest with
      | ':' :: rest =>
        let (item, rest) ← value? fuel (skipSpace rest)
        match skipSpace rest with
        | ',' :: rest => fields? fuel (acc.insert key.text item) rest
        | '\x7d' :: rest => return (acc.insert key.text item, rest)
        | _ => none
      | _ => none
    | _ => none

end

end Cardplay.Json

namespace Cardplay

def Value.ofJson? (text : String) : Option Value := do
  let s := text.toList
  let (value, rest) ← Json.value? (s.length + 1) (Json.skipSpace s)
  guard (Json.skipSpace rest).isEmpty
  return value

end Cardplay

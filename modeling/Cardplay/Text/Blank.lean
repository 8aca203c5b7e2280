/-!
# Blank characters and line ends

`isWhiteSpace` is the Unicode property White_Space. `isBlank` adds the four information separators
U+001C to U+001F.

A line ends at any of the line and paragraph separators, the vertical tab, the form feed and the first
three information separators; a carriage return and the line feed after it end one line.
-/

set_option autoImplicit false

namespace Cardplay.Text

def isWhiteSpace (c : Char) : Bool :=
  let n := c.toNat
  (0x9 ≤ n && n ≤ 0xd) || n == 0x20 || n == 0x85 || n == 0xa0 || n == 0x1680
    || (0x2000 ≤ n && n ≤ 0x200a) || n == 0x2028 || n == 0x2029 || n == 0x202f || n == 0x205f
    || n == 0x3000

def isBlank (c : Char) : Bool :=
  isWhiteSpace c || (0x1c ≤ c.toNat && c.toNat ≤ 0x1f)

/-- The text without the white space at its two ends. -/
def trimmed (s : List Char) : List Char :=
  ((s.dropWhile isWhiteSpace).reverse.dropWhile isWhiteSpace).reverse

/-- Upper case for the ASCII letters; every other character is kept. -/
def upper (s : String) : String := s.map Char.toUpper

/-- Lower case for the ASCII letters; every other character is kept. -/
def lower (s : String) : String := s.map Char.toLower

def endsLine (c : Char) : Bool :=
  let n := c.toNat
  (0xa ≤ n && n ≤ 0xd) || (0x1c ≤ n && n ≤ 0x1e) || n == 0x85 || n == 0x2028 || n == 0x2029

/-- How many lines end in a text. -/
def lineEnds : List Char → Nat
  | [] => 0
  | '\r' :: '\n' :: rest => lineEnds rest + 1
  | c :: rest => lineEnds rest + if endsLine c then 1 else 0

end Cardplay.Text

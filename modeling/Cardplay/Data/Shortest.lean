import Cardplay.Data.Binary

/-!
# Shortest decimals

The numbers that round to a given binary fraction form an interval, from halfway to the neighbour below
to halfway to the neighbour above, with its ends when the significand is even. `shortest` finds the
decimal with the fewest digits in it and, of those, the nearest. It is written positionally between
`10 ^ -4` and `10 ^ 16` and with an exponent elsewhere.
-/

set_option autoImplicit false

namespace Cardplay.Binary

/-- A multiple of `10 ^ p` that rounds to `significand * 2 ^ exponent`: the nearer of the two around the
number, or the only one of them that does. Below a power of two the neighbours are half as far apart. -/
def onGrid? (significand : Nat) (exponent p : Int) : Option Nat :=
  let step := Nat.pow 10 p.toNat * Nat.pow 2 (2 - exponent).toNat
  let scale := Nat.pow 10 (-p).toNat * Nat.pow 2 (exponent - 2).toNat
  let isPower := significand = significandLimit / 2 ∧ leastExponent < exponent
  let low := (4 * significand - if isPower then 1 else 2) * scale
  let middle := 4 * significand * scale
  let high := (4 * significand + 2) * scale
  let fits (n : Nat) : Bool :=
    (low < n * step && n * step < high)
      || (significand % 2 = 0 && (low = n * step || n * step = high))
  let below := middle / step
  match fits below, fits (below + 1) with
  | true, true => some (roundedQuotient middle step)
  | true, false => some below
  | false, true => some (below + 1)
  | false, false => none

/-- An exponent of ten that is that of the leading digit or one more. -/
def leadingExponent (significand : Nat) (exponent : Int) : Int :=
  Int.fdiv ((significand.log2 + exponent + 1) * 30103) 100000

/-- The digits of the shortest decimal and the exponent of ten that goes with them; the coarsest grid
that has one is tried first. -/
def shortest (significand : Nat) (exponent : Int) : Nat × Int :=
  let first := leadingExponent significand exponent
  let grids := (List.range 18).map fun (i : Nat) => first - i
  (grids.findSome? fun p => (onGrid? significand exponent p).map (·, p)).getD
    (significand * Nat.pow 2 exponent.toNat, 0)

/-- Writes digits so that the point stands after the first `point` of them. -/
def positional (digits : List Char) (point : Int) : List Char :=
  let whole := digits.take point.toNat ++ List.replicate (point - digits.length).toNat '0'
  let fraction := List.replicate (-point).toNat '0' ++ digits.drop point.toNat
  (if whole.isEmpty then ['0'] else whole) ++ '.' :: (if fraction.isEmpty then ['0'] else fraction)

/-- One digit before the point and an exponent with a sign and two digits or more. -/
def scientific (digits : List Char) (exponent : Int) : List Char :=
  let fraction := digits.drop 1
  let size := Nat.toDigits 10 exponent.natAbs
  digits.take 1 ++ (if fraction.isEmpty then [] else '.' :: fraction)
    ++ 'e' :: (if exponent < 0 then '-' else '+')
    :: (List.replicate (2 - size.length) '0' ++ size)

def magnitudeText (significand : Nat) (exponent : Int) : List Char :=
  if significand = 0 then ['0', '.', '0']
  else
    let (n, p) := shortest significand exponent
    let all := Nat.toDigits 10 n
    let digits := (all.reverse.dropWhile (· = '0')).reverse
    let point : Int := all.length + p
    if point < -3 ∨ 16 < point then scientific digits (point - 1) else positional digits point

/-- The text of a number, with the given words for infinity and the undefined. -/
def text (infinity nothing : String) : Binary → String
  | finite negative significand exponent =>
    (if negative then "-" else "") ++ String.ofList (magnitudeText significand exponent)
  | infinite negative => (if negative then "-" else "") ++ infinity
  | undefined => nothing

end Cardplay.Binary

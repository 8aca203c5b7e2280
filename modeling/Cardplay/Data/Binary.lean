/-!
# Binary fractions

`roundSignificant` takes a natural number to the nearest one with at most 53 significant bits, a tie to
the even neighbour. Up to `2 ^ 53` nothing changes.

A finite `Binary` is `significand * 2 ^ exponent` with a sign of its own, so zero has two forms. The
others are the infinities and the undefined result of taking one from the other. `ofRatio` rounds to 53
significant bits or to a multiple of `2 ^ -1074`, whichever is coarser; comparing never rounds.
-/

set_option autoImplicit false

namespace Cardplay

/-- The quotient by `unit`, rounded to nearest, ties to even. -/
def roundedQuotient (n unit : Nat) : Nat :=
  let q := n / unit
  let r := n % unit
  if unit < 2 * r ∨ (2 * r = unit ∧ q % 2 = 1) then q + 1 else q

/-- The distance between neighbours with 53 significant bits around `n`. -/
def spacing (n : Nat) : Nat := Nat.pow 2 (n.log2 - 52)

def roundSignificant (n : Nat) : Nat := roundedQuotient n (spacing n) * spacing n

/-- The first number beyond the range of rounded values. -/
def roundingLimit : Nat := Nat.pow 2 1024

inductive Binary
  | finite (negative : Bool) (significand : Nat) (exponent : Int)
  | infinite (negative : Bool)
  | undefined
deriving DecidableEq, Repr, Inhabited

namespace Binary

/-- The least exponent that rounding leaves. -/
def leastExponent : Int := -1074

/-- The greatest exponent that rounding leaves; what is beyond it is infinite. -/
def greatestExponent : Int := 971

/-- The first significand beyond 53 bits, `2 ^ 53`. -/
def significandLimit : Nat := 0x20000000000000

def zero (negative : Bool) : Binary := finite negative 0 leastExponent

/-- An integer as it is, however large. -/
def ofInt (n : Int) : Binary := finite (n < 0) n.natAbs 0

/-- The exponent of the greatest power of two not above a ratio. -/
def ratioLog2 (num den : Nat) : Int :=
  let e : Int := (num.log2 : Int) - den.log2
  if num * Nat.pow 2 (-e).toNat < den * Nat.pow 2 e.toNat then e - 1 else e

/-- A rounded significand, which may have become one bit too long. -/
def normal (negative : Bool) (significand : Nat) (exponent : Int) : Binary :=
  let (significand, exponent) :=
    if significand = significandLimit then (significandLimit / 2, exponent + 1)
    else (significand, exponent)
  if greatestExponent < exponent then infinite negative
  else finite negative significand exponent

/-- The nearest number to a ratio, the one with the even significand of two. -/
def ofRatio (negative : Bool) (num den : Nat) : Binary :=
  if num = 0 then zero negative
  else
    let e := max (ratioLog2 num den - 52) leastExponent
    normal negative (roundedQuotient (num * Nat.pow 2 (-e).toNat) (den * Nat.pow 2 e.toNat)) e

/-- The nearest number to `digits * 10 ^ shift`. -/
def ofDecimal (negative : Bool) (digits : Nat) (shift : Int) : Binary :=
  let point : Int := (Nat.toDigits 10 digits).length + shift
  if digits = 0 ∨ point < -330 then zero negative
  else if 310 < point then infinite negative
  else ofRatio negative (digits * Nat.pow 10 shift.toNat) (Nat.pow 10 (-shift).toNat)

/-- The numerator of a finite number over `2 ^ -least`. -/
def scaled (negative : Bool) (significand : Nat) (exponent least : Int) : Int :=
  let magnitude : Int := significand * Nat.pow 2 (exponent - least).toNat
  if negative then -magnitude else magnitude

/-- Nothing is above or below the undefined. -/
def lt : Binary → Binary → Bool
  | undefined, _ | _, undefined => false
  | infinite a, infinite b => a && !b
  | infinite a, finite .. => a
  | finite .., infinite b => !b
  | finite a m e, finite b n f =>
    let least := min e f
    scaled a m e least < scaled b n f least

def equals (a b : Binary) : Bool := a != undefined && b != undefined && !a.lt b && !b.lt a

def isZero : Binary → Bool
  | finite _ significand _ => significand = 0
  | _ => false

/-- The nearest number with 53 significant bits. -/
def rounded : Binary → Binary
  | finite negative significand exponent =>
    ofRatio negative (significand * Nat.pow 2 exponent.toNat) (Nat.pow 2 (-exponent).toNat)
  | a => a

/-- The rounded difference. It is a negative zero only for a negative zero less a positive one. -/
def sub : Binary → Binary → Binary
  | undefined, _ | _, undefined => undefined
  | infinite a, infinite b => if a = b then undefined else infinite a
  | infinite a, finite .. => infinite a
  | finite .., infinite b => infinite !b
  | finite a m e, finite b n f =>
    let least := min e f
    let difference := scaled a m e least - scaled b n f least
    if difference = 0 then zero (a && !b)
    else rounded (finite (difference < 0) difference.natAbs least)

/-- The integer that a number without fraction is. -/
def toInt? : Binary → Option Int
  | finite negative significand exponent =>
    let unit := Nat.pow 2 (-exponent).toNat
    let magnitude : Int := (significand * Nat.pow 2 exponent.toNat) / unit
    if significand % unit = 0 then some (if negative then -magnitude else magnitude) else none
  | _ => none

end Binary

end Cardplay

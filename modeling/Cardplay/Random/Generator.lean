/-!
# The 19937-bit twister

A generator holds 624 words of 32 bits and the place of the next one. Reading past the last word twists
all of them into the next block. A seed is the magnitude of an integer, spread over the words through
its 32-bit digits, least significant first. `Generator.next` joins two tempered words into the numerator
of a fraction over `2 ^ 53`.
-/

set_option autoImplicit false

namespace Cardplay

structure Generator where
  words : Array UInt32
  place : Nat
deriving Inhabited

namespace Generator

def size : Nat := 624

def distance : Nat := 397

def wordAt (words : Array UInt32) (i : Nat) : UInt32 := words.getD i 0

/-- The block that a single word spreads to. -/
def spread (word : UInt32) : Array UInt32 :=
  (List.range (size - 1)).foldl
    (fun words i =>
      let last := wordAt words i
      words.push ((last ^^^ (last >>> 30)) * 1812433253 + (i + 1).toUInt32))
    #[word]

/-- The number of 32-bit words. -/
def base : Nat := 0x100000000

/-- The least significant digit to the base `2 ^ 32` first; zero has one digit. -/
def digits (n : Nat) : Array UInt32 :=
  if n < base then #[n.toUInt32] else #[(n % base).toUInt32] ++ digits (n / base)
termination_by n
decreasing_by simp only [base] at *; omega

/-- A place inside the block, after which comes place 1 again with the last word copied to place 0. -/
def advance (words : Array UInt32) (i : Nat) : Array UInt32 × Nat :=
  if i + 1 < size then (words, i + 1)
  else (words.setIfInBounds 0 (wordAt words (size - 1)), 1)

def stir (words : Array UInt32) (i : Nat) (factor : UInt32) : UInt32 :=
  let last := wordAt words (i - 1)
  wordAt words i ^^^ ((last ^^^ (last >>> 30)) * factor)

/-- Stirs the digits in, at least once over the whole block. -/
def absorb (key : Array UInt32) (words : Array UInt32) : Array UInt32 × Nat :=
  (List.range (max size key.size)).foldl
    (fun (words, i) k =>
      let j := k % key.size
      advance (words.setIfInBounds i (stir words i 1664525 + wordAt key j + j.toUInt32)) i)
    (words, 1)

def settle (words : Array UInt32) (place : Nat) : Array UInt32 :=
  let (words, _) := (List.range (size - 1)).foldl
    (fun (words, i) _ => advance (words.setIfInBounds i (stir words i 1566083941 - i.toUInt32)) i)
    (words, place)
  words.setIfInBounds 0 0x80000000

def ofSeed (seed : Int) : Generator :=
  let (words, place) := absorb (digits seed.natAbs) (spread 19650218)
  ⟨settle words place, size⟩

def twist (words : Array UInt32) : Array UInt32 :=
  (List.range size).foldl
    (fun words k =>
      let y := (wordAt words k &&& 0x80000000) ||| (wordAt words ((k + 1) % size) &&& 0x7fffffff)
      let mixed := wordAt words ((k + distance) % size) ^^^ (y >>> 1)
      words.setIfInBounds k (if y &&& 1 = 1 then mixed ^^^ 0x9908b0df else mixed))
    words

def temper (y : UInt32) : UInt32 :=
  let y := y ^^^ (y >>> 11)
  let y := y ^^^ ((y <<< 7) &&& 0x9d2c5680)
  let y := y ^^^ ((y <<< 15) &&& 0xefc60000)
  y ^^^ (y >>> 18)

def nextWord (g : Generator) : UInt32 × Generator :=
  let g := if g.place < size then g else ⟨twist g.words, 0⟩
  (temper (wordAt g.words g.place), { g with place := g.place + 1 })

/-- The denominator of the fractions, `2 ^ 53`. -/
def unit : Nat := 0x20000000000000

/-- The numerator of the next fraction: 27 bits of one word and 26 of the next. -/
def next (g : Generator) : Nat × Generator :=
  let (a, g) := g.nextWord
  let (b, g) := g.nextWord
  ((a >>> 5).toNat * 0x4000000 + (b >>> 6).toNat, g)

theorem next_lt (g : Generator) : g.next.1 < unit := by
  simp only [next, unit]
  generalize g.nextWord = p
  obtain ⟨a, g'⟩ := p
  generalize g'.nextWord = q
  obtain ⟨b, g''⟩ := q
  simp only [UInt32.toNat_shiftRight, UInt32.reduceToNat, Nat.shiftRight_eq_div_pow]
  have ha := a.toNat_lt
  have hb := b.toNat_lt
  simp only [Nat.reduceMod, Nat.reducePow] at *
  omega

end Generator

end Cardplay

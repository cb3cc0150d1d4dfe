import Highlighter.Data.Word

/-!
# The shortest decimal of a floating-point number

Among the decimals that round to a given number, the one with the fewest digits,
and of those the nearest.  All arithmetic is exact.
-/
namespace Highlighter.Decimal

inductive Parts where
  | notANumber
  | infinite (negative : Bool)
  | finite (negative : Bool) (mantissa : Nat) (exponent : Int)
  deriving Repr, DecidableEq, Inhabited

/-- The sign, mantissa and exponent: the number is the mantissa times a power
of two. -/
def partsOf (number : Float) : Parts :=
  let bits := number.toBits.toNat
  let negative : Bool := Word.size 63 ≤ bits
  let exponent : Nat := bits / Word.size 52 % Word.size 11
  let fraction := bits % Word.size 52
  if exponent = 2047 then
    if fraction = 0 then .infinite negative else .notANumber
  else if exponent = 0 then
    .finite negative fraction (-1074)
  else
    .finite negative (Word.size 52 + fraction) ((exponent : Int) - 1075)

structure Scaled where
  digits : Nat
  exponent : Int
  deriving Repr, DecidableEq, Inhabited

/-- What is needed to compare multiples of a power of ten with a number and the
limits of the numbers that round to it: all of them are given as multiples of
the same unit. -/
structure Grid where
  value : Nat
  low : Nat
  high : Nat
  unit : Nat
  inclusive : Bool
  deriving Repr, DecidableEq, Inhabited

/-- The grid of the multiples of `10 ^ place` around `mantissa * 2 ^ exponent`.
Below a power of two the numbers lie closer together. -/
def grid (mantissa : Nat) (exponent place : Int) : Grid :=
  let binary := exponent - 2
  let scale := Nat.pow 2 binary.toNat * Nat.pow 10 (-place).toNat
  let below := if mantissa = Word.size 52 && exponent != -1074 then 1 else 2
  { value := 4 * mantissa * scale
    low := (4 * mantissa - below) * scale
    high := (4 * mantissa + 2) * scale
    unit := Nat.pow 2 (-binary).toNat * Nat.pow 10 place.toNat
    inclusive := mantissa % 2 = 0 }

namespace Grid

/-- Whether a multiple of the power of ten rounds to the number. -/
def admits (grid : Grid) (digits : Nat) : Bool :=
  let point := digits * grid.unit
  if grid.inclusive then grid.low ≤ point && point ≤ grid.high
  else grid.low < point && point < grid.high

/-- The nearest multiple that rounds to the number, the greater one if two are
equally near. -/
def nearest? (grid : Grid) : Option Nat :=
  let lower := grid.value / grid.unit
  let upper := lower + 1
  if grid.admits lower && (!grid.admits upper ||
      grid.value - lower * grid.unit < upper * grid.unit - grid.value) then
    some lower
  else if grid.admits upper then
    some upper
  else
    none

end Grid

def shortestFrom (mantissa : Nat) (exponent : Int) : (fuel : Nat) → (place : Int) → Scaled
  | 0, place => { digits := 0, exponent := place }
  | fuel + 1, place =>
      match (grid mantissa exponent place).nearest? with
      | some digits => { digits, exponent := place }
      | none => shortestFrom mantissa exponent fuel (place - 1)

def shortest (mantissa : Nat) (exponent : Int) : Scaled :=
  if mantissa = 0 then { digits := 0, exponent := 0 }
  else
    let magnitude := (Nat.log2 mantissa : Int) + exponent
    shortestFrom mantissa exponent 24 (Int.fdiv (magnitude * 30103) 100000 + 2)

end Highlighter.Decimal

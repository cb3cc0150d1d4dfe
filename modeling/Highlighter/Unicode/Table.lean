import Highlighter.Text.Split

/-!
Tables over code points, written as text and searched by halving.
-/
namespace Highlighter.Unicode

def hexDigit? (char : Char) : Option Nat :=
  if '0' ≤ char ∧ char ≤ '9' then some (char.toNat - '0'.toNat)
  else if 'a' ≤ char ∧ char ≤ 'f' then some (char.toNat - 'a'.toNat + 10)
  else if 'A' ≤ char ∧ char ≤ 'F' then some (char.toNat - 'A'.toNat + 10)
  else none

/-- The numbers of a text in hexadecimal, after the digits already read. -/
def hexNumbersAfter : (read : Option Nat) → List Char → List Nat
  | none, [] => []
  | some number, [] => [number]
  | read, char :: rest =>
      match hexDigit? char, read with
      | some digit, none => hexNumbersAfter (some digit) rest
      | some digit, some number => hexNumbersAfter (some (16 * number + digit)) rest
      | none, none => hexNumbersAfter none rest
      | none, some number => number :: hexNumbersAfter none rest

/-- Of a table sorted by its keys, the value of the last entry between `low` and
`high` whose key is at most `key`. -/
def floorBetween {α : Type} (table : Array (Nat × α)) (key : Nat) :
    (fuel low high : Nat) → Option α
  | 0, _, _ => none
  | fuel + 1, low, high =>
      if low < high then
        let middle := (low + high) / 2
        match table[middle]? with
        | none => none
        | some (start, value) =>
            if start ≤ key then
              (floorBetween table key fuel (middle + 1) high).or (some value)
            else
              floorBetween table key fuel low middle
      else none

/-- Of a table sorted by its keys, the value of the last entry whose key is at
most `key`. -/
def floor? {α : Type} (table : Array (Nat × α)) (key : Nat) : Option α :=
  floorBetween table key table.size 0 table.size

/-- Code points as ascending ranges, each with its first and last member. -/
structure RangeTable where
  ranges : Array (Nat × Nat)
  deriving Repr, DecidableEq, Inhabited

namespace RangeTable

/-- Reads ranges from their distances and lengths.  The number of ranges alike
may stand after the length. -/
def rangesFrom : (start : Nat) → List (List Nat) → List (Nat × Nat)
  | start, [distance] :: (length :: count) :: rest =>
      let next (index : Nat) : Nat := start + index * (distance + length)
      (List.range (count.headD 1)).map
          (fun index => (next index + distance, next (index + 1) - 1)) ++
        rangesFrom (next (count.headD 1)) rest
  | _, _ => []

def ofText (text : String) : RangeTable :=
  { ranges :=
      (rangesFrom 0 ((Text.splitOn ' ' text.toList).map (hexNumbersAfter none))).toArray }

def contains (table : RangeTable) (code : Nat) : Bool :=
  match floor? table.ranges code with
  | none => false
  | some last => code ≤ last

end RangeTable
end Highlighter.Unicode

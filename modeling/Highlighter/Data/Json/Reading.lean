import Highlighter.Data.Value
import Highlighter.Data.Word

/-!
# Reading JSON

Strict JSON.  Integers that fit into 64 bits stay integers; other numbers become
floating-point numbers, whose significant digits are cut off where they no
longer fit into 64 bits.
-/
namespace Highlighter.Data.Json

inductive ReadError where
  | unexpectedEnd
  | unexpectedChar (char : Char)
  | invalidEscape
  | invalidNumber
  | numberOutOfRange
  | nestedTooDeep
  | trailingText
  deriving Repr, DecidableEq, Inhabited

def skipBlanks : List Char → List Char
  | [] => []
  | char :: rest =>
      if char = ' ' || char = '\n' || char = '\t' || char = '\r' then skipBlanks rest
      else char :: rest

def expect : (expected : List Char) → List Char → Except ReadError (List Char)
  | [], rest => .ok rest
  | _ :: _, [] => .error .unexpectedEnd
  | char :: expected, next :: rest =>
      if char = next then expect expected rest else .error (.unexpectedChar next)

/-! ### Strings -/

def hexValue? (char : Char) : Option Nat :=
  if char.isDigit then some (char.toNat - 48)
  else if 'a' ≤ char && char ≤ 'f' then some (char.toNat - 87)
  else if 'A' ≤ char && char ≤ 'F' then some (char.toNat - 55)
  else none

def unit? : List Char → Option Nat
  | [first, second, third, fourth] => do
      let first ← hexValue? first
      let second ← hexValue? second
      let third ← hexValue? third
      let fourth ← hexValue? fourth
      return ((first * 16 + second) * 16 + third) * 16 + fourth
  | _ => none

def simpleEscape? : Char → Option Char
  | '"' => some '"'
  | '\\' => some '\\'
  | '/' => some '/'
  | 'b' => some '\x08'
  | 'f' => some '\x0c'
  | 'n' => some '\n'
  | 'r' => some '\r'
  | 't' => some '\t'
  | _ => none

/-- Reads a string behind its opening quote.  A code above the first plane is
written as two units. -/
def string : (newestFirst : List Char) → List Char →
    Except ReadError (String × List Char)
  | _, [] => .error .unexpectedEnd
  | newestFirst, '"' :: rest => .ok (String.ofList newestFirst.reverse, rest)
  | newestFirst, '\\' :: 'u' :: first :: second :: third :: fourth :: rest =>
      match unit? [first, second, third, fourth] with
      | none => .error .invalidEscape
      | some unit =>
          if 0xD800 ≤ unit && unit < 0xDC00 then
            match rest with
            | '\\' :: 'u' :: first :: second :: third :: fourth :: rest =>
                match unit? [first, second, third, fourth] with
                | some low =>
                    if 0xDC00 ≤ low && low < 0xE000 then
                      let code := 0x10000 + (unit - 0xD800) * 0x400 + (low - 0xDC00)
                      string (Char.ofNat code :: newestFirst) rest
                    else
                      .error .invalidEscape
                | none => .error .invalidEscape
            | _ => .error .invalidEscape
          else if 0xDC00 ≤ unit && unit < 0xE000 then
            .error .invalidEscape
          else
            string (Char.ofNat unit :: newestFirst) rest
  | newestFirst, '\\' :: char :: rest =>
      match simpleEscape? char with
      | some escaped => string (escaped :: newestFirst) rest
      | none => .error .invalidEscape
  | newestFirst, char :: rest =>
      if char.toNat < 32 || char = '\\' then .error (.unexpectedChar char)
      else string (char :: newestFirst) rest

/-! ### Numbers -/

/-- Digits so far: their value and the power of ten to scale it with. -/
structure Significand where
  value : Nat
  exponent : Int
  deriving Repr, DecidableEq, Inhabited

def fits (value : Nat) (digit : Char) : Bool :=
  10 * value + (digit.toNat - 48) < Word.size 64

/-- Takes in the digits in front of the point.  From the first that does not
fit on they only count. -/
def wholeDigits : (full : Bool) → Significand → List Char → Bool × Significand
  | full, significand, [] => (full, significand)
  | full, significand, digit :: digits =>
      if !full && fits significand.value digit then
        let value := 10 * significand.value + (digit.toNat - 48)
        wholeDigits false { significand with value } digits
      else
        wholeDigits true { significand with exponent := significand.exponent + 1 } digits

/-- Takes in the digits behind the point up to the first that does not fit. -/
def fractionDigits : Significand → List Char → Significand
  | significand, [] => significand
  | significand, digit :: digits =>
      if fits significand.value digit then
        fractionDigits
          { value := 10 * significand.value + (digit.toNat - 48)
            exponent := significand.exponent - 1 }
          digits
      else
        significand

/-- Divides by powers of ten that are too great for one division. -/
def scaleDown : (fuel : Nat) → Float → (exponent : Nat) → Float
  | 0, _, _ => 0.0
  | fuel + 1, number, exponent =>
      if exponent ≤ 308 then number / Float.ofScientific 1 false exponent
      else if number == 0.0 then number
      else scaleDown fuel (number / 1e308) (exponent - 308)

/-- The number for a significand: its value is converted first and then scaled
by one power of ten. -/
def scale (significand : Significand) : Except ReadError Float :=
  let number := Float.ofNat significand.value
  if significand.exponent < 0 then
    .ok (scaleDown 4 number significand.exponent.natAbs)
  else if 308 < significand.exponent then
    if significand.value = 0 then .ok 0.0 else .error .numberOutOfRange
  else
    let scaled := number * Float.ofScientific 1 false significand.exponent.natAbs
    if scaled.isInf then .error .numberOutOfRange else .ok scaled

def exponent (chars : List Char) : Except ReadError (Int × List Char) :=
  let (negative, body) :=
    match chars with
    | '-' :: body => (true, body)
    | '+' :: body => (false, body)
    | body => (false, body)
  let digits := body.takeWhile Char.isDigit
  if digits.isEmpty then .error .invalidNumber
  else
    let value : Int :=
      digits.foldl (fun value digit => 10 * value + (digit.toNat - 48)) 0
    .ok (if negative then -value else value, body.dropWhile Char.isDigit)

def signed (negative : Bool) (number : Float) : Value :=
  .float (if negative then -number else number)

/-- An integer, or a floating-point number if it is too small for an integer or
a negative zero. -/
def integer (negative : Bool) (value : Nat) : Value :=
  if !negative then .integer value
  else if value = 0 || Word.size 63 < value then signed true (Float.ofNat value)
  else .integer (-(value : Int))

/-- The number for a significand: an integer unless it is to be scaled. -/
def unscaled (negative isFloat : Bool) (significand : Significand) :
    Except ReadError Value := do
  if isFloat then
    return signed negative (← scale significand)
  else
    return integer negative significand.value

def number (negative : Bool) (chars : List Char) : Except ReadError (Value × List Char) := do
  let digits := chars.takeWhile Char.isDigit
  let behindDigits := chars.dropWhile Char.isDigit
  if digits.isEmpty || (digits.head? == some '0' && 1 < digits.length) then
    throw .invalidNumber
  let (full, whole) := wholeDigits false { value := 0, exponent := 0 } digits
  let (isFloat, significand, behindFraction) ←
    match behindDigits with
    | '.' :: body =>
        let fraction := body.takeWhile Char.isDigit
        if fraction.isEmpty then throw .invalidNumber
        pure (true, fractionDigits whole fraction, body.dropWhile Char.isDigit)
    | rest => pure (full, whole, rest)
  match behindFraction with
  | mark :: body =>
      if mark = 'e' || mark = 'E' then
        let (power, rest) ← exponent body
        let number ← scale { significand with exponent := significand.exponent + power }
        return (signed negative number, rest)
      else
        return (← unscaled negative isFloat significand, behindFraction)
  | [] => return (← unscaled negative isFloat significand, [])

/-! ### Values -/

mutual

/-- Reads a value.  `room` is the number of containers that may still be opened. -/
def value : (fuel room : Nat) → List Char → Except ReadError (Value × List Char)
  | 0, _, _ => .error .unexpectedEnd
  | fuel + 1, room, chars =>
      match skipBlanks chars with
      | [] => .error .unexpectedEnd
      | '"' :: rest => do
          let (text, rest) ← string [] rest
          return (.text text, rest)
      | '[' :: rest =>
          match room with
          | room + 1 =>
              if 0 < room then
                match skipBlanks rest with
                | ']' :: rest => .ok (.list [], rest)
                | rest => items fuel room [] rest
              else .error .nestedTooDeep
          | 0 => .error .nestedTooDeep
      | '\x7b' :: rest =>
          match room with
          | room + 1 =>
              if 0 < room then
                match skipBlanks rest with
                | '\x7d' :: rest => .ok (.record [], rest)
                | rest => members fuel room [] rest
              else .error .nestedTooDeep
          | 0 => .error .nestedTooDeep
      | 't' :: rest => do
          let rest ← expect "rue".toList rest
          return (.boolean true, rest)
      | 'f' :: rest => do
          let rest ← expect "alse".toList rest
          return (.boolean false, rest)
      | 'n' :: rest => do
          let rest ← expect "ull".toList rest
          return (.null, rest)
      | '-' :: rest => number true rest
      | char :: rest =>
          if char.isDigit then number false (char :: rest) else .error (.unexpectedChar char)

def items : (fuel room : Nat) → (newestFirst : List Value) → List Char →
    Except ReadError (Value × List Char)
  | 0, _, _, _ => .error .unexpectedEnd
  | fuel + 1, room, newestFirst, chars => do
      let (item, rest) ← value fuel room chars
      match skipBlanks rest with
      | ',' :: rest => items fuel room (item :: newestFirst) rest
      | ']' :: rest => return (.list (item :: newestFirst).reverse, rest)
      | char :: _ => throw (.unexpectedChar char)
      | [] => throw .unexpectedEnd

def members : (fuel room : Nat) → (newestFirst : List (Value × Value)) → List Char →
    Except ReadError (Value × List Char)
  | 0, _, _, _ => .error .unexpectedEnd
  | fuel + 1, room, newestFirst, chars =>
      match skipBlanks chars with
      | '"' :: rest => do
          let (key, rest) ← string [] rest
          let rest ← expect [':'] (skipBlanks rest)
          let (item, rest) ← value fuel room rest
          let newestFirst := (Value.text key, item) :: newestFirst
          match skipBlanks rest with
          | ',' :: rest => members fuel room newestFirst rest
          | '\x7d' :: rest => return (.record newestFirst.reverse, rest)
          | char :: _ => throw (.unexpectedChar char)
          | [] => throw .unexpectedEnd
      | char :: _ => .error (.unexpectedChar char)
      | [] => .error .unexpectedEnd

end

/-- The most containers that may be open at once, and one. -/
def depthLimit : Nat :=
  128

def read (source : String) : Except ReadError Value := do
  let chars := source.toList
  let (document, rest) ← value (chars.length + 1) depthLimit chars
  if (skipBlanks rest).isEmpty then return document else throw .trailingText

end Highlighter.Data.Json

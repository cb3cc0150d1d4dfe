import Highlighter.Data.Value
import Highlighter.Decimal.Reading
import Highlighter.Data.Word

/-!
# Scalars in TOML

Strings, numbers, truth values, dates and times.
-/
namespace Highlighter.Data.Toml

inductive ReadError where
  | unexpectedCharacter
  | unclosedString
  | invalidEscape
  | invalidNumber
  | invalidDate
  | invalidKey
  | repeatedKey (name : String)
  | repeatedTable (name : String)
  deriving DecidableEq, Repr, Inhabited

/-! ### Strings -/

def isStringChar (char : Char) : Bool :=
  char = '\t' || (' ' ≤ char && char ≤ '~') || 0x80 ≤ char.toNat

def hexadecimal? (digits : List Char) : Option Nat :=
  digits.foldlM
    (fun value digit =>
      if digit.isDigit then some (16 * value + (digit.toNat - 48))
      else if 'a' ≤ digit && digit ≤ 'f' then some (16 * value + (digit.toNat - 87))
      else if 'A' ≤ digit && digit ≤ 'F' then some (16 * value + (digit.toNat - 55))
      else none)
    0

def numericEscape (width : Nat) (text : List Char) : Except ReadError (Char × List Char) :=
  let digits := text.take width
  match hexadecimal? digits with
  | some code =>
      if digits.length = width && code.isValidChar then .ok (Char.ofNat code, text.drop width)
      else .error .invalidEscape
  | none => .error .invalidEscape

def escape : List Char → Except ReadError (Char × List Char)
  | 'b' :: rest => .ok ('\x08', rest)
  | 't' :: rest => .ok ('\t', rest)
  | 'n' :: rest => .ok ('\n', rest)
  | 'f' :: rest => .ok ('\x0c', rest)
  | 'r' :: rest => .ok ('\r', rest)
  | '"' :: rest => .ok ('"', rest)
  | '\\' :: rest => .ok ('\\', rest)
  | 'u' :: rest => numericEscape 4 rest
  | 'U' :: rest => numericEscape 8 rest
  | _ => .error .invalidEscape

def skipSpace : List Char → List Char
  | [] => []
  | char :: rest =>
      if char = ' ' || char = '\t' || char = '\n' then skipSpace rest else char :: rest

/-- Whether a backslash is followed by nothing but blanks on its line. -/
def endsLineHere (text : List Char) : Bool :=
  (text.dropWhile fun char => char = ' ' || char = '\t').head? = some '\n'

/-- A delimiter of strings, and whether there are three of it. -/
structure Delimiter where
  quote : Char
  isMultiline : Bool
  deriving DecidableEq, Repr, Inhabited

/-- The text behind the closing delimiter, if it comes next.  Up to two more quotes belong
to the string. -/
def closing? (delimiter : Delimiter) (text : List Char) : Option (List Char × List Char) :=
  let quote := delimiter.quote
  if delimiter.isMultiline then
    match text with
    | first :: second :: third :: rest =>
        if first = quote && second = quote && third = quote then
          let extra := (rest.takeWhile (· = quote)).take 2
          some (extra, rest.drop extra.length)
        else none
    | _ => none
  else
    match text with
    | first :: rest => if first = quote then some ([], rest) else none
    | [] => none

def stringFrom (delimiter : Delimiter) :
    (fuel : Nat) → (newestFirst : List Char) → List Char →
      Except ReadError (String × List Char)
  | 0, _, _ => .error .unclosedString
  | fuel + 1, newestFirst, text =>
      match closing? delimiter text with
      | some (extra, rest) => .ok (String.ofList (newestFirst.reverse ++ extra), rest)
      | none =>
          match text with
          | [] => .error .unclosedString
          | '\\' :: rest =>
              if delimiter.quote = '\'' then
                stringFrom delimiter fuel ('\\' :: newestFirst) rest
              else if delimiter.isMultiline && endsLineHere rest then
                stringFrom delimiter fuel newestFirst (skipSpace rest)
              else do
                let (char, rest) ← escape rest
                stringFrom delimiter fuel (char :: newestFirst) rest
          | char :: rest =>
              if isStringChar char || (delimiter.isMultiline && char = '\n') then
                stringFrom delimiter fuel (char :: newestFirst) rest
              else .error .unexpectedCharacter

/-- Reads a string at its opening quote.  Between three quotes it can go over several
lines, and an end of a line right behind them does not count. -/
def string (quote : Char) (text : List Char) : Except ReadError (String × List Char) :=
  let fuel := text.length + 1
  match text with
  | first :: second :: third :: rest =>
      if first = quote && second = quote && third = quote then
        let body := if rest.head? = some '\n' then rest.tail else rest
        stringFrom { quote, isMultiline := true } fuel [] body
      else stringFrom { quote, isMultiline := false } fuel [] (second :: third :: rest)
  | _ :: rest => stringFrom { quote, isMultiline := false } fuel [] rest
  | [] => .error .unclosedString

/-! ### Numbers -/

def isDigitOf (radix : Nat) (char : Char) : Bool :=
  (hexadecimal? [char]).any (· < radix)

/-- Reads digits, between which single underscores can stand. -/
def digitsFrom (radix : Nat) :
    (newestFirst : List Char) → List Char → Except ReadError (List Char × List Char)
  | [], [] => .error .invalidNumber
  | newestFirst, [] => .ok (newestFirst.reverse, [])
  | newestFirst, '_' :: rest =>
      if newestFirst.isEmpty || !rest.head?.any (isDigitOf radix) then .error .invalidNumber
      else digitsFrom radix newestFirst rest
  | newestFirst, char :: rest =>
      if isDigitOf radix char then digitsFrom radix (char :: newestFirst) rest
      else if newestFirst.isEmpty then .error .invalidNumber
      else .ok (newestFirst.reverse, char :: rest)

/-- Reads the digits in front of a point.  Several of them do not begin with zero. -/
def wholeDigits (text : List Char) : Except ReadError (List Char × List Char) := do
  let (digits, rest) ← digitsFrom 10 [] text
  if digits.head? = some '0' && 1 < digits.length then throw .invalidNumber
  return (digits, rest)

def valueOf (radix : Nat) (digits : List Char) : Nat :=
  digits.foldl (fun value digit => radix * value + ((hexadecimal? [digit]).getD 0)) 0

def integer (isNegative : Bool) (value : Nat) : Except ReadError Value :=
  if isNegative then
    if value ≤ Word.size 63 then .ok (.integer (-(value : Int))) else .error .invalidNumber
  else if value < Word.size 63 then .ok (.integer value)
  else .error .invalidNumber

/-- Reads the rest of a number in another base. -/
def integerIn (radix : Nat) (text : List Char) : Except ReadError (Value × List Char) := do
  let (digits, rest) ← digitsFrom radix [] text
  let value ← integer false (valueOf radix digits)
  return (value, rest)

def exponent : List Char → Except ReadError (List Char × List Char)
  | '+' :: rest => digitsFrom 10 [] rest
  | '-' :: rest => do
      let (digits, rest) ← digitsFrom 10 [] rest
      return ('-' :: digits, rest)
  | rest => digitsFrom 10 [] rest

def float (isNegative : Bool) (whole fraction exponent : List Char) :
    Except ReadError Value :=
  let sign := if isNegative then ['-'] else []
  let text := sign ++ whole ++ ['.'] ++ fraction ++ ['e'] ++ exponent
  match Decimal.read? (String.ofList text) with
  | some value => if value.isFinite then .ok (.float value) else .error .invalidNumber
  | none => .error .invalidNumber

def decimal (isNegative : Bool) (text : List Char) : Except ReadError (Value × List Char) := do
  let (whole, behindWhole) ← wholeDigits text
  let (fraction, behindFraction) ←
    match behindWhole with
    | '.' :: rest => digitsFrom 10 [] rest
    | rest => pure ([], rest)
  match behindFraction with
  | mark :: rest =>
      if mark = 'e' || mark = 'E' then
        let (power, rest) ← exponent rest
        return (← float isNegative whole fraction power, rest)
      else if fraction.isEmpty then
        return (← integer isNegative (valueOf 10 whole), behindFraction)
      else return (← float isNegative whole fraction ['0'], behindFraction)
  | [] =>
      if fraction.isEmpty then return (← integer isNegative (valueOf 10 whole), [])
      else return (← float isNegative whole fraction ['0'], [])

def number (isNegative : Bool) : List Char → Except ReadError (Value × List Char)
  | '0' :: 'x' :: rest => if isNegative then .error .invalidNumber else integerIn 16 rest
  | '0' :: 'o' :: rest => if isNegative then .error .invalidNumber else integerIn 8 rest
  | '0' :: 'b' :: rest => if isNegative then .error .invalidNumber else integerIn 2 rest
  | 'i' :: 'n' :: 'f' :: rest =>
      .ok (.float (if isNegative then -(1.0 / 0.0) else 1.0 / 0.0), rest)
  | 'n' :: 'a' :: 'n' :: rest => .ok (.float (0.0 / 0.0), rest)
  | text => decimal isNegative text

/-! ### Dates and times -/

def fixedDigits (count : Nat) (text : List Char) : Except ReadError (List Char × List Char) :=
  let digits := text.take count
  if digits.length = count && digits.all Char.isDigit then .ok (digits, text.drop count)
  else .error .invalidDate

def expect (char : Char) : List Char → Except ReadError (List Char)
  | next :: rest => if next = char then .ok rest else .error .invalidDate
  | [] => .error .invalidDate

def twoDigits (least greatest : Nat) (text : List Char) :
    Except ReadError (List Char × List Char) := do
  let (digits, rest) ← fixedDigits 2 text
  if least ≤ valueOf 10 digits && valueOf 10 digits ≤ greatest then return (digits, rest)
  else throw .invalidDate

def date (text : List Char) : Except ReadError (List Char × List Char) := do
  let (year, rest) ← fixedDigits 4 text
  let rest ← expect '-' rest
  let (month, rest) ← twoDigits 1 12 rest
  let rest ← expect '-' rest
  let (day, rest) ← twoDigits 1 31 rest
  return (year ++ '-' :: month ++ '-' :: day, rest)

/-- Fractions of a second, as they are written: at most nine places and no zeros at the
end. -/
def secondsFraction (digits : List Char) : List Char :=
  let kept := ((digits.take 9).reverse.dropWhile (· = '0')).reverse
  if kept.isEmpty then [] else '.' :: kept

def time (text : List Char) : Except ReadError (List Char × List Char) := do
  let (hour, rest) ← twoDigits 0 24 text
  let rest ← expect ':' rest
  let (minute, rest) ← twoDigits 0 59 rest
  let rest ← expect ':' rest
  let (second, rest) ← twoDigits 0 60 rest
  let whole := hour ++ ':' :: minute ++ ':' :: second
  match rest with
  | '.' :: rest =>
      let digits := rest.takeWhile Char.isDigit
      if digits.isEmpty then throw .invalidDate
      return (whole ++ secondsFraction digits, rest.drop digits.length)
  | rest => return (whole, rest)

/-- Reads the distance from universal time, if one follows. -/
def offset (text : List Char) : Except ReadError (List Char × List Char) :=
  match text with
  | 'Z' :: rest => .ok (['Z'], rest)
  | 'z' :: rest => .ok (['Z'], rest)
  | sign :: rest =>
      if sign = '+' || sign = '-' then do
        let (hours, rest) ← fixedDigits 2 rest
        let rest ← expect ':' rest
        let (minutes, rest) ← fixedDigits 2 rest
        return (sign :: hours ++ ':' :: minutes, rest)
      else .ok ([], text)
  | [] => .ok ([], [])

def dateTime (text : List Char) : Except ReadError (Value × List Char) := do
  let (day, behindDate) ← date text
  let timed : Bool :=
    match behindDate with
    | 'T' :: _ => true
    | 't' :: _ => true
    | ' ' :: next :: _ => next.isDigit
    | _ => false
  if timed then
    let (clock, rest) ← time behindDate.tail
    let (zone, rest) ← offset rest
    return (.text (String.ofList (day ++ 'T' :: clock ++ zone)), rest)
  else return (.text (String.ofList day), behindDate)

def timeOfDay (text : List Char) : Except ReadError (Value × List Char) := do
  let (clock, rest) ← time text
  return (.text (String.ofList clock), rest)

def bareScalar (text : List Char) : Except ReadError (Value × List Char) :=
  match text with
  | 't' :: 'r' :: 'u' :: 'e' :: rest => .ok (.boolean true, rest)
  | 'f' :: 'a' :: 'l' :: 's' :: 'e' :: rest => .ok (.boolean false, rest)
  | '+' :: rest => number false rest
  | '-' :: rest => number true rest
  | text =>
      match text.dropWhile Char.isDigit with
      | '-' :: _ => dateTime text
      | ':' :: _ => timeOfDay text
      | _ => number false text

end Highlighter.Data.Toml

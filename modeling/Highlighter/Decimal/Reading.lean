/-!
# Reading numbers

Decimal text as the nearest floating-point number.
-/
namespace Highlighter.Decimal

def valueOf (digits : List Char) : Nat :=
  digits.foldl (fun value digit => 10 * value + (digit.toNat - 48)) 0

/-- The nearest number to `digits * 10 ^ exponent`.  Exponents beyond the range
of numbers are not multiplied out. -/
def nearest (digits : List Char) (exponent : Int) : Float :=
  let significant := digits.dropWhile (· == '0')
  let magnitude := (significant.length : Int) + exponent
  if significant.isEmpty || magnitude < -400 then 0.0
  else if 400 < magnitude then 1.0 / 0.0
  else
    Float.ofScientific (valueOf significant) (exponent < 0) exponent.natAbs

/-- An exponent with an optional sign; nothing stands for 0. -/
def exponent? : List Char → Option Int
  | [] => some 0
  | mark :: rest =>
      if mark != 'e' && mark != 'E' then none
      else
        let (negative, digits) :=
          match rest with
          | '-' :: digits => (true, digits)
          | '+' :: digits => (false, digits)
          | digits => (false, digits)
        if digits.isEmpty || !digits.all Char.isDigit then none
        else
          let value : Int := valueOf digits
          some (if negative then -value else value)

/-- A number without a sign: digits with an optional point and exponent, or the
name of an infinity or of no number. -/
def unsigned? (text : List Char) : Option Float :=
  let lowered := String.ofList (text.map Char.toLower)
  if lowered = "inf" || lowered = "infinity" then some (1.0 / 0.0)
  else if lowered = "nan" then some (0.0 / 0.0)
  else
    let whole := text.takeWhile Char.isDigit
    let (fraction, rest) :=
      match text.dropWhile Char.isDigit with
      | '.' :: behind => (behind.takeWhile Char.isDigit, behind.dropWhile Char.isDigit)
      | rest => ([], rest)
    if whole.isEmpty && fraction.isEmpty then none
    else
      (exponent? rest).map fun exponent =>
        nearest (whole ++ fraction) (exponent - fraction.length)

def read? (text : String) : Option Float :=
  match text.toList with
  | '-' :: rest => (unsigned? rest).map fun number => -number
  | '+' :: rest => unsigned? rest
  | rest => unsigned? rest

end Highlighter.Decimal

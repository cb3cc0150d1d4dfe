import Highlighter.Decimal.Shortest

/-!
# Numbers as text

A number is written with the fewest digits that read back as the same number:
always positionally, or with an exponent where that is shorter.
-/
namespace Highlighter.Decimal

def digitsOf (value : Nat) : List Char :=
  Nat.toDigits 10 value

def positional (scaled : Scaled) : List Char :=
  let digits := digitsOf scaled.digits
  let point := (digits.length : Int) + scaled.exponent
  if 0 ≤ scaled.exponent then
    digits ++ List.replicate scaled.exponent.toNat '0'
  else if 0 < point then
    digits.take point.toNat ++ '.' :: digits.drop point.toNat
  else
    '0' :: '.' :: List.replicate (-point).toNat '0' ++ digits

/-- A decimal with an exponent, where one digit stands in front of the point. -/
def scientific (scaled : Scaled) : List Char :=
  let digits := digitsOf scaled.digits
  let exponent := (digits.length : Int) + scaled.exponent - 1
  let fraction :=
    match digits with
    | first :: second :: rest => first :: '.' :: second :: rest
    | digits => digits
  let sign := if exponent < 0 then ['-'] else []
  fraction ++ 'e' :: (sign ++ digitsOf exponent.natAbs)

def signed (negative : Bool) (text : List Char) : String :=
  String.ofList (if negative then '-' :: text else text)

def toText (number : Float) : String :=
  match partsOf number with
  | .notANumber => "NaN"
  | .infinite negative => signed negative "inf".toList
  | .finite negative mantissa exponent =>
      signed negative (positional (shortest mantissa exponent))

/-- A finite number such that it can be told from an integer: with a point or an
exponent.  The exponent is used for numbers of more than sixteen places and for
those below a hundred-thousandth. -/
def toFloatText (number : Float) : Option String :=
  match partsOf number with
  | .notANumber => none
  | .infinite _ => none
  | .finite negative mantissa exponent =>
      let scaled := shortest mantissa exponent
      let point := ((digitsOf scaled.digits).length : Int) + scaled.exponent
      if 0 ≤ scaled.exponent && point ≤ 16 then
        some (signed negative (positional scaled ++ ".0".toList))
      else if -5 < point && point ≤ 16 then
        some (signed negative (positional scaled))
      else
        some (signed negative (scientific scaled))

end Highlighter.Decimal

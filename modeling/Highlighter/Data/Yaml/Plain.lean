import Highlighter.Data.Value
import Highlighter.Data.Yaml.Scalar
import Highlighter.Decimal.Reading
import Highlighter.Data.Word

/-!
# Plain scalars in YAML

What text without quotes stands for: nothing, a truth value, a number or itself.
-/
namespace Highlighter.Data.Yaml

def isNullWord (text : String) : Bool :=
  ["", "~", "null", "Null", "NULL"].contains text

def truthValue? (text : String) : Option Bool :=
  if ["true", "True", "TRUE"].contains text then some true
  else if ["false", "False", "FALSE"].contains text then some false
  else none

def digitValue? (radix : Nat) (char : Char) : Option Nat :=
  (hexadecimal? [char]).filter (· < radix)

def digits? (radix : Nat) (digits : List Char) : Option Nat :=
  if digits.isEmpty then none
  else
    digits.foldlM
      (fun value digit => (digitValue? radix digit).map fun digit => radix * value + digit) 0

/-- Whether text, behind its sign, consists of a zero and further digits.  It is no number
then. -/
def hasLeadingZero : List Char → Bool
  | '0' :: digit :: digits => (digit :: digits).all Char.isDigit
  | _ => false

/-- The natural number that text stands for, in one of four bases. -/
def natural? (text : List Char) : Option Nat :=
  match text with
  | '0' :: 'x' :: rest => digits? 16 rest
  | '0' :: 'o' :: rest => digits? 8 rest
  | '0' :: 'b' :: rest => digits? 2 rest
  | rest => if hasLeadingZero rest then none else digits? 10 rest

/-- The integer that text stands for.  It has to fit into 128 bits. -/
def integer? (text : List Char) : Option Int :=
  match text with
  | '-' :: rest =>
      ((natural? rest).filter (· ≤ Word.size 127)).map fun value => -(value : Int)
  | '+' :: rest => ((natural? rest).filter (· < Word.size 128)).map Int.ofNat
  | rest => ((natural? rest).filter (· < Word.size 128)).map Int.ofNat

/-- The number in decimal notation that text stands for, or an infinity, or no number. -/
def float? (text : String) : Option Float :=
  let (negative, rest) :=
    match text.toList with
    | '-' :: rest => (true, rest)
    | '+' :: rest => (false, rest)
    | rest => (false, rest)
  let signed (value : Float) : Float := if negative then -value else value
  if [".inf", ".Inf", ".INF"].contains (String.ofList rest) then some (signed (1.0 / 0.0))
  else if [".nan", ".NaN", ".NAN"].contains text then some (0.0 / 0.0)
  else (Decimal.unsigned? rest).bind fun value =>
    if value.isFinite then some (signed value) else none

def behindSign : List Char → List Char
  | '-' :: rest => rest
  | '+' :: rest => rest
  | rest => rest

def resolve (text : String) : Scalar :=
  if isNullWord text then .null
  else
    match truthValue? text with
    | some value => .boolean value
    | none =>
        match integer? text.toList with
        | some value => .integer value
        | none =>
            if hasLeadingZero (behindSign text.toList) then .text text
            else
              match float? text with
              | some value => .float value
              | none => .text text

end Highlighter.Data.Yaml

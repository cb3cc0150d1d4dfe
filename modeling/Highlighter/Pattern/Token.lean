import Highlighter.Data.Word

/-!
# Pattern sources as tokens

The source of a pattern, seen just finely enough to number its groups: where
groups open, where groups are referred to by number, and the text in between.
Escapes and bracket expressions are text.
-/
namespace Highlighter.Pattern

inductive Token where
  | reference (number : Nat)
  | opening (capturing : Bool) (text : List Char)
  | verbatim (text : List Char)
  deriving Repr, DecidableEq, Inhabited

namespace Token

/-- How many characters behind an opening bracket stand for themselves or negate
the set: a caret, and a closing bracket that comes first. -/
def leadingInBracket : List Char → Nat
  | '^' :: ']' :: _ => 2
  | '^' :: _ => 1
  | ']' :: _ => 1
  | _ => 0

/-- Whether a parenthesis opens a group that captures, and how many characters
behind it belong to the opening. -/
def groupOpening : List Char → Bool × Nat
  | '?' :: 'P' :: '<' :: _ => (true, 3)
  | '?' :: '<' :: '=' :: _ => (false, 3)
  | '?' :: '<' :: '!' :: _ => (false, 3)
  | '?' :: '<' :: _ => (true, 2)
  | '?' :: _ => (false, 1)
  | _ => (true, 0)

/-- The value of decimal digits, or 0 if it does not fit into 64 bits. -/
def referenceNumber (digits : List Char) : Nat :=
  let value := digits.foldl (fun value digit => 10 * value + (digit.toNat - 48)) 0
  if value < Word.size 64 then value else 0

/-- Reads the tokens of a source.  `brackets` is the number of brackets that are
open, and `skipped` the number of characters that belong to the last token. -/
def scan : (brackets skipped : Nat) → List Char → List Token
  | _, _, [] => []
  | brackets, skipped + 1, _ :: rest => scan brackets skipped rest
  | 0, 0, char :: rest =>
      if char = '\\' then
        match rest with
        | [] => [.verbatim ['\\']]
        | escaped :: _ =>
            if escaped.isDigit && escaped != '0' then
              let digits := rest.takeWhile Char.isDigit
              .reference (referenceNumber digits) :: scan 0 digits.length rest
            else
              .verbatim ['\\', escaped] :: scan 0 1 rest
      else if char = '[' then
        let leading := leadingInBracket rest
        .verbatim ('[' :: rest.take leading) :: scan 1 leading rest
      else if char = '(' then
        let (capturing, length) := groupOpening rest
        .opening capturing ('(' :: rest.take length) :: scan 0 length rest
      else
        .verbatim [char] :: scan 0 0 rest
  | brackets + 1, 0, char :: rest =>
      if char = '\\' then
        .verbatim ('\\' :: rest.take 1) :: scan (brackets + 1) 1 rest
      else if char = '[' then
        let leading := leadingInBracket rest
        .verbatim ('[' :: rest.take leading) :: scan (brackets + 2) leading rest
      else if char = ']' then
        .verbatim [']'] :: scan brackets 0 rest
      else
        .verbatim [char] :: scan (brackets + 1) 0 rest

def ofSource (source : List Char) : List Token :=
  scan 0 0 source

def isCapturing : Token → Bool
  | .opening capturing _ => capturing
  | _ => false

/-- The same token where references are moved on by `offset` groups. -/
def shift (offset : Nat) : Token → Token
  | .reference number => .reference (number + offset)
  | token => token

def text : Token → List Char
  | .reference number => '\\' :: Nat.toDigits 10 number
  | .opening _ text => text
  | .verbatim text => text

end Token

/-- The number of groups that a source opens and that capture. -/
def countGroups (source : String) : Nat :=
  (Token.ofSource source.toList).countP Token.isCapturing

end Highlighter.Pattern

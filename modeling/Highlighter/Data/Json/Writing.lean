import Highlighter.Data.Value
import Highlighter.Decimal.Text

/-!
# Writing JSON

Documents on one line, or with one item a line and indented by two blanks for
each container around it.
-/
namespace Highlighter.Data.Json

def hexDigit (value : Nat) : Char :=
  Char.ofNat (if value < 10 then 48 + value else 87 + value)

def escapeChar (char : Char) : List Char :=
  match char with
  | '"' => ['\\', '"']
  | '\\' => ['\\', '\\']
  | '\x08' => ['\\', 'b']
  | '\x0c' => ['\\', 'f']
  | '\n' => ['\\', 'n']
  | '\r' => ['\\', 'r']
  | '\t' => ['\\', 't']
  | char =>
      if char.toNat < 32 then
        ['\\', 'u', '0', '0', hexDigit (char.toNat / 16), hexDigit (char.toNat % 16)]
      else [char]

def quoted (content : String) : String :=
  String.ofList ('"' :: (content.toList.flatMap escapeChar ++ ['"']))

/-- A scalar.  Numbers that are not finite have no notation. -/
def scalarText : Scalar → String
  | .null => "null"
  | .boolean true => "true"
  | .boolean false => "false"
  | .integer value =>
      Decimal.signed (value < 0) (Decimal.digitsOf value.natAbs)
  | .float value => (Decimal.toFloatText value).getD "null"
  | .text value => quoted value

inductive Layout where
  | compact
  | indented (depth : Nat)
  deriving Repr, DecidableEq, Inhabited

namespace Layout

def inner : Layout → Layout
  | .compact => .compact
  | .indented depth => .indented (depth + 1)

/-- What stands in front of a part or of the closing bracket. -/
def lineBreak : Layout → String
  | .compact => ""
  | .indented depth => String.ofList ('\n' :: List.replicate (2 * depth) ' ')

def colon : Layout → String
  | .compact => ":"
  | .indented _ => ": "

end Layout

mutual

def render (layout : Layout) : Value → String
  | .scalar value _ => scalarText value
  | .list [] => "[]"
  | .list (item :: items) =>
      "[" ++ layout.inner.lineBreak ++ render layout.inner item ++
        renderItems layout.inner items ++ layout.lineBreak ++ "]"
  | .record [] => "\x7b\x7d"
  | .record (member :: members) =>
      "\x7b" ++ layout.inner.lineBreak ++ renderMember layout.inner member ++
        renderMembers layout.inner members ++ layout.lineBreak ++ "\x7d"

def renderItems (layout : Layout) : List Value → String
  | [] => ""
  | item :: items => "," ++ layout.lineBreak ++ render layout item ++ renderItems layout items

def renderMember (layout : Layout) : Value × Value → String
  | (key, item) => render layout key ++ layout.colon ++ render layout item

def renderMembers (layout : Layout) : List (Value × Value) → String
  | [] => ""
  | member :: members =>
      "," ++ layout.lineBreak ++ renderMember layout member ++ renderMembers layout members

end

def compact (document : Value) : String :=
  render .compact document

def pretty (document : Value) : String :=
  render (.indented 0) document

end Highlighter.Data.Json

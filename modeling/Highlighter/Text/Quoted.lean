import Highlighter.Unicode.Property

/-!
# Quoted text

Text between double quotes, in which characters that cannot be seen are written as
escapes.
-/
namespace Highlighter.Text

/-- A number in hexadecimal digits, without leading zeros. -/
def hexadecimal (number : Nat) : List Char :=
  Nat.toDigits 16 number

def numericEscape (char : Char) : List Char :=
  ['\\', 'u', '\x7b'] ++ hexadecimal char.toNat ++ ['\x7d']

/-- A character as it stands in quoted text: as an escape if it cannot be printed or
changes the character before it. -/
def quotedChar (char : Char) : List Char :=
  match char with
  | '\x00' => ['\\', '0']
  | '\t' => ['\\', 't']
  | '\r' => ['\\', 'r']
  | '\n' => ['\\', 'n']
  | '\\' => ['\\', '\\']
  | '"' => ['\\', '"']
  | char =>
      if Unicode.isGraphemeExtend char || !Unicode.isPrintable char then numericEscape char
      else [char]

def quoted (text : String) : String :=
  String.ofList ('"' :: text.toList.flatMap quotedChar ++ ['"'])

end Highlighter.Text

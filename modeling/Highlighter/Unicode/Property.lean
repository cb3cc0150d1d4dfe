import Highlighter.Unicode.Category
import Highlighter.Unicode.PropertyTable

/-!
Properties of characters that follow from the general category and a few
exceptions.  ASCII characters are decided without a table.
-/
namespace Highlighter.Unicode

def isAlphabetic (char : Char) : Bool :=
  if char.toNat < 128 then char.isAlpha
  else
    (.letterNumber :: Category.letters).contains (category char) ||
      alphabeticExtra.contains char.toNat

def isAlphanumeric (char : Char) : Bool :=
  if char.toNat < 128 then char.isAlphanum
  else isAlphabetic char || Category.numbers.contains (category char)

def isDecimalDigit (char : Char) : Bool :=
  if char.toNat < 128 then char.isDigit
  else category char = .decimalNumber

/-- Separators, and the control characters that end a line or tabulate. -/
def isWhiteSpace (char : Char) : Bool :=
  if char.toNat < 128 then
    char = ' ' || (9 ≤ char.toNat && char.toNat ≤ 13)
  else
    char.toNat = 0x85 || Category.separators.contains (category char)

/-- Characters of words: alphabetic ones, marks, decimal digits, connecting
punctuation and the joiners. -/
def isWord (char : Char) : Bool :=
  if char.toNat < 128 then char.isAlphanum || char = '_'
  else
    isAlphabetic char ||
      (.decimalNumber :: .connectorPunctuation :: Category.marks).contains (category char) ||
      char.toNat = 0x200C || char.toNat = 0x200D

def isLowercase (char : Char) : Bool :=
  if char.toNat < 128 then char.isLower
  else category char = .lowercaseLetter || lowercaseExtra.contains char.toNat

def isUppercase (char : Char) : Bool :=
  if char.toNat < 128 then char.isUpper
  else category char = .uppercaseLetter || uppercaseExtra.contains char.toNat

def isCased (char : Char) : Bool :=
  isLowercase char || isUppercase char ||
    (128 ≤ char.toNat && category char = .titlecaseLetter)

def midWordPunctuation : List Nat :=
  [0x27, 0x2E, 0x3A, 0xB7, 0x387, 0x55F, 0x5F4, 0x2018, 0x2019, 0x2024, 0x2027, 0xFE13,
    0xFE52, 0xFE55, 0xFF07, 0xFF0E, 0xFF1A]

/-- Characters that are passed over when the letters around one are examined. -/
def isCaseIgnorable (char : Char) : Bool :=
  midWordPunctuation.contains char.toNat ||
    [.nonspacingMark, .enclosingMark, .format, .modifierLetter, .modifierSymbol].contains
      (category char)

def isGraphemeExtend (char : Char) : Bool :=
  128 ≤ char.toNat &&
    ([.nonspacingMark, .enclosingMark].contains (category char) ||
      graphemeExtendExtra.contains char.toNat)

/-- Characters that can be shown: neither separators, the space apart, nor
characters without a shape of their own. -/
def isPrintable (char : Char) : Bool :=
  if char.toNat < 128 then 32 ≤ char.toNat && char.toNat ≤ 126
  else !(Category.separators ++ Category.others).contains (category char)

end Highlighter.Unicode

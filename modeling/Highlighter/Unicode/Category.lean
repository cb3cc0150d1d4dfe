import Highlighter.Unicode.CategoryTable
import Highlighter.Unicode.Table

/-!
General categories of characters.
-/
namespace Highlighter.Unicode

inductive Category where
  | uppercaseLetter
  | lowercaseLetter
  | titlecaseLetter
  | modifierLetter
  | otherLetter
  | nonspacingMark
  | spacingMark
  | enclosingMark
  | decimalNumber
  | letterNumber
  | otherNumber
  | connectorPunctuation
  | dashPunctuation
  | openPunctuation
  | closePunctuation
  | initialPunctuation
  | finalPunctuation
  | otherPunctuation
  | mathSymbol
  | currencySymbol
  | modifierSymbol
  | otherSymbol
  | spaceSeparator
  | lineSeparator
  | paragraphSeparator
  | control
  | format
  | surrogate
  | privateUse
  | unassigned
  deriving Repr, DecidableEq, Inhabited

namespace Category

def ofCode? : (first second : Char) → Option Category
  | 'L', 'u' => some .uppercaseLetter
  | 'L', 'l' => some .lowercaseLetter
  | 'L', 't' => some .titlecaseLetter
  | 'L', 'm' => some .modifierLetter
  | 'L', 'o' => some .otherLetter
  | 'M', 'n' => some .nonspacingMark
  | 'M', 'c' => some .spacingMark
  | 'M', 'e' => some .enclosingMark
  | 'N', 'd' => some .decimalNumber
  | 'N', 'l' => some .letterNumber
  | 'N', 'o' => some .otherNumber
  | 'P', 'c' => some .connectorPunctuation
  | 'P', 'd' => some .dashPunctuation
  | 'P', 's' => some .openPunctuation
  | 'P', 'e' => some .closePunctuation
  | 'P', 'i' => some .initialPunctuation
  | 'P', 'f' => some .finalPunctuation
  | 'P', 'o' => some .otherPunctuation
  | 'S', 'm' => some .mathSymbol
  | 'S', 'c' => some .currencySymbol
  | 'S', 'k' => some .modifierSymbol
  | 'S', 'o' => some .otherSymbol
  | 'Z', 's' => some .spaceSeparator
  | 'Z', 'l' => some .lineSeparator
  | 'Z', 'p' => some .paragraphSeparator
  | 'C', 'c' => some .control
  | 'C', 'f' => some .format
  | 'C', 's' => some .surrogate
  | 'C', 'o' => some .privateUse
  | 'C', 'n' => some .unassigned
  | _, _ => none

def letters : List Category :=
  [.uppercaseLetter, .lowercaseLetter, .titlecaseLetter, .modifierLetter, .otherLetter]

def casedLetters : List Category :=
  [.uppercaseLetter, .lowercaseLetter, .titlecaseLetter]

def marks : List Category :=
  [.nonspacingMark, .spacingMark, .enclosingMark]

def numbers : List Category :=
  [.decimalNumber, .letterNumber, .otherNumber]

def punctuation : List Category :=
  [.connectorPunctuation, .dashPunctuation, .openPunctuation, .closePunctuation,
    .initialPunctuation, .finalPunctuation, .otherPunctuation]

def symbols : List Category :=
  [.mathSymbol, .currencySymbol, .modifierSymbol, .otherSymbol]

def separators : List Category :=
  [.spaceSeparator, .lineSeparator, .paragraphSeparator]

def others : List Category :=
  [.control, .format, .surrogate, .privateUse, .unassigned]

/-- The first code points of the runs that a length and a two-letter code stand
for.  `LC` stands for letters in turn uppercase and lowercase. -/
def runsOf (start length : Nat) : (first second : Char) → List (Nat × Category)
  | 'L', 'C' =>
      (List.range length).map fun index =>
        (start + index, if index % 2 = 0 then .uppercaseLetter else .lowercaseLetter)
  | first, second => (ofCode? first second).toList.map fun category => (start, category)

/-- Reads runs of a length and a code, from code point `start` on. -/
def runsFrom : (start length : Nat) → List Char → List (Nat × Category)
  | start, length, '-' :: rest => (start, .unassigned) :: runsFrom (start + length) 0 rest
  | start, length, first :: second :: rest =>
      if first.isUpper then
        runsOf start length first second ++ runsFrom (start + length) 0 rest
      else
        runsFrom start (16 * length + (hexDigit? first).getD 0) (second :: rest)
  | _, _, _ => []

/-- The first code point of every run, with the category of the run. -/
def table : Array (Nat × Category) :=
  (runsFrom 0 0 categoryRuns.toList).toArray

end Category

def category (char : Char) : Category :=
  (floor? Category.table char.toNat).getD .unassigned

end Highlighter.Unicode

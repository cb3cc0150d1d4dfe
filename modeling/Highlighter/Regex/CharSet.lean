import Highlighter.Unicode.LetterCase
import Highlighter.Unicode.Script

/-!
# Sets of characters

The sets that a pattern can name, as expressions.  A set is never listed: whether
a character belongs to it is decided from the expression.
-/
namespace Highlighter.Regex

inductive CharSet where
  | empty
  | range (first last : Char)
  | digit
  | space
  | word
  | categories (members : List Unicode.Category)
  | script (code : List Char)
  | usedIn (code : List Char)
  | table (codes : Unicode.RangeTable)
  | union (left right : CharSet)
  | inter (left right : CharSet)
  | diff (left right : CharSet)
  | symmDiff (left right : CharSet)
  | complement (set : CharSet)
  | foldCase (set : CharSet)
  deriving Repr, DecidableEq, Inhabited

namespace CharSet

/-- Whether a character belongs to a set.  Under `foldCase` it does if some
character that differs from it only in case does. -/
def contains : CharSet → Char → Bool
  | .empty, _ => false
  | .range first last, char => first ≤ char && char ≤ last
  | .digit, char => Unicode.isDecimalDigit char
  | .space, char => Unicode.isWhiteSpace char
  | .word, char => Unicode.isWord char
  | .categories members, char => members.contains (Unicode.category char)
  | .script code, char => Unicode.Script.isScriptOf code char
  | .usedIn code, char => Unicode.Script.isUsedIn code char
  | .table codes, char => codes.contains char.toNat
  | .union left right, char => left.contains char || right.contains char
  | .inter left right, char => left.contains char && right.contains char
  | .diff left right, char => left.contains char && !right.contains char
  | .symmDiff left right, char => left.contains char != right.contains char
  | .complement set, char => !set.contains char
  | .foldCase set, char =>
      set.contains char || (Unicode.otherCases char).any fun other => set.contains other

def single (char : Char) : CharSet :=
  .range char char

def ofRanges (ranges : List (Char × Char)) : CharSet :=
  ranges.foldl (fun set range => .union set (.range range.1 range.2)) .empty

def hexDigit : CharSet :=
  ofRanges [('0', '9'), ('A', 'F'), ('a', 'f')]

/-- A measure of how many separate ranges a set has. -/
def weight : CharSet → Nat
  | .empty => 1
  | .range _ _ => 1
  | .digit => 70
  | .space => 10
  | .word => 790
  | .categories members => 80 * members.length
  | .script _ => 20
  | .usedIn _ => 20
  | .table codes => codes.ranges.size
  | .union left right => left.weight + right.weight
  | .inter left right => left.weight + right.weight
  | .diff left right => left.weight + right.weight
  | .symmDiff left right => left.weight + right.weight
  | .complement set => set.weight
  | .foldCase set => set.weight

end CharSet
end Highlighter.Regex

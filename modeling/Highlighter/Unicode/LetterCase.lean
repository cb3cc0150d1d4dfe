import Highlighter.Unicode.CaseTable
import Highlighter.Unicode.Property

/-!
Letter case: the lowercase of a text, and the characters that differ from a
character only in case.
-/
namespace Highlighter.Unicode

/-- A run of letters: the first, how many there are and how far apart, and the distance to the
other letter. -/
structure CaseRun where
  first : Nat
  count : Nat
  step : Nat
  distance : Int
  deriving Repr, DecidableEq, Inhabited

namespace CaseRun

def contains (run : CaseRun) (code : Nat) : Bool :=
  run.first ≤ code && code < run.first + run.count * run.step &&
    (code - run.first) % run.step = 0

def other (run : CaseRun) (code : Nat) : Nat :=
  (code + run.distance).toNat

end CaseRun

/-- A hexadecimal number that may have a minus sign. -/
def signedHex (word : List Char) : Int :=
  let size := (hexNumbersAfter none word).headD 0
  if word.contains '-' then -size else size

/-- Reads runs from their first code points and distances. -/
def CaseRun.ofWords : List (List Char) → List CaseRun
  | start :: distance :: rest =>
      let numbers := hexNumbersAfter none start
      { first := numbers.headD 0
        count := numbers.getD 1 1
        step := if start.contains '/' then 2 else 1
        distance := signedHex distance } :: ofWords rest
  | _ => []

def foldingRuns : List CaseRun :=
  CaseRun.ofWords (Text.splitOn ' ' foldingPairs.toList)

def loweringRuns : List CaseRun :=
  loweringPairs.map (fun run => ⟨run.1, run.2, 2, 1⟩) ++
    loweringLetters.map (fun letter => ⟨letter.1, 1, 1, letter.2⟩) ++
    loweringRanges.map fun run => ⟨run.1, run.2.1, 1, run.2.2⟩

def largeFoldingGroups : List (List Nat) :=
  (Text.splitOn ';' foldingGroups.toList).map (hexNumbersAfter none)

/-- The ASCII letters that differ from other characters in more than ASCII case. -/
def hasFoldingOutsideAscii (char : Char) : Bool :=
  char = 'k' || char = 'K' || char = 's' || char = 'S'

def caseVariants (code : Nat) : List Nat :=
  match largeFoldingGroups.find? (·.contains code) with
  | some group => group.filter (· ≠ code)
  | none =>
      foldingRuns.filterMap fun run =>
        if run.contains code then some (run.other code)
        else
          let smaller := ((code : Int) - run.distance).toNat
          if run.contains smaller && run.other smaller = code then some smaller else none

def otherCases (char : Char) : List Char :=
  if char.toNat < 128 && !hasFoldingOutsideAscii char then
    if char.isUpper then [char.toLower]
    else if char.isLower then [char.toUpper]
    else []
  else
    (caseVariants char.toNat).map Char.ofNat

def equalIgnoringCase (left right : Char) : Bool :=
  left = right || (otherCases left).contains right

def lowercaseChar (char : Char) : List Char :=
  if char.toNat < 128 then [char.toLower]
  else if char.toNat = 0x130 then ['i', Char.ofNat 0x307]
  else
    match loweringRuns.find? (·.contains char.toNat) with
    | some run => [Char.ofNat (run.other char.toNat)]
    | none => [char]

def startsCased (chars : List Char) : Bool :=
  match chars.dropWhile isCaseIgnorable with
  | [] => false
  | char :: _ => isCased char

/-- The lowercase of the characters that follow `before`, which is reversed.  A
capital sigma at the end of a word has a form of its own. -/
def lowercaseAfter : (before : List Char) → List Char → List Char
  | _, [] => []
  | before, char :: rest =>
      let lower :=
        if char = 'Σ' then
          if startsCased before && !startsCased rest then ['ς'] else ['σ']
        else lowercaseChar char
      lower ++ lowercaseAfter (char :: before) rest

def lowercase (text : String) : String :=
  String.ofList (lowercaseAfter [] text.toList)

end Highlighter.Unicode

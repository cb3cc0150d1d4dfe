import Highlighter.Unicode.ScriptTable
import Highlighter.Unicode.Table

/-!
# Scripts

The script of a character, and the scripts it is used in, by the four-letter
codes of the scripts.
-/
namespace Highlighter.Unicode.Script

/-- The codes, older codes and full names of the scripts, each list headed by
the code. -/
def names : List (List (List Char)) :=
  (Text.splitOn ' ' scriptNames.toList).map (Text.splitOn '=')

/-- Reads runs of a length and a code, from code point `start` on.  Single signs
stand for the code of no script and for that of all scripts. -/
def runsFrom : (fuel start length : Nat) → List Char → List (Nat × List Char)
  | fuel + 1, start, length, char :: rest =>
      if char = '-' then
        (start, "Zzzz".toList) :: runsFrom fuel (start + length) 0 rest
      else if char = '=' then
        (start, "Zyyy".toList) :: runsFrom fuel (start + length) 0 rest
      else if char.isUpper then
        (start, char :: rest.take 3) :: runsFrom fuel (start + length) 0 (rest.drop 3)
      else
        runsFrom fuel start (16 * length + (hexDigit? char).getD 0) rest
  | _, _, _, _ => []

/-- The first code point of every run, with the script of the run. -/
def table : Array (Nat × List Char) :=
  (runsFrom scriptRuns.length 0 0 scriptRuns.toList).toArray

def codes : (fuel : Nat) → List Char → List (List Char)
  | fuel + 1, char :: rest => (char :: rest.take 3) :: codes fuel (rest.drop 3)
  | _, _ => []

/-- Reads ranges of code points with the codes of their scripts. -/
def extensionsFrom : (start : Nat) → List (List Char) → List (Nat × Nat × List (List Char))
  | start, distance :: length :: scripts :: rest =>
      let first := start + (hexNumbersAfter none distance).headD 0
      let next := first + (hexNumbersAfter none length).headD 0
      (first, next, codes scripts.length scripts) :: extensionsFrom next rest
  | _, _ => []

/-- The ranges whose scripts are listed one by one: first code point, the one
after the last, and the codes. -/
def extensionTable : Array (Nat × Nat × List (List Char)) :=
  (extensionsFrom 0 (Text.splitOn ' ' scriptExtensionRuns.toList)).toArray

def isScriptOf (code : List Char) (char : Char) : Bool :=
  floor? table char.toNat == some code

def isUsedIn (code : List Char) (char : Char) : Bool :=
  match floor? extensionTable char.toNat with
  | some (next, scripts) =>
      if char.toNat < next then scripts.contains code else isScriptOf code char
  | none => isScriptOf code char

end Highlighter.Unicode.Script

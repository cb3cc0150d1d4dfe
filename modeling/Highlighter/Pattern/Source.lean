import Highlighter.Pattern.Token
import Highlighter.Text.Split

/-!
# Composing pattern sources

Patterns are composed as text.  `joinCapturing` is the one composition that has
to look inside: every pattern becomes a group of its own, so the references in
it move on by the number of groups in front.
-/
namespace Highlighter.Pattern

/-- The source of a pattern that matches `text` and nothing else. -/
def literal (text : String) : String :=
  String.ofList (text.toList.flatMap fun char =>
    if "\\.+*?()|[]\x7b\x7d^$#&-~".toList.contains char then ['\\', char] else [char])

def concat (sources : List String) : String :=
  String.join sources

def joinWith (separator : String) (sources : List String) : String :=
  String.ofList (Text.join separator.toList (sources.map String.toList))

/-- Matches where `source` does, and consumes nothing. -/
def lookahead (source : String) : String :=
  "(?=" ++ source ++ ")"

def optional (source : String) : String :=
  "(?:" ++ source ++ ")?"

def anyNumberOfTimes (source : String) : String :=
  "(?:" ++ source ++ ")*"

def either (sources : List String) : String :=
  "(?:" ++ joinWith "|" sources ++ ")"

def eitherCapturing (sources : List String) : String :=
  "(" ++ joinWith "|" sources ++ ")"

/-- The text of a source as a group, when `before` groups were opened earlier. -/
def capture (before : Nat) (source : List Char) : List Char :=
  '(' :: ((Token.ofSource source).flatMap fun token => (token.shift (before + 1)).text) ++ [')']

/-- Sources as groups, when `before` groups were opened earlier. -/
def captureEach : (before : Nat) → List (List Char) → List (List Char)
  | _, [] => []
  | before, source :: sources =>
      let inner := (Token.ofSource source).countP Token.isCapturing
      capture before source :: captureEach (before + 1 + inner) sources

/-- Makes every source a group, moves the references in it past the groups in
front, and puts a separator between any two of them. -/
def joinCapturing (separator : String) (sources : List String) : String :=
  String.ofList (Text.join separator.toList (captureEach 0 (sources.map String.toList)))

end Highlighter.Pattern

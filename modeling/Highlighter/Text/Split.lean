/-!
Cutting a list of characters: at every occurrence of one character, or after a
fixed beginning.
-/
namespace Highlighter.Text

/-- The parts of a text between the occurrences of `separator`.  There is
always one part more than there are separators. -/
def splitOn (separator : Char) : List Char → List (List Char)
  | [] => [[]]
  | char :: rest =>
      if char = separator then
        [] :: splitOn separator rest
      else
        match splitOn separator rest with
        | [] => [[char]]
        | part :: parts => (char :: part) :: parts

def after? : (beginning text : List Char) → Option (List Char)
  | [], text => some text
  | _ :: _, [] => none
  | expected :: beginning, char :: text =>
      if char = expected then after? beginning text else none

/-- The texts one after another, with `separator` between any two of them. -/
def join (separator : List Char) : List (List Char) → List Char
  | [] => []
  | [part] => part
  | part :: rest => part ++ separator ++ join separator rest

theorem after?_eq_some_iff {beginning text rest : List Char} :
    after? beginning text = some rest ↔ text = beginning ++ rest := by
  induction beginning generalizing text with
  | nil => simp [after?]
  | cons expected beginning inductionHypothesis =>
      cases text with
      | nil => simp [after?]
      | cons char text =>
          by_cases same : char = expected
          · simp [after?, same, inductionHypothesis]
          · simp [after?, same]

end Highlighter.Text

import Highlighter.Regex.CharSet.Named

/-!
# Bracket expressions

The set that is written between brackets: characters and ranges of them, sets
named by an escape or between colons, inner brackets, and the operators `&&`,
`--` and `~~`, which all bind alike and weaker than juxtaposition.
-/
namespace Highlighter.Regex

/-- A character of a bracket expression as it stands, one without its special
meaning, or a whole set. -/
inductive BracketToken where
  | plain (char : Char)
  | quoted (char : Char)
  | set (set : CharSet)
  deriving Repr, DecidableEq, Inhabited

inductive BracketError where
  | unclosed
  | setAsLimit
  | reversedRange
  | closedEarly
  deriving Repr, DecidableEq, Inhabited

namespace Bracket

inductive Operator where
  | inter
  | diff
  | symmDiff
  deriving Repr, DecidableEq, Inhabited

/-- A set made indifferent to case, if asked for. -/
def fold (ignoreCase : Bool) (set : CharSet) : CharSet :=
  if ignoreCase then .foldCase set else set

/-- A set joined with what stands in front of it.  Case is dealt with before
the sets are joined. -/
def combine (ignoreCase : Bool) (pending : Option (CharSet × Operator)) (right : CharSet) :
    CharSet :=
  match pending with
  | none => right
  | some (left, .inter) => .inter (fold ignoreCase left) (fold ignoreCase right)
  | some (left, .diff) => .diff (fold ignoreCase left) (fold ignoreCase right)
  | some (left, .symmDiff) => .symmDiff (fold ignoreCase left) (fold ignoreCase right)

/-- The characters in front of the first colon, with what follows it. -/
def nameBeforeColon : List BracketToken → Option (List Char × List BracketToken)
  | .plain char :: rest =>
      if char = ':' then some ([], rest)
      else (nameBeforeColon rest).map fun found => (char :: found.1, found.2)
  | _ => none

/-- Reads a class named between colons, behind its opening bracket. -/
def named? (ignoreCase : Bool) : List BracketToken → Option (CharSet × List BracketToken)
  | .plain ':' :: rest =>
      let (negated, body) :=
        match rest with
        | .plain '^' :: body => (true, body)
        | body => (false, body)
      match nameBeforeColon body with
      | some (name, .plain ']' :: remaining) =>
          (CharSet.asciiClass? (String.ofList name)).map fun set =>
            let folded := fold ignoreCase set
            (if negated then .complement folded else folded, remaining)
      | _ => none
  | _ => none

def leadingHyphens : List BracketToken → CharSet × List BracketToken
  | .plain '-' :: rest =>
      let (set, remaining) := leadingHyphens rest
      (.union (.single '-') set, remaining)
  | rest => (.empty, rest)

/-- What stands in front of the items: a negation, hyphens, and a closing
bracket that comes first and so stands for itself. -/
def opening (tokens : List BracketToken) : Bool × CharSet × List BracketToken :=
  let (negated, body) :=
    match tokens with
    | .plain '^' :: body => (true, body)
    | body => (false, body)
  match body with
  | .plain ']' :: rest => (negated, .single ']', rest)
  | _ => (negated, leadingHyphens body)

/-- The character that a token stands for at one end of a range. -/
def limit : BracketToken → Except BracketError Char
  | .plain char => .ok char
  | .quoted char => .ok char
  | .set _ => .error .setAsLimit

def item : BracketToken → CharSet
  | .plain char => .single char
  | .quoted char => .single char
  | .set set => set

/-- Reads a token, or a range that begins with it.  A hyphen in front of a
closing bracket or of another hyphen makes no range. -/
def range (first : BracketToken) :
    List BracketToken → Except BracketError (CharSet × List BracketToken)
  | .plain '-' :: rest =>
      match rest with
      | [] => .error .unclosed
      | .plain ']' :: _ => .ok (item first, .plain '-' :: rest)
      | .plain '-' :: _ => .ok (item first, .plain '-' :: rest)
      | last :: remaining => do
          let low ← limit first
          let high ← limit last
          if low ≤ high then
            .ok (.range low high, remaining)
          else
            .error .reversedRange
  | rest => .ok (item first, rest)

/-- Reads the items up to the closing bracket.  `items` is the union so far and
`pending` what an operator has yet to be applied to. -/
def body (ignoreCase : Bool) :
    (fuel : Nat) → (negated : Bool) → (pending : Option (CharSet × Operator)) →
    (items : CharSet) → List BracketToken → Except BracketError (CharSet × List BracketToken)
  | 0, _, _, _, _ => .error .unclosed
  | _ + 1, _, _, _, [] => .error .unclosed
  | fuel + 1, negated, pending, items, token :: rest =>
      match token, rest with
      | .plain '[', rest =>
          match named? ignoreCase rest with
          | some (set, remaining) =>
              body ignoreCase fuel negated pending (.union items set) remaining
          | none => do
              let (innerNegated, first, inside) := opening rest
              let (set, remaining) ← body ignoreCase fuel innerNegated none first inside
              body ignoreCase fuel negated pending (.union items set) remaining
      | .plain ']', rest =>
          let folded := fold ignoreCase (combine ignoreCase pending items)
          .ok (if negated then .complement folded else folded, rest)
      | .plain '&', .plain '&' :: remaining =>
          let left := combine ignoreCase pending items
          body ignoreCase fuel negated (some (left, .inter)) .empty remaining
      | .plain '-', .plain '-' :: remaining =>
          let left := combine ignoreCase pending items
          body ignoreCase fuel negated (some (left, .diff)) .empty remaining
      | .plain '~', .plain '~' :: remaining =>
          let left := combine ignoreCase pending items
          body ignoreCase fuel negated (some (left, .symmDiff)) .empty remaining
      | first, rest => do
          let (set, remaining) ← range first rest
          body ignoreCase fuel negated pending (.union items set) remaining

/-- The set of a bracket expression, given the tokens behind its opening
bracket.  They have to end with the bracket that closes it. -/
def read (ignoreCase : Bool) (tokens : List BracketToken) : Except BracketError CharSet := do
  let (negated, first, inside) := opening tokens
  let (set, rest) ← body ignoreCase (tokens.length + 1) negated none first inside
  if rest.isEmpty then .ok set else .error .closedEarly

end Bracket
end Highlighter.Regex

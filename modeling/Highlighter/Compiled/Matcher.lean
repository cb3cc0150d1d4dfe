import Highlighter.Compiled.Rule

/-!
# Matching the rules of a mode

A rule that has matched can turn out not to apply.  The rules behind it are then
tried at the same place, and then all rules behind the next character.
-/
namespace Highlighter

inductive MatchFailure where
  | compile (cause : CompileError)
  | search (cause : Regex.SearchError)
  deriving DecidableEq, Repr, Inhabited

/-- The rules of a mode.  The alternations of its last rules are compiled when
they are needed, except the one of all rules. -/
structure Matcher where
  rules : List Rule
  ignoreCase : Bool
  suffixes : Array (Thunk (Except CompileError Alternation))

namespace Matcher

def suffixOf (rules : List Rule) (ignoreCase : Bool) (position : Nat) :
    Thunk (Except CompileError Alternation) :=
  .mk fun _ => Alternation.compile (rules.drop position) ignoreCase

def suffixesOf (rules : List Rule) (ignoreCase : Bool) (all : Alternation) :
    Array (Thunk (Except CompileError Alternation)) :=
  (.pure (.ok all) ::
    ((List.range (rules.length - 1)).map fun position =>
      suffixOf rules ignoreCase (position + 1))).toArray

def compile (rules : List Rule) (ignoreCase : Bool) : Except CompileError Matcher := do
  let all ← Alternation.compile rules ignoreCase
  return { rules, ignoreCase, suffixes := suffixesOf rules ignoreCase all }

def empty : Matcher where
  rules := []
  ignoreCase := false
  suffixes := #[]

def enterCount (matcher : Matcher) : Nat :=
  matcher.rules.countP fun rule => rule.kind.isEnter

def searchSuffix (matcher : Matcher) (position : Nat) (place : Place) :
    Except MatchFailure (Option RuleMatch) :=
  match matcher.suffixes[position]? with
  | none => .ok none
  | some suffix =>
      match suffix.get with
      | .error cause => .error (.compile cause)
      | .ok alternation =>
          match alternation.search place with
          | .error cause => .error (.search cause)
          | .ok found => .ok found

end Matcher

/-- Where the next search of a matcher resumes: at which of its rules. -/
structure Cursor where
  position : Nat := 0
  deriving DecidableEq, Repr, Inhabited

namespace Matcher

/-- The match found at the cursor, or behind it if it resumes and finds nothing
right at the place. -/
def searchAt (matcher : Matcher) (cursor : Cursor) (place : Place) :
    Except MatchFailure (Option RuleMatch) := do
  let found ← matcher.searchSuffix cursor.position place
  if cursor.position = 0 then
    return found
  else if found.any fun found => found.span.start.offset = place.offset then
    return found
  else
    match place.next? with
    | some (_, next) => matcher.searchSuffix 0 next
    | none => return none

/-- The cursor behind a match.  Behind the last rule that lets a mode begin it
starts over. -/
def advance (matcher : Matcher) (cursor : Cursor) (found : Option RuleMatch) : Cursor :=
  match found with
  | none => cursor
  | some found =>
      let position := cursor.position + found.position + 1
      { position := if position = matcher.enterCount then 0 else position }

def next (matcher : Matcher) (cursor : Cursor) (place : Place) :
    Except MatchFailure (Option RuleMatch × Cursor) := do
  let found ← matcher.searchAt cursor place
  return (found, matcher.advance cursor found)

end Matcher
end Highlighter

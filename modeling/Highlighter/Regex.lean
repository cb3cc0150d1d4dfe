import Highlighter.Regex.Machine

/-!
# Regular expressions

A regular expression is compiled from the source of a pattern and then searched
for in a text.  Lines are always told apart; letter case can be ignored.
-/
namespace Highlighter
namespace Regex

inductive Strategy where
  | automaton (automaton : Automaton)
  | machine (code : Code)
  deriving Repr, Inhabited

structure Match where
  span : Span
  groups : List (Option Span)
  deriving Repr, DecidableEq, Inhabited

def Match.group? (found : Match) (number : Nat) : Option Span :=
  match number with
  | 0 => some found.span
  | number + 1 => (found.groups[number]?).join

end Regex

structure Regex where
  groups : Nat
  strategy : Regex.Strategy
  deriving Repr, Inhabited

namespace Regex

/-- The pattern for a source, with the flags that always hold in front. -/
def pattern (source : String) (ignoreCase : Bool) : String :=
  (if ignoreCase then "(?mi)" else "(?m)") ++ source

def compile (source : String) (ignoreCase : Bool) : Except PatternError Regex := do
  let expression ← Expression.read (pattern source ignoreCase).toList
  if (expression.node.measure expression.referenced).hard then
    let code ← Code.ofExpression expression
    return { groups := expression.groups, strategy := .machine code }
  else
    let automaton ← Automaton.ofNodes [expression.node]
    return { groups := automaton.groups, strategy := .automaton automaton }

def groupSpans (slots : Slots) : (first count : Nat) → List (Option Span)
  | _, 0 => []
  | first, count + 1 => slots.span? first :: groupSpans slots (first + 1) count

/-- The match that the slots describe.  It never begins behind its end. -/
def matchOfSlots? (groups : Nat) (slots : Slots) : Option Match := do
  let span ← slots.span? 0
  let start := if span.stop.offset < span.start.offset then span.stop else span.start
  return { span := { start, stop := span.stop }, groups := groupSpans slots 1 groups }

/-- The first match from a place on.  `continued` tells whether the search goes
on right where the last match ended. -/
def searchFrom (regex : Regex) (place : Place) (continued : Bool) :
    Except SearchError (Option Match) :=
  match regex.strategy with
  | .automaton automaton =>
      .ok ((automaton.search? place).bind (matchOfSlots? regex.groups))
  | .machine code => do
      let slots ← Machine.search code continued place
      return slots.bind (matchOfSlots? regex.groups)

def search (regex : Regex) (place : Place) : Except SearchError (Option Match) :=
  regex.searchFrom place true

/-- The matches from a place on, one after another.  Behind an empty match the
search goes on one character later, and an empty match right behind another
match is left out.  An error ends the list.  If `strict`, a search that goes on
behind an empty match does not count as continued. -/
def matchesFrom (regex : Regex) (strict : Bool) :
    (fuel : Nat) → (place : Place) → (lastEnd : Option Nat) → List (Except SearchError Match)
  | 0, _, _ => []
  | fuel + 1, place, lastEnd =>
      let continued := !strict || lastEnd.all fun last => place.offset ≤ last
      match regex.searchFrom place continued with
      | .error cause => [.error cause]
      | .ok none => []
      | .ok (some found) =>
          let stop := found.span.stop
          if found.span.isEmpty then
            let following :=
              match stop.next? with
              | some (_, next) => regex.matchesFrom strict fuel next (some stop.offset)
              | none => []
            if lastEnd = some stop.offset then following else .ok found :: following
          else
            .ok found :: regex.matchesFrom strict fuel stop (some stop.offset)

def findAll (regex : Regex) (strict : Bool) (text : List Char) :
    List (Except SearchError Match) :=
  regex.matchesFrom strict (text.length + 2) (Place.start text) none

end Regex
end Highlighter

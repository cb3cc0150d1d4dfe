import Highlighter.Regex.CharSet
import Highlighter.Text.Place

/-!
# Regular expressions as trees

The tree that a pattern is read into.  Groups carry the number they were opened
with, so that a tree can be cut into parts without losing count.
-/
namespace Highlighter.Regex

/-- A condition on a place that consumes nothing. -/
inductive Assertion where
  | startOfText
  | endOfText
  | startOfLine
  | endOfLine
  | wordBoundary
  | noWordBoundary
  | startOfWord
  | endOfWord
  deriving Repr, DecidableEq, Inhabited

namespace Assertion

def wordBefore (place : Place) : Bool :=
  place.before.head?.any Unicode.isWord

def wordAfter (place : Place) : Bool :=
  place.after.head?.any Unicode.isWord

def holds : Assertion → Place → Bool
  | .startOfText, place => place.before.isEmpty
  | .endOfText, place => place.after.isEmpty
  | .startOfLine, place => place.before.head?.all (· == '\n')
  | .endOfLine, place => place.after.head?.all (· == '\n')
  | .wordBoundary, place => wordBefore place != wordAfter place
  | .noWordBoundary, place => wordBefore place == wordAfter place
  | .startOfWord, place => !wordBefore place && wordAfter place
  | .endOfWord, place => wordBefore place && !wordAfter place

def concernsWords : Assertion → Bool
  | .startOfText | .endOfText | .startOfLine | .endOfLine => false
  | .wordBoundary | .noWordBoundary | .startOfWord | .endOfWord => true

end Assertion

inductive Direction where
  | ahead
  | behind
  deriving Repr, DecidableEq, Inhabited

inductive Node where
  | empty
  | consume (set : CharSet)
  | literal (char : Char)
  | check (assertion : Assertion)
  | concat (nodes : List Node)
  | alternation (nodes : List Node)
  | group (number : Nat) (node : Node)
  | look (direction : Direction) (negated : Bool) (node : Node)
  | repetition (node : Node) (least : Nat) (most : Option Nat) (greedy : Bool)
  | reference (number : Nat)
  | atomic (node : Node)
  | keepOut
  | searchStart
  | groupMatched (number : Nat)
  | conditional (condition whenTrue whenFalse : Node)
  deriving Repr, Inhabited

namespace Node

def isEmpty : Node → Bool
  | .empty => true
  | _ => false

/-- Whether a quantifier may follow: not after nothing, and not after what
consumes nothing by its form. -/
def isRepeatable : Node → Bool
  | .empty => false
  | .check _ => false
  | .look _ _ _ => false
  | _ => true

mutual

def groups : Node → List Nat
  | .concat nodes => groupsOf nodes
  | .alternation nodes => groupsOf nodes
  | .group number node => number :: groups node
  | .look _ _ node => groups node
  | .repetition node _ _ _ => groups node
  | .atomic node => groups node
  | .conditional condition whenTrue whenFalse =>
      groups condition ++ groups whenTrue ++ groups whenFalse
  | _ => []

def groupsOf : List Node → List Nat
  | [] => []
  | node :: nodes => groups node ++ groupsOf nodes

end

end Node

/-- What decides how an expression is matched: the fewest characters it can
match, whether that is the only number, and whether it needs more than an
automaton. -/
structure Measure where
  least : Nat
  fixed : Bool
  hard : Bool
  deriving Repr, DecidableEq, Inhabited

namespace Measure

def sequence (parts : List Measure) : Measure where
  least := parts.foldl (fun least part => least + part.least) 0
  fixed := parts.all Measure.fixed
  hard := parts.any Measure.hard

def choice : (alternatives : List Measure) → Measure
  | [] => { least := 0, fixed := true, hard := false }
  | first :: others =>
      { least := others.foldl (fun least other => min least other.least) first.least
        fixed := first.fixed &&
          others.all fun other => other.fixed && other.least == first.least
        hard := first.hard || others.any Measure.hard }

end Measure

namespace Node

mutual

def measure (referenced : List Nat) : Node → Measure
  | .empty => { least := 0, fixed := true, hard := false }
  | .consume _ => { least := 1, fixed := true, hard := false }
  | .literal _ => { least := 1, fixed := true, hard := false }
  | .check assertion => { least := 0, fixed := true, hard := assertion.concernsWords }
  | .concat nodes => Measure.sequence (measures referenced nodes)
  | .alternation nodes => Measure.choice (measures referenced nodes)
  | .group number node =>
      let inner := measure referenced node
      { inner with hard := inner.hard || referenced.contains number }
  | .look _ _ _ => { least := 0, fixed := true, hard := true }
  | .repetition node least most _ =>
      let inner := measure referenced node
      { least := inner.least * least
        fixed := inner.fixed && most == some least
        hard := inner.hard }
  | .reference _ => { least := 0, fixed := false, hard := true }
  | .atomic node => { measure referenced node with hard := true }
  | .keepOut => { least := 0, fixed := true, hard := true }
  | .searchStart => { least := 0, fixed := true, hard := true }
  | .groupMatched _ => { least := 0, fixed := true, hard := true }
  | .conditional condition whenTrue whenFalse =>
      let test := measure referenced condition
      let yes := measure referenced whenTrue
      let no := measure referenced whenFalse
      { least := test.least + min yes.least no.least
        fixed := test.fixed && yes.fixed && no.fixed && test.least + yes.least == no.least
        hard := true }

def measures (referenced : List Nat) : List Node → List Measure
  | [] => []
  | node :: nodes => measure referenced node :: measures referenced nodes

end

end Node
end Highlighter.Regex

import Highlighter.Regex.Automaton

/-!
# Programs for backtracking

What an automaton cannot match is matched by trying alternatives in turn.  The
program for it hands the parts that an automaton can match to automata: the
parts of a fixed length around what is hard, and whatever is easy in a place
that is left only once.
-/
namespace Highlighter.Regex

inductive Code where
  | nothing
  | consume (sets : List CharSet)
  | check (assertion : Assertion)
  | piece (automaton : Automaton) (groups : List Nat)
  | sequence (codes : List Code)
  | choice (codes : List Code)
  | group (number : Nat) (code : Code)
  | optional (greedy : Bool) (code : Code)
  | star (greedy : Bool) (code : Code)
  | plus (greedy : Bool) (code : Code)
  | guarded (register least : Nat) (greedy : Bool) (code : Code)
  | counted (least : Nat) (most : Option Nat) (greedy : Bool) (code : Code)
  | look (back : Nat) (code : Code)
  | denial (back : Nat) (code : Code)
  | reference (number : Nat)
  | groupMatched (number : Nat)
  | atomic (code : Code)
  | keepOut
  | searchStart
  | conditional (condition whenTrue whenFalse : Code)
  deriving Repr, Inhabited

namespace Node

mutual

def singles? : Node → Option (List CharSet)
  | .empty => some []
  | .consume set => some [set]
  | .literal char => some [.single char]
  | .concat nodes => singlesOf? nodes
  | _ => none

def singlesOf? : List Node → Option (List CharSet)
  | [] => some []
  | node :: nodes => do
      let first ← singles? node
      let others ← singlesOf? nodes
      return first ++ others

end

end Node

namespace Code

/-- The program that leaves nodes one after another to an automaton. -/
def ofEasy (nodes : List Node) : Except PatternError Code :=
  match nodes with
  | [] => .ok .nothing
  | _ =>
      match Node.singlesOf? nodes with
      | some sets => .ok (.consume sets)
      | none => do
          let automaton ← Automaton.ofNodes nodes
          return .piece automaton (Node.groupsOf nodes)

/-- How many parts of a sequence are left to an automaton at its beginning, and
how many come before those that are left to one at its end. -/
def division (following : Bool) (parts : List Measure) : Nat × Nat :=
  let easyAndFixed (part : Measure) : Bool := part.fixed && !part.hard
  let leading := (parts.takeWhile easyAndFixed).length
  let rest := (parts.drop leading).reverse
  let trailing :=
    if following then rest.takeWhile easyAndFixed
    else rest.takeWhile fun part => !part.hard
  (leading, parts.length - trailing.length)

/-- The number of characters that a look-behind goes back. -/
def distance (direction : Direction) (measure : Measure) : Except PatternError Nat :=
  match direction with
  | .ahead => .ok 0
  | .behind => if measure.fixed then .ok measure.least else .error .unfixedLookBehind

/-- One look-around for each alternative: one has to succeed, or all have to
be denied. -/
def lookAny (negated : Bool) (looks : List (Nat × Code)) : Code :=
  if negated then .sequence (looks.map fun look => .denial look.1 look.2)
  else .choice (looks.map fun look => .look look.1 look.2)

def repetition (register : Nat) (inner : Measure) (least : Nat) (most : Option Nat)
    (greedy : Bool) (body : Code) : Code :=
  match least, most with
  | 0, some 1 => .optional greedy body
  | _, none =>
      if inner.least = 0 then .guarded register least greedy body
      else
        match least with
        | 0 => .star greedy body
        | 1 => .plus greedy body
        | _ => .counted least none greedy body
  | _, some _ => .counted least most greedy body

/-- A program under construction: the state is the next free register. -/
abbrev Plan (α : Type) := StateT Nat (Except PatternError) α

def newRegister : Plan Nat := do
  let register ← get
  set (register + 1)
  return register

mutual

/-- The program for a node.  `following` tells that what follows may send the
search back into it. -/
def plan (referenced : List Nat) : (following : Bool) → Node → Plan Code
  | following, node => do
      let measure := node.measure referenced
      if !following && !measure.hard then
        ofEasy [node]
      else
        match node with
        | .empty => return .nothing
        | .consume set => return .consume [set]
        | .literal char => return .consume [.single char]
        | .check assertion => return .check assertion
        | .concat nodes =>
            let (leading, trailing) := division following (Node.measures referenced nodes)
            let first ← ofEasy (nodes.take leading)
            let middle ← planRange referenced leading trailing nodes
            let last ← ofEasy (nodes.drop trailing)
            return .sequence (first :: (middle ++ [last]))
        | .alternation nodes => return .choice (← planEach referenced following nodes)
        | .group number node => return .group number (← plan referenced following node)
        | .look direction negated node =>
            let inner := node.measure referenced
            if direction = .behind && !inner.fixed then
              return lookAny negated (← planLooks referenced direction node)
            else
              let back ← distance direction inner
              let code ← plan referenced false node
              return if negated then .denial back code else .look back code
        | .repetition node least most greedy =>
            let inner := node.measure referenced
            let register ← newRegister
            let simple := least = 0 && most = some 1
            let code ← plan referenced (following || (measure.hard && !simple)) node
            return repetition register inner least most greedy code
        | .reference number => return .reference number
        | .atomic node => return .atomic (← plan referenced false node)
        | .keepOut => return .keepOut
        | .searchStart => return .searchStart
        | .groupMatched number => return .groupMatched number
        | .conditional condition whenTrue whenFalse =>
            return .conditional (← plan referenced following condition)
              (← plan referenced following whenTrue) (← plan referenced following whenFalse)

def planEach (referenced : List Nat) : (following : Bool) → List Node → Plan (List Code)
  | _, [] => return []
  | following, node :: nodes => do
      let first ← plan referenced following node
      let others ← planEach referenced following nodes
      return first :: others

/-- The programs for the nodes from position `first` up to position `last`, all
of which something follows. -/
def planRange (referenced : List Nat) : (first last : Nat) → List Node → Plan (List Code)
  | _, _, [] => return []
  | first, last, node :: nodes =>
      if last = 0 then
        return []
      else if first = 0 then do
        let code ← plan referenced true node
        let others ← planRange referenced 0 (last - 1) nodes
        return code :: others
      else
        planRange referenced (first - 1) (last - 1) nodes

/-- The programs of a look-around whose alternatives differ in length, with the
way back for each. -/
def planLooks (referenced : List Nat) (direction : Direction) : Node → Plan (List (Nat × Code))
  | .alternation nodes => planLooksEach referenced direction nodes
  | _ => throw .unfixedLookBehind

def planLooksEach (referenced : List Nat) (direction : Direction) :
    List Node → Plan (List (Nat × Code))
  | [] => return []
  | node :: nodes => do
      let back ← distance direction (node.measure referenced)
      let code ← plan referenced false node
      let others ← planLooksEach referenced direction nodes
      return (back, code) :: others

end

/-- The program that finds the first match of an expression, whatever comes
before it. -/
def ofExpression (expression : Expression) : Except PatternError Code := do
  let (body, _) ←
    (plan expression.referenced true expression.node).run (2 * expression.groups + 2)
  return .sequence [.star false (.consume [.complement .empty]), .group 0 body]

end Code
end Highlighter.Regex

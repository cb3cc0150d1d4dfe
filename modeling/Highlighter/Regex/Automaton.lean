import Highlighter.Regex.Node.Reading
import Highlighter.Data.Word

/-!
# Automata

Expressions without references, look-around and the like are matched by an
automaton that reads every character once.  Its threads are kept in order of
preference: earlier alternatives first, and more repetitions before fewer
unless a repetition is reluctant.
-/
namespace Highlighter.Regex

/-- Where groups begin (even slots) and end (odd slots), newest entry first.
An entry without a place takes back an earlier one. -/
abbrev Slots := List (Nat × Option Place)

namespace Slots

def get? (slots : Slots) (slot : Nat) : Option Place :=
  (slots.find? fun entry => entry.1 == slot).bind Prod.snd

def span? (slots : Slots) (number : Nat) : Option Span := do
  let start ← slots.get? (2 * number)
  let stop ← slots.get? (2 * number + 1)
  return { start, stop }

end Slots

/-- A state of an automaton.  Unless it says otherwise the next state follows
in the list. -/
inductive State where
  | consume (set : CharSet)
  | check (assertion : Assertion)
  | save (slot : Nat)
  | fork (first second : Nat)
  | jump (target : Nat)
  | accept
  deriving Repr, DecidableEq, Inhabited

/-- Part of an automaton, given the number of its first state.  It is left by
the state behind its last one. -/
abbrev Fragment := Nat → List State

namespace Fragment

/-- Prefers going on, or leaving if not greedy. -/
def fork (greedy : Bool) (onward exit : Nat) : State :=
  if greedy then .fork onward exit else .fork exit onward

def followedBy (first second : Fragment) : Fragment := fun base =>
  let states := first base
  states ++ second (base + states.length)

def copies (body : Fragment) : Nat → Fragment
  | 0 => fun _ => []
  | count + 1 => followedBy body (copies body count)

/-- A fragment any number of times.  If it can match nothing, whether to enter
and whether to go on are decided by different states. -/
def star (greedy nullable : Bool) (body : Fragment) : Fragment := fun base =>
  let states := body (base + 1)
  let exit := base + 2 + states.length
  let last := if nullable then fork greedy (base + 1) exit else .jump base
  fork greedy (base + 1) exit :: (states ++ [last])

def plus (greedy : Bool) (body : Fragment) : Fragment := fun base =>
  let states := body base
  states ++ [fork greedy base (base + states.length + 1)]

/-- A fragment at most a number of times, each time depending on the one
before. -/
def atMost (greedy : Bool) (body : Fragment) : Nat → Fragment
  | 0 => fun _ => []
  | count + 1 => fun base =>
      let states := followedBy body (atMost greedy body count) (base + 1)
      fork greedy (base + 1) (base + 1 + states.length) :: states

def repetition (greedy nullable : Bool) (body : Fragment) :
    (least : Nat) → (most : Option Nat) → Fragment
  | 0, none => star greedy nullable body
  | least + 1, none => followedBy (copies body least) (plus greedy body)
  | least, some most => followedBy (copies body least) (atMost greedy body (most - least))

end Fragment

namespace Node

/-- The bounds of a repetition: what can only match nothing is repeated at most
once. -/
def effectiveBounds (inner : Measure) (least : Nat) (most : Option Nat) : Nat × Option Nat :=
  if inner.fixed && inner.least == 0 then (min least 1, some (min (most.getD 1) 1))
  else (least, most)

mutual

/-- The states that match a node.  A node that needs more than an automaton
matches nothing here. -/
def fragment : Node → Fragment
  | .empty, _ => []
  | .consume set, _ => [.consume set]
  | .literal char, _ => [.consume (.single char)]
  | .check assertion, _ => [.check assertion]
  | .concat nodes, base => sequenceFragment nodes base
  | .alternation nodes, base => choiceFragment nodes base
  | .group number node, base =>
      .save (2 * number) :: (fragment node (base + 1) ++ [.save (2 * number + 1)])
  | .repetition node least most greedy, base =>
      let inner := node.measure []
      let (least, most) := effectiveBounds inner least most
      Fragment.repetition greedy (inner.least == 0) (fragment node) least most base
  | _, _ => [.consume .empty]

def sequenceFragment : List Node → Fragment
  | [], _ => []
  | node :: nodes, base =>
      let states := fragment node base
      states ++ sequenceFragment nodes (base + states.length)

/-- The states that match one of several nodes, earlier ones preferred. -/
def choiceFragment : List Node → Fragment
  | [], _ => [.consume .empty]
  | node :: nodes, base =>
      match nodes with
      | [] => fragment node base
      | _ =>
          let first := fragment node (base + 1)
          let next := base + 2 + first.length
          let others := choiceFragment nodes next
          .fork (base + 1) next :: (first ++ .jump (next + others.length) :: others)

end

mutual

def hasValidBounds : Node → Bool
  | .concat nodes => haveValidBounds nodes
  | .alternation nodes => haveValidBounds nodes
  | .group _ node => hasValidBounds node
  | .repetition node least most _ =>
      least < Word.size 32 && most.all (fun most => least ≤ most && most < Word.size 32) &&
        hasValidBounds node
  | _ => true

def haveValidBounds : List Node → Bool
  | [] => true
  | node :: nodes => hasValidBounds node && haveValidBounds nodes

end

mutual

/-- An estimate of the bytes that the states for a node take. -/
def cost : Node → Nat
  | .consume set => 60 * set.weight
  | .literal char => 24 * char.utf8Size
  | .concat nodes => costOf nodes
  | .alternation nodes => costOf nodes + 24
  | .group _ node => cost node + 48
  | .repetition node least most _ =>
      let (least, most) := effectiveBounds (node.measure []) least most
      (cost node + 24) * (most.getD (max least 1))
  | _ => 24

def costOf : List Node → Nat
  | [] => 0
  | node :: nodes => cost node + costOf nodes

end

end Node

/-- An automaton, started in its first state. -/
structure Automaton where
  states : Array State
  deriving Repr, DecidableEq, Inhabited

namespace Automaton

def sizeLimit : Nat :=
  10 * 1024 * 1024

def ofNodes (nodes : List Node) : Except PatternError Automaton :=
  if !Node.haveValidBounds nodes then .error .invalidRepetition
  else if sizeLimit < Node.costOf nodes then .error .tooLarge
  else
    let body := Node.sequenceFragment nodes 1
    .ok { states := (.save 0 :: (body ++ [.save 1, .accept])).toArray }

/-- The greatest number of a group that an automaton notes. -/
def groups (automaton : Automaton) : Nat :=
  automaton.states.foldl
    (fun greatest state =>
      match state with
      | .save slot => max greatest (slot / 2)
      | _ => greatest)
    0

structure Thread where
  state : Nat
  slots : Slots
  deriving Repr, DecidableEq, Inhabited

structure Waiting where
  set : CharSet
  next : Nat
  slots : Slots
  deriving Repr, DecidableEq, Inhabited

/-- Follows threads to where they wait for a character, in order of preference.
A state is entered once.  A thread that accepts ends all less preferred ones. -/
def close (automaton : Automaton) (place : Place) :
    (fuel : Nat) → List Thread → (entered : Nat) → (newestFirst : List Waiting) →
    List Waiting × Option Slots
  | 0, _, _, newestFirst => (newestFirst.reverse, none)
  | _ + 1, [], _, newestFirst => (newestFirst.reverse, none)
  | fuel + 1, thread :: threads, entered, newestFirst =>
      if entered.testBit thread.state then
        close automaton place fuel threads entered newestFirst
      else
        let entered := entered ||| (1 <<< thread.state)
        match automaton.states[thread.state]? with
        | none => close automaton place fuel threads entered newestFirst
        | some (.consume set) =>
            close automaton place fuel threads entered
              ({ set, next := thread.state + 1, slots := thread.slots } :: newestFirst)
        | some (.check assertion) =>
            if assertion.holds place then
              close automaton place fuel ({ thread with state := thread.state + 1 } :: threads)
                entered newestFirst
            else
              close automaton place fuel threads entered newestFirst
        | some (.save slot) =>
            close automaton place fuel
              ({ state := thread.state + 1, slots := (slot, some place) :: thread.slots } ::
                threads)
              entered newestFirst
        | some (.fork first second) =>
            close automaton place fuel
              ({ thread with state := first } :: { thread with state := second } :: threads)
              entered newestFirst
        | some (.jump target) =>
            close automaton place fuel ({ thread with state := target } :: threads)
              entered newestFirst
        | some .accept => (newestFirst.reverse, some thread.slots)

def step (char : Char) (waiting : List Waiting) : List Thread :=
  waiting.filterMap fun thread =>
    if thread.set.contains char then some { state := thread.next, slots := thread.slots }
    else none

/-- Reads the characters behind a place.  Unless `anchored`, a match may begin
anywhere, and an earlier one is preferred. -/
def run (automaton : Automaton) (anchored : Bool) :
    (before after : List Char) → (offset : Nat) → List Thread → (best : Option Slots) →
    Option Slots
  | before, after, offset, threads, best =>
      let threads :=
        if anchored || best.isSome then threads
        else threads ++ [{ state := 0, slots := [] }]
      let fuel := threads.length + 2 * automaton.states.size + 1
      let (waiting, accepted) :=
        automaton.close { before, after, offset } fuel threads 0 []
      let best := accepted.or best
      match after with
      | [] => best
      | char :: rest =>
          let next := step char waiting
          if next.isEmpty && (anchored || best.isSome) then
            best
          else
            automaton.run anchored (char :: before) rest (offset + char.utf8Size) next best

def matchAt? (automaton : Automaton) (place : Place) : Option Slots :=
  automaton.run true place.before place.after place.offset [{ state := 0, slots := [] }] none

def search? (automaton : Automaton) (place : Place) : Option Slots :=
  automaton.run false place.before place.after place.offset [] none

end Automaton
end Highlighter.Regex

import Highlighter.Regex.Code

/-!
# Matching by backtracking

A machine works off a list of tasks.  Where there is a choice it takes one way
and keeps the other; when a task fails it goes back to the choice made last.
The number of times it goes back is limited.
-/
namespace Highlighter.Regex

inductive Task where
  | run (code : Code)
  | save (slot : Nat)
  | returnTo (place : Place)
  | commit
  | deny (depth : Nat)
  | star (greedy : Bool) (code : Code)
  | guarded (register least : Nat) (greedy : Bool) (code : Code) (count : Nat)
  | counted (least : Nat) (most : Option Nat) (greedy : Bool) (code : Code) (count : Nat)
  deriving Inhabited

/-- A way that was not taken. -/
structure Choice where
  tasks : List Task
  place : Place
  slots : Slots
  marks : List Nat
  deriving Inhabited

inductive SearchError where
  | backtrackLimit
  | stepLimit
  deriving Repr, DecidableEq, Inhabited

def SearchError.message : SearchError → String
  | .backtrackLimit => "Error executing regex: Max limit for backtracking count exceeded"
  | .stepLimit => "Error executing regex: Max limit for steps exceeded"

/-- The state of a search.  `depth` is the number of choices, and a mark is the
number of choices there were when it was made. -/
structure Machine where
  tasks : List Task
  place : Place
  slots : Slots
  marks : List Nat
  choices : List Choice
  depth : Nat
  backtracks : Nat
  deriving Inhabited

namespace Machine

def backtrackLimit : Nat :=
  1000000

def stepLimit : Nat :=
  1000000000000000

inductive Progress where
  | onward (machine : Machine)
  | matched (slots : Slots)
  | unmatched
  | exhausted (cause : SearchError)
  deriving Inhabited

def goOn (machine : Machine) (tasks : List Task) : Progress :=
  .onward { machine with tasks }

def goOnAt (machine : Machine) (tasks : List Task) (place : Place) : Progress :=
  .onward { machine with tasks, place }

def keep (machine : Machine) (tasks : List Task) : Machine :=
  let choice : Choice :=
    { tasks, place := machine.place, slots := machine.slots, marks := machine.marks }
  { machine with choices := choice :: machine.choices, depth := machine.depth + 1 }

def fork (machine : Machine) (taken kept : List Task) : Progress :=
  (machine.keep kept).goOn taken

def cut (machine : Machine) (depth : Nat) : Machine :=
  { machine with
    choices := machine.choices.drop (machine.depth - depth)
    depth := min machine.depth depth }

def note (machine : Machine) (slot : Nat) (place : Option Place) : Machine :=
  { machine with slots := (slot, place) :: machine.slots }

def fail (machine : Machine) : Progress :=
  match machine.choices with
  | [] => .unmatched
  | choice :: choices =>
      if backtrackLimit ≤ machine.backtracks then
        .exhausted .backtrackLimit
      else
        .onward
          { tasks := choice.tasks
            place := choice.place
            slots := choice.slots
            marks := choice.marks
            choices
            depth := machine.depth - 1
            backtracks := machine.backtracks + 1 }

def consume? : List CharSet → Place → Option Place
  | [], place => some place
  | set :: sets, place =>
      match place.next? with
      | some (char, next) => if set.contains char then consume? sets next else none
      | none => none

/-- Notes what an automaton has noted: its groups, also those that took no part. -/
def noteGroups (groups : List Nat) (found slots : Slots) : Slots :=
  groups.foldl
    (fun slots number =>
      (2 * number + 1, found.get? (2 * number + 1)) ::
        (2 * number, found.get? (2 * number)) :: slots)
    slots

/-- Begins to work off a program.  `origin` is where the search began, and
`continued` tells whether a match there may count as following the last one. -/
def start (origin : Nat) (continued : Bool) (machine : Machine) (code : Code)
    (tasks : List Task) : Progress :=
  match code with
  | .nothing => machine.goOn tasks
  | .consume sets =>
      match consume? sets machine.place with
      | some place => machine.goOnAt tasks place
      | none => machine.fail
  | .check assertion =>
      if assertion.holds machine.place then machine.goOn tasks else machine.fail
  | .piece automaton groups =>
      match automaton.matchAt? machine.place with
      | some found =>
          match found.get? 1 with
          | some place =>
              let slots := noteGroups groups found machine.slots
              .onward { machine with tasks, place, slots }
          | none => machine.fail
      | none => machine.fail
  | .sequence codes => machine.goOn (codes.foldr (fun code tasks => .run code :: tasks) tasks)
  | .choice [] => machine.fail
  | .choice [code] => machine.goOn (.run code :: tasks)
  | .choice (code :: codes) =>
      machine.fork (.run code :: tasks) (.run (.choice codes) :: tasks)
  | .group number code =>
      (machine.note (2 * number) machine.place).goOn
        (.run code :: .save (2 * number + 1) :: tasks)
  | .optional true code => machine.fork (.run code :: tasks) tasks
  | .optional false code => machine.fork tasks (.run code :: tasks)
  | .star greedy code => machine.goOn (.star greedy code :: tasks)
  | .plus greedy code => machine.goOn (.run code :: .star greedy code :: tasks)
  | .guarded register least greedy code =>
      machine.goOn (.guarded register least greedy code 0 :: tasks)
  | .counted least most greedy code =>
      machine.goOn (.counted least most greedy code 0 :: tasks)
  | .look back code =>
      match machine.place.back? back with
      | some place => machine.goOnAt (.run code :: .returnTo machine.place :: tasks) place
      | none => machine.fail
  | .denial back code =>
      let kept := machine.keep tasks
      match machine.place.back? back with
      | some place => kept.goOnAt (.run code :: .deny machine.depth :: tasks) place
      | none => kept.fail
  | .reference number =>
      match machine.slots.span? number with
      | some span =>
          match machine.place.pass? span.content with
          | some place => machine.goOnAt tasks place
          | none => machine.fail
      | none => machine.fail
  | .groupMatched number =>
      if (machine.slots.get? (2 * number)).isSome then machine.goOn tasks else machine.fail
  | .atomic code =>
      .onward
        { machine with
          tasks := .run code :: .commit :: tasks
          marks := machine.depth :: machine.marks }
  | .keepOut => (machine.note 0 machine.place).goOn tasks
  | .searchStart =>
      if continued && machine.place.offset ≤ origin then machine.goOn tasks else machine.fail
  | .conditional condition whenTrue whenFalse =>
      let marked := { machine with marks := machine.depth :: machine.marks }
      marked.fork (.run condition :: .commit :: .run whenTrue :: tasks)
        (.run whenFalse :: tasks)

/-- Decides whether a loop goes on.  `onward` runs its body once more and
`leaving` goes on behind it. -/
def loop (machine : Machine) (mayLeave greedy : Bool) (onward leaving : List Task) : Progress :=
  if !mayLeave then machine.goOn onward
  else if greedy then machine.fork onward leaving
  else machine.fork leaving onward

def step (origin : Nat) (continued : Bool) (machine : Machine) : Progress :=
  match machine.tasks with
  | [] => .matched machine.slots
  | .run code :: tasks => machine.start origin continued code tasks
  | .save slot :: tasks => (machine.note slot machine.place).goOn tasks
  | .returnTo place :: tasks => machine.goOnAt tasks place
  | .commit :: tasks =>
      match machine.marks with
      | [] => machine.goOn tasks
      | mark :: marks => ({ machine with marks }.cut mark).goOn tasks
  | .deny depth :: _ => (machine.cut depth).fail
  | .star greedy code :: tasks =>
      machine.loop true greedy (.run code :: .star greedy code :: tasks) tasks
  | .guarded register least greedy code count :: tasks =>
      let place := machine.place
      if 0 < count &&
          (machine.slots.get? register).any fun last => last.offset == place.offset then
        machine.fail
      else
        let onward := .run code :: .guarded register least greedy code (count + 1) :: tasks
        if least ≤ count then (machine.note register place).loop true greedy onward tasks
        else machine.goOn onward
  | .counted least most greedy code count :: tasks =>
      if most = some count then machine.goOn tasks
      else
        machine.loop (least ≤ count) greedy
          (.run code :: .counted least most greedy code (count + 1) :: tasks) tasks

def run (origin : Nat) (continued : Bool) :
    (fuel : Nat) → Machine → Except SearchError (Option Slots)
  | 0, _ => .error .stepLimit
  | fuel + 1, machine =>
      match machine.step origin continued with
      | .onward machine => run origin continued fuel machine
      | .matched slots => .ok (some slots)
      | .unmatched => .ok none
      | .exhausted cause => .error cause

def search (code : Code) (continued : Bool) (place : Place) :
    Except SearchError (Option Slots) :=
  run place.offset continued stepLimit
    { tasks := [.run code]
      place
      slots := []
      marks := []
      choices := []
      depth := 0
      backtracks := 0 }

end Machine
end Highlighter.Regex

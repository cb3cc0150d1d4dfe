import Highlighter.Run.Step

/-!
# Runs

Highlighting a text in one grammar: steps until no rule matches any more.
-/
namespace Highlighter.Run

def steps (setting : Setting) : (fuel : Nat) → RunState → Except Failure RunState
  | 0, _ => .error (.endless setting.name)
  | fuel + 1, state => do
      match ← step setting state with
      | .done state => return state
      | .more state => steps setting fuel state

/-- The number of steps after which a run counts as endless.  Steps that consume nothing
close modes, go on to modes that follow them or try further rules. -/
def stepLimit (setting : Setting) (size length bytes : Nat) : Nat :=
  2 * (size + length + 2) * (setting.grammar.modes.size + 2) *
    (setting.grammar.ruleCount + 2) + 3 * bytes + patience + 2

/-- Opens the scopes of modes, from the outside in. -/
def reopen (setting : Setting) : Scope.Builder → List Frame → Scope.Builder
  | builder, [] => builder
  | builder, frame :: frames =>
      match (setting.grammar.mode frame.mode).scope with
      | some scope => reopen setting (builder.openNode scope) frames
      | none => reopen setting builder frames

/-- The state before the first step: in the modes that an earlier text in the same
grammar left open, if any. -/
def initialState (setting : Setting) (earlier : Option Continuation) (text : List Char) :
    RunState :=
  let start : RunState := { place := some (Place.start text) }
  match earlier with
  | none => start
  | some continuation =>
      if continuation.grammar = setting.name then
        { start with
          stack := continuation.stack
          builder := reopen setting {} continuation.stack.toList.tail }
      else start

def remaining (state : RunState) : String :=
  match state.place with
  | none => ""
  | some place => String.ofList place.after

def highlight (setting : Setting) (earlier : Option Continuation) (text : String) :
    Except Failure Outcome := do
  let chars := text.toList
  let start := initialState setting earlier chars
  let limit := stepLimit setting start.stack.size chars.length text.utf8ByteSize
  let last ← steps setting limit start
  let final ← flush setting (last.wait (remaining last))
  return {
    tree := final.builder.finish
    relevance := final.relevance
    continuation := { grammar := setting.name, stack := final.stack } }

end Highlighter.Run

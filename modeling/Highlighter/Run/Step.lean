import Highlighter.Run.State

/-!
# Steps of a run

One step of a run searches for the next rule that matches and lets a mode begin or end,
or takes illegal text as it is.
-/
namespace Highlighter.Run

open Compiled (BoundaryScope CompiledMode)
open Grammar (Hook)

/-- How many steps a run may take before it is asked whether it gets on. -/
def patience : Nat :=
  100000

/-- Adds the parts of a match to the tree: those with scopes under them, the others as
text of the innermost mode. -/
def addParts (setting : Setting) (found : RuleMatch) :
    RunState → List (Nat × Option String) → Except Failure RunState
  | state, [] => .ok state
  | state, (number, scope) :: parts =>
      match found.groupText? number with
      | none => addParts setting found state parts
      | some content =>
          match scope with
          | some scope => addParts setting found (state.addScoped content scope) parts
          | none => do
              let state ← classify setting state content
              addParts setting found state parts

/-- Opens a mode.  If its beginning has scopes of its own, what is pending is the
beginning. -/
def openMode (setting : Setting) (state : RunState) (number : Nat) (found : RuleMatch)
    (capture : Option String) : Except Failure RunState := do
  let mode := setting.grammar.mode number
  let opened :=
    match mode.scope with
    | some scope => { state with builder := state.builder.openNode scope }
    | none => state
  let begun ←
    match mode.beginScope with
    | none => .ok opened
    | some (.whole scope) => .ok { opened.addScoped opened.pending scope with pending := "" }
    | some (.parts parts) => do
        let added ← addParts setting found opened parts
        .ok { added with pending := "" }
  return { begun with stack := begun.stack.push { mode := number, capture } }

def rejects (found : RuleMatch) : Hook → Bool
  | .ignoreIfPrecededByDot => found.span.start.before.head? = some '.'
  | .onlyAtInputStart => found.span.start.offset ≠ 0
  | .endSameAsBegin => false

def captureOf (mode : CompiledMode) (found : RuleMatch) : Option String :=
  if mode.hooks.contains .endSameAsBegin then found.groupText? 1 else none

/-- Goes on behind a beginning that was rejected: with the rules behind it, or behind
the next character if there are none. -/
def skipEnter (state : RunState) (found : RuleMatch) : RunState :=
  if state.cursor.position = 0 then state.passChar found.span.start
  else { state with resume := true, place := some found.span.start }

def beginPending (setting : Setting) (state : RunState) (mode : CompiledMode)
    (lexeme : String) : Except Failure RunState :=
  if mode.flags.skip then .ok (state.wait lexeme)
  else do
    let flushed ←
      flush setting (if mode.flags.excludeBegin then state.wait lexeme else state)
    pure
      (if mode.flags.returnBegin || mode.flags.excludeBegin then flushed
       else { flushed with pending := lexeme })

def enter (setting : Setting) (state : RunState) (number : Nat) (found : RuleMatch) :
    Except Failure RunState :=
  let mode := setting.grammar.mode number
  if mode.hooks.any (rejects found) then .ok (skipEnter state found)
  else do
    let state ← beginPending setting state mode found.lexeme
    let opened ← openMode setting state number found (captureOf mode found)
    let place := if mode.flags.returnBegin then found.span.start else found.span.stop
    return { opened with place := some place }

def endsAt (setting : Setting) (frame : Frame) (found : RuleMatch) : Except Failure Bool :=
  let mode := setting.grammar.mode frame.mode
  match mode.endRegex with
  | none => .ok false
  | some regex =>
      match regex.search found.span.start with
      | .error cause => .error (.search setting.name cause)
      | .ok none => .ok false
      | .ok (some ending) =>
          let here := ending.span.start.offset = found.span.start.offset
          let repeated :=
            !mode.hooks.contains .endSameAsBegin || frame.capture = found.groupText? 1
          .ok (here && repeated)

/-- How many modes are closed when a mode ends: that mode, the mode around it if it ends
that too, and so on, but never the last one. -/
def closedWith (setting : Setting) : Frame → (below : List Frame) → Nat
  | _, [] => 0
  | _, [_] => 1
  | frame, parent :: below =>
      if (setting.grammar.mode frame.mode).flags.endsParent then
        closedWith setting parent below + 1
      else 1

/-- How many modes a match closes.  The mode that ends is the innermost one or, if that
ends with its parent, one around it. -/
def closedBy? (setting : Setting) (found : RuleMatch) :
    Frame → (below : List Frame) → Except Failure (Option Nat)
  | _, [] => .ok none
  | frame, parent :: below => do
      if ← endsAt setting frame found then
        return some (closedWith setting frame (parent :: below))
      else if (setting.grammar.mode frame.mode).flags.endsWithParent then
        let closed ← closedBy? setting found parent below
        return closed.map (· + 1)
      else
        return none

def endPending (setting : Setting) (state : RunState) (mode : CompiledMode)
    (found : RuleMatch) : Except Failure RunState :=
  match mode.endScope with
  | some (.whole scope) => do
      let flushed ← flush setting state
      return flushed.addScoped found.lexeme scope
  | some (.parts parts) => do
      let flushed ← flush setting state
      addParts setting found flushed parts
  | none =>
      if mode.flags.skip then .ok (state.wait found.lexeme)
      else do
        let flushed ←
          flush setting
            (if mode.flags.returnEnd || mode.flags.excludeEnd then state
             else state.wait found.lexeme)
        pure
          (if mode.flags.excludeEnd then { flushed with pending := found.lexeme } else flushed)

def closeTop (setting : Setting) (state : RunState) : RunState :=
  let mode := setting.topMode state
  let closed :=
    if mode.scope.isSome then { state with builder := state.builder.closeNode } else state
  let scored :=
    if mode.flags.skip || mode.subLanguage.isSome then closed else closed.score mode.score
  { scored with stack := scored.stack.pop }

/-- Closes a number of modes.  Gives the number of the outermost of them too. -/
def closeModes (setting : Setting) : (count : Nat) → RunState → Nat × RunState
  | 0, state => (state.stack.top.mode, state)
  | 1, state => (state.stack.top.mode, closeTop setting state)
  | count + 2, state => closeModes setting (count + 1) (closeTop setting state)

def leave (setting : Setting) (state : RunState) (found : RuleMatch) :
    Except Failure (Option RunState) := do
  match ← closedBy? setting found state.stack.top state.stack.below with
  | none => return none
  | some count =>
      let mode := setting.topMode state
      let state ← endPending setting state mode found
      let (ended, state) := closeModes setting count state
      let state ←
        match (setting.grammar.mode ended).starts with
        | none => pure state
        | some next => openMode setting state next found none
      let place := if mode.flags.returnEnd then found.span.start else found.span.stop
      return some { state with place := some place }

/-- Takes a match that changes nothing as plain text, as long as the run gets on. -/
def keepText (setting : Setting) (state : RunState) (found : RuleMatch) :
    Except Failure RunState :=
  let offset := found.span.start.offset
  if patience < state.iterations && 3 * offset < state.iterations then
    .error (.loopDetected setting.name offset .noProgress)
  else
    .ok { state.wait found.lexeme with place := some found.span.stop }

/-- Whether a match would end a mode with nothing in it right where it began. -/
def endsNothing (state : RunState) (found : RuleMatch) : Bool :=
  state.lastMatch = some { enters := true, offset := found.span.start.offset } &&
    found.kind = .leave && found.span.isEmpty

def apply (setting : Setting) (state : RunState) (found : RuleMatch) :
    Except Failure RunState :=
  let start := found.span.start
  if endsNothing state found then
    if setting.safe then .ok (state.passChar start)
    else .error (.loopDetected setting.name start.offset .emptyMode)
  else
    let lastMatch : LastMatch := { enters := found.kind.isEnter, offset := start.offset }
    let state := { state with lastMatch := some lastMatch }
    match found.kind with
    | .enter number => enter setting state number found
    | .leave => do
        match ← leave setting state found with
        | some state => return state
        | none => keepText setting state found
    | .illegal =>
        if !setting.ignoreIllegals then
          .error (.illegalLexeme (.ofSpan found.span (setting.topMode state).scope))
        else if found.span.isEmpty then .ok (state.passChar start)
        else keepText setting state found

/-- What a step of a run comes to: another state, or the end of the run, where no rule
matches any more. -/
inductive Progress where
  | more (state : RunState)
  | done (state : RunState)

/-- One step: the next match of a rule of the innermost mode is applied.  There is no text
between a place and a match in front of it, so that a run cannot go on there. -/
def step (setting : Setting) (state : RunState) : Except Failure Progress :=
  match state.place with
  | none => .ok (.done state)
  | some place =>
      let cursor := if state.resume then state.cursor else {}
      match (setting.topMode state).matcher.next cursor place with
      | .error cause => .error (Failure.ofMatchFailure setting.name cause)
      | .ok (none, _) => .ok (.done state)
      | .ok (some found, cursor) =>
          if found.span.start.offset < place.offset then .error (.misplaced setting.name)
          else do
            let between := String.ofList (place.upTo found.span.start)
            let searched :=
              { state.wait between with
                cursor, resume := false, iterations := state.iterations + 1 }
            let next ← apply setting searched found
            return .more next

end Highlighter.Run

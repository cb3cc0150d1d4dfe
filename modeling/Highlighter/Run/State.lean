import Highlighter.Compiled.Grammar
import Highlighter.Compiled.Segment
import Highlighter.Run.Embedder

/-!
# The state of a run

A run goes through a text and keeps the modes that are open, the tree built so far and
the text that is pending.  Pending text is flushed into the tree where a mode begins or
ends: its keywords are labelled, or it is given to another grammar.
-/
namespace Highlighter

open Compiled (CompiledGrammar CompiledMode Segment)
open Grammar (SubLanguage)

/-- What stays the same during a run: the grammar with its name, whether illegal text
is taken as plain text, whether the run rather goes on than fails, and how embedded
text is highlighted. -/
structure Setting where
  name : String
  grammar : CompiledGrammar
  ignoreIllegals : Bool
  safe : Bool
  embedder : Embedder

/-- The last match that was looked at: whether it let a mode begin, and its offset. -/
structure LastMatch where
  enters : Bool
  offset : Nat
  deriving DecidableEq, Repr, Inhabited

/-- The state of a run.  `place` is none behind the end of the text.  `resume` tells
that the next search goes on with the rules behind the last one. -/
structure RunState where
  place : Option Place
  stack : Stack := .initial
  cursor : Cursor := {}
  resume : Bool := false
  builder : Scope.Builder := {}
  pending : String := ""
  relevance : Float := 0.0
  hits : Dictionary String Nat := .empty
  continuations : Dictionary String Continuation := .empty
  lastMatch : Option LastMatch := none
  iterations : Nat := 0

namespace Setting

def topMode (setting : Setting) (state : RunState) : CompiledMode :=
  setting.grammar.mode state.stack.top.mode

end Setting

namespace RunState

def wait (state : RunState) (content : String) : RunState :=
  { state with pending := state.pending ++ content }

/-- Takes the character at a place as plain text and goes on behind it. -/
def passChar (state : RunState) (place : Place) : RunState :=
  match place.next? with
  | none => { state with place := none }
  | some (char, next) => { state.wait (String.singleton char) with place := some next }

def addText (state : RunState) (content : String) : RunState :=
  { state with builder := state.builder.addText content }

def addScoped (state : RunState) (content scope : String) : RunState :=
  { state with builder := state.builder.addKeyword content scope }

def score (state : RunState) (relevance : Float) : RunState :=
  { state with relevance := state.relevance + relevance }

end RunState

namespace Run

def keywordLimit : Nat :=
  7

/-- Counts a keyword.  Its first occurrences add relevance. -/
def countKeyword (setting : Setting) (state : RunState) (word : String) (relevance : Float) :
    RunState :=
  let key := Compiled.KeywordTable.normalize setting.grammar.caseInsensitive word
  let count := (state.hits.get? key).getD 0 + 1
  let counted := { state with hits := state.hits.insert key count }
  if count ≤ keywordLimit then counted.score relevance else counted

def addSegment (setting : Setting) (state : RunState) : Segment → RunState
  | .plain content => state.addText content
  | .keyword word entry =>
      let counted := countKeyword setting state word entry.relevance
      match entry.scope with
      | some scope => counted.addScoped word scope
      | none => counted.addText word

/-- Adds text to the tree and labels the keywords of the innermost mode in it. -/
def classify (setting : Setting) (state : RunState) (content : String) :
    Except Failure RunState :=
  match (setting.topMode state).keywords with
  | none => .ok (state.addText content)
  | some table =>
      match Segment.ofText table content with
      | .error cause => .error (.search setting.name cause)
      | .ok segments => .ok (segments.foldl (addSegment setting) state)

/-- Attaches the tree of embedded text.  Its relevance counts if the mode says so. -/
def attach (setting : Setting) (state : RunState) (tree : Scope.Tree) (relevance : Float)
    (language : Option String) : RunState :=
  let scored :=
    if (setting.topMode state).countsEmbedded then state.score relevance else state
  { scored with builder := scored.builder.addTree tree language }

def embed (setting : Setting) (state : RunState) (content : String) :
    SubLanguage → Except Failure RunState
  | .one language => do
      let earlier := state.continuations.get? language
      match ← setting.embedder.highlight language setting.safe earlier content with
      | none => return state.addText content
      | some (name, outcome) =>
          let continuations := state.continuations.insert language outcome.continuation
          let state := { state with continuations }
          return attach setting state outcome.tree outcome.relevance (some name)
  | .candidates candidates => do
      let candidates := if candidates.isEmpty then none else some candidates
      let detected ← setting.embedder.detect candidates content
      return attach setting state detected.tree detected.relevance detected.language

def flush (setting : Setting) (state : RunState) : Except Failure RunState :=
  let flushed := { state with pending := "" }
  match (setting.topMode state).subLanguage with
  | none => classify setting flushed state.pending
  | some language =>
      if state.pending.isEmpty then .ok flushed
      else embed setting flushed state.pending language

end Run
end Highlighter

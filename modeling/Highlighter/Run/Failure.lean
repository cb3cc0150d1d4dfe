import Highlighter.Compiled.Matcher
import Highlighter.Text.Quoted

/-!
# Failures of highlighting
-/
namespace Highlighter

/-- An illegal piece of text: what it is, the scope of the mode that forbids it, its
offset, and the text around it. -/
structure IllegalLexeme where
  lexeme : String
  mode : String
  offset : Nat
  context : String
  deriving DecidableEq, Repr, Inhabited

namespace IllegalLexeme

/-- How many characters of the text around an illegal piece are kept on each side. -/
def contextLength : Nat :=
  100

def contextAt (place : Place) : String :=
  String.ofList
    ((place.before.take contextLength).reverse ++ place.after.take contextLength)

def unnamedMode : String :=
  "<unnamed>"

def ofSpan (span : Span) (scope : Option String) : IllegalLexeme where
  lexeme := String.ofList span.content
  mode := scope.getD unnamedMode
  offset := span.start.offset
  context := contextAt span.start

def message (illegal : IllegalLexeme) : String :=
  String.join
    [ "Illegal lexeme ", Text.quoted illegal.lexeme, " for mode \"", illegal.mode,
      "\" at offset ", CompileError.natural illegal.offset ]

end IllegalLexeme

/-- How highlighting can fail to get on: a mode begins and ends at the same place, or
rules keep matching and nothing is consumed. -/
inductive LoopCause where
  | emptyMode
  | noProgress
  deriving DecidableEq, Repr, Inhabited

def LoopCause.message : LoopCause → String
  | .emptyMode => "zero-width begin and end at the same offset"
  | .noProgress => "far more matcher iterations than input consumed"

/-- Why highlighting failed.  The last three stand for runs that come to no end of their own:
they break off at a match that lies in front of the place where it was searched for, or
their modes keep beginning, or their grammars keep embedding each other. -/
inductive Failure where
  | unknownGrammar (name : String)
  | compile (grammar : String) (cause : CompileError)
  | illegalLexeme (illegal : IllegalLexeme)
  | loopDetected (grammar : String) (offset : Nat) (cause : LoopCause)
  | search (grammar : String) (cause : Regex.SearchError)
  | misplaced (grammar : String)
  | endless (grammar : String)
  | endlessEmbedding
  deriving DecidableEq, Repr, Inhabited

namespace Failure

/-- Whether a failure stands for a run without an end of its own, which gives no answer at
all. -/
def isEndless : Failure → Bool
  | .misplaced _ | .endless _ | .endlessEmbedding => true
  | _ => false

def ofMatchFailure (grammar : String) : MatchFailure → Failure
  | .compile cause => .compile grammar cause
  | .search cause => .search grammar cause

def message : Failure → String
  | .unknownGrammar name => "unknown grammar `" ++ name ++ "`"
  | .compile grammar cause =>
      "failed to compile grammar `" ++ grammar ++ "`: " ++ cause.message
  | .illegalLexeme illegal => illegal.message
  | .loopDetected grammar offset cause =>
      String.join
        [ "loop detected in grammar `", grammar, "` at offset ",
          CompileError.natural offset, ": ", cause.message ]
  | .search grammar cause =>
      "regex failure in grammar `" ++ grammar ++ "`: " ++ cause.message
  | .misplaced grammar => "grammar `" ++ grammar ++ "` matches in front of its search"
  | .endless grammar => "grammar `" ++ grammar ++ "` never comes to an end"
  | .endlessEmbedding => "grammars embed each other without end"

end Failure
end Highlighter

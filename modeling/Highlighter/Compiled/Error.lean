import Highlighter.Decimal.Text
import Highlighter.Regex.Node.Reading

/-!
# Grammars that cannot be compiled
-/
namespace Highlighter

inductive PartScopeError where
  | incompatibleFlags
  | missingScopes
  | missingSequence
  deriving DecidableEq, Repr, Inhabited

inductive Boundary where
  | beginning
  | ending
  deriving DecidableEq, Repr, Inhabited

def Boundary.name : Boundary → String
  | .beginning => "begin"
  | .ending => "end"

inductive CompileError where
  | invalidPattern (source : String) (cause : Regex.PatternError)
  | groupMismatch (source : String) (expected found : Nat)
  | matchWithBeginEnd
  | beforeMatchWithStarts
  | selfAtTopLevel (grammar : String)
  | unknownModeReference (name : String)
  | partScopes (boundary : Boundary) (cause : PartScopeError)
  | nestingTooDeep (limit : Nat)
  deriving DecidableEq, Repr, Inhabited

def PartScopeError.message (boundary : Boundary) : PartScopeError → String
  | .incompatibleFlags =>
      "skip, exclude and return flags cannot be combined with a sequence `" ++
        boundary.name ++ "`"
  | .missingScopes => "a sequence `" ++ boundary.name ++ "` needs a group → scope map"
  | .missingSequence => "a group → scope map needs a sequence `" ++ boundary.name ++ "`"

namespace CompileError

def natural (number : Nat) : String :=
  String.ofList (Decimal.digitsOf number)

/-- How many groups there are and how many there should be. -/
def groupMessage (expected found : Nat) : String :=
  "expected " ++ natural expected ++ " capture groups, regex engine reports " ++ natural found

def message : CompileError → String
  | .invalidPattern source _ => "invalid pattern `" ++ source ++ "`: not a regular expression"
  | .groupMismatch source expected found =>
      "invalid pattern `" ++ source ++ "`: " ++ groupMessage expected found
  | .matchWithBeginEnd => "`match` cannot be combined with `begin` or `end`"
  | .beforeMatchWithStarts => "`before_match` cannot be combined with `starts`"
  | .selfAtTopLevel grammar =>
      "`self` is not allowed in the top-level `contains` of grammar `" ++ grammar ++ "`"
  | .unknownModeReference name => "unknown mode reference `" ++ name ++ "`"
  | .partScopes boundary cause => "invalid per-group scopes: " ++ cause.message boundary
  | .nestingTooDeep limit => "mode nesting exceeds " ++ natural limit ++ " levels"

end CompileError
end Highlighter

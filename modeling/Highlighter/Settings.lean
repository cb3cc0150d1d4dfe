/-!
# Settings

What can be set for all texts.
-/
namespace Highlighter

/-- The settings of an engine: what the classes in HTML begin with, whether it rather
falls back to plain text than fails, and the grammars it considers when it detects
languages, where none means all. -/
structure Settings where
  classPrefix : String := "hljs-"
  safeMode : Bool := true
  autodetectCandidates : List String := []
  deriving DecidableEq, Repr, Inhabited

end Highlighter

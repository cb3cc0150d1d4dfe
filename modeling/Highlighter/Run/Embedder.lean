import Highlighter.Run.Failure
import Highlighter.Run.Stack

/-!
# Text in other languages

Some modes hand their text to other grammars.  What happens there is known to a run
only through an embedder.
-/
namespace Highlighter

/-- What highlighting a text gives: its tree, how relevant its grammar is for it, and
the modes it leaves open. -/
structure Outcome where
  tree : Scope.Tree
  relevance : Float
  continuation : Continuation

structure Detected where
  tree : Scope.Tree
  relevance : Float
  language : Option String

/-- How embedded text is highlighted: in a given language, from where earlier text in
it stopped, or in the most likely of several candidates.  A language that is not known
gives nothing. -/
structure Embedder where
  highlight : (language : String) → (safe : Bool) → Option Continuation → (text : String) →
    Except Failure (Option (String × Outcome))
  detect : (candidates : Option (List String)) → (text : String) → Except Failure Detected

end Highlighter

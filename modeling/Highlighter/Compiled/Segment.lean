import Highlighter.Compiled.KeywordTable

/-!
# Keywords in a text

A text falls into keywords and what lies between them.
-/
namespace Highlighter.Compiled

inductive Segment where
  | plain (content : String)
  | keyword (word : String) (entry : KeywordEntry)
  deriving Repr, Inhabited

namespace Segment

def text : Segment → String
  | .plain content => content
  | .keyword word _ => word

/-- The pieces of what follows a place, given the words found there in turn. -/
def ofMatches (table : KeywordTable) :
    Place → List (Except Regex.SearchError Regex.Match) →
      Except Regex.SearchError (List Segment)
  | place, [] => .ok [.plain (String.ofList place.after)]
  | _, .error cause :: _ => .error cause
  | place, .ok found :: rest => do
      let segments ← ofMatches table found.span.stop rest
      let word := String.ofList found.span.content
      let segment :=
        match table.lookup? word with
        | some entry => Segment.keyword word entry
        | none => Segment.plain word
      return .plain (String.ofList (place.upTo found.span.start)) :: segment :: segments

def ofText (table : KeywordTable) (text : String) : Except Regex.SearchError (List Segment) :=
  ofMatches table (Place.start text.toList) (table.pattern.findAll true text.toList)

end Segment
end Highlighter.Compiled

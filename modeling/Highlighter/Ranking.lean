/-!
# Rankings

Results of several grammars for one text are ranked by relevance.  If two are equally
relevant and one grammar extends the other, the one that is extended comes first.
-/
namespace Highlighter.Ranking

variable {α ρ : Type}

/-- Inserts an item into a ranking whose last item stands first.  It moves forward past
items that it precedes, up to the first that it does not. -/
def insertBackward (precedes : α → α → Bool) (item : α) : List α → List α
  | [] => [item]
  | last :: earlier =>
      if precedes item last then last :: insertBackward precedes item earlier
      else item :: last :: earlier

def rank (precedes : α → α → Bool) (items : List α) : List α :=
  (items.foldl (fun ranked item => insertBackward precedes item ranked) []).reverse

/-- What counts in a ranking: the relevance, and the language if there is one. -/
structure Standing (ρ : Type) where
  relevance : ρ
  language : Option String

/-- Whether one result precedes another: by greater relevance, or else because the
grammar of the other extends its grammar, but not the other way round. -/
def precedes [BEq ρ] [LT ρ] [DecidableLT ρ] (extendsGrammar : String → String → Bool)
    (first second : Standing ρ) : Bool :=
  if first.relevance != second.relevance then decide (second.relevance < first.relevance)
  else
    match first.language, second.language with
    | some one, some other => !extendsGrammar one other && extendsGrammar other one
    | _, _ => false

end Highlighter.Ranking

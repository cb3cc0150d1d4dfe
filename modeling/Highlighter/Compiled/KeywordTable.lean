import Highlighter.Compiled.Error
import Highlighter.Decimal.Reading
import Highlighter.Grammar.Mode
import Highlighter.Regex
import Highlighter.Text.Words
import Highlighter.Unicode.LetterCase

/-!
# Keyword tables

Which words are keywords, under which scope and with how much relevance, and the
expression that finds candidates for them in a text.
-/
namespace Highlighter.Compiled

/-- What is known of a keyword.  Kinds that begin with an underscore have no
scope: they count, but are not labelled. -/
structure KeywordEntry where
  scope : Option String
  relevance : Float
  deriving Repr, Inhabited

structure KeywordTable where
  source : String
  pattern : Regex
  entries : Dictionary String KeywordEntry
  ignoreCase : Bool

namespace KeywordTable

/-- What finds words where nothing else is given. -/
def defaultSource : String :=
  "\\w+"

/-- Words that say nothing about the language of a text. -/
def structuralWords : List String :=
  ["of", "and", "for", "in", "not", "or", "if", "then", "parent", "list", "value"]

/-- The relevance of a word: what is given for it, if that is a number; else 0
for structural words and 1 for others. -/
def relevanceOf (word : String) (given : Option (List Char)) : Float :=
  match given.bind fun score => Decimal.read? (String.ofList (Text.trim score)) with
  | some relevance => relevance
  | none => if structuralWords.contains (Unicode.lowercase word) then 0.0 else 1.0

/-- A word and what stands behind the first bar in it. -/
def splitScore (word : String) : String × Option (List Char) :=
  let chars := word.toList
  match chars.dropWhile (· != '|') with
  | [] => (word, none)
  | _ :: score => (String.ofList (chars.takeWhile (· != '|')), some score)

def wordsOf : Grammar.WordList → List String
  | .spaced words => Text.words words
  | .words words => words

def scopeOf (aliases : Dictionary String String) (kind : String) : Option String :=
  if kind.toList.head? = some '_' then none else some ((aliases.get? kind).getD kind)

def normalize (ignoreCase : Bool) (word : String) : String :=
  if ignoreCase then Unicode.lowercase word else word

def entriesOf (ignoreCase : Bool) (aliases : Dictionary String String)
    (kind : String × Grammar.WordList) : List (String × KeywordEntry) :=
  (wordsOf kind.2).map fun raw =>
    let (word, score) := splitScore raw
    let word := normalize ignoreCase word
    (word, { scope := scopeOf aliases kind.1, relevance := relevanceOf word score })

/-- Compiles keywords.  If a word belongs to several kinds the last counts. -/
def compile (keywords : Grammar.Keywords) (ignoreCase : Bool)
    (aliases : Dictionary String String) : Except CompileError KeywordTable :=
  let source := keywords.pattern.getD defaultSource
  match Regex.compile source ignoreCase with
  | .error cause => .error (.invalidPattern source cause)
  | .ok pattern =>
      let entries := keywords.classes.entries.flatMap (entriesOf ignoreCase aliases)
      .ok { source, pattern, entries := .ofList entries, ignoreCase }

def lookup? (table : KeywordTable) (word : String) : Option KeywordEntry :=
  table.entries.get? (normalize table.ignoreCase word)

end KeywordTable
end Highlighter.Compiled

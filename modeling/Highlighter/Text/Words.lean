import Highlighter.Unicode.Property

/-!
Words and blanks: cutting a text where it has white space.
-/
namespace Highlighter.Text

/-- Reads words.  `word` holds the characters of the word so far, the last one
first. -/
def wordsFrom : (word : List Char) → List Char → List (List Char)
  | [], [] => []
  | word, [] => [word.reverse]
  | word, char :: rest =>
      if Unicode.isWhiteSpace char then
        if word.isEmpty then wordsFrom [] rest else word.reverse :: wordsFrom [] rest
      else
        wordsFrom (char :: word) rest

/-- The words of a text: its longest parts without white space. -/
def words (text : String) : List String :=
  (wordsFrom [] text.toList).map String.ofList

def trim (text : List Char) : List Char :=
  ((text.dropWhile Unicode.isWhiteSpace).reverse.dropWhile Unicode.isWhiteSpace).reverse

end Highlighter.Text

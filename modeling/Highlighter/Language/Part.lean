import Highlighter.Grammar.Definition
import Highlighter.Pattern.Source

/-!
# Parts of grammars

Modes and pattern sources that many languages share.
-/
namespace Highlighter.Language

open Grammar (Child Hook Keywords Mode PatternSpec ScopeSpec)

def source (text : String) : Option PatternSpec :=
  some (.source text)

def scope (name : String) : Option ScopeSpec :=
  some (.name name)

def inlined (modes : List Mode) : Option (List (Child Mode)) :=
  some (modes.map .inline)

def identifier : String :=
  "[a-zA-Z]\\w*"

def underscoreIdentifier : String :=
  "[a-zA-Z_]\\w*"

def backslashEscape : Mode where
  beginPattern := source "\\\\[\\s\\S]"
  relevance := some 0.0

def aposString : Mode where
  scope := scope "string"
  beginPattern := source "'"
  endPattern := source "'"
  illegal := source "\\n"
  contains := inlined [backslashEscape]
  relevance := some 1.0

def quoteString : Mode where
  scope := scope "string"
  beginPattern := source "\""
  endPattern := source "\""
  illegal := source "\\n"
  contains := inlined [backslashEscape]
  relevance := some 1.0

def number : Mode where
  scope := scope "number"
  beginPattern := source "\\b\\d+(\\.\\d+)?"
  relevance := some 0.0

/-- A decimal or hexadecimal number with an optional minus sign and exponent. -/
def cNumber : Mode where
  scope := scope "number"
  beginPattern := source
    "(-?)(\\b0[xX][a-fA-F0-9]+|(\\b\\d+(\\.\\d*)?|\\.\\d+)([eE][-+]?\\d+)?)"
  relevance := some 0.0

def binaryNumber : Mode where
  scope := scope "number"
  beginPattern := source "\\b(0b[01]+)"
  relevance := some 0.0

/-- The words that mark what is left to do in a comment. -/
def doctagSource : String :=
  "(TODO|FIXME|NOTE|BUG|OPTIMIZE|HACK|XXX):"

def proseWordSource : String :=
  Pattern.either
    [ "I", "a", "is", "so", "us", "to", "at", "if", "in", "it", "on",
      "[A-Za-z]+['](d|ve|re|ll|t|s|n)",
      "[A-Za-z]+[-][a-z]+",
      "[A-Za-z][a-z]\x7b2,\x7d" ]

def doctag : Mode where
  scope := scope "doctag"
  beginPattern := source ("[ ]*" ++ Pattern.lookahead doctagSource)
  endPattern := source doctagSource
  excludeBegin := some true
  relevance := some 0.0

/-- Three words of prose in a row, which make a comment more relevant. -/
def prose : Mode where
  beginPattern := source
    (Pattern.concat ["[ ]+(", proseWordSource, "[.]?[:]?([.][ ]|[ ]))\x7b3\x7d"])
  relevance := some 1.0

/-- A comment with changes.  What the changes contain comes before what every
comment contains. -/
def commentWith (beginSource endSource : String) (changes : Mode) : Mode :=
  let base : Mode :=
    { scope := scope "comment"
      beginPattern := source beginSource
      endPattern := source endSource
      relevance := some 1.0 }
  let changed := base.inherit changes
  { changed with
    contains := some (changed.contains.getD [] ++ [.inline doctag, .inline prose]) }

def comment (beginSource endSource : String) : Mode :=
  commentWith beginSource endSource {}

def cLineComment : Mode :=
  comment "//" "$"

def cBlockComment : Mode :=
  comment "/\\*" "\\*/"

def hashComment : Mode :=
  comment "#" "$"

def title : Mode where
  scope := scope "title"
  beginPattern := source identifier
  relevance := some 0.0

/-- A name that is introduced and may begin with an underscore. -/
def underscoreTitle : Mode where
  scope := scope "title"
  beginPattern := source underscoreIdentifier
  relevance := some 0.0

/-- A name behind a point, which is thus no keyword. -/
def methodGuard : Mode where
  beginPattern := source ("\\.\\s*" ++ underscoreIdentifier)
  relevance := some 0.0

def shebangSource : String :=
  "^#![ ]*/"

/-- A first line that names an interpreter, perhaps a given one. -/
def shebang (binary : Option String) : Mode where
  scope := scope "meta"
  beginPattern := source
    (match binary with
    | none => shebangSource
    | some binary => Pattern.concat [shebangSource, ".*\\b", binary, "\\b.*"])
  endPattern := source "$"
  relevance := some 0.0
  hooks := some [.onlyAtInputStart]

def endSameAsBegin (mode : Mode) : Mode :=
  mode.withHook .endSameAsBegin

def regexp : Mode where
  scope := scope "regexp"
  beginPattern := source "/(?=[^/\\n]*/)"
  endPattern := source "/[gimuy]*"
  relevance := some 1.0
  contains := inlined
    [ backslashEscape,
      { beginPattern := source "\\["
        endPattern := source "\\]"
        relevance := some 0.0
        contains := inlined [backslashEscape] } ]

def dataNumber : Mode where
  scope := scope "number"
  matchPattern := source
    ("([-+]?)(\\b0[xX][a-fA-F0-9]+|(\\b\\d+(\\.\\d*)?|\\.\\d+)([eE][-+]?\\d+)?)" ++
      "|NaN|[-+]?Infinity")
  relevance := some 0.0

end Highlighter.Language

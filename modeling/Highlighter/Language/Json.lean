import Highlighter.Language.Part

/-!
# JSON

JSON, with the comments and quotes that its relatives allow.
-/
namespace Highlighter.Language.Json

open Grammar (Definition Keywords Mode)

def literals : List String :=
  ["true", "false", "null"]

def key : Mode where
  scope := scope "attr"
  beginPattern := source
    "((\"(\\\\.|[^\\\\\"\\r\\n])*\")|('(\\\\.|[^\\\\'\\r\\n])*'))(?=\\s*:)"
  relevance := some 1.01

def definition : Definition where
  name := "JSON"
  aliases := ["jsonc", "json5"]
  root :=
    { keywords := some (({} : Keywords).withKind "literal" (.words literals))
      illegal := source "\\S"
      contains := inlined
        [ key,
          { scope := scope "punctuation"
            matchPattern := source "[\x7b\x7d\\[\\],:]"
            relevance := some 0.0 },
          aposString,
          quoteString,
          { scope := scope "literal"
            beginKeywords := some (Pattern.joinWith " " literals) },
          dataNumber,
          cLineComment,
          cBlockComment ] }

end Highlighter.Language.Json

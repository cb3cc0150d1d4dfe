import Highlighter.Scope.Tree
import Highlighter.Text.Split

/-!
Scope trees as HTML: a scope is a `span` with a class, text is escaped.
-/
namespace Highlighter.Scope.Html

def escapeChar : Char → List Char
  | '&' => "&amp;".toList
  | '<' => "&lt;".toList
  | '>' => "&gt;".toList
  | '"' => "&quot;".toList
  | '\'' => "&#x27;".toList
  | char => [char]

/-- Text in which no character can begin or end a tag. -/
def escape (content : String) : String :=
  String.ofList (content.toList.flatMap escapeChar)

def laterClasses : (depth : Nat) → (parts : List (List Char)) → List Char
  | _, [] => []
  | depth, part :: parts =>
      ' ' :: part ++ List.replicate depth '_' ++ laterClasses (depth + 1) parts

/-- The class list of a scope.  The label of an embedded language does not take
the class prefix. -/
def classList (scope classPrefix : String) : String :=
  match Text.after? "language:".toList scope.toList with
  | some name => "language-" ++ String.ofList name
  | none =>
      match Text.splitOn '.' scope.toList with
      | [] => classPrefix
      | first :: parts => classPrefix ++ String.ofList (first ++ laterClasses 1 parts)

def openTag (classPrefix scope : String) : String :=
  "<span class=\"" ++ classList scope classPrefix ++ "\">"

def closeTag : String :=
  "</span>"

/-- `inner` between the tags of a scope, or alone where there is none. -/
def wrap (classPrefix : String) (scope : Option String) (inner : String) : String :=
  match scope with
  | none => inner
  | some scope => openTag classPrefix scope ++ inner ++ closeTag

mutual

def ofPiece (classPrefix : String) : Piece → String
  | .text content => escape content
  | .group scope pieces => wrap classPrefix scope (ofPieces classPrefix pieces)

def ofPieces (classPrefix : String) : List Piece → String
  | [] => ""
  | piece :: rest => ofPiece classPrefix piece ++ ofPieces classPrefix rest

end

def render (classPrefix : String) (tree : Tree) : String :=
  ofPiece classPrefix tree.toPiece

end Highlighter.Scope.Html

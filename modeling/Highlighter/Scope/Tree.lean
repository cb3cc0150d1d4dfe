/-!
Scope trees: highlighted text as nested, labelled pieces.  The root of a tree
has a label only when the tree was embedded under the name of its language.
-/
namespace Highlighter.Scope

/-- A stretch of highlighted text, or pieces held together, under a scope label
if there is one. -/
inductive Piece where
  | text (content : String)
  | group (scope : Option String) (pieces : List Piece)
  deriving Repr, Inhabited

structure Tree where
  scope : Option String := none
  pieces : List Piece := []
  deriving Repr, Inhabited

mutual

def Piece.content : Piece → String
  | .text content => content
  | .group _ pieces => contents pieces

def contents : List Piece → String
  | [] => ""
  | piece :: rest => piece.content ++ contents rest

end

mutual

def Piece.same : Piece → Piece → Bool
  | .text left, .text right => left == right
  | .group leftScope leftPieces, .group rightScope rightPieces =>
      leftScope == rightScope && samePieces leftPieces rightPieces
  | _, _ => false

def samePieces : List Piece → List Piece → Bool
  | [], [] => true
  | left :: lefts, right :: rights => left.same right && samePieces lefts rights
  | _, _ => false

end

namespace Tree

def text (tree : Tree) : String :=
  contents tree.pieces

def plain (content : String) : Tree :=
  { pieces := if content.isEmpty then [] else [.text content] }

def toPiece (tree : Tree) : Piece :=
  .group tree.scope tree.pieces

end Tree
end Highlighter.Scope

import Highlighter.Scope.Tree

/-!
Scope trees as a flat list of tokens, each with the scopes around it.
-/
namespace Highlighter.Scope

/-- Text with the scopes around it, outermost first. -/
structure Token where
  scopes : List String
  text : String
  deriving Repr, DecidableEq, Inhabited

namespace Token

mutual

def leaves (around : List String) : Piece → List Token
  | .text content => [{ scopes := around, text := content }]
  | .group none pieces => leavesOf around pieces
  | .group (some scope) pieces => leavesOf (around ++ [scope]) pieces

def leavesOf (around : List String) : List Piece → List Token
  | [] => []
  | piece :: rest => leaves around piece ++ leavesOf around rest

end

/-- Joins each token with the tokens after it that have the same scopes. -/
def merge : List Token → List Token
  | [] => []
  | token :: rest =>
      match merge rest with
      | [] => [token]
      | next :: others =>
          if token.scopes = next.scopes then
            { token with text := token.text ++ next.text } :: others
          else
            token :: next :: others

/-- The tokens of a tree: no two neighbours have the same scopes. -/
def ofTree (tree : Tree) : List Token :=
  merge (leaves [] tree.toPiece)

end Token
end Highlighter.Scope

import Highlighter.Data.Value
import Highlighter.Scope.Token

/-!
# Trees and tokens as data
-/
namespace Highlighter.Scope

open Data (Value)

mutual

/-- A piece as data: text, or a record of its scope and its pieces. -/
def Piece.encode : Piece → Value
  | .text content => .text content
  | .group none pieces => .object [("children", .list (encodeAll pieces))]
  | .group (some scope) pieces =>
      .object [("scope", .text scope), ("children", .list (encodeAll pieces))]

def encodeAll : List Piece → List Value
  | [] => []
  | piece :: pieces => piece.encode :: encodeAll pieces

end

def Tree.encode (tree : Tree) : Value :=
  tree.toPiece.encode

def Token.encode (token : Token) : Value :=
  .object [("scopes", .list (token.scopes.map .text)), ("text", .text token.text)]

end Highlighter.Scope

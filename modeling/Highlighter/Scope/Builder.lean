import Highlighter.Scope.Tree

/-!
Building a scope tree from events.  Text joins the text before it and empty
text leaves no trace, so the tree does not depend on how its text arrived.
-/
namespace Highlighter.Scope

/-- A node that still takes pieces.  The piece that came last stands first. -/
structure OpenNode where
  scope : Option String := none
  newestFirst : List Piece := []
  deriving Repr, Inhabited

namespace OpenNode

def pieces (node : OpenNode) : List Piece :=
  node.newestFirst.reverse

def close (node : OpenNode) : Piece :=
  .group node.scope node.pieces

def push (node : OpenNode) (piece : Piece) : OpenNode :=
  { node with newestFirst := piece :: node.newestFirst }

/-- Adds text, to the last piece if that is text. -/
def pushText (node : OpenNode) (content : String) : OpenNode :=
  if content.isEmpty then node
  else
    match node.newestFirst with
    | .text last :: earlier =>
        { node with newestFirst := .text (last ++ content) :: earlier }
    | earlier => { node with newestFirst := .text content :: earlier }

end OpenNode

/-- A tree under construction: the innermost open node and the nodes around
it, from the inside out.  The outermost of them is the root. -/
structure Builder where
  innermost : OpenNode := {}
  enclosing : List OpenNode := []
  deriving Repr, Inhabited

namespace Builder

def depth (builder : Builder) : Nat :=
  builder.enclosing.length

def openNode (builder : Builder) (scope : String) : Builder :=
  { innermost := { scope := some scope }
    enclosing := builder.innermost :: builder.enclosing }

def closeNode (builder : Builder) : Builder :=
  match builder.enclosing with
  | [] => builder
  | parent :: outer =>
      { innermost := parent.push builder.innermost.close, enclosing := outer }

def addText (builder : Builder) (content : String) : Builder :=
  { builder with innermost := builder.innermost.pushText content }

/-- Adds text under a scope of its own, and nothing if the text is empty. -/
def addKeyword (builder : Builder) (content scope : String) : Builder :=
  if content.isEmpty then builder
  else ((builder.openNode scope).addText content).closeNode

def languageLabel (name : String) : String :=
  "language:" ++ name

/-- Attaches another tree, labelled with its language when that is known. -/
def addTree (builder : Builder) (tree : Tree) (language : Option String) : Builder :=
  let scope := (language.map languageLabel).or tree.scope
  { builder with innermost := builder.innermost.push (.group scope tree.pieces) }

def rootOf : (node : OpenNode) → (enclosing : List OpenNode) → OpenNode
  | node, [] => node
  | node, parent :: outer => rootOf (parent.push node.close) outer

def closeAll (builder : Builder) : Builder :=
  { innermost := rootOf builder.innermost builder.enclosing }

def finish (builder : Builder) : Tree :=
  let root := rootOf builder.innermost builder.enclosing
  { scope := root.scope, pieces := root.pieces }

end Builder
end Highlighter.Scope

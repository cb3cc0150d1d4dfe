import Highlighter.Scope.Builder

/-!
# What a tree under construction holds

A tree under construction is seen from two sides: by the scopes of the nodes that are
still open, and by the text that has been added so far.  Every event changes each of
them in one way only.
-/
namespace Highlighter.Scope

/-! ## The text of pieces -/

@[simp]
theorem contents_append (first second : List Piece) :
    contents (first ++ second) = contents first ++ contents second := by
  induction first with
  | nil => simp [contents]
  | cons piece pieces ih =>
    simp only [List.cons_append, contents, ih, String.append_assoc]

theorem contents_singleton (piece : Piece) : contents [piece] = piece.content := by
  simp [contents]

@[simp]
theorem Tree.text_plain (content : String) : (Tree.plain content).text = content := by
  by_cases empty : content = ""
  · simp [Tree.text, Tree.plain, contents, empty]
  · simp [Tree.text, Tree.plain, contents, Piece.content, empty]

namespace OpenNode

def text (node : OpenNode) : String :=
  contents node.pieces

@[simp]
theorem text_push (node : OpenNode) (piece : Piece) :
    (node.push piece).text = node.text ++ piece.content := by
  simp [text, push, pieces, contents_singleton]

@[simp]
theorem content_close (node : OpenNode) : node.close.content = node.text := by
  simp [close, Piece.content, text]

@[simp]
theorem text_pushText (node : OpenNode) (content : String) :
    (node.pushText content).text = node.text ++ content := by
  by_cases empty : content = ""
  · simp [pushText, empty]
  · have nonempty : content.isEmpty = false := by simpa using empty
    simp only [pushText, nonempty, Bool.false_eq_true, ↓reduceIte]
    split
    · rename_i last earlier pieces_eq
      simp [text, pieces, pieces_eq, contents_singleton, Piece.content, String.append_assoc]
    · simp [text, pieces, contents_singleton, Piece.content]

@[simp]
theorem scope_pushText (node : OpenNode) (content : String) :
    (node.pushText content).scope = node.scope := by
  unfold pushText
  split
  · rfl
  · split <;> rfl

end OpenNode

namespace Builder

/-! ## The scopes of open nodes -/

/-- The scopes of the open nodes inside the root, from the outside in. -/
def openScopes (builder : Builder) : List (Option String) :=
  ((builder.innermost :: builder.enclosing).map OpenNode.scope).dropLast.reverse

@[simp]
theorem openScopes_empty : openScopes {} = [] :=
  rfl

@[simp]
theorem openScopes_openNode (builder : Builder) (scope : String) :
    (builder.openNode scope).openScopes = builder.openScopes ++ [some scope] := by
  simp [openScopes, openNode]

/-- Closing a node forgets its scope.  At the root there is nothing to close. -/
@[simp]
theorem openScopes_closeNode (builder : Builder) :
    builder.closeNode.openScopes = builder.openScopes.dropLast := by
  obtain ⟨innermost, enclosing⟩ := builder
  cases enclosing with
  | nil => rfl
  | cons parent outer => simp [openScopes, closeNode, OpenNode.push]

@[simp]
theorem openScopes_addText (builder : Builder) (content : String) :
    (builder.addText content).openScopes = builder.openScopes := by
  simp [openScopes, addText]

@[simp]
theorem openScopes_addKeyword (builder : Builder) (content scope : String) :
    (builder.addKeyword content scope).openScopes = builder.openScopes := by
  unfold addKeyword
  split
  · rfl
  · simp

@[simp]
theorem openScopes_addTree (builder : Builder) (tree : Tree) (language : Option String) :
    (builder.addTree tree language).openScopes = builder.openScopes := by
  simp [openScopes, addTree, OpenNode.push]

theorem depth_eq_length (builder : Builder) : builder.depth = builder.openScopes.length := by
  simp [depth, openScopes]

/-! ## The text so far -/

def textAround : List OpenNode → String
  | [] => ""
  | parent :: outer => textAround outer ++ parent.text

def text (builder : Builder) : String :=
  textAround builder.enclosing ++ builder.innermost.text

theorem text_rootOf (node : OpenNode) (enclosing : List OpenNode) :
    (rootOf node enclosing).text = textAround enclosing ++ node.text := by
  induction enclosing generalizing node with
  | nil => simp [rootOf, textAround]
  | cons parent outer ih =>
    simp [rootOf, textAround, ih, String.append_assoc]

@[simp]
theorem text_finish (builder : Builder) : builder.finish.text = builder.text :=
  text_rootOf builder.innermost builder.enclosing

@[simp]
theorem text_empty : text {} = "" :=
  rfl

@[simp]
theorem text_openNode (builder : Builder) (scope : String) :
    (builder.openNode scope).text = builder.text := by
  simp [text, openNode, textAround, OpenNode.text, OpenNode.pieces, contents]

@[simp]
theorem text_closeNode (builder : Builder) : builder.closeNode.text = builder.text := by
  obtain ⟨innermost, enclosing⟩ := builder
  cases enclosing with
  | nil => rfl
  | cons parent outer => simp [text, closeNode, textAround, String.append_assoc]

@[simp]
theorem text_addText (builder : Builder) (content : String) :
    (builder.addText content).text = builder.text ++ content := by
  simp [text, addText, String.append_assoc]

@[simp]
theorem text_addKeyword (builder : Builder) (content scope : String) :
    (builder.addKeyword content scope).text = builder.text ++ content := by
  by_cases empty : content = ""
  · simp [addKeyword, empty]
  · simp [addKeyword, empty]

@[simp]
theorem text_addTree (builder : Builder) (tree : Tree) (language : Option String) :
    (builder.addTree tree language).text = builder.text ++ tree.text := by
  simp [text, addTree, Piece.content, Tree.text, String.append_assoc]

end Builder
end Highlighter.Scope

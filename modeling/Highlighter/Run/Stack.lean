import Highlighter.Scope.Builder

/-!
# Open modes

The modes that are open at a place of a text form a stack.  The mode of the whole text
lies at its bottom and is never closed.
-/
namespace Highlighter

/-- An open mode: its number, and what the first group of its beginning matched if its
end has to repeat that. -/
structure Frame where
  mode : Nat
  capture : Option String := none
  deriving DecidableEq, Repr, Inhabited

/-- The open modes: the innermost one and those around it, from the inside out. -/
structure Stack where
  top : Frame
  below : List Frame
  deriving DecidableEq, Repr, Inhabited

namespace Stack

def rootMode : Nat :=
  0

def initial : Stack where
  top := { mode := rootMode }
  below := []

def push (stack : Stack) (frame : Frame) : Stack where
  top := frame
  below := stack.top :: stack.below

/-- Closes the innermost mode, unless it is the mode of the whole text. -/
def pop (stack : Stack) : Stack :=
  match stack.below with
  | [] => stack
  | frame :: below => { top := frame, below }

def toList (stack : Stack) : List Frame :=
  (stack.top :: stack.below).reverse

def size (stack : Stack) : Nat :=
  stack.below.length + 1

end Stack

/-- The modes that a text left open.  Another text in the same grammar can go on in
them. -/
structure Continuation where
  grammar : String
  stack : Stack
  deriving DecidableEq, Repr, Inhabited

end Highlighter

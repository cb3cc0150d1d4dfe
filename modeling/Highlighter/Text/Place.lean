/-!
# Places in a text

A place lies between two characters of a text, or at one of its ends.  It knows
what precedes it and what follows it, and how many bytes of UTF-8 precede it.
-/
namespace Highlighter

/-- A place in a text: the characters before it, nearest first, those after
it, and the number of bytes before it. -/
structure Place where
  before : List Char
  after : List Char
  offset : Nat
  deriving Repr, DecidableEq, Inhabited

namespace Place

def start (text : List Char) : Place :=
  { before := [], after := text, offset := 0 }

def next? (place : Place) : Option (Char × Place) :=
  match place.after with
  | [] => none
  | char :: after =>
      some (char,
        { before := char :: place.before, after, offset := place.offset + char.utf8Size })

def previous? (place : Place) : Option (Char × Place) :=
  match place.before with
  | [] => none
  | char :: before =>
      some (char,
        { before, after := char :: place.after, offset := place.offset - char.utf8Size })

def back? : (count : Nat) → Place → Option Place
  | 0, place => some place
  | count + 1, place => place.previous?.bind fun step => back? count step.2

/-- The place reached by passing the given characters, if they come next. -/
def pass? : (expected : List Char) → Place → Option Place
  | [], place => some place
  | char :: expected, place =>
      place.next?.bind fun step => if step.1 = char then pass? expected step.2 else none

def reach (offset : Nat) : (before after : List Char) → (current : Nat) → Place
  | before, [], current => { before, after := [], offset := current }
  | before, char :: after, current =>
      if offset ≤ current then
        { before, after := char :: after, offset := current }
      else
        reach offset (char :: before) after (current + char.utf8Size)

def forwardTo (place : Place) (offset : Nat) : Place :=
  reach offset place.before place.after place.offset

def at? (text : List Char) (offset : Nat) : Option Place :=
  let place := (start text).forwardTo offset
  if place.offset = offset then some place else none

/-- The leading characters that make up a number of bytes. -/
def takeBytes : (count : Nat) → List Char → List Char
  | _, [] => []
  | 0, _ => []
  | count + 1, char :: rest => char :: takeBytes (count + 1 - char.utf8Size) rest

def upTo (first last : Place) : List Char :=
  takeBytes (last.offset - first.offset) first.after

end Place

structure Span where
  start : Place
  stop : Place
  deriving Repr, DecidableEq, Inhabited

namespace Span

def content (span : Span) : List Char :=
  span.start.upTo span.stop

def isEmpty (span : Span) : Bool :=
  span.start.offset == span.stop.offset

end Span
end Highlighter

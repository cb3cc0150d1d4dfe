/-!
# Positions in YAML

Where reading a document has got to, and what kinds of characters it meets there.
-/
namespace Highlighter.Data.Yaml

inductive ReadError where
  | controlCharacter
  | unexpectedCharacter
  | unexpectedToken
  | invalidDirective
  | invalidTag
  | invalidAnchor
  | unknownAnchor
  | invalidEscape
  | invalidBlockHeader
  | unclosedQuote
  | markerInQuotes
  | tabInIndentation
  | misplacedEntry
  | misplacedKey
  | misplacedValue
  | missingColon
  | severalDocuments
  | nestedTooDeep
  deriving DecidableEq, Repr, Inhabited

def isBreak (char : Char) : Bool :=
  char = '\n' || char = '\r' || char = '\x85' || char = '\u2028' || char = '\u2029'

def isBlank (char : Char) : Bool :=
  char = ' ' || char = '\t'

/-- Whether what follows is a blank, the end of a line or the end of the text. -/
def endsWord : List Char → Bool
  | [] => true
  | char :: _ => isBlank char || isBreak char

def endsLine : List Char → Bool
  | [] => true
  | char :: _ => isBreak char

def isAllowed (char : Char) : Bool :=
  let code := char.toNat
  code = 0x09 || code = 0x0A || code = 0x0D || (0x20 ≤ code && code ≤ 0x7E) || code = 0x85 ||
    (0xA0 ≤ code && code ≤ 0xFFFD) || 0x10000 ≤ code

/-- Whether a character can occur in names of anchors, tags and directives. -/
def isNameChar (char : Char) : Bool :=
  char.isAlphanum || char = '_' || char = '-'

/-- Where reading has got to: what follows, and the line, the column and the number of
characters before it. -/
structure Position where
  rest : List Char
  line : Nat := 0
  column : Nat := 0
  index : Nat := 0
  deriving DecidableEq, Repr, Inhabited

namespace Position

def skip (position : Position) : Position :=
  match position.rest with
  | [] => position
  | _ :: rest =>
      { position with rest, column := position.column + 1, index := position.index + 1 }

/-- The position behind a number of characters, none of which ends a line. -/
def skipMany : (count : Nat) → Position → Position
  | 0, position => position
  | count + 1, position => skipMany count position.skip

/-- The end of a line as text, and the position behind it.  Most ways to end a line
count as a line feed. -/
def readBreak (position : Position) : List Char × Position :=
  let behind (rest : List Char) (count : Nat) : Position :=
    { rest, line := position.line + 1, column := 0, index := position.index + count }
  match position.rest with
  | '\r' :: '\n' :: rest => (['\n'], behind rest 2)
  | char :: rest =>
      if char = '\u2028' || char = '\u2029' then ([char], behind rest 1)
      else if isBreak char then (['\n'], behind rest 1)
      else ([], position)
  | [] => ([], position)

def skipBreak (position : Position) : Position :=
  position.readBreak.2

/-- The leading characters with a property, and the position behind them.  None of them
ends a line. -/
def span (holds : Char → Bool) (position : Position) : List Char × Position :=
  let chars := position.rest.takeWhile holds
  (chars, skipMany chars.length position)

def skipBlanks (position : Position) : Position :=
  (position.span isBlank).2

def skipComment (position : Position) : Position :=
  if position.rest.head? = some '#' then (position.span fun char => !isBreak char).2
  else position

def atMarker (position : Position) : Bool :=
  position.column = 0 &&
    match position.rest with
    | '-' :: '-' :: '-' :: rest => endsWord rest
    | '.' :: '.' :: '.' :: rest => endsWord rest
    | _ => false

end Position
end Highlighter.Data.Yaml

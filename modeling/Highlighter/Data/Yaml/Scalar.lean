import Highlighter.Data.Yaml.Position

/-!
# Scalars in YAML

Text is written between quotes, as a block of lines, or plainly.  Inside quotes and in
plain text the end of a line is folded into a space, and each empty line behind it
counts as a line feed.
-/
namespace Highlighter.Data.Yaml

/-! ### Blanks between words -/

/-- Blanks and ends of lines between two words: the blanks if all is on one line, and
otherwise the first end of a line and those behind it. -/
structure Gap where
  broken : Bool := false
  blanks : List Char := []
  first : List Char := []
  others : List Char := []
  deriving DecidableEq, Repr, Inhabited

namespace Gap

def text (gap : Gap) : List Char :=
  if !gap.broken then gap.blanks
  else if gap.first = ['\n'] then
    if gap.others.isEmpty then [' '] else gap.others
  else gap.first ++ gap.others

/-- Reads on in a gap.  Behind the end of a line, tabs must not stand before column
`indent`. -/
def read (indent : Nat) :
    (fuel : Nat) → Gap → Position → Except ReadError (Gap × Position)
  | 0, gap, position => .ok (gap, position)
  | fuel + 1, gap, position =>
      match position.rest with
      | [] => .ok (gap, position)
      | char :: _ =>
          if isBlank char then
            if gap.broken then
              if char = '\t' && position.column < indent then .error .tabInIndentation
              else read indent fuel gap position.skip
            else
              read indent fuel { gap with blanks := gap.blanks ++ [char] } position.skip
          else if isBreak char then
            let (content, behind) := position.readBreak
            if gap.broken then
              read indent fuel { gap with others := gap.others ++ content } behind
            else
              read indent fuel { gap with broken := true, first := content } behind
          else .ok (gap, position)

end Gap

/-! ### Quotes -/

def simpleEscape? : Char → Option Char
  | '0' => some '\x00'
  | 'a' => some '\x07'
  | 'b' => some '\x08'
  | 't' => some '\t'
  | '\t' => some '\t'
  | 'n' => some '\n'
  | 'v' => some '\x0b'
  | 'f' => some '\x0c'
  | 'r' => some '\r'
  | 'e' => some '\x1b'
  | ' ' => some ' '
  | '"' => some '"'
  | '/' => some '/'
  | '\\' => some '\\'
  | 'N' => some '\x85'
  | '_' => some '\xa0'
  | 'L' => some '\u2028'
  | 'P' => some '\u2029'
  | _ => none

def escapeWidth? : Char → Option Nat
  | 'x' => some 2
  | 'u' => some 4
  | 'U' => some 8
  | _ => none

def hexadecimal? (digits : List Char) : Option Nat :=
  digits.foldlM
    (fun value digit =>
      if digit.isDigit then some (16 * value + (digit.toNat - 48))
      else if 'a' ≤ digit && digit ≤ 'f' then some (16 * value + (digit.toNat - 87))
      else if 'A' ≤ digit && digit ≤ 'F' then some (16 * value + (digit.toNat - 55))
      else none)
    0

def escape (position : Position) : Except ReadError (Char × Position) :=
  match position.rest with
  | [] => .error .invalidEscape
  | letter :: rest =>
      match simpleEscape? letter with
      | some char => .ok (char, position.skip)
      | none =>
          match escapeWidth? letter with
          | none => .error .invalidEscape
          | some width =>
              let digits := rest.take width
              match hexadecimal? digits with
              | none => .error .invalidEscape
              | some code =>
                  if digits.length = width && code.isValidChar then
                    .ok (Char.ofNat code, position.skipMany (width + 1))
                  else .error .invalidEscape

def quotedFrom (single : Bool) :
    (fuel : Nat) → (newestFirst : List Char) → Position →
      Except ReadError (List Char × Position)
  | 0, _, _ => .error .unclosedQuote
  | fuel + 1, newestFirst, position =>
      if position.atMarker then .error .markerInQuotes
      else
        let behindGap (gap : Gap) (start : Position) :
            Except ReadError (List Char × Position) := do
          let (gap, behind) ← gap.read 0 start.rest.length start
          quotedFrom single fuel (gap.text.reverse ++ newestFirst) behind
        match position.rest with
        | [] => .error .unclosedQuote
        | char :: rest =>
            if isBlank char || isBreak char then behindGap {} position
            else if single then
              if char != '\'' then quotedFrom single fuel (char :: newestFirst) position.skip
              else if rest.head? = some '\'' then
                quotedFrom single fuel ('\'' :: newestFirst) (position.skipMany 2)
              else .ok (newestFirst.reverse, position.skip)
            else if char = '"' then .ok (newestFirst.reverse, position.skip)
            else if char != '\\' then
              quotedFrom single fuel (char :: newestFirst) position.skip
            else if !rest.isEmpty && endsLine rest then
              behindGap { broken := true } position.skip.skipBreak
            else do
              let (char, behind) ← escape position.skip
              quotedFrom single fuel (char :: newestFirst) behind

def quoted (single : Bool) (position : Position) :
    Except ReadError (String × Position) := do
  let (content, behind) ← quotedFrom single (position.rest.length + 1) [] position
  return (String.ofList content, behind)

/-! ### Plain text -/

/-- A plain scalar, the position behind it, and whether that is on a later line. -/
structure PlainScalar where
  content : String
  behind : Position
  broken : Bool

def isFlowIndicator (char : Char) : Bool :=
  char = ',' || char = '[' || char = ']' || char = '\x7b' || char = '\x7d'

def endsPlain (flow : Bool) (char : Char) (rest : List Char) : Bool :=
  (char = ':' && endsWord rest) || (flow && isFlowIndicator char)

/-- Whether a colon stands in front of a delimiter between brackets, where it makes no
sense. -/
def isStrayColon (flow : Bool) (char : Char) (rest : List Char) : Bool :=
  flow && char = ':' && rest.head?.any fun next => next = '?' || isFlowIndicator next

/-- Reads on in plain text.  `gap` is what has been read behind the last word.  Outside
brackets lines have to be indented to column `indent`. -/
def plainFrom (flow : Bool) (indent : Nat) :
    (fuel : Nat) → (newestFirst : List Char) → (gap : Option Gap) → Position →
      Except ReadError PlainScalar
  | 0, _, _, _ => .error .unexpectedCharacter
  | fuel + 1, newestFirst, gap, position =>
      let finished : PlainScalar :=
        { content := String.ofList newestFirst.reverse
          behind := position
          broken := gap.any Gap.broken }
      let atStart := gap.isSome || newestFirst.isEmpty
      if atStart && position.atMarker then .ok finished
      else
        match position.rest with
        | [] => .ok finished
        | char :: rest =>
            if atStart && char = '#' then .ok finished
            else if isBlank char || isBreak char then do
              let (gap, behind) ← Gap.read indent position.rest.length {} position
              if !flow && behind.column < indent then
                return { finished with behind, broken := gap.broken }
              else
                plainFrom flow indent fuel newestFirst (some gap) behind
            else if isStrayColon flow char rest then .error .unexpectedCharacter
            else if endsPlain flow char rest then .ok finished
            else
              let joined := ((gap.map Gap.text).getD []).reverse ++ newestFirst
              plainFrom flow indent fuel (char :: joined) none position.skip

def plain (flow : Bool) (indent : Nat) (position : Position) : Except ReadError PlainScalar :=
  plainFrom flow indent (position.rest.length + 2) [] none position

/-! ### Blocks -/

/-- What happens to the ends of lines behind a block: all are dropped, or all but the
first, or none. -/
inductive Chomping where
  | strip
  | clip
  | keep
  deriving DecidableEq, Repr, Inhabited

/-- What the first line of a block says: chomping, and by how much it is indented, where
0 leaves that to its lines. -/
structure BlockHeader where
  chomping : Chomping := .clip
  increment : Nat := 0
  deriving DecidableEq, Repr, Inhabited

namespace BlockHeader

def chomping? : Char → Option Chomping
  | '+' => some .keep
  | '-' => some .strip
  | _ => none

def readChomping (header : BlockHeader) (position : Position) : BlockHeader × Position :=
  match position.rest.head?.bind chomping? with
  | some chomping => ({ header with chomping }, position.skip)
  | none => (header, position)

/-- Reads how much a block is indented, if that comes next. -/
def readIncrement (header : BlockHeader) (position : Position) :
    Except ReadError (BlockHeader × Position) :=
  match position.rest.head? with
  | some char =>
      if char = '0' then .error .invalidBlockHeader
      else if char.isDigit then
        .ok ({ header with increment := char.toNat - 48 }, position.skip)
      else .ok (header, position)
  | none => .ok (header, position)

def read (position : Position) : Except ReadError (BlockHeader × Position) := do
  let (header, behind) := readChomping {} position
  let (header, behind) ← readIncrement header behind
  let (header, behind) :=
    if behind.index = position.index + 1 && header.increment != 0 then
      readChomping header behind
    else (header, behind)
  let lineEnd := behind.skipBlanks.skipComment
  if endsLine lineEnd.rest then return (header, lineEnd.skipBreak)
  else throw .invalidBlockHeader

end BlockHeader

def skipIndentation (column : Nat) : (fuel : Nat) → Position → Position
  | 0, position => position
  | fuel + 1, position =>
      if (column = 0 || position.column < column) && position.rest.head? = some ' ' then
        skipIndentation column fuel position.skip
      else position

/-- Empty lines of a block, and the deepest column reached in them.  The block is
indented to `column`, or it is not yet known how much if that is 0. -/
def emptyLines (column : Nat) :
    (fuel deepest : Nat) → (breaks : List Char) → Position →
      Except ReadError (List Char × Nat × Position)
  | 0, deepest, breaks, position => .ok (breaks, deepest, position)
  | fuel + 1, deepest, breaks, position =>
      let indented := skipIndentation column position.rest.length position
      let deepest := max deepest indented.column
      if (column = 0 || indented.column < column) && indented.rest.head? = some '\t' then
        .error .tabInIndentation
      else if indented.rest.isEmpty || !endsLine indented.rest then
        .ok (breaks, deepest, indented)
      else
        let (content, behind) := indented.readBreak
        emptyLines column fuel deepest (breaks ++ content) behind

/-- The lines of a block.  `content` has been read, `lineBreak` ends its last line and
`breaks` are empty lines behind it; `blank` tells whether that line begins with a
blank. -/
def blockLines (literal : Bool) (chomping : Chomping) (column : Nat) :
    (fuel : Nat) → (content lineBreak breaks : List Char) → (blank : Bool) → Position →
      Except ReadError (List Char × Position)
  | 0, content, _, _, _, position => .ok (content, position)
  | fuel + 1, content, lineBreak, breaks, blank, position =>
      if position.column != column || position.rest.isEmpty then
        let tail :=
          match chomping with
          | .strip => []
          | .clip => lineBreak
          | .keep => lineBreak ++ breaks
        .ok (content ++ tail, position)
      else do
        let nextBlank := position.rest.head?.any isBlank
        let folds := !literal && lineBreak.head? = some '\n' && !blank && !nextBlank
        let between :=
          if !folds then lineBreak ++ breaks
          else if breaks.isEmpty then [' ']
          else breaks
        let (line, lineEnd) := position.span fun char => !isBreak char
        let (lineBreak, behind) := lineEnd.readBreak
        let (breaks, _, next) ← emptyLines column (behind.rest.length + 1) 0 [] behind
        blockLines literal chomping column fuel (content ++ between ++ line) lineBreak breaks
          nextBlank next

def block (literal : Bool) (indent : Nat) (position : Position) :
    Except ReadError (String × Position) := do
  let (header, start) ← BlockHeader.read position
  let given := if header.increment = 0 then 0 else indent - 1 + header.increment
  let (breaks, deepest, first) ← emptyLines given (start.rest.length + 1) 0 [] start
  let column := if given = 0 then max deepest (max indent 1) else given
  let (content, behind) ←
    blockLines literal header.chomping column (first.rest.length + 2) [] [] breaks false first
  return (String.ofList content, behind)

end Highlighter.Data.Yaml

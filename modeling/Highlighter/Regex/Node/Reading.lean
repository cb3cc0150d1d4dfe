import Highlighter.Regex.Bracket
import Highlighter.Regex.Node
import Highlighter.Text.Split
import Highlighter.Data.Word

/-!
# Reading a regular expression

Patterns are read from left to right.  What is read later can depend on what was
read before: flags stay set until the surrounding flag group ends, and a
reference may only name a group that has been opened.
-/
namespace Highlighter.Regex

inductive PatternError where
  | unclosedGroup
  | unexpectedText
  | nestedTooDeep
  | notRepeatable
  | trailingBackslash
  | unknownEscape
  | invalidCharacterCode
  | unknownProperty
  | invalidBracket (cause : BracketError)
  | invalidGroupName
  | unknownGroup
  | mixedReferences
  | unknownFlag
  | emptyConditional
  | unfixedLookBehind
  | invalidRepetition
  | tooLarge
  | unreadable
  deriving Repr, DecidableEq, Inhabited

structure Flags where
  ignoreCase : Bool := false
  multipleLines : Bool := false
  dotMatchesAll : Bool := false
  swapGreed : Bool := false
  ignoreBlanks : Bool := false
  deriving Repr, DecidableEq, Inhabited

/-- What is left of a pattern, with what has been learnt from the part before. -/
structure ReadState where
  rest : List Char
  flags : Flags := {}
  opened : Nat := 0
  names : List (List Char × Nat) := []
  numbered : Bool := false
  referenced : List Nat := []
  referenceBound : Nat
  deriving Repr, Inhabited

abbrev Reading (α : Type) := StateT ReadState (Except PatternError) α

namespace Reading

inductive Gap where
  | between
  | inLine
  | inComment
  deriving Repr, DecidableEq, Inhabited

/-- What follows blanks and comments.  Comments in a group are always skipped,
blanks and comments to the end of the line only if `blanks` are. -/
def afterBlanks (blanks : Bool) : Gap → List Char → Except PatternError (List Char)
  | .between, [] => .ok []
  | .between, '(' :: '?' :: '#' :: rest => afterBlanks blanks .inComment rest
  | .between, char :: rest =>
      if blanks && char = '#' then afterBlanks blanks .inLine rest
      else if blanks && (char = ' ' || char = '\r' || char = '\n' || char = '\t') then
        afterBlanks blanks .between rest
      else .ok (char :: rest)
  | .inLine, [] => .ok []
  | .inLine, char :: rest =>
      if char = '\n' then afterBlanks blanks .between rest
      else afterBlanks blanks .inLine rest
  | .inComment, [] => .error .unclosedGroup
  | .inComment, '\\' :: _ :: rest => afterBlanks blanks .inComment rest
  | .inComment, char :: rest =>
      if char = ')' then afterBlanks blanks .between rest
      else afterBlanks blanks .inComment rest

def skipBlanks : Reading Unit := do
  let state ← get
  let rest ← afterBlanks state.flags.ignoreBlanks .between state.rest
  set { state with rest }

def drop (count : Nat) : Reading Unit :=
  modify fun state => { state with rest := state.rest.drop count }

def accept (expected : Char) : Reading Bool := do
  match (← get).rest with
  | char :: rest =>
      if char = expected then
        modify fun state => { state with rest }
        return true
      else
        return false
  | [] => return false

def close : Reading Unit := do
  if (← get).rest.isEmpty then
    throw .unclosedGroup
  unless ← accept ')' do
    throw .unexpectedText

/-- A decimal number below 2^64, with what follows it. -/
def decimal? (chars : List Char) : Option (Nat × List Char) :=
  let digits := chars.takeWhile Char.isDigit
  let value := digits.foldl (fun value digit => 10 * value + (digit.toNat - 48)) 0
  if digits.isEmpty || Word.size 64 ≤ value then none
  else some (value, chars.dropWhile Char.isDigit)

/-- The least number of repetitions, with what follows it.  It is 0 in front of a comma. -/
def leastBound (chars : List Char) : Except PatternError (Nat × List Char) :=
  if chars.head? = some ',' then .ok (0, chars)
  else (decimal? chars).elim (.error .invalidRepetition) .ok

/-- The greatest number of repetitions, if one is given, with what follows it. -/
def greatestBound (chars : List Char) : Option Nat × List Char :=
  (decimal? chars).elim (none, chars) fun found => (some found.1, found.2)

def behindBounds : List Char → Except PatternError (List Char)
  | '\x7d' :: rest => .ok rest
  | _ => .error .invalidRepetition

def bounds (blanks : Bool) (chars : List Char) :
    Except PatternError (Nat × Option Nat × List Char) := do
  let inside ← afterBlanks blanks .between chars
  let least ← leastBound inside
  let behindLeast ← afterBlanks blanks .between least.2
  if behindLeast.head? = some ',' then
    let atMost ← afterBlanks blanks .between behindLeast.tail
    let most := greatestBound atMost
    let behindMost ← afterBlanks blanks .between most.2
    return (least.1, most.1, ← behindBounds behindMost)
  else
    return (least.1, some least.1, ← behindBounds behindLeast)

/-- Reads a quantifier if one comes next.  A brace that opens no bounds is left
to be read as itself. -/
def quantifier? : Reading (Option (Nat × Option Nat)) := do
  let state ← get
  match state.rest with
  | '?' :: rest =>
      set { state with rest }
      return some (0, some 1)
  | '*' :: rest =>
      set { state with rest }
      return some (0, none)
  | '+' :: rest =>
      set { state with rest }
      return some (1, none)
  | '\x7b' :: inside =>
      match bounds state.flags.ignoreBlanks inside with
      | .ok (least, most, rest) =>
          set { state with rest }
          return some (least, most)
      | .error _ => return none
  | _ => return none

def isNameChar (char : Char) : Bool :=
  Unicode.isAlphanumeric char || char = '_'

/-- Reads a name that ends with `closing`.  A relative one may begin with a
hyphen. -/
def name? (closing : Char) (relative : Bool) (chars : List Char) :
    Option (List Char × List Char) :=
  let (sign, body) :=
    match chars with
    | '-' :: body => if relative then (['-'], body) else ([], chars)
    | _ => ([], chars)
  let name := sign ++ body.takeWhile isNameChar
  match body.dropWhile isNameChar with
  | char :: rest =>
      if char = closing && !name.isEmpty then some (name, rest) else none
  | [] => none

def integer? : List Char → Option Int
  | '-' :: digits =>
      match decimal? digits with
      | some (value, []) => some (-(value : Int))
      | _ => none
  | digits =>
      match decimal? digits with
      | some (value, []) => some value
      | _ => none

/-- Notes a reference.  Only groups that have been opened can be referred to. -/
def referTo (number : Nat) : Reading Nat := do
  let state ← get
  if state.opened < number then
    throw .unknownGroup
  set { state with referenced := number :: state.referenced }
  return number

/-- Reads a reference by name, or by a number in place of a name; a negative
number counts back from the last group opened. -/
def namedReference (closing : Char) (relative : Bool) (chars : List Char) : Reading Nat := do
  let state ← get
  match name? closing relative chars with
  | none => throw .invalidGroupName
  | some (name, rest) =>
      set { state with rest }
      match state.names.find? fun known => known.1 = name with
      | some (_, number) => referTo number
      | none =>
          match integer? name with
          | none => throw .unknownGroup
          | some number =>
              let target := if number < 0 then (state.opened : Int) + number + 1 else number
              if target < 0 then throw .unknownGroup else referTo target.toNat

/-- Reads a named reference in front of which the opening mark has to stand. -/
def quotedReference (opening closing : Char) : Reading Nat := do
  match (← get).rest with
  | char :: rest =>
      if char = opening then namedReference closing true rest else throw .invalidGroupName
  | [] => throw .invalidGroupName

def numberedReference : Reading Nat := do
  let state ← get
  match decimal? state.rest with
  | some (number, rest) =>
      if number < state.referenceBound then
        set { state with rest, numbered := true }
        referTo number
      else
        throw .unknownGroup
  | none => throw .unknownGroup

inductive Escape where
  | char (char : Char)
  | set (set : CharSet)
  | hexDigit (negated : Bool)
  | node (node : Node)
  deriving Repr, Inhabited

def hexValue? (char : Char) : Option Nat :=
  if char.isDigit then some (char.toNat - 48)
  else if 'a' ≤ char && char ≤ 'f' then some (char.toNat - 87)
  else if 'A' ≤ char && char ≤ 'F' then some (char.toNat - 55)
  else none

def charOfCode (digits : List Char) : Except PatternError Char :=
  let code := digits.foldl (fun code digit => 16 * code + (hexValue? digit).getD 0) 0
  if h : code.isValidChar then .ok (Char.ofNatAux code h) else .error .invalidCharacterCode

/-- Reads a character code: a fixed number of digits, or up to eight in braces. -/
def charCode (count : Nat) : Reading Escape := do
  let state ← get
  let isHex (char : Char) : Bool := (hexValue? char).isSome
  let digits := state.rest.take count
  if digits.length = count && digits.all isHex then
    let char ← charOfCode digits
    set { state with rest := state.rest.drop count }
    return .char char
  match state.rest with
  | '\x7b' :: inside =>
      let digits := inside.takeWhile isHex
      match inside.dropWhile isHex with
      | '\x7d' :: rest =>
          if digits.isEmpty || 8 < digits.length then
            throw .invalidCharacterCode
          let char ← charOfCode digits
          set { state with rest }
          return .char char
      | _ => throw .invalidCharacterCode
  | _ => throw .invalidCharacterCode

/-- The set of a property written as in braces: a name, or a name and a value
that it has or has not. -/
def propertySet? (text : List Char) : Option CharSet :=
  let name := text.takeWhile fun char => char != '!'
  match text.dropWhile fun char => char != '!' with
  | '!' :: '=' :: value => (CharSet.propertyValue? name value).map .complement
  | _ =>
      let separator := if text.contains ':' then ':' else '='
      let name := text.takeWhile fun char => char != separator
      match text.dropWhile fun char => char != separator with
      | _ :: value => CharSet.propertyValue? name value
      | [] => CharSet.property? text

def property (negated : Bool) : Reading Escape := do
  let state ← get
  let (text, rest) ←
    match state.rest with
    | '\x7b' :: inside =>
        match inside.dropWhile fun char => char != '\x7d' with
        | _ :: rest => pure (inside.takeWhile fun char => char != '\x7d', rest)
        | [] => throw .unknownProperty
    | char :: rest => pure ([char], rest)
    | [] => throw .unknownEscape
  match propertySet? text with
  | none => throw .unknownProperty
  | some found =>
      set { state with rest }
      let folded := Bracket.fold state.flags.ignoreCase found
      return .set (if negated then .complement folded else folded)

/-- Reads what follows a backslash.  In brackets the escapes that stand for no
character or set stand for their letter. -/
def escape (inBracket : Bool) : Reading Escape := do
  let state ← get
  match state.rest with
  | [] => throw .trailingBackslash
  | char :: rest =>
      let itself : Reading Escape := do
        set { state with rest }
        return .char char
      let standsFor (escape : Escape) : Reading Escape := do
        set { state with rest }
        return escape
      let assertion (assertion : Assertion) : Reading Escape :=
        if inBracket then itself else standsFor (.node (.check assertion))
      match char with
      | 'k' =>
          if inBracket then itself
          else do
            set { state with rest }
            let number ←
              match rest with
              | '\'' :: _ => quotedReference '\'' '\''
              | _ => quotedReference '<' '>'
            return .node (.reference number)
      | 'A' => assertion .startOfText
      | 'z' => assertion .endOfText
      | 'b' =>
          if inBracket then standsFor (.char '\x08')
          else if rest.head? = some '\x7b' then throw .unknownEscape
          else assertion .wordBoundary
      | 'B' =>
          if !inBracket && rest.head? = some '\x7b' then throw .unknownEscape
          else assertion .noWordBoundary
      | '<' => assertion .startOfWord
      | '>' => assertion .endOfWord
      | 'd' => standsFor (.set .digit)
      | 'D' => standsFor (.set (.complement .digit))
      | 's' => standsFor (.set .space)
      | 'S' => standsFor (.set (.complement .space))
      | 'w' => standsFor (.set .word)
      | 'W' => standsFor (.set (.complement .word))
      | 'h' => standsFor (.hexDigit false)
      | 'H' => standsFor (.hexDigit true)
      | 'x' => do
          set { state with rest }
          charCode 2
      | 'u' => do
          set { state with rest }
          charCode 4
      | 'U' => do
          set { state with rest }
          charCode 8
      | 'p' => do
          set { state with rest }
          property false
      | 'P' => do
          set { state with rest }
          property true
      | 'K' => if inBracket then itself else standsFor (.node .keepOut)
      | 'G' => if inBracket then itself else standsFor (.node .searchStart)
      | 'a' => standsFor (.char '\x07')
      | 'f' => standsFor (.char '\x0c')
      | 'n' => standsFor (.char '\n')
      | 'r' => standsFor (.char '\r')
      | 't' => standsFor (.char '\t')
      | 'v' => standsFor (.char '\x0b')
      | 'e' => standsFor (.char '\x1b')
      | _ =>
          if char.isDigit then do
            let number ← numberedReference
            return .node (.reference number)
          else if char.isAlpha then throw .unknownEscape
          else itself

/-- Characters that mean something other than themselves somewhere in a pattern. -/
def isSpecial (char : Char) : Bool :=
  "\\.+*?()|[]\x7b\x7d^$#&-~".toList.contains char

/-- The tokens of the set of hexadecimal digits, or of all other characters. -/
def hexDigitTokens (negated : Bool) : List BracketToken :=
  ((if negated then "[^0-9A-Fa-f]" else "[0-9A-Fa-f]").toList).map .plain

/-- Reads the tokens of a bracket expression up to the bracket that closes it.
`depth` counts the brackets that are open; `newestFirst` holds the tokens so far. -/
def bracketTokens :
    (fuel depth : Nat) → (newestFirst : List BracketToken) → Reading (List BracketToken)
  | 0, _, _ => throw .unreadable
  | fuel + 1, depth, newestFirst => do
      let state ← get
      match state.rest with
      | [] => throw (.invalidBracket .unclosed)
      | '\\' :: rest =>
          set { state with rest }
          match ← escape true with
          | .char char =>
              let token := if isSpecial char then BracketToken.quoted char else .plain char
              bracketTokens fuel depth (token :: newestFirst)
          | .set found => bracketTokens fuel depth (.set found :: newestFirst)
          | .hexDigit negated =>
              bracketTokens fuel depth ((hexDigitTokens negated).reverse ++ newestFirst)
          | .node _ => throw .unknownEscape
      | '[' :: rest =>
          set { state with rest }
          bracketTokens fuel (depth + 1) (.plain '[' :: newestFirst)
      | ']' :: rest =>
          set { state with rest }
          if depth ≤ 1 then
            return (.plain ']' :: newestFirst).reverse
          else
            bracketTokens fuel (depth - 1) (.plain ']' :: newestFirst)
      | char :: rest =>
          set { state with rest }
          bracketTokens fuel depth (.plain char :: newestFirst)

/-- The tokens that open a bracket expression, newest first, and what follows them: a caret
negates the set, and a closing bracket that comes first stands for itself. -/
def leadingTokens : List Char → List BracketToken × List Char
  | '^' :: ']' :: rest => ([.plain ']', .plain '^'], rest)
  | '^' :: rest => ([.plain '^'], rest)
  | ']' :: rest => ([.plain ']'], rest)
  | rest => ([], rest)

def bracket : Reading Node := do
  let state ← get
  let leading := leadingTokens state.rest
  set { state with rest := leading.2 }
  let tokens ← bracketTokens (leading.2.length + 1) 1 leading.1
  match Bracket.read state.flags.ignoreCase tokens with
  | .ok found => return .consume found
  | .error cause => throw (PatternError.invalidBracket cause)

def literal (char : Char) : Reading Node := do
  if (← get).flags.ignoreCase then
    return .consume (.foldCase (.single char))
  else
    return .literal char

def escapedNode : Reading Node := do
  match ← escape false with
  | .char char => literal char
  | .set found => return .consume found
  | .hexDigit negated =>
      return .consume (if negated then .complement .hexDigit else .hexDigit)
  | .node node => return node

def updateFlag? (flags : Flags) (letter : Char) (value : Bool) : Option Flags :=
  match letter with
  | 'i' => some { flags with ignoreCase := value }
  | 'm' => some { flags with multipleLines := value }
  | 's' => some { flags with dotMatchesAll := value }
  | 'U' => some { flags with swapGreed := value }
  | 'x' => some { flags with ignoreBlanks := value }
  | 'u' => if value then some flags else none
  | _ => none

/-- Reads flags up to the parenthesis or colon that ends them.  `whole` is what
followed the question mark and `afterHyphen` what followed the hyphen, if there
was one.  The result tells whether a colon ended them. -/
def flags (whole : Nat) : (fuel : Nat) → (afterHyphen : Option Nat) → Reading Bool
  | 0, _ => throw .unreadable
  | fuel + 1, afterHyphen => do
      skipBlanks
      let state ← get
      let left := state.rest.length
      match state.rest with
      | [] => throw .unclosedGroup
      | '-' :: rest =>
          if afterHyphen.isSome then
            throw .unknownFlag
          set { state with rest }
          flags whole fuel (some rest.length)
      | ')' :: rest =>
          if left = whole || afterHyphen = some left then
            throw .unknownFlag
          set { state with rest }
          return false
      | ':' :: rest =>
          if afterHyphen = some left then
            throw .unknownFlag
          set { state with rest }
          return true
      | letter :: rest =>
          match updateFlag? state.flags letter afterHyphen.isNone with
          | some changed =>
              set { state with rest, flags := changed }
              flags whole fuel afterHyphen
          | none => throw .unknownFlag

def openGroup : Reading Nat := do
  modify fun state => { state with opened := state.opened + 1 }
  return (← get).opened

def openNamedGroup (chars : List Char) : Reading Nat := do
  let number ← openGroup
  match name? '>' false chars with
  | some (name, rest) =>
      modify fun state => { state with rest, names := (name, number) :: state.names }
      return number
  | none => throw .invalidGroupName

def sequence : List Node → Node
  | [] => .empty
  | [node] => node
  | nodes => .concat nodes

/-- What becomes of the node behind a condition: its first alternative is for
the case that the condition holds, and the others for the case that it does not. -/
def branches : Node → Node × Node
  | .alternation [] => (.empty, .empty)
  | .alternation [whenTrue] => (whenTrue, .alternation [])
  | .alternation [whenTrue, whenFalse] => (whenTrue, whenFalse)
  | .alternation (whenTrue :: others) => (whenTrue, .alternation others)
  | node => (node, .empty)

/-- A reference as a condition asks whether the group has matched. -/
def asCondition : Node → Node
  | .reference number => .groupMatched number
  | node => node

/-- Closes the group around a condition and what depends on it.  Nothing depends on a
condition if as much is left as was left behind it. -/
def closeConditional (condition : Node) (behindCondition : Nat) (body : Node) : Reading Node := do
  if (← get).rest.length = behindCondition then
    match condition with
    | .reference number =>
        close
        return .groupMatched number
    | _ => throw .emptyConditional
  else
    close
    let (whenTrue, whenFalse) := branches body
    if whenTrue.isEmpty && whenFalse.isEmpty then
      return asCondition condition
    else
      return .conditional (asCondition condition) whenTrue whenFalse

mutual

def alternatives : (fuel depth : Nat) → Reading Node
  | 0, _ => throw .unreadable
  | fuel + 1, depth => do
      let first ← branch fuel depth []
      let others ← otherAlternatives fuel depth []
      match others with
      | [] =>
          let state ← get
          if state.numbered && !state.names.isEmpty then
            throw .mixedReferences
          return first
      | others => return .alternation (first :: others)

def otherAlternatives : (fuel depth : Nat) → (newestFirst : List Node) → Reading (List Node)
  | 0, _, _ => throw .unreadable
  | fuel + 1, depth, newestFirst => do
      if ← accept '|' then
        let node ← branch fuel depth []
        otherAlternatives fuel depth (node :: newestFirst)
      else
        return newestFirst.reverse

def branch : (fuel depth : Nat) → (newestFirst : List Node) → Reading Node
  | 0, _, _ => throw .unreadable
  | fuel + 1, depth, newestFirst => do
      skipBlanks
      match (← get).rest with
      | [] | '|' :: _ | ')' :: _ => return sequence newestFirst.reverse
      | _ =>
          let node ← piece fuel depth
          branch fuel depth (if node.isEmpty then newestFirst else node :: newestFirst)

def piece : (fuel depth : Nat) → Reading Node
  | 0, _ => throw .unreadable
  | fuel + 1, depth => do
      let node ← atom fuel depth
      skipBlanks
      match ← quantifier? with
      | none => return node
      | some (least, most) =>
          unless node.isRepeatable do
            throw .notRepeatable
          skipBlanks
          let reluctant ← accept '?'
          let possessive ← accept '+'
          let greedy := reluctant == (← get).flags.swapGreed
          let repeated := Node.repetition node least most greedy
          return if possessive then .atomic repeated else repeated

def atom : (fuel depth : Nat) → Reading Node
  | 0, _ => throw .unreadable
  | fuel + 1, depth => do
      let state ← get
      match state.rest with
      | [] => return .empty
      | char :: rest =>
          match char with
          | '.' =>
              set { state with rest }
              let excluded := if state.flags.dotMatchesAll then .empty else CharSet.single '\n'
              return .consume (.complement excluded)
          | '^' =>
              set { state with rest }
              return .check (if state.flags.multipleLines then .startOfLine else .startOfText)
          | '$' =>
              set { state with rest }
              return .check (if state.flags.multipleLines then .endOfLine else .endOfText)
          | '(' =>
              set { state with rest }
              group fuel (depth + 1)
          | '\\' =>
              set { state with rest }
              escapedNode
          | '[' =>
              set { state with rest }
              bracket
          | '+' | '*' | '?' | '|' | ')' => return .empty
          | _ =>
              set { state with rest }
              literal char

def group : (fuel depth : Nat) → Reading Node
  | 0, _ => throw .unreadable
  | fuel + 1, depth => do
      if 64 ≤ depth then
        throw .nestedTooDeep
      skipBlanks
      match (← get).rest with
      | '?' :: '=' :: _ => do
          drop 2
          let node ← alternatives fuel depth
          close
          return .look .ahead false node
      | '?' :: '!' :: _ => do
          drop 2
          let node ← alternatives fuel depth
          close
          return .look .ahead true node
      | '?' :: '<' :: '=' :: _ => do
          drop 3
          let node ← alternatives fuel depth
          close
          return .look .behind false node
      | '?' :: '<' :: '!' :: _ => do
          drop 3
          let node ← alternatives fuel depth
          close
          return .look .behind true node
      | '?' :: '<' :: chars => do
          let number ← openNamedGroup chars
          let node ← alternatives fuel depth
          close
          return .group number node
      | '?' :: 'P' :: '<' :: chars => do
          let number ← openNamedGroup chars
          let node ← alternatives fuel depth
          close
          return .group number node
      | '?' :: 'P' :: '=' :: chars => do
          let number ← namedReference ')' false chars
          return .reference number
      | '?' :: '>' :: _ => do
          drop 2
          let node ← alternatives fuel depth
          close
          return .atomic node
      | '?' :: '(' :: _ => do
          drop 2
          conditional fuel depth
      | '?' :: chars => do
          let before := (← get).flags
          drop 1
          if ← flags chars.length (chars.length + 1) none then
            let node ← alternatives fuel depth
            close
            modify fun state => { state with flags := before }
            return node
          else
            return .empty
      | _ => do
          let number ← openGroup
          let node ← alternatives fuel depth
          close
          return .group number node

/-- Reads a condition, behind its opening parenthesis, and what depends on it. -/
def conditional : (fuel depth : Nat) → Reading Node
  | 0, _ => throw .unreadable
  | fuel + 1, depth => do
      let condition ←
        match (← get).rest with
        | [] => throw .unclosedGroup
        | char :: _ =>
            if char.isDigit then do
              let number ← numberedReference
              pure (Node.reference number)
            else if char = '\'' then do
              let number ← quotedReference '\'' '\''
              pure (Node.reference number)
            else if char = '<' then do
              let number ← quotedReference '<' '>'
              pure (Node.reference number)
            else
              alternatives fuel depth
      close
      let behindCondition := (← get).rest.length
      let body ← alternatives fuel depth
      closeConditional condition behindCondition body

end

end Reading

/-- A pattern that has been read: its tree, the groups that are referred to,
and the number of groups. -/
structure Expression where
  node : Node
  referenced : List Nat
  groups : Nat
  deriving Repr, Inhabited

def Expression.read (pattern : List Char) : Except PatternError Expression := do
  let bytes := pattern.foldl (fun bytes char => bytes + char.utf8Size) 0
  let initial : ReadState := { rest := pattern, referenceBound := bytes / 2 }
  let (node, state) ← (Reading.alternatives (6 * pattern.length + 10) 0).run initial
  if state.rest.isEmpty then
    return { node, referenced := state.referenced, groups := state.opened }
  else
    throw .unexpectedText

end Highlighter.Regex

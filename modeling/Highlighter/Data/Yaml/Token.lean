import Highlighter.Data.Yaml.Scalar

/-!
# Tokens of YAML

The layout of a document is made explicit: tokens say where lists and records begin and
end, whether brackets or indentation show that.  That a text is a key is known only when
a colon follows it, and tokens are put in front of it then.
-/
namespace Highlighter.Data.Yaml

inductive Token where
  | version (major minor : Nat)
  | tagDirective (handle start : String)
  | documentStart
  | documentEnd
  | blockList
  | blockRecord
  | blockEnd
  | flowList
  | flowListEnd
  | flowRecord
  | flowRecordEnd
  | blockEntry
  | flowEntry
  | key
  | value
  | reference (name : String)
  | anchor (name : String)
  | tag (handle suffix : String)
  | scalar (content : String) (isPlain : Bool)
  deriving DecidableEq, Repr, Inhabited

/-- A token that may turn out to be a key: how many tokens come before it, where it
begins, and whether it has to be a key because of its column. -/
structure PossibleKey where
  required : Bool
  number : Nat
  line : Nat
  column : Nat
  index : Nat
  deriving DecidableEq, Repr, Inhabited

/-- The state of reading tokens.  `indents` are the columns of the open lists and records
outside brackets, innermost first.  Inside brackets `outerKeys` are the possible keys
around them, one for each pair of brackets. -/
structure Scanner where
  position : Position
  newestFirst : List Token := []
  count : Nat := 0
  indents : List Nat := []
  keyAllowed : Bool := true
  possibleKey : Option PossibleKey := none
  outerKeys : List (Option PossibleKey) := []
  deriving Repr, Inhabited

namespace Scanner

def inFlow (scanner : Scanner) : Bool :=
  !scanner.outerKeys.isEmpty

def innerColumn (scanner : Scanner) : Nat :=
  (scanner.indents.head?.map (· + 1)).getD 0

def push (scanner : Scanner) (token : Token) : Scanner :=
  { scanner with newestFirst := token :: scanner.newestFirst, count := scanner.count + 1 }

def insert (scanner : Scanner) (number : Nat) (token : Token) : Scanner :=
  let later := scanner.newestFirst.take (scanner.count - number)
  let earlier := scanner.newestFirst.drop (scanner.count - number)
  { scanner with newestFirst := later ++ token :: earlier, count := scanner.count + 1 }

/-- Closes lists and records that are indented deeper than allowed.  `limit` is the first
column that is too deep. -/
def unrollTo (limit : Nat) : (indents : List Nat) → Scanner → Scanner
  | [], scanner => { scanner with indents := [] }
  | indent :: outer, scanner =>
      if limit ≤ indent then unrollTo limit outer (scanner.push .blockEnd)
      else { scanner with indents := indent :: outer }

/-- Closes lists and records that are indented deeper than a column.  Inside brackets
columns do not matter. -/
def unroll (scanner : Scanner) (limit : Nat) : Scanner :=
  if scanner.inFlow then scanner else unrollTo limit scanner.indents scanner

/-- Opens a list or record at a column, if that is deeper than the innermost one.  Its
token goes behind a number of tokens. -/
def roll (scanner : Scanner) (column number : Nat) (token : Token) : Scanner :=
  if scanner.inFlow || column < scanner.innerColumn then scanner
  else { scanner.insert number token with indents := column :: scanner.indents }

/-- Gives up a possible key, which must not be required. -/
def dropKey (scanner : Scanner) : Except ReadError Scanner :=
  match scanner.possibleKey with
  | none => .ok scanner
  | some key =>
      if key.required then .error .missingColon
      else .ok { scanner with possibleKey := none }

/-- Notes that the next token may be a key, if keys are allowed here.  It has to be one
at the column of the innermost record. -/
def noteKey (scanner : Scanner) : Except ReadError Scanner :=
  if !scanner.keyAllowed then .ok scanner
  else do
    let position := scanner.position
    let key : PossibleKey :=
      { required := !scanner.inFlow && scanner.indents.head? = some position.column
        number := scanner.count
        line := position.line
        column := position.column
        index := position.index }
    let dropped ← scanner.dropKey
    return { dropped with possibleKey := some key }

def keyLength : Nat :=
  1024

/-- Keeps a possible key only as long as it is on this line and not too far away. -/
def refresh (position : Position) (key : Option PossibleKey) :
    Except ReadError (Option PossibleKey) :=
  match key with
  | none => .ok none
  | some key =>
      if key.line < position.line || key.index + keyLength < position.index then
        if key.required then .error .missingColon else .ok none
      else .ok (some key)

def dropStale (scanner : Scanner) : Except ReadError Scanner := do
  let possibleKey ← refresh scanner.position scanner.possibleKey
  let outerKeys ← scanner.outerKeys.mapM (refresh scanner.position)
  return { scanner with possibleKey, outerKeys }

/-- Goes to the next token.  Outside brackets a key can begin behind the end of a line.
Where it can, tabs do not count as blanks. -/
def toNextToken : (fuel : Nat) → Scanner → Scanner
  | 0, scanner => scanner
  | fuel + 1, scanner =>
      let start :=
        if scanner.position.column = 0 && scanner.position.rest.head? = some '\ufeff' then
          scanner.position.skip
        else scanner.position
      let tabs := scanner.inFlow || !scanner.keyAllowed
      let behind := (start.span fun char => char = ' ' || (tabs && char = '\t')).2.skipComment
      if behind.rest.isEmpty || !endsLine behind.rest then { scanner with position := behind }
      else
        toNextToken fuel
          { scanner with
            position := behind.skipBreak
            keyAllowed := scanner.keyAllowed || !scanner.inFlow }

/-! ### Single tokens -/

def indicator (scanner : Scanner) (token : Token) : Scanner :=
  { scanner.push token with position := scanner.position.skip }

def openFlow (scanner : Scanner) (token : Token) : Except ReadError Scanner := do
  let noted ← scanner.noteKey
  let opened :=
    { noted with
      outerKeys := noted.possibleKey :: noted.outerKeys
      possibleKey := none
      keyAllowed := true }
  return opened.indicator token

def closeFlow (scanner : Scanner) (token : Token) : Except ReadError Scanner := do
  let dropped ← scanner.dropKey
  let closed :=
    match dropped.outerKeys with
    | [] => dropped
    | key :: outerKeys => { dropped with possibleKey := key, outerKeys }
  return { closed with keyAllowed := false }.indicator token

def flowEntry (scanner : Scanner) : Except ReadError Scanner := do
  let dropped ← scanner.dropKey
  return { dropped with keyAllowed := true }.indicator .flowEntry

def rollHere (scanner : Scanner) (token : Token) (cause : ReadError) :
    Except ReadError Scanner :=
  if scanner.inFlow then .ok scanner
  else if !scanner.keyAllowed then .error cause
  else .ok (scanner.roll scanner.position.column scanner.count token)

def blockEntry (scanner : Scanner) : Except ReadError Scanner := do
  let rolled ← scanner.rollHere .blockList .misplacedEntry
  let dropped ← rolled.dropKey
  return { dropped with keyAllowed := true }.indicator .blockEntry

def explicitKey (scanner : Scanner) : Except ReadError Scanner := do
  let rolled ← scanner.rollHere .blockRecord .misplacedKey
  let dropped ← rolled.dropKey
  return { dropped with keyAllowed := !dropped.inFlow }.indicator .key

/-- Reads the colon in front of a value.  A possible key becomes a key. -/
def valueMark (scanner : Scanner) : Except ReadError Scanner :=
  match scanner.possibleKey with
  | some key =>
      let keyed := scanner.insert key.number .key
      let rolled := keyed.roll key.column key.number .blockRecord
      .ok ({ rolled with possibleKey := none, keyAllowed := false }.indicator .value)
  | none => do
      let rolled ← scanner.rollHere .blockRecord .misplacedValue
      return { rolled with keyAllowed := !rolled.inFlow }.indicator .value

def marker (scanner : Scanner) (token : Token) : Except ReadError Scanner := do
  let dropped ← (scanner.unroll 0).dropKey
  return { dropped.push token with keyAllowed := false, position := scanner.position.skipMany 3 }

def anchorName (scanner : Scanner) (token : String → Token) : Except ReadError Scanner := do
  let noted ← scanner.noteKey
  let (name, behind) := noted.position.skip.span isNameChar
  let ended := endsWord behind.rest ||
    behind.rest.head?.any fun char => "?:,]\x7d%@`".toList.contains char
  if name.isEmpty || !ended then throw .invalidAnchor
  return { noted.push (token (String.ofList name)) with keyAllowed := false, position := behind }

/-! ### Tags and directives -/

/-- Whether a character can occur in a tag.  Delimiters only can where the whole tag is
given. -/
def isTagChar (whole : Bool) (char : Char) : Bool :=
  isNameChar char || ";/?:@&=+$.!~*'()".toList.contains char ||
    (whole && ",[]".toList.contains char)

def tagText (whole : Bool) :
    (fuel : Nat) → (newestFirst : List Char) → Position →
      Except ReadError (List Char × Position)
  | 0, newestFirst, position => .ok (newestFirst.reverse, position)
  | fuel + 1, newestFirst, position =>
      match position.rest with
      | '%' :: first :: second :: _ =>
          match hexadecimal? [first, second] with
          | none => .error .invalidTag
          | some code =>
              if 128 ≤ code then .error .invalidTag
              else tagText whole fuel (Char.ofNat code :: newestFirst) (position.skipMany 3)
      | char :: _ =>
          if isTagChar whole char then tagText whole fuel (char :: newestFirst) position.skip
          else .ok (newestFirst.reverse, position)
      | [] => .ok (newestFirst.reverse, position)

def tagOf (position : Position) : Except ReadError (Token × Position) := do
  let length := position.rest.length
  match position.rest with
  | '!' :: '<' :: _ =>
      let (name, behind) ← tagText true length [] (position.skipMany 2)
      if name.isEmpty || behind.rest.head? != some '>' then throw .invalidTag
      return (.tag "" (String.ofList name), behind.skip)
  | _ =>
      let (name, behindName) := position.skip.span isNameChar
      if behindName.rest.head? = some '!' then
        let (suffix, behind) ← tagText false length [] behindName.skip
        if suffix.isEmpty then throw .invalidTag
        return (.tag (String.ofList ('!' :: name ++ ['!'])) (String.ofList suffix), behind)
      else
        let (suffix, behind) ← tagText false length [] position.skip
        if suffix.isEmpty then return (.tag "" "!", behind)
        else return (.tag "!" (String.ofList suffix), behind)

def tagMark (scanner : Scanner) : Except ReadError Scanner := do
  let noted ← scanner.noteKey
  let (token, behind) ← tagOf noted.position
  let ended := endsWord behind.rest || (noted.inFlow && behind.rest.head? = some ',')
  if !ended then throw .invalidTag
  return { noted.push token with keyAllowed := false, position := behind }

def versionNumber (position : Position) : Except ReadError (Nat × Position) :=
  let (digits, behind) := position.span Char.isDigit
  if digits.isEmpty || 9 < digits.length then .error .invalidDirective
  else .ok (digits.foldl (fun value digit => 10 * value + (digit.toNat - 48)) 0, behind)

def versionDirective (position : Position) : Except ReadError (Token × Position) := do
  let (major, behind) ← versionNumber position.skipBlanks
  if behind.rest.head? != some '.' then throw .invalidDirective
  let (minor, behind) ← versionNumber behind.skip
  return (.version major minor, behind)

def tagHandleDirective (position : Position) : Except ReadError (Token × Position) := do
  let start := position.skipBlanks
  if start.rest.head? != some '!' then throw .invalidDirective
  let (name, behindName) := start.skip.span isNameChar
  let closed := behindName.rest.head? = some '!'
  if !closed && !name.isEmpty then throw .invalidDirective
  let behindHandle := if closed then behindName.skip else behindName
  let handle := if closed then '!' :: name ++ ['!'] else ['!']
  if !behindHandle.rest.head?.any isBlank then throw .invalidDirective
  let (content, behind) ← tagText true behindHandle.rest.length [] behindHandle.skipBlanks
  if content.isEmpty || !endsWord behind.rest then throw .invalidDirective
  return (.tagDirective (String.ofList handle) (String.ofList content), behind)

def directive (scanner : Scanner) : Except ReadError Scanner := do
  let dropped ← (scanner.unroll 0).dropKey
  let (name, behindName) := dropped.position.skip.span isNameChar
  if !endsWord behindName.rest then throw .invalidDirective
  let (token, behind) ←
    match String.ofList name with
    | "YAML" => versionDirective behindName
    | "TAG" => tagHandleDirective behindName
    | _ => throw .invalidDirective
  let lineEnd := behind.skipBlanks.skipComment
  if !endsLine lineEnd.rest then throw .invalidDirective
  return { dropped.push token with keyAllowed := false, position := lineEnd.skipBreak }

/-! ### Scalars -/

def blockScalar (scanner : Scanner) (literal : Bool) : Except ReadError Scanner := do
  let dropped ← scanner.dropKey
  let (content, behind) ← block literal dropped.innerColumn dropped.position.skip
  return { dropped.push (.scalar content false) with keyAllowed := true, position := behind }

def quotedScalar (scanner : Scanner) (single : Bool) : Except ReadError Scanner := do
  let noted ← scanner.noteKey
  let (content, behind) ← quoted single noted.position.skip
  return { noted.push (.scalar content false) with keyAllowed := false, position := behind }

def plainScalar (scanner : Scanner) : Except ReadError Scanner := do
  let noted ← scanner.noteKey
  let found ← plain noted.inFlow noted.innerColumn noted.position
  return {
    noted.push (.scalar found.content true) with
    keyAllowed := found.broken
    position := found.behind }

def beginsPlain (scanner : Scanner) (char : Char) (rest : List Char) : Bool :=
  if char = '-' then !rest.head?.any isBlank
  else if char = '?' || char = ':' then !scanner.inFlow && !endsWord rest
  else !(isFlowIndicator char || "#&*!|>'\"%@`".toList.contains char)

def token (scanner : Scanner) (char : Char) (rest : List Char) : Except ReadError Scanner :=
  let flow := scanner.inFlow
  if scanner.position.column = 0 && char = '%' then scanner.directive
  else if scanner.position.atMarker then
    scanner.marker (if char = '-' then .documentStart else .documentEnd)
  else if char = '[' then scanner.openFlow .flowList
  else if char = '\x7b' then scanner.openFlow .flowRecord
  else if char = ']' then scanner.closeFlow .flowListEnd
  else if char = '\x7d' then scanner.closeFlow .flowRecordEnd
  else if char = ',' then scanner.flowEntry
  else if char = '-' && endsWord rest then scanner.blockEntry
  else if char = '?' && (flow || endsWord rest) then scanner.explicitKey
  else if char = ':' && (flow || endsWord rest) then scanner.valueMark
  else if char = '*' then scanner.anchorName .reference
  else if char = '&' then scanner.anchorName .anchor
  else if char = '!' then scanner.tagMark
  else if char = '|' && !flow then scanner.blockScalar true
  else if char = '>' && !flow then scanner.blockScalar false
  else if char = '\'' then scanner.quotedScalar true
  else if char = '"' then scanner.quotedScalar false
  else if isBlank char then .error .unexpectedCharacter
  else if scanner.beginsPlain char rest then scanner.plainScalar
  else .error .unexpectedCharacter

def tokensFrom : (fuel : Nat) → Scanner → Except ReadError (List Token)
  | 0, _ => .error .unexpectedCharacter
  | fuel + 1, scanner => do
      let arrived := toNextToken (scanner.position.rest.length + 1) scanner
      let refreshed ← arrived.dropStale
      let unrolled := refreshed.unroll (refreshed.position.column + 1)
      match unrolled.position.rest with
      | [] =>
          let ended ← (unrolled.unroll 0).dropKey
          return ended.newestFirst.reverse
      | char :: rest =>
          let next ← unrolled.token char rest
          tokensFrom fuel next

end Scanner

/-- The tokens of a text.  A mark of the byte order can stand in front of it. -/
def Token.ofText (text : String) : Except ReadError (List Token) :=
  let chars :=
    match text.toList with
    | '\ufeff' :: chars => chars
    | chars => chars
  if !chars.all isAllowed then .error .controlCharacter
  else Scanner.tokensFrom (chars.length + 2) { position := { rest := chars } }

end Highlighter.Data.Yaml

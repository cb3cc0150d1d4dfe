import Highlighter.Data.Yaml.Plain
import Highlighter.Data.Yaml.Token

/-!
# Reading YAML

A text with at most one document as a value.  Scalars that were written plainly keep
their spelling.
-/
namespace Highlighter.Data.Yaml

/-- The state of reading values: the tokens that follow, the values with names, and what
the handles of tags stand for.  A name whose value is still being read has none. -/
structure Reader where
  tokens : List Token
  anchors : List (String × Option Value) := []
  handles : List (String × String) := []

abbrev Read (α : Type) := StateT Reader (Except ReadError) α

namespace Read

def peek : Read (Option Token) := do
  return (← get).tokens.head?

def skip : Read Unit :=
  modify fun reader => { reader with tokens := reader.tokens.tail }

def atAny (tokens : List Token) : Read Bool := do
  return (← peek).all tokens.contains

def standardHandles : List (String × String) :=
  [("!", "!"), ("!!", "tag:yaml.org,2002:")]

def tagName (handle suffix : String) : Read String := do
  if handle.isEmpty then return suffix
  else
    match ((← get).handles ++ standardHandles).lookup handle with
    | some start => return start ++ suffix
    | none => throw .invalidTag

/-- What is written in front of a value: a name and a tag, in any order. -/
structure Properties where
  anchor : Option String := none
  tag : Option String := none

/-- Reads what is written in front of a value.  Tags that begin with `!` have a meaning of
their own and are not understood. -/
def properties : (fuel : Nat) → Properties → Read Properties
  | 0, found => return found
  | fuel + 1, found => do
      match ← peek with
      | some (.anchor name) =>
          if found.anchor.isSome then return found
          skip
          properties fuel { found with anchor := some name }
      | some (.tag handle suffix) =>
          if found.tag.isSome then return found
          skip
          let tag ← tagName handle suffix
          if tag.toList.head? = some '!' then throw .invalidTag
          properties fuel { found with tag := some tag }
      | _ => return found

def plainValue (content : String) : Value :=
  .scalar (resolve content) (some content)

def emptyValue : Value :=
  plainValue ""

/-- A scalar with a tag.  The tag can ask for a kind of scalar. -/
def taggedScalar (tag content : String) (isPlain : Bool) : Except ReadError Value :=
  let kept (scalar : Option Scalar) : Except ReadError Value :=
    match scalar with
    | some scalar => .ok (.scalar scalar (some content))
    | none => .error .invalidTag
  match tag with
  | "tag:yaml.org,2002:bool" => kept ((truthValue? content).map .boolean)
  | "tag:yaml.org,2002:int" => kept ((integer? content.toList).map .integer)
  | "tag:yaml.org,2002:float" => kept ((float? content).map .float)
  | "tag:yaml.org,2002:null" =>
      kept (if isNullWord content && !content.isEmpty then some .null else none)
  | _ => .ok (.scalar (.text content) (if isPlain then some content else none))

def scalarValue (tag : Option String) (content : String) (isPlain : Bool) : Read Value :=
  match tag with
  | some tag => liftM (taggedScalar tag content isPlain)
  | none => return if isPlain then plainValue content else .text content

def note (name : Option String) (value : Option Value) : Read Unit :=
  match name with
  | none => return
  | some name => modify fun reader => { reader with anchors := (name, value) :: reader.anchors }

mutual

/-- Reads a value.  `isBlock` tells whether indentation can show lists and records, and
`sameColumn` whether a list can begin at the column of the record around it. -/
def node : (fuel : Nat) → (isBlock sameColumn : Bool) → Read Value
  | 0, _, _ => throw .unexpectedToken
  | fuel + 1, isBlock, sameColumn => do
      if let some (.reference name) := ← peek then
        skip
        match (← get).anchors.lookup name with
        | some (some value) => return value
        | some none => throw .nestedTooDeep
        | none => throw .unknownAnchor
      let found ← properties 2 {}
      let value ← content fuel isBlock sameColumn found
      note found.anchor (some value)
      return value

def content : (fuel : Nat) → (isBlock sameColumn : Bool) → Properties → Read Value
  | 0, _, _, _ => throw .unexpectedToken
  | fuel + 1, isBlock, sameColumn, found => do
      let start ← peek
      match start with
      | some (.scalar content isPlain) =>
          skip
          scalarValue found.tag content isPlain
      | some .flowList =>
          skip
          note found.anchor none
          return .list (← flowItems fuel true)
      | some .flowRecord =>
          skip
          note found.anchor none
          return .record (← flowMembers fuel true)
      | start =>
          if sameColumn && start = some .blockEntry then
            note found.anchor none
            return .list (← columnItems fuel)
          else if isBlock && start = some .blockList then
            skip
            note found.anchor none
            return .list (← blockItems fuel)
          else if isBlock && start = some .blockRecord then
            skip
            note found.anchor none
            return .record (← blockMembers fuel)
          else if found.anchor.isSome || found.tag.isSome then
            scalarValue found.tag "" true
          else throw .unexpectedToken

def nodeUnless :
    (fuel : Nat) → (isBlock sameColumn : Bool) → (tokens : List Token) → Read Value
  | 0, _, _, _ => throw .unexpectedToken
  | fuel + 1, isBlock, sameColumn, tokens => do
      if ← atAny tokens then return emptyValue else node fuel isBlock sameColumn

def blockItems : (fuel : Nat) → Read (List Value)
  | 0 => throw .unexpectedToken
  | fuel + 1 => do
      match ← peek with
      | some .blockEntry =>
          skip
          let item ← nodeUnless fuel true false [.blockEntry, .blockEnd]
          return item :: (← blockItems fuel)
      | some .blockEnd =>
          skip
          return []
      | _ => throw .unexpectedToken

def columnItems : (fuel : Nat) → Read (List Value)
  | 0 => throw .unexpectedToken
  | fuel + 1 => do
      if (← peek) = some .blockEntry then
        skip
        let item ← nodeUnless fuel true false [.blockEntry, .key, .value, .blockEnd]
        return item :: (← columnItems fuel)
      else return []

def blockMembers : (fuel : Nat) → Read (List (Value × Value))
  | 0 => throw .unexpectedToken
  | fuel + 1 => do
      let ends : List Token := [.key, .value, .blockEnd]
      match ← peek with
      | some .key =>
          skip
          let key ← nodeUnless fuel true true ends
          let value ←
            if (← peek) = some .value then do
              skip
              nodeUnless fuel true true ends
            else pure emptyValue
          return (key, value) :: (← blockMembers fuel)
      | some .blockEnd =>
          skip
          return []
      | _ => throw .unexpectedToken

/-- Reads the items of a list between brackets.  A key makes an item a record with one
member. -/
def flowItems : (fuel : Nat) → (isFirst : Bool) → Read (List Value)
  | 0, _ => throw .unexpectedToken
  | fuel + 1, isFirst => do
      if (← peek) = some .flowListEnd then
        skip
        return []
      if !isFirst then
        if (← peek) != some .flowEntry then throw .unexpectedToken
        skip
      match ← peek with
      | some .flowListEnd =>
          skip
          return []
      | some .key =>
          skip
          let member ← flowPair fuel
          return .record [member] :: (← flowItems fuel false)
      | _ =>
          let item ← node fuel false false
          return item :: (← flowItems fuel false)

/-- Reads the only member of a record that is an item between brackets, behind the sign
for its key. -/
def flowPair : (fuel : Nat) → Read (Value × Value)
  | 0 => throw .unexpectedToken
  | fuel + 1 => do
      let key ← nodeUnless fuel false false [.value, .flowEntry, .flowListEnd]
      if (← peek) = some .value then
        skip
        let value ← nodeUnless fuel false false [.flowEntry, .flowListEnd]
        return (key, value)
      else return (key, emptyValue)

def flowMembers : (fuel : Nat) → (isFirst : Bool) → Read (List (Value × Value))
  | 0, _ => throw .unexpectedToken
  | fuel + 1, isFirst => do
      if (← peek) = some .flowRecordEnd then
        skip
        return []
      if !isFirst then
        if (← peek) != some .flowEntry then throw .unexpectedToken
        skip
      match ← peek with
      | some .flowRecordEnd =>
          skip
          return []
      | some .key =>
          skip
          let key ← nodeUnless fuel false false [.value, .flowEntry, .flowRecordEnd]
          let value ←
            if (← peek) = some .value then do
              skip
              nodeUnless fuel false false [.flowEntry, .flowRecordEnd]
            else pure emptyValue
          return (key, value) :: (← flowMembers fuel false)
      | _ =>
          let key ← node fuel false false
          return (key, emptyValue) :: (← flowMembers fuel false)

end

/-- Reads the directives in front of a document.  There is at most one version, and it
is 1.1 or 1.2. -/
def directives : (fuel : Nat) → (hasVersion : Bool) → Read Unit
  | 0, _ => return
  | fuel + 1, hasVersion => do
      match ← peek with
      | some (.version major minor) =>
          if hasVersion || major != 1 || (minor != 1 && minor != 2) then
            throw .invalidDirective
          skip
          directives fuel true
      | some (.tagDirective handle start) =>
          if ((← get).handles.lookup handle).isSome then throw .invalidDirective
          modify fun reader => { reader with handles := (handle, start) :: reader.handles }
          skip
          directives fuel hasVersion
      | _ => return

def documentEnds : (fuel : Nat) → Read Unit
  | 0 => return
  | fuel + 1 => do
      if (← peek) = some .documentEnd then
        skip
        documentEnds fuel

/-- Reads the only document.  No document at all is nothing. -/
def document (fuel : Nat) : Read Value := do
  if (← peek).isNone then return emptyValue
  let before := (← get).tokens.length
  directives fuel false
  let declared := (← get).tokens.length < before
  let explicit := (← peek) = some .documentStart
  if declared && !explicit then throw .invalidDirective
  if explicit then skip
  let value ←
    if explicit && (← atAny [.documentStart, .documentEnd]) then pure emptyValue
    else node fuel true false
  documentEnds fuel
  if (← peek).isSome then throw .severalDocuments
  return value

end Read

def nestingLimit : Nat :=
  128

mutual

def nestedWithin : (limit : Nat) → Value → Bool
  | _, .scalar _ _ => true
  | 0, _ => false
  | limit + 1, .list items => allNestedWithin limit items
  | limit + 1, .record members => membersNestedWithin limit members

def allNestedWithin : (limit : Nat) → List Value → Bool
  | _, [] => true
  | limit, item :: items => nestedWithin limit item && allNestedWithin limit items

def membersNestedWithin : (limit : Nat) → List (Value × Value) → Bool
  | _, [] => true
  | limit, (key, value) :: members =>
      nestedWithin limit key && nestedWithin limit value && membersNestedWithin limit members

end

def read (text : String) : Except ReadError Value := do
  let tokens ← Token.ofText text
  let (value, _) ← (Read.document (4 * tokens.length + 4)).run { tokens }
  if nestedWithin nestingLimit value then return value else throw .nestedTooDeep

end Highlighter.Data.Yaml

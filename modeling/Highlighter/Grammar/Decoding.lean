import Highlighter.Data.Yaml.Plain
import Highlighter.Grammar.Encoding
import Highlighter.Data.Word

/-!
# Grammars from data

A grammar read from a record.  Unknown members are ignored and known ones must
not be repeated; null stands for an attribute that is not set.  Where a text is asked
for *directly*, a scalar that was written plainly counts as the text it was written
as.  It does not where the form of the value decides what it means, nor below that.
-/
namespace Highlighter.Grammar

open Data (Value)

inductive DecodeError where
  | expectedText
  | expectedBoolean
  | expectedNumber
  | expectedList
  | expectedRecord
  | expectedPattern
  | expectedScope
  | expectedKeywords
  | expectedHook
  | expectedChild
  | expectedGroupNumber
  | expectedKey
  | repeatedMember (name : String)
  | tooManyItems
  deriving DecidableEq, Repr, Inhabited

namespace Decode

def text (direct : Bool) (value : Value) : Except DecodeError String :=
  match if direct then value.spelledText? else value.text? with
  | some text => .ok text
  | none => .error .expectedText

def boolean : Value → Except DecodeError Bool
  | .scalar (.boolean value) _ => .ok value
  | _ => .error .expectedBoolean

/-- The number that plain text stands for where a number is asked for directly. -/
def spelledNumber (spelling : String) : Except DecodeError Float :=
  match Data.Yaml.float? spelling with
  | some value => .ok value
  | none => .error .expectedNumber

/-- A number.  Integers have to fit into 64 bits. -/
def number (direct : Bool) : Value → Except DecodeError Float
  | .scalar scalar spelling =>
      match if direct then spelling else none with
      | some spelling => spelledNumber spelling
      | none =>
          match scalar with
          | .float value => .ok value
          | .integer value =>
              if -(Word.size 63 : Int) ≤ value && value < Word.size 64 then .ok (Float.ofInt value)
              else .error .expectedNumber
          | _ => .error .expectedNumber
  | _ => .error .expectedNumber

def optional {α : Type} (decode : Value → Except DecodeError α) (value : Value) :
    Except DecodeError (Option α) :=
  if value.isNull then .ok none else (decode value).map some

/-- The items of a list.  Directly, an empty plain scalar is an empty list. -/
def items (direct : Bool) : Value → Except DecodeError (List Value)
  | .list items => .ok items
  | .scalar _ (some "") => if direct then .ok [] else .error .expectedList
  | _ => .error .expectedList

/-- The members of a record.  Directly, an empty plain scalar is an empty record. -/
def members (direct : Bool) : Value → Except DecodeError (List (Value × Value))
  | .record members => .ok members
  | .scalar _ (some "") => if direct then .ok [] else .error .expectedRecord
  | _ => .error .expectedRecord

def texts (direct : Bool) (value : Value) : Except DecodeError (List String) := do
  (← items direct value).mapM (text direct)

def patternSpec (value : Value) : Except DecodeError PatternSpec :=
  match value with
  | .list items => (items.mapM (text false)).map .sequence
  | value => (text false value).map .source

def unsigned : List Char → List Char
  | '+' :: digits => digits
  | digits => digits

/-- The value of decimal digits behind an optional plus sign, below 2^64. -/
def natural? (chars : List Char) : Option Nat :=
  let digits := unsigned chars
  let value := digits.foldl (fun value digit => 10 * value + (digit.toNat - 48)) 0
  if digits.isEmpty || !digits.all Char.isDigit || Word.size 64 ≤ value then none else some value

def groupNumber : Value → Except DecodeError Nat
  | .scalar (.integer value) _ =>
      if 0 ≤ value && value < Word.size 64 then .ok value.toNat else .error .expectedGroupNumber
  | .scalar (.text name) _ =>
      match natural? name.toList with
      | some number => .ok number
      | none => .error .expectedGroupNumber
  | _ => .error .expectedGroupNumber

def scopeSpec (value : Value) : Except DecodeError ScopeSpec :=
  match value with
  | .record members => do
      let entries ← members.mapM fun member => do
        let number ← groupNumber member.1
        let scope ← text false member.2
        pure (number, scope)
      return .groups (.ofList entries)
  | value => (text false value).map .name

def wordList (value : Value) : Except DecodeError WordList :=
  match value with
  | .list items => (items.mapM (text false)).map .words
  | value => (text false value).map .spaced

/-- Adds a member of a record of keywords.  The pattern may be set once. -/
def keywordsMember (found : Bool × Keywords) (member : Value × Value) :
    Except DecodeError (Bool × Keywords) := do
  let (hasPattern, keywords) := found
  let name ← text false member.1
  if name == Keywords.patternName then
    if hasPattern then
      throw (.repeatedMember name)
    return (true, { keywords with pattern := ← optional (text false) member.2 })
  else
    return (hasPattern, keywords.withKind name (← wordList member.2))

/-- Keywords: words, or a record of words by kind. -/
def keywords (value : Value) : Except DecodeError Keywords :=
  match value with
  | .record members => (members.foldlM keywordsMember (false, {})).map Prod.snd
  | value => (wordList value).map .ofWords

def subLanguage (value : Value) : Except DecodeError SubLanguage :=
  match value with
  | .list items => (items.mapM (text false)).map .candidates
  | value => (text false value).map .one

/-- A hook: its name, or a record of its name and nothing. -/
def hook (value : Value) : Except DecodeError Hook :=
  let named (name : String) : Except DecodeError Hook :=
    match Hook.ofName? name with
    | some hook => .ok hook
    | none => .error .expectedHook
  match value with
  | .scalar (.text name) _ => named name
  | .record [(.scalar (.text name) _, .scalar .null _)] => named name
  | _ => .error .expectedHook

def hooks (direct : Bool) (value : Value) : Except DecodeError (List Hook) := do
  (← items direct value).mapM hook

/-- The attribute that a key names.  A key that is a number names an
attribute by its position. -/
def keyAttribute? (direct : Bool) (key : Value) : Except DecodeError (Option Attribute) :=
  match if direct then key.spelledText? else key.text? with
  | some name => .ok (Attribute.ofName? name)
  | none =>
      match key with
      | .scalar (.integer position) _ =>
          if 0 ≤ position then .ok Attribute.all[position.toNat]? else .error .expectedKey
      | _ => .error .expectedKey

def setPlain (direct : Bool) (mode : Mode) (which : Attribute) (value : Value) :
    Except DecodeError Mode := do
  match which with
  | .scope => return { mode with scope := ← optional scopeSpec value }
  | .className => return { mode with className := ← optional scopeSpec value }
  | .beginScope => return { mode with beginScope := ← optional scopeSpec value }
  | .endScope => return { mode with endScope := ← optional scopeSpec value }
  | .beginPattern => return { mode with beginPattern := ← optional patternSpec value }
  | .endPattern => return { mode with endPattern := ← optional patternSpec value }
  | .matchPattern => return { mode with matchPattern := ← optional patternSpec value }
  | .beginKeywords => return { mode with beginKeywords := ← optional (text direct) value }
  | .beforeMatch => return { mode with beforeMatch := ← optional (text direct) value }
  | .keywords => return { mode with keywords := ← optional keywords value }
  | .illegal => return { mode with illegal := ← optional patternSpec value }
  | .contains => throw .expectedList
  | .variants => throw .expectedList
  | .starts => throw .expectedRecord
  | .relevance => return { mode with relevance := ← optional (number direct) value }
  | .endsWithParent => return { mode with endsWithParent := ← optional boolean value }
  | .endsParent => return { mode with endsParent := ← optional boolean value }
  | .excludeBegin => return { mode with excludeBegin := ← optional boolean value }
  | .excludeEnd => return { mode with excludeEnd := ← optional boolean value }
  | .returnBegin => return { mode with returnBegin := ← optional boolean value }
  | .returnEnd => return { mode with returnEnd := ← optional boolean value }
  | .skip => return { mode with skip := ← optional boolean value }
  | .subLanguage => return { mode with subLanguage := ← optional subLanguage value }
  | .hooks => return { mode with hooks := ← optional (hooks direct) value }

mutual

/-- A mode: a record of attributes, or a list of their values in order. -/
def mode (direct : Bool) : Value → Except DecodeError Mode
  | .record members => modeMembers direct {} [] members
  | .list items => modeItems direct {} Attribute.all items
  | .scalar _ (some "") => if direct then .ok {} else .error .expectedRecord
  | .scalar _ _ => .error .expectedRecord

def modes (direct : Bool) : List Value → Except DecodeError (List Mode)
  | [] => .ok []
  | item :: rest => do
      let first ← mode direct item
      let others ← modes direct rest
      return first :: others

def child : Value → Except DecodeError (Child Mode)
  | .scalar (.text name) _ => .ok (if name == selfName then .self else .named name)
  | .scalar _ _ => .error .expectedChild
  | .record members => do return .inline (← modeMembers false {} [] members)
  | .list items => do return .inline (← modeItems false {} Attribute.all items)

def children : List Value → Except DecodeError (List (Child Mode))
  | [] => .ok []
  | item :: rest => do
      let first ← child item
      let others ← children rest
      return first :: others

/-- Sets attributes from the members of a record.  `seen` are those set before. -/
def modeMembers (direct : Bool) (mode : Mode) (seen : List Attribute) :
    List (Value × Value) → Except DecodeError Mode
  | [] => .ok mode
  | member :: rest => do
      let (mode, seen) ← modeMember direct mode seen member
      modeMembers direct mode seen rest

def modeMember (direct : Bool) (mode : Mode) (seen : List Attribute) :
    Value × Value → Except DecodeError (Mode × List Attribute)
  | (key, value) => do
      match ← keyAttribute? direct key with
      | none => return (mode, seen)
      | some which =>
          if seen.contains which then
            throw (.repeatedMember which.name)
          return (← setAttribute direct mode which value, which :: seen)

def modeItems (direct : Bool) (mode : Mode) (attributes : List Attribute) :
    List Value → Except DecodeError Mode
  | [] => .ok mode
  | item :: rest =>
      match attributes with
      | [] => .error .tooManyItems
      | which :: attributes => do
          let mode ← setAttribute direct mode which item
          modeItems direct mode attributes rest

def setAttribute (direct : Bool) (mode : Mode) (which : Attribute) :
    Value → Except DecodeError Mode
  | .record members =>
      match which with
      | .starts => do return { mode with starts := some (← modeMembers direct {} [] members) }
      | which => setPlain direct mode which (.record members)
  | .list items =>
      match which with
      | .contains => do return { mode with contains := some (← children items) }
      | .variants => do return { mode with variants := some (← modes direct items) }
      | .starts => do
          return { mode with starts := some (← modeItems direct {} Attribute.all items) }
      | which => setPlain direct mode which (.list items)
  | .scalar scalar spelling =>
      match which, scalar with
      | .contains, .null => .ok { mode with contains := none }
      | .variants, .null => .ok { mode with variants := none }
      | .starts, .null => .ok { mode with starts := none }
      | which, scalar => setPlain direct mode which (.scalar scalar spelling)

end

def textsByName (value : Value) : Except DecodeError (Dictionary String String) := do
  let entries ← (← members true value).mapM fun member => do
    let name ← text true member.1
    let item ← text true member.2
    pure (name, item)
  return .ofList entries

def modesByName (value : Value) : Except DecodeError (Dictionary String Mode) := do
  let entries ← (← members true value).mapM fun member => do
    let name ← text true member.1
    let item ← mode true member.2
    pure (name, item)
  return .ofList entries

def only? (names : List String) (members : List (String × Value)) :
    Except DecodeError (Option Value) :=
  match members.filter fun member => names.contains member.1 with
  | [] => .ok none
  | [member] => .ok (some member.2)
  | member :: _ => .error (.repeatedMember member.1)

def memberD {α : Type} (names : List String) (members : List (String × Value))
    (default : α) (decode : Value → Except DecodeError α) : Except DecodeError α := do
  match ← only? names members with
  | some value => decode value
  | none => return default

def definition (value : Value) : Except DecodeError Definition := do
  let members ← (← members true value).mapM fun member => do
    let name ← text true member.1
    pure (name, member.2)
  return {
    name := ← memberD ["name"] members "" (text true)
    aliases := ← memberD ["aliases"] members [] (texts true)
    caseInsensitive :=
      ← memberD ["caseInsensitive", "case_insensitive"] members false boolean
    disableAutodetect := ← memberD ["disableAutodetect"] members false boolean
    supersetOf := ← memberD ["supersetOf"] members none (optional (text true))
    scopeAliases := ← memberD ["scopeAliases", "classNameAliases"] members {} textsByName
    modes := ← memberD ["modes"] members {} modesByName
    root := ← modeMembers false {} [] (members.map fun member => (Value.text member.1, member.2)) }

end Decode

def Definition.decode (value : Value) : Except DecodeError Definition :=
  Decode.definition value

end Highlighter.Grammar

import Highlighter.Data.Toml.Scalar

/-!
# Reading TOML

A document consists of lines that set keys in tables.  No key and no table can be set
twice.
-/
namespace Highlighter.Data.Toml

/-! ### Tables -/

/-- How a table came about: because tables inside it were mentioned, by its own line, or
because of a key with dots. -/
inductive TableOrigin where
  | implied
  | header
  | dotted
  deriving DecidableEq, Repr, Inhabited

inductive Item where
  | value (content : Value)
  | table (origin : TableOrigin) (entries : List (String × Item))
  | tables (earlier : List Value) (entries : List (String × Item))
  deriving Repr, Inhabited

namespace Item

mutual

def toValue : Item → Value
  | .value content => content
  | .table _ entries => .object (entriesToValues entries)
  | .tables earlier entries => .list (earlier ++ [.object (entriesToValues entries)])

def entriesToValues : List (String × Item) → List (String × Value)
  | [] => []
  | (name, item) :: entries => (name, toValue item) :: entriesToValues entries

end

end Item

/-- The entries of a table, in the order in which they were set. -/
abbrev Entries := List (String × Item)

def setEntry (name : String) (item : Item) : Entries → Entries
  | [] => [(name, item)]
  | entry :: entries =>
      if entry.1 = name then (name, item) :: entries else entry :: setEntry name item entries

/-- Sets a value in a table.  Tables on the way must stem from keys with dots. -/
def setValue (value : Value) : (path : List String) → Entries → Except ReadError Entries
  | [], _ => .error .invalidKey
  | [name], entries =>
      match entries.lookup name with
      | some _ => .error (.repeatedKey name)
      | none => .ok (setEntry name (.value value) entries)
  | name :: path, entries =>
      match entries.lookup name with
      | none => do return setEntry name (.table .dotted (← setValue value path [])) entries
      | some (.table .dotted inner) => do
          return setEntry name (.table .dotted (← setValue value path inner)) entries
      | some _ => .error (.repeatedKey name)

def openTable : (path : List String) → Entries → Except ReadError Entries
  | [], _ => .error .invalidKey
  | [name], entries =>
      match entries.lookup name with
      | none => .ok (setEntry name (.table .header []) entries)
      | some (.table .implied inner) => .ok (setEntry name (.table .header inner) entries)
      | some _ => .error (.repeatedTable name)
  | name :: path, entries =>
      match entries.lookup name with
      | none => do return setEntry name (.table .implied (← openTable path [])) entries
      | some (.table origin inner) => do
          return setEntry name (.table origin (← openTable path inner)) entries
      | some (.tables earlier inner) => do
          return setEntry name (.tables earlier (← openTable path inner)) entries
      | some (.value _) => .error (.repeatedKey name)

def openNextTable : (path : List String) → Entries → Except ReadError Entries
  | [], _ => .error .invalidKey
  | [name], entries =>
      match entries.lookup name with
      | none => .ok (setEntry name (.tables [] []) entries)
      | some (.tables earlier inner) =>
          let last : Value := .object (Item.entriesToValues inner)
          .ok (setEntry name (.tables (earlier ++ [last]) []) entries)
      | some _ => .error (.repeatedTable name)
  | name :: path, entries =>
      match entries.lookup name with
      | none => do return setEntry name (.table .implied (← openNextTable path [])) entries
      | some (.table origin inner) => do
          return setEntry name (.table origin (← openNextTable path inner)) entries
      | some (.tables earlier inner) => do
          return setEntry name (.tables earlier (← openNextTable path inner)) entries
      | some (.value _) => .error (.repeatedKey name)

def inTable (change : Entries → Except ReadError Entries) :
    (path : List String) → Entries → Except ReadError Entries
  | [], entries => change entries
  | name :: path, entries =>
      match entries.lookup name with
      | some (.table origin inner) => do
          return setEntry name (.table origin (← inTable change path inner)) entries
      | some (.tables earlier inner) => do
          return setEntry name (.tables earlier (← inTable change path inner)) entries
      | _ => .error .invalidKey

/-! ### Keys and values -/

def skipBlanks : List Char → List Char
  | [] => []
  | char :: rest => if char = ' ' || char = '\t' then skipBlanks rest else char :: rest

def isKeyChar (char : Char) : Bool :=
  char.isAlphanum || char = '_' || char = '-'

/-- Reads one key.  Quotes around it are not tripled. -/
def key (text : List Char) : Except ReadError (String × List Char) :=
  match text with
  | '"' :: '"' :: '"' :: _ => .error .invalidKey
  | '\'' :: '\'' :: '\'' :: _ => .error .invalidKey
  | '"' :: _ => string '"' text
  | '\'' :: _ => string '\'' text
  | text =>
      let name := text.takeWhile isKeyChar
      if name.isEmpty then .error .invalidKey
      else .ok (String.ofList name, text.drop name.length)

def path : (fuel : Nat) → List Char → Except ReadError (List String × List Char)
  | 0, _ => .error .invalidKey
  | fuel + 1, text => do
      let (name, rest) ← key text
      match skipBlanks rest with
      | '.' :: rest => do
          let (names, rest) ← path fuel (skipBlanks rest)
          return (name :: names, rest)
      | rest => return ([name], rest)

def skipComment : List Char → List Char
  | '#' :: rest => rest.dropWhile fun char => char = '\t' || ' ' ≤ char
  | text => text

def skipLines : (fuel : Nat) → List Char → List Char
  | 0, text => text
  | fuel + 1, text =>
      match skipComment (skipBlanks text) with
      | '\n' :: rest => skipLines fuel rest
      | rest => rest

mutual

def value : (fuel : Nat) → List Char → Except ReadError (Value × List Char)
  | 0, _ => .error .unexpectedCharacter
  | fuel + 1, text =>
      match text with
      | '"' :: _ => do
          let (content, rest) ← string '"' text
          return (.text content, rest)
      | '\'' :: _ => do
          let (content, rest) ← string '\'' text
          return (.text content, rest)
      | '[' :: rest => do
          let (items, rest) ← items fuel rest
          return (.list items, rest)
      | '\x7b' :: rest => do
          match skipBlanks rest with
          | '\x7d' :: rest => return (.object [], rest)
          | rest => do
              let (entries, rest) ← inlineEntries fuel [] rest
              return (.object (Item.entriesToValues entries), rest)
      | text => bareScalar text

def items : (fuel : Nat) → List Char → Except ReadError (List Value × List Char)
  | 0, _ => .error .unexpectedCharacter
  | fuel + 1, text =>
      match skipLines (text.length + 1) text with
      | ']' :: rest => .ok ([], rest)
      | text => do
          let (first, rest) ← value fuel text
          match skipLines (rest.length + 1) rest with
          | ',' :: rest => do
              let (others, rest) ← items fuel rest
              return (first :: others, rest)
          | ']' :: rest => return ([first], rest)
          | _ => throw .unexpectedCharacter

def inlineEntries : (fuel : Nat) → Entries → List Char → Except ReadError (Entries × List Char)
  | 0, _, _ => .error .unexpectedCharacter
  | fuel + 1, entries, text => do
      let (names, rest) ← path (text.length + 1) (skipBlanks text)
      match skipBlanks rest with
      | '=' :: rest => do
          let (content, rest) ← value fuel (skipBlanks rest)
          let entries ← setValue content names entries
          match skipBlanks rest with
          | ',' :: rest => inlineEntries fuel entries rest
          | '\x7d' :: rest => return (entries, rest)
          | _ => throw .unexpectedCharacter
      | _ => throw .unexpectedCharacter

end

/-! ### Documents -/

def lineEnd (text : List Char) : Except ReadError (List Char) :=
  match skipComment (skipBlanks text) with
  | [] => .ok []
  | '\n' :: rest => .ok rest
  | _ => .error .unexpectedCharacter

def tablePath (closing : List Char) (text : List Char) :
    Except ReadError (List String × List Char) := do
  let (names, rest) ← path (text.length + 1) (skipBlanks text)
  if closing.isPrefixOf rest then return (names, ← lineEnd (rest.drop closing.length))
  else throw .unexpectedCharacter

/-- Reads lines.  `current` is the path of the open table. -/
def lines : (fuel : Nat) → (current : List String) → Entries → List Char →
    Except ReadError Entries
  | 0, _, _, _ => .error .unexpectedCharacter
  | fuel + 1, current, entries, text =>
      match skipLines (text.length + 1) text with
      | [] => .ok entries
      | '[' :: '[' :: rest => do
          let (names, rest) ← tablePath [']', ']'] rest
          lines fuel names (← openNextTable names entries) rest
      | '[' :: rest => do
          let (names, rest) ← tablePath [']'] rest
          lines fuel names (← openTable names entries) rest
      | text => do
          let (names, rest) ← path (text.length + 1) text
          match skipBlanks rest with
          | '=' :: rest => do
              let (content, rest) ← value (rest.length + 1) (skipBlanks rest)
              let rest ← lineEnd rest
              lines fuel current (← inTable (setValue content names) current entries) rest
          | _ => throw .unexpectedCharacter

def foldLineEnds : List Char → List Char
  | [] => []
  | '\r' :: '\n' :: rest => '\n' :: foldLineEnds rest
  | char :: rest => char :: foldLineEnds rest

/-- Reads a document.  A mark of the byte order can stand in front of it. -/
def read (text : String) : Except ReadError (List (String × Value)) := do
  let chars :=
    match foldLineEnds text.toList with
    | '\ufeff' :: chars => chars
    | chars => chars
  let entries ← lines (chars.length + 1) [] [] chars
  return Item.entriesToValues entries

end Highlighter.Data.Toml

import Highlighter.Data.Toml.Reading
import Highlighter.Decimal.Text
import Highlighter.Settings
import Highlighter.Text.Split
import Highlighter.Text.Words
import Highlighter.Unicode.LetterCase
import Highlighter.Data.Word

/-!
# Layers of settings

Settings come from several layers: what is built in, a file, environment variables, and
what is given explicitly.  For each setting the last layer that has it counts.
-/
namespace Highlighter.Settings

open Data (Value)

inductive LayerError where
  | missingFile
  | invalidFile
  | invalidValue (name : String)
  deriving DecidableEq, Repr, Inhabited

def LayerError.message : LayerError → String
  | .missingFile => "configuration file not found"
  | .invalidFile => "invalid configuration file"
  | .invalidValue name => "invalid value for key `" ++ name ++ "`"

abbrev Layer := List (String × Value)

def classPrefixName : String :=
  "class_prefix"

def safeModeName : String :=
  "safe_mode"

def candidatesName : String :=
  "autodetect_candidates"

namespace Layer

def ofToml (source : String) : Except LayerError Layer :=
  (Data.Toml.read source).mapError fun _ => .invalidFile

def variableStart : List Char :=
  "hilite_".toList

/-- A whole number that fits into 64 bits, with an optional sign. -/
def integer? (text : List Char) : Option Int :=
  let (negative, digits) :=
    match text with
    | '-' :: digits => (true, digits)
    | '+' :: digits => (false, digits)
    | digits => (false, digits)
  if digits.isEmpty || !digits.all Char.isDigit then none
  else
    let magnitude : Int := Decimal.valueOf digits
    let value := if negative then -magnitude else magnitude
    if -(Word.size 63 : Int) ≤ value && value < Word.size 63 then some value else none

/-- The value of an environment variable: a truth value, a number, for candidates a list,
or else text. -/
def variableValue (name value : String) : Value :=
  match Unicode.lowercase value with
  | "true" => .boolean true
  | "false" => .boolean false
  | _ =>
      match integer? value.toList with
      | some number => .integer number
      | none =>
          match Decimal.read? value with
          | some number => .float number
          | none =>
              if name = candidatesName then
                .list ((Text.splitOn ',' value.toList).map fun part => .text (String.ofList part))
              else .text value

/-- The layer of environment variables.  Their names are read in lower case. -/
def ofVariables (entries : List (String × String)) : Layer :=
  entries.filterMap fun entry => do
    let key ← Text.after? variableStart (Unicode.lowercase entry.1).toList
    let name := String.ofList key
    return (name, variableValue name entry.2)

structure Explicit where
  classPrefix : Option String := none
  safeMode : Option Bool := none
  autodetectCandidates : Option (List String) := none

def ofExplicit (given : Explicit) : Layer :=
  (given.classPrefix.toList.map fun text => (classPrefixName, Value.text text)) ++
    (given.safeMode.toList.map fun flag => (safeModeName, Value.boolean flag)) ++
    (given.autodetectCandidates.toList.map fun names =>
      (candidatesName, Value.list (names.map .text)))

end Layer

/-- Whether a value is a table without entries.  Tables are merged into what earlier layers
have, so that one changes nothing. -/
def isEmptyTable : Value → Bool
  | .record [] => true
  | _ => false

def lookup (layers : List Layer) (name : String) : Option Value :=
  (layers.flatten.reverse.filter fun entry => !isEmptyTable entry.2).lookup name

/-- A value as text.  Numbers and truth values are written out. -/
def textOf? : Value → Option String
  | .scalar (.text value) _ => some value
  | .scalar (.boolean value) _ => some (if value then "true" else "false")
  | .scalar (.integer value) _ =>
      some (Decimal.signed (value < 0) (Decimal.digitsOf value.natAbs))
  | .scalar (.float value) _ => some (Decimal.toText value)
  | _ => none

/-- A value as a truth value.  Numbers other than zero are true, and some words stand for
truth values. -/
def truthOf? : Value → Option Bool
  | .scalar (.boolean value) _ => some value
  | .scalar (.integer value) _ => some (value != 0)
  | .scalar (.float value) _ => some (value != 0.0)
  | .scalar (.text value) _ =>
      let word := Unicode.lowercase value
      if ["1", "true", "on", "yes"].contains word then some true
      else if ["0", "false", "off", "no"].contains word then some false
      else none
  | _ => none

def textsOf? : Value → Option (List String)
  | .list items => items.mapM textOf?
  | _ => none

/-- A setting, or what is built in if no layer has it. -/
def read {α : Type} (layers : List Layer) (name : String) (default : α)
    (convert? : Value → Option α) : Except LayerError α :=
  match lookup layers name with
  | none => .ok default
  | some value =>
      match convert? value with
      | some setting => .ok setting
      | none => .error (.invalidValue name)

/-- Names as they are looked up: without blanks around them and in lower case.  Blank names
are dropped. -/
def normalizeNames (names : List String) : List String :=
  (names.map fun name =>
    Unicode.lowercase (String.ofList (Text.trim name.toList))).filter fun name => !name.isEmpty

def ofLayers (layers : List Layer) : Except LayerError Settings := do
  let standard : Settings := {}
  let classPrefix ← read layers classPrefixName standard.classPrefix textOf?
  let safeMode ← read layers safeModeName standard.safeMode truthOf?
  let candidates ← read layers candidatesName standard.autodetectCandidates textsOf?
  return { classPrefix, safeMode, autodetectCandidates := normalizeNames candidates }

end Highlighter.Settings

import Highlighter.Data.Json.Reading
import Highlighter.Data.Json.Writing
import Highlighter.Data.Yaml.Reading
import Highlighter.File
import Highlighter.Grammar.Decoding

/-!
# Grammars from text

Grammars are read from JSON and YAML and written as JSON.
-/
namespace Highlighter.Grammar

inductive LoadError where
  | file (cause : FileError)
  | json
  | yaml
  | unsupportedFormat (extension : String)
  deriving DecidableEq, Repr, Inhabited

def LoadError.message : LoadError → String
  | .file cause => "IO error: " ++ cause.message
  | .json => "invalid JSON grammar: not a grammar"
  | .yaml => "invalid YAML grammar: not a grammar"
  | .unsupportedFormat extension =>
      "unsupported grammar file extension `" ++ extension ++ "`"

namespace Definition

def ofJson (source : String) : Except LoadError Definition :=
  match Data.Json.read source with
  | .error _ => .error .json
  | .ok document =>
      match decode document with
      | .error _ => .error .json
      | .ok definition => .ok definition

def ofYaml (source : String) : Except LoadError Definition :=
  match Data.Yaml.read source with
  | .error _ => .error .yaml
  | .ok document =>
      match decode document with
      | .error _ => .error .yaml
      | .ok definition => .ok definition

/-- A grammar from a file.  The extension tells the format, and a grammar without a name
is named after the file. -/
def ofFile (path : String) (content : Except FileError String) :
    Except LoadError Definition := do
  let source ← content.mapError .file
  let definition ←
    match File.extension path with
    | "json" => ofJson source
    | "yaml" => ofYaml source
    | "yml" => ofYaml source
    | extension => throw (.unsupportedFormat extension)
  if definition.name.isEmpty then
    return { definition with name := (File.stem? path).getD "" }
  else
    return definition

def toJson (definition : Definition) : String :=
  Data.Json.compact definition.serialize

def survivesRoundTrip (definition : Definition) : Bool :=
  match ofJson definition.toJson with
  | .ok read => definition.same read
  | .error _ => false

end Definition
end Highlighter.Grammar

import Highlighter.CommandLine.Help
import Highlighter.Data.Json.Writing
import Highlighter.Engine
import Highlighter.Grammar.Loading
import Highlighter.Scope.Encoding
import Highlighter.Settings.Layer

/-!
# The command line

What the program answers to a command line.  Files are read through a function that is
given, so that the answer is the same whether they lie on a disk or in memory.
-/
namespace Highlighter.CommandLine

/-- What the program answers: its exit code, and what it writes to its two outputs. -/
structure Response where
  code : Nat := 0
  output : String := ""
  errors : String := ""
  deriving DecidableEq, Repr, Inhabited

def Response.failure (message : String) : Response :=
  { code := 1, errors := message ++ "\n" }

def version : String :=
  "hilite 0.1.0\n"

abbrev FileReader (m : Type → Type) := String → m (Except FileError String)

variable {m : Type → Type} [Monad m]

/-- The text of a file with settings.  Its extension may be left out. -/
def readSettingsFile (reader : FileReader m) (path : String) : m (Except FileError String) := do
  match ← reader path with
  | .error .notFound => reader (path ++ ".toml")
  | content => return content

def fileLayer (reader : FileReader m) (path : Option String) :
    m (Except Settings.LayerError Settings.Layer) := do
  match path with
  | none => return .ok []
  | some path =>
      match ← readSettingsFile reader path with
      | .error .notFound => return .error .missingFile
      | .error .notText => return .error .invalidFile
      | .ok source => return Settings.Layer.ofToml source

/-- The settings for a command.  A strict one has no safe mode. -/
def settingsFor (reader : FileReader m) (environment : List (String × String))
    (common : Common) (strict : Bool) : m (Except Settings.LayerError Settings) := do
  let file ← fileLayer reader common.config
  let given : Settings.Layer.Explicit :=
    { classPrefix := common.classPrefix, safeMode := if strict then some false else none }
  return do
    let file ← file
    Settings.ofLayers [file, .ofVariables environment, .ofExplicit given]

def registerFiles (reader : FileReader m) :
    Engine → List String → m (Except (String × Grammar.LoadError) Engine)
  | engine, [] => return .ok engine
  | engine, path :: paths => do
      let content ← reader path
      match Grammar.Definition.ofFile path content with
      | .error cause => return .error (path, cause)
      | .ok definition =>
          let registry := engine.registry.register definition.name definition []
          registerFiles reader { engine with registry } paths

def formatted (format : Format) (result : Highlighted) : String :=
  match format with
  | .html => result.html
  | .tokens =>
      Data.Json.pretty (.list ((Scope.Token.ofTree result.tree).map Scope.Token.encode)) ++ "\n"
  | .tree => Data.Json.pretty result.tree.encode ++ "\n"

def highlightResponse (format : Format) : Except Failure Highlighted → Response
  | .error cause => .failure ("Highlight error: " ++ cause.message)
  | .ok result =>
      { output := formatted format result
        errors := (result.illegal.map fun illegal => illegal.message ++ "\n").getD "" }

def guessLine (label : String) (result : Highlighted) : String :=
  String.join
    [ padRight 7 label, " ", padRight 12 (result.language.getD "plaintext"), " relevance ",
      Decimal.toText result.relevance, "\n" ]

def detectResponse (detection : Detection) : Response where
  output :=
    guessLine "best" detection.best ++
      ((detection.runnerUp.map (guessLine "second")).getD "")

def grammarLine (engine : Engine) (name : String) : String :=
  let aliases := ((engine.registry.get? name).map Grammar.Definition.aliases).getD []
  let listed := String.intercalate ", " aliases
  if listed.isEmpty then "  " ++ name ++ "\n" else "  " ++ name ++ " (" ++ listed ++ ")\n"

def runCommand (reader : FileReader m) (engine : Engine) : Command → m Response
  | .highlight path language format _ reportIllegals => do
      match ← reader path with
      | .error cause => return .failure ("Error reading file: " ++ cause.message)
      | .ok source =>
          let options : Options := { ignoreIllegals := !reportIllegals }
          let result :=
            match language with
            | some language => engine.highlight source language options
            | none => .ok (engine.detect source none).best
          return highlightResponse format result
  | .detect path candidates => do
      match ← reader path with
      | .error cause => return .failure ("Error reading file: " ++ cause.message)
      | .ok source => return detectResponse (engine.detect source candidates)
  | .listGrammars =>
      return { output := String.join (engine.registry.names.map (grammarLine engine)) }

/-- Whether a command has to fail rather than fall back to plain text. -/
def Command.isStrict : Command → Bool
  | .highlight _ _ _ strict _ => strict
  | _ => false

def runWith (reader : FileReader m) (environment : List (String × String)) (common : Common)
    (command : Command) : m Response := do
  match ← settingsFor reader environment common command.isStrict with
  | .error cause => return .failure ("Error loading configuration: " ++ cause.message)
  | .ok settings =>
      match ← registerFiles reader { Engine.standard with settings } common.grammars with
      | .error (path, cause) =>
          return .failure ("Error loading grammar " ++ path ++ ": " ++ cause.message)
      | .ok engine => runCommand reader engine command

def run (reader : FileReader m) (environment : List (String × String))
    (arguments : List String) : m Response := do
  match Invocation.read arguments with
  | .error cause => return { code := 2, errors := "error: " ++ cause.message ++ "\n" }
  | .ok .version => return { output := version }
  | .ok (.help topic) => return { output := helpText topic }
  | .ok (.run common command) => runWith reader environment common command

end Highlighter.CommandLine

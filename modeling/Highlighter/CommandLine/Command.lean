import Highlighter.CommandLine.Option
import Highlighter.Text.Split

/-!
# Commands

What the program can be asked to do.
-/
namespace Highlighter.CommandLine

inductive Format where
  | html
  | tokens
  | tree
  deriving DecidableEq, Repr, Inhabited

namespace Format

def name : Format → String
  | .html => "html"
  | .tokens => "tokens"
  | .tree => "tree"

def all : List Format :=
  [.html, .tokens, .tree]

def ofName? (name : String) : Option Format :=
  all.find? fun format => format.name = name

end Format

inductive Command where
  | highlight (path : String) (language : Option String) (format : Format)
      (strict reportIllegals : Bool)
  | detect (path : String) (candidates : Option (List String))
  | listGrammars
  deriving DecidableEq, Repr, Inhabited

/-- What holds for all commands: a file with settings, the beginning of classes, and files
with grammars. -/
structure Common where
  config : Option String := none
  classPrefix : Option String := none
  grammars : List String := []
  deriving DecidableEq, Repr, Inhabited

/-- Something that help can be asked about: the program or one of its commands. -/
inductive Topic where
  | program
  | highlight
  | detect
  | listGrammars
  deriving DecidableEq, Repr, Inhabited

namespace Topic

def commands : List Topic :=
  [.highlight, .detect, .listGrammars]

def name : Topic → String
  | .program => "hilite"
  | .highlight => "highlight"
  | .detect => "detect"
  | .listGrammars => "list-grammars"

def summary : Topic → String
  | .program => "Grammar-driven syntax highlighting with language detection"
  | .highlight => "Highlight a file"
  | .detect => "Guess the language of a file"
  | .listGrammars => "List registered grammars"

def path? : Topic → Option String
  | .highlight => some "File to highlight"
  | .detect => some "File to inspect"
  | _ => none

end Topic

inductive Invocation where
  | run (common : Common) (command : Command)
  | help (topic : Topic)
  | version
  deriving DecidableEq, Repr, Inhabited

/-! ### Options -/

def helpOption : OptionSpec :=
  { name := "help", letter := some 'h', kind := .help, summary := "Print help" }

def versionOption : OptionSpec :=
  { name := "version", letter := some 'V', kind := .version, summary := "Print version" }

def commonOptions : List OptionSpec :=
  [ { name := "config"
      letter := some 'c'
      kind := .single []
      summary := "TOML file layered over the built-in configuration" },
    { name := "class-prefix"
      kind := .single []
      summary := "Prefix for HTML class names (default hljs-)" },
    { name := "grammar"
      letter := some 'g'
      kind := .repeated
      summary := String.join
        [ "Extra grammar file (.json, .yaml), registered under its `name` ",
          "(or file stem when unnamed); may be repeated" ] } ]

def ownOptions : Topic → List OptionSpec
  | .highlight =>
      [ { name := "language"
          letter := some 'l'
          kind := .single []
          summary := "Grammar name or alias; autodetected when omitted" },
        { name := "format"
          letter := some 'f'
          kind := .single (Format.all.map Format.name)
          summary := "Output format [default: html] [possible values: html, tokens, tree]" },
        { name := "strict"
          kind := .flag
          summary :=
            "Fail instead of falling back to plain text (also applies to autodetection)" },
        { name := "report-illegals"
          kind := .flag
          summary := "Stop at illegal lexemes and report them (autodetection always does)" } ]
  | .detect =>
      [ { name := "candidates"
          kind := .single []
          summary := "Comma-separated grammars to consider" } ]
  | _ => []

/-- All options that can stand behind a command, or in front of it for the program. -/
def optionsOf : Topic → List OptionSpec
  | .program => commonOptions ++ [helpOption, versionOption]
  | topic => ownOptions topic ++ commonOptions ++ [helpOption]

/-! ### Reading -/

/-- What is given for all commands.  What stands behind the command counts. -/
def commonOf (before behind : Given) : Common :=
  let chosen (name : String) : Option String := (behind.value? name).or (before.value? name)
  { config := chosen "config"
    classPrefix := chosen "class-prefix"
    grammars :=
      match behind.valuesOf "grammar" with
      | [] => before.valuesOf "grammar"
      | paths => paths }

def pathOf (given : Given) : Except Stop String :=
  match given.arguments with
  | [path] => .ok path
  | _ => .error (.usage (.missingArgument "path"))

def commandOf (topic : Topic) (given : Given) : Except Stop Command := do
  match topic with
  | .highlight =>
      let path ← pathOf given
      let language := given.value? "language"
      let format := ((given.value? "format").bind Format.ofName?).getD .html
      let reports := given.isSet "report-illegals"
      if reports && language.isNone then throw (.usage (.missingOption "language"))
      return .highlight path language format (given.isSet "strict") reports
  | .detect =>
      let path ← pathOf given
      let candidates := (given.value? "candidates").map fun names =>
        (Text.splitOn ',' names.toList).map String.ofList
      return .detect path candidates
  | .listGrammars => return .listGrammars
  | .program => throw (.usage .missingCommand)

def readCommand (before : Given) (topic : Topic) (arguments : List String) :
    Except UsageError Invocation :=
  let room := if topic.path?.isSome then 1 else 0
  let read := do
    let (given, _) ← readOptions (optionsOf topic) room false {} arguments
    let command ← commandOf topic given
    return Invocation.run (commonOf before given) command
  match read with
  | .ok invocation => .ok invocation
  | .error (.usage cause) => .error cause
  | .error _ => .ok (.help topic)

def topic? (name : String) : Option Topic :=
  Topic.commands.find? fun topic => topic.name = name

def readHelp : List String → Except UsageError Invocation
  | [] => .ok (.help .program)
  | [name] =>
      match topic? name with
      | some topic => .ok (.help topic)
      | none => .error (.unknownCommand name)
  | _ :: argument :: _ => .error (.unexpectedArgument argument)

def Invocation.read (arguments : List String) : Except UsageError Invocation :=
  match readOptions (optionsOf .program) 0 true {} arguments with
  | .error (.usage cause) => .error cause
  | .error .help => .ok (.help .program)
  | .error .version => .ok .version
  | .ok (_, none) => .error .missingCommand
  | .ok (before, some (name, rest)) =>
      if name = "help" then readHelp rest
      else
        match topic? name with
        | some topic => readCommand before topic rest
        | none => .error (.unknownCommand name)

end Highlighter.CommandLine

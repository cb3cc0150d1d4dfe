import Highlighter.CommandLine.Command
import Highlighter.Text.Words

/-!
# Help

Texts about the program and its commands, in lines of at most a hundred characters.
-/
namespace Highlighter.CommandLine

def lineLength : Nat :=
  100

def wrapWords (length : Nat) : (line : String) → List String → List String
  | line, [] => [line]
  | line, word :: words =>
      if line.isEmpty then wrapWords length word words
      else if line.length + 1 + word.length ≤ length then
        wrapWords length (line ++ " " ++ word) words
      else line :: wrapWords length word words

def padRight (length : Nat) (text : String) : String :=
  text ++ String.ofList (List.replicate (length - text.length) ' ')

/-- A row of a table with two columns, the first of a given length. -/
def helpRow (width : Nat) (row : String × String) : String :=
  let indent := String.ofList (List.replicate (width + 4) ' ')
  let lines := wrapWords (lineLength - width - 4) "" (Text.words row.2)
  "  " ++ padRight width row.1 ++ "  " ++ String.intercalate ("\n" ++ indent) lines ++ "\n"

def helpTable (heading : String) (rows : List (String × String)) : String :=
  let width := (rows.map fun row => row.1.length).foldl max 0
  String.join ((heading ++ ":\n") :: rows.map (helpRow width))

def optionUsage (spec : OptionSpec) : String :=
  let short :=
    match spec.letter with
    | some letter => "-" ++ String.singleton letter ++ ", "
    | none => "    "
  let value := if spec.kind.takesValue then " <" ++ spec.name ++ ">" else ""
  short ++ "--" ++ spec.name ++ value

def usageOf (topic : Topic) : String :=
  match topic with
  | .program => "hilite [OPTIONS] <COMMAND>"
  | topic =>
      "hilite " ++ topic.name ++ " [OPTIONS]" ++ (if topic.path?.isSome then " <path>" else "")

def commandRows : List (String × String) :=
  (Topic.commands.map fun topic => (topic.name, topic.summary)) ++
    [("help", "Print this message or the help of the given subcommand(s)")]

def helpText (topic : Topic) : String :=
  let commands :=
    match topic with
    | .program => helpTable "Commands" commandRows ++ "\n"
    | _ => ""
  let arguments :=
    match topic.path? with
    | some summary => helpTable "Arguments" [("<path>", summary)] ++ "\n"
    | none => ""
  let options := (optionsOf topic).map fun spec => (optionUsage spec, spec.summary)
  String.join
    [ topic.summary, "\n\nUsage: ", usageOf topic, "\n\n", commands, arguments,
      helpTable "Options" options ]

end Highlighter.CommandLine

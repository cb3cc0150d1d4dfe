/-!
# Options of a command line

Options have long names behind two dashes and can have letters behind one.  What follows
two dashes alone is never an option.
-/
namespace Highlighter.CommandLine

/-- What an option is for: it is set or not, it has a value once or several times, or it
asks for help or for the version. -/
inductive OptionKind where
  | flag
  | single (allowed : List String)
  | repeated
  | help
  | version
  deriving DecidableEq, Repr, Inhabited

def OptionKind.takesValue : OptionKind → Bool
  | .single _ => true
  | .repeated => true
  | _ => false

/-- An option.  If only some values are allowed, they are listed. -/
structure OptionSpec where
  name : String
  letter : Option Char := none
  kind : OptionKind
  summary : String
  deriving DecidableEq, Repr, Inhabited

inductive UsageError where
  | unexpectedArgument (argument : String)
  | missingValue (option : String)
  | unexpectedValue (option : String)
  | invalidValue (option value : String)
  | repeatedOption (option : String)
  | missingArgument (name : String)
  | missingOption (option : String)
  | unknownCommand (name : String)
  | missingCommand
  deriving DecidableEq, Repr, Inhabited

def UsageError.message : UsageError → String
  | .unexpectedArgument argument => "unexpected argument '" ++ argument ++ "' found"
  | .missingValue option => "a value is required for '--" ++ option ++ "' but none was supplied"
  | .unexpectedValue option => "unexpected value for '--" ++ option ++ "' found"
  | .invalidValue option value => "invalid value '" ++ value ++ "' for '--" ++ option ++ "'"
  | .repeatedOption option => "the argument '--" ++ option ++ "' cannot be used multiple times"
  | .missingArgument name =>
      "the following required arguments were not provided: <" ++ name ++ ">"
  | .missingOption option =>
      "the following required arguments were not provided: --" ++ option
  | .unknownCommand name => "unrecognized subcommand '" ++ name ++ "'"
  | .missingCommand => "a subcommand is required but one was not provided"

/-- Why reading a command line stopped: it is wrong, or it asks for help or the version. -/
inductive Stop where
  | usage (cause : UsageError)
  | help
  | version
  deriving DecidableEq, Repr, Inhabited

/-- What a command line gives: values of options and plain arguments, in order. -/
structure Given where
  flags : List String := []
  values : List (String × String) := []
  arguments : List String := []
  deriving DecidableEq, Repr, Inhabited

namespace Given

def value? (given : Given) (name : String) : Option String :=
  given.values.lookup name

def valuesOf (given : Given) (name : String) : List String :=
  (given.values.filter fun entry => entry.1 = name).map Prod.snd

def isSet (given : Given) (name : String) : Bool :=
  given.flags.contains name

def addValue (given : Given) (spec : OptionSpec) (value : String) : Except Stop Given :=
  let added := { given with values := given.values ++ [(spec.name, value)] }
  match spec.kind with
  | .single allowed =>
      if (given.value? spec.name).isSome then .error (.usage (.repeatedOption spec.name))
      else if !allowed.isEmpty && !allowed.contains value then
        .error (.usage (.invalidValue spec.name value))
      else .ok added
  | _ => .ok added

def addFlag (given : Given) (spec : OptionSpec) : Except Stop Given :=
  match spec.kind with
  | .help => .error .help
  | .version => .error .version
  | _ =>
      if given.isSet spec.name then .error (.usage (.repeatedOption spec.name))
      else .ok { given with flags := given.flags ++ [spec.name] }

def addArguments (given : Given) (room : Nat) : List String → Except Stop Given
  | [] => .ok given
  | argument :: rest =>
      if given.arguments.length < room then
        { given with arguments := given.arguments ++ [argument] }.addArguments room rest
      else .error (.usage (.unexpectedArgument argument))

end Given

/-- How an argument reads: two dashes alone, an option with a value attached or none, or a
plain word. -/
inductive Shape where
  | endOfOptions
  | long (name : String) (attached : Option String)
  | short (letter : Char) (attached : Option String)
  | word
  deriving DecidableEq, Repr, Inhabited

def Shape.of (argument : String) : Shape :=
  match argument.toList with
  | ['-', '-'] => .endOfOptions
  | '-' :: '-' :: rest =>
      match rest.dropWhile (· != '=') with
      | [] => .long (String.ofList rest) none
      | _ :: value =>
          .long (String.ofList (rest.takeWhile (· != '='))) (some (String.ofList value))
  | ['-', letter] => .short letter none
  | '-' :: letter :: '=' :: value => .short letter (some (String.ofList value))
  | '-' :: letter :: value => .short letter (some (String.ofList value))
  | _ => .word

/-- Whether an argument can be the value of the option before it. -/
def isWord (argument : String) : Bool :=
  Shape.of argument = .word

def option? (specs : List OptionSpec) : Shape → Option OptionSpec
  | .long name _ => specs.find? fun spec => spec.name = name
  | .short letter _ => specs.find? fun spec => spec.letter = some letter
  | _ => none

def Shape.attached? : Shape → Option String
  | .long _ attached => attached
  | .short _ attached => attached
  | _ => none

/-- Whether options are written with letters, to which others can be attached. -/
def Shape.isShort : Shape → Bool
  | .short _ _ => true
  | _ => false

/-- Reads options and plain arguments.  If `commands`, the first word is not read, but
returned with what follows it. -/
def readOptions (specs : List OptionSpec) (room : Nat) (commands : Bool) :
    Given → List String → Except Stop (Given × Option (String × List String))
  | given, [] => .ok (given, none)
  | given, argument :: rest =>
      let shape := Shape.of argument
      match shape with
      | .endOfOptions => do return (← given.addArguments room rest, none)
      | .word =>
          if commands then .ok (given, some (argument, rest))
          else do
            let given ← given.addArguments room [argument]
            readOptions specs room commands given rest
      | shape =>
          match option? specs shape with
          | none => .error (.usage (.unexpectedArgument argument))
          | some spec =>
              if spec.kind.takesValue then
                match shape.attached? with
                | some value => do
                    let given ← given.addValue spec value
                    readOptions specs room commands given rest
                | none =>
                    match rest with
                    | [] => .error (.usage (.missingValue spec.name))
                    | value :: others =>
                        if isWord value then do
                          let given ← given.addValue spec value
                          readOptions specs room commands given others
                        else .error (.usage (.missingValue spec.name))
              else if shape.attached?.isSome && !shape.isShort then
                .error (.usage (.unexpectedValue spec.name))
              else do
                let given ← given.addFlag spec
                readOptions specs room commands given rest

end Highlighter.CommandLine

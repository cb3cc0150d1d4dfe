import Highlighter.CommandLine

/-!
# The program

Reads files and environment variables, and writes what the command line answers.
-/
namespace Highlighter

def variableNames : List String :=
  ["HILITE_CLASS_PREFIX", "HILITE_SAFE_MODE", "HILITE_AUTODETECT_CANDIDATES"]

def readTextFile (path : String) : IO (Except FileError String) := do
  match ← (IO.FS.readBinFile path).toBaseIO with
  | .error _ => return .error .notFound
  | .ok bytes =>
      match String.fromUTF8? bytes with
      | some content => return .ok content
      | none => return .error .notText

def environment : IO (List (String × String)) :=
  variableNames.filterMapM fun name => do
    return (← IO.getEnv name).map fun value => (name, value)

end Highlighter

def main (arguments : List String) : IO UInt32 := do
  let environment ← Highlighter.environment
  let response ← Highlighter.CommandLine.run Highlighter.readTextFile environment arguments
  (← IO.getStdout).putStr response.output
  (← IO.getStderr).putStr response.errors
  return response.code.toUInt32

import Highlighter.Text.Split

/-!
# Files

The names of files, and why a file cannot be read.
-/
namespace Highlighter

/-- Why a file could not be read: there is none, or it is not text. -/
inductive FileError where
  | notFound
  | notText
  deriving DecidableEq, Repr, Inhabited

def FileError.message : FileError → String
  | .notFound => "No such file or directory"
  | .notText => "stream did not contain valid UTF-8"

namespace File

/-- The last part of a path, unless it stands for a directory by position. -/
def name? (path : String) : Option (List Char) :=
  let parts := (Text.splitOn '/' path.toList).filter fun part => part != [] && part != ['.']
  parts.getLast?.filter fun part => part != ['.', '.']

/-- The parts of a name in front of and behind its last dot.  A dot at the beginning does
not count. -/
def splitName (name : List Char) : List Char × Option (List Char) :=
  let backward := name.reverse
  match backward.dropWhile (· != '.') with
  | [] => (name, none)
  | [_] => (name, none)
  | _ :: front => (front.reverse, some (backward.takeWhile (· != '.')).reverse)

def stem? (path : String) : Option String :=
  (name? path).map fun name => String.ofList (splitName name).1

/-- The extension of a file in lower case; empty if there is none. -/
def extension (path : String) : String :=
  match (name? path).bind fun name => (splitName name).2 with
  | some extension => String.ofList (extension.map Char.toLower)
  | none => ""

end File
end Highlighter

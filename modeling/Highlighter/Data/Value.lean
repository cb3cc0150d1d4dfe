/-!
# Data

Documents of nested lists and records, as data formats describe them.
-/
namespace Highlighter.Data

inductive Scalar where
  | null
  | boolean (value : Bool)
  | integer (value : Int)
  | float (value : Float)
  | text (value : String)
  deriving Repr, Inhabited

/-- A value.  A scalar can have a spelling: the text it was written as, for
formats in which plain text can stand for other scalars.  Members of a record
stand in the order in which they were written, and keys can be repeated. -/
inductive Value where
  | scalar (value : Scalar) (spelling : Option String)
  | list (items : List Value)
  | record (members : List (Value × Value))
  deriving Repr, Inhabited

namespace Value

def null : Value :=
  .scalar .null none

def boolean (value : Bool) : Value :=
  .scalar (.boolean value) none

def integer (value : Int) : Value :=
  .scalar (.integer value) none

def float (value : Float) : Value :=
  .scalar (.float value) none

def text (value : String) : Value :=
  .scalar (.text value) none

def object (members : List (String × Value)) : Value :=
  .record (members.map fun member => (text member.1, member.2))

def text? : Value → Option String
  | .scalar (.text value) _ => some value
  | _ => none

/-- The text of a value where any scalar that was written plainly counts as
text. -/
def spelledText? : Value → Option String
  | .scalar (.text value) _ => some value
  | .scalar _ spelling => spelling
  | _ => none

def isNull : Value → Bool
  | .scalar .null _ => true
  | _ => false

/-- A number.  Numbers that are not finite are written as null. -/
def number (value : Float) : Value :=
  if value.isFinite then float value else null

mutual

/-- A value in which the members of records that are null are left out. -/
def withoutNulls : Value → Value
  | .scalar value spelling => .scalar value spelling
  | .list items => .list (eachWithoutNulls items)
  | .record members => .record (membersWithoutNulls members)

def eachWithoutNulls : List Value → List Value
  | [] => []
  | item :: items => withoutNulls item :: eachWithoutNulls items

def membersWithoutNulls : List (Value × Value) → List (Value × Value)
  | [] => []
  | (key, value) :: members =>
      if value.isNull then membersWithoutNulls members
      else (key, withoutNulls value) :: membersWithoutNulls members

end

end Value
end Highlighter.Data

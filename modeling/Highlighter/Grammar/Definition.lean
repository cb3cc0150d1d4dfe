import Highlighter.Grammar.Mode

/-!
# Grammars

A grammar as its author writes it: what it is called, how it takes part in
detecting languages, its named modes and the mode of the whole text.
-/
namespace Highlighter.Grammar

structure Definition where
  name : String := ""
  aliases : List String := []
  caseInsensitive : Bool := false
  disableAutodetect : Bool := false
  supersetOf : Option String := none
  scopeAliases : Dictionary String String := .empty
  modes : Dictionary String Mode := .empty
  root : Mode := {}

namespace Definition

instance : Inhabited Definition :=
  ⟨{}⟩

def sameModes : List (String × Mode) → List (String × Mode) → Bool
  | [], [] => true
  | left :: lefts, right :: rights =>
      left.1 == right.1 && left.2.same right.2 && sameModes lefts rights
  | _, _ => false

/-- Whether two grammars agree in everything, numbers being compared as numbers. -/
def same (left right : Definition) : Bool :=
  left.name == right.name && left.aliases == right.aliases &&
    left.caseInsensitive == right.caseInsensitive &&
    left.disableAutodetect == right.disableAutodetect &&
    left.supersetOf == right.supersetOf && left.scopeAliases == right.scopeAliases &&
    sameModes left.modes.entries right.modes.entries && left.root.same right.root

def withScopeAlias (definition : Definition) (scope renamed : String) : Definition :=
  { definition with scopeAliases := definition.scopeAliases.insert scope renamed }

def withMode (definition : Definition) (name : String) (mode : Mode) : Definition :=
  { definition with modes := definition.modes.insert name mode }

def withKeywords (definition : Definition) (keywords : Keywords) : Definition :=
  { definition with root := { definition.root with keywords := some keywords } }

def withIllegal (definition : Definition) (illegal : PatternSpec) : Definition :=
  { definition with root := { definition.root with illegal := some illegal } }

def withContains (definition : Definition) (children : List (Child Mode)) : Definition :=
  { definition with root := { definition.root with contains := some children } }

end Definition
end Highlighter.Grammar

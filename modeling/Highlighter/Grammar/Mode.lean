import Highlighter.Data.Dictionary

/-!
# Modes

A grammar is a tree of modes.  A mode says where it begins and ends, how its
text is labelled and which modes can begin inside it.  Every attribute is
optional, so that a mode can also stand for a change to another one.
-/
namespace Highlighter.Grammar

/-- A pattern source, or several of them.  At the beginning or end of a mode
they follow each other; what is illegal is any one of them. -/
inductive PatternSpec where
  | source (source : String)
  | sequence (parts : List String)
  deriving DecidableEq, Repr, Inhabited

/-- A scope for a whole match, or one for each numbered part of it. -/
inductive ScopeSpec where
  | name (scope : String)
  | groups (scopes : Dictionary Nat String)
  deriving DecidableEq, Inhabited

/-- Words, separated by blanks or one by one.  A word can carry its relevance
behind a bar. -/
inductive WordList where
  | spaced (words : String)
  | words (words : List String)
  deriving DecidableEq, Repr, Inhabited

/-- Words by kind, and the pattern that finds words in a text. -/
structure Keywords where
  pattern : Option String := none
  classes : Dictionary String WordList := .empty
  deriving DecidableEq, Inhabited

namespace Keywords

def withKind (keywords : Keywords) (kind : String) (words : WordList) : Keywords :=
  { keywords with classes := keywords.classes.insert kind words }

def withPattern (keywords : Keywords) (pattern : String) : Keywords :=
  { keywords with pattern := some pattern }

def ofWords (words : WordList) : Keywords :=
  ({} : Keywords).withKind "keyword" words

def ofString (words : String) : Keywords :=
  ofWords (.spaced words)

end Keywords

/-- The language of the text inside a mode: a given one, or the best of some.
Without candidates all languages are candidates. -/
inductive SubLanguage where
  | one (name : String)
  | candidates (names : List String)
  deriving DecidableEq, Repr, Inhabited

/-- Conditions that a match has to meet beyond its pattern. -/
inductive Hook where
  | ignoreIfPrecededByDot
  | onlyAtInputStart
  | endSameAsBegin
  deriving DecidableEq, Repr, Inhabited

/-- A mode that can begin inside another: that one itself, one of the grammar's
named modes, or one given in place. -/
inductive Child (α : Type) where
  | self
  | named (name : String)
  | inline (mode : α)
  deriving Inhabited

/-- A mode, or a change to a mode. -/
structure Mode where
  scope : Option ScopeSpec := none
  className : Option ScopeSpec := none
  beginScope : Option ScopeSpec := none
  endScope : Option ScopeSpec := none
  beginPattern : Option PatternSpec := none
  endPattern : Option PatternSpec := none
  matchPattern : Option PatternSpec := none
  beginKeywords : Option String := none
  beforeMatch : Option String := none
  keywords : Option Keywords := none
  illegal : Option PatternSpec := none
  contains : Option (List (Child Mode)) := none
  variants : Option (List Mode) := none
  starts : Option Mode := none
  relevance : Option Float := none
  endsWithParent : Option Bool := none
  endsParent : Option Bool := none
  excludeBegin : Option Bool := none
  excludeEnd : Option Bool := none
  returnBegin : Option Bool := none
  returnEnd : Option Bool := none
  skip : Option Bool := none
  subLanguage : Option SubLanguage := none
  hooks : Option (List Hook) := none

namespace Mode

instance : Inhabited Mode :=
  ⟨{}⟩

/-- A mode with changes: what the changes set takes the place of what the mode
sets. -/
def inherit (base changes : Mode) : Mode where
  scope := changes.scope.or base.scope
  className := changes.className.or base.className
  beginScope := changes.beginScope.or base.beginScope
  endScope := changes.endScope.or base.endScope
  beginPattern := changes.beginPattern.or base.beginPattern
  endPattern := changes.endPattern.or base.endPattern
  matchPattern := changes.matchPattern.or base.matchPattern
  beginKeywords := changes.beginKeywords.or base.beginKeywords
  beforeMatch := changes.beforeMatch.or base.beforeMatch
  keywords := changes.keywords.or base.keywords
  illegal := changes.illegal.or base.illegal
  contains := changes.contains.or base.contains
  variants := changes.variants.or base.variants
  starts := changes.starts.or base.starts
  relevance := changes.relevance.or base.relevance
  endsWithParent := changes.endsWithParent.or base.endsWithParent
  endsParent := changes.endsParent.or base.endsParent
  excludeBegin := changes.excludeBegin.or base.excludeBegin
  excludeEnd := changes.excludeEnd.or base.excludeEnd
  returnBegin := changes.returnBegin.or base.returnBegin
  returnEnd := changes.returnEnd.or base.returnEnd
  skip := changes.skip.or base.skip
  subLanguage := changes.subLanguage.or base.subLanguage
  hooks := changes.hooks.or base.hooks

def withHook (mode : Mode) (hook : Hook) : Mode :=
  { mode with hooks := some (mode.hooks.getD [] ++ [hook]) }

mutual

/-- The modes that a change to `base` stands for: itself, or one for each of its
variants. -/
def expandUnder (base : Mode) : Mode → List Mode
  | mode@{ variants := some (first :: others), .. } =>
      let merged := { base.inherit mode with variants := none }
      expandUnder merged first ++ expandEachUnder merged others
  | mode => [{ base.inherit mode with variants := none }]

/-- The modes that several changes to `base` stand for. -/
def expandEachUnder (base : Mode) : List Mode → List Mode
  | [] => []
  | mode :: modes => expandUnder base mode ++ expandEachUnder base modes

end

/-- The modes that a mode stands for, none of which has variants: each the mode
changed by a variant, by a variant of that, and so on. -/
def expand (mode : Mode) : List Mode :=
  expandUnder {} mode

def dependsOnParent : Mode → Bool
  | { endsWithParent, starts := none, .. } => endsWithParent.getD false
  | { endsWithParent, starts := some next, .. } =>
      endsWithParent.getD false || dependsOnParent next

def sameNumber : Option Float → Option Float → Bool
  | none, none => true
  | some left, some right => left == right
  | _, _ => false

/-- Whether two modes agree in all attributes but those that hold modes. -/
def sameAttributes (left right : Mode) : Bool :=
  left.scope == right.scope && left.className == right.className &&
    left.beginScope == right.beginScope && left.endScope == right.endScope &&
    left.beginPattern == right.beginPattern && left.endPattern == right.endPattern &&
    left.matchPattern == right.matchPattern && left.beginKeywords == right.beginKeywords &&
    left.beforeMatch == right.beforeMatch && left.keywords == right.keywords &&
    left.illegal == right.illegal && sameNumber left.relevance right.relevance &&
    left.endsWithParent == right.endsWithParent && left.endsParent == right.endsParent &&
    left.excludeBegin == right.excludeBegin && left.excludeEnd == right.excludeEnd &&
    left.returnBegin == right.returnBegin && left.returnEnd == right.returnEnd &&
    left.skip == right.skip && left.subLanguage == right.subLanguage &&
    left.hooks == right.hooks

mutual

/-- Whether two modes agree in everything, numbers being compared as numbers. -/
def same : Mode → Mode → Bool
  | left@{ contains, variants, starts, .. }, right =>
      sameAttributes left right && sameContains contains right.contains &&
        sameVariants variants right.variants && sameStarts starts right.starts

def sameStarts : Option Mode → Option Mode → Bool
  | none, none => true
  | some left, some right => same left right
  | _, _ => false

def sameVariants : Option (List Mode) → Option (List Mode) → Bool
  | none, none => true
  | some left, some right => sameEach left right
  | _, _ => false

def sameEach : List Mode → List Mode → Bool
  | [], [] => true
  | left :: lefts, right :: rights => same left right && sameEach lefts rights
  | _, _ => false

def sameContains : Option (List (Child Mode)) → Option (List (Child Mode)) → Bool
  | none, none => true
  | some left, some right => sameChildren left right
  | _, _ => false

def sameChildren : List (Child Mode) → List (Child Mode) → Bool
  | [], [] => true
  | left :: lefts, right :: rights => sameChild left right && sameChildren lefts rights
  | _, _ => false

def sameChild : Child Mode → Child Mode → Bool
  | .self, .self => true
  | .named left, .named right => left == right
  | .inline left, .inline right => same left right
  | _, _ => false

end

end Mode
end Highlighter.Grammar

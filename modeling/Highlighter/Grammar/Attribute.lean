/-!
# Attributes of modes

The names under which the attributes of a mode are written, in their order.
-/
namespace Highlighter.Grammar

inductive Attribute where
  | scope
  | className
  | beginScope
  | endScope
  | beginPattern
  | endPattern
  | matchPattern
  | beginKeywords
  | beforeMatch
  | keywords
  | illegal
  | contains
  | variants
  | starts
  | relevance
  | endsWithParent
  | endsParent
  | excludeBegin
  | excludeEnd
  | returnBegin
  | returnEnd
  | skip
  | subLanguage
  | hooks
  deriving DecidableEq, Repr, Inhabited

namespace Attribute

def name : Attribute → String
  | .scope => "scope"
  | .className => "className"
  | .beginScope => "beginScope"
  | .endScope => "endScope"
  | .beginPattern => "begin"
  | .endPattern => "end"
  | .matchPattern => "match"
  | .beginKeywords => "beginKeywords"
  | .beforeMatch => "beforeMatch"
  | .keywords => "keywords"
  | .illegal => "illegal"
  | .contains => "contains"
  | .variants => "variants"
  | .starts => "starts"
  | .relevance => "relevance"
  | .endsWithParent => "endsWithParent"
  | .endsParent => "endsParent"
  | .excludeBegin => "excludeBegin"
  | .excludeEnd => "excludeEnd"
  | .returnBegin => "returnBegin"
  | .returnEnd => "returnEnd"
  | .skip => "skip"
  | .subLanguage => "subLanguage"
  | .hooks => "hooks"

/-- All attributes, in the order in which a list of values sets them. -/
def all : List Attribute :=
  [.scope, .className, .beginScope, .endScope, .beginPattern, .endPattern, .matchPattern,
    .beginKeywords, .beforeMatch, .keywords, .illegal, .contains, .variants, .starts,
    .relevance, .endsWithParent, .endsParent, .excludeBegin, .excludeEnd, .returnBegin,
    .returnEnd, .skip, .subLanguage, .hooks]

def ofName? (name : String) : Option Attribute :=
  all.find? fun candidate => candidate.name == name

end Attribute
end Highlighter.Grammar

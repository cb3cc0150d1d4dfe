import Highlighter.Data.Value
import Highlighter.Decimal.Text
import Highlighter.Grammar.Attribute
import Highlighter.Grammar.Definition

/-!
# Grammars as data

A grammar as a record.  Attributes that are not set are null, the root mode's
attributes stand beside those of the grammar, and the kinds of keywords beside
their pattern.  Where a grammar is shown, what is null is left out.
-/
namespace Highlighter.Grammar

open Data (Value)

def encodeTexts (texts : List String) : Value :=
  .list (texts.map .text)

namespace PatternSpec

def encode : PatternSpec → Value
  | .source text => .text text
  | .sequence parts => encodeTexts parts

end PatternSpec

namespace ScopeSpec

def groupName (number : Nat) : String :=
  String.ofList (Decimal.digitsOf number)

def encode : ScopeSpec → Value
  | .name scope => .text scope
  | .groups scopes =>
      .object (scopes.entries.map fun entry => (groupName entry.1, .text entry.2))

end ScopeSpec

namespace WordList

def encode : WordList → Value
  | .spaced text => .text text
  | .words texts => encodeTexts texts

end WordList

namespace Keywords

def patternName : String :=
  "$pattern"

def encode (keywords : Keywords) : Value :=
  let pattern := keywords.pattern.toList.map fun source => (patternName, Value.text source)
  let kinds := keywords.classes.entries.map fun entry => (entry.1, entry.2.encode)
  .object (pattern ++ kinds)

end Keywords

namespace SubLanguage

def encode : SubLanguage → Value
  | .one name => .text name
  | .candidates names => encodeTexts names

end SubLanguage

namespace Hook

def name : Hook → String
  | .ignoreIfPrecededByDot => "ignoreIfPrecededByDot"
  | .onlyAtInputStart => "onlyAtInputStart"
  | .endSameAsBegin => "endSameAsBegin"

def ofName? (name : String) : Option Hook :=
  [.ignoreIfPrecededByDot, .onlyAtInputStart, .endSameAsBegin].find? fun hook =>
    hook.name == name

def encode (hook : Hook) : Value :=
  .text hook.name

end Hook

def member (which : Attribute) (value : Option Value) : String × Value :=
  (which.name, value.getD .null)

/-- The name that stands for the mode around a child. -/
def selfName : String :=
  "self"

namespace Mode

mutual

def members : Mode → List (String × Value)
  | { scope, className, beginScope, endScope, beginPattern, endPattern, matchPattern,
      beginKeywords, beforeMatch, keywords, illegal, contains, variants, starts, relevance,
      endsWithParent, endsParent, excludeBegin, excludeEnd, returnBegin, returnEnd, skip,
      subLanguage, hooks } =>
      [ member .scope (scope.map ScopeSpec.encode),
        member .className (className.map ScopeSpec.encode),
        member .beginScope (beginScope.map ScopeSpec.encode),
        member .endScope (endScope.map ScopeSpec.encode),
        member .beginPattern (beginPattern.map PatternSpec.encode),
        member .endPattern (endPattern.map PatternSpec.encode),
        member .matchPattern (matchPattern.map PatternSpec.encode),
        member .beginKeywords (beginKeywords.map Value.text),
        member .beforeMatch (beforeMatch.map Value.text),
        member .keywords (keywords.map Keywords.encode),
        member .illegal (illegal.map PatternSpec.encode),
        member .contains (encodeContains contains),
        member .variants (encodeVariants variants),
        member .starts (encodeStarts starts),
        member .relevance (relevance.map Value.number),
        member .endsWithParent (endsWithParent.map Value.boolean),
        member .endsParent (endsParent.map Value.boolean),
        member .excludeBegin (excludeBegin.map Value.boolean),
        member .excludeEnd (excludeEnd.map Value.boolean),
        member .returnBegin (returnBegin.map Value.boolean),
        member .returnEnd (returnEnd.map Value.boolean),
        member .skip (skip.map Value.boolean),
        member .subLanguage (subLanguage.map SubLanguage.encode),
        member .hooks (hooks.map fun hooks => .list (hooks.map Hook.encode)) ]

def encodeContains : Option (List (Child Mode)) → Option Value
  | none => none
  | some children => some (.list (encodeChildren children))

def encodeChildren : List (Child Mode) → List Value
  | [] => []
  | child :: children => encodeChild child :: encodeChildren children

def encodeChild : Child Mode → Value
  | .self => .text selfName
  | .named name => .text name
  | .inline mode => .object (members mode)

def encodeVariants : Option (List Mode) → Option Value
  | none => none
  | some modes => some (.list (encodeEach modes))

def encodeEach : List Mode → List Value
  | [] => []
  | mode :: modes => .object (members mode) :: encodeEach modes

def encodeStarts : Option Mode → Option Value
  | none => none
  | some mode => some (.object (members mode))

end

def serialize (mode : Mode) : Value :=
  .object mode.members

def encode (mode : Mode) : Value :=
  mode.serialize.withoutNulls

end Mode

namespace Definition

/-- The members of the record of a grammar that are not those of its root mode. -/
def ownMembers (definition : Definition) : List (String × Value) :=
  [ ("name", .text definition.name),
    ("aliases", encodeTexts definition.aliases),
    ("caseInsensitive", .boolean definition.caseInsensitive),
    ("disableAutodetect", .boolean definition.disableAutodetect),
    ("supersetOf", (definition.supersetOf.map Value.text).getD .null),
    ("scopeAliases",
      .object (definition.scopeAliases.entries.map fun entry => (entry.1, .text entry.2))),
    ("modes",
      .object (definition.modes.entries.map fun entry => (entry.1, entry.2.serialize))) ]

def serialize (definition : Definition) : Value :=
  .object (definition.ownMembers ++ definition.root.members)

def encode (definition : Definition) : Value :=
  definition.serialize.withoutNulls

end Definition
end Highlighter.Grammar

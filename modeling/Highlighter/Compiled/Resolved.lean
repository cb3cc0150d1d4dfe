import Highlighter.Compiled.Error
import Highlighter.Grammar.Mode
import Highlighter.Pattern.Source
import Highlighter.Text.Words

/-!
# Modes without shorthands

Several attributes of a mode are shorthands for others: the older name of the scope,
a pattern for the whole mode, text that has to come before, scopes for the parts of a
pattern, keywords that begin the mode, and several illegal patterns.
-/
namespace Highlighter.Compiled

open Grammar (Hook Keywords Mode PatternSpec ScopeSpec)

/-- How the text at one end of a mode is labelled: as a whole, or in parts by
the numbers of their groups.  A part without a scope is searched for keywords. -/
inductive BoundaryScope where
  | whole (scope : String)
  | parts (scopes : List (Nat × Option String))
  deriving DecidableEq, Repr, Inhabited

/-- A mode whose shorthands are resolved; `rest` holds the other attributes. -/
structure Resolved where
  scope : Option String
  beginScope : Option BoundaryScope
  endScope : Option BoundaryScope
  beginSource : Option String
  endSource : Option String
  illegal : Option String
  keywords : Option Keywords
  hooks : List Hook
  rest : Mode

namespace Resolved

/-- The older name of the scope counts before the newer one. -/
def resolveClassName (mode : Mode) : Mode :=
  { mode with scope := mode.className.or mode.scope, className := none }

/-- A pattern for the whole mode is its beginning, and it has no other. -/
def resolveMatch (mode : Mode) : Except CompileError Mode :=
  match mode.matchPattern with
  | none => .ok mode
  | some pattern =>
      if mode.beginPattern.isSome || mode.endPattern.isSome then
        .error .matchWithBeginEnd
      else
        .ok { mode with beginPattern := some pattern, matchPattern := none }

def sourceOf : PatternSpec → String
  | .source source => source
  | .sequence parts => Pattern.joinCapturing "" parts

/-- What has to come before a mode becomes a mode of its own, which begins where
the other one follows and starts a mode in which only that can begin. -/
def resolveBeforeMatch (mode : Mode) : Except CompileError Mode :=
  match mode.beforeMatch with
  | none => .ok mode
  | some before =>
      if mode.starts.isSome then
        .error .beforeMatchWithStarts
      else
        let source := (mode.beginPattern.map sourceOf).getD ""
        let inner := { mode with beforeMatch := none, endsParent := some true }
        .ok {
          keywords := mode.keywords
          beginPattern := some (.source (Pattern.concat [before, Pattern.lookahead source]))
          starts := some { relevance := some 0.0, contains := some [.inline inner] }
          relevance := some 0.0 }

/-- The numbers of the groups of the parts of a sequence, with their scopes. -/
def partScopes (scopes : Dictionary Nat String) (renamed : String → String) :
    (part before : Nat) → List String → List (Nat × Option String)
  | _, _, [] => []
  | part, before, source :: sources =>
      (part + before, (scopes.get? part).map renamed) ::
        partScopes scopes renamed (part + 1) (before + Pattern.countGroups source) sources

/-- The pattern for one end of a mode and the scope of what it matches. -/
def resolveBoundary (boundary : Boundary) (pattern : Option PatternSpec)
    (scope : Option ScopeSpec) (hasIncompatibleFlags : Bool) (renamed : String → String) :
    Except CompileError (Option String × Option BoundaryScope) :=
  match pattern, scope with
  | some (.sequence parts), scope =>
      if hasIncompatibleFlags then
        .error (.partScopes boundary .incompatibleFlags)
      else
        match scope with
        | some (.groups scopes) =>
            .ok (some (Pattern.joinCapturing "" parts),
              some (.parts (partScopes scopes renamed 1 0 parts)))
        | _ => .error (.partScopes boundary .missingScopes)
  | some (.source _), some (.groups _) => .error (.partScopes boundary .missingSequence)
  | some (.source source), some (.name scope) => .ok (some source, some (.whole (renamed scope)))
  | some (.source source), none => .ok (some source, none)
  | none, some (.name scope) => .ok (none, some (.whole (renamed scope)))
  | none, _ => .ok (none, none)

def isSet (flag : Option Bool) : Bool :=
  flag.getD false

def keywordSource (words : String) : String :=
  "\\b(" ++ Pattern.joinWith "|" (Text.words words) ++ ")(?!\\.)(?=\\b|\\s)"

def illegalSource : PatternSpec → String
  | .source source => source
  | .sequence parts => Pattern.either parts

/-- Resolves the shorthands of a mode.  Words that begin a mode count only if it
has a parent. -/
def ofMode (mode : Mode) (hasParent : Bool) (aliases : Dictionary String String) :
    Except CompileError Resolved := do
  let mode ← resolveBeforeMatch (← resolveMatch (resolveClassName mode))
  let renamed (scope : String) : String := (aliases.get? scope).getD scope
  let (scope, beginScope) :=
    match mode.scope with
    | some (.name scope) => (some (renamed scope), mode.beginScope)
    | some (.groups scopes) => (none, some (.groups scopes))
    | none => (none, mode.beginScope)
  let (beginSource, beginScope) ←
    resolveBoundary .beginning mode.beginPattern beginScope
      (isSet mode.skip || isSet mode.excludeBegin || isSet mode.returnBegin) renamed
  let (endSource, endScope) ←
    resolveBoundary .ending mode.endPattern mode.endScope
      (isSet mode.skip || isSet mode.excludeEnd || isSet mode.returnEnd) renamed
  let hooks := mode.hooks.getD []
  let words := if hasParent then mode.beginKeywords else none
  return {
    scope
    beginScope
    endScope
    beginSource := (words.map keywordSource).or beginSource
    endSource
    illegal := mode.illegal.map illegalSource
    keywords := mode.keywords.or (words.map Keywords.ofString)
    hooks := if words.isSome then .ignoreIfPrecededByDot :: hooks else hooks
    rest := mode }

end Resolved
end Highlighter.Compiled

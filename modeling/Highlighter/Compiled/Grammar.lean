import Highlighter.Compiled.KeywordTable
import Highlighter.Compiled.Matcher
import Highlighter.Compiled.Resolved
import Highlighter.Grammar.Definition

/-!
# Compiled grammars

Compiling a grammar numbers its modes and replaces what they contain by numbers, so
that modes can contain themselves and each other: a mode gets its number before its
children are compiled.  A named mode is compiled once, or if it depends on the mode
around it, once for each end that mode can have.
-/
namespace Highlighter.Compiled

open Grammar (Child Definition Hook Mode SubLanguage)

structure Flags where
  endsWithParent : Bool
  endsParent : Bool
  excludeBegin : Bool
  excludeEnd : Bool
  returnBegin : Bool
  returnEnd : Bool
  skip : Bool
  deriving DecidableEq, Repr, Inhabited

def Flags.ofMode (mode : Mode) : Flags where
  endsWithParent := Resolved.isSet mode.endsWithParent
  endsParent := Resolved.isSet mode.endsParent
  excludeBegin := Resolved.isSet mode.excludeBegin
  excludeEnd := Resolved.isSet mode.excludeEnd
  returnBegin := Resolved.isSet mode.returnBegin
  returnEnd := Resolved.isSet mode.returnEnd
  skip := Resolved.isSet mode.skip

/-- A mode that has its number.  `terminator` is the source of what ends it: its
own end and, if it ends with its parent, what ends that. -/
structure Draft where
  scope : Option String
  beginScope : Option BoundaryScope
  endScope : Option BoundaryScope
  beginSource : String
  endRegex : Option Regex
  terminator : String
  illegal : Option String
  keywords : Option KeywordTable
  contains : List Nat
  starts : Option Nat
  relevance : Option Float
  flags : Flags
  subLanguage : Option SubLanguage
  hooks : List Hook
  parent : Option Nat

namespace Draft

def score (draft : Draft) : Float :=
  draft.relevance.getD 0.0

def countsEmbedded (draft : Draft) : Bool :=
  match draft.relevance with
  | none => true
  | some relevance => relevance > 0.0

end Draft

def Draft.inert : Draft where
  scope := none
  beginScope := none
  endScope := none
  beginSource := ""
  endRegex := none
  terminator := ""
  illegal := none
  keywords := none
  contains := []
  starts := none
  relevance := none
  flags := default
  subLanguage := none
  hooks := []
  parent := none

structure CompiledMode extends Draft where
  matcher : Matcher

def CompiledMode.inert : CompiledMode :=
  { Draft.inert with matcher := .empty }

/-- A compiled grammar.  The mode of the whole text has number 0. -/
structure CompiledGrammar where
  name : String
  aliases : List String
  caseInsensitive : Bool
  disableAutodetect : Bool
  supersetOf : Option String
  modes : Array CompiledMode

/-- The source of what begins or ends a mode that does not say: any place. -/
def anyPlace : String :=
  "\\B|\\b"

def nestingLimit : Nat :=
  64

/-- What a mode contains and starts, as long as that is not compiled. -/
structure Pending where
  contains : List (Child Mode)
  starts : Option Mode

/-- The modes that have numbers, and the numbers of named modes: by name and, for
modes that depend on the mode around them, the terminator of that. -/
structure Compiler where
  drafts : Array Draft := #[]
  named : List ((String × Option String) × List Nat) := []

abbrev Compilation (α : Type) := StateT Compiler (Except CompileError) α

namespace Compilation

def terminatorOf (number : Nat) : Compilation String := do
  return (((← get).drafts[number]?).map Draft.terminator).getD ""

def compileEnd (source : Option String) (ignoreCase : Bool) :
    Except CompileError (Option Regex) :=
  match source with
  | none => .ok none
  | some source =>
      match Regex.compile source ignoreCase with
      | .ok regex => .ok (some regex)
      | .error cause => .error (.invalidPattern source cause)

/-- What ends a mode: its own end, or what it inherits, or either. -/
def joinTerminators (own : Option String) (inherited : String) : String :=
  if inherited.isEmpty then own.getD ""
  else
    match own with
    | none => inherited
    | some own => own ++ "|" ++ inherited

def reserve (definition : Definition) (mode : Mode) (parent : Option Nat) :
    Compilation (Nat × Pending) := do
  let resolved ← Resolved.ofMode mode parent.isSome definition.scopeAliases
  let flags := Flags.ofMode resolved.rest
  let implied := if flags.endsWithParent then none else some anyPlace
  let beginSource := if parent.isSome then resolved.beginSource.getD anyPlace else ""
  let endSource := if parent.isSome then resolved.endSource.or implied else none
  let endRegex ← compileEnd endSource definition.caseInsensitive
  let inherited ←
    match parent with
    | some parent => if flags.endsWithParent then terminatorOf parent else pure ""
    | none => pure ""
  let keywords ←
    match resolved.keywords with
    | none => pure none
    | some keywords =>
        let table ←
          KeywordTable.compile keywords definition.caseInsensitive definition.scopeAliases
        pure (some table)
  let draft : Draft :=
    { scope := resolved.scope
      beginScope := resolved.beginScope
      endScope := resolved.endScope
      beginSource
      endRegex
      terminator := joinTerminators endSource inherited
      illegal := resolved.illegal
      keywords
      contains := []
      starts := none
      relevance := resolved.rest.relevance
      flags
      subLanguage := resolved.rest.subLanguage
      hooks := resolved.hooks
      parent }
  let compiler ← get
  set { compiler with drafts := compiler.drafts.push draft }
  let pending : Pending :=
    { contains := resolved.rest.contains.getD [], starts := resolved.rest.starts }
  return (compiler.drafts.size, pending)

def update (number : Nat) (change : Draft → Draft) : Compilation Unit :=
  modify fun compiler => { compiler with drafts := compiler.drafts.modify number change }

def cached? (key : String × Option String) : Compilation (Option (List Nat)) := do
  return ((← get).named.find? fun entry => entry.1 == key).map Prod.snd

def cache (key : String × Option String) (numbers : List Nat) : Compilation Unit :=
  modify fun compiler => { compiler with named := (key, numbers) :: compiler.named }

/-- Compiles what a mode contains and starts, given its number, that, and its
parent. -/
abbrev Filler := Nat → Pending → Option Nat → Compilation Unit

/-- The next level of nesting, if there is one: how many levels follow it, and how
modes are compiled there. -/
abbrev Deeper := Option (Nat × Filler)

/-- Compiles a mode one level deeper.  Another level has to follow that one. -/
def compileMode (definition : Definition) (deeper : Deeper) (mode : Mode)
    (parent : Option Nat) : Compilation Nat :=
  match deeper with
  | some (_ + 1, fill) => do
      let (number, pending) ← reserve definition mode parent
      fill number pending parent
      return number
  | _ => throw (.nestingTooDeep nestingLimit)

/-- Compiles a named mode inside another one, or finds that it has been compiled
before.  Its numbers are noted before its children are compiled, so that they can
refer to it. -/
def namedMode (definition : Definition) (deeper : Deeper) (name : String) (parent : Nat) :
    Compilation (List Nat) := do
  let some mode := definition.modes.get? name
    | throw (.unknownModeReference name)
  let terminator ← terminatorOf parent
  let key := (name, if mode.dependsOnParent then some terminator else none)
  match ← cached? key with
  | some numbers => return numbers
  | none =>
      match deeper with
      | none => throw (.nestingTooDeep nestingLimit)
      | some (_, fill) =>
          let reserved ← mode.expand.mapM fun variant => reserve definition variant (some parent)
          let numbers := reserved.map Prod.fst
          cache key numbers
          for (number, pending) in reserved do
            fill number pending (some parent)
          return numbers

def compileChild (definition : Definition) (deeper : Deeper) (number : Nat)
    (parent : Option Nat) : Child Mode → Compilation (List Nat)
  | .self =>
      if parent.isNone then throw (.selfAtTopLevel definition.name) else return [number]
  | .named name => namedMode definition deeper name number
  | .inline mode =>
      mode.expand.mapM fun variant => compileMode definition deeper variant (some number)

def fillWith (definition : Definition) (deeper : Deeper) : Filler :=
  fun number pending parent => do
    let children ← pending.contains.mapM (compileChild definition deeper number parent)
    update number fun draft => { draft with contains := children.flatten }
    match pending.starts with
    | none => return
    | some mode =>
        let next ← compileMode definition deeper mode parent
        update number fun draft => { draft with starts := some next }

/-- Compiles what a mode contains and starts, where `levels` more levels may
follow. -/
def fill (definition : Definition) : (levels : Nat) → Filler
  | 0 => fillWith definition none
  | levels + 1 => fillWith definition (some (levels, fill definition levels))

def compileAll (definition : Definition) : Compilation Unit := do
  let (number, pending) ← reserve definition definition.root none
  fill definition (nestingLimit + 1) number pending none

end Compilation

namespace CompiledGrammar

/-- The rules of a mode: the beginnings of what it contains, its end, and what is
illegal in it. -/
def rulesOf (drafts : Array Draft) (draft : Draft) : List Rule :=
  let enters := draft.contains.map fun child =>
    ({ source := ((drafts[child]?).map Draft.beginSource).getD ""
       kind := .enter child } : Rule)
  let leaves :=
    if draft.terminator.isEmpty then []
    else [({ source := draft.terminator, kind := .leave } : Rule)]
  let illegals := draft.illegal.toList.map fun source =>
    ({ source, kind := .illegal } : Rule)
  enters ++ leaves ++ illegals

def compile (definition : Definition) : Except CompileError CompiledGrammar := do
  let (_, compiler) ← (Compilation.compileAll definition).run {}
  let modes ← compiler.drafts.mapM fun draft => do
    let matcher ← Matcher.compile (rulesOf compiler.drafts draft) definition.caseInsensitive
    pure ({ draft with matcher } : CompiledMode)
  return {
    name := definition.name
    aliases := definition.aliases
    caseInsensitive := definition.caseInsensitive
    disableAutodetect := definition.disableAutodetect
    supersetOf := definition.supersetOf
    modes }

def autodetect (grammar : CompiledGrammar) : Bool :=
  !grammar.disableAutodetect

def mode? (grammar : CompiledGrammar) (number : Nat) : Option CompiledMode :=
  grammar.modes[number]?

/-- The mode with a number, where a number that is not in use stands for a mode in
which nothing happens. -/
def mode (grammar : CompiledGrammar) (number : Nat) : CompiledMode :=
  (grammar.mode? number).getD CompiledMode.inert

def ruleCount (grammar : CompiledGrammar) : Nat :=
  grammar.modes.foldl (fun count mode => count + mode.matcher.rules.length) 0

end CompiledGrammar
end Highlighter.Compiled

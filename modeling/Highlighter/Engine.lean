import Highlighter.Language.Bash
import Highlighter.Language.Json
import Highlighter.Language.Q
import Highlighter.Language.Rust
import Highlighter.Ranking
import Highlighter.Registry
import Highlighter.Run
import Highlighter.Scope.Html
import Highlighter.Settings

/-!
# Engines

An engine highlights texts in registered grammars and detects the language of texts.
In safe mode, illegal text and failures of expressions give plain text instead of an
error.
-/
namespace Highlighter

open Compiled (CompiledGrammar)
open Grammar (Definition)

/-- A highlighted text.  `illegal` tells why it is plain text although it has a grammar,
and `failure` what went wrong instead. -/
structure Highlighted where
  language : Option String
  relevance : Float
  tree : Scope.Tree
  html : String
  illegal : Option IllegalLexeme := none
  failure : Option Failure := none
  continuation : Option Continuation := none

def Highlighted.plain (text : String) (language : Option String) : Highlighted where
  language
  relevance := 0.0
  tree := .plain text
  html := Scope.Html.escape text

structure Detection where
  best : Highlighted
  runnerUp : Option Highlighted

/-- How one text is highlighted: whether illegal text is taken as plain text, whether in
safe mode if not as the settings say, and where it goes on. -/
structure Options where
  ignoreIllegals : Bool := true
  safeMode : Option Bool := none
  continuation : Option Continuation := none

def Options.strict : Options where
  ignoreIllegals := false

structure Engine where
  settings : Settings := {}
  registry : Registry := {}

namespace Engine

def bundled : List (String × Definition) :=
  [ ("bash", Language.Bash.definition),
    ("json", Language.Json.definition),
    ("q", Language.Q.definition),
    ("rust", Language.Rust.definition) ]

def registerBundled (engine : Engine) : Engine :=
  { engine with
    registry := bundled.foldl
      (fun registry grammar => registry.register grammar.1 grammar.2 []) engine.registry }

def standard : Engine :=
  registerBundled {}

def detects (engine : Engine) (name : String) : Bool :=
  (engine.registry.get? name).any fun definition => !definition.disableAutodetect

def resolve? (engine : Engine) (name : String) :
    Except Failure (Option (String × CompiledGrammar)) :=
  match engine.registry.entry? name with
  | none => .ok none
  | some (name, entry) =>
      match entry.compiled.get with
      | .error cause => .error (.compile name cause)
      | .ok grammar => .ok (some (name, grammar))

/-- What comes of a run.  In safe mode illegal text, expressions that fail and embedded
grammars that cannot be compiled leave the text plain. -/
def settle (engine : Engine) (text name : String) (safe : Bool) :
    Except Failure Outcome → Except Failure Highlighted
  | .ok outcome =>
      .ok
        { language := some name
          relevance := outcome.relevance
          tree := outcome.tree
          html := Scope.Html.render engine.settings.classPrefix outcome.tree
          continuation := some outcome.continuation }
  | .error cause =>
      if safe then
        match cause with
        | .illegalLexeme illegal =>
            .ok { Highlighted.plain text (some name) with illegal := some illegal }
        | .search _ _ | .compile _ _ =>
            .ok { Highlighted.plain text (some name) with failure := some cause }
        | _ => .error cause
      else .error cause

def highlightWith (engine : Engine) (embedder : Embedder) (text name : String)
    (options : Options) : Except Failure Highlighted := do
  match ← engine.resolve? name with
  | none => throw (.unknownGrammar name)
  | some (name, grammar) =>
      let safe := options.safeMode.getD engine.settings.safeMode
      let setting : Setting :=
        { name, grammar, ignoreIllegals := options.ignoreIllegals, safe, embedder }
      engine.settle text name safe (Run.highlight setting options.continuation text)

def candidateNames (engine : Engine) (candidates : Option (List String)) : List String :=
  match candidates with
  | some candidates => candidates
  | none =>
      if engine.settings.autodetectCandidates.isEmpty then engine.registry.names
      else engine.settings.autodetectCandidates

def extendsGrammar (engine : Engine) (superset subset : String) : Bool :=
  let declared := (engine.registry.get? superset).bind Definition.supersetOf
  (declared.bind engine.registry.resolve?) = some subset

def precedes (engine : Engine) (first second : Highlighted) : Bool :=
  Ranking.precedes engine.extendsGrammar ⟨first.relevance, first.language⟩
    ⟨second.relevance, second.language⟩

/-- The results for a text: plain text, and what the candidates make of it.  Candidates
that are not known, do not take part or fail are left out. -/
def resultsWith (engine : Engine) (embedder : Embedder) (text : String)
    (candidates : Option (List String)) : List Highlighted :=
  let names := (engine.candidateNames candidates).filter engine.detects
  .plain text none ::
    names.filterMap fun name => (engine.highlightWith embedder text name .strict).toOption

def bestOf (engine : Engine) (text : String) (results : List Highlighted) : Detection :=
  match Ranking.rank engine.precedes results with
  | [] => { best := .plain text none, runnerUp := none }
  | best :: rest => { best, runnerUp := rest.head? }

def detectWith (engine : Engine) (embedder : Embedder) (text : String)
    (candidates : Option (List String)) : Detection :=
  engine.bestOf text (engine.resultsWith embedder text candidates)

/-- Why a run came to no end of its own, if it did not. -/
def endlessFailure? : Except Failure Highlighted → Option Failure
  | .error cause => if cause.isEndless then some cause else none
  | .ok _ => none

def embed (engine : Engine) (embedder : Embedder) (language : String) (safe : Bool)
    (earlier : Option Continuation) (text : String) :
    Except Failure (Option (String × Outcome)) := do
  match ← engine.resolve? language with
  | none => return none
  | some (name, grammar) =>
      let setting : Setting := { name, grammar, ignoreIllegals := true, safe, embedder }
      let outcome ← Run.highlight setting earlier text
      return some (name, outcome)

/-- Detects the language of embedded text.  Where the run of a candidate comes to no end,
this does not either. -/
def detectEmbedded (engine : Engine) (embedder : Embedder) (text : String)
    (candidates : Option (List String)) : Except Failure Detected :=
  let names := (engine.candidateNames candidates).filter engine.detects
  let attempts := names.map fun name => engine.highlightWith embedder text name .strict
  match attempts.findSome? endlessFailure? with
  | some cause => .error cause
  | none =>
      let results := .plain text none :: attempts.filterMap Except.toOption
      let best := (engine.bestOf text results).best
      .ok { tree := best.tree, relevance := best.relevance, language := best.language }

def embedder (engine : Engine) : (depth : Nat) → Embedder
  | 0 =>
      { highlight := fun _ _ _ _ => .error .endlessEmbedding
        detect := fun _ _ => .error .endlessEmbedding }
  | depth + 1 =>
      { highlight := fun language safe earlier text =>
          engine.embed (engine.embedder depth) language safe earlier text
        detect := fun candidates text =>
          engine.detectEmbedded (engine.embedder depth) text candidates }

/-- How deeply text can be embedded in a text.  Unless grammars embed each other without
end, each of them is used in few ways before the text gets shorter. -/
def embeddingDepth (engine : Engine) (text : String) : Nat :=
  4 * (engine.registry.grammars.size + 1) * (text.length + 2)

def highlight (engine : Engine) (text name : String) (options : Options) :
    Except Failure Highlighted :=
  engine.highlightWith (engine.embedder (engine.embeddingDepth text)) text name options

def detect (engine : Engine) (text : String) (candidates : Option (List String)) : Detection :=
  engine.detectWith (engine.embedder (engine.embeddingDepth text)) text candidates

end Engine
end Highlighter

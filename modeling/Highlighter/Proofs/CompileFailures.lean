import Highlighter.Proofs.Failing
import Highlighter.Proofs.SafeMode
import Highlighter.Proofs.Suffixes
import Highlighter.Proofs.TextKept

/-!
# Grammars that fail when they are used

A grammar is compiled before it is used, and only the alternations of the last rules of its modes
are left until a search goes on with them.  Highlighting does not fail because of these where the
rules can stand alone, unless an alternation has outgrown what an automaton may take.
-/
namespace Highlighter

open Compiled (CompiledGrammar CompiledMode)
open Grammar (Definition SubLanguage)

def Blameable (blamed : String → CompileError → Prop) (failure : Failure) : Prop :=
  ∀ name cause, failure = .compile name cause → blamed name cause

theorem Fails.failed {α β : Type} {allowed : Failure → Prop} {failure : Failure}
    (fails : Fails allowed (.error failure : Except Failure α)) :
    Fails allowed (.error failure : Except Failure β) :=
  .error (fails failure rfl)

/-- Runs fail because of grammars that are to blame, if searches for rules and embedded texts
do. -/
theorem Run.highlight_charges {blamed : String → CompileError → Prop} {setting : Setting}
    (matchers : ∀ number cursor place cause,
      (setting.grammar.mode number).matcher.next cursor place = .error (.compile cause) →
        blamed setting.name cause)
    (charged : setting.embedder.Fails (Blameable blamed)) (earlier : Option Continuation)
    (text : String) : Fails (Blameable blamed) (Run.highlight setting earlier text) := by
  refine Run.highlight_fails ⟨⟨?_, ?_, ?_⟩, ?_, ?_, ?_, ?_⟩ earlier text
  · exact fun _ => nofun
  · exact fun _ _ => nofun
  · exact fun _ language _ state content => Run.embed_fails charged state content language
  · exact fun _ _ => nofun
  · intro number cursor place failure searched name cause isCause
    cases failure with
    | compile failure =>
      cases isCause
      exact matchers _ _ _ _ searched
    | search failure => cases isCause
  · exact nofun
  · exact nofun

/-! ## Grammars -/

namespace Compiled.CompiledGrammar

variable {cause : CompileError}

/-- Whether the rules of every mode can stand alone. -/
def isSelfContained (grammar : CompiledGrammar) : Bool :=
  grammar.modes.all fun mode => mode.matcher.isSelfContained

variable {definition : Definition} {grammar : CompiledGrammar}
  (compiled : CompiledGrammar.compile definition = .ok grammar)
  (selfContained : grammar.isSelfContained)

include compiled selfContained

theorem suffix_compile {mode : CompiledMode} (isMode : mode ∈ grammar.modes) {position : Nat}
    (rejected : Alternation.compile (mode.matcher.rules.drop position)
      grammar.caseInsensitive = .error cause) : mode.matcher.Outgrows position cause := by
  obtain ⟨compiler, -, sameCase, -, each⟩ := compile_ok compiled
  obtain ⟨number, isListed⟩ := Array.mem_iff_getElem?.mp isMode
  have joined := (each number mode isListed).2
  rw [(Matcher.compile_ok joined).1, sameCase] at rejected
  exact Matcher.suffix_compile joined
    (Array.all_eq_true_iff_forall_mem.mp selfContained _ isMode) rejected

theorem next_compile {number : Nat} {cursor : Cursor} {place : Place}
    (fails : (grammar.mode number).matcher.next cursor place = .error (.compile cause)) :
    ∃ mode ∈ grammar.modes, mode.matcher.Outgrows cursor.position cause := by
  rcases matcher_of_compile compiled number with isInert | ⟨member, joined⟩
  · rw [isInert] at fails
    cases fails.symm.trans (Matcher.empty_next_eq cursor place)
  · exact ⟨_, member, Matcher.next_compile joined
      (Array.all_eq_true_iff_forall_mem.mp selfContained _ member) fails⟩

end Compiled.CompiledGrammar

/-! ## Engines -/

namespace Engine

variable {engine : Engine}

variable {name : String}

/-- In every grammar of an engine, the rules of every mode can stand alone. -/
def IsSelfContained (engine : Engine) : Prop :=
  ∀ entry ∈ engine.registry.grammars.entries, ∀ grammar,
    CompiledGrammar.compile entry.2.definition = .ok grammar → grammar.isSelfContained

/-- A registered grammar cannot be compiled, or the last rules of one of its modes have
outgrown what an automaton may take. -/
inductive Blames (engine : Engine) (name : String) (cause : CompileError) : Prop where
  | rejected {asked : String} {entry : RegistryEntry}
      (isEntry : engine.registry.entry? asked = some (name, entry))
      (isCause : CompiledGrammar.compile entry.definition = .error cause)
  | outgrown {asked : String} {entry : RegistryEntry} {grammar : CompiledGrammar}
      {mode : CompiledMode} {position : Nat}
      (isEntry : engine.registry.entry? asked = some (name, entry))
      (isGrammar : CompiledGrammar.compile entry.definition = .ok grammar)
      (isMode : mode ∈ grammar.modes) (outgrows : mode.matcher.Outgrows position cause)

theorem resolve?_charges (engine : Engine) (name : String) :
    Fails (Blameable engine.Blames) (engine.resolve? name) := by
  unfold resolve?
  split
  · exact .ok none
  · rename_i resolved entry isEntry
    split
    · rename_i cause rejected
      rw [entry.compiled_eq] at rejected
      refine .error ?_
      rintro _ _ ⟨⟩
      exact .rejected isEntry rejected
    · exact .ok _

theorem settle_charges {blamed : String → CompileError → Prop} {text : String} {safe : Bool}
    {ran : Except Failure Outcome} (charged : Fails (Blameable blamed) ran) :
    Fails (Blameable blamed) (engine.settle text name safe ran) ∧
      ∀ result, engine.settle text name safe ran = .ok result →
        ∀ grammar cause, result.failure = some (.compile grammar cause) → blamed grammar cause := by
  cases ran with
  | ok outcome => exact ⟨.ok _, by rintro _ ⟨⟩ _ _ ⟨⟩⟩
  | error failure =>
    unfold settle
    simp only
    split
    · split
      · exact ⟨.ok _, by rintro _ ⟨⟩ _ _ ⟨⟩⟩
      · exact ⟨.ok _, by rintro _ ⟨⟩ _ _ ⟨⟩⟩
      · refine ⟨.ok _, ?_⟩
        rintro _ ⟨⟩ _ _ ⟨⟩
        exact charged _ rfl _ _ rfl
      · exact ⟨charged.failed, by rintro _ ⟨⟩⟩
    · exact ⟨charged.failed, by rintro _ ⟨⟩⟩

section SelfContained

variable (selfContained : engine.IsSelfContained) {embedder : Embedder}

include selfContained

theorem run_charges (charged : embedder.Fails (Blameable engine.Blames)) {asked : String}
    {grammar : CompiledGrammar} (isGrammar : engine.resolve? asked = .ok (some (name, grammar)))
    (ignoreIllegals safe : Bool) (earlier : Option Continuation) (text : String) :
    Fails (Blameable engine.Blames)
      (Run.highlight { name, grammar, ignoreIllegals, safe, embedder } earlier text) := by
  refine Run.highlight_charges (fun number cursor place cause fails => ?_) charged earlier text
  unfold resolve? at isGrammar
  split at isGrammar
  · cases isGrammar
  · rename_i resolved entry isEntry
    split at isGrammar
    · cases isGrammar
    · rename_i compiled
      cases isGrammar
      rw [entry.compiled_eq] at compiled
      obtain ⟨key, member⟩ := Registry.mem_of_entry? isEntry
      obtain ⟨mode, isMode, outgrows⟩ :=
        CompiledGrammar.next_compile compiled (selfContained _ member _ compiled) fails
      exact .outgrown isEntry compiled isMode outgrows

theorem embedder_charges (depth : Nat) :
    (engine.embedder depth).Fails (Blameable engine.Blames) := by
  refine embedder_fails ?_ engine.resolve?_charges ?_ depth
  · rintro _ isEndless _ _ rfl
    cases isEndless
  · exact fun isResolved charged => run_charges selfContained charged isResolved true _

theorem highlight_charges (text name : String) (options : Options) :
    (∀ grammar cause, engine.highlight text name options = .error (.compile grammar cause) →
      engine.Blames grammar cause) ∧
      ∀ result, engine.highlight text name options = .ok result →
        ∀ grammar cause, result.failure = some (.compile grammar cause) →
          engine.Blames grammar cause := by
  refine And.imp (fun (charged : Fails (Blameable engine.Blames) _) grammar cause fails =>
    charged _ fails grammar cause rfl) id ?_
  cases isResolved : engine.resolve? name with
  | error failure =>
    rw [highlight_of_uncompiled isResolved]
    have charged := engine.resolve?_charges name
    rw [isResolved] at charged
    exact ⟨charged.failed, by rintro _ ⟨⟩⟩
  | ok resolved =>
    cases resolved with
    | none =>
      rw [highlight_of_unknown isResolved]
      exact ⟨.error nofun, by rintro _ ⟨⟩⟩
    | some found =>
      rw [highlight_of_resolved isResolved]
      exact settle_charges (run_charges selfContained
        (embedder_charges selfContained (engine.embeddingDepth text)) isResolved _ _
        options.continuation text)

end SelfContained

/-- A grammar that is accepted can be used.  If the rules of its modes can stand alone, the rules
of a mode from any position on are accepted too, and highlighting fails only because of a grammar
that was not accepted itself; unless the last rules of a mode take an automaton that is too large,
and all rules together a machine. -/
theorem highlight_fails_only_if_outgrown (selfContained : engine.IsSelfContained) :
    (∀ entry ∈ engine.registry.grammars.entries, ∀ grammar,
      CompiledGrammar.compile entry.2.definition = .ok grammar →
      ∀ mode ∈ grammar.modes, ∀ position cause,
        Alternation.compile (mode.matcher.rules.drop position) grammar.caseInsensitive =
          .error cause → mode.matcher.Outgrows position cause) ∧
    ∀ text name options grammar cause,
      (engine.highlight text name options = .error (.compile grammar cause) ∨
        ∃ result, engine.highlight text name options = .ok result ∧
          result.failure = some (.compile grammar cause)) →
      engine.Blames grammar cause := by
  constructor
  · intro entry member grammar compiled mode isMode position cause rejected
    exact CompiledGrammar.suffix_compile compiled (selfContained entry member grammar compiled)
      isMode rejected
  · intro text name options grammar cause fails
    obtain ⟨charged, passedOver⟩ := highlight_charges selfContained text name options
    rcases fails with fails | ⟨result, success, isFailure⟩
    · exact charged grammar cause fails
    · exact passedOver result success grammar cause isFailure

/-- A grammar with two modes, the first of which begins only where the text does. -/
def resumingGrammar (first second : String) : Definition where
  name := "resuming"
  root :=
    { contains := some
        [ .inline
            { beginPattern := some (.source first), hooks := some [.onlyAtInputStart] },
          .inline { beginPattern := some (.source second) } ] }

def resumingEngine (first second : String) : Engine where
  registry := Registry.register {} "resuming" (resumingGrammar first second) []

/-- Rules that refer to their own groups can stand alone.  If all of them do, each takes a machine,
and no text makes a search fail. -/
theorem highlight_fails_only_if_outgrown_doubled :
    (resumingEngine "(a)\\1" "(b)\\1").IsSelfContained ∧
      ∀ text options grammar cause,
        (resumingEngine "(a)\\1" "(b)\\1").highlight text "resuming" options ≠
          .error (.compile grammar cause) := by
  have checked : (resumingEngine "(a)\\1" "(b)\\1").registry.grammars.entries.all fun entry =>
      (CompiledGrammar.compile entry.2.definition).toOption.any fun grammar =>
        grammar.isSelfContained && grammar.modes.all fun mode =>
          mode.matcher.rules.all (Rule.needsMachine mode.matcher.ignoreCase) := by
    decide +kernel
  have usable : ∀ entry ∈ (resumingEngine "(a)\\1" "(b)\\1").registry.grammars.entries,
      ∃ grammar, CompiledGrammar.compile entry.2.definition = .ok grammar ∧
        grammar.isSelfContained ∧ ∀ mode ∈ grammar.modes, ∀ rule ∈ mode.matcher.rules,
          rule.needsMachine mode.matcher.ignoreCase := by
    intro entry member
    have entryChecked := List.all_eq_true.mp checked entry member
    simp only [Option.any_eq_true, Success.toOption_eq_some, Bool.and_eq_true,
      Array.all_eq_true_iff_forall_mem, List.all_eq_true] at entryChecked
    exact entryChecked
  generalize resumingEngine "(a)\\1" "(b)\\1" = engine at usable
  have selfContained : engine.IsSelfContained := by
    intro entry member grammar compiled
    obtain ⟨other, isOther, isSelfContained, -⟩ := usable entry member
    cases compiled.symm.trans isOther
    exact isSelfContained
  refine ⟨selfContained, fun text options grammar cause fails => ?_⟩
  cases (highlight_fails_only_if_outgrown selfContained).2 _ _ _ _ _ (.inl fails) with
  | rejected isEntry isCause =>
    obtain ⟨key, member⟩ := Registry.mem_of_entry? isEntry
    obtain ⟨other, isOther, -⟩ := usable _ member
    cases isCause.symm.trans isOther
  | @outgrown _ _ _ mode position isEntry isGrammar isMode outgrows =>
    obtain ⟨key, member⟩ := Registry.mem_of_entry? isEntry
    obtain ⟨other, isOther, -, needed⟩ := usable _ member
    cases isGrammar.symm.trans isOther
    have inside := outgrows.inside
    have unneeded := List.any_eq_false.mp outgrows.rest _
      (List.mem_of_mem_head? (List.head?_drop ▸ List.getElem?_eq_getElem inside))
    exact unneeded (needed mode isMode _ (List.getElem_mem inside))

/-- A rule that refers to a group of the rule in front of it is accepted with it only.  Where that
one is passed over, the search fails although the grammar has been compiled. -/
theorem highlight_fails_for_named_group :
    ∃ grammar, CompiledGrammar.compile (resumingGrammar "(?<q>a)" "\\k<q>b") = .ok grammar ∧
      (resumingEngine "(?<q>a)" "\\k<q>b").highlight " a" "resuming" { safeMode := some false } =
        .error (.compile "resuming" (.invalidPattern "(\\k<q>b)" .unknownGroup)) := by
  have compiles :
      (CompiledGrammar.compile (resumingGrammar "(?<q>a)" "\\k<q>b")).toOption.isSome := by
    decide +kernel
  have evaluated :
      (match (resumingEngine "(?<q>a)" "\\k<q>b").highlight " a" "resuming"
          { safeMode := some false } with
        | .ok _ => none
        | .error failure => some failure) =
      some (.compile "resuming" (.invalidPattern "(\\k<q>b)" .unknownGroup)) := by
    decide +kernel
  obtain ⟨grammar, compiled⟩ := Option.isSome_iff_exists.mp compiles
  refine ⟨grammar, Success.toOption_eq_some.mp compiled, ?_⟩
  split at evaluated
  · cases evaluated
  · rename_i fails
    rw [fails, Option.some.inj evaluated]

end Engine
end Highlighter

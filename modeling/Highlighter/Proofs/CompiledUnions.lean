import Highlighter.Proofs.Terminator
import Highlighter.Proofs.UnitedSources

/-!
# Alternatives that compiling puts together

Compiling puts bars between the end of a mode and what the mode inherits as its end, and between
the patterns that are illegal in it.  What it makes matches where one of the sources does, unless a
source refers to its groups behind the groups of another: the references are not moved on.
-/
namespace Highlighter.Compiled

open Compilation (joinTerminators)
open Grammar (Definition Mode)

theorem joinTerminators_eq_joinWith {inherited : String} (inherits : inherited ≠ "")
    (own : String) :
    joinTerminators (some own) inherited = Pattern.joinWith "|" [own, inherited] := by
  rw [joinTerminators, if_neg (by simpa using inherits), ← String.toList_inj,
    Pattern.toList_joinWith_bar]
  simp [Text.join]

theorem joinWith_ne_empty (own inherited : String) :
    Pattern.joinWith "|" [own, inherited] ≠ "" := by
  rw [ne_eq, ← String.toList_inj, Pattern.toList_joinWith_bar]
  simp [Text.join]

def endRule (mode : CompiledMode) : Rule where
  source := mode.terminator
  kind := .leave

def illegalRule (sources : List String) : Rule where
  source := Pattern.either sources
  kind := .illegal

namespace CompiledGrammar

section Rules

variable {compiler : Compiler} {grammar : CompiledGrammar} (finishes : Finishes compiler grammar)
  {number : Nat}

include finishes

theorem Finishes.leave_mem (ends : (grammar.mode number).terminator ≠ "") :
    endRule (grammar.mode number) ∈ (grammar.mode number).matcher.rules := by
  have inUse : number < grammar.modes.size := by
    refine Decidable.byContradiction fun notInUse => ends ?_
    rw [mode_of_not_inUse notInUse]
    rfl
  rw [finishes.rules number inUse, rulesOf, if_neg (by simpa using ends)]
  simp [endRule]

theorem Finishes.illegal_mem {source : String}
    (isIllegal : (grammar.mode number).illegal = some source) :
    { source, kind := .illegal } ∈ (grammar.mode number).matcher.rules := by
  have inUse : number < grammar.modes.size := by
    refine Decidable.byContradiction fun notInUse => ?_
    rw [mode_of_not_inUse notInUse] at isIllegal
    cases isIllegal
  rw [finishes.rules number inUse, rulesOf, isIllegal]
  simp

end Rules

section Sources

variable {definition : Definition} {grammar : CompiledGrammar} {origins : List Origin}
  {number : Nat} {mode : Mode} {resolved : Resolved}
  (comesFrom : grammar.ComesFrom definition origins number mode resolved)

include comesFrom

theorem ComesFrom.illegal_eq_either {sources : List String}
    (isIllegal : resolved.rest.illegal = some (.sequence sources)) :
    (grammar.mode number).illegal = some (Pattern.either sources) := by
  obtain ⟨endRegex, keywords, attributes⟩ := comesFrom.attributes
  have illegal : (grammar.mode number).illegal = resolved.illegal :=
    congrArg (·.illegal) attributes
  rw [illegal, (Resolved.rest_of_ofMode comesFrom.resolution).1, isIllegal]
  rfl

end Sources

/-- In a compiled grammar, the end of a mode that inherits another matches where its own end or
the inherited one matches by itself, and the patterns that are illegal in a mode match where one of
them does, as long as the sources mean the same between bars as alone. -/
theorem compiled_unions {definition : Definition} {grammar : CompiledGrammar}
    (compiled : compile definition = .ok grammar) :
    ∃ origins, grammar.Elaborates definition origins ∧
      ∀ number origin resolved, origins[number]? = some origin →
        grammar.ComesFrom definition origins number origin.mode resolved →
        (∀ parent own, (grammar.mode number).flags.endsWithParent = true →
          (grammar.mode number).parent = some parent → resolved.endSource = some own →
          (grammar.mode parent).terminator ≠ "" →
          endRule (grammar.mode number) ∈ (grammar.mode number).matcher.rules ∧
            (Regex.Unites grammar.caseInsensitive (endRule (grammar.mode number)).source
                [own, (grammar.mode parent).terminator] →
              Regex.MeansAnyOf grammar.caseInsensitive (endRule (grammar.mode number)).source
                [own, (grammar.mode parent).terminator])) ∧
        ∀ sources, resolved.rest.illegal = some (.sequence sources) →
          illegalRule sources ∈ (grammar.mode number).matcher.rules ∧
            (Regex.Unites grammar.caseInsensitive (illegalRule sources).source sources →
              Regex.MeansAnyOf grammar.caseInsensitive (illegalRule sources).source sources) := by
  obtain ⟨compiler, origins, elaborated, finishes⟩ := elaborated_of_compile compiled
  refine ⟨origins, finishes.elaborates elaborated, fun number origin resolved _ comesFrom => ?_⟩
  refine ⟨fun parent own ends isParent isOwn inherits => ?_, fun sources isIllegal => ?_⟩
  · have isJoined : (grammar.mode number).terminator =
        Pattern.joinWith "|" [own, (grammar.mode parent).terminator] := by
      rw [comesFrom.terminator_eq ends isParent, isOwn, joinTerminators_eq_joinWith inherits]
    exact ⟨finishes.leave_mem (isJoined ▸ joinWith_ne_empty _ _),
      fun unites => unites.meansAnyOf (.inl isJoined)⟩
  · exact ⟨finishes.illegal_mem (comesFrom.illegal_eq_either isIllegal),
      fun unites => unites.meansAnyOf (.inr rfl)⟩

/-- A grammar with illegal patterns, and a mode that has an end and ends with its parent. -/
def nestedEnds (outer inner : String) (illegal : List String) : Definition :=
  { root :=
      { illegal := some (.sequence illegal)
        contains := some
          [.inline
            { beginPattern := some (.source "<")
              endPattern := some (.source outer)
              contains := some
                [.inline
                  { beginPattern := some (.source "\\(")
                    endPattern := some (.source inner)
                    endsWithParent := some true }] }] } }

/-- The end of the inner mode refers to a group of its own, and so does the first of the patterns
that are illegal; behind them stand sources with groups, but without references. -/
theorem compiled_unions_nested :
    ∃ grammar, compile (nestedEnds "(b)x" "(a)\\1" ["(c)\\1", "(d)y"]) = .ok grammar ∧
      endRule (grammar.mode 2) ∈ (grammar.mode 2).matcher.rules ∧
      Regex.MeansAnyOf false (endRule (grammar.mode 2)).source ["(a)\\1", "(b)x"] ∧
      illegalRule ["(c)\\1", "(d)y"] ∈ (grammar.mode 0).matcher.rules ∧
      Regex.MeansAnyOf false (illegalRule ["(c)\\1", "(d)y"]).source ["(c)\\1", "(d)y"] := by
  have modes : ((compile (nestedEnds "(b)x" "(a)\\1" ["(c)\\1", "(d)y"])).toOption.map
      fun grammar =>
        (grammar.caseInsensitive, grammar.modes.size, (grammar.mode 2).flags.endsWithParent,
          (grammar.mode 2).parent, (grammar.mode 2).terminator, (grammar.mode 1).terminator)) =
            some (false, 3, true, some 1, "(a)\\1|(b)x", "(b)x") := by
    decide +kernel
  obtain ⟨grammar, isGrammar, isModes⟩ := Option.map_eq_some_iff.mp modes
  rw [Success.toOption_eq_some] at isGrammar
  simp only [Prod.mk.injEq] at isModes
  obtain ⟨sensitive, size, ends, isParent, terminator, inherited⟩ := isModes
  obtain ⟨origins, elaborates, united⟩ := compiled_unions isGrammar
  rw [sensitive] at united
  obtain ⟨origin, resolved, isOrigin, comesFrom⟩ :=
    elaborates.comesFrom (show 2 < grammar.modes.size by omega)
  have isOwn : resolved.endSource = some "(a)\\1" := by
    have joined := comesFrom.terminator_eq ends isParent
    rw [terminator, inherited] at joined
    cases isSource : resolved.endSource with
    | none => exact absurd (joined.trans (congrArg (joinTerminators · _) isSource)) (by decide)
    | some own =>
      rw [isSource, joinTerminators_eq_joinWith (by decide), ← String.toList_inj,
        Pattern.toList_joinWith_bar] at joined
      have cancelled := @List.append_cancel_right _ "(a)\\1".toList "|(b)x".toList own.toList
        (joined.trans (by simp [Text.join]))
      rw [String.toList_inj.mp cancelled]
  obtain ⟨leaves, means⟩ := (united 2 origin resolved isOrigin comesFrom).1 1 "(a)\\1" ends
    isParent isOwn (by rw [inherited]; decide)
  have isEnd : (endRule (grammar.mode 2)).source = "(a)\\1|(b)x" := terminator
  rw [inherited, isEnd] at means
  obtain ⟨root, isRoot⟩ := elaborates.modes 0 _ elaborates.root
  have isIllegal : root.rest.illegal = some (.sequence ["(c)\\1", "(d)y"]) := by
    have resolution := isRoot.resolution
    cases resolution
    rfl
  obtain ⟨isRule, meansEither⟩ := (united 0 _ root elaborates.root isRoot).2 _ isIllegal
  refine ⟨grammar, isGrammar, leaves, ?_, isRule, meansEither ?_⟩
  · rw [isEnd]
    refine means ⟨?_, ?_, ?_, ?_, ?_⟩ <;> decide +kernel
  · refine ⟨?_, ?_, ?_, ?_, ?_⟩ <;> decide +kernel

/-- A reference behind the group of another source means that group, which takes no part: the end
of the outer mode is missed in the inner one, and so is the second of the illegal patterns.  A flag
that one source sets holds in the sources behind it, and no sources at all match everywhere. -/
theorem compiled_unions_differ :
    (∃ grammar, compile (nestedEnds "(b)\\1" "(a)x" ["(a)x", "(b)\\1"]) = .ok grammar ∧
      (grammar.mode 2).flags.endsWithParent = true ∧ (grammar.mode 2).parent = some 1 ∧
      (grammar.mode 1).terminator = "(b)\\1" ∧
      endRule (grammar.mode 2) ∈ (grammar.mode 2).matcher.rules ∧
      ¬Regex.MeansAnyOf false (endRule (grammar.mode 2)).source ["(a)x", "(b)\\1"] ∧
      illegalRule ["(a)x", "(b)\\1"] ∈ (grammar.mode 0).matcher.rules ∧
      ¬Regex.MeansAnyOf false (illegalRule ["(a)x", "(b)\\1"]).source ["(a)x", "(b)\\1"]) ∧
    ¬Regex.MeansAnyOf false (illegalRule ["(?i)a", "b"]).source ["(?i)a", "b"] ∧
    ¬Regex.MeansAnyOf false (illegalRule []).source [] := by
  refine ⟨?_, ?_, ?_⟩
  · have modes : ((compile (nestedEnds "(b)\\1" "(a)x" ["(a)x", "(b)\\1"])).toOption.map
        fun grammar =>
          ((grammar.mode 2).flags.endsWithParent, (grammar.mode 2).parent,
            (grammar.mode 1).terminator, (grammar.mode 2).terminator,
            (grammar.mode 0).illegal)) =
              some (true, some 1, "(b)\\1", "(a)x|(b)\\1",
                some (Pattern.either ["(a)x", "(b)\\1"])) := by
      decide +kernel
    obtain ⟨grammar, isGrammar, isModes⟩ := Option.map_eq_some_iff.mp modes
    rw [Success.toOption_eq_some] at isGrammar
    simp only [Prod.mk.injEq] at isModes
    obtain ⟨ends, isParent, inherited, terminator, isIllegal⟩ := isModes
    obtain ⟨compiler, origins, -, finishes⟩ := elaborated_of_compile isGrammar
    have isEnd : (endRule (grammar.mode 2)).source = "(a)x|(b)\\1" := terminator
    refine ⟨grammar, isGrammar, ends, isParent, inherited, finishes.leave_mem ?_, ?_,
      finishes.illegal_mem isIllegal, ?_⟩
    · rw [terminator]
      decide
    · rw [isEnd]
      exact fun means => absurd (means (.start "bb".toList) (by decide +kernel)) (by decide +kernel)
    · exact fun means => absurd (means (.start "bb".toList) (by decide +kernel)) (by decide +kernel)
  · exact fun means => absurd (means (.start "B".toList) (by decide +kernel)) (by decide +kernel)
  · exact fun means => absurd (means (.start []) (by decide +kernel)) (by decide +kernel)

end CompiledGrammar
end Highlighter.Compiled

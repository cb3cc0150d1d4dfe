import Highlighter.Proofs.OpenModes
import Highlighter.Proofs.Sharing

/-!
# What ends modes that end with their parents

A mode that ends with its parent is ended by what ends the mode that it was compiled for.  Whether
a named mode is shared is read off the named mode and not off its variants: a variant that ends
with its parent can be shared by modes that end in different ways, and keeps the first terminator.
-/
namespace Highlighter.Compiled

open Grammar (Child Definition Mode)
open Compilation (joinTerminators)

theorem joinTerminators_inj {own : Option String} {left right : String} :
    joinTerminators own left = joinTerminators own right ↔ left = right := by
  refine ⟨fun same => ?_, congrArg _⟩
  simp only [joinTerminators, String.isEmpty_iff] at same
  cases own with
  | none =>
    simp only [Option.getD_none] at same
    split at same <;> split at same <;> simp_all
  | some own =>
    have longer : ∀ text : String, own ≠ own ++ "|" ++ text := by
      intro text same
      have lengths := congrArg String.length same
      simp only [String.length_append] at lengths
      have : "|".length = 1 := rfl
      omega
    simp only [Option.getD_some] at same
    split at same <;> split at same
    · simp_all
    · exact absurd same (longer right)
    · exact absurd same.symm (longer left)
    · simpa using same

/-! ## Modes that depend on the mode around them -/

theorem dependsOnParent_iff (mode : Mode) :
    mode.dependsOnParent = true ↔
      mode.endsWithParent.getD false = true ∨
        ∃ next ∈ mode.starts, next.dependsOnParent = true := by
  rcases mode with ⟨_, _, _, _, _, _, _, _, _, _, _, _, _, starts, _⟩
  cases starts <;> simp [Mode.dependsOnParent]

section Dependence

variable {mode : Mode} {hasParent : Bool} {aliases : Dictionary String String}
  {resolved : Resolved} (resolution : Resolved.ofMode mode hasParent aliases = .ok resolved)

include resolution

theorem Resolved.rest_of_ofMode :
    resolved.illegal = resolved.rest.illegal.map illegalSource ∧
      (resolved.rest.endsWithParent = mode.endsWithParent ∧ resolved.rest.starts = mode.starts ∨
        resolved.rest.endsWithParent = none ∧
          ∃ contains, resolved.rest.starts = some { relevance := some 0.0, contains }) := by
  obtain ⟨matched, isMatched, success⟩ := Success.bind_eq_ok.mp resolution
  obtain ⟨rest, isRest, success⟩ := Success.bind_eq_ok.mp success
  simp only at success
  obtain ⟨⟨beginSource, beginScope⟩, -, success⟩ := Success.bind_eq_ok.mp success
  obtain ⟨⟨endSource, endScope⟩, -, success⟩ := Success.bind_eq_ok.mp success
  cases success
  refine ⟨rfl, ?_⟩
  have kept : matched.endsWithParent = mode.endsWithParent ∧ matched.starts = mode.starts := by
    unfold resolveMatch at isMatched
    split at isMatched
    · cases isMatched
      exact ⟨rfl, rfl⟩
    · split at isMatched
      · cases isMatched
      · cases isMatched
        exact ⟨rfl, rfl⟩
  unfold resolveBeforeMatch at isRest
  split at isRest
  · cases isRest
    exact .inl kept
  · split at isRest
    · cases isRest
    · cases isRest
      exact .inr ⟨rfl, _, rfl⟩

theorem dependsOnParent_of_endsWithParent
    (ends : (Flags.ofMode resolved.rest).endsWithParent = true) : mode.dependsOnParent = true := by
  change resolved.rest.endsWithParent.getD false = true at ends
  rcases (Resolved.rest_of_ofMode resolution).2 with ⟨same, -⟩ | ⟨isNone, -⟩
  · exact (dependsOnParent_iff mode).mpr (.inl (same ▸ ends))
  · rw [isNone] at ends
    cases ends

theorem dependsOnParent_of_starts {next : Mode} (starts : resolved.rest.starts = some next)
    (depends : next.dependsOnParent = true) : mode.dependsOnParent = true := by
  rcases (Resolved.rest_of_ofMode resolution).2 with ⟨-, same⟩ | ⟨-, contains, isNext⟩
  · exact (dependsOnParent_iff mode).mpr (.inr ⟨next, same ▸ starts, depends⟩)
  · cases starts.symm.trans isNext
    cases depends

end Dependence

namespace CompiledGrammar

variable {mode : Mode}

section Terminators

variable {definition : Definition} {grammar : CompiledGrammar} {origins : List Origin}

variable {number : Nat} {resolved : Resolved}

theorem ComesFrom.flags_eq (comesFrom : grammar.ComesFrom definition origins number mode resolved) :
    (grammar.mode number).flags = Flags.ofMode resolved.rest := by
  obtain ⟨endRegex, keywords, attributes⟩ := comesFrom.attributes
  exact congrArg (·.flags) attributes

theorem ComesFrom.terminator_eq {parent : Nat}
    (comesFrom : grammar.ComesFrom definition origins number mode resolved)
    (ends : (grammar.mode number).flags.endsWithParent = true)
    (isParent : (grammar.mode number).parent = some parent) :
    (grammar.mode number).terminator =
      joinTerminators resolved.endSource (grammar.mode parent).terminator := by
  obtain ⟨endRegex, keywords, attributes⟩ := comesFrom.attributes
  rw [comesFrom.flags_eq] at ends
  have terminator : (grammar.mode number).terminator =
      joinTerminators
        (Compilation.endSourceOf resolved (grammar.mode number).parent.isSome)
        (grammar.inherited resolved (grammar.mode number).parent) :=
    congrArg (·.terminator) attributes
  rw [terminator, isParent, inherited, Compilation.endSourceOf, ends]
  simp

variable (elaborates : grammar.Elaborates definition origins)

include elaborates

theorem leads_dependsOnParent {first reached : Nat} {origin : Origin}
    (isFirst : origins[first]? = some origin) (leads : grammar.Leads first reached) :
    (grammar.mode reached).parent = (grammar.mode first).parent ∧
      ∃ other, origins[reached]? = some other ∧
        (other.mode.dependsOnParent = true → origin.mode.dependsOnParent = true) := by
  induction leads with
  | same => exact ⟨rfl, origin, isFirst, id⟩
  | start _ starts ih =>
    obtain ⟨sameParent, other, isOther, depends⟩ := ih
    obtain ⟨_, resolved, mode, isSame, comesFrom, isNext, -, isOrigin, nextParent⟩ :=
      elaborates.starts starts
    cases isOther.symm.trans isSame
    refine ⟨nextParent.trans sameParent, _, isOrigin, fun nextDepends => depends ?_⟩
    exact dependsOnParent_of_starts comesFrom.resolution isNext nextDepends

/-- The mode that a mode was compiled for ends as the one that contains it does, if it was
given there or its name stands for a mode that depends on the mode around it. -/
theorem parent_of_contains {child : Nat} (contained : child ∈ (grammar.mode number).contains)
    (other : child ≠ number) :
    ∃ origin parent, origins[child]? = some origin ∧
      (grammar.mode child).parent = some parent ∧
      ((∀ name mode, origin.name = some name → definition.modes.get? name = some mode →
          origin.mode ∈ mode.expand → mode.dependsOnParent = true) →
        (grammar.mode parent).terminator = (grammar.mode number).terminator) := by
  have inUse : number < grammar.modes.size := by
    refine Decidable.byContradiction fun notInUse => ?_
    rw [mode_of_not_inUse notInUse] at contained
    cases contained
  obtain ⟨_, resolved, -, comesFrom⟩ := elaborates.comesFrom inUse
  obtain ⟨lists, children, isContains⟩ := comesFrom.children
  rw [isContains] at contained
  obtain ⟨numbers, isList, member⟩ := List.mem_flatten.mp contained
  obtain ⟨_, -, stands⟩ := exists_of_forall₂ children isList
  cases stands with
  | self => exact absurd (List.mem_singleton.mp member) other
  | inline variants =>
    obtain ⟨variant, -, isOrigin, isParent⟩ := exists_of_forall₂ variants member
    exact ⟨_, number, isOrigin, isParent, fun _ => rfl⟩
  | named isMode variants sameEnd _ =>
    obtain ⟨variant, isVariant, isOrigin, isParent⟩ := exists_of_forall₂ variants member
    exact ⟨_, _, isOrigin, isParent, fun depends => sameEnd (depends _ _ rfl isMode isVariant)⟩

end Terminators

/-- Named modes depend on the mode around them whenever one of their variants does. -/
def SharesSafely (definition : Definition) : Prop :=
  ∀ name mode, definition.modes.get? name = some mode →
    ∀ variant ∈ mode.expand, variant.dependsOnParent = true → mode.dependsOnParent = true

/-- A mode that ends with its parent and that a mode contains, or is started by one that it
contains, has the terminator that it would have if it were compiled for that mode, exactly
if the mode that it was compiled for has the same terminator.  It always has if the
grammar shares named modes safely. -/
theorem terminator_of_reused_iff {definition : Definition} {grammar : CompiledGrammar}
    (compiled : compile definition = .ok grammar) :
    ∃ origins, grammar.Elaborates definition origins ∧
      ∀ number child reached, child ∈ (grammar.mode number).contains → child ≠ number →
        grammar.Leads child reached → (grammar.mode reached).flags.endsWithParent = true →
          ∃ origin resolved parent,
            origins[reached]? = some origin ∧
            grammar.ComesFrom definition origins reached origin.mode resolved ∧
            (grammar.mode reached).parent = some parent ∧
            ((grammar.mode reached).terminator =
                joinTerminators resolved.endSource (grammar.mode number).terminator ↔
              (grammar.mode parent).terminator = (grammar.mode number).terminator) ∧
            (SharesSafely definition →
              (grammar.mode reached).terminator =
                joinTerminators resolved.endSource (grammar.mode number).terminator) := by
  obtain ⟨compiler, origins, elaborated, finishes⟩ := elaborated_of_compile compiled
  have elaborates := finishes.elaborates elaborated
  refine ⟨origins, elaborates, ?_⟩
  intro number child reached contained other leads ends
  obtain ⟨first, parent, isFirst, isParent, sameEnd⟩ :=
    parent_of_contains elaborates contained other
  obtain ⟨sameParent, origin, isOrigin, depends⟩ := leads_dependsOnParent elaborates isFirst leads
  obtain ⟨resolved, comesFrom⟩ := elaborates.modes reached origin isOrigin
  have terminator := comesFrom.terminator_eq ends (sameParent.trans isParent)
  refine ⟨origin, resolved, parent, isOrigin, comesFrom, sameParent.trans isParent, ?_, ?_⟩
  · rw [terminator, joinTerminators_inj]
  · intro safe
    rw [terminator, joinTerminators_inj]
    refine sameEnd fun name mode _ isMode isVariant => ?_
    refine safe name mode isMode first.mode isVariant (depends ?_)
    exact dependsOnParent_of_endsWithParent comesFrom.resolution (comesFrom.flags_eq ▸ ends)

/-- A grammar in which two modes that end in different ways contain the same named mode. -/
def bracketsAround (mode : Mode) : Definition :=
  ({ root :=
      { contains := some
          [.inline
            { beginPattern := some (.source "\\(")
              endPattern := some (.source "\\)")
              contains := some [.named "inner"] },
            .inline
              { beginPattern := some (.source "\\[")
                endPattern := some (.source "\\]")
                contains := some [.named "inner"] }] } } :
      Definition)
    |>.withMode "inner" mode

/-- A mode with variants, all of which end with their parent. -/
def endingMode : Mode :=
  { endsWithParent := some true
    variants := some
      [{ beginPattern := some (.source "x") }, { beginPattern := some (.source "y") }] }

def endingVariant : Mode :=
  { variants := some [{ beginPattern := some (.source "x"), endsWithParent := some true }] }

theorem sharesSafely_bracketsAround (depends : mode.dependsOnParent = true) :
    SharesSafely (bracketsAround mode) := by
  intro name other isOther _ _ _
  obtain ⟨entry, found, rfl⟩ := Option.map_eq_some_iff.mp isOther
  have isEntry : entry = ("inner", mode) := List.mem_singleton.mp (List.mem_of_find?_eq_some found)
  rw [isEntry, depends]

theorem terminator_of_reused_iff_ending :
    ∃ grammar, compile (bracketsAround endingMode) = .ok grammar ∧
      5 ∈ (grammar.mode 4).contains ∧ (grammar.mode 5).flags.endsWithParent = true ∧
      ∃ origins origin resolved,
        origins[5]? = some origin ∧
        grammar.ComesFrom (bracketsAround endingMode) origins 5 origin.mode resolved ∧
        (grammar.mode 5).terminator =
          joinTerminators resolved.endSource (grammar.mode 4).terminator := by
  have modes : ((compile (bracketsAround endingMode)).toOption.map fun grammar =>
      ((grammar.mode 4).contains, (grammar.mode 5).flags.endsWithParent)) =
        some ([5, 6], true) := by
    decide +kernel
  obtain ⟨grammar, isGrammar, isModes⟩ := Option.map_eq_some_iff.mp modes
  rw [Success.toOption_eq_some] at isGrammar
  obtain ⟨contains, ends⟩ := Prod.mk.inj isModes
  have contained : 5 ∈ (grammar.mode 4).contains := by simp [contains]
  obtain ⟨origins, -, reused⟩ := terminator_of_reused_iff isGrammar
  obtain ⟨origin, resolved, _, isOrigin, comesFrom, -, -, safe⟩ :=
    reused 4 5 5 contained (by decide) .same ends
  exact ⟨grammar, isGrammar, contained, ends, origins, origin, resolved, isOrigin, comesFrom,
    safe (sharesSafely_bracketsAround rfl)⟩

/-- A variant that ends with its parent is ended by the round bracket inside square ones. -/
theorem shared_variant_keeps_terminator :
    ∃ grammar, compile (bracketsAround endingVariant) = .ok grammar ∧
      (grammar.mode 1).contains = [2] ∧ (grammar.mode 3).contains = [2] ∧
      (grammar.mode 2).flags.endsWithParent = true ∧ (grammar.mode 2).endRegex.isNone ∧
      (grammar.mode 2).terminator = "\\)" ∧ (grammar.mode 3).terminator = "\\]" ∧
      (grammar.mode 2).terminator ≠ joinTerminators none (grammar.mode 3).terminator := by
  have modes : ((compile (bracketsAround endingVariant)).toOption.map fun grammar =>
      ((grammar.mode 1).contains, (grammar.mode 3).contains,
        (grammar.mode 2).flags.endsWithParent, (grammar.mode 2).endRegex.isNone,
        (grammar.mode 2).terminator, (grammar.mode 3).terminator)) =
          some ([2], [2], true, true, "\\)", "\\]") := by
    decide +kernel
  obtain ⟨grammar, isGrammar, isModes⟩ := Option.map_eq_some_iff.mp modes
  rw [Success.toOption_eq_some] at isGrammar
  simp only [Prod.mk.injEq] at isModes
  obtain ⟨first, second, ends, noEnd, terminator, other⟩ := isModes
  refine ⟨grammar, isGrammar, first, second, ends, noEnd, terminator, other, ?_⟩
  rw [terminator, other]
  decide

end CompiledGrammar

end Highlighter.Compiled

import Highlighter.Compiled.Grammar
import Highlighter.Proofs.Success
import Mathlib.Data.List.Forall2
import Mathlib.Data.List.Induction

/-!
# Variants

A mode with variants stands for several modes, one for each leaf of the tree that it forms with its
variants, their variants and so on.  What is set on the way to a leaf is set there, and the deeper
setting counts.  The two names of the scope are merged as two attributes and resolved only then.
-/
namespace Highlighter.Grammar.Mode

open Compiled (CompiledGrammar)
open Compiled.Resolved (resolveClassName)

variable {α : Type} {above path : List Mode} {base : Mode}

/-- The attributes of a mode, its variants apart. -/
inductive IsAttribute : {α : Type} → (Mode → Option α) → Prop where
  | scope : IsAttribute scope
  | className : IsAttribute className
  | beginScope : IsAttribute beginScope
  | endScope : IsAttribute endScope
  | beginPattern : IsAttribute beginPattern
  | endPattern : IsAttribute endPattern
  | matchPattern : IsAttribute matchPattern
  | beginKeywords : IsAttribute beginKeywords
  | beforeMatch : IsAttribute beforeMatch
  | keywords : IsAttribute keywords
  | illegal : IsAttribute illegal
  | contains : IsAttribute contains
  | starts : IsAttribute starts
  | relevance : IsAttribute relevance
  | endsWithParent : IsAttribute endsWithParent
  | endsParent : IsAttribute endsParent
  | excludeBegin : IsAttribute excludeBegin
  | excludeEnd : IsAttribute excludeEnd
  | returnBegin : IsAttribute returnBegin
  | returnEnd : IsAttribute returnEnd
  | skip : IsAttribute skip
  | subLanguage : IsAttribute subLanguage
  | hooks : IsAttribute hooks

namespace IsAttribute

variable {value : Mode → Option α}

theorem unset (isAttribute : IsAttribute value) : value {} = none := by
  cases isAttribute <;> rfl

theorem merged (isAttribute : IsAttribute value) (base changes : Mode) :
    value { base.inherit changes with variants := none } =
      (value changes).or (value base) := by
  cases isAttribute <;> rfl

end IsAttribute

mutual

/-- The ways from a mode to the leaves of its tree of variants, from the left to the right.  Each
begins with the mode itself and ends with the leaf, which has no variants or an empty list of
them. -/
def paths : Mode → List (List Mode)
  | mode@{ variants := some (first :: others), .. } =>
      (paths first ++ pathsOfEach others).map (mode :: ·)
  | mode => [[mode]]

def pathsOfEach : List Mode → List (List Mode)
  | [] => []
  | mode :: modes => paths mode ++ pathsOfEach modes

end

/-- What the deepest of the records on a way sets that set an attribute at all. -/
def deepest (value : Mode → Option α) (path : List Mode) : Option α :=
  (path.filterMap value).getLast?

theorem deepest_concat (value : Mode → Option α) (path : List Mode) (mode : Mode) :
    deepest value (path ++ [mode]) = (value mode).or (deepest value path) := by
  cases isSet : value mode <;> simp [deepest, isSet]

/-- A mode is what the records on a way come to. -/
structure Merges (path : List Mode) (leaf : Mode) : Prop where
  noVariants : leaf.variants = none
  attributes : ∀ {α : Type} (value : Mode → Option α), IsAttribute value →
    value leaf = deepest value path

theorem Merges.concat (merges : Merges above base) (changes : Mode) :
    Merges (above ++ [changes]) { base.inherit changes with variants := none } where
  noVariants := rfl
  attributes value isAttribute := by
    rw [isAttribute.merged, deepest_concat, merges.attributes value isAttribute]

mutual

theorem expandUnder_merges :
    (mode : Mode) → (above : List Mode) → (base : Mode) → Merges above base →
      List.Forall₂ (fun path => Merges (above ++ path)) mode.paths (expandUnder base mode)
  | { variants := some (first :: others), .. }, above, base, merges => by
      rw [paths, expandUnder, List.forall₂_map_left_iff]
      refine (List.rel_append (expandUnder_merges first _ _ (merges.concat _))
        (expandEachUnder_merges others _ _ (merges.concat _))).imp fun path leaf isLeaf => ?_
      simpa using isLeaf
  | { variants := none, .. }, _, _, merges => .cons (merges.concat _) .nil
  | { variants := some [], .. }, _, _, merges => .cons (merges.concat _) .nil

theorem expandEachUnder_merges :
    (modes : List Mode) → (above : List Mode) → (base : Mode) → Merges above base →
      List.Forall₂ (fun path => Merges (above ++ path)) (pathsOfEach modes)
        (expandEachUnder base modes)
  | [], _, _, _ => .nil
  | mode :: modes, above, base, merges =>
      List.rel_append (expandUnder_merges mode above base merges)
        (expandEachUnder_merges modes above base merges)

end

theorem merges_nil : Merges [] {} :=
  ⟨rfl, fun _ isAttribute => isAttribute.unset⟩

/-- A mode stands for one mode for each leaf of its tree of variants, in their order.  None of
these has variants, and each attribute of theirs is what the deepest record on the way to the
leaf sets, or unset if none does. -/
theorem expand_merges_paths (mode : Mode) : List.Forall₂ Merges mode.paths mode.expand :=
  expandUnder_merges mode [] {} merges_nil

/-! ## The two names of the scope -/

/-- The scope of a mode under either name. -/
def resolvedScope (mode : Mode) : Option ScopeSpec :=
  (resolveClassName mode).scope

theorem resolvedScope_eq (mode : Mode) : resolvedScope mode = mode.className.or mode.scope :=
  rfl

theorem resolvedScope_inherit_iff (base changes : Mode) :
    resolvedScope (base.inherit changes) =
        ((resolveClassName base).inherit (resolveClassName changes)).scope ↔
      (changes.className = none → ∀ scope ∈ changes.scope, ∀ older ∈ base.className,
        older = scope) := by
  have early : ((resolveClassName base).inherit (resolveClassName changes)).scope =
      (changes.className.or changes.scope).or (base.className.or base.scope) := rfl
  have late : resolvedScope (base.inherit changes) =
      (changes.className.or base.className).or (changes.scope.or base.scope) := rfl
  rw [early, late]
  cases changes.className <;> cases changes.scope <;> cases base.className <;> simp

theorem deepest_resolvedScope (unset : deepest className path = none) :
    deepest resolvedScope path = deepest scope path := by
  induction path using List.reverseRecOn with
  | nil => rfl
  | append_singleton path mode ih =>
    rw [deepest_concat, Option.or_eq_none_iff] at unset
    simp only [deepest_concat, resolvedScope_eq, unset.1, ih unset.2,
      Option.none_or]

/-- The older name of the scope counts before the newer one when all changes are made.  So
resolving it before gives another scope exactly if the changes name the scope by its newer name,
the mode by its older name, and the two differ.  The scope of a variant is the deepest one under
the older name on its way, or else the deepest one under the newer name.  It is the deepest of all
exactly if that agrees with the deepest one under the older name, if there is any. -/
theorem scope_resolved_after_merging (base changes mode : Mode) :
    (resolvedScope (base.inherit changes) =
        ((resolveClassName base).inherit (resolveClassName changes)).scope ↔
      (changes.className = none → ∀ scope ∈ changes.scope, ∀ older ∈ base.className,
        older = scope)) ∧
    List.Forall₂ (fun path leaf =>
        resolvedScope leaf = (deepest className path).or (deepest scope path) ∧
        (resolvedScope leaf = deepest resolvedScope path ↔
          ∀ older ∈ deepest className path, deepest resolvedScope path = some older))
      mode.paths mode.expand := by
  refine ⟨resolvedScope_inherit_iff base changes, ?_⟩
  refine (mode.expandUnder_merges [] {} merges_nil).imp fun path leaf merges => ?_
  have isScope : resolvedScope leaf = (deepest className path).or (deepest scope path) := by
    rw [resolvedScope_eq, merges.attributes _ .className, merges.attributes _ .scope]
    rfl
  refine ⟨isScope, ?_⟩
  rw [isScope]
  cases isOlder : deepest className path with
  | none => simp [deepest_resolvedScope isOlder]
  | some older => simp [eq_comm]

/-- A mode with the older name of the scope, and a variant with the newer name. -/
def renamed : Definition where
  name := "renamed"
  root :=
    { contains := some [.inline
        { className := some (.name "a")
          beginPattern := some (.source "x")
          variants := some [{ scope := some (.name "b") }] }] }

/-- Changes that name the scope by its newer name are lost on a mode that names it by its older
name, where the two are merged and where a grammar is compiled. -/
theorem scope_of_changes_lost :
    resolvedScope (Mode.inherit { className := some (.name "a") } { scope := some (.name "b") }) ≠
        (Mode.inherit (resolveClassName { className := some (.name "a") })
          (resolveClassName { scope := some (.name "b") })).scope ∧
      ∃ grammar, CompiledGrammar.compile renamed = .ok grammar ∧
        (grammar.mode 1).scope = some "a" := by
  have compiles : (CompiledGrammar.compile renamed).toOption.any fun grammar =>
      (grammar.mode 1).scope = some "a" := by decide +kernel
  simp only [Option.any_eq_true, Success.toOption_eq_some, decide_eq_true_eq] at compiles
  exact ⟨by decide, compiles⟩

end Highlighter.Grammar.Mode

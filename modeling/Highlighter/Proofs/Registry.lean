import Highlighter.Proofs.Dictionary
import Highlighter.Proofs.LetterCase
import Highlighter.Registry
import Mathlib.Data.List.Induction

/-!
# Registries and their histories

A registry is what its history makes of it: which grammar a name stands for, and what other
names stand for it, is decided by the latest changes that concern these names.
-/
namespace Highlighter

open Compiled (CompiledGrammar)
open Grammar (Definition)

inductive Registry.Change where
  | register (name : String) (definition : Definition) (aliases : List String)
  | registerAliases (aliases : List String) (name : String)
  | unregister (name : String)

namespace Registry

variable {definition : Definition} {entry : RegistryEntry} {target other : String}

def apply (registry : Registry) : Change → Registry
  | .register name definition aliases => registry.register name definition aliases
  | .registerAliases aliases name => registry.registerAliases aliases name
  | .unregister name => registry.unregister name

/-- The registry after some changes, the earliest first, when there was nothing before. -/
def after (history : List Change) : Registry :=
  history.foldl apply {}

/-! ## What a history says -/

namespace Change

def name : Change → String
  | .register name _ _ | .registerAliases _ name | .unregister name => Unicode.lowercase name

/-- Whether a change registers or removes the grammar with a name. -/
def Decides (change : Change) (name : String) : Prop :=
  match change with
  | .register _ _ _ | .unregister _ => change.name = name
  | .registerAliases _ _ => False

def Registers (change : Change) (name : String) (definition : Definition) : Prop :=
  match change with
  | .register _ registered _ => change.name = name ∧ registered = definition
  | _ => False

def Removes (change : Change) (name : String) : Prop :=
  match change with
  | .unregister _ => change.name = name
  | _ => False

/-- The other names that a change introduces for the name it is about. -/
def aliases : Change → List String
  | .register _ definition aliases => (aliases ++ definition.aliases).map Unicode.lowercase
  | .registerAliases aliases _ => aliases.map Unicode.lowercase
  | .unregister _ => []

end Change

def Latest (concerns : Change → Prop) (history : List Change) (change : Change)
    (later : List Change) : Prop :=
  ∃ earlier, history = earlier ++ change :: later ∧ concerns change ∧
    ∀ next ∈ later, ¬ concerns next

def Registered (history : List Change) (name : String) (definition : Definition) : Prop :=
  ∃ change later, Latest (·.Decides name) history change later ∧
    change.Registers name definition

/-- The latest change that introduces another name introduces it for a target that was not
removed since. -/
def PointsAt (history : List Change) (other target : String) : Prop :=
  ∃ change later, Latest (other ∈ ·.aliases) history change later ∧
    change.name = target ∧ ∀ next ∈ later, ¬ next.Removes target

/-! ## Histories that grow -/

section Growing

variable {concerns : Change → Prop} {history later : List Change} {change last : Change}
  {name : String}

theorem not_latest_nil : ¬ Latest concerns [] change later := by
  rintro ⟨earlier, isHistory, -⟩
  simp at isHistory

theorem latest_snoc_iff :
    Latest concerns (history ++ [last]) change later ↔
      (concerns last ∧ change = last ∧ later = []) ∨
        (¬ concerns last ∧ ∃ before, Latest concerns history change before ∧
          later = before ++ [last]) := by
  constructor
  · rintro ⟨earlier, isHistory, isConcerned, isLatest⟩
    rcases List.eq_nil_or_concat' later with rfl | ⟨before, final, rfl⟩
    · have same := List.append_inj' isHistory rfl
      cases same.2
      exact .inl ⟨isConcerned, rfl, rfl⟩
    · rw [← List.cons_append, ← List.append_assoc] at isHistory
      have same := List.append_inj' isHistory rfl
      cases same.2
      refine .inr ⟨isLatest last (by simp), before, ⟨earlier, same.1, isConcerned, ?_⟩, rfl⟩
      intro next member
      exact isLatest next (List.mem_append_left _ member)
  · rintro (⟨isConcerned, rfl, rfl⟩ |
      ⟨notConcerned, before, ⟨earlier, rfl, isConcerned, isLatest⟩, rfl⟩)
    · exact ⟨history, rfl, isConcerned, by simp⟩
    · refine ⟨earlier, by simp, isConcerned, ?_⟩
      intro next member
      rcases List.mem_append.mp member with isEarlier | isLast
      · exact isLatest next isEarlier
      · rwa [List.mem_singleton.mp isLast]

theorem Change.Registers.decides (registers : change.Registers name definition) :
    change.Decides name := by
  cases change with
  | register => exact registers.1
  | registerAliases => exact registers.elim
  | unregister => exact registers.elim

theorem Change.Registers.name_eq (registers : change.Registers name definition) :
    change.name = name := by
  cases change with
  | register => exact registers.1
  | registerAliases => exact registers.elim
  | unregister => exact registers.elim

theorem registered_snoc_iff :
    Registered (history ++ [last]) name definition ↔
      last.Registers name definition ∨
        (¬ last.Decides name ∧ Registered history name definition) := by
  constructor
  · rintro ⟨change, later, isLatest, registers⟩
    rcases latest_snoc_iff.mp isLatest with ⟨-, rfl, -⟩ | ⟨notDecided, before, wasLatest, -⟩
    · exact .inl registers
    · exact .inr ⟨notDecided, change, before, wasLatest, registers⟩
  · rintro (registers | ⟨notDecided, change, before, wasLatest, registers⟩)
    · exact ⟨last, [], latest_snoc_iff.mpr (.inl ⟨registers.decides, rfl, rfl⟩), registers⟩
    · exact ⟨change, before ++ [last],
        latest_snoc_iff.mpr (.inr ⟨notDecided, before, wasLatest, rfl⟩), registers⟩

theorem pointsAt_snoc_iff :
    PointsAt (history ++ [last]) other target ↔
      (other ∈ last.aliases ∧ last.name = target) ∨
        (other ∉ last.aliases ∧ ¬ last.Removes target ∧ PointsAt history other target) := by
  constructor
  · rintro ⟨change, later, isLatest, isTarget, isKept⟩
    rcases latest_snoc_iff.mp isLatest with ⟨introduces, rfl, -⟩ |
      ⟨notIntroduced, before, wasLatest, rfl⟩
    · exact .inl ⟨introduces, isTarget⟩
    · refine .inr ⟨notIntroduced, isKept last (by simp), change, before, wasLatest, isTarget, ?_⟩
      intro next member
      exact isKept next (List.mem_append_left _ member)
  · rintro (⟨introduces, isTarget⟩ |
      ⟨notIntroduced, notRemoved, change, before, wasLatest, isTarget, wasKept⟩)
    · exact ⟨last, [], latest_snoc_iff.mpr (.inl ⟨introduces, rfl, rfl⟩), isTarget, by simp⟩
    · refine ⟨change, before ++ [last],
        latest_snoc_iff.mpr (.inr ⟨notIntroduced, before, wasLatest, rfl⟩), isTarget, ?_⟩
      intro next member
      rcases List.mem_append.mp member with isEarlier | isLast
      · exact wasKept next isEarlier
      · rwa [List.mem_singleton.mp isLast]

theorem after_snoc (history : List Change) (last : Change) :
    after (history ++ [last]) = (after history).apply last := by
  rw [after, after, List.foldl_append]
  rfl

end Growing

/-! ## Changes to a registry -/

section Changes

variable (registry : Registry)

theorem registerAliases_get? (aliases : List String) (name other : String) :
    (registry.registerAliases aliases name).aliases.get? other =
      if other ∈ aliases.map Unicode.lowercase then some (Unicode.lowercase name)
      else registry.aliases.get? other := by
  simp only [registerAliases]
  generalize registry.aliases = known
  induction aliases generalizing known with
  | nil => simp
  | cons first aliases ih =>
    rw [List.foldl_cons, ih, Dictionary.get?_insert, List.map_cons]
    by_cases isFirst : Unicode.lowercase first = other
    · simp [isFirst]
    · simp [isFirst, Ne.symm isFirst]

theorem apply_grammars (change : Change) (name : String) (definition : Definition) :
    (∃ entry, (registry.apply change).grammars.get? name = some entry ∧
        entry.definition = definition) ↔
      change.Registers name definition ∨
        (¬ change.Decides name ∧ ∃ entry, registry.grammars.get? name = some entry ∧
          entry.definition = definition) := by
  cases change with
  | register given registered aliases =>
    simp only [apply, register, registerAliases, Dictionary.get?_insert, Change.Registers,
      Change.Decides, Change.name]
    split <;> simp_all [RegistryEntry.ofDefinition]
  | registerAliases aliases given =>
    simp [apply, registerAliases, Change.Registers, Change.Decides]
  | unregister given =>
    simp only [apply, unregister, Dictionary.get?_erase, Change.Registers, Change.Decides,
      Change.name]
    split <;> simp_all [eq_comm]

theorem introduced_iff {introduced : List String} {name : String} {known : Option String} :
    (if other ∈ introduced then some name else known) = some target ↔
      (other ∈ introduced ∧ name = target) ∨ (other ∉ introduced ∧ known = some target) := by
  split <;> simp [*]

theorem apply_aliases (change : Change) (other target : String) :
    (registry.apply change).aliases.get? other = some target ↔
      (other ∈ change.aliases ∧ change.name = target) ∨
        (other ∉ change.aliases ∧ ¬ change.Removes target ∧
          registry.aliases.get? other = some target) := by
  cases change with
  | register given registered aliases =>
    rw [apply, register, registerAliases_get?, introduced_iff]
    simp only [Change.aliases, Change.name, Change.Removes, not_false_eq_true, true_and]
  | registerAliases aliases given =>
    rw [apply, registerAliases_get?, introduced_iff]
    simp only [Change.aliases, Change.name, Change.Removes, not_false_eq_true, true_and]
  | unregister given =>
    simp only [apply, unregister, Dictionary.get?_filter, Change.aliases, Change.name,
      Change.Removes, Option.filter_eq_some_iff, List.not_mem_nil, false_and, false_or,
      not_false_eq_true, true_and, bne_iff_ne]
    rw [and_comm, ne_comm]

end Changes

/-! ## What a registry knows -/

section Knowledge

variable (history : List Change)

theorem after_grammars (name : String) (definition : Definition) :
    (∃ entry, (after history).grammars.get? name = some entry ∧
        entry.definition = definition) ↔
      Registered history name definition := by
  induction history using List.reverseRecOn with
  | nil =>
    constructor
    · rintro ⟨entry, isEntry, -⟩
      cases isEntry
    · rintro ⟨change, later, isLatest, -⟩
      exact absurd isLatest not_latest_nil
  | append_singleton history last ih =>
    rw [after_snoc, apply_grammars, ih, registered_snoc_iff]

theorem after_aliases (other target : String) :
    (after history).aliases.get? other = some target ↔ PointsAt history other target := by
  induction history using List.reverseRecOn with
  | nil =>
    constructor
    · intro isAlias
      cases isAlias
    · rintro ⟨change, later, isLatest, -⟩
      exact absurd isLatest not_latest_nil
  | append_singleton history last ih =>
    rw [after_snoc, apply_aliases, ih, pointsAt_snoc_iff]

theorem after_get?_isSome (name : String) :
    (∃ entry, (after history).grammars.get? name = some entry) ↔
      ∃ definition, Registered history name definition := by
  simp only [← after_grammars]
  exact ⟨fun ⟨entry, isEntry⟩ => ⟨_, entry, isEntry, rfl⟩, fun ⟨_, entry, isEntry, _⟩ =>
    ⟨entry, isEntry⟩⟩

end Knowledge

/-! ## What a query gives -/

section Queries

variable {registry : Registry} {query : String} {name : String}

theorem entry?_eq_some_iff :
    registry.entry? query = some (name, entry) ↔
      registry.grammars.get? name = some entry ∧
        (name = Unicode.lowercase query ∨
          registry.grammars.get? (Unicode.lowercase query) = none ∧
            registry.aliases.get? (Unicode.lowercase query) = some name) := by
  simp only [ entry?]
  generalize Unicode.lowercase query = key
  cases isKnown : registry.grammars.get? key with
  | some found =>
    simp only [Option.some.injEq, Prod.mk.injEq, reduceCtorEq, false_and, or_false]
    constructor
    · rintro ⟨rfl, rfl⟩
      exact ⟨isKnown, rfl⟩
    · rintro ⟨isEntry, rfl⟩
      rw [isKnown] at isEntry
      exact ⟨rfl, Option.some.inj isEntry⟩
  | none =>
    simp only [Option.bind_eq_bind, Option.pure_def, Option.bind_eq_some_iff, Option.some.injEq,
      Prod.mk.injEq]
    constructor
    · rintro ⟨target, isTarget, found, isFound, rfl, rfl⟩
      exact ⟨isFound, .inr ⟨trivial, isTarget⟩⟩
    · rintro ⟨isEntry, rfl | ⟨-, isTarget⟩⟩
      · rw [isKnown] at isEntry
        cases isEntry
      · exact ⟨name, isTarget, entry, isEntry, rfl, rfl⟩

theorem resolve?_eq_some_iff :
    registry.resolve? query = some name ↔ ∃ entry, registry.entry? query = some (name, entry) := by
  simp [resolve?]

theorem get?_eq_some_iff :
    registry.get? query = some definition ↔
      ∃ name entry, registry.entry? query = some (name, entry) ∧
        entry.definition = definition := by
  simp [get?]

theorem compiled?_eq :
    registry.compiled? query =
      match registry.get? query with
      | none => .ok none
      | some definition => (CompiledGrammar.compile definition).map some := by
  unfold compiled? get?
  cases registry.entry? query with
  | none => rfl
  | some found => simp only [Option.map_some, found.2.compiled_eq]

theorem names_ordered : registry.names.Pairwise (· < ·) := by
  refine registry.grammars.keys_ordered.imp ?_
  intro earlier later below
  exact compareOfLessAndEq_eq_lt.mp below

end Queries

theorem entry?_of_resolved {history : List Change} {name : String}
    (isEntry : Registry.entry? (after history) query = some (name, entry)) :
    Registry.entry? (after history) name = some (name, entry) := by
  have isHeld := (entry?_eq_some_iff.mp isEntry).1
  obtain ⟨change, later, -, registers⟩ := (after_grammars history name _).mp ⟨entry, isHeld, rfl⟩
  have isLower : Unicode.lowercase name = name := by
    rw [← registers.name_eq]
    cases change <;> exact Unicode.lowercase_lowercase _
  exact entry?_eq_some_iff.mpr ⟨isHeld, .inl isLower.symm⟩

/-- A registry is what its history says.  A query stands for the grammar that was registered last
under it, and without one for the grammar that it was last introduced for, unless that was removed
since.  What is looked up and compiled is the definition that was registered last, and the names
are those of the registered grammars. -/
theorem registry_follows_history (history : List Change) (query : String) :
    let registry := after history
    let key := Unicode.lowercase query
    (∀ name, registry.resolve? query = some name ↔
      (∃ definition, Registered history name definition) ∧
        (name = key ∨
          (¬ ∃ definition, Registered history key definition) ∧ PointsAt history key name)) ∧
    (∀ definition, registry.get? query = some definition ↔
      ∃ name, registry.resolve? query = some name ∧ Registered history name definition) ∧
    registry.compiled? query =
      (match registry.get? query with
        | none => .ok none
        | some definition => (CompiledGrammar.compile definition).map some) ∧
    registry.names.Pairwise (· < ·) ∧
    ∀ name, name ∈ registry.names ↔ ∃ definition, Registered history name definition := by
  refine ⟨?_, ?_, compiled?_eq, names_ordered, ?_⟩
  · intro name
    have unknown : (after history).grammars.get? (Unicode.lowercase query) = none ↔
        ¬ ∃ definition, Registered history (Unicode.lowercase query) definition := by
      rw [← after_get?_isSome, Option.eq_none_iff_forall_ne_some, not_exists]
    simp only [resolve?_eq_some_iff, entry?_eq_some_iff, exists_and_right, after_get?_isSome,
      after_aliases, unknown]
  · intro definition
    simp only [get?_eq_some_iff, resolve?_eq_some_iff]
    constructor
    · rintro ⟨name, entry, isEntry, rfl⟩
      have isHeld := (entry?_eq_some_iff.mp isEntry).1
      exact ⟨name, ⟨entry, isEntry⟩, (after_grammars history name _).mp ⟨entry, isHeld, rfl⟩⟩
    · rintro ⟨name, ⟨entry, isEntry⟩, registered⟩
      have isHeld := (entry?_eq_some_iff.mp isEntry).1
      obtain ⟨held, isAlsoHeld, isDefinition⟩ :=
        (after_grammars history name definition).mpr registered
      rw [isHeld] at isAlsoHeld
      cases isAlsoHeld
      exact ⟨name, entry, isEntry, isDefinition⟩
  · intro name
    rw [names, Dictionary.mem_keys_iff, after_get?_isSome]

end Registry
end Highlighter

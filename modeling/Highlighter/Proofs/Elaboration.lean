import Mathlib.Data.List.Forall2
import Highlighter.Proofs.Arena

/-!
# Where compiled modes come from

Every mode that gets a number comes from a mode of the grammar.  What it contains is made up of
what its children contribute: itself, modes that are compiled for it, or the modes of a named
mode.  While a grammar is compiled there are modes whose children have no numbers yet; in the end
there are none.
-/
namespace Highlighter.Compiled

open Grammar (Child Definition Mode)

variable {parent : Option Nat} {number : Nat} {mode : Mode} {pending : Pending}
  {resolved : Resolved} {name : String} {numbers : List Nat} {draft : Draft}
  {definition : Definition} {compiler : Compiler} {origins : List Origin}

/-- What a compiled mode comes from: a mode without variants and, if it is not given in
place, the name of the mode that it is a variant of. -/
structure Origin where
  mode : Mode
  name : Option String

namespace Compiler

def lookup (compiler : Compiler) (key : String × Option String) : Option (List Nat) :=
  (compiler.named.find? fun entry => entry.1 == key).map Prod.snd

def terminator (compiler : Compiler) (number : Nat) : String :=
  ((compiler.drafts[number]?).map Draft.terminator).getD ""

/-- Modes that have numbers keep all but what they contain and start, and what is noted for
named modes stays. -/
structure Grows (before after : Compiler) : Prop where
  drafts : ∀ (number : Nat) (draft : Draft), before.drafts[number]? = some draft →
    ∃ contains starts, after.drafts[number]? = some { draft with contains, starts }
  named : ∀ key numbers, before.lookup key = some numbers → after.lookup key = some numbers

namespace Grows

variable {before middle after : Compiler}

theorem refl (compiler : Compiler) : Grows compiler compiler where
  drafts := fun _ draft isDraft => ⟨draft.contains, draft.starts, isDraft⟩
  named := fun _ _ noted => noted

theorem trans (first : Grows before middle) (second : Grows middle after) :
    Grows before after where
  drafts := by
    intro number draft isDraft
    obtain ⟨_, _, isMiddle⟩ := first.drafts number draft isDraft
    obtain ⟨contains, starts, isAfter⟩ := second.drafts number _ isMiddle
    exact ⟨contains, starts, isAfter⟩
  named := fun key numbers noted => second.named key numbers (first.named key numbers noted)

theorem size_le (grows : Grows before after) : before.drafts.size ≤ after.drafts.size := by
  refine Nat.le_of_not_lt fun less => ?_
  have isDraft := Array.getElem?_eq_getElem less
  obtain ⟨_, _, isAfter⟩ := grows.drafts _ _ isDraft
  exact absurd (Array.getElem?_eq_some_iff.mp isAfter).1 (Nat.lt_irrefl _)

theorem terminator_eq (grows : Grows before after) (inUse : number < before.drafts.size) :
    after.terminator number = before.terminator number := by
  have isDraft := Array.getElem?_eq_getElem inUse
  obtain ⟨_, _, isAfter⟩ := grows.drafts _ _ isDraft
  rw [terminator, terminator, isDraft, isAfter]
  rfl

end Grows
end Compiler

open Compiler (Grows)

/-! ## Modes and their children -/

section Descriptions

variable (definition : Definition) (compiler : Compiler) (origins : List Origin)

/-- A mode that has a number is the resolved form of a mode, apart from what it contains and
starts. -/
structure Described (mode : Mode) (draft : Draft) (resolved : Resolved) : Prop where
  resolution : Resolved.ofMode mode draft.parent.isSome definition.scopeAliases = .ok resolved
  ending : Compilation.compileEnd (Compilation.endSourceOf resolved draft.parent.isSome)
    definition.caseInsensitive = .ok draft.endRegex
  tables : ∀ table ∈ draft.keywords,
    Regex.compile table.source table.ignoreCase = .ok table.pattern
  drafted : ∃ endRegex keywords,
    draft =
      { Compilation.draftOf resolved draft.parent endRegex
          (Compilation.inheritedBy resolved draft.parent compiler) keywords with
        contains := draft.contains
        starts := draft.starts }

def Placed (number : Nat) (origin : Origin) (parent : Option Nat) : Prop :=
  origins[number]? = some origin ∧ (compiler.drafts[number]?).map Draft.parent = some parent

/-- What a named mode is noted under when a mode refers to it: its name and, if it depends on
the mode around it, the terminator of that mode. -/
def keyOf (name : String) (mode : Mode) (parent : Nat) : String × Option String :=
  (name, if mode.dependsOnParent then some (compiler.terminator parent) else none)

inductive Contributes (number : Nat) : Child Mode → List Nat → Prop where
  | self : Contributes number .self [number]
  | named {name : String} {mode : Mode} {numbers : List Nat}
      (isMode : definition.modes.get? name = some mode)
      (noted : compiler.lookup (keyOf compiler name mode number) = some numbers) :
      Contributes number (.named name) numbers
  | inline {mode : Mode} {numbers : List Nat}
      (placed : List.Forall₂
        (fun variant child => Placed compiler origins child ⟨variant, none⟩ (some number))
        mode.expand numbers) :
      Contributes number (.inline mode) numbers

/-- What a mode contains is what its children stand for, in order, and the mode that it
starts comes behind it and has the same parent. -/
def Filled (number : Nat) : Prop :=
  ∃ draft origin resolved lists,
    compiler.drafts[number]? = some draft ∧ origins[number]? = some origin ∧
    Described definition compiler origin.mode draft resolved ∧
    List.Forall₂ (Contributes definition compiler origins number)
      (resolved.rest.contains.getD []) lists ∧
    draft.contains = lists.flatten ∧
    Option.Rel
      (fun mode next =>
        number < next ∧ Placed compiler origins next ⟨mode, none⟩ draft.parent)
      resolved.rest.starts draft.starts

/-- What is noted for a named mode: one number after another for its variants, all with the
parent under which they were compiled. -/
def Noted (name : String) (condition : Option String) (numbers : List Nat) : Prop :=
  ∃ mode parent first,
    definition.modes.get? name = some mode ∧
    parent < compiler.drafts.size ∧
    (name, condition) = keyOf compiler name mode parent ∧
    numbers = List.range' first mode.expand.length ∧
    List.Forall₂
      (fun variant number => Placed compiler origins number ⟨variant, some name⟩ (some parent))
      mode.expand numbers

/-- What holds of modes that have numbers and of what is noted for named modes, at any time
while a grammar is compiled. -/
structure Elaborating : Prop where
  size : origins.length = compiler.drafts.size
  described : ∀ (number : Nat) (draft : Draft) (origin : Origin),
    compiler.drafts[number]? = some draft → origins[number]? = some origin →
      ∃ resolved, Described definition compiler origin.mode draft resolved
  parents : ∀ (number : Nat) (draft : Draft), compiler.drafts[number]? = some draft →
    ∀ parent ∈ draft.parent, parent < number
  noted : ∀ name condition numbers, compiler.lookup (name, condition) = some numbers →
    Noted definition compiler origins name condition numbers

end Descriptions

theorem Elaborating.parent_inUse (elaborating : Elaborating definition compiler origins)
    (isDraft : compiler.drafts[number]? = some draft) :
    ∀ parent ∈ draft.parent, parent < compiler.drafts.size := by
  intro parent isParent
  exact Nat.lt_trans (elaborating.parents number draft isDraft parent isParent)
    (Array.getElem?_eq_some_iff.mp isDraft).1

/-! ## What stays true while modes get numbers -/

section Growing

variable {definition : Definition} {before after : Compiler} {origins : List Origin}

variable {origin : Origin}

theorem getElem?_append_of_some (isOrigin : origins[number]? = some origin) (added : List Origin) :
    (origins ++ added)[number]? = some origin := by
  rw [List.getElem?_append_left (List.getElem?_eq_some_iff.mp isOrigin).1, isOrigin]

variable (grows : Grows before after)

include grows

theorem inheritedBy_of_grows (inUse : ∀ number ∈ parent, number < before.drafts.size) :
    Compilation.inheritedBy resolved parent after =
      Compilation.inheritedBy resolved parent before := by
  cases parent with
  | none => rfl
  | some parent =>
    have same := grows.terminator_eq (inUse parent rfl)
    unfold Compiler.terminator at same
    simp only [Compilation.inheritedBy, same]

theorem Described.mono (inUse : ∀ number ∈ draft.parent, number < before.drafts.size)
    (described : Described definition before mode draft resolved) (contains : List Nat)
    (starts : Option Nat) :
    Described definition after mode { draft with contains, starts } resolved := by
  obtain ⟨endRegex, keywords, drafted⟩ := described.drafted
  refine ⟨described.resolution, described.ending, described.tables, endRegex, keywords, ?_⟩
  rw [inheritedBy_of_grows grows inUse]
  exact congrArg (fun other : Draft => { other with contains, starts }) drafted

theorem Placed.mono (placed : Placed before origins number origin parent) (added : List Origin) :
    Placed after (origins ++ added) number origin parent := by
  obtain ⟨isOrigin, hasParent⟩ := placed
  obtain ⟨draft, isDraft, isParent⟩ := Option.map_eq_some_iff.mp hasParent
  obtain ⟨contains, starts, isAfter⟩ := grows.drafts number draft isDraft
  exact ⟨getElem?_append_of_some isOrigin added, by rw [isAfter, ← isParent]; rfl⟩

theorem keyOf_of_grows {parent : Nat} (inUse : parent < before.drafts.size) :
    keyOf after name mode parent = keyOf before name mode parent := by
  rw [keyOf, keyOf, grows.terminator_eq inUse]

theorem Contributes.mono (inUse : number < before.drafts.size) {child : Child Mode}
    (contributes : Contributes definition before origins number child numbers)
    (added : List Origin) :
    Contributes definition after (origins ++ added) number child numbers := by
  cases contributes with
  | self => exact .self
  | named isMode noted =>
    rw [← keyOf_of_grows grows inUse] at noted
    exact .named isMode (grows.named _ _ noted)
  | inline placed => exact .inline (placed.imp fun _ _ each => each.mono grows added)

theorem Filled.mono (elaborating : Elaborating definition before origins)
    (filled : Filled definition before origins number)
    (unchanged : after.drafts[number]? = before.drafts[number]?) (added : List Origin) :
    Filled definition after (origins ++ added) number := by
  obtain ⟨draft, origin, resolved, lists, isDraft, isOrigin, described, children, isContains,
    isStarts⟩ := filled
  have inUse := (Array.getElem?_eq_some_iff.mp isDraft).1
  refine ⟨draft, origin, resolved, lists, unchanged.trans isDraft,
    getElem?_append_of_some isOrigin added,
    described.mono grows (elaborating.parent_inUse isDraft) draft.contains draft.starts,
    children.imp fun _ _ each => each.mono grows inUse added, isContains, ?_⟩
  generalize resolved.rest.starts = mode at isStarts ⊢
  generalize draft.starts = next at isStarts ⊢
  cases isStarts with
  | none => exact .none
  | some started => exact .some ⟨started.1, started.2.mono grows added⟩

theorem Noted.mono {condition : Option String}
    (noted : Noted definition before origins name condition numbers) (added : List Origin) :
    Noted definition after (origins ++ added) name condition numbers := by
  obtain ⟨mode, parent, first, isMode, inUse, isKey, isRange, placed⟩ := noted
  refine ⟨mode, parent, first, isMode, Nat.lt_of_lt_of_le inUse grows.size_le, ?_, isRange,
    placed.imp fun _ _ each => each.mono grows added⟩
  rw [keyOf_of_grows grows inUse, isKey]

end Growing

/-! ## Steps of compiling -/

/-- What a part of compiling does, where `touched` are the modes it was to compile the
children of and `left` are those it leaves without: it changes no other modes, all modes
that it gives numbers have their children, and its variants of named modes are noted. -/
structure Completes (definition : Definition) (before after : Compiler)
    (origins added : List Origin) (touched left : List Nat) : Prop where
  elaborating : Elaborating definition after (origins ++ added)
  grows : Grows before after
  unchanged : ∀ number < before.drafts.size, number ∉ touched →
    after.drafts[number]? = before.drafts[number]?
  filled : ∀ number < after.drafts.size, before.drafts.size ≤ number ∨ number ∈ touched →
    number ∉ left → Filled definition after (origins ++ added) number
  noted : ∀ number origin name, before.drafts.size ≤ number →
    (origins ++ added)[number]? = some origin → origin.name = some name →
      ∃ condition numbers, after.lookup (name, condition) = some numbers ∧ number ∈ numbers

namespace Completes

variable {definition : Definition} {before middle after : Compiler}
  {origins added more : List Origin} {touched left others rest : List Nat}

theorem refl (elaborating : Elaborating definition before origins) :
    Completes definition before before origins [] [] [] where
  elaborating := by rwa [List.append_nil]
  grows := .refl before
  unchanged := fun _ _ _ => rfl
  filled := by
    intro number inUse isNew
    rcases isNew with isNew | isTouched
    · exact absurd inUse (Nat.not_lt.mpr isNew)
    · cases isTouched
  noted := by
    intro number origin name isNew isOrigin
    rw [List.append_nil] at isOrigin
    have inUse := (List.getElem?_eq_some_iff.mp isOrigin).1
    rw [elaborating.size] at inUse
    exact absurd inUse (Nat.not_lt.mpr isNew)

/-- Two parts one after another.  What the first leaves is for the second. -/
theorem trans
    (first : Completes definition before middle origins added touched left)
    (second : Completes definition middle after (origins ++ added) more others rest)
    (all : List Nat)
    (settles : ∀ number ∈ left, number ∈ others)
    (outside : ∀ number, number ∈ touched ∨ number ∈ others → number < before.drafts.size →
      number ∈ all)
    (inside : ∀ number ∈ all, number ∈ touched ∨ number ∈ others) :
    Completes definition before after origins (added ++ more) all rest where
  elaborating := by
    rw [← List.append_assoc]
    exact second.elaborating
  grows := first.grows.trans second.grows
  unchanged := by
    intro number inUse untouched
    rw [second.unchanged number (Nat.lt_of_lt_of_le inUse first.grows.size_le)
      fun isOther => untouched (outside number (.inr isOther) inUse),
      first.unchanged number inUse fun isTouched =>
        untouched (outside number (.inl isTouched) inUse)]
  filled := by
    intro number inUse isDue settled
    rw [← List.append_assoc]
    by_cases bySecond : middle.drafts.size ≤ number ∨ number ∈ others
    · exact second.filled number inUse bySecond settled
    · rw [not_or, Nat.not_le] at bySecond
      have byFirst : before.drafts.size ≤ number ∨ number ∈ touched :=
        isDue.imp_right fun isAll => (inside number isAll).resolve_right bySecond.2
      refine (first.filled number bySecond.1 byFirst fun isLeft =>
        bySecond.2 (settles number isLeft)).mono second.grows first.elaborating ?_ more
      exact second.unchanged number bySecond.1 bySecond.2
  noted := by
    intro number origin name isNew isOrigin isName
    rw [← List.append_assoc] at isOrigin
    by_cases bySecond : middle.drafts.size ≤ number
    · exact second.noted number origin name bySecond isOrigin isName
    · have byFirst : number < (origins ++ added).length := by
        rw [first.elaborating.size]
        exact Nat.not_le.mp bySecond
      rw [List.getElem?_append_left byFirst] at isOrigin
      obtain ⟨condition, numbers, noted, member⟩ :=
        first.noted number origin name isNew isOrigin isName
      exact ⟨condition, numbers, second.grows.named _ _ noted, member⟩

/-- A mode that was left gets its children. -/
theorem close (completes : Completes definition before after origins added touched [number])
    (isFilled : Filled definition after (origins ++ added) number) :
    Completes definition before after origins added touched [] where
  elaborating := completes.elaborating
  grows := completes.grows
  unchanged := completes.unchanged
  filled := by
    intro other inUse isDue _
    by_cases same : other = number
    · rwa [same]
    · exact completes.filled other inUse isDue (by simpa using same)
  noted := completes.noted

end Completes

/-! ## Giving modes numbers -/

def Ready (definition : Definition) (compiler : Compiler) (origins : List Origin) (number : Nat)
    (pending : Pending) (parent : Option Nat) : Prop :=
  ∃ draft origin resolved,
    compiler.drafts[number]? = some draft ∧ origins[number]? = some origin ∧
    Described definition compiler origin.mode draft resolved ∧
    pending = Compilation.pendingOf resolved ∧ draft.parent = parent ∧ draft.starts = none

theorem Ready.inUse (ready : Ready definition compiler origins number pending parent) :
    number < compiler.drafts.size := by
  obtain ⟨_, _, _, isDraft, -⟩ := ready
  exact (Array.getElem?_eq_some_iff.mp isDraft).1

theorem Ready.parent_inUse (ready : Ready definition compiler origins number pending parent)
    (elaborating : Elaborating definition compiler origins) :
    ∀ number ∈ parent, number < compiler.drafts.size := by
  obtain ⟨_, _, _, isDraft, -, -, -, rfl, -⟩ := ready
  exact elaborating.parent_inUse isDraft

section Reserving

variable {definition : Definition} {before after : Compiler} {origins : List Origin}

theorem Ready.mono (grows : Grows before after)
    (elaborating : Elaborating definition before origins)
    (ready : Ready definition before origins number pending parent)
    (unchanged : after.drafts[number]? = before.drafts[number]?) (added : List Origin) :
    Ready definition after (origins ++ added) number pending parent := by
  obtain ⟨draft, origin, resolved, isDraft, isOrigin, described, isPending, isParent, isFresh⟩ :=
    ready
  exact ⟨draft, origin, resolved, unchanged.trans isDraft, getElem?_append_of_some isOrigin added,
    described.mono grows (elaborating.parent_inUse isDraft) draft.contains draft.starts, isPending,
    isParent, isFresh⟩

theorem Ready.filled (ready : Ready definition before origins number pending parent)
    (elaborating : Elaborating definition before origins) {lists : List (List Nat)}
    (contributed : List.Forall₂ (Contributes definition before origins number)
      pending.contains lists) (grows : Grows before after) {added : List Origin}
    (starts : Option Nat)
    (changed : ∀ draft, before.drafts[number]? = some draft → draft.starts = none →
      after.drafts[number]? = some { draft with contains := lists.flatten, starts := starts })
    (started : Option.Rel
      (fun mode next =>
        number < next ∧ Placed after (origins ++ added) next ⟨mode, none⟩ parent)
      pending.starts starts) :
    Filled definition after (origins ++ added) number := by
  have inUse := ready.inUse
  obtain ⟨draft, origin, resolved, isDraft, isOrigin, described, rfl, rfl, isFresh⟩ := ready
  exact ⟨_, origin, resolved, lists, changed draft isDraft isFresh,
    getElem?_append_of_some isOrigin added,
    described.mono grows (elaborating.parent_inUse isDraft) _ _,
    contributed.imp fun _ _ each => each.mono grows inUse added, rfl, started⟩

theorem described_draftOf
    (resolution : Resolved.ofMode mode parent.isSome definition.scopeAliases = .ok resolved)
    {endRegex : Option Regex}
    (ending : Compilation.compileEnd (Compilation.endSourceOf resolved parent.isSome)
      definition.caseInsensitive = .ok endRegex) {keywords : Option KeywordTable}
    (tables : ∀ table ∈ keywords,
      Regex.compile table.source table.ignoreCase = .ok table.pattern) :
    Described definition before mode
      (Compilation.draftOf resolved parent endRegex
        (Compilation.inheritedBy resolved parent before) keywords) resolved :=
  ⟨resolution, ending, tables, endRegex, keywords, rfl⟩

theorem grows_push (before : Compiler) (draft : Draft) :
    Grows before { before with drafts := before.drafts.push draft } where
  drafts := by
    intro number old isOld
    refine ⟨old.contains, old.starts, ?_⟩
    rw [Array.getElem?_push, if_neg, isOld]
    exact Nat.ne_of_lt (Array.getElem?_eq_some_iff.mp isOld).1
  named := fun _ _ noted => noted

theorem unchanged_push (before : Compiler) (draft : Draft) (inUse : number < before.drafts.size) :
    (before.drafts.push draft)[number]? = before.drafts[number]? := by
  rw [Array.getElem?_push, if_neg (Nat.ne_of_lt inUse)]

variable {mode : Mode} {parent : Option Nat} {draft : Draft} {pending : Pending}
  (elaborating : Elaborating definition before origins)
  (reserved : Compilation.Reserved definition mode parent before draft pending)

include elaborating reserved

theorem placed_push (name : Option String) :
    Placed { before with drafts := before.drafts.push draft } (origins ++ [⟨mode, name⟩])
      before.drafts.size ⟨mode, name⟩ parent := by
  obtain ⟨resolved, endRegex, keywords, -, -, -, rfl, -⟩ := reserved.described
  refine ⟨?_, ?_⟩
  · rw [← elaborating.size, List.getElem?_concat_length]
  · rw [Array.getElem?_push_size]
    rfl

variable (inUse : ∀ number ∈ parent, number < before.drafts.size)

include inUse

theorem elaborating_push (name : Option String) :
    Elaborating definition { before with drafts := before.drafts.push draft }
      (origins ++ [⟨mode, name⟩]) := by
  obtain ⟨resolved, endRegex, keywords, resolution, ending, tables, rfl, -⟩ := reserved.described
  have grows := grows_push before (Compilation.draftOf resolved parent endRegex
    (Compilation.inheritedBy resolved parent before) keywords)
  refine ⟨?_, ?_, ?_, ?_⟩
  · simp [elaborating.size]
  · intro number draft origin isDraft isOrigin
    rw [Array.getElem?_push] at isDraft
    split at isDraft
    · rename_i isNew
      cases isDraft
      rw [isNew, ← elaborating.size, List.getElem?_concat_length] at isOrigin
      cases isOrigin
      exact ⟨resolved, (described_draftOf resolution ending tables).mono grows inUse [] none⟩
    · have old := (Array.getElem?_eq_some_iff.mp isDraft).1
      rw [List.getElem?_append_left (elaborating.size ▸ old)] at isOrigin
      obtain ⟨resolved, described⟩ := elaborating.described number draft origin isDraft isOrigin
      exact ⟨resolved, described.mono grows (elaborating.parent_inUse isDraft) draft.contains
        draft.starts⟩
  · intro number draft isDraft
    rw [Array.getElem?_push] at isDraft
    split at isDraft
    · rename_i isNew
      cases isDraft
      rw [isNew]
      exact inUse
    · exact elaborating.parents number draft isDraft
  · intro name condition numbers noted
    exact (elaborating.noted name condition numbers noted).mono grows _

theorem ready_push (name : Option String) :
    Ready definition { before with drafts := before.drafts.push draft }
      (origins ++ [⟨mode, name⟩]) before.drafts.size pending parent := by
  obtain ⟨resolved, endRegex, keywords, resolution, ending, tables, rfl, rfl⟩ := reserved.described
  have grows := grows_push before (Compilation.draftOf resolved parent endRegex
    (Compilation.inheritedBy resolved parent before) keywords)
  refine ⟨_, ⟨mode, name⟩, resolved, Array.getElem?_push_size, ?_,
    (described_draftOf resolution ending tables).mono grows inUse [] none, rfl, rfl, rfl⟩
  rw [← elaborating.size, List.getElem?_concat_length]

end Reserving

namespace Compilation

variable {definition : Definition}

variable {before : Compiler} {origins : List Origin} {compiler : Compiler}

theorem reserve_completes (elaborating : Elaborating definition before origins)
    (inUse : ∀ number ∈ parent, number < before.drafts.size) :
    Leads (reserve definition mode parent) before fun result after =>
      Completes definition before after origins [⟨mode, none⟩] [] [result.1] ∧
      Ready definition after (origins ++ [⟨mode, none⟩]) result.1 result.2 parent ∧
      Placed after (origins ++ [⟨mode, none⟩]) result.1 ⟨mode, none⟩ parent ∧
      result.1 = before.drafts.size := by
  refine (reserve_leads definition mode parent before).imp ?_
  rintro ⟨number, pending⟩ after ⟨rfl, draft, reserved, rfl⟩
  refine ⟨⟨elaborating_push elaborating reserved inUse none, grows_push before draft, ?_, ?_, ?_⟩,
    ready_push elaborating reserved inUse none, placed_push elaborating reserved none, rfl⟩
  · intro number inUse _
    exact unchanged_push before draft inUse
  · intro number inUse isNew isOther
    rw [Array.size_push] at inUse
    simp only [List.not_mem_nil, or_false, List.mem_singleton] at isNew isOther
    omega
  · intro number origin name isNew isOrigin isName
    rw [List.getElem?_append_right (elaborating.size ▸ isNew)] at isOrigin
    have member := List.mem_of_getElem? isOrigin
    rw [List.mem_singleton.mp member] at isName
    cases isName

theorem reserveEach_leads {parent : Nat} (name : String) (variants : List Mode)
    (elaborating : Elaborating definition before origins) (inUse : parent < before.drafts.size) :
    Leads (variants.mapM fun variant => reserve definition variant (some parent)) before
      fun reserved after =>
        Elaborating definition after (origins ++ variants.map (⟨·, some name⟩)) ∧
        Grows before after ∧
        (∀ number < before.drafts.size, after.drafts[number]? = before.drafts[number]?) ∧
        after.named = before.named ∧
        after.drafts.size = before.drafts.size + variants.length ∧
        reserved.map Prod.fst = List.range' before.drafts.size variants.length ∧
        List.Forall₂
          (fun variant number =>
            Placed after (origins ++ variants.map (⟨·, some name⟩)) number
              ⟨variant, some name⟩ (some parent))
          variants (reserved.map Prod.fst) ∧
        ∀ entry ∈ reserved,
          Ready definition after (origins ++ variants.map (⟨·, some name⟩)) entry.1 entry.2
            (some parent) := by
  induction variants generalizing before origins with
  | nil =>
    refine Leads.pure ⟨?_, .refl before, fun _ _ => rfl, rfl, rfl, rfl, .nil, by simp⟩
    rwa [List.map_nil, List.append_nil]
  | cons variant variants ih =>
    rw [List.mapM_cons]
    refine Leads.bind (reserve_leads definition variant (some parent) before) ?_
    rintro ⟨number, pending⟩ middle ⟨rfl, draft, reserved, rfl⟩
    have parentInUse : ∀ number ∈ some parent, number < before.drafts.size := by
      rintro number ⟨⟩
      exact inUse
    have first := elaborating_push elaborating reserved parentInUse (some name)
    refine Leads.bind (ih first ?_) ?_
    · rw [Array.size_push]
      exact Nat.lt_succ_of_lt inUse
    rintro others after ⟨elaborated, grows, unchanged, sameNamed, size, numbers, placed, ready⟩
    refine Leads.pure ?_
    rw [List.append_assoc] at elaborated placed ready
    simp only [Array.size_push] at unchanged size numbers
    refine ⟨elaborated, (grows_push before draft).trans grows, ?_, sameNamed, ?_, ?_,
      .cons ?_ placed, ?_⟩
    · intro number inUse
      rw [unchanged number (Nat.lt_succ_of_lt inUse), unchanged_push before draft inUse]
    · rw [size, List.length_cons]
      omega
    · rw [List.map_cons, numbers, List.length_cons, List.range'_succ]
    · have isPlaced := (placed_push elaborating reserved (some name)).mono grows
        (variants.map (⟨·, some name⟩))
      rwa [List.append_assoc] at isPlaced
    · intro entry member
      rcases List.mem_cons.mp member with rfl | isOther
      · have isReady := (ready_push elaborating reserved parentInUse (some name)).mono grows
          first (unchanged _ (Nat.lt_succ_self _)) (variants.map (⟨·, some name⟩))
        rwa [List.append_assoc] at isReady
      · exact ready entry isOther

/-! ## Noting named modes -/

/-- The state after the numbers of a named mode have been noted. -/
def noting (key : String × Option String) (numbers : List Nat) (compiler : Compiler) : Compiler :=
  { compiler with named := (key, numbers) :: compiler.named }

theorem cached?_run (key : String × Option String) (compiler : Compiler) :
    (cached? key).run compiler = .ok (compiler.lookup key, compiler) :=
  rfl

theorem cache_run (key : String × Option String) (numbers : List Nat) (compiler : Compiler) :
    (cache key numbers).run compiler = .ok ((), noting key numbers compiler) :=
  rfl

theorem lookup_noting (key other : String × Option String) (numbers : List Nat)
    (compiler : Compiler) :
    (noting key numbers compiler).lookup other =
      if key = other then some numbers else compiler.lookup other := by
  rw [Compiler.lookup, Compiler.lookup, noting, List.find?_cons]
  by_cases same : key = other
  · simp [same]
  · simp [same, beq_eq_false_iff_ne.mpr same]

theorem grows_noting {key : String × Option String} (isNew : compiler.lookup key = none)
    (numbers : List Nat) : Grows compiler (noting key numbers compiler) where
  drafts := fun _ draft isDraft => ⟨draft.contains, draft.starts, isDraft⟩
  named := by
    intro other found isNoted
    rw [lookup_noting, if_neg, isNoted]
    rintro rfl
    cases isNew.symm.trans isNoted

theorem noting_completes {parent : Nat} {after : Compiler}
    (isMode : definition.modes.get? name = some mode) (inUse : parent < before.drafts.size)
    (isNew : before.lookup (keyOf before name mode parent) = none)
    (elaborated : Elaborating definition after (origins ++ mode.expand.map (⟨·, some name⟩)))
    (sameSize : origins.length = before.drafts.size) (grows : Grows before after)
    (unchanged : ∀ number < before.drafts.size,
      after.drafts[number]? = before.drafts[number]?) (sameNamed : after.named = before.named)
    (size : after.drafts.size = before.drafts.size + mode.expand.length)
    (isRange : numbers = List.range' before.drafts.size mode.expand.length) (placed : List.Forall₂
      (fun variant number =>
        Placed after (origins ++ mode.expand.map (⟨·, some name⟩)) number
          ⟨variant, some name⟩ (some parent))
      mode.expand numbers) :
    Completes definition before (noting (keyOf before name mode parent) numbers after) origins
      (mode.expand.map (⟨·, some name⟩)) [] numbers := by
  have sameLookup : after.lookup (keyOf before name mode parent) = none := by
    rwa [Compiler.lookup, sameNamed]
  have growsMore := grows_noting sameLookup numbers
  have isNoted : (noting (keyOf before name mode parent) numbers after).lookup
      (keyOf before name mode parent) = some numbers := by
    rw [lookup_noting, if_pos rfl]
  refine ⟨⟨elaborated.size, ?_, elaborated.parents, ?_⟩, grows.trans growsMore,
    fun number inUse _ => unchanged number inUse, ?_, ?_⟩
  · intro number draft origin isDraft isOrigin
    obtain ⟨resolved, described⟩ := elaborated.described number draft origin isDraft isOrigin
    exact ⟨resolved, described.mono growsMore (elaborated.parent_inUse isDraft) draft.contains
      draft.starts⟩
  · intro other condition found noted
    rw [lookup_noting] at noted
    split at noted
    · rename_i isKey
      cases noted
      cases isKey
      refine ⟨mode, parent, _, isMode, Nat.lt_of_lt_of_le inUse grows.size_le, ?_, isRange, ?_⟩
      · exact (keyOf_of_grows (grows.trans growsMore) inUse).symm
      · refine placed.imp fun _ _ each => ?_
        have isPlaced := each.mono growsMore []
        rwa [List.append_nil] at isPlaced
    · have old := (elaborated.noted other condition found noted).mono growsMore []
      rwa [List.append_nil] at old
  · intro number inUse isNumber isOther
    simp only [List.not_mem_nil, or_false] at isNumber
    refine absurd (List.mem_range'_1.mpr ⟨isNumber, ?_⟩) (isRange ▸ isOther)
    exact size ▸ inUse
  · intro number origin other isNumber isOrigin isName
    rw [List.getElem?_append_right (sameSize ▸ isNumber)] at isOrigin
    obtain ⟨variant, -, rfl⟩ := List.mem_map.mp (List.mem_of_getElem? isOrigin)
    cases isName
    refine ⟨_, numbers, isNoted, ?_⟩
    have below := (List.getElem?_eq_some_iff.mp isOrigin).1
    rw [List.length_map, sameSize] at below
    rw [isRange]
    exact List.mem_range'_1.mpr ⟨isNumber, by omega⟩

/-! ## Compiling what modes contain and start -/

/-- An action compiles modes together with all that they contain. -/
def Builds {α : Type} (definition : Definition) (action : Compilation α) (before : Compiler)
    (origins : List Origin) (result : α → Compiler → List Origin → Prop) : Prop :=
  Leads action before fun value after =>
    ∃ added, Completes definition before after origins added [] [] ∧
      result value after (origins ++ added)

/-- What is compiled for one item after another, if nothing that comes later takes back what
holds of it. -/
theorem Builds.mapM {α ι : Type} {action : ι → Compilation α} {bound : Nat}
    (result : ι → α → Compiler → List Origin → Prop)
    (each : ∀ item before origins, Elaborating definition before origins →
      bound < before.drafts.size → Builds definition (action item) before origins (result item))
    (stays : ∀ item value before after origins added, Grows before after →
      bound < before.drafts.size → result item value before origins →
        result item value after (origins ++ added)) (items : List ι)
    (elaborating : Elaborating definition before origins) (inUse : bound < before.drafts.size) :
    Builds definition (items.mapM action) before origins fun values after origins =>
      List.Forall₂ (fun item value => result item value after origins) items values := by
  induction items generalizing before origins with
  | nil => exact Leads.pure ⟨[], .refl elaborating, .nil⟩
  | cons item items ih =>
    rw [List.mapM_cons]
    refine Leads.bind (each item before origins elaborating inUse) ?_
    rintro value middle ⟨added, completes, holds⟩
    have stillInUse := Nat.lt_of_lt_of_le inUse completes.grows.size_le
    refine Leads.bind (ih completes.elaborating stillInUse) ?_
    rintro values after ⟨more, completesMore, allHold⟩
    refine Leads.pure ⟨added ++ more, completes.trans completesMore _ ?_ ?_ ?_, ?_⟩
    · simp
    · simp
    · simp
    · rw [← List.append_assoc]
      exact .cons (stays _ _ _ _ _ _ completesMore.grows stillInUse holds) allHold

/-- Compiles what a mode that is ready contains and starts. -/
def Fills (definition : Definition) (fill : Filler) : Prop :=
  ∀ number pending parent before origins, Elaborating definition before origins →
    Ready definition before origins number pending parent →
      Leads (fill number pending parent) before fun _ after =>
        ∃ added, Completes definition before after origins added [number] []

/-- The next level of nesting compiles what modes contain and start, if there is one. -/
def DeeperFills (definition : Definition) (deeper : Deeper) : Prop :=
  ∀ levels fill, deeper = some (levels, fill) → Fills definition fill

theorem fillEach_completes {fill : Filler} (fills : Fills definition fill) (parent : Option Nat)
    (reserved : List (Nat × Pending)) (nodup : (reserved.map Prod.fst).Nodup)
    (elaborating : Elaborating definition before origins)
    (ready : ∀ entry ∈ reserved, Ready definition before origins entry.1 entry.2 parent) :
    Leads
      (ForIn.forIn reserved PUnit.unit fun entry _ => do
        fill entry.1 entry.2 parent
        return ForInStep.yield PUnit.unit)
      before fun _ after =>
        ∃ added, Completes definition before after origins added (reserved.map Prod.fst) [] := by
  induction reserved generalizing before origins with
  | nil => exact Leads.pure ⟨[], .refl elaborating⟩
  | cons entry reserved ih =>
    rw [List.map_cons, List.nodup_cons] at nodup
    rw [List.forIn_cons]
    have first : Leads
        (do
          fill entry.1 entry.2 parent
          return ForInStep.yield PUnit.unit)
        before fun step after =>
          step = ForInStep.yield PUnit.unit ∧
            ∃ added, Completes definition before after origins added [entry.1] [] := by
      refine Leads.bind (fills entry.1 entry.2 parent before origins elaborating
        (ready entry List.mem_cons_self)) ?_
      intro _ middle completes
      exact Leads.pure ⟨rfl, completes⟩
    refine Leads.bind first ?_
    rintro _ middle ⟨rfl, added, completes⟩
    have stillReady : ∀ other ∈ reserved,
        Ready definition middle (origins ++ added) other.1 other.2 parent := by
      intro other member
      have isReady := ready other (List.mem_cons_of_mem _ member)
      refine isReady.mono completes.grows elaborating
        (completes.unchanged _ isReady.inUse ?_) added
      intro same
      exact nodup.1 (List.mem_singleton.mp same ▸ List.mem_map_of_mem member)
    refine (ih nodup.2 completes.elaborating stillReady).imp ?_
    rintro _ after ⟨more, completesMore⟩
    refine ⟨added ++ more, completes.trans completesMore _ ?_ ?_ ?_⟩
    · simp
    · intro number isTouched _
      simpa using isTouched
    · intro number member
      simpa using member

def updated (number : Nat) (change : Draft → Draft) (compiler : Compiler) : Compiler :=
  { compiler with drafts := compiler.drafts.modify number change }

theorem update_run (number : Nat) (change : Draft → Draft) (compiler : Compiler) :
    (update number change).run compiler = .ok ((), updated number change compiler) :=
  rfl

theorem updated_self {change : Draft → Draft} (isDraft : compiler.drafts[number]? = some draft) :
    (updated number change compiler).drafts[number]? = some (change draft) := by
  rw [updated, Array.getElem?_modify, if_pos rfl, isDraft]
  rfl

theorem update_completes (number : Nat) (change : Draft → Draft)
    (keeps : ∀ draft, ∃ contains starts, change draft = { draft with contains, starts })
    (elaborating : Elaborating definition before origins) :
    Completes definition before (updated number change before) origins [] [number] [number] := by
  have grows : Grows before (updated number change before) := by
    refine ⟨?_, fun _ _ noted => noted⟩
    intro other draft isDraft
    rw [updated, Array.getElem?_modify, isDraft]
    split
    · obtain ⟨contains, starts, changed⟩ := keeps draft
      exact ⟨contains, starts, congrArg some changed⟩
    · exact ⟨draft.contains, draft.starts, rfl⟩
  have size : (updated number change before).drafts.size = before.drafts.size :=
    Array.size_modify
  -- Every mode of the new state is one of the old, apart from what it contains and starts.
  have wasDraft : ∀ (other : Nat) (draft : Draft),
      (updated number change before).drafts[other]? = some draft →
        ∃ old contains starts, before.drafts[other]? = some old ∧
          draft = { old with contains, starts } := by
    intro other draft isDraft
    have inUse := size ▸ (Array.getElem?_eq_some_iff.mp isDraft).1
    have isOld := Array.getElem?_eq_getElem inUse
    obtain ⟨contains, starts, isNew⟩ := grows.drafts other _ isOld
    exact ⟨_, contains, starts, isOld, Option.some.inj (isDraft.symm.trans isNew)⟩
  refine ⟨⟨?_, ?_, ?_, ?_⟩, grows, ?_, ?_, ?_⟩
  · rw [List.append_nil, elaborating.size, size]
  · intro other draft origin isDraft isOrigin
    rw [List.append_nil] at isOrigin
    obtain ⟨old, contains, starts, isOld, rfl⟩ := wasDraft other draft isDraft
    obtain ⟨resolved, described⟩ := elaborating.described other old origin isOld isOrigin
    exact ⟨resolved, described.mono grows (elaborating.parent_inUse isOld) contains starts⟩
  · intro other draft isDraft
    obtain ⟨old, contains, starts, isOld, rfl⟩ := wasDraft other draft isDraft
    exact elaborating.parents other old isOld
  · intro name condition numbers noted
    exact (elaborating.noted name condition numbers noted).mono grows []
  · intro other _ isOther
    rw [updated, Array.getElem?_modify, if_neg fun same => isOther (by simp [same])]
  · intro other inUse isDue isOther
    rw [size] at inUse
    exact absurd (isDue.resolve_left (Nat.not_le.mpr inUse)) isOther
  · intro other origin name isNew isOrigin
    rw [List.append_nil] at isOrigin
    have old := elaborating.size ▸ (List.getElem?_eq_some_iff.mp isOrigin).1
    exact absurd old (Nat.not_lt.mpr isNew)

section Levels

variable {deeper : Deeper} (below : DeeperFills definition deeper) {origins : List Origin}

include below

theorem compileMode_builds (elaborating : Elaborating definition before origins)
    (inUse : ∀ number ∈ parent, number < before.drafts.size) :
    Builds definition (compileMode definition deeper mode parent) before origins
      fun number after origins =>
        before.drafts.size ≤ number ∧ Placed after origins number ⟨mode, none⟩ parent := by
  unfold compileMode
  split
  · rename_i levels fill
    refine Leads.bind (reserve_completes elaborating inUse) ?_
    rintro ⟨number, pending⟩ middle ⟨completes, ready, placed, isNumber⟩
    refine Leads.bind (below _ fill rfl number pending parent middle _ completes.elaborating
      ready) ?_
    rintro _ after ⟨added, completesMore⟩
    refine Leads.pure ⟨_, completes.trans completesMore _ ?_ ?_ ?_, Nat.le_of_eq isNumber.symm, ?_⟩
    · simp
    · simp only [List.not_mem_nil, List.mem_singleton, false_or]
      rintro other rfl inUse
      omega
    · simp
    · rw [← List.append_assoc]
      exact placed.mono completesMore.grows added
  · exact Leads.throw

theorem namedMode_builds {parent : Nat} (elaborating : Elaborating definition before origins)
    (inUse : parent < before.drafts.size) :
    Builds definition (namedMode definition deeper name parent) before origins
      fun numbers after origins =>
        Contributes definition after origins parent (.named name) numbers := by
  unfold namedMode
  split
  · rename_i mode isMode
    refine Leads.bind_run (terminatorOf_run parent before) ?_
    refine Leads.bind_run (cached?_run (keyOf before name mode parent) before) ?_
    cases isNoted : before.lookup (keyOf before name mode parent) with
    | some numbers =>
      refine Leads.pure ⟨[], .refl elaborating, .named isMode isNoted⟩
    | none =>
      cases deeper with
      | none => exact Leads.throw
      | some level =>
        obtain ⟨levels, fill⟩ := level
        refine Leads.bind (reserveEach_leads name mode.expand elaborating inUse) ?_
        rintro reserved middle ⟨elaborated, grows, unchanged, sameNamed, size, isRange, placed,
          ready⟩
        have completes := noting_completes isMode inUse isNoted elaborated elaborating.size
          grows unchanged sameNamed size isRange placed
        have isReady : ∀ entry ∈ reserved, Ready definition
            (noting (keyOf before name mode parent) (reserved.map Prod.fst) middle)
            (origins ++ mode.expand.map (⟨·, some name⟩)) entry.1 entry.2 (some parent) := by
          intro entry member
          have stillReady := (ready entry member).mono
            (grows_noting (by rwa [Compiler.lookup, sameNamed]) (reserved.map Prod.fst))
            elaborated rfl []
          rwa [List.append_nil] at stillReady
        have distinct : (reserved.map Prod.fst).Nodup := by
          rw [isRange]
          exact List.nodup_range'
        refine Leads.bind_run (cache_run (keyOf before name mode parent) _ middle) ?_
        refine Leads.bind (fillEach_completes (below levels fill rfl) (some parent) reserved
          distinct completes.elaborating isReady) ?_
        rintro _ after ⟨added, completesMore⟩
        refine Leads.pure ⟨_, completes.trans completesMore _ ?_ ?_ ?_, .named isMode ?_⟩
        · exact fun _ member => member
        · intro number isTouched old
          simp only [List.not_mem_nil, false_or, isRange, List.mem_range'_1] at isTouched
          omega
        · simp
        · rw [keyOf_of_grows (completes.grows.trans completesMore.grows) inUse]
          refine completesMore.grows.named _ _ ?_
          rw [lookup_noting, if_pos rfl]
  · exact Leads.throw

theorem compileChild_builds (child : Child Mode)
    (elaborating : Elaborating definition before origins) (inUse : number < before.drafts.size) :
    Builds definition (compileChild definition deeper number parent child) before origins
      fun numbers after origins => Contributes definition after origins number child numbers := by
  cases child with
  | self =>
    simp only [compileChild]
    split
    · exact Leads.throw
    · exact Leads.pure ⟨[], .refl elaborating, .self⟩
  | named name => exact namedMode_builds below elaborating inUse
  | inline mode =>
    refine Leads.imp (Builds.mapM
      (fun variant child after origins =>
        Placed after origins child ⟨variant, none⟩ (some number))
      ?_ ?_ mode.expand elaborating inUse) ?_
    · intro variant before origins elaborating inUse
      refine (compileMode_builds below elaborating ?_).imp ?_
      · rintro parent ⟨⟩
        exact inUse
      · rintro child after ⟨added, completes, -, placed⟩
        exact ⟨added, completes, placed⟩
    · intro variant child before after origins added grows _ placed
      exact placed.mono grows added
    · rintro numbers after ⟨added, completes, placed⟩
      exact ⟨added, completes, .inline placed⟩

theorem fillWith_fills : Fills definition (fillWith definition deeper) := by
  intro number pending parent before origins elaborating ready
  have inUse := ready.inUse
  unfold fillWith
  refine Leads.bind (Builds.mapM
    (fun child numbers after origins => Contributes definition after origins number child numbers)
    (fun child before origins elaborating inUse =>
      compileChild_builds below child elaborating inUse)
    (fun child numbers before after origins added grows inUse contributes =>
      contributes.mono grows inUse added) pending.contains elaborating inUse) ?_
  rintro children middle ⟨added, completes, contributed⟩
  have stillReady := ready.mono completes.grows elaborating
    (completes.unchanged number inUse (by simp)) added
  refine Leads.bind_run (update_run _ _ middle) ?_
  have contained := update_completes number
    (fun draft => { draft with contains := children.flatten })
    (fun draft => ⟨_, _, rfl⟩) completes.elaborating
  cases isPending : pending.starts with
  | none =>
    refine Leads.pure ⟨_, (completes.trans contained [number] ?_ ?_ ?_).close ?_⟩
    · simp
    · simp
    · simp
    rw [← List.append_assoc]
    refine stillReady.filled completes.elaborating contributed contained.grows none ?_ ?_
    · intro draft isDraft isFresh
      rw [updated_self isDraft, ← isFresh]
    · rw [isPending]
      exact .none
  | some mode =>
    have numberInUse := Nat.lt_of_lt_of_le stillReady.inUse contained.grows.size_le
    refine Leads.bind (compileMode_builds below contained.elaborating ?_) ?_
    · intro parent isParent
      exact Nat.lt_of_lt_of_le
        (stillReady.parent_inUse completes.elaborating parent isParent) contained.grows.size_le
    rintro next later ⟨more, completesNext, isNew, placed⟩
    have started := update_completes number (fun draft => { draft with starts := some next })
      (fun draft => ⟨_, _, rfl⟩) completesNext.elaborating
    have behind := completesNext.trans started [number] (by simp) (by simp) (by simp)
    have completesNumber := contained.trans behind [number] (by simp) (by simp) (by simp)
    intro _ after success
    rw [update_run] at success
    cases success
    refine ⟨_, (completes.trans completesNumber [number] ?_ ?_ ?_).close ?_⟩
    · simp
    · simp
    · simp
    rw [← List.append_assoc]
    refine stillReady.filled completes.elaborating contributed completesNumber.grows (some next)
      ?_ ?_
    · intro draft isDraft _
      have isLater := (completesNext.unchanged number numberInUse (by simp)).trans
        (updated_self isDraft)
      exact updated_self isLater
    · rw [isPending]
      refine .some ⟨Nat.lt_of_lt_of_le numberInUse isNew, ?_⟩
      have isPlaced := placed.mono started.grows []
      rwa [List.append_assoc, List.append_assoc] at isPlaced

end Levels

theorem fill_fills (levels : Nat) : Fills definition (fill definition levels) := by
  induction levels with
  | zero => exact fillWith_fills (by simp [DeeperFills])
  | succ levels ih =>
    refine fillWith_fills ?_
    rintro _ _ ⟨⟩
    exact ih

end Compilation

/-- Nothing is left to be compiled: the first mode is that of the whole text, all modes have
what they contain and start, and all variants of named modes are noted. -/
structure Elaborated (definition : Definition) (compiler : Compiler) (origins : List Origin) : Prop
    extends Elaborating definition compiler origins where
  root : Placed compiler origins 0 ⟨definition.root, none⟩ none
  filled : ∀ number < compiler.drafts.size, Filled definition compiler origins number
  isNoted : ∀ number origin name, origins[number]? = some origin → origin.name = some name →
    ∃ condition numbers, compiler.lookup (name, condition) = some numbers ∧ number ∈ numbers

theorem Compilation.compileAll_elaborates (definition : Definition) :
    Leads (compileAll definition) {} fun _ after =>
      ∃ origins, Elaborated definition after origins := by
  have empty : Elaborating definition {} [] := by
    refine ⟨rfl, ?_, ?_, ?_⟩
    · intro number draft origin isDraft
      cases isDraft
    · intro number draft isDraft
      cases isDraft
    · intro name condition numbers noted
      cases noted
  refine Leads.bind (reserve_completes empty (by simp)) ?_
  rintro ⟨number, pending⟩ middle ⟨completes, ready, placed, rfl⟩
  refine (fill_fills _ _ pending none middle _ completes.elaborating ready).imp ?_
  rintro _ after ⟨added, completesMore⟩
  have all := completes.trans completesMore [] (by simp) (by simp) (by simp)
  refine ⟨_, all.elaborating, placed.mono completesMore.grows added, ?_, ?_⟩
  · intro number inUse
    exact all.filled number inUse (.inl (Nat.zero_le _)) (by simp)
  · intro number origin name isOrigin isName
    exact all.noted number origin name (Nat.zero_le _) isOrigin isName

/-! ## Numbers in use -/

theorem exists_of_forall₂ {α β : Type} {related : α → β → Prop} {lefts : List α} {rights : List β}
    (all : List.Forall₂ related lefts rights) {right : β} (member : right ∈ rights) :
    ∃ left ∈ lefts, related left right := by
  induction all with
  | nil => cases member
  | cons first _ ih =>
    rcases List.mem_cons.mp member with rfl | inRest
    · exact ⟨_, List.mem_cons_self, first⟩
    · obtain ⟨left, inLefts, isRelated⟩ := ih inRest
      exact ⟨left, List.mem_cons_of_mem _ inLefts, isRelated⟩

theorem Placed.inUse {origin : Origin} (placed : Placed compiler origins number origin parent) :
    number < compiler.drafts.size := by
  obtain ⟨draft, isDraft, -⟩ := Option.map_eq_some_iff.mp placed.2
  exact (Array.getElem?_eq_some_iff.mp isDraft).1

theorem Elaborating.contributes_inUse (elaborating : Elaborating definition compiler origins)
    (inUse : number < compiler.drafts.size) {child : Child Mode}
    (contributes : Contributes definition compiler origins number child numbers) :
    ∀ other ∈ numbers, other < compiler.drafts.size := by
  intro other member
  cases contributes with
  | self => rwa [List.mem_singleton.mp member]
  | named _ noted =>
    obtain ⟨_, _, _, -, -, -, -, placed⟩ := elaborating.noted _ _ _ noted
    obtain ⟨_, -, isPlaced⟩ := exists_of_forall₂ placed member
    exact isPlaced.inUse
  | inline placed =>
    obtain ⟨_, -, isPlaced⟩ := exists_of_forall₂ placed member
    exact isPlaced.inUse

end Highlighter.Compiled

import Mathlib.Data.List.Sort
import Highlighter.Proofs.Elaboration

/-!
# Compiled modes that are shared

The modes of a compiled grammar come from modes of its definition.  A named mode is compiled
once for all modes that refer to it, or once for each terminator of such a mode if it depends
on the mode around it.
-/
namespace Highlighter.Compiled

open Grammar (Child Definition Mode)

variable {number : Nat} {numbers : List Nat}

/-- The numbers of the variants of a named mode, in ascending order. -/
def numbersOf (origins : List Origin) (name : String) : List Nat :=
  (List.range origins.length).filter fun number =>
    (origins[number]?).bind Origin.name == some name

theorem mem_numbersOf {origins : List Origin} {name : String} :
    number ∈ numbersOf origins name ↔
      ∃ origin, origins[number]? = some origin ∧ origin.name = some name := by
  rw [numbersOf, List.mem_filter, List.mem_range, beq_iff_eq, Option.bind_eq_some_iff]
  constructor
  · exact And.right
  · rintro ⟨origin, isOrigin, isName⟩
    exact ⟨(List.getElem?_eq_some_iff.mp isOrigin).1, origin, isOrigin, isName⟩

/-! ## Named modes that do not depend on their parents -/

section Shared

variable {definition : Definition} {compiler : Compiler} {origins : List Origin}
  (elaborated : Elaborated definition compiler origins) {name : String} {mode : Mode}
  (isMode : definition.modes.get? name = some mode) (independent : mode.dependsOnParent = false)

include elaborated isMode independent

theorem Elaborated.lookup_of_mem (member : number ∈ numbersOf origins name) :
    ∃ numbers, compiler.lookup (name, none) = some numbers ∧ number ∈ numbers := by
  obtain ⟨origin, isOrigin, isName⟩ := mem_numbersOf.mp member
  obtain ⟨condition, numbers, noted, isNumber⟩ :=
    elaborated.isNoted number origin name isOrigin isName
  obtain ⟨_, parent, _, isSame, -, isKey, -⟩ := elaborated.noted name condition numbers noted
  cases isMode.symm.trans isSame
  rw [keyOf, independent] at isKey
  cases isKey
  exact ⟨numbers, noted, isNumber⟩

theorem Elaborated.numbers_eq (noted : compiler.lookup (name, none) = some numbers) :
    numbers = numbersOf origins name := by
  obtain ⟨_, _, _, -, -, -, isRange, placed⟩ := elaborated.noted name none numbers noted
  have ascending : numbers.Pairwise (· < ·) := isRange ▸ List.pairwise_lt_range'
  refine ascending.eq_of_mem_iff (List.pairwise_lt_range.filter _) ?_
  intro number
  constructor
  · intro member
    obtain ⟨variant, -, isOrigin, -⟩ := exists_of_forall₂ placed member
    exact mem_numbersOf.mpr ⟨_, isOrigin, rfl⟩
  · intro member
    obtain ⟨others, notedOthers, isNumber⟩ :=
      elaborated.lookup_of_mem isMode independent member
    cases noted.symm.trans notedOthers
    exact isNumber

theorem Elaborated.numbersOf_variants :
    numbersOf origins name = [] ∨
      List.Forall₂ (fun variant number => origins[number]? = some ⟨variant, some name⟩)
        mode.expand (numbersOf origins name) := by
  rcases List.eq_nil_or_concat (numbersOf origins name) with isNil | ⟨others, number, isConcat⟩
  · exact .inl isNil
  · have member : number ∈ numbersOf origins name := by
      rw [isConcat]
      simp
    obtain ⟨numbers, noted, -⟩ := elaborated.lookup_of_mem isMode independent member
    obtain ⟨_, _, _, isSame, -, -, -, placed⟩ := elaborated.noted name none numbers noted
    cases isMode.symm.trans isSame
    rw [← elaborated.numbers_eq isMode independent noted]
    exact .inr (placed.imp fun _ _ each => each.1)

end Shared

/-! ## Modes of compiled grammars -/

namespace CompiledGrammar

variable {compiler : Compiler} {grammar : CompiledGrammar} {definition : Definition}
  {origins : List Origin}

section Elaborates

variable (definition : Definition) (grammar : CompiledGrammar) (origins : List Origin)

/-- The numbers that a child of the mode `number` stands for.  Those of a named mode that
does not depend on the mode around it are all numbers that its variants have.  Otherwise
its variants were compiled for a mode with the same terminator. -/
inductive Stands (number : Nat) : Child Mode → List Nat → Prop where
  | self : Stands number .self [number]
  | named {name : String} {mode : Mode} {parent : Nat} {numbers : List Nat}
      (isMode : definition.modes.get? name = some mode)
      (variants : List.Forall₂
        (fun variant child => origins[child]? = some ⟨variant, some name⟩ ∧
          (grammar.mode child).parent = some parent)
        mode.expand numbers)
      (sameEnd : mode.dependsOnParent = true →
        (grammar.mode parent).terminator = (grammar.mode number).terminator)
      (shared : mode.dependsOnParent = false → numbers = numbersOf origins name) :
      Stands number (.named name) numbers
  | inline {mode : Mode} {numbers : List Nat}
      (variants : List.Forall₂
        (fun variant child => origins[child]? = some ⟨variant, none⟩ ∧
          (grammar.mode child).parent = some number)
        mode.expand numbers) :
      Stands number (.inline mode) numbers

/-- What a mode inherits as its end from the mode around it. -/
def inherited (resolved : Resolved) (parent : Option Nat) : String :=
  match parent with
  | some parent =>
    if (Flags.ofMode resolved.rest).endsWithParent then (grammar.mode parent).terminator else ""
  | none => ""

/-- The mode `number` is what a mode becomes: its attributes are those of the resolved mode,
it contains what the children of that stand for, and it starts what that starts. -/
structure ComesFrom (number : Nat) (mode : Mode) (resolved : Resolved) : Prop where
  resolution : Resolved.ofMode mode (grammar.mode number).parent.isSome definition.scopeAliases =
    .ok resolved
  attributes : ∃ endRegex keywords,
    (grammar.mode number).toDraft =
      { Compilation.draftOf resolved (grammar.mode number).parent endRegex
          (grammar.inherited resolved (grammar.mode number).parent) keywords with
        contains := (grammar.mode number).contains
        starts := (grammar.mode number).starts }
  children : ∃ lists,
    List.Forall₂ (Stands definition grammar origins number) (resolved.rest.contains.getD [])
      lists ∧
    (grammar.mode number).contains = lists.flatten
  next : Option.Rel
    (fun mode next => number < next ∧ origins[next]? = some ⟨mode, none⟩ ∧
      (grammar.mode next).parent = (grammar.mode number).parent)
    resolved.rest.starts (grammar.mode number).starts

structure Elaborates : Prop where
  size : origins.length = grammar.modes.size
  root : origins[0]? = some ⟨definition.root, none⟩
  modes : ∀ (number : Nat) (origin : Origin), origins[number]? = some origin →
    ∃ resolved, grammar.ComesFrom definition origins number origin.mode resolved

end Elaborates

/-- The modes of a compiled grammar as numbers: the mode of the whole text is the first one,
modes refer to modes that are there, a parent comes before its children and a mode before
the one that it starts, and the rules of a mode are the beginnings of what it contains, its
terminator and what is illegal in it. -/
structure WellFormed (grammar : CompiledGrammar) : Prop where
  root : 0 < grammar.modes.size ∧ (grammar.mode 0).parent = none
  contains : ∀ number, ∀ child ∈ (grammar.mode number).contains, child < grammar.modes.size
  starts : ∀ number, ∀ next ∈ (grammar.mode number).starts,
    number < next ∧ next < grammar.modes.size
  parents : ∀ number, ∀ parent ∈ (grammar.mode number).parent,
    parent < number ∧ number < grammar.modes.size
  rules : ∀ number, (grammar.mode number).matcher.rules =
    (grammar.mode number).contains.map
        (fun child => { source := (grammar.mode child).beginSource, kind := .enter child }) ++
      (if (grammar.mode number).terminator = "" then []
        else [{ source := (grammar.mode number).terminator, kind := .leave }]) ++
      (grammar.mode number).illegal.toList.map fun source => { source, kind := .illegal }

/-! ## From compilers to grammars -/

structure Finishes (compiler : Compiler) (grammar : CompiledGrammar) : Prop where
  size : compiler.drafts.size = grammar.modes.size
  drafts : ∀ number < grammar.modes.size,
    compiler.drafts[number]? = some (grammar.mode number).toDraft
  rules : ∀ number < grammar.modes.size,
    (grammar.mode number).matcher.rules =
      rulesOf compiler.drafts (grammar.mode number).toDraft

theorem mode_of_getElem? {mode : CompiledMode} (isMode : grammar.modes[number]? = some mode) :
    grammar.mode number = mode := by
  rw [CompiledGrammar.mode, mode?, isMode]
  rfl

theorem mode_of_not_inUse (notInUse : ¬number < grammar.modes.size) :
    grammar.mode number = CompiledMode.inert := by
  rw [CompiledGrammar.mode, mode?, Array.getElem?_eq_none (Nat.not_lt.mp notInUse)]
  rfl

theorem elaborated_of_compile (compiled : compile definition = .ok grammar) :
    ∃ compiler origins, Elaborated definition compiler origins ∧ Finishes compiler grammar := by
  obtain ⟨compiler, all, -, sameSize, each⟩ := compile_ok compiled
  obtain ⟨origins, elaborated⟩ := Compilation.compileAll_elaborates definition () compiler all
  have inUse : ∀ number < grammar.modes.size,
      grammar.modes[number]? = some (grammar.mode number) := by
    intro number below
    have isMode := Array.getElem?_eq_getElem below
    rw [isMode, mode_of_getElem? isMode]
  refine ⟨compiler, origins, elaborated, sameSize.symm, ?_, ?_⟩
  · intro number below
    exact (each number _ (inUse number below)).1
  · intro number below
    exact (Matcher.compile_ok (each number _ (inUse number below)).2).1

section Finishing

variable {definition : Definition} {compiler : Compiler} {grammar : CompiledGrammar}
  {origins : List Origin} (finishes : Finishes compiler grammar)

include finishes

theorem Finishes.eq_of_draft {draft : Draft} (isDraft : compiler.drafts[number]? = some draft) :
    number < grammar.modes.size ∧ (grammar.mode number).toDraft = draft := by
  have inUse := finishes.size ▸ (Array.getElem?_eq_some_iff.mp isDraft).1
  exact ⟨inUse, Option.some.inj ((finishes.drafts number inUse).symm.trans isDraft)⟩

theorem Finishes.terminator_eq (number : Nat) :
    compiler.terminator number = (grammar.mode number).terminator := by
  rw [Compiler.terminator]
  by_cases inUse : number < grammar.modes.size
  · rw [finishes.drafts number inUse]
    rfl
  · rw [mode_of_not_inUse inUse, Array.getElem?_eq_none (finishes.size ▸ Nat.not_lt.mp inUse)]
    rfl

theorem Finishes.inherited_eq (resolved : Resolved) (parent : Option Nat) :
    Compilation.inheritedBy resolved parent compiler = grammar.inherited resolved parent := by
  cases parent with
  | none => rfl
  | some parent =>
    rw [Compilation.inheritedBy, CompiledGrammar.inherited, ← finishes.terminator_eq parent]
    rfl

theorem Finishes.placed {origin : Origin} {parent : Option Nat}
    (placed : Placed compiler origins number origin parent) :
    origins[number]? = some origin ∧ (grammar.mode number).parent = parent := by
  obtain ⟨draft, isDraft, isParent⟩ := Option.map_eq_some_iff.mp placed.2
  exact ⟨placed.1, (congrArg Draft.parent (finishes.eq_of_draft isDraft).2).trans isParent⟩

variable (elaborated : Elaborated definition compiler origins)

include elaborated

theorem Finishes.stands {child : Child Mode}
    (contributes : Contributes definition compiler origins number child numbers) :
    Stands definition grammar origins number child numbers := by
  cases contributes with
  | self => exact .self
  | inline placed => exact .inline (placed.imp fun _ _ each => finishes.placed each)
  | @named name mode _ isMode noted =>
    obtain ⟨_, parent, _, isSame, -, isKey, -, placed⟩ := elaborated.noted _ _ _ noted
    cases isMode.symm.trans isSame
    refine .named isMode (placed.imp fun _ _ each => finishes.placed each) ?_ ?_
    · intro depends
      rw [keyOf, if_pos depends, if_pos depends, Prod.mk.injEq, Option.some.injEq] at isKey
      rw [← finishes.terminator_eq, ← finishes.terminator_eq]
      exact isKey.2.symm
    · intro independent
      rw [keyOf, independent] at noted
      exact elaborated.numbers_eq isMode independent noted

/-- The modes of a compiled grammar come from those that were elaborated. -/
theorem Finishes.elaborates : grammar.Elaborates definition origins := by
  refine ⟨elaborated.size.trans finishes.size, elaborated.root.1, ?_⟩
  intro number origin isOrigin
  have inUse := elaborated.size ▸ (List.getElem?_eq_some_iff.mp isOrigin).1
  obtain ⟨draft, _, resolved, lists, isDraft, isSame, described, children, isContains, next⟩ :=
    elaborated.filled number inUse
  cases isOrigin.symm.trans isSame
  obtain ⟨-, rfl⟩ := finishes.eq_of_draft isDraft
  obtain ⟨endRegex, keywords, drafted⟩ := described.drafted
  rw [finishes.inherited_eq] at drafted
  refine ⟨resolved, described.resolution, ⟨endRegex, keywords, drafted⟩,
    ⟨lists, children.imp fun _ _ each => finishes.stands elaborated each, isContains⟩, ?_⟩
  generalize resolved.rest.starts = mode at next ⊢
  generalize (grammar.mode number).starts = started at next ⊢
  cases next with
  | none => exact .none
  | some starts => exact .some ⟨starts.1, finishes.placed starts.2⟩

end Finishing

/-! ## Numbers in use -/

theorem closed_of_compile (compiled : compile definition = .ok grammar) : grammar.Closed := by
  obtain ⟨compiler, origins, elaborated, finishes⟩ := elaborated_of_compile compiled
  refine ⟨finishes.size ▸ elaborated.root.inUse, fun number child member => ?_,
    fun number next member => ?_, fun number cursor place found after child search enters => ?_⟩
  all_goals by_cases inUse : number < grammar.modes.size
  · obtain ⟨_, _, _, lists, isDraft, -, -, children, isContains, -⟩ :=
      elaborated.filled number (finishes.size ▸ inUse)
    obtain ⟨-, rfl⟩ := finishes.eq_of_draft isDraft
    rw [isContains, List.mem_flatten] at member
    obtain ⟨numbers, listed, member⟩ := member
    obtain ⟨_, -, contributes⟩ := exists_of_forall₂ children listed
    exact finishes.size ▸ elaborated.contributes_inUse (finishes.size ▸ inUse) contributes child
      member
  · rw [mode_of_not_inUse inUse] at member
    cases member
  · obtain ⟨_, _, resolved, _, isDraft, -, -, -, -, starts⟩ :=
      elaborated.filled number (finishes.size ▸ inUse)
    obtain ⟨-, rfl⟩ := finishes.eq_of_draft isDraft
    rw [Option.mem_def.mp member] at starts
    generalize resolved.rest.starts = mode at starts
    cases starts with
    | some started => exact finishes.size ▸ started.2.inUse
  · rw [mode_of_not_inUse inUse] at member
    cases member
  · rcases matcher_of_compile compiled number with isInert | ⟨-, isMatcher⟩
    · rw [isInert] at search
      exact absurd search (Matcher.empty_next cursor after place found)
    · obtain ⟨rule, member, sameKind⟩ := Matcher.next_kind isMatcher search
      rw [finishes.rules number inUse] at member
      exact enter_mem_rulesOf member (sameKind ▸ enters)
  · rw [mode_of_not_inUse inUse] at search
    exact absurd search (Matcher.empty_next cursor after place found)

theorem sound_of_compile (compiled : compile definition = .ok grammar) (number : Nat) :
    (grammar.mode number).toDraft.Sound := by
  obtain ⟨compiler, origins, elaborated, finishes⟩ := elaborated_of_compile compiled
  by_cases inUse : number < grammar.modes.size
  · obtain ⟨_, _, _, _, isDraft, -, described, -⟩ :=
      elaborated.filled number (finishes.size ▸ inUse)
    obtain ⟨-, rfl⟩ := finishes.eq_of_draft isDraft
    obtain ⟨_, _, drafted⟩ := described.drafted
    obtain ⟨beginParts, endParts⟩ := Resolved.ofMode_parts described.resolution
    have tables := described.tables
    rw [drafted] at tables ⊢
    exact ⟨tables, beginParts, endParts⟩
  · rw [mode_of_not_inUse inUse]
    exact ⟨by rintro table ⟨⟩, by rintro parts ⟨⟩, by rintro parts ⟨⟩⟩

/-! ## Compiled grammars are well-formed -/

theorem parent_lt (elaborated : Elaborated definition compiler origins)
    (finishes : Finishes compiler grammar) {parent : Nat}
    (isParent : parent ∈ (grammar.mode number).parent) :
    parent < number ∧ number < grammar.modes.size := by
  by_cases inUse : number < grammar.modes.size
  · exact ⟨elaborated.parents number _ (finishes.drafts number inUse) parent isParent, inUse⟩
  · rw [mode_of_not_inUse inUse] at isParent
    cases isParent

theorem Elaborates.comesFrom (elaborates : grammar.Elaborates definition origins)
    (inUse : number < grammar.modes.size) :
    ∃ origin resolved, origins[number]? = some origin ∧
      grammar.ComesFrom definition origins number origin.mode resolved := by
  have isOrigin := List.getElem?_eq_getElem (elaborates.size.symm ▸ inUse)
  obtain ⟨resolved, comesFrom⟩ := elaborates.modes number _ isOrigin
  exact ⟨_, resolved, isOrigin, comesFrom⟩

theorem Elaborates.starts (elaborates : grammar.Elaborates definition origins) {next : Nat}
    (starts : next ∈ (grammar.mode number).starts) :
    ∃ origin resolved mode, origins[number]? = some origin ∧
      grammar.ComesFrom definition origins number origin.mode resolved ∧
      resolved.rest.starts = some mode ∧ number < next ∧ origins[next]? = some ⟨mode, none⟩ ∧
      (grammar.mode next).parent = (grammar.mode number).parent := by
  have inUse : number < grammar.modes.size := by
    refine Decidable.byContradiction fun notInUse => ?_
    rw [mode_of_not_inUse notInUse] at starts
    cases starts
  obtain ⟨origin, resolved, isOrigin, comesFrom⟩ := elaborates.comesFrom inUse
  have related := comesFrom.next
  rw [Option.mem_def.mp starts] at related
  cases isStarts : resolved.rest.starts with
  | none =>
    rw [isStarts] at related
    cases related
  | some mode =>
    rw [isStarts] at related
    cases related with
    | some started => exact ⟨origin, resolved, mode, isOrigin, comesFrom, isStarts, started⟩

theorem Finishes.beginSource_eq (finishes : Finishes compiler grammar) (number : Nat) :
    ((compiler.drafts[number]?).map Draft.beginSource).getD "" =
      (grammar.mode number).beginSource := by
  by_cases inUse : number < grammar.modes.size
  · rw [finishes.drafts number inUse]
    rfl
  · rw [mode_of_not_inUse inUse, Array.getElem?_eq_none (finishes.size ▸ Nat.not_lt.mp inUse)]
    rfl

/-- Compiling a grammar gives modes that are numbered in a well-formed way, and a named mode
that does not depend on the mode around it is compiled once: each of its variants has one
number, and these are what every mode that refers to it contains. -/
theorem compile_wellFormed {definition : Definition} {grammar : CompiledGrammar}
    (compiled : compile definition = .ok grammar) :
    grammar.WellFormed ∧
      ∃ origins, grammar.Elaborates definition origins ∧
        ∀ name mode, definition.modes.get? name = some mode → mode.dependsOnParent = false →
          (numbersOf origins name = [] ∨
            List.Forall₂ (fun variant number => origins[number]? = some ⟨variant, some name⟩)
              mode.expand (numbersOf origins name)) ∧
          ∀ number numbers, grammar.Stands definition origins number (.named name) numbers →
            numbers = numbersOf origins name := by
  obtain ⟨compiler, origins, elaborated, finishes⟩ := elaborated_of_compile compiled
  have elaborates := finishes.elaborates elaborated
  have closed := closed_of_compile compiled
  refine ⟨⟨⟨closed.root, (finishes.placed elaborated.root).2⟩, closed.contains, ?_, ?_, ?_⟩,
    origins, elaborates, ?_⟩
  · intro number next starts
    obtain ⟨_, _, _, -, -, -, later, -⟩ := elaborates.starts starts
    exact ⟨later, closed.starts number next starts⟩
  · intro number parent isParent
    exact parent_lt elaborated finishes isParent
  · intro number
    by_cases inUse : number < grammar.modes.size
    · rw [finishes.rules number inUse, rulesOf]
      simp only [finishes.beginSource_eq, String.isEmpty_iff]
    · rw [mode_of_not_inUse inUse]
      rfl
  · intro name mode isMode independent
    refine ⟨elaborated.numbersOf_variants isMode independent, ?_⟩
    rintro number numbers (_ | ⟨isSame, -, -, shared⟩ | _)
    cases isMode.symm.trans isSame
    exact shared independent

/-- A grammar whose named modes contain each other and themselves, and are referred to in
several places. -/
def cyclicDefinition : Definition :=
  ({ root :=
      { contains := some
          [.named "list", .named "item",
            .inline { beginPattern := some (.source "x"), contains := some [.named "list"] }] } } :
      Definition)
    |>.withMode "list"
      { beginPattern := some (.source "a")
        endPattern := some (.source "b")
        contains := some [.named "item", .named "list", .self] }
    |>.withMode "item"
      { contains := some [.named "list"]
        variants := some
          [{ beginPattern := some (.source "c") }, { beginPattern := some (.source "d") }] }

theorem compile_wellFormed_cyclic :
    ∃ grammar, compile cyclicDefinition = .ok grammar ∧
      grammar.modes.toList.map (·.contains) = [[1, 2, 3, 4], [2, 3, 1, 1], [1], [1], [1]] ∧
      grammar.WellFormed ∧
      ∃ origins, grammar.Elaborates cyclicDefinition origins ∧
        ∀ number numbers,
          grammar.Stands cyclicDefinition origins number (.named "list") numbers →
            numbers = numbersOf origins "list" := by
  have modes : ((compile cyclicDefinition).toOption.map fun grammar =>
      grammar.modes.toList.map (·.contains)) =
        some [[1, 2, 3, 4], [2, 3, 1, 1], [1], [1], [1]] := by
    decide +kernel
  obtain ⟨grammar, isGrammar, contains⟩ := Option.map_eq_some_iff.mp modes
  rw [Success.toOption_eq_some] at isGrammar
  obtain ⟨wellFormed, origins, elaborates, once⟩ := compile_wellFormed isGrammar
  exact ⟨grammar, isGrammar, contains, wellFormed, origins, elaborates,
    (once "list" _ rfl rfl).2⟩

end CompiledGrammar
end Highlighter.Compiled

import Highlighter.Compiled.Grammar
import Highlighter.Proofs.Matcher

/-!
# The numbers of compiled modes

Compiling a grammar hands out numbers for modes while modes that refer to them are still
without numbers themselves.  In the end every number that a mode refers to is in use.
-/
namespace Highlighter.Compiled

open Grammar (Child Definition Mode)

variable {aliases : Dictionary String String} {cause : CompileError}

/-! ## Modes that can be compiled -/

/-- What holds of a mode that has been resolved: its keywords are found by the expression for
their source, and a boundary with scopes for its parts is neither left out nor returned. -/
structure Draft.Sound (draft : Draft) : Prop where
  keywords : ∀ table ∈ draft.keywords,
    Regex.compile table.source table.ignoreCase = .ok table.pattern
  beginParts : ∀ parts, draft.beginScope = some (.parts parts) →
    draft.flags.skip = false ∧ draft.flags.excludeBegin = false ∧
      draft.flags.returnBegin = false
  endParts : ∀ parts, draft.endScope = some (.parts parts) →
    draft.flags.skip = false ∧ draft.flags.excludeEnd = false ∧ draft.flags.returnEnd = false

theorem KeywordTable.compile_ok {keywords : Grammar.Keywords} {ignoreCase : Bool}
    {table : KeywordTable} (compiled : compile keywords ignoreCase aliases = .ok table) :
    Regex.compile table.source table.ignoreCase = .ok table.pattern := by
  unfold compile at compiled
  simp only at compiled
  split at compiled
  · cases compiled
  · rename_i pattern isPattern
    cases compiled
    exact isPattern

namespace Resolved

theorem resolveBoundary_parts {boundary : Boundary} {pattern : Option Grammar.PatternSpec}
    {scope : Option Grammar.ScopeSpec} {hasIncompatibleFlags : Bool} {renamed : String → String}
    {source : Option String} {parts : List (Nat × Option String)}
    (resolved : resolveBoundary boundary pattern scope hasIncompatibleFlags renamed =
      .ok (source, some (.parts parts))) : hasIncompatibleFlags = false := by
  unfold resolveBoundary at resolved
  split at resolved
  · split at resolved
    · cases resolved
    · rename_i compatible
      exact Bool.eq_false_iff.mpr compatible
  all_goals cases resolved

theorem ofMode_parts {mode : Mode} {hasParent : Bool} {resolved : Resolved}
    (success : ofMode mode hasParent aliases = .ok resolved) :
    let flags := Flags.ofMode resolved.rest
    (∀ parts, resolved.beginScope = some (.parts parts) →
      flags.skip = false ∧ flags.excludeBegin = false ∧ flags.returnBegin = false) ∧
    ∀ parts, resolved.endScope = some (.parts parts) →
      flags.skip = false ∧ flags.excludeEnd = false ∧ flags.returnEnd = false := by
  obtain ⟨matched, -, success⟩ := Success.bind_eq_ok.mp success
  obtain ⟨rest, -, success⟩ := Success.bind_eq_ok.mp success
  simp only at success
  obtain ⟨⟨beginSource, beginScope⟩, isBegin, success⟩ := Success.bind_eq_ok.mp success
  obtain ⟨⟨endSource, endScope⟩, isEnd, success⟩ := Success.bind_eq_ok.mp success
  cases success
  constructor
  · rintro parts rfl
    simpa [Flags.ofMode, and_assoc] using resolveBoundary_parts isBegin
  · rintro parts rfl
    simpa [Flags.ofMode, and_assoc] using resolveBoundary_parts isEnd

end Resolved

/-! ## Actions of the compiler -/

def Compilation.Leads {α : Type} (action : Compilation α) (before : Compiler)
    (result : α → Compiler → Prop) : Prop :=
  ∀ value after, action.run before = .ok (value, after) → result value after

namespace Compilation

namespace Leads

variable {α β : Type} {before : Compiler}

variable {result : PUnit → Compiler → Prop} {action : Compilation α} {rest : α → Compilation β}

theorem pure {value : α} {result : α → Compiler → Prop} (holds : result value before) :
    Leads (Pure.pure value) before result := by
  intro given after success
  cases success
  exact holds

theorem bind {middle : α → Compiler → Prop} {result : β → Compiler → Prop}
    (first : Leads action before middle)
    (second : ∀ value state, middle value state → Leads (rest value) state result) :
    Leads (action >>= rest) before result := by
  intro value after success
  rw [StateT.run_bind] at success
  cases reached : action.run before with
  | error cause =>
    rw [reached] at success
    cases success
  | ok intermediate =>
    rw [reached] at success
    exact second _ _ (first _ _ reached) value after success

theorem bind_run {value : α} {state : Compiler} {result : β → Compiler → Prop}
    (reached : action.run before = .ok (value, state)) (leads : Leads (rest value) state result) :
    Leads (action >>= rest) before result := by
  intro given after success
  rw [StateT.run_bind, reached] at success
  exact leads given after success

theorem bind_lift {computation : Except CompileError α} {result : β → Compiler → Prop}
    (second : ∀ value, computation = .ok value → Leads (rest value) before result) :
    Leads (liftM computation >>= rest) before result := by
  intro given after success
  cases computation with
  | error cause => cases success
  | ok value => exact second value rfl given after success

theorem ite {condition : Prop} [Decidable condition] {whenTrue whenFalse : Compilation α}
    {result : α → Compiler → Prop} (positive : condition → Leads whenTrue before result)
    (negative : ¬condition → Leads whenFalse before result) :
    Leads (if condition then whenTrue else whenFalse) before result := by
  split
  · exact positive ‹_›
  · exact negative ‹_›

theorem throw {result : α → Compiler → Prop} :
    Leads (throw cause) before result := by
  intro value after success
  cases success

theorem modify {change : Compiler → Compiler} (holds : result ⟨⟩ (change before)) :
    Leads (modify change : Compilation PUnit) before result := by
  intro value after success
  cases success
  exact holds

theorem imp {result weaker : α → Compiler → Prop} (leads : Leads action before result)
    (implies : ∀ value after, result value after → weaker value after) :
    Leads action before weaker := by
  intro value after success
  exact implies value after (leads value after success)

end Leads

/-! ## Giving a mode its number -/

def endSourceOf (resolved : Resolved) (hasParent : Bool) : Option String :=
  if hasParent then
    resolved.endSource.or
      (if (Flags.ofMode resolved.rest).endsWithParent then none else some anyPlace)
  else none

/-- What a mode inherits as its end from the mode around it. -/
def inheritedBy (resolved : Resolved) (parent : Option Nat) (compiler : Compiler) : String :=
  match parent with
  | some parent =>
    if (Flags.ofMode resolved.rest).endsWithParent then
      ((compiler.drafts[parent]?).map Draft.terminator).getD ""
    else ""
  | none => ""

def draftOf (resolved : Resolved) (parent : Option Nat) (endRegex : Option Regex)
    (inherited : String) (keywords : Option KeywordTable) : Draft where
  scope := resolved.scope
  beginScope := resolved.beginScope
  endScope := resolved.endScope
  beginSource := if parent.isSome then resolved.beginSource.getD anyPlace else ""
  endRegex := endRegex
  terminator := joinTerminators (endSourceOf resolved parent.isSome) inherited
  illegal := resolved.illegal
  keywords := keywords
  contains := []
  starts := none
  relevance := resolved.rest.relevance
  flags := Flags.ofMode resolved.rest
  subLanguage := resolved.rest.subLanguage
  hooks := resolved.hooks
  parent := parent

/-- What is left to be compiled of a mode that has its number. -/
def pendingOf (resolved : Resolved) : Pending where
  contains := resolved.rest.contains.getD []
  starts := resolved.rest.starts

/-- How a mode got its number and what became of it. -/
structure Reserved (definition : Definition) (mode : Mode) (parent : Option Nat)
    (before : Compiler) (draft : Draft) (pending : Pending) : Prop where
  described : ∃ resolved endRegex keywords,
    Resolved.ofMode mode parent.isSome definition.scopeAliases = .ok resolved ∧
    compileEnd (endSourceOf resolved parent.isSome) definition.caseInsensitive = .ok endRegex ∧
    (∀ table ∈ keywords, Regex.compile table.source table.ignoreCase = .ok table.pattern) ∧
    draft = draftOf resolved parent endRegex (inheritedBy resolved parent before) keywords ∧
    pending = pendingOf resolved

theorem terminatorOf_run (number : Nat) (before : Compiler) :
    (terminatorOf number).run before =
      .ok (((before.drafts[number]?).map Draft.terminator).getD "", before) :=
  rfl

theorem reserve_leads (definition : Definition) (mode : Mode) (parent : Option Nat)
    (before : Compiler) :
    Leads (reserve definition mode parent) before fun result after =>
      result.1 = before.drafts.size ∧
      ∃ draft, Reserved definition mode parent before draft result.2 ∧
        after = { before with drafts := before.drafts.push draft } := by
  unfold reserve
  refine Leads.bind_lift fun resolved resolution => ?_
  refine Leads.bind_lift fun endRegex compiled => ?_
  -- The mode is noted in the same way whatever it inherits and whatever its keywords are.
  have noted : ∀ inherited keywords, inherited = inheritedBy resolved parent before →
      (∀ table ∈ keywords, Regex.compile table.source table.ignoreCase = .ok table.pattern) →
      Leads (do
          let compiler ← get
          set { compiler with
            drafts := compiler.drafts.push (draftOf resolved parent endRegex inherited keywords) }
          return (compiler.drafts.size, pendingOf resolved))
        before fun result after =>
          result.1 = before.drafts.size ∧
          ∃ draft, Reserved definition mode parent before draft result.2 ∧
            after = { before with drafts := before.drafts.push draft } := by
    rintro inherited keywords rfl isTable
    exact .bind_run rfl (.bind_run rfl (.pure
      ⟨rfl, _, ⟨resolved, endRegex, keywords, resolution, compiled, isTable, rfl, rfl⟩, rfl⟩))
  have noTable : ∀ table ∈ (none : Option KeywordTable),
      Regex.compile table.source table.ignoreCase = .ok table.pattern := by
    simp
  have oneTable {keywords : Grammar.Keywords} {table : KeywordTable}
      (isTable : KeywordTable.compile keywords definition.caseInsensitive
        definition.scopeAliases = .ok table) :
      ∀ other ∈ some table, Regex.compile other.source other.ignoreCase = .ok other.pattern := by
    rintro other ⟨⟩
    exact KeywordTable.compile_ok isTable
  cases resolved.keywords with
  | none =>
    cases parent with
    | none => exact .bind_run rfl (.bind_run rfl (noted "" none rfl noTable))
    | some parent =>
      refine Leads.ite (fun endsWithParent => ?_) fun endsAlone => ?_
      · refine .bind_run (terminatorOf_run parent before) (.bind_run rfl (noted _ none ?_ noTable))
        simp [inheritedBy, endsWithParent]
      · refine .bind_run rfl (.bind_run rfl (noted "" none ?_ noTable))
        simp [inheritedBy, endsAlone]
  | some keywords =>
    cases parent with
    | none =>
      refine .bind_run rfl (Leads.bind_lift fun table isTable => ?_)
      exact .bind_run rfl (noted "" (some table) rfl (oneTable isTable))
    | some parent =>
      refine Leads.ite (fun endsWithParent => ?_) fun endsAlone => ?_
      · refine .bind_run (terminatorOf_run parent before) (Leads.bind_lift fun table isTable => ?_)
        refine .bind_run rfl (noted _ (some table) ?_ (oneTable isTable))
        simp [inheritedBy, endsWithParent]
      · refine .bind_run rfl (Leads.bind_lift fun table isTable => ?_)
        refine .bind_run rfl (noted "" (some table) ?_ (oneTable isTable))
        simp [inheritedBy, endsAlone]

end Compilation

/-! ## Compiled grammars -/

namespace CompiledGrammar

variable {grammar : CompiledGrammar} {definition : Definition}

theorem compile_ok (compiled : compile definition = .ok grammar) :
    ∃ compiler : Compiler,
      (Compilation.compileAll definition).run {} = .ok ((), compiler) ∧
      grammar.caseInsensitive = definition.caseInsensitive ∧
      grammar.modes.size = compiler.drafts.size ∧
      ∀ (number : Nat) (mode : CompiledMode), grammar.modes[number]? = some mode →
        compiler.drafts[number]? = some mode.toDraft ∧
        Matcher.compile (rulesOf compiler.drafts mode.toDraft) definition.caseInsensitive =
          .ok mode.matcher := by
  obtain ⟨⟨⟨⟩, compiler⟩, all, compiled⟩ := Success.bind_eq_ok.mp compiled
  obtain ⟨modes, each, compiled⟩ := Success.bind_eq_ok.mp compiled
  cases compiled
  obtain ⟨sameSize, listed⟩ := Success.array_mapM each
  refine ⟨compiler, all, rfl, sameSize, ?_⟩
  intro number mode isMode
  obtain ⟨draft, isDraft, finished⟩ := listed number mode isMode
  obtain ⟨matcher, joined, finished⟩ := Success.bind_eq_ok.mp finished
  cases finished
  exact ⟨isDraft, joined⟩

/-- What a compiled grammar keeps to: the mode of the whole text is there, every number that
a mode refers to is in use, and a match of a rule that lets a mode begin is for one that
the mode contains. -/
structure Closed (grammar : CompiledGrammar) : Prop where
  root : 0 < grammar.modes.size
  contains : ∀ number, ∀ child ∈ (grammar.mode number).contains, child < grammar.modes.size
  starts : ∀ number, ∀ next ∈ (grammar.mode number).starts, next < grammar.modes.size
  enters : ∀ number cursor place found after child,
    (grammar.mode number).matcher.next cursor place = .ok (some found, after) →
      found.kind = .enter child → child ∈ (grammar.mode number).contains

theorem mode_eq (grammar : CompiledGrammar) (number : Nat) :
    (∃ mode, grammar.modes[number]? = some mode ∧ grammar.mode number = mode) ∨
      grammar.mode number = CompiledMode.inert := by
  unfold mode mode?
  cases grammar.modes[number]? with
  | none => exact .inr rfl
  | some mode => exact .inl ⟨mode, rfl, rfl⟩

theorem enter_mem_rulesOf {drafts : Array Draft} {draft : Draft} {rule : Rule} {child : Nat}
    (member : rule ∈ rulesOf drafts draft) (enters : rule.kind = .enter child) :
    child ∈ draft.contains := by
  simp only [rulesOf, List.mem_append, List.mem_map] at member
  rcases member with (⟨listed, isChild, rfl⟩ | leaves) | ⟨source, -, rfl⟩
  · cases enters
    exact isChild
  · split at leaves
    · cases leaves
    · rw [List.mem_singleton.mp leaves] at enters
      cases enters
  · cases enters

theorem matcher_of_compile (compiled : compile definition = .ok grammar) (number : Nat) :
    grammar.mode number = CompiledMode.inert ∨
      grammar.mode number ∈ grammar.modes ∧
        Matcher.compile (grammar.mode number).matcher.rules grammar.caseInsensitive =
          .ok (grammar.mode number).matcher := by
  obtain ⟨compiler, -, sameCase, -, each⟩ := compile_ok compiled
  rcases grammar.mode_eq number with ⟨mode, listed, isMode⟩ | isInert
  · obtain ⟨-, joined⟩ := each number mode listed
    rw [isMode, (Matcher.compile_ok joined).1, sameCase]
    exact .inr ⟨Array.mem_of_getElem? listed, joined⟩
  · exact .inl isInert

end CompiledGrammar
end Highlighter.Compiled

import Highlighter.Proofs.Rejection
import Highlighter.Proofs.TextKept

/-!
# Ends with scopes of their own

The end of a mode can have a scope of its own, or its parts can.  A single scope takes all of a
match that ends the mode, even if the run goes back to where it begins and takes it again.  Scopes
for parts take the groups of the match that have their numbers: all of it if the end consists of
the parts, and nothing where an end matches that the mode inherits.
-/
namespace Highlighter

open Compiled (BoundaryScope CompiledGrammar CompiledMode partNumbers?)

/-- Whether the keywords of all modes of a grammar are found one behind the other. -/
def Compiled.CompiledGrammar.readsAhead (grammar : CompiledGrammar) : Bool :=
  grammar.modes.all fun mode => mode.keywords.all Compiled.KeywordTable.goesAhead

theorem Setting.readsAhead_of_compile {setting : Setting} {definition : Grammar.Definition}
    (compiled : CompiledGrammar.compile definition = .ok setting.grammar)
    (ahead : setting.grammar.readsAhead) : setting.ReadsAhead := by
  intro number table isTable
  have sound := CompiledGrammar.sound_of_compile compiled number
  refine ⟨sound.keywords table isTable, ?_⟩
  rcases setting.grammar.mode_eq number with ⟨mode, listed, isMode⟩ | isInert
  · rw [isMode] at isTable
    have checked := Array.all_eq_true_iff_forall_mem.mp ahead mode (Array.mem_of_getElem? listed)
    simpa [Option.mem_def.mp isTable] using checked
  · rw [isInert] at isTable
    cases isTable

def Compiled.BoundaryScope.textOf (found : RuleMatch) : BoundaryScope → String
  | .whole _ => found.lexeme
  | .parts scopes => Run.partsText found (scopes.map Prod.fst)

namespace Run

/-! ## What is added -/

section Added

variable {setting : Setting} {state after : RunState} {found : RuleMatch}

/-- The outermost of the open modes that a match closes. -/
def IsOutermost (setting : Setting) (stack : Stack) (found : RuleMatch) (frame : Frame) : Prop :=
  ∃ count, closedBy? setting found stack.top stack.below = .ok (some (count + 1)) ∧
    (stack.top :: stack.below)[count]? = some frame

theorem closeModes_outermost {count : Nat} {frame : Frame}
    (isFrame : (state.stack.top :: state.stack.below)[count]? = some frame) :
    (closeModes setting (count + 1) state).1 = frame.mode := by
  induction count generalizing state with
  | zero =>
    cases isFrame
    rfl
  | succ count ih =>
    have popped : (closeTop setting state).stack = state.stack.pop := by
      simp only [closeTop]
      split <;> split <;> rfl
    rw [closeModes]
    refine ih ?_
    rw [popped, Stack.pop]
    rw [List.getElem?_cons_succ] at isFrame
    cases isBelow : state.stack.below with
    | nil =>
      rw [isBelow] at isFrame
      cases isFrame
    | cons next below => rwa [isBelow] at isFrame

/-- The text that is taken of a match by the mode that starts where an open mode ends. -/
def startedText (setting : Setting) (frame : Frame) (found : RuleMatch) : String :=
  partsText found (((setting.grammar.mode frame.mode).starts.bind fun next =>
    partNumbers? (setting.grammar.mode next).beginScope).getD [])

section Ahead

variable (readsAhead : setting.ReadsAhead)

include readsAhead

theorem endPending_addsText {mode : CompiledMode} {scope : BoundaryScope}
    (isScope : mode.endScope = some scope)
    (success : endPending setting state mode found = .ok after) :
    ∃ flushed, flush setting state = .ok flushed ∧
      after.passed = flushed.passed ++ scope.textOf found ∧ after.pending = "" := by
  simp only [endPending, isScope] at success
  cases scope with
  | whole scope =>
    obtain ⟨flushed, isFlushed, success⟩ := Success.bind_eq_ok.mp success
    cases success
    have nothing := flush_pending isFlushed
    refine ⟨flushed, isFlushed, ?_, nothing⟩
    simp [RunState.passed, RunState.addScoped, nothing, BoundaryScope.textOf]
  | parts parts =>
    obtain ⟨flushed, isFlushed, success⟩ := Success.bind_eq_ok.mp success
    have nothing := flush_pending isFlushed
    have added := addParts_addsText readsAhead success
    have samePending := (addParts_adds success).pending
    refine ⟨flushed, isFlushed, ?_, samePending.trans nothing⟩
    simp [RunState.passed, added, samePending, nothing, BoundaryScope.textOf]

theorem openMode_addsText {number : Nat} {capture : Option String} (nothing : state.pending = "")
    (success : openMode setting state number found capture = .ok after) :
    after.passed = state.passed ++
      partsText found ((partNumbers? (setting.grammar.mode number).beginScope).getD []) := by
  obtain ⟨begun, begins, rfl⟩ := openMode_ok success
  have opened : (withNode setting state number).builder.text = state.builder.text ∧
      (withNode setting state number).pending = "" := by
    unfold withNode
    split <;> simp [nothing]
  cases begins with
  | plain noScope => simp [RunState.passed, opened, nothing, noScope, partNumbers?, partsText]
  | whole scope isScope =>
    simp [RunState.passed, RunState.addScoped, opened, nothing, isScope, partNumbers?, partsText]
  | parts parts isScope added isAdded =>
    have addedText := addParts_addsText readsAhead isAdded
    simp [RunState.passed, addedText, opened, nothing, isScope, partNumbers?]

theorem leave_addsText {scope : BoundaryScope}
    (isScope : (setting.topMode state).endScope = some scope)
    (left : leave setting state found = .ok (some after)) :
    ∃ flushed frame, flush setting state = .ok flushed ∧ flushed.pending = "" ∧
      IsOutermost setting state.stack found frame ∧
      after.place = some (if (setting.topMode state).flags.returnEnd then found.span.start
        else found.span.stop) ∧
      after.passed = flushed.passed ++ (scope.textOf found ++ startedText setting frame found) := by
  obtain ⟨count, ended, started, counted, isEnded, starts, rfl⟩ := leave_ok left
  obtain ⟨flushed, isFlushed, added, nothing⟩ := endPending_addsText readsAhead isScope isEnded
  obtain ⟨positive, bounded⟩ := closedBy?_bounds counted
  obtain ⟨count, rfl⟩ := Nat.exists_eq_add_one_of_ne_zero (Nat.ne_of_gt positive)
  obtain ⟨frame, isFrame⟩ : ∃ frame, (state.stack.top :: state.stack.below)[count]? = some frame :=
    ⟨_, List.getElem?_eq_getElem (Nat.lt_succ_of_lt bounded)⟩
  have sameStack : ended.stack = state.stack :=
    congrArg OpenModes.stack (endPending_stays isEnded).openModes
  have isOutermost := @closeModes_outermost setting ended count frame (by rwa [sameStack])
  refine ⟨flushed, frame, isFlushed, flush_pending isFlushed, ⟨count, counted, isFrame⟩, rfl, ?_⟩
  obtain ⟨closedText, closedPending⟩ := closeModes_text setting (count + 1) ended
  rw [isOutermost] at starts
  rw [← String.append_assoc, ← added, RunState.passed, RunState.passed, ← closedText,
    ← closedPending]
  cases starts with
  | nothing noStart => simp [startedText, noStart, partsText]
  | mode next isNext opened isOpened =>
    have openedText := openMode_addsText readsAhead (closedPending.trans nothing) isOpened
    simpa [startedText, isNext, RunState.passed] using openedText

end Ahead

end Added

theorem partsText_eq_empty {found : RuleMatch} {numbers : List Nat}
    (nothing : ∀ number ∈ numbers, found.group? number = none) : partsText found numbers = "" := by
  induction numbers with
  | nil => rfl
  | cons number numbers ih =>
    obtain ⟨isNone, areNone⟩ := List.forall_mem_cons.mp nothing
    rw [partsText, RuleMatch.groupText?, isNone, ih areNone]
    rfl

/-! ## Scoped ends -/

/-- Beyond what was pending, the end of a mode is added once if it is taken, and not at all if it is
returned. -/
def AddsOnce (mode : CompiledMode) (found : RuleMatch) (flushed after : RunState) : Prop :=
  after.passed = flushed.passed ++ if mode.flags.returnEnd then "" else found.lexeme

section Scoped

variable {setting : Setting} {state after : RunState} {found : RuleMatch}

/-- What is added where modes end and the end of the innermost one has a scope of its own.  Behind
what was pending there is what the scope takes of the match, and what a mode that starts there takes
of it.  Where the latter is nothing, a single scope adds the match once unless it is returned
without being empty.  Scopes for parts add it once where the parts make up the match, as they do if
the end is read as consisting of them, and nothing of it where none of them takes part. -/
theorem leave_adds_scoped_end {definition : Grammar.Definition}
    (compiled : CompiledGrammar.compile definition = .ok setting.grammar)
    (ahead : setting.grammar.readsAhead) {place : Place} {behind : Cursor}
    (finds : Finds setting state place found behind) (isLeave : found.kind = .leave)
    {scope : BoundaryScope} (isScope : (setting.topMode state).endScope = some scope)
    {lastMatch : Option LastMatch}
    (left : leave setting (noted state place found behind lastMatch) found = .ok (some after)) :
    ∃ flushed frame,
      flush setting (noted state place found behind lastMatch) = .ok flushed ∧
      flushed.pending = "" ∧ IsOutermost setting state.stack found frame ∧
      after.place = some (if (setting.topMode state).flags.returnEnd then found.span.start
        else found.span.stop) ∧
      after.passed = flushed.passed ++ (scope.textOf found ++ startedText setting frame found) ∧
      (startedText setting frame found = "" →
        (∀ name, scope = .whole name →
          (AddsOnce (setting.topMode state) found flushed after ↔
            (setting.topMode state).flags.returnEnd = false ∨ found.lexeme = "")) ∧
        ∀ parts, scope = .parts parts →
          (AddsOnce (setting.topMode state) found flushed after ↔
            partsText found (parts.map Prod.fst) = found.lexeme) ∧
          (setting.grammar.rulesFaithful (setting.topMode state) →
            AddsOnce (setting.topMode state) found flushed after) ∧
          ((∀ part ∈ parts, found.group? part.1 = none) →
            (AddsOnce (setting.topMode state) found flushed after ↔ found.lexeme = ""))) := by
  obtain ⟨flushed, frame, isFlushed, nothing, isOutermost, isPlace, added⟩ :=
    @leave_addsText setting (noted state place found behind lastMatch) after found
      (Setting.readsAhead_of_compile compiled ahead) scope isScope left
  refine ⟨flushed, frame, isFlushed, nothing, isOutermost, isPlace, added, fun noStart => ?_⟩
  rw [noStart, String.append_empty] at added
  have addsOnce : AddsOnce (setting.topMode state) found flushed after ↔
      scope.textOf found =
        if (setting.topMode state).flags.returnEnd then "" else found.lexeme := by
    rw [AddsOnce, added, String.append_right_inj]
  constructor
  · rintro name rfl
    rw [addsOnce, BoundaryScope.textOf]
    cases (setting.topMode state).flags.returnEnd <;> simp
  · rintro parts rfl
    have sound := CompiledGrammar.sound_of_compile compiled state.stack.top.mode
    have taken : (setting.topMode state).flags.returnEnd = false :=
      (sound.endParts parts isScope).2.2
    rw [taken] at addsOnce
    refine ⟨addsOnce, fun faithful => addsOnce.mpr ?_, fun absent => addsOnce.trans ?_⟩
    · have isParts : setting.grammar.partsOf (setting.topMode state) found.kind =
          some (parts.map Prod.fst) := by
        rw [isLeave, CompiledGrammar.partsOf, isScope]
        rfl
      exact partsText_of_covered
        ((CompiledGrammar.next_placed compiled faithful finds.search).2.2 _ isParts)
    · rw [BoundaryScope.textOf, partsText_eq_empty (List.forall_mem_map.mpr absent)]
      exact eq_comm

end Scoped

instance (mode : CompiledMode) (found : RuleMatch) (flushed after : RunState) :
    Decidable (AddsOnce mode found flushed after) :=
  inferInstanceAs (Decidable (_ = _))

/-! ### Runs on one text -/

def applying (grammar : CompiledGrammar) (state : RunState) (place : Place) (found : RuleMatch) :
    RunState :=
  noted state place found
    (((alone grammar).topMode state).matcher.advance (startCursor state) (some found)) none

/-- A match ends modes in a run on a text, and the end of the innermost one has a scope of its
own. -/
structure EndsScoped (definition : Grammar.Definition) (text : String) (found : RuleMatch)
    (grammar : CompiledGrammar) (state : RunState) (place : Place) (flushed after : RunState) :
    Prop where
  compiled : CompiledGrammar.compile definition = .ok grammar
  ahead : grammar.readsAhead
  reached : Reached (alone grammar) none text state
  finds : ∃ behind, Finds (alone grammar) state place found behind
  hasScope : ((alone grammar).topMode state).endScope.isSome
  isFlushed : flush (alone grammar) (applying grammar state place found) = .ok flushed
  left : leave (alone grammar) (applying grammar state place found) found = .ok (some after)

/-- What there is to evaluate of a match that ends modes, behind a number of steps. -/
def endsScoped (definition : Grammar.Definition) (text : String) (found : RuleMatch) (count : Nat)
    (test : CompiledGrammar → RunState → RunState → RunState → Bool) : Bool :=
  (CompiledGrammar.compile definition).toOption.any fun grammar =>
    grammar.readsAhead && (stateAfter? (alone grammar) text count).any fun state =>
      ((alone grammar).topMode state).endScope.isSome &&
      (nextMatch (alone grammar) state).toOption = some (some found) && state.place.any fun place =>
        place.offset ≤ found.span.start.offset &&
        (flush (alone grammar) (applying grammar state place found)).toOption.any fun flushed =>
          (leave (alone grammar) (applying grammar state place found) found).toOption.join.any
            fun after => test grammar state flushed after

theorem exists_endsScoped {definition : Grammar.Definition} {text : String} {found : RuleMatch}
    {count : Nat} {test : CompiledGrammar → RunState → RunState → RunState → Bool}
    (evaluated : endsScoped definition text found count test) :
    ∃ grammar state place flushed after,
      EndsScoped definition text found grammar state place flushed after ∧
      test grammar state flushed after = true := by
  simp only [endsScoped, Option.any_eq_true, Bool.and_eq_true, decide_eq_true_eq,
    Option.join_eq_some_iff, Success.toOption_eq_some] at evaluated
  obtain ⟨grammar, compiled, ahead, state, isState, ⟨hasScope, isNext⟩, place, isPlace, order,
    flushed, isFlushed, after, left, tested⟩ := evaluated
  exact ⟨grammar, state, place, flushed, after,
    ⟨compiled, ahead, reached_of_stateAfter? isState,
      ⟨_, finds_of_nextMatch isPlace isNext order⟩, hasScope, isFlushed, left⟩, tested⟩

/-- A mode whose end has two parts with scopes of their own.  It may end with the mode around it. -/
def partedEnd (endsWithParent : Bool) : Grammar.Definition where
  name := "parted"
  root :=
    { contains := some [.inline
        { beginPattern := some (.source "<")
          endPattern := some (.source ">")
          contains := some [.inline
            { beginPattern := some (.source "\\(")
              endPattern := some (.sequence ["a", "b"])
              endScope := some (.groups (.ofList [(1, "first"), (2, "second")]))
              endsWithParent := some endsWithParent }] }] }

def returnedEnd : Grammar.Definition where
  name := "returned"
  root :=
    { contains := some [.inline
        { beginPattern := some (.source "\\(")
          endPattern := some (.source "\\)")
          endScope := some (.name "end")
          returnEnd := some true }] }

/-- A match that ends the innermost mode, with the groups that it has. -/
def endIn (text : String) (first last : Nat) (groups : List (Option Span)) : RuleMatch where
  kind := .leave
  position := 0
  span := Alternation.stretch text first last
  groups

/-- The end of the inner mode, with its two parts. -/
def innerParts : RuleMatch :=
  endIn "<(ab" 2 4
    [some (Alternation.stretch "<(ab" 2 3), some (Alternation.stretch "<(ab" 3 4)]

/-- The end of a mode that inherits none is added once, part by part. -/
theorem leave_adds_scoped_end_parted :
    ∃ grammar state place flushed after,
      EndsScoped (partedEnd false) "<(ab" innerParts grammar state place flushed after ∧
      innerParts.lexeme = "ab" ∧
      AddsOnce ((alone grammar).topMode state) innerParts flushed after := by
  obtain ⟨grammar, state, place, flushed, after, ends, tested⟩ :=
    @exists_endsScoped (partedEnd false) "<(ab" innerParts 2
      (fun grammar state _ _ =>
        grammar.rulesFaithful ((alone grammar).topMode state) &&
        ((alone grammar).topMode state).endScope =
          some (.parts [(1, some "first"), (2, some "second")]) &&
        (closedBy? (alone grammar) innerParts state.stack.top state.stack.below).toOption =
          some (some 1) &&
        (grammar.mode state.stack.top.mode).starts.isNone) (by decide +kernel)
  simp only [Bool.and_eq_true, decide_eq_true_eq, Success.toOption_eq_some,
    Option.isNone_iff_eq_none] at tested
  obtain ⟨⟨⟨faithful, isScope⟩, closed⟩, noStart⟩ := tested
  refine ⟨grammar, state, place, flushed, after, ends, by decide +kernel, ?_⟩
  obtain ⟨behind, finds⟩ := ends.finds
  obtain ⟨sameCursor, -⟩ := Matcher.next_fires finds.search
  obtain ⟨other, frame, isFlushed, -, ⟨count, counted, isFrame⟩, -, -, adds⟩ :=
    @leave_adds_scoped_end (alone grammar) state after innerParts (partedEnd false) ends.compiled
      ends.ahead place behind finds rfl _ isScope none (sameCursor ▸ ends.left)
  cases closed.symm.trans counted
  cases isFrame
  obtain rfl := Except.ok.inj (ends.isFlushed.symm.trans (sameCursor ▸ isFlushed))
  refine ((adds ?_).2 _ rfl).2.1 faithful
  have noStart : ((alone grammar).grammar.mode state.stack.top.mode).starts = none := noStart
  rw [startedText, noStart]
  rfl

/-- An end with a scope of its own is added, although it is returned, and so it is added again.  And
where the mode around ends, nothing of that is added by a mode whose own end has parts with
scopes. -/
theorem scoped_ends_miscounted :
    (∃ grammar state place flushed after,
      EndsScoped returnedEnd "(a)" (endIn "(a)" 2 3 []) grammar state place flushed after ∧
      flushed.passed = "(a" ∧ after.passed = "(a)" ∧
      ¬AddsOnce ((alone grammar).topMode state) (endIn "(a)" 2 3 []) flushed after) ∧
    ∃ grammar state place flushed after,
      EndsScoped (partedEnd true) "<(>" (endIn "<(>" 2 3 [none, none]) grammar state place flushed
        after ∧
      flushed.passed = "<(" ∧ after.passed = "<(" ∧
      ¬AddsOnce ((alone grammar).topMode state) (endIn "<(>" 2 3 [none, none]) flushed after := by
  have differ (definition : Grammar.Definition) (text : String) (found : RuleMatch) (count : Nat)
      (before behind : String)
      (evaluated : endsScoped definition text found count fun grammar state flushed after =>
        flushed.passed = before && after.passed = behind &&
          !decide (AddsOnce ((alone grammar).topMode state) found flushed after)) :
      ∃ grammar state place flushed after,
        EndsScoped definition text found grammar state place flushed after ∧
        flushed.passed = before ∧ after.passed = behind ∧
        ¬AddsOnce ((alone grammar).topMode state) found flushed after := by
    obtain ⟨grammar, state, place, flushed, after, ends, tested⟩ := exists_endsScoped evaluated
    simp only [Bool.and_eq_true, Bool.not_eq_true', decide_eq_true_eq,
      decide_eq_false_iff_not] at tested
    exact ⟨grammar, state, place, flushed, after, ends, tested.1.1, tested.1.2, tested.2⟩
  exact ⟨differ _ _ _ 1 _ _ (by decide +kernel), differ _ _ _ 2 _ _ (by decide +kernel)⟩

end Run
end Highlighter

import Highlighter.Proofs.Turns
import Highlighter.Proofs.Matcher
import Highlighter.Proofs.Places

/-!
# Beginnings that are rejected

The hooks of a mode can reject its beginning after that has matched.  What is tried then at the
same place are the rules from the cursor on: those behind the rejected rule, unless that was found
behind another rejected one, and none at all if it is the last rule that lets a mode begin.  A
rejected beginning is also taken for that of the open mode, if this ends there with nothing in it.
-/
namespace Highlighter

theorem RuleKind.isEnter_iff {kind : RuleKind} :
    kind.isEnter = true ↔ ∃ child, kind = .enter child := by
  cases kind <;> simp [isEnter]

/-! ## The rule that has matched -/

namespace Matcher

/-- The first match of all rules behind the next character. -/
def searchBehind (matcher : Matcher) (place : Place) : Except MatchFailure (Option RuleMatch) :=
  match place.next? with
  | some (_, next) => matcher.searchSuffix 0 next
  | none => .ok none

/-- What comes next if the rules from a position on are tried at a place: the first of them
that matches right there, or else the first match of all rules behind the next character. -/
def retry (matcher : Matcher) (position : Nat) (place : Place) :
    Except MatchFailure (Option RuleMatch) := do
  let found ← matcher.searchSuffix position place
  if found.any fun found => found.span.start.offset = place.offset then return found
  else matcher.searchBehind place

def Passes (matcher : Matcher) (position : Nat) (place : Place) : Prop :=
  ∃ found, matcher.searchSuffix position place = .ok found ∧
    ∀ other ∈ found, other.span.start.offset ≠ place.offset

/-- The number of the rule that a search has found.  The position of a match counts the rules
from the cursor on, or all rules if it was found behind the next character. -/
inductive Fires (matcher : Matcher) (cursor : Cursor) (place : Place) (found : RuleMatch) :
    (rule : Nat) → Prop where
  | atCursor (search : matcher.searchSuffix cursor.position place = .ok (some found))
      (isHere : cursor.position = 0 ∨ found.span.start.offset = place.offset) :
      Fires matcher cursor place found (cursor.position + found.position)
  | behind (resumed : cursor.position ≠ 0) (passes : matcher.Passes cursor.position place)
      (search : matcher.searchBehind place = .ok (some found)) :
      Fires matcher cursor place found found.position

variable {matcher : Matcher} {cursor after : Cursor} {place : Place} {found : RuleMatch}

theorem searchBehind_ok (search : matcher.searchBehind place = .ok (some found)) :
    ∃ char following, place.next? = some (char, following) ∧
      matcher.searchSuffix 0 following = .ok (some found) := by
  unfold searchBehind at search
  split at search
  · rename_i char following isNext
    exact ⟨char, following, isNext, search⟩
  · cases search

theorem retry_of_passes {position : Nat} (passes : matcher.Passes position place) :
    matcher.retry position place = matcher.searchBehind place := by
  obtain ⟨found, search, elsewhere⟩ := passes
  rw [retry, search, Success.ok_bind, if_neg]
  rw [Option.any_eq_true]
  rintro ⟨other, isOther, isHere⟩
  exact elsewhere other isOther (of_decide_eq_true isHere)

theorem searchAt_of_resumed (resumed : cursor.position ≠ 0) :
    matcher.searchAt cursor place = matcher.retry cursor.position place := by
  simp only [searchAt, if_neg resumed]
  rfl

theorem searchAt_of_start : matcher.searchAt {} place = matcher.searchSuffix 0 place := by
  simp only [searchAt, if_true]
  cases matcher.searchSuffix 0 place <;> rfl

theorem next_fires (search : matcher.next cursor place = .ok (some found, after)) :
    after = matcher.advance cursor (some found) ∧
      ∃ rule, matcher.Fires cursor place found rule := by
  obtain ⟨result, searched, search⟩ := Success.bind_eq_ok.mp search
  cases search
  refine ⟨rfl, ?_⟩
  by_cases resumed : cursor.position = 0
  · have isStart : cursor = {} := by
      cases cursor
      simp only at resumed
      rw [resumed]
    subst isStart
    rw [searchAt_of_start] at searched
    exact ⟨_, .atCursor searched (.inl rfl)⟩
  · rw [searchAt_of_resumed resumed] at searched
    obtain ⟨first, isFirst, searched⟩ := Success.bind_eq_ok.mp searched
    split at searched
    · rename_i isHere
      cases searched
      exact ⟨_, .atCursor isFirst (.inr (of_decide_eq_true isHere))⟩
    · rename_i elsewhere
      refine ⟨_, .behind resumed ⟨first, isFirst, ?_⟩ searched⟩
      intro other isOther isHere
      exact elsewhere ((Option.any_eq_true _ _).mpr ⟨other, isOther, decide_eq_true isHere⟩)

theorem Fires.rule {rules : List Rule} {ignoreCase : Bool}
    (compiled : compile rules ignoreCase = .ok matcher) {number : Nat}
    (fires : matcher.Fires cursor place found number) :
    ∃ rule, rules[number]? = some rule ∧ found.kind = rule.kind := by
  cases fires with
  | atCursor search isHere =>
    obtain ⟨alternation, joined, searched⟩ := searchSuffix_ok compiled search
    simpa using Alternation.search_rule joined searched
  | behind resumed passes search =>
    obtain ⟨char, following, -, search⟩ := searchBehind_ok search
    obtain ⟨alternation, joined, searched⟩ := searchSuffix_ok compiled search
    simpa using Alternation.search_rule joined searched

/-- The cursor that names the rule after a rule.  Behind the last rule that lets a mode begin
it starts over. -/
def cursorBehind (matcher : Matcher) (rule : Nat) : Cursor where
  position := if rule + 1 = matcher.enterCount then 0 else rule + 1

theorem cursorBehind_inj {first second : Nat}
    (same : matcher.cursorBehind first = matcher.cursorBehind second) : first = second := by
  have positions := congrArg Cursor.position same
  simp only [cursorBehind] at positions
  split at positions <;> split at positions <;> omega

/-- Where the cursor stands after a match.  It is moved on by the position of the match, and so
names the rule after the one that has fired exactly if the search began with the first rule or
a rule from the cursor on matched right at the place.  A match behind the next character is counted
from the first rule, and the cursor passes over as many rules as it stood behind. -/
theorem cursor_after_match {rules : List Rule} {ignoreCase : Bool}
    (compiled : compile rules ignoreCase = .ok matcher)
    (search : matcher.next cursor place = .ok (some found, after)) :
    ∃ number rule, matcher.Fires cursor place found number ∧ rules[number]? = some rule ∧
      found.kind = rule.kind ∧ after = matcher.cursorBehind (cursor.position + found.position) ∧
      (after = matcher.cursorBehind number ↔
        cursor.position = 0 ∨ ¬ matcher.Passes cursor.position place) := by
  obtain ⟨isAfter, number, fires⟩ := next_fires search
  obtain ⟨rule, isRule, sameKind⟩ := fires.rule compiled
  refine ⟨number, rule, fires, isRule, sameKind, isAfter, ?_⟩
  rw [isAfter]
  cases fires with
  | atCursor search isHere =>
    refine iff_of_true rfl (isHere.imp_right fun sameOffset passes => ?_)
    obtain ⟨other, isOther, elsewhere⟩ := passes
    rw [search] at isOther
    cases isOther
    exact elsewhere found rfl sameOffset
  | behind resumed passes search =>
    refine iff_of_false (fun same => ?_) (not_or.mpr ⟨resumed, not_not_intro passes⟩)
    have moved : cursor.position + found.position = found.position := cursorBehind_inj same
    exact resumed (Nat.add_eq_right.mp moved)

def twoLetters : List Rule :=
  [{ source := "a", kind := .enter 1 }, { source := "z", kind := .enter 2 }]

theorem cursor_after_match_resumed :
    ∃ matcher found number rule, compile twoLetters false = .ok matcher ∧
      matcher.next { position := 1 } (.start ['z', 'a']) = .ok (some found, {}) ∧
      matcher.Fires { position := 1 } (.start ['z', 'a']) found number ∧
      twoLetters[number]? = some rule ∧ found.kind = rule.kind ∧
      matcher.cursorBehind number = {} := by
  have evaluated : ((compile twoLetters false).toOption.any fun matcher =>
      ((matcher.next { position := 1 } (.start ['z', 'a'])).toOption.any fun result =>
        result.1.isSome && result.2 == {}) &&
      (matcher.searchSuffix 1 (.start ['z', 'a'])).toOption.join.any fun found =>
        found.span.start.offset == 0) = true := by
    decide +kernel
  simp only [Option.any_eq_true, Success.toOption_eq_some, Bool.and_eq_true, beq_iff_eq,
    Option.isSome_iff_exists, Option.join_eq_some_iff] at evaluated
  obtain ⟨matcher, compiled, ⟨⟨result, after⟩, search, ⟨found, rfl⟩, rfl⟩, first, isFirst, isHere⟩ :=
    evaluated
  obtain ⟨number, rule, fires, isRule, sameKind, -, isNext⟩ := cursor_after_match compiled search
  refine ⟨matcher, found, number, rule, compiled, search, fires, isRule, sameKind,
    (isNext.mpr (.inr ?_)).symm⟩
  rintro ⟨other, isOther, elsewhere⟩
  rw [isFirst] at isOther
  cases isOther
  exact elsewhere first rfl isHere

/-- Two searches at one place: the second one resumes behind the first rule, finds that rule
again behind the next character, and leaves the cursor behind the other one. -/
theorem cursor_after_fallback :
    ∃ matcher first found after, compile twoLetters false = .ok matcher ∧
      matcher.next {} (.start ['a', 'a']) = .ok (some first, matcher.cursorBehind 0) ∧
      matcher.next (matcher.cursorBehind 0) (.start ['a', 'a']) = .ok (some found, after) ∧
      found.kind = .enter 1 ∧ after ≠ matcher.cursorBehind 0 := by
  have evaluated : ((compile twoLetters false).toOption.any fun matcher =>
      ((matcher.next {} (.start ['a', 'a'])).toOption.any fun result =>
        result.1.isSome && result.2 == matcher.cursorBehind 0) &&
      (matcher.next (matcher.cursorBehind 0) (.start ['a', 'a'])).toOption.any fun result =>
        (result.1.any fun found => found.kind == .enter 1) &&
          result.2 != matcher.cursorBehind 0) = true := by
    decide +kernel
  simp only [Option.any_eq_true, Success.toOption_eq_some, Bool.and_eq_true, beq_iff_eq,
    bne_iff_ne, Option.isSome_iff_exists] at evaluated
  obtain ⟨matcher, compiled, ⟨⟨first, _⟩, search, ⟨found, rfl⟩, rfl⟩, ⟨second, after⟩, again,
    ⟨other, rfl, sameKind⟩, differs⟩ := evaluated
  exact ⟨matcher, found, other, after, compiled, search, again, sameKind, differs⟩

end Matcher

namespace Run

open Compiled (CompiledGrammar)

variable {setting : Setting} {state after : RunState} {found : RuleMatch} {place : Place}
  {behind : Cursor}

variable {text : String} {count : Nat}

/-! ## What is tried next -/

def nextMatch (setting : Setting) (state : RunState) : Except MatchFailure (Option RuleMatch) :=
  match state.place with
  | none => .ok none
  | some place => (setting.topMode state).matcher.searchAt (startCursor state) place

theorem nextMatch_skipEnter (resumes : state.resume = false) :
    nextMatch setting (skipEnter state found) =
      if state.cursor.position = 0 then
        (setting.topMode state).matcher.searchBehind found.span.start
      else (setting.topMode state).matcher.retry state.cursor.position found.span.start := by
  unfold skipEnter
  split
  · have top : setting.topMode (state.passChar found.span.start) = setting.topMode state := by
      simp only [Setting.topMode, RunState.passChar_stack]
    have course := state.passChar_course found.span.start
    have isPlace : (state.passChar found.span.start).place = _ := congrArg Course.place course
    have isCursor : startCursor (state.passChar found.span.start) = {} := by
      have kept : (state.passChar found.span.start).resume = state.resume :=
        congrArg Course.resume course
      rw [startCursor, kept, resumes]
      rfl
    simp only [nextMatch, isPlace, isCursor, top, Course.pass, Matcher.searchAt_of_start,
      Matcher.searchBehind]
    cases found.span.start.next? <;> rfl
  · rename_i resumed
    exact Matcher.searchAt_of_resumed resumed

theorem finds_of_nextMatch (isPlace : state.place = some place)
    (next : nextMatch setting state = .ok (some found))
    (order : place.offset ≤ found.span.start.offset) :
    Finds setting state place found
      ((setting.topMode state).matcher.advance (startCursor state) (some found)) := by
  simp only [nextMatch, isPlace] at next
  exact ⟨isPlace, by rw [Matcher.next, next]; rfl, order⟩

/-- The next step finds a match of a rule that lets a mode begin, and the hooks of the mode
reject it. -/
structure Rejects (setting : Setting) (state : RunState) (place : Place) (found : RuleMatch)
    (rule : Nat) : Prop where
  finds : ∃ behind, Finds setting state place found behind
  fires : (setting.topMode state).matcher.Fires (startCursor state) place found rule
  rejected : ∃ child, found.kind = .enter child ∧
    (setting.grammar.mode child).hooks.any (rejects found) = true

/-- A step in which a beginning is rejected changes no mode and moves the cursor on. -/
theorem Rejects.step {rule : Nat} (isRejected : Rejects setting state place found rule) :
    step setting state = .ok (.more (skipEnter
      ((searched state place found ((setting.topMode state).matcher.advance (startCursor state)
        (some found))).note found) found)) := by
  obtain ⟨⟨behind, finds⟩, -, child, isEnter, rejected⟩ := isRejected
  obtain ⟨isBehind, -⟩ := Matcher.next_fires finds.search
  subst isBehind
  refine step_eq_more.mpr ⟨place, found, _, finds, ?_⟩
  have isNoEnd : endsNothing (searched state place found ((setting.topMode state).matcher.advance
      (startCursor state) (some found))) found = false := by
    simp [endsNothing, isEnter]
  simp only [apply, isNoEnd, isEnter, enter, rejected, Bool.false_eq_true, if_false, if_true]
  simp only [RunState.note, isEnter]

/-- What is tried when a beginning has been rejected: the rules from the cursor on, at the same
place, but none if the cursor has come to the last rule that lets a mode begin.  These are the
rules behind the rejected one if that was counted from the cursor on, and not found behind the
next character; and then trying those rules gives what comes next, if another rule that lets a
mode begin follows or none of them matches. -/
theorem rejected_begin_retries {rule : Nat}
    (isRejected : Rejects setting state place found rule) :
    let matcher := (setting.topMode state).matcher
    let position := (startCursor state).position + found.position + 1
    let here := found.span.start
    ∃ after, step setting state = .ok (.more after) ∧ after.stack = state.stack ∧
      (position = rule + 1 →
        (position = matcher.enterCount → matcher.Passes position here) →
        nextMatch setting after = matcher.retry (rule + 1) here) ∧
      (position ≠ matcher.enterCount →
        nextMatch setting after = matcher.retry position here) ∧
      (position = matcher.enterCount →
        nextMatch setting after = matcher.searchBehind here ∧
        ∀ hidden : RuleMatch, hidden.span.start.offset = here.offset →
          ∀ place behind, ¬ Finds setting after place hidden behind) := by
  intro matcher position here
  let looked := (searched state place found (matcher.advance (startCursor state)
    (some found))).note found
  have isCursor : looked.cursor.position = if position = matcher.enterCount then 0 else position :=
    rfl
  have next : nextMatch setting (skipEnter looked found) =
      if looked.cursor.position = 0 then matcher.searchBehind here
      else matcher.retry looked.cursor.position here := nextMatch_skipEnter rfl
  have behindLast (isLast : position = matcher.enterCount) :
      nextMatch setting (skipEnter looked found) = matcher.searchBehind here := by
    rw [next, isCursor, if_pos isLast, if_pos rfl]
  have atCursor (notLast : position ≠ matcher.enterCount) :
      nextMatch setting (skipEnter looked found) = matcher.retry position here := by
    rw [next, isCursor, if_neg notLast, if_neg (Nat.succ_ne_zero _)]
  refine ⟨skipEnter looked found, isRejected.step, ?_, ?_, atCursor, fun isLast =>
    ⟨behindLast isLast, ?_⟩⟩
  · exact congrArg OpenModes.stack (skipEnter_openModes found)
  · intro isBehind passes
    by_cases isLast : position = matcher.enterCount
    · rw [behindLast isLast, ← isBehind, Matcher.retry_of_passes (passes isLast)]
    · rw [atCursor isLast, isBehind]
  · -- behind the last beginning the search has left the place
    intro hidden sameOffset origin behind finds
    have passed : (skipEnter looked found).place = here.next?.map Prod.snd := by
      rw [skipEnter, if_pos (by rw [isCursor, if_pos isLast])]
      exact congrArg Course.place (looked.passChar_course here)
    rw [finds.isPlace] at passed
    obtain ⟨⟨char, following⟩, isNext, rfl⟩ := Option.map_eq_some_iff.mp passed.symm
    have later := Place.offset_lt_of_next isNext
    have order : following.offset ≤ hidden.span.start.offset := finds.order
    omega

/-! ### Runs on one text -/

def stateAfter? (setting : Setting) (text : String) : (count : Nat) → Option RunState
  | 0 => some (initialState setting none text.toList)
  | count + 1 =>
    (stateAfter? setting text count).bind fun state =>
      match step setting state with
      | .ok (.more next) => some next
      | _ => none

theorem stateAfter?_succ (isState : stateAfter? setting text count = some state)
    (isAfter : stateAfter? setting text (count + 1) = some after) :
    step setting state = .ok (.more after) := by
  rw [stateAfter?, isState, Option.bind_some] at isAfter
  split at isAfter
  · cases isAfter
    assumption
  · cases isAfter

theorem reached_of_stateAfter? (isState : stateAfter? setting text count = some state) :
    Reached setting none text state := by
  induction count generalizing state with
  | zero =>
    cases isState
    exact .start
  | succ count ih =>
    obtain ⟨previous, isPrevious, -⟩ := Option.bind_eq_some_iff.mp isState
    exact (ih isPrevious).next (stateAfter?_succ isPrevious isState)

def parenthesized (ending : String) (children : List Grammar.Mode) : Grammar.Definition where
  name := "parenthesized"
  root :=
    { contains := some [.inline
        { beginPattern := some (.source "\\(")
          endPattern := some (.source ending)
          contains := some (children.map .inline) }] }

def atInputStart (source : String) : Grammar.Mode where
  beginPattern := some (.source source)
  hooks := some [.onlyAtInputStart]

/-- Strict runs in a grammar that embeds nothing. -/
def alone (grammar : CompiledGrammar) : Setting where
  name := grammar.name
  grammar
  ignoreIllegals := false
  safe := false
  embedder :=
    { highlight := fun _ _ _ _ => .ok none
      detect := fun _ _ => .error .endlessEmbedding }

def rejectsFirst (setting : Setting) (state : RunState) : Bool :=
  !state.resume &&
    (nextMatch setting state).toOption.join.any fun found =>
      found.position == 0 &&
      (state.place.any fun place => place.offset ≤ found.span.start.offset) &&
        match found.kind with
        | .enter child => (setting.grammar.mode child).hooks.any (rejects found)
        | _ => false

theorem rejects_of_rejectsFirst (isFirst : rejectsFirst setting state) :
    ∃ place found, nextMatch setting state = .ok (some found) ∧ startCursor state = {} ∧
      found.position = 0 ∧ Rejects setting state place found 0 := by
  simp only [rejectsFirst, Bool.and_eq_true, Bool.not_eq_true', Option.any_eq_true,
    Option.join_eq_some_iff, Success.toOption_eq_some, beq_iff_eq, decide_eq_true_eq] at isFirst
  obtain ⟨fresh, found, next, ⟨isZero, place, isPlace, order⟩, rejected⟩ := isFirst
  have finds := finds_of_nextMatch isPlace next order
  have isStart : startCursor state = {} := by rw [startCursor, fresh]; rfl
  refine ⟨place, found, next, isStart, isZero, ⟨_, finds⟩, ?_, ?_⟩
  · obtain ⟨-, rule, fires⟩ := Matcher.next_fires finds.search
    rw [isStart] at fires ⊢
    cases fires with
    | atCursor search isHere =>
      have isFirst := Matcher.Fires.atCursor search isHere
      rwa [isZero] at isFirst
    | behind resumed passes search => exact absurd rfl resumed
  · split at rejected
    · rename_i child isEnter
      exact ⟨child, isEnter, rejected⟩
    · cases rejected

/-- The rules that follow a rejected one are tried at its place: of two modes that begin in the
same way the second begins where the first may not. -/
theorem rejected_begin_retries_sibling :
    ∃ grammar state place found after,
      CompiledGrammar.compile (parenthesized "x"
        [atInputStart "a", { beginPattern := some (.source "a") }]) = .ok grammar ∧
      Reached (alone grammar) none "(a" state ∧
      Rejects (alone grammar) state place found 0 ∧
      step (alone grammar) state = .ok (.more after) ∧
      nextMatch (alone grammar) after =
        ((alone grammar).topMode state).matcher.retry 1 found.span.start := by
  have evaluated : ((CompiledGrammar.compile (parenthesized "x"
      [atInputStart "a", { beginPattern := some (.source "a") }])).toOption.any fun grammar =>
        (stateAfter? (alone grammar) "(a" 1).any fun state =>
          rejectsFirst (alone grammar) state &&
            ((alone grammar).topMode state).matcher.enterCount == 2) = true := by
    decide +kernel
  simp only [Option.any_eq_true, Success.toOption_eq_some, Bool.and_eq_true, beq_iff_eq]
    at evaluated
  obtain ⟨grammar, compiled, state, isState, isFirst, count⟩ := evaluated
  obtain ⟨place, found, -, isStart, isZero, isRejected⟩ := rejects_of_rejectsFirst isFirst
  obtain ⟨after, stepped, -, retries, -, -⟩ := rejected_begin_retries isRejected
  refine ⟨grammar, state, place, found, after, compiled, reached_of_stateAfter? isState,
    isRejected, stepped, ?_⟩
  rw [isStart, isZero, count] at retries
  exact retries rfl fun isLast => absurd isLast (by decide)

/-- The end of a mode is not tried where the only mode in it was kept from beginning, although
it matches there. -/
theorem rejected_begin_hides_end :
    ∃ grammar state place found after hidden,
      CompiledGrammar.compile (parenthesized "a" [atInputStart "a"]) = .ok grammar ∧
      Reached (alone grammar) none "(a" state ∧
      Rejects (alone grammar) state place found 0 ∧
      step (alone grammar) state = .ok (.more after) ∧
      ((alone grammar).topMode state).matcher.retry 1 found.span.start = .ok (some hidden) ∧
      hidden.kind = .leave ∧ hidden.span.start.offset = found.span.start.offset ∧
      nextMatch (alone grammar) after ≠ .ok (some hidden) := by
  have evaluated : ((CompiledGrammar.compile (parenthesized "a"
      [atInputStart "a"])).toOption.any fun grammar =>
        (stateAfter? (alone grammar) "(a" 1).any fun state =>
          rejectsFirst (alone grammar) state &&
          ((nextMatch (alone grammar) state).toOption.join.any fun found =>
            (((alone grammar).topMode state).matcher.retry 1
              found.span.start).toOption.join.any fun hidden =>
                hidden.kind == .leave && hidden.span.start.offset == found.span.start.offset) &&
          (stateAfter? (alone grammar) "(a" 2).any fun after =>
            (nextMatch (alone grammar) after).toOption.join.isNone) = true := by
    decide +kernel
  simp only [Option.any_eq_true, Success.toOption_eq_some, Bool.and_eq_true, beq_iff_eq,
    Option.join_eq_some_iff] at evaluated
  obtain ⟨grammar, compiled, state, isState, ⟨isFirst, found, isFound, hidden, isHidden, isLeave,
    isHere⟩, after, isAfter, finished⟩ := evaluated
  obtain ⟨place, same, isSame, -, -, isRejected⟩ := rejects_of_rejectsFirst isFirst
  obtain rfl : found = same := by simpa [isFound] using isSame
  refine ⟨grammar, state, place, found, after, hidden, compiled, reached_of_stateAfter? isState,
    isRejected, stateAfter?_succ isState isAfter, isHidden, isLeave, isHere, fun next => ?_⟩
  rw [next] at finished
  cases finished

/-! ## Modes that end right where they began -/

theorem endsNothing_iff :
    endsNothing state found = true ↔
      state.lastMatch = some { enters := true, offset := found.span.start.offset } ∧
        found.kind = .leave ∧ found.span.isEmpty = true := by
  simp only [endsNothing, Bool.and_eq_true, decide_eq_true_eq, and_assoc]

/-- The step that led from one state to another applied a match. -/
def Takes (setting : Setting) (state : RunState) (found : RuleMatch) (after : RunState) : Prop :=
  ∃ place behind, Finds setting state place found behind ∧
    apply setting (searched state place found behind) found = .ok after

def Opens (setting : Setting) (state : RunState) (found : RuleMatch) (after : RunState) : Prop :=
  ∃ child, found.kind = .enter child ∧
    after.stack = state.stack.push
      { mode := child, capture := captureOf (setting.grammar.mode child) found }

/-- The hooks of a mode rejected its beginning, and the rules behind it are tried next. -/
def Resumes (setting : Setting) (state : RunState) (found : RuleMatch) (after : RunState) : Prop :=
  ∃ child, found.kind = .enter child ∧
    (setting.grammar.mode child).hooks.any (rejects found) = true ∧
    after.stack = state.stack ∧ after.resume = true

theorem offset_lt_of_pass {course : Course} {here : Place}
    (passed : state.course = course.pass here) (isPlace : state.place = some place) :
    here.offset < place.offset := by
  have behind : state.place = here.next?.map Prod.snd := congrArg Course.place passed
  rw [isPlace] at behind
  obtain ⟨⟨char, following⟩, isNext, rfl⟩ := Option.map_eq_some_iff.mp behind.symm
  exact Place.offset_lt_of_next isNext

theorem Takes.opens_or_resumes (takes : Takes setting state found after) {child : Nat}
    (isEnter : found.kind = .enter child) (isPlace : after.place = some place)
    (isHere : place.offset ≤ found.span.start.offset) :
    Opens setting state found after ∨ Resumes setting state found after := by
  obtain ⟨origin, behind, finds, applied⟩ := takes
  cases apply_turns applied with
  | guarded fires safe course stack =>
    rw [endsNothing_iff, isEnter] at fires
    cases fires.2.1
  | rejected child isEnter rejected isAfter =>
    subst isAfter
    have stack := congrArg OpenModes.stack
      (@skipEnter_openModes ((searched state origin found behind).note found) found)
    refine .inr ⟨child, isEnter, rejected, stack, ?_⟩
    unfold skipEnter at isPlace ⊢
    split at isPlace
    · have later := offset_lt_of_pass (RunState.passChar_course _ _) isPlace
      omega
    · rename_i resumed
      rw [if_neg resumed]
  | entered child isEnter accepted course stack => exact .inl ⟨child, isEnter, stack⟩
  | left isLeave count bounded course modes =>
    rw [isEnter] at isLeave
    cases isLeave
  | kept noEnter patient course stack =>
    rw [isEnter] at noEnter
    cases noEnter
  | passed isIllegal isEmpty course stack =>
    rw [isEnter] at isIllegal
    cases isIllegal

/-- What is noted of a match is whether it could let a mode begin, and not whether it did.
Nothing is noted where a mode would end with nothing in it, but that place is left behind. -/
theorem Takes.lastMatch (takes : Takes setting state found after)
    (isPlace : after.place = some place) :
    after.lastMatch =
        some { enters := found.kind.isEnter, offset := found.span.start.offset } ∨
      found.kind = .leave ∧ found.span.start.offset < place.offset ∧
        after.lastMatch = some { enters := true, offset := found.span.start.offset } := by
  obtain ⟨origin, behind, finds, applied⟩ := takes
  cases apply_turns applied with
  | guarded fires safe course stack =>
    obtain ⟨lastMatch, isLeave, -⟩ := endsNothing_iff.mp fires
    have kept : after.lastMatch = state.lastMatch := congrArg Course.lastMatch course
    exact .inr ⟨isLeave, offset_lt_of_pass course isPlace, kept.trans lastMatch⟩
  | rejected child isEnter rejected isAfter =>
    subst isAfter
    refine .inl ?_
    unfold skipEnter
    split
    · exact congrArg Course.lastMatch (RunState.passChar_course _ _)
    · rfl
  | entered child isEnter accepted course stack => exact .inl (congrArg Course.lastMatch course)
  | left isLeave count bounded course modes => exact .inl (congrArg Course.lastMatch course)
  | kept noEnter patient course stack => exact .inl (congrArg Course.lastMatch course)
  | passed isIllegal isEmpty course stack => exact .inl (congrArg Course.lastMatch course)

theorem step_of_endsNothing (finds : Finds setting state place found behind)
    (fires : endsNothing (searched state place found behind) found = true) :
    step setting state =
      if setting.safe then
        .ok (.more ((searched state place found behind).passChar found.span.start))
      else .error (.loopDetected setting.name found.span.start.offset .emptyMode) := by
  obtain ⟨isPlace, search, order⟩ := finds
  unfold startCursor at search
  unfold step
  simp only [isPlace, search, if_neg (Nat.not_lt_of_le order)]
  change apply setting (searched state place found behind) found >>= _ = _
  simp only [apply, fires, if_true]
  cases setting.safe <;> rfl

/-- When a mode counts as ending with nothing in it right where it began: when its end has an empty
match, and the match before was a beginning at the same place, which has let a mode begin, or was
rejected while rules behind it were left.  A strict run fails there, and a safe one takes the next
character as text. -/
theorem endsNothing_iff_enters {earlier : Option Continuation} {text : String}
    (reached : Reached setting earlier text state) {ending : RuleMatch}
    (finds : Finds setting state place ending behind) :
    (endsNothing (searched state place ending behind) ending = true ↔
      ending.kind = .leave ∧ ending.span.isEmpty = true ∧
        ∃ previous found, Reached setting earlier text previous ∧
          Takes setting previous found state ∧
          found.span.start.offset = ending.span.start.offset ∧
          (Opens setting previous found state ∨ Resumes setting previous found state)) ∧
      (endsNothing (searched state place ending behind) ending = true →
        step setting state =
          if setting.safe then
            .ok (.more ((searched state place ending behind).passChar ending.span.start))
          else .error (.loopDetected setting.name ending.span.start.offset .emptyMode)) := by
  refine ⟨?_, step_of_endsNothing finds⟩
  have order := finds.order
  rw [endsNothing_iff]
  change state.lastMatch = _ ∧ _ ↔ _
  constructor
  · rintro ⟨lastMatch, isLeave, isEmpty⟩
    refine ⟨isLeave, isEmpty, ?_⟩
    cases reached with
    | start =>
      have noMatch : (initialState setting earlier text.toList).lastMatch = none := by
        simp only [initialState]
        split
        · rfl
        · split <;> rfl
      rw [noMatch] at lastMatch
      cases lastMatch
    | @next previous _ reached stepped =>
      obtain ⟨origin, found, cursor, isFound, applied⟩ := step_eq_more.mp stepped
      have takes : Takes setting previous found state := ⟨origin, cursor, isFound, applied⟩
      rcases takes.lastMatch finds.isPlace with noted | ⟨-, later, noted⟩
      · simp only [noted, Option.some.injEq, LastMatch.mk.injEq] at lastMatch
        obtain ⟨enters, sameOffset⟩ := lastMatch
        obtain ⟨child, isEnter⟩ := RuleKind.isEnter_iff.mp enters
        exact ⟨previous, found, reached, takes, sameOffset,
          takes.opens_or_resumes isEnter finds.isPlace (by omega)⟩
      · simp only [noted, Option.some.injEq, LastMatch.mk.injEq] at lastMatch
        omega
  · rintro ⟨isLeave, isEmpty, previous, found, -, takes, sameOffset, begun⟩
    obtain ⟨child, isEnter⟩ : ∃ child, found.kind = .enter child := by
      rcases begun with ⟨child, isEnter, -⟩ | ⟨child, isEnter, -⟩ <;> exact ⟨child, isEnter⟩
    refine ⟨?_, isLeave, isEmpty⟩
    rcases takes.lastMatch finds.isPlace with noted | ⟨isLeave, -⟩
    · rw [noted, isEnter, sameOffset]
      rfl
    · rw [isEnter] at isLeave
      cases isLeave

/-- A mode that begins and ends in front of the same letter would have nothing in it. -/
theorem endsNothing_iff_enters_empty :
    ∃ grammar state place ending behind,
      CompiledGrammar.compile (parenthesized "x" [
        { beginPattern := some (.source "(?=a)"), endPattern := some (.source "(?=a)") }]) =
          .ok grammar ∧
      Reached (alone grammar) none "(a" state ∧
      Finds (alone grammar) state place ending behind ∧
      endsNothing (searched state place ending behind) ending = true ∧
      ∃ previous found, Reached (alone grammar) none "(a" previous ∧
        Takes (alone grammar) previous found state ∧ Opens (alone grammar) previous found state := by
  have evaluated : ((CompiledGrammar.compile (parenthesized "x" [
      { beginPattern := some (.source "(?=a)"),
        endPattern := some (.source "(?=a)") }])).toOption.any fun grammar =>
        (stateAfter? (alone grammar) "(a" 2).any fun state =>
          !state.resume &&
          state.place.any fun place =>
            (nextMatch (alone grammar) state).toOption.join.any fun ending =>
              decide (place.offset ≤ ending.span.start.offset) && endsNothing state ending) =
          true := by
    decide +kernel
  simp only [Option.any_eq_true, Success.toOption_eq_some, Bool.and_eq_true, decide_eq_true_eq,
    Option.join_eq_some_iff, Bool.not_eq_true'] at evaluated
  obtain ⟨grammar, compiled, state, isState, fresh, place, isPlace, ending, next, order, fires⟩ :=
    evaluated
  have reached := reached_of_stateAfter? isState
  have finds := finds_of_nextMatch isPlace next order
  obtain ⟨-, -, previous, found, isPrevious, takes, -, opens | ⟨-, -, -, -, resumes⟩⟩ :=
    ((endsNothing_iff_enters reached finds).1).mp fires
  · exact ⟨grammar, state, place, ending, _, compiled, reached, finds, fires, previous, found,
      isPrevious, takes, opens⟩
  · rw [fresh] at resumes
    cases resumes

/-- A mode that has not even begun counts as ending right where it began: behind a beginning that
was rejected, an empty end of the mode around it lets a strict run fail. -/
theorem endsNothing_of_rejected :
    ∃ grammar previous state found,
      CompiledGrammar.compile (parenthesized "(?=a)" [
        atInputStart "a", { beginPattern := some (.source "z") }]) = .ok grammar ∧
      Reached (alone grammar) none "(a" previous ∧
      Takes (alone grammar) previous found state ∧
      ¬ Opens (alone grammar) previous found state ∧
      step (alone grammar) state = .error (.loopDetected "parenthesized" 1 .emptyMode) := by
  have evaluated : ((CompiledGrammar.compile (parenthesized "(?=a)" [
      atInputStart "a", { beginPattern := some (.source "z") }])).toOption.any fun grammar =>
        (stateAfter? (alone grammar) "(a" 1).any fun previous =>
          (stateAfter? (alone grammar) "(a" 2).any fun state =>
            decide (state.stack = previous.stack) &&
            match step (alone grammar) state with
            | .error cause => cause == .loopDetected "parenthesized" 1 .emptyMode
            | .ok _ => false) = true := by
    decide +kernel
  simp only [Option.any_eq_true, Success.toOption_eq_some, Bool.and_eq_true,
    decide_eq_true_eq] at evaluated
  obtain ⟨grammar, compiled, previous, isPrevious, state, isState, sameStack, fails⟩ := evaluated
  obtain ⟨place, found, behind, finds, applied⟩ :=
    step_eq_more.mp (stateAfter?_succ isPrevious isState)
  refine ⟨grammar, previous, state, found, compiled, reached_of_stateAfter? isPrevious,
    ⟨place, behind, finds, applied⟩, ?_, ?_⟩
  · rintro ⟨child, -, pushed⟩
    rw [sameStack] at pushed
    have sizes := congrArg (fun stack => stack.below.length) pushed
    simp [Stack.push] at sizes
  · split at fails
    · rename_i cause isCause
      rw [isCause, beq_iff_eq.mp fails]
    · cases fails

end Run
end Highlighter

import Highlighter.Proofs.Rejection

/-!
# Ends that repeat beginnings

Some modes end only where the first group of their end repeats that of their beginning.  What is
compared is the first group of the match that was found, and that is a match of what ends the
innermost mode.  Where an end that stands in front has groups, it is one of these and takes no part.
-/
namespace Highlighter

open Compiled (CompiledGrammar)
open Regex (Match)

namespace Regex.Match

/-- What has been found, if it begins at a place. -/
def at? (place : Place) (found : Option Match) : Option Match :=
  found.filter fun found => found.span.start.offset == place.offset

def groupText? (found : Match) (number : Nat) : Option String :=
  (found.group? number).map fun span => String.ofList span.content

end Regex.Match

namespace Run

/-! ## Own ends at a place -/

/-- The end of an open mode, if it has one, does not match at a place by itself. -/
def PassedBy (grammar : CompiledGrammar) (place : Place) (frame : Frame) : Prop :=
  ∀ regex ∈ (grammar.mode frame.mode).endRegex, ∃ ending,
    regex.search place = .ok ending ∧ Match.at? place ending = none

/-- The end of an open mode matches at a place by itself. -/
def EndedBy (grammar : CompiledGrammar) (place : Place) (frame : Frame) (own : Match) : Prop :=
  ∃ regex ∈ (grammar.mode frame.mode).endRegex, ∃ ending,
    regex.search place = .ok ending ∧ Match.at? place ending = some own

instance (grammar : CompiledGrammar) (place : Place) (frame : Frame) :
    Decidable (PassedBy grammar place frame) :=
  decidable_of_iff
    ((grammar.mode frame.mode).endRegex.all fun regex =>
      (regex.search place).toOption.any fun ending => (Match.at? place ending).isNone)
    (by simp [PassedBy, Option.all_eq_true, Option.any_eq_true, Success.toOption_eq_some])

instance (grammar : CompiledGrammar) (place : Place) (frame : Frame) (own : Match) :
    Decidable (EndedBy grammar place frame own) :=
  decidable_of_iff
    ((grammar.mode frame.mode).endRegex.any fun regex =>
      (regex.search place).toOption.any fun ending => Match.at? place ending = some own)
    (by simp [EndedBy, Option.any_eq_true, Success.toOption_eq_some])

variable {setting : Setting} {found : RuleMatch} {frame : Frame} {own : Match}

/-! ## Modes on the way -/

theorem endsAt_of_passedBy (passed : PassedBy setting.grammar found.span.start frame) :
    endsAt setting frame found = .ok false := by
  cases isEnd : (setting.grammar.mode frame.mode).endRegex with
  | none => simp [endsAt, isEnd]
  | some regex =>
    obtain ⟨ending, searched, isNone⟩ := passed regex isEnd
    cases ending with
    | none => simp [endsAt, isEnd, searched]
    | some ending =>
      have other : ending.span.start.offset ≠ found.span.start.offset := by
        simpa [Match.at?] using isNone
      simp [endsAt, isEnd, searched, other]

theorem endsAt_of_endedBy (ended : EndedBy setting.grammar found.span.start frame own)
    (hooked : .endSameAsBegin ∈ (setting.grammar.mode frame.mode).hooks) :
    endsAt setting frame found = .ok (decide (frame.capture = found.groupText? 1)) := by
  obtain ⟨regex, isEnd, ending, searched, isOwn⟩ := ended
  have isEnd : (setting.grammar.mode frame.mode).endRegex = some regex := isEnd
  obtain ⟨isEnding, begins⟩ := Option.filter_eq_some_iff.mp isOwn
  subst isEnding
  have here : own.span.start.offset = found.span.start.offset := by simpa using begins
  simp [endsAt, isEnd, searched, here, hooked]

theorem closedBy?_above {above below rest : List Frame} {top : Frame}
    (isStack : top :: below = above ++ frame :: rest)
    (passed : ∀ other ∈ above, (setting.grammar.mode other.mode).flags.endsWithParent = true ∧
      PassedBy setting.grammar found.span.start other) :
    closedBy? setting found top below =
      (closedBy? setting found frame rest).map (Option.map (· + above.length)) := by
  induction above generalizing top below with
  | nil =>
    cases isStack
    simp only [List.length_nil, Nat.add_zero, Option.map_id_fun']
    cases closedBy? setting found frame rest <;> rfl
  | cons other above ih =>
    obtain ⟨⟨ends, isPassed⟩, arePassed⟩ := List.forall_mem_cons.mp passed
    obtain ⟨rfl, rfl⟩ := List.cons.inj isStack
    obtain ⟨next, frames, isNext⟩ := List.exists_cons_of_ne_nil
      (List.append_ne_nil_of_right_ne_nil above (List.cons_ne_nil frame rest))
    rw [List.append_eq, isNext, closedBy?, endsAt_of_passedBy isPassed]
    simp only [ends]
    rw [ih isNext.symm arePassed]
    cases closedBy? setting found frame rest with
    | error cause => rfl
    | ok closed =>
      cases closed with
      | none => rfl
      | some count => rfl

theorem closedBy?_of_endedBy {parent : Frame} {rest : List Frame}
    (ended : EndedBy setting.grammar found.span.start frame own)
    (hooked : .endSameAsBegin ∈ (setting.grammar.mode frame.mode).hooks) :
    closedBy? setting found frame (parent :: rest) =
      if frame.capture = found.groupText? 1 then
        .ok (some (closedWith setting frame (parent :: rest)))
      else if (setting.grammar.mode frame.mode).flags.endsWithParent then
        (closedBy? setting found parent rest).map (Option.map (· + 1))
      else .ok none := by
  rw [closedBy?, endsAt_of_endedBy ended hooked]
  by_cases repeats : frame.capture = found.groupText? 1
  · simp only [repeats, decide_true, if_true]
    rfl
  · simp only [repeats, decide_false, if_false]
    cases (setting.grammar.mode frame.mode).flags.endsWithParent with
    | false => rfl
    | true => cases closedBy? setting found parent rest <;> rfl

/-- A match closes the open mode at a depth, counted from the innermost mode on. -/
def Closes (setting : Setting) (state : RunState) (found : RuleMatch) (depth : Nat) : Prop :=
  ∃ count, closedBy? setting found state.stack.top state.stack.below = .ok (some count) ∧
    depth < count

/-- The first of open modes, from the inside out, whose own end matches at a place.  The modes above
it end with their parents. -/
structure FirstEnded (grammar : CompiledGrammar) (place : Place) (stack : Stack)
    (above : List Frame) (frame : Frame) (below : List Frame) (own : Match) : Prop where
  isStack : stack.top :: stack.below = above ++ frame :: below
  passed : ∀ other ∈ above, (grammar.mode other.mode).flags.endsWithParent = true ∧
    PassedBy grammar place other
  ended : EndedBy grammar place frame own

theorem FirstEnded.closes_iff {state : RunState} {above rest : List Frame} {parent : Frame}
    {own : Match}
    (first : FirstEnded setting.grammar found.span.start state.stack above frame (parent :: rest)
      own)
    (hooked : .endSameAsBegin ∈ (setting.grammar.mode frame.mode).hooks) :
    Closes setting state found above.length ↔
      frame.capture = found.groupText? 1 ∨
        (setting.grammar.mode frame.mode).flags.endsWithParent = true ∧
          ∃ count, closedBy? setting found parent rest = .ok (some count) := by
  rw [Closes, closedBy?_above first.isStack first.passed, closedBy?_of_endedBy first.ended hooked]
  have positive := (@closedWith_bounds setting frame parent rest).1
  by_cases repeats : frame.capture = found.groupText? 1
  · simp only [repeats, if_true, true_or, iff_true]
    exact ⟨_, rfl, Nat.lt_add_of_pos_left positive⟩
  · simp only [repeats, if_false, false_or]
    cases (setting.grammar.mode frame.mode).flags.endsWithParent with
    | false => simp [Except.map]
    | true =>
      cases closedBy? setting found parent rest with
      | error cause => simp [Except.map]
      | ok closed =>
        cases closed with
        | none => simp [Except.map]
        | some count => simp [Except.map]

/-- Whether an end that has to repeat a beginning closes its mode, if the own end of the mode is the
first one to match there from the inside out.  The mode is closed where the first group of the match
is what it has captured, or together with its parent.  So, apart from the latter, it is closed as
the first group of its own end tells exactly where that compares as the one of the match does. -/
theorem closes_iff_repeats {state : RunState} {above rest : List Frame} {parent : Frame}
    {own : Match}
    (first : FirstEnded setting.grammar found.span.start state.stack above frame (parent :: rest)
      own)
    (hooked : .endSameAsBegin ∈ (setting.grammar.mode frame.mode).hooks) :
    (Closes setting state found above.length ↔
      frame.capture = found.groupText? 1 ∨
        (setting.grammar.mode frame.mode).flags.endsWithParent = true ∧
          ∃ count, closedBy? setting found parent rest = .ok (some count)) ∧
    ((setting.grammar.mode frame.mode).flags.endsWithParent = false →
      ((Closes setting state found above.length ↔ frame.capture = own.groupText? 1) ↔
        (frame.capture = found.groupText? 1 ↔ frame.capture = own.groupText? 1))) := by
  refine ⟨first.closes_iff hooked, fun alone => ?_⟩
  rw [first.closes_iff hooked, alone]
  simp

/-- A mode that ends where its beginning is repeated, and a mode in it that ends with it. -/
def repeating (inner : String) : Grammar.Definition where
  name := "repeating"
  root :=
    { contains := some [.inline
        { beginPattern := some (.source "<([ab])")
          endPattern := some (.source "([ab])>")
          hooks := some [.endSameAsBegin]
          contains := some [.inline
            { beginPattern := some (.source "\\(")
              endPattern := some (.source inner)
              endsWithParent := some true }] }] }

/-- The text in which the beginning of the outer mode is repeated inside the inner one. -/
def repeated : String :=
  "<a(a>"

def openAtRepeated : Stack where
  top := { mode := 2 }
  below := [{ mode := 1, capture := some "a" }, { mode := 0 }]

/-- The end of the outer mode by itself, where the beginning is repeated. -/
def outerEnd : Match where
  span := Alternation.stretch repeated 3 5
  groups := [some (Alternation.stretch repeated 3 4)]

def innerEnd (groups : List (Option Span)) : RuleMatch where
  kind := .leave
  position := 0
  span := Alternation.stretch repeated 3 5
  groups

/-- What there is to evaluate of the match inside the inner mode: it is the next one there, and of the
two modes only the outer one ends there by itself. -/
def isRepeated (grammar : CompiledGrammar) (found : RuleMatch) (state : RunState) : Bool :=
  state.stack = openAtRepeated && (nextMatch (alone grammar) state).toOption = some (some found) &&
    (grammar.mode 2).flags.endsWithParent && !(grammar.mode 1).flags.endsWithParent &&
    decide (PassedBy grammar found.span.start { mode := 2 }) &&
    decide (EndedBy grammar found.span.start { mode := 1, capture := some "a" } outerEnd) &&
    (grammar.mode 1).hooks.contains .endSameAsBegin

/-- In a run on the text the inner mode is open, and the match that comes next there is one where the
outer mode ends by itself, at a group that repeats its beginning. -/
def Repeats (inner : String) (found : RuleMatch) (grammar : CompiledGrammar) (state : RunState) :
    Prop :=
  CompiledGrammar.compile (repeating inner) = .ok grammar ∧
  Reached (alone grammar) none repeated state ∧
  nextMatch (alone grammar) state = .ok (some found) ∧
  FirstEnded grammar found.span.start state.stack [{ mode := 2 }]
    { mode := 1, capture := some "a" } [{ mode := 0 }] outerEnd ∧
  .endSameAsBegin ∈ (grammar.mode 1).hooks ∧ (grammar.mode 1).flags.endsWithParent = false

theorem exists_repeats {inner : String} {found : RuleMatch}
    (evaluated : ((CompiledGrammar.compile (repeating inner)).toOption.any fun grammar =>
      (stateAfter? (alone grammar) repeated 2).any (isRepeated grammar found)) = true) :
    ∃ grammar state, Repeats inner found grammar state := by
  simp only [Option.any_eq_true, Success.toOption_eq_some, isRepeated, Bool.and_eq_true,
    Bool.not_eq_true', decide_eq_true_eq, List.contains_iff_mem] at evaluated
  obtain ⟨grammar, compiled, state, isState,
    ⟨⟨⟨⟨⟨isStack, isNext⟩, ends⟩, alone⟩, passed⟩, ended⟩, hooked⟩ := evaluated
  refine ⟨grammar, state, compiled, reached_of_stateAfter? isState, isNext, ?_, hooked, alone⟩
  exact ⟨by rw [isStack]; rfl, List.forall_mem_singleton.mpr ⟨ends, passed⟩, ended⟩

/-- The end of the inner mode has no group, so that the first group found is that of the end of the
outer mode, which repeats the beginning. -/
theorem closes_iff_repeats_nested :
    ∃ grammar state,
      Repeats "\\)" (innerEnd [some (Alternation.stretch repeated 3 4)]) grammar state ∧
      Closes (alone grammar) state (innerEnd [some (Alternation.stretch repeated 3 4)]) 1 := by
  obtain ⟨grammar, state, repeats⟩ := @exists_repeats "\\)"
    (innerEnd [some (Alternation.stretch repeated 3 4)]) (by decide +kernel)
  obtain ⟨-, -, -, first, hooked, -⟩ := id repeats
  refine ⟨grammar, state, repeats, ?_⟩
  exact (@closes_iff_repeats (alone grammar) _ _ state _ _ _ _ first hooked).1.mpr
    (.inl (by decide +kernel))

/-- The end of the inner mode has a group, which takes no part where the beginning of the outer mode
is repeated.  The outer mode stays open, although the group of its own end is what it began with. -/
theorem repeated_capture_missed :
    ∃ grammar state,
      Repeats "(\\))" (innerEnd [none, some (Alternation.stretch repeated 3 4)]) grammar state ∧
      outerEnd.groupText? 1 = some "a" ∧
      ¬Closes (alone grammar) state
        (innerEnd [none, some (Alternation.stretch repeated 3 4)]) 1 := by
  obtain ⟨grammar, state, repeats⟩ := @exists_repeats "(\\))"
    (innerEnd [none, some (Alternation.stretch repeated 3 4)]) (by decide +kernel)
  obtain ⟨-, -, -, first, hooked, alone⟩ := id repeats
  refine ⟨grammar, state, repeats, by decide +kernel, fun closes => ?_⟩
  rcases (@FirstEnded.closes_iff (Run.alone grammar) _ _ state _ _ _ _ first hooked).mp closes with
    same | ⟨ends, -⟩
  · exact absurd same (by decide +kernel)
  · cases alone.symm.trans ends

end Run
end Highlighter

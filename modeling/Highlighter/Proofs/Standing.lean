import Highlighter.Proofs.Containment
import Highlighter.Proofs.Turns

/-!
# Runs stay in their text

A match lies in the text that is searched, so a run that goes on at one of its bounds, or behind
the next character, stands in the text that it began with.
-/
namespace Highlighter.Run

open Compiled (CompiledGrammar)

variable {setting : Setting} {state after : RunState} {text : List Char} {place : Place}
  {found : RuleMatch} {behind : Cursor}

def StandsIn (text : List Char) (state : RunState) : Prop :=
  ∀ place ∈ state.place, (Place.start text).Precedes place

structure Lies (text : List Char) (place : Place) (found : RuleMatch) : Prop where
  start : (Place.start text).Precedes found.span.start
  order : found.span.start.Precedes found.span.stop
  behind : place.Precedes found.span.start

theorem Lies.behind_bound {other : Place} (lies : Lies text place found)
    (isBound : other = found.span.start ∨ other = found.span.stop) :
    found.span.start.Precedes other := by
  rcases isBound with rfl | rfl
  · exact .refl _
  · exact lies.order

theorem Lies.standsIn (lies : Lies text place found) (turns : Turns setting found state after) :
    StandsIn text after := by
  have passes (isAfter : after.place = found.span.start.next?.map Prod.snd) :
      StandsIn text after := by
    intro other isOther
    rw [isAfter, Option.mem_def, Option.map_eq_some_iff] at isOther
    obtain ⟨⟨char, following⟩, isNext, rfl⟩ := isOther
    exact lies.start.trans (Place.precedes_next isNext)
  have goesTo {other : Place} (isAfter : after.place = some other)
      (isBound : other = found.span.start ∨ other = found.span.stop) : StandsIn text after := by
    intro _ isOther
    cases isAfter.symm.trans isOther
    exact lies.start.trans (lies.behind_bound isBound)
  cases turns with
  | guarded _ _ course => exact passes (congrArg Course.place course)
  | rejected _ _ _ isAfter =>
    unfold skipEnter at isAfter
    split at isAfter
    · subst isAfter
      exact passes (congrArg Course.place (RunState.passChar_course _ _))
    · subst isAfter
      exact goesTo rfl (.inl rfl)
  | entered _ _ _ course => exact goesTo (congrArg Course.place course) (by split <;> simp)
  | left _ _ _ course => exact goesTo (congrArg Course.place course) (by split <;> simp)
  | kept _ _ course => exact goesTo (congrArg Course.place course) (.inr rfl)
  | passed _ _ course => exact passes (congrArg Course.place course)

theorem initialState_place (setting : Setting) (earlier : Option Continuation)
    (text : List Char) :
    (initialState setting earlier text).place = some (Place.start text) ∧
      (initialState setting earlier text).iterations = 0 := by
  unfold initialState
  split
  · exact ⟨rfl, rfl⟩
  · split <;> exact ⟨rfl, rfl⟩

theorem initialState_standsIn (setting : Setting) (earlier : Option Continuation)
    (text : List Char) : StandsIn text (initialState setting earlier text) := by
  intro place isPlace
  cases (initialState_place setting earlier text).1.symm.trans isPlace
  exact .refl _

section Compiled

variable {definition : Grammar.Definition}
  (compiled : CompiledGrammar.compile definition = .ok setting.grammar)

include compiled

theorem Finds.joined (finds : Finds setting state place found behind) :
    setting.topMode state ∈ setting.grammar.modes ∧
      Matcher.compile (setting.topMode state).matcher.rules setting.grammar.caseInsensitive =
        .ok (setting.topMode state).matcher := by
  rcases CompiledGrammar.matcher_of_compile compiled state.stack.top.mode with isInert | isMode
  · have search := finds.search
    rw [Setting.topMode, isInert] at search
    exact absurd search (Matcher.empty_next _ _ _ _)
  · exact isMode

theorem Finds.lies (finds : Finds setting state place found behind) (inText : StandsIn text state) :
    Lies text place found := by
  have inText := inText place finds.isPlace
  obtain ⟨start, order⟩ := Matcher.next_inText (finds.joined compiled).2 finds.search inText
  exact ⟨start, order, inText.total start finds.order⟩

theorem step_standsIn (inText : StandsIn text state)
    (success : step setting state = .ok (.more after)) : StandsIn text after := by
  obtain ⟨place, found, behind, finds, applied⟩ := step_eq_more.mp success
  exact (finds.lies compiled inText).standsIn (apply_turns applied)

theorem Reached.standsIn {earlier : Option Continuation} {text : String}
    (reached : Reached setting earlier text state) : StandsIn text.toList state := by
  induction reached with
  | start => exact initialState_standsIn setting earlier text.toList
  | next _ success ih => exact step_standsIn compiled ih success

end Compiled
end Highlighter.Run

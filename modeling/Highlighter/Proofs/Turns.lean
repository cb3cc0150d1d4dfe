import Highlighter.Proofs.OpenModes

/-!
# How a match turns a run

One list says what applying a match can make of the course of a run and of its open modes.
-/
namespace Highlighter

open Compiled (CompiledGrammar CompiledMode)

namespace Run

variable {setting : Setting} {state after : RunState} {found : RuleMatch}

/-- What applying a match makes of the course and the open modes: the next character is passed
where a mode would end with nothing in it; a beginning is rejected, or lets a mode begin; an end
lets modes end; an end that ends nothing and illegal text are kept, or pass if they are empty. -/
inductive Turns (setting : Setting) (found : RuleMatch) (before after : RunState) : Prop where
  | guarded (fires : endsNothing before found = true) (safe : setting.safe = true)
      (course : after.course = before.course.pass found.span.start)
      (stack : after.stack = before.stack)
  | rejected (child : Nat) (isEnter : found.kind = .enter child)
      (rejected : (setting.grammar.mode child).hooks.any (rejects found) = true)
      (isAfter : after = skipEnter (before.note found) found)
  | entered (child : Nat) (isEnter : found.kind = .enter child)
      (accepted : (setting.grammar.mode child).hooks.any (rejects found) = false)
      (course : after.course = (before.note found).course.goTo
        (if (setting.grammar.mode child).flags.returnBegin then found.span.start
          else found.span.stop))
      (stack : after.stack = before.stack.push
        { mode := child, capture := captureOf (setting.grammar.mode child) found })
  | left (isLeave : found.kind = .leave) (count : Nat)
      (bounded : count < before.stack.below.length)
      (course : after.course = (before.note found).course.goTo
        (if (setting.topMode before).flags.returnEnd then found.span.start
          else found.span.stop))
      (modes : after.openModes =
        (before.openModes.popMany setting.grammar (count + 1)).start setting.grammar
          (before.openModes.popMany setting.grammar count).stack.top.mode)
  | kept (noEnter : found.kind.isEnter = false)
      (patient : IsPatient before found)
      (course : after.course = (before.note found).course.goTo found.span.stop)
      (stack : after.stack = before.stack)
  | passed (isIllegal : found.kind = .illegal) (isEmpty : found.span.isEmpty = true)
      (course : after.course = (before.note found).course.pass found.span.start)
      (stack : after.stack = before.stack)

theorem enter_turns {child : Nat} (isEnter : found.kind = .enter child)
    (success : enter setting (state.note found) child found = .ok after) :
    Turns setting found state after := by
  cases isRejected : (setting.grammar.mode child).hooks.any (rejects found) with
  | true =>
    refine .rejected child isEnter isRejected ?_
    simp only [enter, isRejected, if_true] at success
    cases success
    rfl
  | false =>
    rcases enter_ok success with ⟨absurdly, -⟩ | ⟨begun, opened, first, second, rfl⟩
    · rw [isRejected] at absurdly
      cases absurdly
    · have course :=
        (congrArg Prod.fst (openMode_kept second)).trans (beginPending_stays first).course
      have modes := openMode_openModes second
      rw [(beginPending_stays first).openModes] at modes
      refine .entered child isEnter isRejected ?_ (congrArg OpenModes.stack modes)
      exact congrArg (Course.goTo · _) course

theorem leave_turns (isLeave : found.kind = .leave)
    (success : leave setting (state.note found) found = .ok (some after)) :
    Turns setting found state after := by
  obtain ⟨count, bounded, modes⟩ := leave_openModes success
  obtain ⟨_, flushed, started, -, first, starts, rfl⟩ := leave_ok success
  have course := (congrArg Prod.fst (starts.kept.trans (closeModes_kept _))).trans
    (endPending_stays first).course
  exact .left isLeave count bounded (congrArg (Course.goTo · _) course) modes

/-- Every match that is applied turns the run in one of these ways. -/
theorem apply_turns (success : apply setting state found = .ok after) :
    Turns setting found state after := by
  cases apply_ok success with
  | guarded fires safe =>
    exact .guarded fires safe (state.passChar_course _) (state.passChar_stack _)
  | enter _ child isEnter _ success => exact enter_turns isEnter success
  | leave _ isLeave _ success => exact leave_turns isLeave success
  | keep _ noEnter _ patient => exact .kept noEnter patient rfl rfl
  | pass _ isIllegal isEmpty =>
    exact .passed isIllegal isEmpty (RunState.passChar_course _ _) (RunState.passChar_stack _ _)

end Run
end Highlighter

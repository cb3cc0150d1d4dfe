import Highlighter.Proofs.Success
import Highlighter.Run

/-!
# What the actions of a run do

One lemma for each action of a run: if the action succeeds, the state after it came about
in one of the listed ways.
-/
namespace Highlighter

def RunState.note (state : RunState) (found : RuleMatch) : RunState :=
  { state with
    lastMatch := some { enters := found.kind.isEnter, offset := found.span.start.offset } }

namespace Run

open Compiled (CompiledMode)

variable {setting : Setting} {state after : RunState} {found : RuleMatch}

variable {number : Nat}

/-! ## Opening a mode -/

/-- The state when the node of a mode is open, if the mode has a scope. -/
def withNode (setting : Setting) (state : RunState) (number : Nat) : RunState :=
  match (setting.grammar.mode number).scope with
  | some scope => { state with builder := state.builder.openNode scope }
  | none => state

/-- How the beginning of a mode is added to its node. -/
inductive Begins (setting : Setting) (found : RuleMatch) (mode : CompiledMode)
    (opened : RunState) : RunState → Prop where
  | plain (scope : mode.beginScope = none) : Begins setting found mode opened opened
  | whole (scope : String) (isScope : mode.beginScope = some (.whole scope)) :
      Begins setting found mode opened
        { opened.addScoped opened.pending scope with pending := "" }
  | parts (parts : List (Nat × Option String)) (isScope : mode.beginScope = some (.parts parts))
      (added : RunState) (success : addParts setting found opened parts = .ok added) :
      Begins setting found mode opened { added with pending := "" }

theorem openMode_ok {capture : Option String}
    (success : openMode setting state number found capture = .ok after) :
    ∃ begun, Begins setting found (setting.grammar.mode number)
        (withNode setting state number) begun ∧
      after = { begun with stack := begun.stack.push { mode := number, capture } } := by
  simp only [openMode] at success
  split at success
  · rename_i isScope
    cases success
    exact ⟨_, .plain isScope, rfl⟩
  · rename_i scope isScope
    cases success
    exact ⟨_, .whole scope isScope, rfl⟩
  · rename_i parts isScope
    obtain ⟨added, first, success⟩ := Success.bind_eq_ok.mp success
    cases success
    exact ⟨_, .parts parts isScope added first, rfl⟩

/-! ## Beginnings and ends -/

/-- How a mode begins at a match. -/
theorem enter_ok (success : enter setting state number found = .ok after) :
    let mode := setting.grammar.mode number
    mode.hooks.any (rejects found) = true ∧ after = skipEnter state found ∨
      ∃ begun opened,
        beginPending setting state mode found.lexeme = .ok begun ∧
        openMode setting begun number found (captureOf mode found) = .ok opened ∧
        after = { opened with
          place := some (if mode.flags.returnBegin then found.span.start else found.span.stop) }
    := by
  simp only [enter] at success
  split at success
  · rename_i rejected
    cases success
    exact .inl ⟨rejected, rfl⟩
  · obtain ⟨begun, first, success⟩ := Success.bind_eq_ok.mp success
    obtain ⟨opened, second, success⟩ := Success.bind_eq_ok.mp success
    cases success
    exact .inr ⟨begun, opened, first, second, rfl⟩

/-- How the mode that follows a closed one is opened, if there is one. -/
inductive StartsNext (setting : Setting) (found : RuleMatch) (ended : Nat)
    (closed : RunState) : RunState → Prop where
  | nothing (starts : (setting.grammar.mode ended).starts = none) :
      StartsNext setting found ended closed closed
  | mode (next : Nat) (starts : (setting.grammar.mode ended).starts = some next)
      (opened : RunState) (success : openMode setting closed next found none = .ok opened) :
      StartsNext setting found ended closed opened

/-- How modes end at a match. -/
theorem leave_ok (success : leave setting state found = .ok (some after)) :
    ∃ count flushed started,
      closedBy? setting found state.stack.top state.stack.below = .ok (some count) ∧
      endPending setting state (setting.topMode state) found = .ok flushed ∧
      StartsNext setting found (closeModes setting count flushed).1
        (closeModes setting count flushed).2 started ∧
      after = { started with
        place := some (if (setting.topMode state).flags.returnEnd then found.span.start
          else found.span.stop) } := by
  obtain ⟨closed, counted, success⟩ := Success.bind_eq_ok.mp success
  cases closed with
  | none => cases success
  | some count =>
    obtain ⟨flushed, first, success⟩ := Success.bind_eq_ok.mp success
    simp only at success
    split at success
    · rename_i starts
      cases success
      exact ⟨count, flushed, _, counted, first, .nothing starts, rfl⟩
    · rename_i next starts
      obtain ⟨opened, second, success⟩ := Success.bind_eq_ok.mp success
      cases success
      exact ⟨count, flushed, opened, counted, first, .mode next starts opened second, rfl⟩

theorem leave_none (success : leave setting state found = .ok none) :
    closedBy? setting found state.stack.top state.stack.below = .ok none := by
  obtain ⟨closed, isClosed, success⟩ := Success.bind_eq_ok.mp success
  cases closed with
  | none => exact isClosed
  | some count =>
    obtain ⟨ended, -, success⟩ := Success.bind_eq_ok.mp success
    simp only at success
    split at success
    · cases success
    · obtain ⟨opened, -, success⟩ := Success.bind_eq_ok.mp success
      cases success

/-- Whether a run has got on far enough for the steps that it has taken. -/
def IsPatient (state : RunState) (found : RuleMatch) : Prop :=
  ¬ (patience < state.iterations ∧ 3 * found.span.start.offset < state.iterations)

theorem keepText_ok (success : keepText setting state found = .ok after) :
    IsPatient state found ∧
      after = { state.wait found.lexeme with place := some found.span.stop } := by
  simp only [keepText] at success
  split at success
  · cases success
  · rename_i patient
    cases success
    simp only [Bool.and_eq_true, decide_eq_true_eq] at patient
    exact ⟨patient, rfl⟩

/-! ## Steps -/

/-- The ways in which a match is applied. -/
inductive Applies (setting : Setting) (found : RuleMatch) (state : RunState) :
    RunState → Prop where
  | guarded (fires : endsNothing state found = true) (safe : setting.safe = true) :
      Applies setting found state (state.passChar found.span.start)
  | enter (goesOn : ¬ endsNothing state found = true) (child : Nat)
      (isEnter : found.kind = .enter child) (after : RunState)
      (success : Run.enter setting (state.note found) child found = .ok after) :
      Applies setting found state after
  | leave (goesOn : ¬ endsNothing state found = true) (isLeave : found.kind = .leave)
      (after : RunState) (success : Run.leave setting (state.note found) found = .ok (some after)) :
      Applies setting found state after
  | keep (goesOn : ¬ endsNothing state found = true) (noEnter : found.kind.isEnter = false)
      (unclosed : found.kind = .leave → Run.leave setting (state.note found) found = .ok none)
      (patient : IsPatient state found) :
      Applies setting found state
        { (state.note found).wait found.lexeme with place := some found.span.stop }
  | pass (goesOn : ¬ endsNothing state found = true) (isIllegal : found.kind = .illegal)
      (isEmpty : found.span.isEmpty = true) :
      Applies setting found state ((state.note found).passChar found.span.start)

theorem apply_ok (success : apply setting state found = .ok after) :
    Applies setting found state after := by
  simp only [apply] at success
  split at success
  · rename_i fires
    split at success
    · rename_i safe
      cases success
      exact .guarded fires safe
    · cases success
  · rename_i goesOn
    split at success
    · rename_i child isEnter
      exact .enter goesOn child isEnter after success
    · rename_i isLeave
      obtain ⟨left, first, success⟩ := Success.bind_eq_ok.mp success
      split at success
      · cases success
        exact .leave goesOn isLeave after first
      · obtain ⟨patient, rfl⟩ := keepText_ok success
        exact .keep goesOn (by rw [isLeave]; rfl) (fun _ => first) patient
    · rename_i isIllegal
      split at success
      · cases success
      · split at success
        · rename_i isEmpty
          cases success
          exact .pass goesOn isIllegal isEmpty
        · obtain ⟨patient, rfl⟩ := keepText_ok success
          exact .keep goesOn (by rw [isIllegal]; rfl) (by simp [isIllegal]) patient

def startCursor (state : RunState) : Cursor :=
  if state.resume then state.cursor else {}

/-- The match that the next step applies: where it is searched for, and where the cursor
stands behind it. -/
structure Finds (setting : Setting) (state : RunState) (place : Place) (found : RuleMatch)
    (behind : Cursor) : Prop where
  isPlace : state.place = some place
  search : (setting.topMode state).matcher.next (startCursor state) place =
    .ok (some found, behind)
  order : place.offset ≤ found.span.start.offset

def searched (state : RunState) (place : Place) (found : RuleMatch) (cursor : Cursor) :
    RunState :=
  { state.wait (String.ofList (place.upTo found.span.start)) with
    cursor, resume := false, iterations := state.iterations + 1 }

theorem step_eq_more :
    step setting state = .ok (.more after) ↔
      ∃ place found behind, Finds setting state place found behind ∧
        apply setting (searched state place found behind) found = .ok after := by
  constructor
  · intro success
    unfold step at success
    split at success
    · cases success
    · rename_i place isPlace
      simp only at success
      split at success
      · cases success
      · cases success
      · rename_i found behind search
        split at success
        · cases success
        · rename_i order
          obtain ⟨next, applied, success⟩ := Success.bind_eq_ok.mp success
          cases success
          exact ⟨place, found, behind, ⟨isPlace, search, Nat.le_of_not_lt order⟩, applied⟩
  · rintro ⟨place, found, behind, ⟨isPlace, search, order⟩, applied⟩
    unfold startCursor at search
    simp only [step, isPlace, search, if_neg (Nat.not_lt_of_le order)]
    exact Success.bind_eq_ok.mpr ⟨after, applied, rfl⟩

def noted (state : RunState) (place : Place) (found : RuleMatch) (cursor : Cursor)
    (lastMatch : Option LastMatch) : RunState :=
  { searched state place found cursor with lastMatch }

/-- The last step changes nothing. -/
theorem step_done (success : step setting state = .ok (.done after)) : after = state := by
  unfold step at success
  split at success
  · cases success
    rfl
  · simp only at success
    split at success
    · cases success
    · cases success
      rfl
    · split at success
      · cases success
      · obtain ⟨next, -, success⟩ := Success.bind_eq_ok.mp success
        cases success

/-- What holds at first and is kept by every step holds at the end of a run. -/
theorem steps_keep {fuel : Nat} {holds : RunState → Prop}
    (keeps : ∀ state after, holds state → step setting state = .ok (.more after) → holds after)
    (isHeld : holds state) (success : steps setting fuel state = .ok after) : holds after := by
  induction fuel generalizing state with
  | zero => cases success
  | succ fuel ih =>
    obtain ⟨progress, stepped, success⟩ := Success.bind_eq_ok.mp success
    cases progress with
    | done last =>
      cases success
      rwa [step_done stepped]
    | more next => exact ih (keeps state next isHeld stepped) success

end Run
end Highlighter

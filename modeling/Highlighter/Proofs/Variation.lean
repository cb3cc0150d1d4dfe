import Highlighter.Engine
import Highlighter.Proofs.Success

/-!
# Runs in other settings

Two runs of a text can differ in what they embed, in whether they are safe and in whether they
ignore illegal text.  They pass through the same states until the first of them stops for a cause
that comes from the difference.
-/
namespace Highlighter

/-- A computation comes to the same as another one, unless it stops for a cause that is excused. -/
def Varies {α : Type} (excused : Failure → Prop) (first second : Except Failure α) : Prop :=
  first = second ∨ ∃ cause, first = .error cause ∧ excused cause

namespace Varies

variable {α β : Type} {excused : Failure → Prop} {first second : Except Failure α}

theorem refl (result : Except Failure α) : Varies excused result result :=
  .inl rfl

theorem bind {next onward : α → Except Failure β} (varies : Varies excused first second)
    (rest : ∀ value, Varies excused (next value) (onward value)) :
    Varies excused (first >>= next) (second >>= onward) := by
  rcases varies with rfl | ⟨cause, rfl, excuse⟩
  · cases first with
    | error cause => exact .refl _
    | ok value => exact rest value
  · exact .inr ⟨cause, rfl, excuse⟩

end Varies

/-- What can differ between two runs of a text. -/
structure Variant where
  safe : Bool
  ignoreIllegals : Bool
  embedder : Embedder

/-- A variant comes to the same as another one, unless it stops for a cause that is excused. -/
structure Variant.Follows (excused : Failure → Prop) (first second : Variant) : Prop where
  highlight : ∀ language earlier text,
    Varies excused (first.embedder.highlight language first.safe earlier text)
      (second.embedder.highlight language second.safe earlier text)
  detect : ∀ candidates text,
    Varies excused (first.embedder.detect candidates text) (second.embedder.detect candidates text)
  safe : first.safe = second.safe ∨
    first.safe = false ∧ ∀ name offset, excused (.loopDetected name offset .emptyMode)
  illegals : first.ignoreIllegals = second.ignoreIllegals ∨
    first.ignoreIllegals = false ∧ ∀ illegal, excused (.illegalLexeme illegal)

def Setting.vary (setting : Setting) (variant : Variant) : Setting :=
  { setting with
    safe := variant.safe
    ignoreIllegals := variant.ignoreIllegals
    embedder := variant.embedder }

theorem Setting.vary_topMode (setting : Setting) (variant : Variant) (state : RunState) :
    (setting.vary variant).topMode state = setting.topMode state :=
  rfl

theorem Setting.vary_grammar (setting : Setting) (variant : Variant) :
    (setting.vary variant).grammar = setting.grammar :=
  rfl

namespace Run

open Compiled (CompiledMode)

/-! ## What does not depend on it -/

section Independent

variable (setting : Setting) (variant : Variant) (found : RuleMatch)

theorem addParts_vary (state : RunState) (parts : List (Nat × Option String)) :
    addParts (setting.vary variant) found state parts = addParts setting found state parts := by
  induction parts generalizing state with
  | nil => rfl
  | cons part parts ih =>
    obtain ⟨number, scope⟩ := part
    simp only [addParts, ih]
    rfl

theorem openMode_vary (state : RunState) (number : Nat) (capture : Option String) :
    openMode (setting.vary variant) state number found capture =
      openMode setting state number found capture := by
  simp only [openMode, addParts_vary]
  rfl

theorem closedWith_vary (frame : Frame) (below : List Frame) :
    closedWith (setting.vary variant) frame below = closedWith setting frame below := by
  induction below generalizing frame with
  | nil => rfl
  | cons parent below ih =>
    cases below with
    | nil => rfl
    | cons grandparent rest =>
      simp only [closedWith, ih]
      rfl

theorem closedBy?_vary (frame : Frame) (below : List Frame) :
    closedBy? (setting.vary variant) found frame below = closedBy? setting found frame below := by
  induction below generalizing frame with
  | nil => rfl
  | cons parent below ih =>
    simp only [closedBy?, closedWith_vary, ih]
    rfl

theorem closeModes_vary (count : Nat) (state : RunState) :
    closeModes (setting.vary variant) count state = closeModes setting count state := by
  fun_induction closeModes setting count state with
  | case1 => rfl
  | case2 => rfl
  | case3 count state ih =>
    rw [closeModes]
    exact ih

theorem reopen_vary (builder : Scope.Builder) (frames : List Frame) :
    reopen (setting.vary variant) builder frames = reopen setting builder frames := by
  induction frames generalizing builder with
  | nil => rfl
  | cons frame frames ih =>
    simp only [reopen, ih]
    rfl

theorem initialState_vary (earlier : Option Continuation) (text : List Char) :
    initialState (setting.vary variant) earlier text = initialState setting earlier text := by
  cases earlier with
  | none => rfl
  | some continuation =>
    simp only [initialState, reopen_vary]
    rfl

end Independent

/-! ## What depends on it -/

section Following

variable (setting : Setting) {excused : Failure → Prop} {first second : Variant}
  (follows : first.Follows excused second)

include follows

theorem embed_varies (state : RunState) (content : String) (language : Grammar.SubLanguage) :
    Varies excused (embed (setting.vary first) state content language)
      (embed (setting.vary second) state content language) := by
  cases language with
  | one language => exact (follows.highlight language _ content).bind fun result => .refl _
  | candidates candidates => exact (follows.detect _ content).bind fun detected => .refl _

theorem flush_varies (state : RunState) :
    Varies excused (flush (setting.vary first) state) (flush (setting.vary second) state) := by
  simp only [flush, Setting.vary_topMode]
  split
  · exact .refl _
  · split
    · exact .refl _
    · exact embed_varies setting follows _ _ _

theorem enter_varies (state : RunState) (number : Nat) (found : RuleMatch) :
    Varies excused (enter (setting.vary first) state number found)
      (enter (setting.vary second) state number found) := by
  have begins (mode : CompiledMode) (lexeme : String) :
      Varies excused (beginPending (setting.vary first) state mode lexeme)
        (beginPending (setting.vary second) state mode lexeme) := by
    unfold beginPending
    split
    · exact .refl _
    · exact (flush_varies setting follows _).bind fun flushed => .refl _
  simp only [enter, Setting.vary_grammar, openMode_vary]
  split
  · exact .refl _
  · exact (begins _ _).bind fun begun => .refl _

theorem endPending_varies (state : RunState) (mode : CompiledMode) (found : RuleMatch) :
    Varies excused (endPending (setting.vary first) state mode found)
      (endPending (setting.vary second) state mode found) := by
  simp only [endPending, addParts_vary]
  split
  · exact (flush_varies setting follows state).bind fun flushed => .refl _
  · exact (flush_varies setting follows state).bind fun flushed => .refl _
  · split
    · exact .refl _
    · exact (flush_varies setting follows _).bind fun flushed => .refl _

theorem leave_varies (state : RunState) (found : RuleMatch) :
    Varies excused (leave (setting.vary first) state found)
      (leave (setting.vary second) state found) := by
  simp only [leave, closedBy?_vary, closeModes_vary, openMode_vary]
  refine Varies.bind (.refl _) fun closed => ?_
  cases closed with
  | none => exact .refl _
  | some count => exact (endPending_varies setting follows state _ found).bind fun ended => .refl _

theorem apply_varies (state : RunState) (found : RuleMatch) :
    Varies excused (apply (setting.vary first) state found)
      (apply (setting.vary second) state found) := by
  simp only [apply]
  split
  · rcases follows.safe with same | ⟨isStrict, excuse⟩
    · simp only [Setting.vary, same]
      exact .refl _
    · simp only [Setting.vary, isStrict]
      exact .inr ⟨_, rfl, excuse _ _⟩
  · split
    · exact enter_varies setting follows _ _ found
    · exact (leave_varies setting follows _ found).bind fun left => .refl _
    · rcases follows.illegals with same | ⟨stops, excuse⟩
      · simp only [Setting.vary, same]
        exact .refl _
      · simp only [Setting.vary, stops]
        exact .inr ⟨_, rfl, excuse _⟩

theorem step_varies (state : RunState) :
    Varies excused (step (setting.vary first) state) (step (setting.vary second) state) := by
  simp only [step, Setting.vary_topMode]
  split
  · exact .refl _
  · split
    · exact .refl _
    · exact .refl _
    · split
      · exact .refl _
      · exact (apply_varies setting follows _ _).bind fun next => .refl _

theorem steps_vary (fuel : Nat) (state : RunState) :
    Varies excused (steps (setting.vary first) fuel state)
      (steps (setting.vary second) fuel state) := by
  induction fuel generalizing state with
  | zero => exact .refl _
  | succ fuel ih =>
    refine (step_varies setting follows state).bind fun progress => ?_
    cases progress with
    | done state => exact .refl _
    | more state => exact ih state

theorem highlight_varies (earlier : Option Continuation) (text : String) :
    Varies excused (highlight (setting.vary first) earlier text)
      (highlight (setting.vary second) earlier text) := by
  simp only [highlight, initialState_vary]
  refine (steps_vary setting follows _ _).bind fun last => ?_
  exact (flush_varies setting follows _).bind fun final => .refl _

end Following
end Run
end Highlighter

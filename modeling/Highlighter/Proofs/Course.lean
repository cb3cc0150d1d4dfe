import Highlighter.Proofs.Builder
import Highlighter.Proofs.Steps

/-!
# The course of a run

Where a run stands is a matter of its place, of the rules that the next search begins with, of
the match it looked at last and of the number of its steps.  Adding text to the tree, and opening
and closing modes, has no part in it.
-/
namespace Highlighter

open Compiled (CompiledGrammar CompiledMode)

/-- Where a run stands, apart from the modes that are open. -/
structure Course where
  place : Option Place
  cursor : Cursor
  resume : Bool
  lastMatch : Option LastMatch
  iterations : Nat

/-- Goes on behind the next character, or behind the end of the text. -/
def Course.pass (course : Course) (place : Place) : Course :=
  { course with place := place.next?.map Prod.snd }

def Course.goTo (course : Course) (place : Place) : Course :=
  { course with place := some place }

/-- The open modes of a run, and the scopes of the open nodes of its tree. -/
structure OpenModes where
  stack : Stack
  scopes : List (Option String)

namespace RunState

def course (state : RunState) : Course where
  place := state.place
  cursor := state.cursor
  resume := state.resume
  lastMatch := state.lastMatch
  iterations := state.iterations

def openModes (state : RunState) : OpenModes where
  stack := state.stack
  scopes := state.builder.openScopes

/-- What opening or closing modes leaves alone: where the run stands, and where the texts of
other grammars have stopped. -/
def kept (state : RunState) : Course × Dictionary String Continuation :=
  (state.course, state.continuations)

theorem passChar_course (state : RunState) (place : Place) :
    (state.passChar place).course = state.course.pass place := by
  unfold passChar
  split
  · rename_i isNone
    simp [course, Course.pass, isNone]
  · rename_i char next isNext
    simp [course, Course.pass, isNext, wait]

theorem passChar_openModes (state : RunState) (place : Place) :
    (state.passChar place).openModes = state.openModes := by
  unfold passChar
  split <;> rfl

theorem passChar_stack (state : RunState) (place : Place) :
    (state.passChar place).stack = state.stack :=
  congrArg OpenModes.stack (state.passChar_openModes place)

/-! ## Adding text -/

/-- A run stands where it stood, and the same modes are open. -/
structure Stays (before after : RunState) : Prop where
  course : after.course = before.course
  openModes : after.openModes = before.openModes

/-- Besides, the texts of other grammars have stopped where they had, and the same text is
pending. -/
structure Adds (before after : RunState) : Prop extends Stays before after where
  continuations : after.continuations = before.continuations
  pending : after.pending = before.pending

section Adds

variable {before middle after : RunState}

theorem Stays.trans (first : before.Stays middle) (second : middle.Stays after) :
    before.Stays after where
  course := second.course.trans first.course
  openModes := second.openModes.trans first.openModes

theorem Adds.trans (first : before.Adds middle) (second : middle.Adds after) :
    before.Adds after where
  toStays := first.toStays.trans second.toStays
  continuations := second.continuations.trans first.continuations
  pending := second.pending.trans first.pending

theorem Adds.kept (adds : before.Adds after) : after.kept = before.kept := by
  rw [RunState.kept, RunState.kept, adds.course, adds.continuations]

end Adds

theorem addText_adds (state : RunState) (content : String) :
    state.Adds (state.addText content) :=
  ⟨⟨rfl, by simp [addText, openModes]⟩, rfl, rfl⟩

theorem addScoped_adds (state : RunState) (content scope : String) :
    state.Adds (state.addScoped content scope) :=
  ⟨⟨rfl, by simp [addScoped, openModes]⟩, rfl, rfl⟩

end RunState

namespace Run

variable {setting : Setting} {state after : RunState} {found : RuleMatch}

variable {mode : CompiledMode} {content : String}

theorem addSegment_adds (segment : Compiled.Segment) :
    state.Adds (addSegment setting state segment) := by
  have counted (word : String) (relevance : Float) :
      state.Adds (countKeyword setting state word relevance) := by
    simp only [countKeyword]
    split <;> exact ⟨⟨rfl, rfl⟩, rfl, rfl⟩
  cases segment with
  | plain content => exact state.addText_adds content
  | keyword word entry =>
    simp only [addSegment]
    split
    · exact (counted word entry.relevance).trans (RunState.addScoped_adds _ _ _)
    · exact (counted word entry.relevance).trans (RunState.addText_adds _ _)

theorem addSegments_adds (segments : List Compiled.Segment) :
    state.Adds (segments.foldl (addSegment setting) state) := by
  induction segments generalizing state with
  | nil => exact ⟨⟨rfl, rfl⟩, rfl, rfl⟩
  | cons segment segments ih =>
    exact (addSegment_adds segment).trans ih

theorem classify_adds (success : classify setting state content = .ok after) :
    state.Adds after := by
  unfold classify at success
  split at success
  · cases success
    exact state.addText_adds content
  · split at success
    · cases success
    · cases success
      exact addSegments_adds _

theorem attach_stays (tree : Scope.Tree) (relevance : Float) (language : Option String) :
    state.Stays (attach setting state tree relevance language) ∧
      (attach setting state tree relevance language).pending = state.pending := by
  unfold attach
  split <;> exact ⟨⟨rfl, by simp [RunState.score, RunState.openModes]⟩, rfl⟩

theorem embed_stays {language : Grammar.SubLanguage}
    (success : embed setting state content language = .ok after) :
    state.Stays after ∧ after.pending = state.pending := by
  cases language with
  | one language =>
    obtain ⟨result, -, success⟩ := Success.bind_eq_ok.mp success
    cases result with
    | none =>
      cases success
      exact ⟨(state.addText_adds content).toStays, rfl⟩
    | some result =>
      cases success
      obtain ⟨stays, pending⟩ := @attach_stays setting { state with continuations := _ }
        result.2.tree result.2.relevance (some result.1)
      exact ⟨⟨stays.course, stays.openModes⟩, pending⟩
  | candidates candidates =>
    obtain ⟨detected, -, success⟩ := Success.bind_eq_ok.mp success
    cases success
    exact attach_stays _ _ _

theorem flush_pending (success : flush setting state = .ok after) : after.pending = "" := by
  simp only [flush] at success
  split at success
  · exact (classify_adds success).pending
  · split at success
    · cases success
      rfl
    · exact (embed_stays success).2

theorem flush_stays (success : flush setting state = .ok after) : state.Stays after := by
  simp only [flush] at success
  split at success
  · exact ⟨(classify_adds success).course, (classify_adds success).openModes⟩
  · split at success
    · cases success
      exact ⟨rfl, rfl⟩
    · exact ⟨(embed_stays success).1.course, (embed_stays success).1.openModes⟩

theorem addParts_adds {parts : List (Nat × Option String)}
    (success : addParts setting found state parts = .ok after) : state.Adds after := by
  induction parts generalizing state with
  | nil =>
    cases success
    exact ⟨⟨rfl, rfl⟩, rfl, rfl⟩
  | cons part parts ih =>
    obtain ⟨number, scope⟩ := part
    rw [addParts] at success
    split at success
    · exact ih success
    · split at success
      · exact (state.addScoped_adds _ _).trans (ih success)
      · obtain ⟨classified, first, success⟩ := Success.bind_eq_ok.mp success
        exact (classify_adds first).trans (ih success)

theorem beginPending_stays {lexeme : String}
    (success : beginPending setting state mode lexeme = .ok after) : state.Stays after := by
  unfold beginPending at success
  split at success
  · cases success
    exact ⟨rfl, rfl⟩
  · obtain ⟨flushed, first, success⟩ := Success.bind_eq_ok.mp success
    cases success
    have waited : state.Stays
        (if mode.flags.excludeBegin then state.wait lexeme else state) := by
      split <;> exact ⟨rfl, rfl⟩
    refine (waited.trans (flush_stays first)).trans ?_
    split <;> exact ⟨rfl, rfl⟩

theorem endPending_stays (success : endPending setting state mode found = .ok after) :
    state.Stays after := by
  unfold endPending at success
  split at success
  · obtain ⟨flushed, first, success⟩ := Success.bind_eq_ok.mp success
    cases success
    exact (flush_stays first).trans (flushed.addScoped_adds _ _).toStays
  · obtain ⟨flushed, first, success⟩ := Success.bind_eq_ok.mp success
    exact (flush_stays first).trans (addParts_adds success).toStays
  · split at success
    · cases success
      exact ⟨rfl, rfl⟩
    · obtain ⟨flushed, first, success⟩ := Success.bind_eq_ok.mp success
      cases success
      have waited : state.Stays
          (if mode.flags.returnEnd || mode.flags.excludeEnd then state
            else state.wait found.lexeme) := by
        split <;> exact ⟨rfl, rfl⟩
      refine (waited.trans (flush_stays first)).trans ?_
      split <;> exact ⟨rfl, rfl⟩

/-! ## Opening and closing modes -/

theorem openMode_kept {number : Nat} {capture : Option String}
    (success : openMode setting state number found capture = .ok after) :
    after.kept = state.kept := by
  obtain ⟨begun, begins, rfl⟩ := openMode_ok success
  have opened : (withNode setting state number).kept = state.kept := by
    unfold withNode
    split <;> rfl
  cases begins with
  | plain scope => exact opened
  | whole scope isScope => exact opened
  | parts parts isScope added isAdded => exact (addParts_adds isAdded).kept.trans opened

theorem closeTop_kept : (closeTop setting state).kept = state.kept := by
  simp only [closeTop]
  split <;> split <;> rfl

theorem closeModes_kept (count : Nat) :
    (closeModes setting count state).2.kept = state.kept := by
  fun_induction closeModes setting count state with
  | case1 => rfl
  | case2 => exact closeTop_kept
  | case3 count state ih => rw [ih, closeTop_kept]

theorem StartsNext.kept {ended : Nat} {closed started : RunState}
    (starts : StartsNext setting found ended closed started) : started.kept = closed.kept := by
  cases starts with
  | nothing starts => rfl
  | mode next starts opened success => exact openMode_kept success

end Run
end Highlighter

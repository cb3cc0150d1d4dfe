import Highlighter.Proofs.Steps

/-!
# How a step of a run fails

The actions of a run fail where a search does, where embedded text does, or where the text is
illegal or the run does not get on.  So whatever is asked of failures, a step keeps to it if
these do.
-/
namespace Highlighter

open Compiled (CompiledMode)
open Grammar (SubLanguage)

def Fails {α : Type} (allowed : Failure → Prop) (result : Except Failure α) : Prop :=
  ∀ cause, result = .error cause → allowed cause

namespace Fails

variable {α β : Type} {allowed : Failure → Prop}

theorem ok (value : α) : Fails allowed (.ok value) :=
  nofun

theorem error {cause : Failure} (isAllowed : allowed cause) :
    Fails allowed (.error cause : Except Failure α) := by
  rintro _ ⟨⟩
  exact isAllowed

theorem bind {first : Except Failure α} {rest : α → Except Failure β}
    (isFirst : Fails allowed first) (isRest : ∀ value, Fails allowed (rest value)) :
    Fails allowed (first >>= rest) := by
  intro cause fails
  rcases Success.bind_eq_error.mp fails with fails | ⟨value, -, fails⟩
  · exact isFirst cause fails
  · exact isRest value cause fails

end Fails

/-- What becomes of texts that are embedded fails as allowed. -/
structure Embedder.Fails (allowed : Failure → Prop) (embedder : Embedder) : Prop where
  highlight : ∀ language safe earlier text,
    Highlighter.Fails allowed (embedder.highlight language safe earlier text)
  detect : ∀ candidates text, Highlighter.Fails allowed (embedder.detect candidates text)

namespace Run

theorem embed_fails {allowed : Failure → Prop} {setting : Setting}
    (fails : setting.embedder.Fails allowed) (state : RunState) (content : String)
    (language : SubLanguage) : Fails allowed (embed setting state content language) := by
  cases language with
  | one language =>
    refine (fails.highlight language _ _ content).bind fun result => ?_
    cases result with
    | none => exact .ok _
    | some found => exact .ok _
  | candidates candidates => exact (fails.detect _ content).bind fun detected => .ok _

/-- What the actions of a run fail with by themselves is allowed, and so is what the texts
that its modes embed fail with. -/
structure Allows (allowed : Failure → Prop) (setting : Setting) : Prop where
  search : ∀ cause, allowed (.search setting.name cause)
  loop : ∀ offset cause, allowed (.loopDetected setting.name offset cause)
  embeds : ∀ number, ∀ language ∈ (setting.grammar.mode number).subLanguage,
    ∀ state content, Fails allowed (embed setting state content language)

variable {allowed : Failure → Prop} {setting : Setting} (allows : Allows allowed setting)
  (state : RunState) (found : RuleMatch)

include allows

theorem classify_fails (content : String) : Fails allowed (classify setting state content) := by
  unfold classify
  split
  · exact .ok _
  · split
    · exact .error (allows.search _)
    · exact .ok _

theorem flush_fails : Fails allowed (flush setting state) := by
  simp only [flush]
  split
  · exact classify_fails allows _ _
  · rename_i language isLanguage
    split
    · exact .ok _
    · exact allows.embeds _ language isLanguage _ _

theorem addParts_fails (parts : List (Nat × Option String)) :
    Fails allowed (addParts setting found state parts) := by
  induction parts generalizing state with
  | nil => exact .ok state
  | cons part parts ih =>
    obtain ⟨number, scope⟩ := part
    unfold addParts
    split
    · exact ih state
    · split
      · exact ih _
      · exact (classify_fails allows state _).bind ih

theorem openMode_fails (number : Nat) (capture : Option String) :
    Fails allowed (openMode setting state number found capture) := by
  simp only [openMode]
  cases (setting.grammar.mode number).beginScope with
  | none => exact .ok _
  | some beginScope =>
    cases beginScope with
    | whole scope => exact .ok _
    | parts parts => exact (addParts_fails allows _ found parts).bind fun added => .ok _

theorem beginPending_fails (mode : CompiledMode) (lexeme : String) :
    Fails allowed (beginPending setting state mode lexeme) := by
  unfold beginPending
  split
  · exact .ok _
  · exact (flush_fails allows _).bind fun flushed => .ok _

theorem enter_fails (number : Nat) : Fails allowed (enter setting state number found) := by
  simp only [enter]
  split
  · exact .ok _
  · refine (beginPending_fails allows state _ _).bind fun begun => ?_
    exact (openMode_fails allows begun found number _).bind fun opened => .ok _

theorem endsAt_fails (frame : Frame) : Fails allowed (endsAt setting frame found) := by
  simp only [endsAt]
  split
  · exact .ok _
  · split
    · exact .error (allows.search _)
    · exact .ok _
    · exact .ok _

theorem closedBy?_fails (frame : Frame) (below : List Frame) :
    Fails allowed (closedBy? setting found frame below) := by
  induction below generalizing frame with
  | nil => exact .ok none
  | cons parent below ih =>
    unfold closedBy?
    refine (endsAt_fails allows found frame).bind fun ended => ?_
    split
    · exact .ok _
    · split
      · exact (ih parent).bind fun closed => .ok _
      · exact .ok none

theorem endPending_fails (mode : CompiledMode) :
    Fails allowed (endPending setting state mode found) := by
  unfold endPending
  split
  · exact (flush_fails allows state).bind fun flushed => .ok _
  · exact (flush_fails allows state).bind fun flushed => addParts_fails allows flushed found _
  · split
    · exact .ok _
    · exact (flush_fails allows _).bind fun flushed => .ok _

theorem leave_fails : Fails allowed (leave setting state found) := by
  unfold leave
  refine (closedBy?_fails allows found _ _).bind fun closed => ?_
  cases closed with
  | none => exact .ok none
  | some count =>
    refine (endPending_fails allows state found _).bind fun ended => ?_
    obtain ⟨outermost, closed⟩ := closeModes setting count ended
    cases isNext : (setting.grammar.mode outermost).starts with
    | none =>
      simp only [isNext]
      exact .ok _
    | some next =>
      simp only [isNext]
      exact (openMode_fails allows closed found next none).bind fun opened => .ok _

theorem keepText_fails : Fails allowed (keepText setting state found) := by
  simp only [keepText]
  split
  · exact .error (allows.loop _ _)
  · exact .ok _

theorem apply_fails
    (illegals : found.kind = .illegal → setting.ignoreIllegals = false →
      allowed (.illegalLexeme (.ofSpan found.span (setting.topMode state).scope))) :
    Fails allowed (apply setting state found) := by
  simp only [apply]
  split
  · split
    · exact .ok _
    · exact .error (allows.loop _ _)
  · split
    · exact enter_fails allows _ found _
    · refine (leave_fails allows _ found).bind fun left => ?_
      cases left with
      | none => exact keepText_fails allows _ found
      | some state => exact .ok state
    · rename_i isIllegal
      split
      · rename_i strict
        exact .error (illegals isIllegal (by simpa using strict))
      · split
        · exact .ok _
        · exact keepText_fails allows _ found

/-- Of the failures of a step, only those of its search for rules are new, and those that illegal
text makes. -/
theorem step_fails
    (illegals : ∀ place found behind, Finds setting state place found behind →
      found.kind = .illegal → setting.ignoreIllegals = false →
        allowed (.illegalLexeme (.ofSpan found.span (setting.topMode state).scope)))
    (searches : ∀ cursor place cause,
      (setting.topMode state).matcher.next cursor place = .error cause →
        allowed (.ofMatchFailure setting.name cause))
    (misplaces : ∀ cursor place found behind,
      (setting.topMode state).matcher.next cursor place = .ok (some found, behind) →
        state.place = some place → found.span.start.offset < place.offset →
          allowed (.misplaced setting.name)) :
    Fails allowed (step setting state) := by
  simp only [step]
  split
  · exact .ok _
  · rename_i place isPlace
    split
    · rename_i cause searched
      exact .error (searches _ _ _ searched)
    · exact .ok _
    · rename_i found behind searched
      split
      · rename_i before
        exact .error (misplaces _ _ _ _ searched isPlace before)
      · rename_i order
        refine (apply_fails allows _ found ?_).bind fun next => .ok _
        exact illegals place found behind ⟨isPlace, searched, Nat.not_lt.mp order⟩

/-- What a run fails with is allowed if that holds of the steps that it takes. -/
theorem highlight_fails_of {earlier : Option Continuation} {text : String}
    (holds : RunState → Prop) (starts : holds (initialState setting earlier text.toList))
    (keeps : ∀ state after, holds state → step setting state = .ok (.more after) → holds after)
    (stepFails : ∀ state, holds state → Fails allowed (step setting state))
    (endless : allowed (.endless setting.name)) :
    Fails allowed (highlight setting earlier text) := by
  have run (fuel : Nat) (state : RunState) (isHeld : holds state) :
      Fails allowed (steps setting fuel state) := by
    induction fuel generalizing state with
    | zero => exact .error endless
    | succ fuel ih =>
      intro cause fails
      rcases Success.bind_eq_error.mp fails with fails | ⟨progress, stepped, fails⟩
      · exact stepFails state isHeld cause fails
      · cases progress with
        | done state => cases fails
        | more next => exact ih next (keeps state next isHeld stepped) cause fails
  exact (run _ _ starts).bind fun last => (flush_fails allows _).bind fun final => .ok _

omit allows

/-- Whatever a run fails with is allowed. -/
structure AllowsAll (allowed : Failure → Prop) (setting : Setting) : Prop
    extends Allows allowed setting where
  illegal : setting.ignoreIllegals = false → ∀ illegal, allowed (.illegalLexeme illegal)
  searches : ∀ number cursor place cause,
    (setting.grammar.mode number).matcher.next cursor place = .error cause →
      allowed (.ofMatchFailure setting.name cause)
  misplaced : allowed (.misplaced setting.name)
  endless : allowed (.endless setting.name)

theorem highlight_fails (allows : AllowsAll allowed setting) (earlier : Option Continuation)
    (text : String) : Fails allowed (highlight setting earlier text) := by
  refine highlight_fails_of allows.toAllows (fun _ => True) trivial (fun _ _ _ _ => trivial)
    (fun state _ => ?_) allows.endless
  exact step_fails allows.toAllows state (fun _ _ _ _ _ strict => allows.illegal strict _)
    (fun _ _ _ => allows.searches _ _ _ _) fun _ _ _ _ _ _ _ => allows.misplaced

end Run
end Highlighter

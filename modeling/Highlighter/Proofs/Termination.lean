import Highlighter.Proofs.Consuming
import Highlighter.Proofs.Failing
import Highlighter.Proofs.Rejection
import Highlighter.Proofs.Sharing
import Highlighter.Proofs.Standing
import Mathlib.Algebra.Order.BigOperators.Group.List
import Mathlib.Algebra.Order.Ring.Nat

/-!
# Runs come to an end

Many steps of a run leave it where it is in the text.  If every beginning takes text, each step
still leaves less to do: less of the text is left, or the modes that are open weigh less, or fewer
rules are left to be tried.  Only matches that are kept as text can leave it all as it was, and
these are counted.
-/
namespace Highlighter

namespace Compiled.CompiledGrammar

variable {grammar : CompiledGrammar}

/-- A mode starts only modes with greater numbers. -/
def Ascends (grammar : CompiledGrammar) : Prop :=
  ∀ number, ∀ next ∈ (grammar.mode number).starts, number < next ∧ next < grammar.modes.size

theorem ascends_of_compile {definition : Grammar.Definition}
    (compiled : compile definition = .ok grammar) : grammar.Ascends := by
  intro number next starts
  obtain ⟨compiler, origins, elaborated, finishes⟩ := elaborated_of_compile compiled
  obtain ⟨_, _, _, -, -, -, later, -⟩ := (finishes.elaborates elaborated).starts starts
  exact ⟨later, (closed_of_compile compiled).starts number next starts⟩

/-- The weight of an open mode.  A mode weighs more than the one that it starts. -/
def weight (grammar : CompiledGrammar) (frame : Frame) : Nat :=
  grammar.modes.size - frame.mode + 1

theorem rules_le_ruleCount {mode : CompiledMode} (member : mode ∈ grammar.modes) :
    mode.matcher.rules.length ≤ grammar.ruleCount := by
  have isSum : grammar.ruleCount =
      (grammar.modes.toList.map fun mode => mode.matcher.rules.length).sum := by
    rw [ruleCount, ← Array.foldl_toList, List.sum_eq_foldl, List.foldl_map]
  rw [isSum]
  refine List.single_le_sum (fun _ _ => Nat.zero_le _) _ ?_
  exact List.mem_map.mpr ⟨mode, Array.mem_toList_iff.mpr member, rfl⟩

end Compiled.CompiledGrammar

open Compiled (CompiledGrammar)

/-! ## The weight of the open modes -/

namespace Stack

def weight (grammar : CompiledGrammar) (stack : Stack) : Nat :=
  ((stack.top :: stack.below).map grammar.weight).sum

variable {grammar : CompiledGrammar} {stack : Stack}

@[simp]
theorem weight_push (frame : Frame) :
    (stack.push frame).weight grammar = grammar.weight frame + stack.weight grammar :=
  rfl

theorem weight_of_nested (nested : stack.below ≠ []) :
    stack.weight grammar = grammar.weight stack.top + stack.pop.weight grammar := by
  obtain ⟨top, below⟩ := stack
  cases below with
  | nil => exact absurd rfl nested
  | cons frame below => rfl

theorem weight_le (grammar : CompiledGrammar) (stack : Stack) :
    stack.weight grammar ≤ stack.size * (grammar.modes.size + 1) := by
  have each := List.sum_le_card_nsmul ((stack.top :: stack.below).map grammar.weight)
    (grammar.modes.size + 1) (by
      simp only [List.mem_map, CompiledGrammar.weight]
      rintro _ ⟨frame, -, rfl⟩
      omega)
  simpa [weight, size] using each

end Stack

namespace OpenModes

variable {grammar : CompiledGrammar} {modes : OpenModes}

theorem weight_popMany (count : Nat) (bounded : count ≤ modes.stack.below.length) :
    (modes.popMany grammar count).stack.weight grammar ≤ modes.stack.weight grammar := by
  induction count with
  | zero => exact Nat.le_refl _
  | succ count ih =>
    have nested := @below_popMany_ne_nil grammar modes count bounded
    have lighter := ih (by omega)
    rw [Stack.weight_of_nested nested] at lighter
    rw [popMany_succ]
    exact Nat.le_trans (Nat.le_add_left _ _) lighter

theorem weight_leave (ascends : grammar.Ascends) {count : Nat}
    (bounded : count < modes.stack.below.length) :
    ((modes.popMany grammar (count + 1)).start grammar
      (modes.popMany grammar count).stack.top.mode).stack.weight grammar <
        modes.stack.weight grammar := by
  have nested := @below_popMany_ne_nil grammar modes count bounded
  have lighter := @weight_popMany grammar modes count (Nat.le_of_lt bounded)
  rw [Stack.weight_of_nested nested] at lighter
  rw [popMany_succ, start]
  have positive : 0 < grammar.weight (modes.popMany grammar count).stack.top :=
    Nat.succ_pos _
  split
  · change (modes.popMany grammar count).stack.pop.weight grammar < _
    omega
  · rename_i next isNext
    change grammar.weight { mode := next } +
      (modes.popMany grammar count).stack.pop.weight grammar < _
    obtain ⟨later, inUse⟩ := ascends _ next isNext
    have less : grammar.weight { mode := next } <
        grammar.weight (modes.popMany grammar count).stack.top := by
      simp only [CompiledGrammar.weight]
      omega
    omega

end OpenModes

/-! ## What is left to do -/

namespace Run

variable {setting : Setting} {state after : RunState} {text : List Char}

def textLeft : Option Place → Nat
  | none => 0
  | some place => place.after.length + 1

/-- What is left of the text and of the open modes.  A character weighs more than a mode. -/
def workLeft (grammar : CompiledGrammar) (state : RunState) : Nat :=
  textLeft state.place * (grammar.modes.size + 2) + state.stack.weight grammar

/-- How many rules can be left for the next search. -/
def rulesLeft (grammar : CompiledGrammar) (state : RunState) : Nat :=
  grammar.ruleCount + 1 - (startCursor state).position

/-- All that is left to do, as long as no match is kept as text. -/
def rank (grammar : CompiledGrammar) (state : RunState) : Nat :=
  workLeft grammar state * (grammar.ruleCount + 2) + rulesLeft grammar state

/-- How many steps a run in a text can take before it loses patience. -/
def patienceFor (bytes : Nat) : Nat :=
  patience + 3 * bytes

def stepsLeft (grammar : CompiledGrammar) (bytes : Nat) (state : RunState) : Nat :=
  if state.iterations < patienceFor bytes then
    (patienceFor bytes - state.iterations) +
      (workLeft grammar state * (grammar.ruleCount + 2) + (grammar.ruleCount + 1))
  else rank grammar state

variable {grammar : CompiledGrammar} {found : RuleMatch}

theorem rank_le (grammar : CompiledGrammar) (state : RunState) :
    rank grammar state ≤
      workLeft grammar state * (grammar.ruleCount + 2) + (grammar.ruleCount + 1) :=
  Nat.add_le_add_left (Nat.sub_le _ _) _

theorem rank_lt_of_workLeft (less : workLeft grammar after < workLeft grammar state) :
    rank grammar after < rank grammar state := by
  have bounded := rank_le grammar after
  have product := Nat.mul_le_mul_right (grammar.ruleCount + 2) (Nat.succ_le_of_lt less)
  rw [Nat.succ_mul] at product
  have enough : workLeft grammar state * (grammar.ruleCount + 2) ≤ rank grammar state :=
    Nat.le_add_right _ _
  omega

theorem workLeft_le (less : textLeft after.place ≤ textLeft state.place)
    (lighter : after.stack.weight grammar ≤ state.stack.weight grammar) :
    workLeft grammar after ≤ workLeft grammar state :=
  Nat.add_le_add (Nat.mul_le_mul_right _ less) lighter

theorem workLeft_lt_of_weight (less : textLeft after.place ≤ textLeft state.place)
    (lighter : after.stack.weight grammar < state.stack.weight grammar) :
    workLeft grammar after < workLeft grammar state :=
  Nat.add_lt_add_of_le_of_lt (Nat.mul_le_mul_right _ less) lighter

theorem workLeft_lt_of_text (less : textLeft after.place < textLeft state.place)
    (lighter : after.stack.weight grammar ≤
      state.stack.weight grammar + (grammar.modes.size + 1)) :
    workLeft grammar after < workLeft grammar state := by
  have product := Nat.mul_le_mul_right (grammar.modes.size + 2) (Nat.succ_le_of_lt less)
  rw [Nat.succ_mul] at product
  simp only [workLeft]
  omega

theorem textLeft_pass (place : Place) :
    textLeft (place.next?.map Prod.snd) < textLeft (some place) := by
  cases isNext : place.next? with
  | none => exact Nat.succ_pos _
  | some next =>
    obtain ⟨char, following⟩ := next
    have later := Place.offset_lt_of_next isNext
    exact Nat.succ_lt_succ ((Place.precedes_next isNext).length_lt (Nat.ne_of_lt later))

/-! ## What a step leaves to do -/

/-- A run that goes on at a match does not go back in the text. -/
theorem Lies.goesOn {place other : Place} (lies : Lies text place found)
    (isPlace : state.place = some place) (isAfter : after.place = some other)
    (isBound : other = found.span.start ∨ other = found.span.stop) :
    textLeft after.place ≤ textLeft state.place := by
  rw [isAfter, isPlace]
  exact Nat.succ_le_succ (lies.behind.trans (lies.behind_bound isBound)).length_le

/-- A step counts itself.  It leaves no more to do than there was, and less unless the run is
patient with it. -/
structure Shortens (grammar : CompiledGrammar) (text : List Char) (state after : RunState) :
    Prop where
  iterations : after.iterations = state.iterations + 1
  work : workLeft grammar after ≤ workLeft grammar state
  less : rank grammar after < rank grammar state ∨
    after.iterations ≤ patienceFor (Place.bytes text)

namespace Shortens

variable {place : Place} {found : RuleMatch} (lies : Lies text place found)
  (isPlace : state.place = some place) (counted : after.iterations = state.iterations + 1)

include counted

theorem of_work (less : workLeft grammar after < workLeft grammar state) :
    Shortens grammar text state after :=
  ⟨counted, Nat.le_of_lt less, .inl (rank_lt_of_workLeft less)⟩

include lies isPlace

theorem of_pass (isAfter : after.place = found.span.start.next?.map Prod.snd)
    (stack : after.stack = state.stack) : Shortens grammar text state after := by
  refine of_work counted (workLeft_lt_of_text ?_ (by rw [stack]; omega))
  rw [isAfter, isPlace]
  exact Nat.lt_of_lt_of_le (textLeft_pass _) (Nat.succ_le_succ lies.behind.length_le)

end Shortens

theorem comes_of_next {number : Nat} {cursor behind : Cursor} {place : Place}
    (inText : (Place.start text).Precedes place)
    (search : (grammar.mode number).matcher.next cursor place = .ok (some found, behind)) :
    ∃ position origin, grammar.Comes number position origin found ∧ place.Precedes origin := by
  obtain ⟨-, rule, fires⟩ := Matcher.next_fires search
  cases fires with
  | atCursor search isHere => exact ⟨_, place, ⟨⟨text, inText⟩, search⟩, .refl _⟩
  | behind resumed passes search =>
    obtain ⟨char, following, isNext, search⟩ := Matcher.searchBehind_ok search
    have order := Place.precedes_next isNext
    exact ⟨0, following, ⟨⟨text, inText.trans order⟩, search⟩, order⟩

/-- A run that fails has a cause of its own, or has come to a match in front of where it was
searched for. -/
def Breaks (setting : Setting) (cause : Failure) : Prop :=
  cause.isEndless = false ∨ cause = .misplaced setting.name ∧
    ∃ number position place found, setting.grammar.Comes number position place found ∧
      found.span.start.offset < place.offset

theorem consuming_allows (consuming : setting.grammar.Consuming) :
    Allows (Breaks setting) setting := by
  refine ⟨fun _ => .inl rfl, fun _ _ => .inl rfl, ?_⟩
  intro number language isLanguage
  rw [consuming.embedsNothing number] at isLanguage
  cases isLanguage

theorem step_breaks (consuming : setting.grammar.Consuming) (inText : StandsIn text state) :
    Fails (Breaks setting) (step setting state) := by
  refine step_fails (consuming_allows consuming) state (fun _ _ _ _ _ _ => .inl rfl) ?_ ?_
  · intro cursor place cause _
    cases cause <;> exact .inl rfl
  · intro cursor place found behind search isPlace before
    obtain ⟨position, origin, comes, order⟩ := comes_of_next (inText place isPlace) search
    exact .inr ⟨rfl, _, position, origin, found, comes,
      Nat.lt_of_lt_of_le before order.offset_le⟩

/-! ## The first state -/

theorem stepsLeft_initialState (setting : Setting) (earlier : Option Continuation)
    (text : String) :
    stepsLeft setting.grammar (Place.bytes text.toList)
        (initialState setting earlier text.toList) <
      stepLimit setting (initialState setting earlier text.toList).stack.size text.toList.length
        text.utf8ByteSize := by
  obtain ⟨isPlace, isZero⟩ := initialState_place setting earlier text.toList
  generalize initialState setting earlier text.toList = start at isPlace isZero
  have weight := start.stack.weight_le setting.grammar
  have work : workLeft setting.grammar start + 1 ≤
      (start.stack.size + text.toList.length + 2) * (setting.grammar.modes.size + 2) := by
    have isText : textLeft start.place = text.toList.length + 1 := by rw [isPlace]; rfl
    rw [workLeft, isText]
    simp only [Nat.add_mul, Nat.mul_add] at weight ⊢
    omega
  have product := Nat.mul_le_mul_right (setting.grammar.ruleCount + 2) work
  rw [Nat.succ_mul] at product
  have patient : 0 < patienceFor (Place.bytes text.toList) := by
    rw [patienceFor, patience]
    omega
  rw [stepsLeft, isZero, if_pos patient, patienceFor, stepLimit, Place.bytes_eq_utf8ByteSize,
    Nat.mul_assoc 2, Nat.mul_assoc 2]
  omega

/-! ## Runs -/

section Compiled

variable {definition : Grammar.Definition}
  (compiled : CompiledGrammar.compile definition = .ok setting.grammar) {place : Place}
  {found : RuleMatch} {behind : Cursor}

include compiled

section Consuming

variable (consuming : setting.grammar.Consuming)

include consuming

theorem Finds.resumes_behind (finds : Finds setting state place found behind)
    (inText : StandsIn text state) (isEnter : found.kind.isEnter = true)
    (isHere : place.offset = found.span.start.offset) (resumed : behind.position ≠ 0) :
    setting.grammar.ruleCount + 1 - behind.position < rulesLeft setting.grammar state := by
  obtain ⟨isMode, joined⟩ := finds.joined compiled
  obtain ⟨rfl, rule, fires⟩ := Matcher.next_fires finds.search
  have isBehind : ((setting.topMode state).matcher.advance (startCursor state)
      (some found)).position = (startCursor state).position + found.position + 1 := by
    simp only [Matcher.advance] at resumed ⊢
    split at resumed
    · exact absurd rfl resumed
    · rename_i notLast
      rw [if_neg notLast]
  have fired := fires.rule joined
  cases fires with
  | atCursor search _ =>
    obtain ⟨_, isRule, -⟩ := fired
    have inRules := (List.getElem?_eq_some_iff.mp isRule).1
    have counted := CompiledGrammar.rules_le_ruleCount isMode
    rw [isBehind, rulesLeft]
    omega
  | behind resumed passes search =>
    -- what is found behind the next character takes text from there on
    obtain ⟨char, following, isNext, search⟩ := Matcher.searchBehind_ok search
    have later := Place.offset_lt_of_next isNext
    have inText := (inText place finds.isPlace).trans (Place.precedes_next isNext)
    obtain ⟨forward, -⟩ := consuming.beginnings state.stack.top.mode 0 following found
      ⟨⟨text, inText⟩, search⟩ isEnter
    omega

theorem rejected_shortens (finds : Finds setting state place found behind)
    (inText : StandsIn text state) (isEnter : found.kind.isEnter = true) :
    Shortens setting.grammar text state
      (skipEnter ((searched state place found behind).note found) found) := by
  have lies := finds.lies compiled inText
  unfold skipEnter
  split
  · have course := ((searched state place found behind).note found).passChar_course
      found.span.start
    exact .of_pass lies finds.isPlace (congrArg Course.iterations course)
      (congrArg Course.place course) (RunState.passChar_stack _ _)
  · rename_i resumed
    by_cases isHere : place.offset = found.span.start.offset
    · have sameWork : workLeft setting.grammar { (searched state place found behind).note found with
          resume := true, place := some found.span.start } ≤ workLeft setting.grammar state := by
        refine workLeft_le ?_ (Nat.le_refl _)
        rw [finds.isPlace]
        exact Nat.succ_le_succ lies.behind.length_le
      refine ⟨rfl, sameWork, .inl ?_⟩
      have moves := finds.resumes_behind compiled consuming inText isEnter isHere resumed
      exact Nat.add_lt_add_of_le_of_lt (Nat.mul_le_mul_right _ sameWork) moves
    · refine .of_work rfl (workLeft_lt_of_text ?_ (Nat.le_add_right _ _))
      rw [finds.isPlace]
      exact Nat.succ_lt_succ (lies.behind.length_lt isHere)

theorem step_shortens (inText : StandsIn text state)
    (success : step setting state = .ok (.more after)) :
    Shortens setting.grammar text state after := by
  obtain ⟨place, found, behind, finds, applied⟩ := step_eq_more.mp success
  have lies := finds.lies compiled inText
  cases apply_turns applied with
  | guarded fires safe course stack =>
    exact .of_pass lies finds.isPlace (congrArg Course.iterations course)
      (congrArg Course.place course) stack
  | rejected child isEnter rejected isAfter =>
    rw [isAfter]
    exact rejected_shortens compiled consuming finds inText (by rw [isEnter]; rfl)
  | entered child isEnter accepted course stack =>
    have isAfter : after.place = some found.span.stop := by
      have place := congrArg Course.place course
      rwa [consuming.returnsNothing child] at place
    obtain ⟨position, origin, comes, -⟩ :=
      comes_of_next (inText place finds.isPlace) finds.search
    obtain ⟨-, taken⟩ := consuming.beginnings _ _ _ _ comes (by rw [isEnter]; rfl)
    have shorter := lies.order.length_lt (by simpa [Span.isEmpty] using taken)
    refine .of_work (congrArg Course.iterations course) (workLeft_lt_of_text ?_ ?_)
    · rw [isAfter, finds.isPlace]
      exact Nat.succ_lt_succ (Nat.lt_of_lt_of_le shorter lies.behind.length_le)
    · rw [stack, Stack.weight_push, CompiledGrammar.weight]
      change _ + state.stack.weight _ ≤ _
      omega
  | left isLeave count bounded course modes =>
    have less := lies.goesOn finds.isPlace (congrArg Course.place course) (by split <;> simp)
    refine .of_work (congrArg Course.iterations course) (workLeft_lt_of_weight less ?_)
    have lighter := @OpenModes.weight_leave _ (searched state place found behind).openModes
      (CompiledGrammar.ascends_of_compile compiled) count bounded
    rwa [← modes] at lighter
  | kept noEnter patient course stack =>
    have less := lies.goesOn finds.isPlace (congrArg Course.place course) (.inr rfl)
    have counted : after.iterations = state.iterations + 1 := congrArg Course.iterations course
    refine ⟨counted, workLeft_le less (by rw [stack]; exact Nat.le_refl _), .inr ?_⟩
    have inside := lies.start.offset_le_bytes
    change ¬ (patience < state.iterations + 1 ∧
      3 * found.span.start.offset < state.iterations + 1) at patient
    rw [counted, patienceFor]
    omega
  | passed isIllegal isEmpty course stack =>
    exact .of_pass lies finds.isPlace (congrArg Course.iterations course)
      (congrArg Course.place course) stack

theorem stepsLeft_lt (inText : StandsIn text state)
    (success : step setting state = .ok (.more after)) :
    stepsLeft setting.grammar (Place.bytes text) after <
      stepsLeft setting.grammar (Place.bytes text) state := by
  obtain ⟨counted, work, less⟩ := step_shortens compiled consuming inText success
  have product := Nat.mul_le_mul_right (setting.grammar.ruleCount + 2) work
  have bounded := rank_le setting.grammar after
  simp only [stepsLeft]
  split <;> split <;> omega

theorem steps_standsIn {states : Nat → RunState} (inText : StandsIn text (states 0)) {count : Nat}
    (steps : ∀ index < count, step setting (states index) = .ok (.more (states (index + 1)))) :
    ∀ index ≤ count, StandsIn text (states index) ∧
      index + stepsLeft setting.grammar (Place.bytes text) (states index) ≤
        stepsLeft setting.grammar (Place.bytes text) (states 0) := by
  intro index bounded
  induction index with
  | zero => exact ⟨inText, by omega⟩
  | succ index ih =>
    obtain ⟨standsIn, fewer⟩ := ih (Nat.le_of_succ_le bounded)
    have stepped := steps index bounded
    have less := stepsLeft_lt compiled consuming standsIn stepped
    exact ⟨step_standsIn compiled standsIn stepped, by omega⟩

theorem steps_break {fuel : Nat} (inText : StandsIn text state)
    (enough : stepsLeft setting.grammar (Place.bytes text) state < fuel) :
    Fails (Breaks setting) (steps setting fuel state) := by
  induction fuel generalizing state with
  | zero => exact absurd enough (Nat.not_lt_zero _)
  | succ fuel ih =>
    intro cause fails
    rw [steps] at fails
    rcases Success.bind_eq_error.mp fails with fails | ⟨progress, stepped, fails⟩
    · exact step_breaks consuming inText cause fails
    · cases progress with
      | done last => cases fails
      | more after =>
        have fewer := stepsLeft_lt compiled consuming inText stepped
        exact ih (step_standsIn compiled inText stepped) (by omega) cause fails

end Consuming

end Compiled

end Run
end Highlighter

import Highlighter.Proofs.Course
import Highlighter.Proofs.Dictionary
import Mathlib.Data.List.Induction

/-!
# What keywords add to the relevance of a run

All that adds to the relevance of a run is listed in order: keywords, modes that end, and embedded
text.  A keyword adds its relevance if it has not occurred more than a fixed number of times in the
list, in whatever modes and tables it was found.
-/
namespace Highlighter

open Compiled (CompiledMode KeywordEntry KeywordTable Segment)
open Grammar (SubLanguage)

namespace Run

/-- What adds to the relevance of a run: a keyword under the key that it is counted by, or
something else. -/
inductive Gain where
  | keyword (key : String) (entry : KeywordEntry)
  | other (relevance : Float)

namespace Gain

def relevance : Gain → Float
  | .keyword _ entry => entry.relevance
  | .other relevance => relevance

def hits (key : String) : Gain → Bool
  | .keyword found _ => found == key
  | .other _ => false

def occurrences (key : String) (gains : List Gain) : Nat :=
  gains.countP (hits key)

/-- Whether a gain behind others counts. -/
def counts (earlier : List Gain) : Gain → Bool
  | .keyword key entry => occurrences key (earlier ++ [.keyword key entry]) ≤ keywordLimit
  | .other _ => true

/-- The gains that count: of each keyword only the first occurrences. -/
def counted (gains : List Gain) : List Gain :=
  gains.zipIdx.filterMap fun entry =>
    if counts (gains.take entry.2) entry.1 then some entry.1 else none

end Gain

/-! ## The gains of a run -/

/-- The keywords of a mode in a text, in order: the words that are found there and stand in the
table of the mode. -/
def keywordsIn (setting : Setting) (mode : CompiledMode) (content : String) : List Gain :=
  match mode.keywords with
  | none => []
  | some table =>
    (table.pattern.findAll true content.toList).filterMap fun found =>
      found.toOption.bind fun found =>
        let word := String.ofList found.span.content
        (table.lookup? word).map
          (.keyword (KeywordTable.normalize setting.grammar.caseInsensitive word))

/-- The relevance of embedded text, if the mode says that it counts. -/
def embeddedGain (mode : CompiledMode) (relevance : Float) : List Gain :=
  if mode.countsEmbedded then [.other relevance] else []

def embedGains (setting : Setting) (state : RunState) (content : String) :
    SubLanguage → List Gain
  | .one language =>
    match setting.embedder.highlight language setting.safe (state.continuations.get? language)
        content with
    | .ok (some (_, outcome)) => embeddedGain (setting.topMode state) outcome.relevance
    | _ => []
  | .candidates candidates =>
    match setting.embedder.detect (if candidates.isEmpty then none else some candidates)
        content with
    | .ok detected => embeddedGain (setting.topMode state) detected.relevance
    | .error _ => []

def flushGains (setting : Setting) (state : RunState) : List Gain :=
  match (setting.topMode state).subLanguage with
  | none => keywordsIn setting (setting.topMode state) state.pending
  | some language =>
    if state.pending.isEmpty then [] else embedGains setting state state.pending language

/-- The keywords in the parts of a match that have no scopes. -/
def partsGains (setting : Setting) (mode : CompiledMode) (found : RuleMatch)
    (parts : List (Nat × Option String)) : List Gain :=
  parts.flatMap fun part =>
    match found.groupText? part.1, part.2 with
    | some content, none => keywordsIn setting mode content
    | _, _ => []

def openGains (setting : Setting) (state : RunState) (number : Nat) (found : RuleMatch) :
    List Gain :=
  match (setting.grammar.mode number).beginScope with
  | some (.parts parts) => partsGains setting (setting.topMode state) found parts
  | _ => []

def enterGains (setting : Setting) (state : RunState) (number : Nat) (found : RuleMatch) :
    List Gain :=
  let mode := setting.grammar.mode number
  if mode.hooks.any (rejects found) then []
  else
    match beginPending setting state mode found.lexeme with
    | .error _ => []
    | .ok begun =>
      (if mode.flags.skip then []
        else flushGains setting
          (if mode.flags.excludeBegin then state.wait found.lexeme else state)) ++
        openGains setting begun number found

def endGains (setting : Setting) (state : RunState) (found : RuleMatch) : List Gain :=
  let mode := setting.topMode state
  match mode.endScope with
  | some (.whole _) => flushGains setting state
  | some (.parts parts) => flushGains setting state ++ partsGains setting mode found parts
  | none =>
    if mode.flags.skip then []
    else flushGains setting
      (if mode.flags.returnEnd || mode.flags.excludeEnd then state else state.wait found.lexeme)

/-- The relevance of the innermost modes, which are closed. -/
def closeGains (setting : Setting) : (count : Nat) → RunState → List Gain
  | 0, _ => []
  | count + 1, state =>
    let mode := setting.topMode state
    (if mode.flags.skip || mode.subLanguage.isSome then [] else [.other mode.score]) ++
      closeGains setting count (closeTop setting state)

def leaveGains (setting : Setting) (state : RunState) (found : RuleMatch) : List Gain :=
  match closedBy? setting found state.stack.top state.stack.below,
      endPending setting state (setting.topMode state) found with
  | .ok (some count), .ok flushed =>
    let closed := closeModes setting count flushed
    endGains setting state found ++ closeGains setting count flushed ++
      match (setting.grammar.mode closed.1).starts with
      | none => []
      | some next => openGains setting closed.2 next found
  | _, _ => []

def applyGains (setting : Setting) (state : RunState) (found : RuleMatch) : List Gain :=
  if endsNothing state found then []
  else
    match found.kind with
    | .enter number => enterGains setting (state.note found) number found
    | .leave => leaveGains setting (state.note found) found
    | .illegal => []

def stepGains (setting : Setting) (state : RunState) : List Gain :=
  match state.place with
  | none => []
  | some place =>
    match (setting.topMode state).matcher.next (startCursor state) place with
    | .ok (some found, behind) => applyGains setting (searched state place found behind) found
    | _ => []

def gainsFrom (setting : Setting) : (fuel : Nat) → RunState → List Gain
  | 0, _ => []
  | fuel + 1, state =>
    match step setting state with
    | .ok (.more next) => stepGains setting state ++ gainsFrom setting fuel next
    | .ok (.done last) => flushGains setting (last.wait (remaining last))
    | .error _ => []

/-- All that adds to the relevance when a text is highlighted, in order. -/
def gains (setting : Setting) (earlier : Option Continuation) (text : String) : List Gain :=
  let start := initialState setting earlier text.toList
  gainsFrom setting
    (stepLimit setting start.stack.size text.toList.length text.utf8ByteSize) start

/-! ## Keeping the tally -/

/-- The relevance of a run and how often it has found each keyword. -/
structure Tally where
  relevance : Float
  hits : Dictionary String Nat

def Tally.add (tally : Tally) : Gain → Tally
  | .other relevance => { tally with relevance := tally.relevance + relevance }
  | .keyword key entry =>
    let count := (tally.hits.get? key).getD 0 + 1
    { relevance :=
        if count ≤ keywordLimit then tally.relevance + entry.relevance else tally.relevance
      hits := tally.hits.insert key count }

end Run

def RunState.tally (state : RunState) : Run.Tally where
  relevance := state.relevance
  hits := state.hits

namespace Run

variable {number : Nat} {content : String}

/-- Between two states the tally changes by what is gained. -/
def Gains (before : RunState) (gains : List Gain) (after : RunState) : Prop :=
  after.tally = gains.foldl Tally.add before.tally

section Gains

variable {before middle after : RunState} {first second : List Gain}

theorem Gains.nothing (same : after.tally = before.tally) : Gains before [] after :=
  same

theorem Gains.append (start : Gains before first middle) (rest : Gains middle second after) :
    Gains before (first ++ second) after := by
  rw [Gains, List.foldl_append, ← start]
  exact rest

theorem Gains.later (start : Gains before first middle) (same : after.tally = middle.tally) :
    Gains before first after :=
  same.trans start

theorem Gains.earlier (rest : Gains middle first after) (same : middle.tally = before.tally) :
    Gains before first after := by
  rw [Gains, ← same]
  exact rest

end Gains

variable {setting : Setting} {state after : RunState} {found : RuleMatch}

/-! ## Texts -/

def segmentGain? (setting : Setting) : Segment → Option Gain
  | .plain _ => none
  | .keyword word entry =>
    some (.keyword (KeywordTable.normalize setting.grammar.caseInsensitive word) entry)

theorem gains_of_segments {table : KeywordTable} {place : Place}
    {words : List (Except Regex.SearchError Regex.Match)} {segments : List Segment}
    (success : Segment.ofMatches table place words = .ok segments) :
    segments.filterMap (segmentGain? setting) = words.filterMap fun found =>
      found.toOption.bind fun found =>
        let word := String.ofList found.span.content
        (table.lookup? word).map
          (.keyword (KeywordTable.normalize setting.grammar.caseInsensitive word)) := by
  induction words generalizing place segments with
  | nil =>
    cases success
    rfl
  | cons found words ih =>
    cases found with
    | error cause => cases success
    | ok found =>
      obtain ⟨behind, isBehind, success⟩ := Success.bind_eq_ok.mp success
      cases success
      rw [List.filterMap_cons, List.filterMap_cons, List.filterMap_cons, ih isBehind]
      cases isEntry : table.lookup? (String.ofList found.span.content) <;>
        simp [segmentGain?, isEntry, Except.toOption]

theorem addSegment_gains (segment : Segment) :
    Gains state (segmentGain? setting segment).toList (addSegment setting state segment) := by
  have counted (word : String) (entry : KeywordEntry) :
      Gains state (segmentGain? setting (.keyword word entry)).toList
        (countKeyword setting state word entry.relevance) := by
    simp only [Gains, segmentGain?, Option.toList_some, List.foldl_cons, List.foldl_nil,
      countKeyword]
    split
    · rename_i isFirst
      simp only [Tally.add, if_pos (show (state.tally.hits.get? _).getD 0 + 1 ≤ _ from isFirst)]
      rfl
    · rename_i isLater
      simp only [Tally.add, if_neg (show ¬(state.tally.hits.get? _).getD 0 + 1 ≤ _ from isLater)]
      rfl
  cases segment with
  | plain content => exact .nothing rfl
  | keyword word entry =>
    simp only [addSegment]
    split
    · exact (counted word entry).later rfl
    · exact (counted word entry).later rfl

theorem addSegments_gains (segments : List Segment) :
    Gains state (segments.filterMap (segmentGain? setting))
      (segments.foldl (addSegment setting) state) := by
  induction segments generalizing state with
  | nil => exact .nothing rfl
  | cons segment segments ih =>
    have parts : (segment :: segments).filterMap (segmentGain? setting) =
        (segmentGain? setting segment).toList ++ segments.filterMap (segmentGain? setting) := by
      cases isGain : segmentGain? setting segment <;> simp [isGain]
    rw [parts]
    exact (addSegment_gains segment).append ih

theorem classify_gains (success : classify setting state content = .ok after) :
    Gains state (keywordsIn setting (setting.topMode state) content) after := by
  cases isTable : (setting.topMode state).keywords with
  | none =>
    simp only [classify, isTable] at success
    cases success
    simp only [keywordsIn, isTable]
    exact .nothing rfl
  | some table =>
    simp only [classify, isTable] at success
    split at success
    · cases success
    · rename_i segments isSegments
      cases success
      simp only [keywordsIn, isTable]
      rw [← gains_of_segments isSegments]
      exact addSegments_gains segments

theorem attach_gains (tree : Scope.Tree) (relevance : Float) (language : Option String) :
    Gains state (embeddedGain (setting.topMode state) relevance)
      (attach setting state tree relevance language) := by
  unfold embeddedGain attach
  split <;> rfl

theorem embed_gains {language : SubLanguage}
    (success : embed setting state content language = .ok after) :
    Gains state (embedGains setting state content language) after := by
  cases language with
  | one language =>
    obtain ⟨result, highlighted, success⟩ := Success.bind_eq_ok.mp success
    simp only [embedGains, highlighted]
    cases result with
    | none =>
      cases success
      exact .nothing rfl
    | some result =>
      cases success
      exact attach_gains _ _ _
  | candidates candidates =>
    obtain ⟨detected, isDetected, success⟩ := Success.bind_eq_ok.mp success
    simp only [embedGains, isDetected]
    cases success
    exact attach_gains _ _ _

theorem flush_gains (success : flush setting state = .ok after) :
    Gains state (flushGains setting state) after := by
  cases isLanguage : (setting.topMode state).subLanguage with
  | none =>
    simp only [flush, isLanguage] at success
    simp only [flushGains, isLanguage]
    exact (classify_gains success).earlier rfl
  | some language =>
    simp only [flush, isLanguage] at success
    simp only [flushGains, isLanguage]
    by_cases isEmpty : state.pending.isEmpty = true
    · rw [if_pos isEmpty] at success
      cases success
      rw [if_pos isEmpty]
      exact .nothing rfl
    · rw [if_neg isEmpty] at success
      rw [if_neg isEmpty]
      exact (embed_gains success).earlier rfl

theorem topMode_of_openModes (same : after.openModes = state.openModes) :
    setting.topMode after = setting.topMode state := by
  have sameStack := congrArg OpenModes.stack same
  exact congrArg (fun stack : Stack => setting.grammar.mode stack.top.mode) sameStack

theorem addParts_gains {parts : List (Nat × Option String)}
    (success : addParts setting found state parts = .ok after) :
    Gains state (partsGains setting (setting.topMode state) found parts) after := by
  induction parts generalizing state with
  | nil =>
    cases success
    exact .nothing rfl
  | cons part parts ih =>
    obtain ⟨number, scope⟩ := part
    rw [addParts] at success
    rw [partsGains, List.flatMap_cons]
    split at success
    · rename_i noText
      simp only [noText]
      exact ih success
    · rename_i content isText
      split at success
      · simp only [isText]
        exact (ih success).earlier rfl
      · obtain ⟨classified, first, success⟩ := Success.bind_eq_ok.mp success
        have rest := ih success
        rw [topMode_of_openModes (classify_adds first).openModes] at rest
        simp only [isText]
        exact (classify_gains first).append rest

/-! ## Modes -/

theorem openMode_gains {capture : Option String}
    (success : openMode setting state number found capture = .ok after) :
    Gains state (openGains setting state number found) after := by
  obtain ⟨begun, begins, rfl⟩ := openMode_ok success
  have opened : (withNode setting state number).tally = state.tally ∧
      setting.topMode (withNode setting state number) = setting.topMode state := by
    unfold withNode
    split <;> exact ⟨rfl, rfl⟩
  unfold openGains
  cases begins with
  | plain scope =>
    rw [scope]
    exact .nothing opened.1
  | whole scope isScope =>
    rw [isScope]
    exact .nothing opened.1
  | parts parts isScope added isAdded =>
    rw [isScope]
    have gains := addParts_gains isAdded
    rw [opened.2] at gains
    exact (gains.earlier opened.1).later rfl

theorem beginPending_gains {lexeme : String}
    (success : beginPending setting state (setting.grammar.mode number) lexeme = .ok after) :
    Gains state
      (if (setting.grammar.mode number).flags.skip then []
        else flushGains setting
          (if (setting.grammar.mode number).flags.excludeBegin then state.wait lexeme else state))
      after := by
  unfold beginPending at success
  split at success
  · rename_i skips
    cases success
    rw [if_pos skips]
    exact .nothing rfl
  · rename_i flushes
    obtain ⟨flushed, first, success⟩ := Success.bind_eq_ok.mp success
    cases success
    rw [if_neg flushes]
    have flushes := (flush_gains first).earlier (show _ = state.tally by split <;> rfl)
    exact flushes.later (by split <;> rfl)

theorem passChar_tally (place : Place) : (state.passChar place).tally = state.tally := by
  unfold RunState.passChar
  split <;> rfl

theorem enter_gains (success : enter setting state number found = .ok after) :
    Gains state (enterGains setting state number found) after := by
  unfold enterGains
  cases isRejected : (setting.grammar.mode number).hooks.any (rejects found) with
  | true =>
    simp only [enter, isRejected, if_true] at success
    cases success
    simp only [isRejected, if_true]
    refine .nothing ?_
    unfold skipEnter
    split
    · exact passChar_tally _
    · rfl
  | false =>
    simp only [enter, isRejected, Bool.false_eq_true, if_false] at success
    obtain ⟨begun, first, success⟩ := Success.bind_eq_ok.mp success
    obtain ⟨opened, second, success⟩ := Success.bind_eq_ok.mp success
    cases success
    simp only [isRejected, Bool.false_eq_true, if_false, first]
    exact ((beginPending_gains first).append (openMode_gains second)).later rfl

theorem endPending_gains
    (success : endPending setting state (setting.topMode state) found = .ok after) :
    Gains state (endGains setting state found) after := by
  rcases isScope : (setting.topMode state).endScope with _ | scope | parts
  · simp only [endPending, isScope] at success
    simp only [endGains, isScope]
    by_cases skips : (setting.topMode state).flags.skip = true
    · rw [if_pos skips] at success
      cases success
      rw [if_pos skips]
      exact .nothing rfl
    · rw [if_neg skips] at success
      obtain ⟨flushed, first, success⟩ := Success.bind_eq_ok.mp success
      cases success
      rw [if_neg skips]
      have flushes := (flush_gains first).earlier (show _ = state.tally by split <;> rfl)
      exact flushes.later (by split <;> rfl)
  · simp only [endPending, isScope] at success
    simp only [endGains, isScope]
    obtain ⟨flushed, first, success⟩ := Success.bind_eq_ok.mp success
    cases success
    exact (flush_gains first).later rfl
  · simp only [endPending, isScope] at success
    simp only [endGains, isScope]
    obtain ⟨flushed, first, success⟩ := Success.bind_eq_ok.mp success
    have rest := addParts_gains success
    rw [topMode_of_openModes (flush_stays first).openModes] at rest
    exact (flush_gains first).append rest

theorem closeTop_gains :
    Gains state
      (if (setting.topMode state).flags.skip || (setting.topMode state).subLanguage.isSome then []
        else [.other (setting.topMode state).score])
      (closeTop setting state) := by
  simp only [closeTop]
  split <;> split <;> rfl

theorem closeModes_gains (setting : Setting) (count : Nat) :
    Gains state (closeGains setting count state) (closeModes setting count state).2 := by
  fun_induction closeModes setting count state with
  | case1 => exact .nothing rfl
  | case2 state =>
    rw [closeGains, closeGains, List.append_nil]
    exact closeTop_gains
  | case3 count state ih =>
    rw [closeGains]
    exact closeTop_gains.append ih

theorem leave_gains (success : leave setting state found = .ok (some after)) :
    Gains state (leaveGains setting state found) after := by
  obtain ⟨count, flushed, started, counted, first, starts, rfl⟩ := leave_ok success
  simp only [leaveGains, counted, first]
  refine Gains.later ?_ (show _ = started.tally from rfl)
  have closed := (endPending_gains first).append (closeModes_gains setting count)
  cases starts with
  | nothing isNone =>
    rw [isNone, List.append_nil]
    exact closed
  | mode next isNext opened success =>
    rw [isNext]
    exact closed.append (openMode_gains success)

/-! ## Steps -/

theorem apply_gains (success : apply setting state found = .ok after) :
    Gains state (applyGains setting state found) after := by
  unfold applyGains
  cases apply_ok success with
  | guarded fires =>
    rw [if_pos fires]
    exact .nothing (passChar_tally _)
  | enter goesOn number isEnter _ success =>
    simp only [if_neg goesOn, isEnter]
    exact (enter_gains success).earlier rfl
  | leave goesOn isLeave _ success =>
    simp only [if_neg goesOn, isLeave]
    exact (leave_gains success).earlier rfl
  | keep goesOn noEnter unclosed =>
    rw [if_neg goesOn]
    cases isKind : found.kind with
    | enter number =>
      rw [isKind] at noEnter
      cases noEnter
    | leave =>
      simp only [leaveGains, leave_none (unclosed isKind)]
      exact .nothing rfl
    | illegal => exact .nothing rfl
  | pass goesOn isIllegal =>
    simp only [if_neg goesOn, isIllegal]
    exact .nothing (passChar_tally _)

theorem step_gains (success : step setting state = .ok (.more after)) :
    Gains state (stepGains setting state) after := by
  obtain ⟨place, found, behind, finds, applied⟩ := step_eq_more.mp success
  simp only [stepGains, finds.isPlace, finds.search]
  exact (apply_gains applied).earlier rfl

/-- Along a whole run the tally changes by what the run gains. -/
theorem steps_gains {fuel : Nat} {last final : RunState} (run : steps setting fuel state = .ok last)
    (flushes : flush setting (last.wait (remaining last)) = .ok final) :
    Gains state (gainsFrom setting fuel state) final := by
  induction fuel generalizing state with
  | zero => cases run
  | succ fuel ih =>
    rw [steps] at run
    obtain ⟨progress, stepped, run⟩ := Success.bind_eq_ok.mp run
    rw [gainsFrom, stepped]
    cases progress with
    | more next => exact (step_gains stepped).append (ih run)
    | done ended =>
      cases run
      cases step_done stepped
      exact (flush_gains flushes).earlier rfl

/-! ## Counting -/

namespace Gain

theorem counted_snoc (gains : List Gain) (gain : Gain) :
    counted (gains ++ [gain]) = counted gains ++ (if counts gains gain then [gain] else []) := by
  have front : (gains.zipIdx.filterMap fun entry =>
      if counts ((gains ++ [gain]).take entry.2) entry.1 then some entry.1 else none) =
        counted gains := by
    refine List.filterMap_congr fun entry member => ?_
    have inside : entry.2 ≤ gains.length := by
      have bound := List.snd_lt_of_mem_zipIdx member
      omega
    rw [List.take_append_of_le_length inside]
  rw [counted, List.zipIdx_append, List.filterMap_append, front]
  congr 1
  simp only [Nat.zero_add, List.zipIdx_singleton, List.filterMap_cons, List.filterMap_nil,
    List.take_left]
  split <;> rename_i isEntry <;> split at isEntry <;> simp_all

theorem occurrences_snoc (key : String) (gains : List Gain) (gain : Gain) :
    occurrences key (gains ++ [gain]) = occurrences key gains + if hits key gain then 1 else 0 := by
  simp [occurrences, List.countP_cons]

theorem occurrences_counted (key : String) (gains : List Gain) :
    occurrences key (counted gains) = min (occurrences key gains) keywordLimit := by
  induction gains using List.reverseRecOn with
  | nil => rfl
  | append_singleton gains gain ih =>
    rw [counted_snoc, occurrences_snoc]
    cases gain with
    | other relevance => simpa [counts, hits, occurrences_snoc] using ih
    | keyword found entry =>
      by_cases same : found = key
      · subst same
        simp only [counts, occurrences_snoc, hits, beq_self_eq_true, if_true, decide_eq_true_eq]
        split
        · rw [occurrences_snoc, ih]
          simp only [hits, beq_self_eq_true, if_true]
          omega
        · rw [List.append_nil, ih]
          omega
      · have other : hits key (.keyword found entry) = false := by simpa [hits] using same
        split
        · rw [occurrences_snoc, ih, other]
          simp
        · rw [List.append_nil, ih, other]
          simp

/-- The tally of gains is the sum of those that count, and the number of occurrences of each
keyword. -/
theorem tally_gains (gains : List Gain) :
    (gains.foldl Tally.add { relevance := 0.0, hits := .empty }).relevance =
        ((counted gains).map relevance).foldl (· + ·) 0.0 ∧
      ∀ key, ((gains.foldl Tally.add { relevance := 0.0, hits := .empty }).hits.get? key).getD 0 =
        occurrences key gains := by
  induction gains using List.reverseRecOn with
  | nil => exact ⟨rfl, fun key => by rw [List.foldl_nil, Dictionary.get?_empty]; rfl⟩
  | append_singleton gains gain ih =>
    obtain ⟨sum, number⟩ := ih
    rw [List.foldl_append, counted_snoc]
    cases gain with
    | other relevance =>
      refine ⟨?_, fun key => ?_⟩
      · simp [Tally.add, counts, sum, Gain.relevance]
      · simpa [Tally.add, occurrences_snoc, hits] using number key
    | keyword found entry =>
      have isCount : occurrences found (gains ++ [.keyword found entry]) =
          occurrences found gains + 1 := by
        simp [occurrences_snoc, hits]
      refine ⟨?_, fun key => ?_⟩
      · simp only [List.foldl_cons, List.foldl_nil, Tally.add, number, counts, isCount,
          decide_eq_true_eq]
        split
        · simp [sum, Gain.relevance]
        · simp [sum]
      · simp only [List.foldl_cons, List.foldl_nil, Tally.add, Dictionary.get?_insert,
          occurrences_snoc, hits, beq_iff_eq]
        by_cases same : found = key
        · subst same
          simp [number]
        · simp [same, number]

end Gain

theorem initialState_tally (earlier : Option Continuation) (text : List Char) :
    (initialState setting earlier text).tally = { relevance := 0.0, hits := .empty } := by
  unfold initialState
  split
  · rfl
  · split <;> rfl

/-- The relevance of a text is the sum, in order, of what its run gains, where a keyword counts
if it has occurred at most `keywordLimit` times up to there: in the whole run, wherever its text
was cut and whichever tables it was found in.  So of each keyword no more occurrences count. -/
theorem relevance_of_gains {earlier : Option Continuation} {text : String} {outcome : Outcome}
    (run : highlight setting earlier text = .ok outcome) :
    outcome.relevance =
        ((Gain.counted (gains setting earlier text)).map Gain.relevance).foldl (· + ·) 0.0 ∧
      ∀ key, Gain.occurrences key (Gain.counted (gains setting earlier text)) =
        min (Gain.occurrences key (gains setting earlier text)) keywordLimit := by
  obtain ⟨last, isLast, run⟩ := Success.bind_eq_ok.mp run
  obtain ⟨final, flushes, run⟩ := Success.bind_eq_ok.mp run
  cases run
  refine ⟨?_, fun key => Gain.occurrences_counted key _⟩
  have tally := steps_gains isLast flushes
  rw [Gains, initialState_tally] at tally
  exact (congrArg Tally.relevance tally).trans (Gain.tally_gains _).1

/-! ### A keyword in two tables -/

def wordsOfKind (words : String) : Grammar.Keywords where
  pattern := some "a"
  classes := .ofList [("keyword", .spaced words)]

/-- Letters are keywords, in parentheses with more relevance. -/
def letters : Grammar.Definition where
  name := "letters"
  caseInsensitive := true
  root :=
    { keywords := some (wordsOfKind "a")
      contains := some [.inline
        { beginPattern := some (.source "\\(")
          endPattern := some (.source "\\)")
          keywords := some (wordsOfKind "A|3") }] }

def letterSetting (grammar : Compiled.CompiledGrammar) : Setting where
  name := "letters"
  grammar := grammar
  ignoreIllegals := true
  safe := true
  embedder :=
    { highlight := fun _ _ _ _ => .ok none, detect := fun _ _ => .error .endlessEmbedding }

theorem relevance_of_gains_letters :
    ∃ grammar outcome, Compiled.CompiledGrammar.compile letters = .ok grammar ∧
      highlight (letterSetting grammar) none "AaaAa(aA)aAa" = .ok outcome ∧
      Gain.occurrences "a" (gains (letterSetting grammar) none "AaaAa(aA)aAa") = 10 ∧
      Gain.occurrences "a" (Gain.counted (gains (letterSetting grammar) none "AaaAa(aA)aAa")) = 7 ∧
      outcome.relevance = ((Gain.counted (gains (letterSetting grammar) none "AaaAa(aA)aAa")).map
        Gain.relevance).foldl (· + ·) 0.0 := by
  have evaluated : ((Compiled.CompiledGrammar.compile letters).toOption.any fun grammar =>
      (highlight (letterSetting grammar) none "AaaAa(aA)aAa").toOption.isSome &&
        Gain.occurrences "a" (gains (letterSetting grammar) none "AaaAa(aA)aAa") == 10) = true := by
    decide +kernel
  simp only [Option.any_eq_true, Success.toOption_eq_some, Bool.and_eq_true,
    Option.isSome_iff_exists, beq_iff_eq] at evaluated
  obtain ⟨grammar, compiled, ⟨outcome, run⟩, ten⟩ := evaluated
  obtain ⟨sum, counts⟩ := relevance_of_gains run
  refine ⟨grammar, outcome, compiled, run, ten, ?_, sum⟩
  rw [counts, ten]
  rfl

end Run
end Highlighter

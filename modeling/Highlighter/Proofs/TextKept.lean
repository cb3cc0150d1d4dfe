import Highlighter.Engine
import Highlighter.Proofs.Course
import Highlighter.Proofs.EmbeddingDepth
import Highlighter.Proofs.Faithful

/-!
# Highlighting keeps the text

What has been added to the tree, what is pending and what remains always make up the text
of a run.  So the tree in the end has the text that was highlighted: nothing of it is lost,
doubled or moved.
-/
namespace Highlighter

open Compiled (CompiledGrammar CompiledMode Segment)
open Regex (Covered)

variable {name text resolved : String} {earlier : Option Continuation} {outcome : Outcome}

/-- The text that a run has passed: what it has added to the tree, and what is pending. -/
def RunState.passed (state : RunState) : String :=
  state.builder.text ++ state.pending

/-- Embedded text is kept. -/
structure Embedder.KeepsText (embedder : Embedder) : Prop where
  highlight : ∀ language safe earlier text name outcome,
    embedder.highlight language safe earlier text = .ok (some (name, outcome)) →
      outcome.tree.text = text
  detect : ∀ candidates text detected,
    embedder.detect candidates text = .ok detected → detected.tree.text = text

/-- Runs in a grammar that lets a text be put together again, and that embeds text only
where it is kept. -/
structure Setting.KeepsText (setting : Setting) : Prop where
  modes : ∀ number, setting.grammar.FaithfulMode (setting.grammar.mode number)
  embedder : setting.embedder.KeepsText

/-- Runs in a grammar whose keywords are found one behind the other. -/
def Setting.ReadsAhead (setting : Setting) : Prop :=
  ∀ number, ∀ table ∈ (setting.grammar.mode number).keywords,
    Regex.compile table.source table.ignoreCase = .ok table.pattern ∧ table.goesAhead

theorem Setting.KeepsText.readsAhead {setting : Setting} (keeps : setting.KeepsText) :
    setting.ReadsAhead :=
  fun number table isTable =>
    ⟨(keeps.modes number).sound.keywords table isTable, (keeps.modes number).keywords table isTable⟩

namespace Run

variable {setting : Setting} {state after : RunState} {found : RuleMatch}

variable {parts : List (Nat × Option String)} {content : String} {first last : Place}

/-! ## Pending text -/

theorem addSegment_text (setting : Setting) (state : RunState) (segment : Segment) :
    (addSegment setting state segment).builder.text = state.builder.text ++ segment.text := by
  cases segment with
  | plain content => simp [addSegment, RunState.addText]
  | keyword word entry =>
    simp only [addSegment, countKeyword, Segment.text_keyword]
    split <;> split <;> simp [RunState.addScoped, RunState.addText, RunState.score]

theorem addSegments_text (setting : Setting) (state : RunState) (segments : List Segment) :
    (segments.foldl (addSegment setting) state).builder.text = state.builder.text ++
      String.ofList (segments.flatMap fun segment => segment.text.toList) := by
  induction segments generalizing state with
  | nil => simp
  | cons segment segments ih =>
    rw [List.foldl_cons, ih, addSegment_text, List.flatMap_cons, String.ofList_append,
      String.ofList_toList, String.append_assoc]

theorem attach_text (setting : Setting) (state : RunState) (tree : Scope.Tree) (relevance : Float)
    (language : Option String) :
    (attach setting state tree relevance language).builder.text =
      state.builder.text ++ tree.text := by
  unfold attach
  simp only
  split <;> simp [RunState.score]

/-! ## Places of a run -/

theorem lexeme_append (order : found.span.start.Precedes found.span.stop) :
    found.lexeme ++ String.ofList found.span.stop.after =
      String.ofList found.span.start.after := by
  rw [RuleMatch.lexeme, ← String.ofList_append, Span.content, Place.upTo_append_after order]

theorem lexeme_or_again (order : found.span.start.Precedes found.span.stop) (returned : Bool) :
    (if returned then "" else found.lexeme) ++
        String.ofList (if returned then found.span.start else found.span.stop).after =
      String.ofList found.span.start.after := by
  cases returned with
  | true => exact String.empty_append
  | false => exact lexeme_append order

theorem passChar_text (state : RunState) (place : Place) :
    (state.passChar place).passed ++ remaining (state.passChar place) =
      state.passed ++ String.ofList place.after := by
  unfold RunState.passChar Place.next?
  cases isAfter : place.after with
  | nil => simp [RunState.passed, remaining]
  | cons char rest =>
    have split : String.ofList (char :: rest) = String.singleton char ++ String.ofList rest := by
      rw [← String.toList_inj]
      simp
    simp only [RunState.passed, remaining, RunState.wait, split, String.append_assoc]

theorem skipEnter_text (state : RunState) (found : RuleMatch) :
    (skipEnter state found).passed ++ remaining (skipEnter state found) =
      state.passed ++ String.ofList found.span.start.after := by
  unfold skipEnter
  split
  · exact passChar_text state found.span.start
  · rfl

theorem closeModes_text (setting : Setting) (count : Nat) (state : RunState) :
    (closeModes setting count state).2.builder.text = state.builder.text ∧
      (closeModes setting count state).2.pending = state.pending := by
  have closeTop_text (state : RunState) :
      (closeTop setting state).builder.text = state.builder.text ∧
        (closeTop setting state).pending = state.pending := by
    unfold closeTop
    simp only
    split <;> split <;> simp [RunState.score]
  induction count, state using closeModes.induct setting with
  | case1 state => exact ⟨rfl, rfl⟩
  | case2 state => exact closeTop_text state
  | case3 count state ih =>
    rwa [(closeTop_text state).1, (closeTop_text state).2] at ih

def partsText (found : RuleMatch) : (numbers : List Nat) → String
  | [] => ""
  | number :: numbers => (found.groupText? number).getD "" ++ partsText found numbers

theorem partsText_of_covered {numbers : List Nat}
    (covered : Covered found.group? first numbers last) :
    partsText found numbers = String.ofList (first.upTo last) := by
  induction numbers generalizing first with
  | nil =>
    obtain rfl : first = last := covered
    simp [partsText, Place.upTo_self]
  | cons number numbers ih =>
    obtain ⟨middle, isSpan, order, covered⟩ := covered
    rw [partsText, ih covered, RuleMatch.groupText?, isSpan,
      ← Place.upTo_append_upTo order covered.precedes, String.ofList_append]
    rfl

section Parts

variable (readsAhead : setting.ReadsAhead)

include readsAhead

theorem classify_addsText (success : classify setting state content = .ok after) :
    after.builder.text = state.builder.text ++ content := by
  unfold classify at success
  split at success
  · cases success
    simp [RunState.addText]
  · rename_i table isTable
    split at success
    · cases success
    · rename_i segments isSegments
      cases success
      obtain ⟨compiled, ahead⟩ := readsAhead state.stack.top.mode table isTable
      have whole := Segment.ofText_text compiled ahead isSegments
      simpa [whole] using addSegments_text setting state segments

theorem addParts_addsText (success : addParts setting found state parts = .ok after) :
    after.builder.text = state.builder.text ++ partsText found (parts.map Prod.fst) := by
  induction parts generalizing state with
  | nil =>
    cases success
    simp [partsText]
  | cons part parts ih =>
    obtain ⟨number, scope⟩ := part
    rw [List.map_cons, partsText]
    rw [addParts] at success
    cases isText : found.groupText? number with
    | none =>
      rw [isText] at success
      simpa using ih success
    | some content =>
      rw [isText] at success
      cases scope with
      | some scope =>
        rw [ih success, Option.getD_some, ← String.append_assoc]
        simp [RunState.addScoped]
      | none =>
        obtain ⟨classified, isClassified, success⟩ := Success.bind_eq_ok.mp success
        rw [ih success, classify_addsText readsAhead isClassified, Option.getD_some,
          String.append_assoc]

end Parts

section Kept

variable (keeps : setting.KeepsText)

variable {number : Nat}

include keeps

theorem embed_text {language : Grammar.SubLanguage}
    (success : embed setting state content language = .ok after) :
    after.builder.text = state.builder.text ++ content := by
  cases language with
  | one language =>
    obtain ⟨embedded, isEmbedded, success⟩ := Success.bind_eq_ok.mp success
    cases embedded with
    | none =>
      cases success
      simp [RunState.addText]
    | some entry =>
      obtain ⟨name, outcome⟩ := entry
      cases success
      rw [← keeps.embedder.highlight _ _ _ _ _ _ isEmbedded]
      exact attach_text _ _ _ _ _
  | candidates candidates =>
    obtain ⟨detected, isDetected, success⟩ := Success.bind_eq_ok.mp success
    cases success
    rw [← keeps.embedder.detect _ _ _ isDetected]
    exact attach_text _ _ _ _ _

theorem flush_text (success : flush setting state = .ok after) :
    after.builder.text = state.passed := by
  unfold flush at success
  simp only at success
  split at success
  · exact (classify_addsText keeps.readsAhead success).trans rfl
  · split at success
    · rename_i isEmpty
      cases success
      have nothing : state.pending = "" := by simpa using isEmpty
      simp [RunState.passed, nothing]
    · exact (embed_text keeps success).trans rfl

theorem addParts_text (covered : Covered found.group? first (parts.map Prod.fst) last)
    (success : addParts setting found state parts = .ok after) :
    after.builder.text = state.builder.text ++ String.ofList (first.upTo last) := by
  rw [← partsText_of_covered covered]
  exact addParts_addsText keeps.readsAhead success

/-! ## Beginnings and ends -/

theorem openMode_text {capture : Option String}
    (beginning : ∀ parts, (setting.grammar.mode number).beginScope = some (.parts parts) →
      state.pending = found.lexeme ∧
        Covered found.group? found.span.start (parts.map Prod.fst) found.span.stop)
    (success : openMode setting state number found capture = .ok after) :
    after.passed = state.passed := by
  obtain ⟨begun, begins, rfl⟩ := openMode_ok success
  have opened : (withNode setting state number).builder.text = state.builder.text ∧
      (withNode setting state number).pending = state.pending := by
    unfold withNode
    split <;> simp
  cases begins with
  | plain => simp only [RunState.passed, opened]
  | whole scope isScope =>
    simp [RunState.passed, RunState.addScoped, opened]
  | parts parts isScope added isAdded =>
    obtain ⟨isPending, covered⟩ := beginning parts isScope
    have addedText := addParts_text keeps covered isAdded
    simp only [RunState.passed, addedText, opened.1, isPending, String.append_empty]
    rfl

theorem beginPending_text {lexeme : String}
    (success : beginPending setting state (setting.grammar.mode number) lexeme = .ok after) :
    after.passed = state.passed ++
        (if (setting.grammar.mode number).flags.returnBegin then "" else lexeme) ∧
      ∀ parts, (setting.grammar.mode number).beginScope = some (.parts parts) →
        after.pending = lexeme := by
  have mode := keeps.modes number
  unfold beginPending at success
  split at success
  · rename_i skips
    cases success
    have notReturned : (setting.grammar.mode number).flags.returnBegin = false := by
      rw [← Bool.not_eq_true]
      intro returned
      simp [(mode.returnedBegin returned).1] at skips
    refine ⟨by simp [RunState.passed, RunState.wait, notReturned, String.append_assoc], ?_⟩
    intro parts isParts
    simp [(mode.sound.beginParts parts isParts).1] at skips
  · obtain ⟨flushed, isFlushed, success⟩ := Success.bind_eq_ok.mp success
    have added := flush_text keeps isFlushed
    have nothing := flush_pending isFlushed
    cases success
    cases excluded : (setting.grammar.mode number).flags.excludeBegin with
    | true =>
      have notReturned : (setting.grammar.mode number).flags.returnBegin = false := by
        rw [← Bool.not_eq_true]
        intro returned
        simp [(mode.returnedBegin returned).2] at excluded
      rw [excluded] at added
      constructor
      · simp [RunState.passed, added, nothing, RunState.wait, notReturned, String.append_assoc]
      · intro parts isParts
        simp [(mode.sound.beginParts parts isParts).2.1] at excluded
    | false =>
      rw [excluded] at added
      cases returned : (setting.grammar.mode number).flags.returnBegin with
      | true =>
        constructor
        · simp [RunState.passed, added, nothing]
        · intro parts isParts
          simp [(mode.sound.beginParts parts isParts).2.2] at returned
      | false => simp [RunState.passed, added]

theorem enter_text (placed : found.span.start.Precedes found.span.stop)
    (covered : ∀ parts,
      Compiled.partNumbers? (setting.grammar.mode number).beginScope = some parts →
        Covered found.group? found.span.start parts found.span.stop)
    (success : enter setting state number found = .ok after) :
    after.passed ++ remaining after =
      state.passed ++ String.ofList found.span.start.after := by
  rcases enter_ok success with ⟨-, rfl⟩ | ⟨begun, opened, isBegun, isOpened, rfl⟩
  · exact skipEnter_text state found
  · obtain ⟨begunText, begunPending⟩ := beginPending_text keeps isBegun
    have openedText := openMode_text keeps (fun parts isParts =>
      ⟨begunPending parts isParts, covered _ (by rw [isParts]; rfl)⟩) isOpened
    rw [← lexeme_or_again placed (setting.grammar.mode number).flags.returnBegin,
      ← String.append_assoc, ← begunText, ← openedText]
    rfl

theorem endPending_text
    (covered : ∀ parts, Compiled.partNumbers? (setting.grammar.mode number).endScope = some parts →
      Covered found.group? found.span.start parts found.span.stop)
    (success : endPending setting state (setting.grammar.mode number) found = .ok after) :
    after.passed = state.passed ++
      (if (setting.grammar.mode number).flags.returnEnd then "" else found.lexeme) := by
  have mode := keeps.modes number
  unfold endPending at success
  have notReturned (reason : (setting.grammar.mode number).flags.returnEnd → False) :
      (setting.grammar.mode number).flags.returnEnd = false := by
    simpa using reason
  split at success
  · rename_i scope isWhole
    obtain ⟨flushed, isFlushed, success⟩ := Success.bind_eq_ok.mp success
    have added := flush_text keeps isFlushed
    have nothing := flush_pending isFlushed
    cases success
    have isNot := notReturned fun returned => by
      simpa [isWhole, Compiled.isWhole] using (mode.returnedEnd returned).2.2
    simp [RunState.passed, RunState.addScoped, added, nothing, isNot]
  · rename_i parts isParts
    obtain ⟨flushed, isFlushed, success⟩ := Success.bind_eq_ok.mp success
    have added := flush_text keeps isFlushed
    have nothing := flush_pending isFlushed
    have addedParts := addParts_text keeps (covered _ (by rw [isParts]; rfl)) success
    simp only [RunState.passed, addedParts, (addParts_adds success).pending, added, nothing,
      (mode.sound.endParts parts isParts).2.2, String.append_empty]
    rfl
  · split at success
    · rename_i skips
      cases success
      have isNot := notReturned fun returned => by
        simp [(mode.returnedEnd returned).1] at skips
      simp [RunState.passed, RunState.wait, isNot, String.append_assoc]
    · obtain ⟨flushed, isFlushed, success⟩ := Success.bind_eq_ok.mp success
      have added := flush_text keeps isFlushed
      have nothing := flush_pending isFlushed
      cases success
      cases excluded : (setting.grammar.mode number).flags.excludeEnd with
      | true =>
        have isNot := notReturned fun returned => by
          simp [(mode.returnedEnd returned).2.1] at excluded
        simp [RunState.passed, added, excluded, isNot]
      | false =>
        cases returned : (setting.grammar.mode number).flags.returnEnd with
        | true => simp [RunState.passed, added, nothing, excluded, returned]
        | false =>
          simp [RunState.passed, RunState.wait, added, nothing, excluded, returned,
            String.append_assoc]

theorem leave_text
    (placed : found.span.start.Precedes found.span.stop)
    (covered : ∀ parts, Compiled.partNumbers? (setting.topMode state).endScope = some parts →
      Covered found.group? found.span.start parts found.span.stop)
    (success : leave setting state found = .ok (some after)) :
    after.passed ++ remaining after =
      state.passed ++ String.ofList found.span.start.after := by
  obtain ⟨count, flushed, started, -, isFlushed, starts, rfl⟩ := leave_ok success
  have flushedText : flushed.passed = state.passed ++
      (if (setting.topMode state).flags.returnEnd then "" else found.lexeme) :=
    endPending_text keeps covered isFlushed
  have startedText : started.passed = flushed.passed := by
    have closed := closeModes_text setting count flushed
    rw [RunState.passed, RunState.passed, ← closed.1, ← closed.2]
    cases starts with
    | nothing => rfl
    | mode next isNext opened isOpened =>
      refine openMode_text keeps (fun parts isParts => ?_) isOpened
      have noParts := (keeps.modes _).starts next isNext
      rw [isParts] at noParts
      cases noParts
  rw [← lexeme_or_again placed (setting.topMode state).flags.returnEnd, ← String.append_assoc,
    ← flushedText, ← startedText]
  rfl

/-! ## Runs -/

theorem step_text (success : step setting state = .ok (.more after)) :
    after.passed ++ remaining after = state.passed ++ remaining state := by
  obtain ⟨place, found, behind, finds, applied⟩ := step_eq_more.mp success
  obtain ⟨inFront, placed, covered⟩ :=
    (keeps.modes state.stack.top.mode).rules _ place found behind finds.search
  have notedText : ((searched state place found behind).note found).passed ++
      String.ofList found.span.start.after = state.passed ++ remaining state := by
    simp only [RunState.note, searched, RunState.passed, RunState.wait, remaining, finds.isPlace,
      String.append_assoc]
    rw [← String.ofList_append, Place.upTo_append_after inFront]
  rw [← notedText]
  cases apply_ok applied with
  | guarded | pass => exact passChar_text _ _
  | keep =>
    rw [← lexeme_append placed, ← String.append_assoc]
    simp only [RunState.passed, RunState.wait, remaining, String.append_assoc]
  | enter _ child isEnter after isEntered =>
    refine enter_text keeps placed (fun parts isParts => covered parts ?_) isEntered
    rw [isEnter]
    exact isParts
  | leave _ isLeave after isLeft =>
    refine leave_text keeps placed (fun parts isParts => covered parts ?_) isLeft
    rw [isLeave]
    exact isParts

theorem steps_text {fuel : Nat} (success : steps setting fuel state = .ok after) :
    after.passed ++ remaining after = state.passed ++ remaining state :=
  @steps_keep setting state after fuel
    (fun other => other.passed ++ remaining other = state.passed ++ remaining state)
    (fun _ _ same stepped => (step_text keeps stepped).trans same) rfl success

omit keeps in
theorem reopen_text (setting : Setting) (builder : Scope.Builder) (frames : List Frame) :
    (reopen setting builder frames).text = builder.text := by
  induction frames generalizing builder with
  | nil => rfl
  | cons frame frames ih =>
    rw [reopen]
    split
    · rw [ih, Scope.Builder.text_openNode]
    · exact ih builder

omit keeps in
theorem initialState_text (setting : Setting) (earlier : Option Continuation) (text : String) :
    (initialState setting earlier text.toList).passed ++
      remaining (initialState setting earlier text.toList) = text := by
  unfold initialState
  simp only
  split
  · simp [RunState.passed, remaining, Place.start]
  · split <;> simp [RunState.passed, remaining, Place.start, reopen_text]

theorem highlight_text (success : highlight setting earlier text = .ok outcome) :
    outcome.tree.text = text := by
  obtain ⟨last, stepped, success⟩ := Success.bind_eq_ok.mp success
  obtain ⟨final, flushed, success⟩ := Success.bind_eq_ok.mp success
  cases success
  calc final.builder.finish.text = final.builder.text := Scope.Builder.text_finish _
    _ = (last.wait (remaining last)).passed := flush_text keeps flushed
    _ = last.passed ++ remaining last := by
        simp only [RunState.passed, RunState.wait, String.append_assoc]
    _ = _ := steps_text keeps stepped
    _ = text := initialState_text setting earlier text

end Kept

end Run

/-! ## Engines -/

namespace Ranking

variable {α : Type} {precedes : α → α → Bool} {item : α}

theorem mem_of_mem_insertBackward {other : α} {ranked : List α}
    (member : other ∈ insertBackward precedes item ranked) : other = item ∨ other ∈ ranked := by
  induction ranked with
  | nil => simpa [insertBackward] using member
  | cons last earlier ih =>
    rw [insertBackward] at member
    split at member
    · rcases List.mem_cons.mp member with rfl | later
      · exact .inr List.mem_cons_self
      · exact (ih later).imp_right (List.mem_cons_of_mem _)
    · simpa using member

theorem mem_of_mem_insertAll {items ranked : List α}
    (member : item ∈ items.foldl (fun ranked item => insertBackward precedes item ranked) ranked) :
    item ∈ items ∨ item ∈ ranked := by
  induction items generalizing ranked with
  | nil => exact .inr member
  | cons first items ih =>
    rcases ih member with later | earlier
    · exact .inl (List.mem_cons_of_mem _ later)
    · rcases mem_of_mem_insertBackward earlier with rfl | before
      · exact .inl List.mem_cons_self
      · exact .inr before

theorem mem_of_mem_rank {items : List α} (member : item ∈ rank precedes items) : item ∈ items := by
  rcases mem_of_mem_insertAll (List.mem_reverse.mp member) with isItem | isNone
  · exact isItem
  · cases isNone

end Ranking

theorem Registry.mem_of_entry? {registry : Registry} {entry : RegistryEntry}
    (found : registry.entry? name = some (resolved, entry)) :
    ∃ key, (key, entry) ∈ registry.grammars.entries := by
  have listed {key : String} (isEntry : registry.grammars.get? key = some entry) :
      ∃ key, (key, entry) ∈ registry.grammars.entries := by
    obtain ⟨⟨key, value⟩, isFound, rfl⟩ := Option.map_eq_some_iff.mp isEntry
    exact ⟨key, List.mem_of_find?_eq_some isFound⟩
  unfold entry? at found
  simp only at found
  split at found
  · rename_i isEntry
    cases found
    exact listed isEntry
  · obtain ⟨target, -, found⟩ := Option.bind_eq_some_iff.mp found
    obtain ⟨also, isEntry, found⟩ := Option.bind_eq_some_iff.mp found
    cases found
    exact listed isEntry

namespace Engine

variable {engine : Engine}

variable {result : Highlighted} {safe : Bool}

/-- Every grammar of an engine lets a text be put together again. -/
def IsFaithful (engine : Engine) : Prop :=
  ∀ entry ∈ engine.registry.grammars.entries, ∀ grammar,
    CompiledGrammar.compile entry.2.definition = .ok grammar → grammar.isFaithful

theorem resolve?_faithful (faithful : engine.IsFaithful) {grammar : CompiledGrammar}
    (success : engine.resolve? name = .ok (some (resolved, grammar))) :
    ∀ number, grammar.FaithfulMode (grammar.mode number) := by
  unfold resolve? at success
  split at success
  · cases success
  · rename_i entryName entry isEntry
    split at success
    · cases success
    · rename_i isGrammar
      cases success
      rw [entry.compiled_eq] at isGrammar
      obtain ⟨key, member⟩ := Registry.mem_of_entry? isEntry
      exact CompiledGrammar.faithfulMode isGrammar (faithful _ member _ isGrammar)

theorem settle_text {ran : Except Failure Outcome}
    (success : engine.settle text name safe ran = .ok result)
    (kept : ∀ outcome, ran = .ok outcome → outcome.tree.text = text) :
    result.tree.text = text := by
  unfold settle at success
  split at success
  · rename_i outcome
    cases success
    exact kept outcome rfl
  · split at success
    · split at success
      · cases success
        exact Scope.Tree.text_plain text
      · cases success
        exact Scope.Tree.text_plain text
      · cases success
        exact Scope.Tree.text_plain text
      · cases success
    · cases success

section Faithful

variable (faithful : engine.IsFaithful)

variable {embedder : Embedder}

include faithful

theorem highlightWith_text (keeps : embedder.KeepsText) {options : Options}
    (success : engine.highlightWith embedder text name options = .ok result) :
    result.tree.text = text := by
  obtain ⟨resolved, isResolved, success⟩ := Success.bind_eq_ok.mp success
  cases resolved with
  | none => cases success
  | some entry =>
    obtain ⟨name, grammar⟩ := entry
    have modes := resolve?_faithful faithful isResolved
    refine settle_text success fun outcome isOutcome => ?_
    exact Run.highlight_text ⟨modes, keeps⟩ isOutcome

theorem detectWith_text (keeps : embedder.KeepsText) (text : String)
    (candidates : Option (List String)) :
    (engine.detectWith embedder text candidates).best.tree.text = text ∧
      ∀ second ∈ (engine.detectWith embedder text candidates).runnerUp,
        second.tree.text = text := by
  have each : ∀ result ∈ engine.resultsWith embedder text candidates,
      result.tree.text = text := by
    intro result member
    simp only [resultsWith, List.mem_cons, List.mem_filterMap] at member
    rcases member with rfl | ⟨name, -, isResult⟩
    · exact Scope.Tree.text_plain text
    · exact highlightWith_text faithful keeps (Success.toOption_eq_some.mp isResult)
  have ranked : ∀ result ∈ Ranking.rank engine.precedes
      (engine.resultsWith embedder text candidates), result.tree.text = text :=
    fun result member => each result (Ranking.mem_of_mem_rank member)
  unfold detectWith bestOf
  cases isRanked : Ranking.rank engine.precedes
      (engine.resultsWith embedder text candidates) with
  | nil =>
    refine ⟨Scope.Tree.text_plain text, ?_⟩
    rintro second ⟨⟩
  | cons best rest =>
    rw [isRanked] at ranked
    refine ⟨ranked best List.mem_cons_self, fun second isSecond => ?_⟩
    exact ranked second (List.mem_cons_of_mem _ (List.mem_of_mem_head? isSecond))

theorem embed_text (keeps : embedder.KeepsText) {language : String}
    (success : engine.embed embedder language safe earlier text = .ok (some (name, outcome))) :
    outcome.tree.text = text := by
  obtain ⟨resolved, isResolved, success⟩ := Success.bind_eq_ok.mp success
  cases resolved with
  | none => cases success
  | some entry =>
    obtain ⟨found, isOutcome, success⟩ := Success.bind_eq_ok.mp success
    cases success
    exact Run.highlight_text ⟨resolve?_faithful faithful isResolved, keeps⟩ isOutcome

theorem embedder_keepsText (depth : Nat) : (engine.embedder depth).KeepsText := by
  induction depth with
  | zero =>
    constructor
    · rintro _ _ _ _ _ _ ⟨⟩
    · rintro _ _ _ ⟨⟩
  | succ depth ih =>
    rw [embedder]
    constructor
    · intro language safe earlier text name outcome success
      exact embed_text faithful ih success
    · intro candidates text detected success
      rw [detectEmbedded_ok success]
      exact (detectWith_text faithful ih text candidates).1

end Faithful

/-- A grammar with one mode, which begins with two parts that have scopes of their own. -/
def partsGrammar (parts : List String) : Grammar.Definition where
  name := "parts"
  root :=
    { contains := some [.inline
        { beginPattern := some (.sequence parts)
          beginScope := some (.groups (.ofList [(1, "first"), (2, "second")])) }] }

def partsEngine (parts : List String) : Engine where
  registry := Registry.register {} "parts" (partsGrammar parts) []

end Engine
end Highlighter

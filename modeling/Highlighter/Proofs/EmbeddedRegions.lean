import Highlighter.Proofs.Agreement
import Highlighter.Proofs.Turns

/-!
# Regions of embedded text

A mode can hand its text to another grammar.  The regions that are handed over under one name
are highlighted as one text would be, each from where the one before has stopped.  Where a
grammar has several names, the regions under one of them know nothing of those under another.
-/
namespace Highlighter

open Compiled (CompiledMode)

variable {known : Dictionary String Continuation} {language content text : String}
  {earlier : Option Continuation} {outcome : Outcome}

/-- A piece of text that was handed to another grammar: the name it was asked for by, the
text, and the grammar with what it made of the text. -/
structure Region where
  language : String
  content : String
  grammar : String
  outcome : Outcome

namespace Run

variable {setting : Setting} {state after : RunState} {found : RuleMatch}

variable {region : Option Region}

/-! ## What is handed over -/

/-- What a mode with one other language hands over when its text is flushed. -/
def handed? (setting : Setting) (state : RunState) : Option Region :=
  match (setting.topMode state).subLanguage with
  | some (.one language) =>
    if state.pending.isEmpty then none
    else
      match setting.embedder.highlight language setting.safe
          (state.continuations.get? language) state.pending with
      | .ok (some (grammar, outcome)) =>
        some { language, content := state.pending, grammar, outcome }
      | _ => none
  | _ => none

/-- The state in which applying a match flushes the text of the innermost mode. -/
def flushing? (setting : Setting) (state : RunState) (found : RuleMatch) : Option RunState :=
  let state := state.note found
  match found.kind with
  | .enter number =>
    let mode := setting.grammar.mode number
    if mode.hooks.any (rejects found) || mode.flags.skip then none
    else some (if mode.flags.excludeBegin then state.wait found.lexeme else state)
  | .leave =>
    match closedBy? setting found state.stack.top state.stack.below with
    | .ok (some _) =>
      let mode := setting.topMode state
      if mode.endScope.isSome then some state
      else if mode.flags.skip then none
      else
        some (if mode.flags.returnEnd || mode.flags.excludeEnd then state
          else state.wait found.lexeme)
    | _ => none
  | .illegal => none

def handedAt? (setting : Setting) (state : RunState) (found : RuleMatch) : Option Region :=
  if endsNothing state found then none
  else (flushing? setting state found).bind (handed? setting)

def handedBy? (setting : Setting) (state : RunState) : Option Region :=
  match state.place with
  | none => none
  | some place =>
    match (setting.topMode state).matcher.next (startCursor state) place with
    | .ok (some found, behind) => handedAt? setting (searched state place found behind) found
    | _ => none

def regionsFrom (setting : Setting) : (fuel : Nat) → RunState → List Region
  | 0, _ => []
  | fuel + 1, state =>
    match step setting state with
    | .ok (.more next) => (handedBy? setting state).toList ++ regionsFrom setting fuel next
    | .ok (.done last) => (handed? setting (last.wait (remaining last))).toList
    | .error _ => []

/-- What highlighting a text hands over to other grammars, in order. -/
def regions (setting : Setting) (earlier : Option Continuation) (text : String) : List Region :=
  let start := initialState setting earlier text.toList
  regionsFrom setting
    (stepLimit setting start.stack.size text.toList.length text.utf8ByteSize) start

/-! ## Where the other grammars have stopped -/

def keep (known : Dictionary String Continuation) (region : Option Region) :
    Dictionary String Continuation :=
  match region with
  | none => known
  | some region => known.insert region.language region.outcome.continuation

/-- A mode hands a region over: it flushes text for another language, the grammar of that
language goes on in it from where it has stopped earlier, and the tree is attached. -/
structure HandsOver (setting : Setting) (earlier : Option Continuation) (region : Region) :
    Prop where
  nonempty : region.content.isEmpty = false
  highlighted : setting.embedder.highlight region.language setting.safe earlier region.content =
    .ok (some (region.grammar, region.outcome))
  attached : ∃ before after, before.pending = region.content ∧
    (setting.topMode before).subLanguage = some (.one region.language) ∧
    flush setting before = .ok after ∧
    after.builder = before.builder.addTree region.outcome.tree (some region.grammar)

/-- A region is handed over, or none is, and the state after that tells where it has
stopped. -/
structure Keeps (setting : Setting) (known : Dictionary String Continuation)
    (region : Option Region) (after : RunState) : Prop where
  continuations : after.continuations = keep known region
  handsOver : ∀ handed ∈ region, HandsOver setting (known.get? handed.language) handed

theorem Keeps.nothing (same : after.continuations = known) : Keeps setting known none after :=
  ⟨same, nofun⟩

theorem Keeps.later {later : RunState} (keeps : Keeps setting known region after)
    (same : later.continuations = after.continuations) : Keeps setting known region later :=
  ⟨same.trans keeps.continuations, keeps.handsOver⟩

theorem embed_keeps (isPending : state.pending = content)
    (isLanguage : (setting.topMode state).subLanguage = some (.one language))
    (nonempty : content.isEmpty = false)
    (success : embed setting { state with pending := "" } content (.one language) = .ok after) :
    Keeps setting state.continuations (handed? setting state) after := by
  subst isPending
  obtain ⟨result, highlighted, attached⟩ := Success.bind_eq_ok.mp success
  cases result with
  | none =>
    have nothing : handed? setting state = none := by
      simp only [handed?, isLanguage, nonempty, highlighted, Bool.false_eq_true, if_false]
    cases attached
    rw [nothing]
    exact .nothing rfl
  | some result =>
    obtain ⟨grammar, outcome⟩ := result
    have isHanded : handed? setting state =
        some { language, content := state.pending, grammar, outcome } := by
      simp only [handed?, isLanguage, nonempty, highlighted, Bool.false_eq_true, if_false]
    have flushes : flush setting state = .ok after := by
      simp only [flush, isLanguage, nonempty, Bool.false_eq_true, if_false]
      exact success
    cases attached
    rw [isHanded]
    refine ⟨?_, ?_⟩
    · simp only [attach]
      split <;> rfl
    · rintro _ ⟨⟩
      refine ⟨nonempty, highlighted, state, _, rfl, isLanguage, flushes, ?_⟩
      simp only [attach]
      split <;> rfl

theorem flush_keeps (success : flush setting state = .ok after) :
    Keeps setting state.continuations (handed? setting state) after := by
  have flushes := success
  simp only [flush] at success
  split at success
  · rename_i noLanguage
    have nothing : handed? setting state = none := by simp only [handed?, noLanguage]
    rw [nothing]
    exact .nothing (classify_adds success).continuations
  · rename_i language isLanguage
    split at success
    · rename_i isEmpty
      have nothing : handed? setting state = none := by
        simp only [handed?, isLanguage, isEmpty, if_true]
        split <;> rfl
      cases success
      rw [nothing]
      exact .nothing rfl
    · rename_i nonempty
      cases language with
      | one language =>
        exact embed_keeps rfl isLanguage (Bool.eq_false_of_not_eq_true nonempty) success
      | candidates candidates =>
        have nothing : handed? setting state = none := by simp only [handed?, isLanguage]
        obtain ⟨detected, -, success⟩ := Success.bind_eq_ok.mp success
        cases success
        rw [nothing]
        refine .nothing ?_
        simp only [attach]
        split <;> rfl

/-! ## Applying a match -/

theorem passChar_continuations (place : Place) :
    (state.passChar place).continuations = state.continuations := by
  unfold RunState.passChar
  split <;> rfl

theorem skipEnter_continuations :
    (skipEnter state found).continuations = state.continuations := by
  unfold skipEnter
  split
  · exact passChar_continuations _
  · rfl

theorem enter_keeps {child : Nat} (isEnter : found.kind = .enter child)
    (success : enter setting (state.note found) child found = .ok after) :
    Keeps setting state.continuations
      ((flushing? setting state found).bind (handed? setting)) after := by
  simp only [flushing?, isEnter]
  cases isRejected : (setting.grammar.mode child).hooks.any (rejects found) with
  | true =>
    simp only [enter, isRejected, if_true] at success
    cases success
    exact .nothing skipEnter_continuations
  | false =>
    simp only [enter, isRejected, Bool.false_eq_true, if_false] at success
    obtain ⟨begun, begins, success⟩ := Success.bind_eq_ok.mp success
    obtain ⟨opened, opens, success⟩ := Success.bind_eq_ok.mp success
    cases success
    have kept : opened.continuations = begun.continuations :=
      congrArg Prod.snd (openMode_kept opens)
    refine Keeps.later ?_ kept
    unfold beginPending at begins
    cases isSkip : (setting.grammar.mode child).flags.skip with
    | true =>
      rw [isSkip, if_pos rfl] at begins
      cases begins
      exact .nothing rfl
    | false =>
      rw [isSkip, if_neg Bool.false_ne_true] at begins
      obtain ⟨flushed, flushes, begins⟩ := Success.bind_eq_ok.mp begins
      cases begins
      have keeps := flush_keeps flushes
      have same : (if (setting.grammar.mode child).flags.excludeBegin then
          (state.note found).wait found.lexeme else state.note found).continuations =
            state.continuations := by
        split <;> rfl
      rw [same] at keeps
      exact keeps.later (by split <;> rfl)

theorem endPending_keeps {ended : RunState} {count : Nat} (isLeave : found.kind = .leave)
    (closed : closedBy? setting found (state.note found).stack.top (state.note found).stack.below =
      .ok (some count))
    (success : endPending setting (state.note found) (setting.topMode (state.note found)) found =
      .ok ended) :
    Keeps setting state.continuations
      ((flushing? setting state found).bind (handed? setting)) ended := by
  simp only [flushing?, isLeave, closed]
  unfold endPending at success
  cases isScope : (setting.topMode (state.note found)).endScope with
  | some scope =>
    rw [isScope] at success
    cases scope with
    | whole scope =>
      obtain ⟨flushed, flushes, success⟩ := Success.bind_eq_ok.mp success
      cases success
      exact (flush_keeps flushes).later rfl
    | parts parts =>
      obtain ⟨flushed, flushes, success⟩ := Success.bind_eq_ok.mp success
      exact (flush_keeps flushes).later (addParts_adds success).continuations
  | none =>
    rw [isScope] at success
    cases isSkip : (setting.topMode (state.note found)).flags.skip with
    | true =>
      simp only [isSkip, if_true] at success
      cases success
      exact .nothing rfl
    | false =>
      simp only [isSkip, Bool.false_eq_true, if_false] at success
      obtain ⟨flushed, flushes, success⟩ := Success.bind_eq_ok.mp success
      cases success
      have keeps := flush_keeps flushes
      have same : (if (setting.topMode (state.note found)).flags.returnEnd ||
            (setting.topMode (state.note found)).flags.excludeEnd then state.note found
          else (state.note found).wait found.lexeme).continuations = state.continuations := by
        split <;> rfl
      rw [same] at keeps
      exact keeps.later (by split <;> rfl)

theorem leave_keeps (isLeave : found.kind = .leave)
    (success : leave setting (state.note found) found = .ok (some after)) :
    Keeps setting state.continuations
      ((flushing? setting state found).bind (handed? setting)) after := by
  obtain ⟨count, ended, started, closed, first, starts, rfl⟩ := leave_ok success
  have kept : started.continuations = ended.continuations :=
    congrArg Prod.snd (starts.kept.trans (closeModes_kept _))
  exact (endPending_keeps isLeave closed first).later kept

theorem apply_keeps (success : apply setting state found = .ok after) :
    Keeps setting state.continuations (handedAt? setting state found) after := by
  unfold handedAt?
  cases apply_ok success with
  | guarded fires =>
    rw [if_pos fires]
    exact .nothing (passChar_continuations _)
  | enter goesOn child isEnter _ success =>
    rw [if_neg goesOn]
    exact enter_keeps isEnter success
  | leave goesOn isLeave _ success =>
    rw [if_neg goesOn]
    exact leave_keeps isLeave success
  | keep goesOn noEnter unclosed =>
    have nothing : flushing? setting state found = none := by
      unfold flushing?
      cases isKind : found.kind with
      | enter child =>
        rw [isKind] at noEnter
        cases noEnter
      | leave => simp only [leave_none (unclosed isKind)]
      | illegal => rfl
    rw [if_neg goesOn, nothing]
    exact .nothing rfl
  | pass goesOn isIllegal =>
    simp only [if_neg goesOn, flushing?, isIllegal]
    exact .nothing (passChar_continuations _)

/-! ## Runs -/

theorem step_keeps (success : step setting state = .ok (.more after)) :
    Keeps setting state.continuations (handedBy? setting state) after := by
  obtain ⟨place, found, behind, finds, applied⟩ := step_eq_more.mp success
  have isHanded : handedBy? setting state =
      handedAt? setting (searched state place found behind) found := by
    simp only [handedBy?, finds.isPlace, finds.search]
  rw [isHanded]
  exact apply_keeps applied

/-- Regions that are handed over one after another, each from where the last text of its
language has stopped. -/
def HandOver (setting : Setting) :
    (known : Dictionary String Continuation) → List Region → Prop
  | _, [] => True
  | known, region :: regions =>
    HandsOver setting (known.get? region.language) region ∧
      HandOver setting (keep known (some region)) regions

theorem Keeps.handOver {regions : List Region} (keeps : Keeps setting known region after)
    (others : HandOver setting after.continuations regions) :
    HandOver setting known (region.toList ++ regions) := by
  rw [keeps.continuations] at others
  cases region with
  | none => exact others
  | some region => exact ⟨keeps.handsOver region rfl, others⟩

theorem regionsFrom_handOver {fuel : Nat} {last final : RunState}
    (run : steps setting fuel state = .ok last)
    (flushes : flush setting (last.wait (remaining last)) = .ok final) :
    HandOver setting state.continuations (regionsFrom setting fuel state) := by
  induction fuel generalizing state with
  | zero => cases run
  | succ fuel ih =>
    rw [steps] at run
    obtain ⟨progress, stepped, run⟩ := Success.bind_eq_ok.mp run
    rw [regionsFrom, stepped]
    cases progress with
    | more next => exact (step_keeps stepped).handOver (ih run)
    | done ended =>
      cases run
      cases step_done stepped
      have keeps : HandOver setting last.continuations
          ((handed? setting (last.wait (remaining last))).toList ++ []) :=
        (flush_keeps flushes).handOver trivial
      rwa [List.append_nil] at keeps

theorem regions_handOver (run : highlight setting earlier text = .ok outcome) :
    HandOver setting .empty (regions setting earlier text) := by
  obtain ⟨last, isLast, run⟩ := Success.bind_eq_ok.mp run
  obtain ⟨final, flushes, -⟩ := Success.bind_eq_ok.mp run
  have handOver := regionsFrom_handOver isLast flushes
  have nothing : (initialState setting earlier text.toList).continuations = .empty := by
    unfold initialState
    split
    · rfl
    · split <;> rfl
  rwa [nothing] at handOver

end Run

/-! ## Calls -/

namespace Engine

variable {name : String} {engine : Engine}

/-- A call gives a result, unless it is cut off because text is embedded too deeply for the
length of the text, and it gives that result wherever it is not cut off. -/
structure Gives (engine : Engine) (text name : String) (options : Options)
    (result : Highlighted) : Prop where
  direct : Persists (engine.highlight text name options) (.ok result)
  deep : ∃ depth, ∀ deeper, depth ≤ deeper →
    engine.highlightWith (engine.embedder deeper) text name options = .ok result

/-- Texts that are highlighted by calls one after another, each from where the one before has
stopped. -/
def Resumes (engine : Engine) (name : String) (safe : Bool) :
    (earlier : Option Continuation) → List Region → Prop
  | _, [] => True
  | earlier, region :: regions =>
    (∃ result,
      engine.Gives region.content name { safeMode := some safe, continuation := earlier } result ∧
      result.tree = region.outcome.tree ∧
      result.continuation = some region.outcome.continuation) ∧
    engine.Resumes name safe (some region.outcome.continuation) regions

theorem resolve?_name {grammar : Compiled.CompiledGrammar}
    (resolved : engine.resolve? language = .ok (some (name, grammar))) :
    engine.registry.resolve? language = some name := by
  unfold resolve? at resolved
  split at resolved
  · cases resolved
  · rename_i found entry isEntry
    split at resolved
    · cases resolved
    · cases resolved
      rw [Registry.resolve?, isEntry]
      rfl

theorem gives_of_deep {options : Options} {result : Highlighted} (depth : Nat)
    (deep : ∀ deeper, depth ≤ deeper →
      engine.highlightWith (engine.embedder deeper) text name options = .ok result) :
    engine.Gives text name options result := by
  refine ⟨?_, depth, deep⟩
  rw [← deep (max depth (engine.embeddingDepth text)) (Nat.le_max_left _ _)]
  exact engine.highlightWith_persists (engine.embedder_persists (Nat.le_max_right _ _)) text name
    options

theorem gives_of_embedder {settings : Settings} {history : List Registry.Change} {depth : Nat}
    {safe : Bool} :
    let engine : Engine := { settings, registry := .after history }
    (engine.embedder depth).highlight language safe earlier content = .ok (some (name, outcome)) →
      engine.registry.resolve? language = some name ∧
      ∃ result, engine.Gives content name { safeMode := some safe, continuation := earlier } result ∧
        result.tree = outcome.tree ∧ result.continuation = some outcome.continuation := by
  intro engine success
  cases depth with
  | zero => cases success
  | succ depth =>
    obtain ⟨found, resolved, success⟩ := Success.bind_eq_ok.mp success
    cases found with
    | none => cases success
    | some found =>
      obtain ⟨found, grammar⟩ := found
      obtain ⟨ran, run, success⟩ := Success.bind_eq_ok.mp success
      cases success
      let result : Highlighted :=
        { language := some name
          relevance := outcome.relevance
          tree := outcome.tree
          html := Scope.Html.render settings.classPrefix outcome.tree
          continuation := some outcome.continuation }
      refine ⟨resolve?_name resolved, result, gives_of_deep depth ?_, rfl, rfl⟩
      intro deeper le
      let setting : Setting :=
        { name, grammar, ignoreIllegals := true, safe, embedder := engine.embedder depth }
      have ran : Run.highlight (setting.embedding (engine.embedder deeper)) earlier content =
          .ok outcome :=
        (Run.highlight_persists setting (engine.embedder_persists le) earlier content).ok run
      rw [highlightWith, resolve?_of_resolved resolved]
      exact congrArg (engine.settle content name safe) ran

section Regions

variable {settings : Settings} {history : List Registry.Change} {setting : Setting} {depth : Nat}
  (isEmbedder : setting.embedder =
    ({ settings, registry := .after history } : Engine).embedder depth) {regions : List Region}

include isEmbedder

theorem regions_resolved (handOver : Run.HandOver setting known regions) {region : Region}
    (member : region ∈ regions) :
    (Registry.after history).resolve? region.language = some region.grammar ∧
      ∃ earlier, Run.HandsOver setting earlier region := by
  induction regions generalizing known with
  | nil => cases member
  | cons first regions ih =>
    obtain ⟨handsOver, others⟩ := handOver
    rcases List.mem_cons.mp member with rfl | member
    · have highlighted := handsOver.highlighted
      rw [isEmbedder] at highlighted
      exact ⟨(gives_of_embedder highlighted).1, _, handsOver⟩
    · exact ih others member

theorem regions_resume (handOver : Run.HandOver setting known regions)
    (resolved : (Registry.after history).resolve? language = some name) :
    ({ settings, registry := .after history } : Engine).Resumes name setting.safe
      (known.get? language) (regions.filter fun region => region.language = language) := by
  induction regions generalizing known with
  | nil => trivial
  | cons region regions ih =>
    obtain ⟨handsOver, others⟩ := handOver
    have resume := ih others
    rw [Run.keep, Dictionary.get?_insert] at resume
    by_cases isLanguage : region.language = language
    · subst isLanguage
      rw [if_pos rfl] at resume
      rw [List.filter_cons_of_pos (by simp)]
      have highlighted := handsOver.highlighted
      rw [isEmbedder] at highlighted
      obtain ⟨isGrammar, gives⟩ := gives_of_embedder highlighted
      cases resolved.symm.trans isGrammar
      exact ⟨gives, resume⟩
    · rw [if_neg isLanguage] at resume
      rwa [List.filter_cons_of_neg (by simpa using isLanguage)]

end Regions

/-- The regions that a run hands over, as calls: for each name under which they are asked for,
the tree of each is that of a call that goes on from where the call for the one before has
stopped.  So it is for all regions of a grammar if they are asked for under one name. -/
theorem embedded_regions_resume (settings : Settings) (history : List Registry.Change)
    (text host : String) (grammar : Compiled.CompiledGrammar) (options : Options)
    (outcome : Outcome) :
    let engine : Engine := { settings, registry := .after history }
    let setting := engine.settingFor text host grammar options
    let regions := Run.regions setting options.continuation text
    Run.highlight setting options.continuation text = .ok outcome →
      (∀ region ∈ regions, engine.registry.resolve? region.language = some region.grammar ∧
        ∃ earlier, Run.HandsOver setting earlier region) ∧
      (∀ name language, engine.registry.resolve? language = some name →
        engine.Resumes name setting.safe none
          (regions.filter fun region => region.language = language)) ∧
      ∀ name language, (∀ region ∈ regions, region.grammar = name → region.language = language) →
        engine.Resumes name setting.safe none
          (regions.filter fun region => region.grammar = name) := by
  intro engine setting regions run
  have handOver := Run.regions_handOver run
  have isResolved : ∀ region ∈ regions,
      engine.registry.resolve? region.language = some region.grammar ∧
        ∃ earlier, Run.HandsOver setting earlier region :=
    fun region member => regions_resolved rfl handOver member
  have resume {name language : String}
      (resolved : engine.registry.resolve? language = some name) :
      engine.Resumes name setting.safe none
        (regions.filter fun region => region.language = language) :=
    regions_resume rfl handOver resolved
  refine ⟨isResolved, fun name language => resume, fun name language sameName => ?_⟩
  by_cases resolved : engine.registry.resolve? language = some name
  · have sameRegions : (regions.filter fun region => region.grammar = name) =
        regions.filter fun region => region.language = language := by
      refine List.filter_congr fun region member => ?_
      rw [decide_eq_decide]
      refine ⟨sameName region member, ?_⟩
      rintro rfl
      exact Option.some.inj ((isResolved region member).1.symm.trans resolved)
    rw [sameRegions]
    exact resume resolved
  · have noRegions : (regions.filter fun region => region.grammar = name) = [] := by
      refine List.filter_eq_nil_iff.mpr fun region member isGrammar => ?_
      have isGrammar := of_decide_eq_true isGrammar
      rw [← sameName region member isGrammar, ← isGrammar] at resolved
      exact resolved (isResolved region member).1
    rw [noRegions]
    trivial

/-! ### Two regions -/

/-- A grammar of blocks between parentheses, with two names. -/
def blocks : Registry.Change :=
  .register "blocks"
    { name := "blocks"
      root :=
        { contains := some [.inline
            { scope := some (.name "block")
              beginPattern := some (.source "\\(")
              endPattern := some (.source "\\)") }] } }
    ["b"]

/-- A mode that hands over the text between two brackets. -/
def frame (first last language : String) : Grammar.Mode where
  beginPattern := some (.source first)
  endPattern := some (.source last)
  excludeBegin := some true
  excludeEnd := some true
  subLanguage := some (.one language)

def frames (first second : String) : Grammar.Definition where
  name := "frames"
  root :=
    { contains := some
        [.inline (frame "\\[" "\\]" first), .inline (frame "<" ">" second)] }

def blockEngine : Engine where
  registry := .after [blocks]

def frameSetting (grammar : Compiled.CompiledGrammar) : Setting :=
  blockEngine.settingFor "[(]<x)>" "frames" grammar {}

def areTwo (test : Region → Region → Bool) : List Region → Bool
  | [first, second] => test first second
  | _ => false

theorem areTwo_iff {test : Region → Region → Bool} {regions : List Region} :
    areTwo test regions = true ↔
      ∃ first second, regions = [first, second] ∧ test first second = true := by
  constructor
  · intro isTwo
    unfold areTwo at isTwo
    split at isTwo
    · exact ⟨_, _, rfl, isTwo⟩
    · cases isTwo
  · rintro ⟨first, second, rfl, passes⟩
    exact passes

/-- A block that is open at the end of one frame goes on in the next. -/
theorem embedded_regions_resume_blocks :
    ∃ grammar outcome first second,
      Compiled.CompiledGrammar.compile (frames "blocks" "blocks") = .ok grammar ∧
      Run.highlight (frameSetting grammar) none "[(]<x)>" = .ok outcome ∧
      Run.regions (frameSetting grammar) none "[(]<x)>" = [first, second] ∧
      first.outcome.continuation.stack.size = 2 ∧
      blockEngine.Resumes "blocks" (frameSetting grammar).safe none [first, second] := by
  have evaluated : ((Compiled.CompiledGrammar.compile (frames "blocks" "blocks")).toOption.any
      fun grammar =>
        (Run.highlight (frameSetting grammar) none "[(]<x)>").toOption.isSome &&
        areTwo (fun first second =>
          first.language == "blocks" && second.language == "blocks" &&
            first.outcome.continuation.stack.size == 2)
          (Run.regions (frameSetting grammar) none "[(]<x)>")) = true := by
    decide +kernel
  simp only [Option.any_eq_true, Success.toOption_eq_some, Bool.and_eq_true,
    Option.isSome_iff_exists, areTwo_iff, beq_iff_eq] at evaluated
  obtain ⟨grammar, compiled, ⟨outcome, run⟩, first, second, two, ⟨isFirst, isSecond⟩, isOpen⟩ :=
    evaluated
  obtain ⟨-, resume, -⟩ :=
    embedded_regions_resume {} [blocks] "[(]<x)>" "frames" grammar {} outcome run
  have resumed : blockEngine.Resumes "blocks" (frameSetting grammar).safe none
      ((Run.regions (frameSetting grammar) none "[(]<x)>").filter fun region =>
        region.language = "blocks") := resume "blocks" "blocks" (by decide +kernel)
  have both : ([first, second].filter fun region => region.language = "blocks") =
      [first, second] := by
    simp [isFirst, isSecond]
  rw [two, both] at resumed
  exact ⟨grammar, outcome, first, second, compiled, run, two, isOpen, resumed⟩

/-- A grammar that is asked for under two names does not go on in the second region. -/
theorem regions_under_two_names :
    ∃ grammar outcome,
      Compiled.CompiledGrammar.compile (frames "blocks" "b") = .ok grammar ∧
      Run.highlight (frameSetting grammar) none "[(]<x)>" = .ok outcome ∧
      (∀ region ∈ Run.regions (frameSetting grammar) none "[(]<x)>", region.grammar = "blocks") ∧
      ¬ blockEngine.Resumes "blocks" (frameSetting grammar).safe none
        (Run.regions (frameSetting grammar) none "[(]<x)>") := by
  have evaluated : ((Compiled.CompiledGrammar.compile (frames "blocks" "b")).toOption.any
      fun grammar =>
        (Run.highlight (frameSetting grammar) none "[(]<x)>").toOption.isSome &&
        areTwo (fun first second =>
          first.grammar == "blocks" && second.grammar == "blocks" &&
            (blockEngine.highlight second.content "blocks"
              { safeMode := some (frameSetting grammar).safe
                continuation := some first.outcome.continuation }).toOption.any fun result =>
              Scope.Html.render "" result.tree != Scope.Html.render "" second.outcome.tree)
          (Run.regions (frameSetting grammar) none "[(]<x)>")) = true := by
    decide +kernel
  simp only [Option.any_eq_true, Success.toOption_eq_some, Bool.and_eq_true,
    Option.isSome_iff_exists, areTwo_iff, beq_iff_eq, bne_iff_ne] at evaluated
  obtain ⟨grammar, compiled, ⟨outcome, run⟩, first, second, two, ⟨isFirst, isSecond⟩, result,
    highlighted, different⟩ := evaluated
  refine ⟨grammar, outcome, compiled, run, ?_⟩
  rw [two]
  refine ⟨by simp [isFirst, isSecond], ?_⟩
  rintro ⟨-, ⟨other, gives, sameTree, -⟩, -⟩
  cases gives.direct.ok highlighted
  exact different (by rw [sameTree])

end Engine
end Highlighter

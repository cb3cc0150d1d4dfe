import Highlighter.Proofs.SafeMode
import Highlighter.Proofs.Standing
import Mathlib.Data.List.DropRight

/-!
# Reports of illegal text

In the runs of embedded texts illegal text is passed over or the whole result is left out.  So a
report of illegal text is always made by the run of the text itself, where one of its own rules
matches, and its offset and its context are those of that text.
-/
namespace Highlighter

/-- A report says where in a text the illegal piece begins, and repeats what stands there. -/
def IllegalLexeme.Describes (illegal : IllegalLexeme) (text : String) : Prop :=
  ∃ before after : String, text = before ++ after ∧ before.utf8ByteSize = illegal.offset ∧
    illegal.lexeme.toList <+: after.toList ∧
    illegal.context.toList = before.toList.rtake 100 ++ after.toList.take 100

namespace Run

variable {setting : Setting} {earlier : Option Continuation} {text : String}
  {illegal : IllegalLexeme}

theorem Lies.describes {place : Place} {found : RuleMatch} (lies : Lies text.toList place found)
    (scope : Option String) : (IllegalLexeme.ofSpan found.span scope).Describes text := by
  obtain ⟨chars, rest, isText, isStart⟩ := lies.start
  change text.toList = chars ++ rest at isText
  have isAfter : found.span.start.after = rest := by rw [isStart]; rfl
  refine ⟨String.ofList chars, String.ofList rest, ?_, ?_, ?_, ?_⟩
  · rw [← String.toList_inj, isText]
    simp
  · rw [← Place.bytes_eq_utf8ByteSize, String.toList_ofList, IllegalLexeme.ofSpan, isStart]
    exact (Nat.zero_add _).symm
  · rw [IllegalLexeme.ofSpan, String.toList_ofList, String.toList_ofList, ← isAfter]
    exact ⟨_, Place.upTo_append_after lies.order⟩
  · rw [IllegalLexeme.ofSpan, IllegalLexeme.contextAt, String.toList_ofList, isAfter, isStart,
      String.toList_ofList, String.toList_ofList, List.rtake_eq_reverse_take_reverse]
    simp [Place.advance, Place.start, IllegalLexeme.contextLength]

/-- A run that does not ignore illegal text comes to a match of a rule for it, and reports that. -/
def Reports (setting : Setting) (earlier : Option Continuation) (text : String)
    (illegal : IllegalLexeme) : Prop :=
  setting.ignoreIllegals = false ∧ ∃ state place found behind, Reached setting earlier text state ∧
    Finds setting state place found behind ∧ found.kind = .illegal ∧
    illegal = .ofSpan found.span (setting.topMode state).scope

theorem Reports.describes {definition : Grammar.Definition}
    (compiled : Compiled.CompiledGrammar.compile definition = .ok setting.grammar)
    (reports : Reports setting earlier text illegal) : illegal.Describes text := by
  obtain ⟨-, state, place, found, behind, reached, finds, -, rfl⟩ := reports
  exact (finds.lies compiled (reached.standsIn compiled)).describes _

/-- A failure that is no report of illegal text. -/
def IsLegal (cause : Failure) : Prop :=
  ∀ illegal, cause ≠ .illegalLexeme illegal

/-- Unless embedded texts report illegal text, what a run reports it has found itself. -/
theorem reports_of_highlight (legal : setting.embedder.Fails IsLegal)
    (fails : highlight setting earlier text = .error (.illegalLexeme illegal)) :
    Reports setting earlier text illegal := by
  let allowed (cause : Failure) : Prop :=
    ∀ illegal, cause = .illegalLexeme illegal → Reports setting earlier text illegal
  have embeds : setting.embedder.Fails allowed :=
    ⟨fun language safe earlier text cause fails illegal isIllegal =>
        absurd isIllegal (legal.highlight language safe earlier text cause fails illegal),
      fun candidates text cause fails illegal isIllegal =>
        absurd isIllegal (legal.detect candidates text cause fails illegal)⟩
  have allows : Allows allowed setting :=
    ⟨fun _ => nofun, fun _ _ => nofun,
      fun _ language _ state content => embed_fails embeds state content language⟩
  refine highlight_fails_of allows (Reached setting earlier text) .start (fun _ _ => .next)
    (fun state reached => step_fails allows state ?_ ?_ ?_) nofun _ fails illegal rfl
  · rintro place found behind finds isIllegal strict _ ⟨⟩
    exact ⟨strict, state, place, found, behind, reached, finds, isIllegal, rfl⟩
  · intro _ _ cause _
    cases cause <;> exact nofun
  · exact fun _ _ _ _ _ _ _ => nofun

end Run

namespace Engine

open Run (IsLegal)

variable {engine : Engine} {text name : String} {illegal : IllegalLexeme} {language : String}

theorem resolve?_legal (engine : Engine) (name : String) :
    Fails IsLegal (engine.resolve? name) := by
  unfold resolve?
  split
  · exact .ok none
  · split
    · exact .error nofun
    · exact .ok _

/-- Embedded texts never report illegal text, however deeply they are embedded. -/
theorem embedder_legal (engine : Engine) (depth : Nat) : (engine.embedder depth).Fails IsLegal := by
  refine embedder_fails ?_ engine.resolve?_legal ?_ depth
  · rintro _ isEndless _ rfl
    cases isEndless
  · rintro _ _ _ _ _ - legal earlier text _ fails illegal rfl
    cases (Run.reports_of_highlight legal fails).1

theorem error_of_settle {safe : Bool} {ran : Except Failure Outcome}
    (reported : engine.settle text language safe ran = .error (.illegalLexeme illegal) ∨
      ∃ result, engine.settle text language safe ran = .ok result ∧ result.illegal = some illegal) :
    ran = .error (.illegalLexeme illegal) := by
  cases ran with
  | ok outcome =>
    rcases reported with fails | ⟨_, ⟨⟩, isIllegal⟩
    · cases fails
    · cases isIllegal
  | error cause =>
    cases safe with
    | false =>
      rcases reported with fails | ⟨_, fails, -⟩
      · exact congrArg _ (Except.error.inj fails)
      · cases fails
    | true =>
      rcases reported with fails | ⟨_, success, isIllegal⟩
      · cases cause <;> cases fails
      · cases cause <;> cases success <;> cases isIllegal
        rfl

theorem compile_of_resolve? {grammar : Compiled.CompiledGrammar}
    (resolved : engine.resolve? name = .ok (some (language, grammar))) :
    ∃ definition, Compiled.CompiledGrammar.compile definition = .ok grammar := by
  unfold resolve? at resolved
  split at resolved
  · cases resolved
  · rename_i entry _
    split at resolved
    · cases resolved
    · rename_i compiled
      cases resolved
      rw [entry.compiled_eq] at compiled
      exact ⟨_, compiled⟩

/-- Illegal text that highlighting reports is illegal text of the text that is highlighted, which
its own run has come to.  Nothing that is embedded in it is reported. -/
theorem illegal_reports_own_text (engine : Engine) (text name : String) (options : Options)
    (illegal : IllegalLexeme)
    (reported : engine.highlight text name options = .error (.illegalLexeme illegal) ∨
      ∃ result, engine.highlight text name options = .ok result ∧ result.illegal = some illegal) :
    options.ignoreIllegals = false ∧ illegal.Describes text ∧
      (∀ depth, (engine.embedder depth).Fails IsLegal) ∧
      ∃ language grammar, engine.resolve? name = .ok (some (language, grammar)) ∧
        Run.Reports (engine.settingFor text language grammar options) options.continuation text
          illegal := by
  cases isResolved : engine.resolve? name with
  | error cause =>
    rw [highlight_of_uncompiled isResolved] at reported
    rcases reported with fails | ⟨_, fails, -⟩
    · cases fails
      cases engine.resolve?_legal name _ isResolved illegal rfl
    · cases fails
  | ok resolved =>
    cases resolved with
    | none =>
      rw [highlight_of_unknown isResolved] at reported
      rcases reported with fails | ⟨_, fails, -⟩ <;> cases fails
    | some found =>
      obtain ⟨language, grammar⟩ := found
      rw [highlight_of_resolved isResolved] at reported
      have reports := Run.reports_of_highlight (engine.embedder_legal _) (error_of_settle reported)
      obtain ⟨definition, compiled⟩ := compile_of_resolve? isResolved
      exact ⟨reports.1, reports.describes compiled, engine.embedder_legal, language, grammar, rfl,
        reports⟩

/-- Two grammars with illegal text of their own, of which the first embeds the second. -/
def embeddingEngine : Engine :=
  { registry := (Registry.register {} "outer"
      { root :=
          { illegal := some (.source "#+")
            contains := some
              [.inline
                { beginPattern := some (.source "<")
                  endPattern := some (.source ">")
                  subLanguage := some (.one "inner") }] } } []).register "inner"
      { root := { illegal := some (.source "!") } } [] }

/-- The illegal text that is embedded comes first, but only the other one is reported. -/
theorem illegal_reports_own_text_embedding :
    ∃ illegal, (embeddingEngine.highlight "é<!>##" "outer" .strict).toOption.bind
        Highlighted.illegal = some illegal ∧
      illegal.lexeme = "##" ∧ illegal.offset = 5 ∧ illegal.Describes "é<!>##" := by
  have reported : (embeddingEngine.highlight "é<!>##" "outer" .strict).toOption.bind
      Highlighted.illegal =
        some { lexeme := "##", mode := "<unnamed>", offset := 5, context := "é<!>##" } := by
    decide +kernel
  refine ⟨_, reported, rfl, rfl, ?_⟩
  obtain ⟨result, isResult, isIllegal⟩ := Option.bind_eq_some_iff.mp reported
  rw [Success.toOption_eq_some] at isResult
  exact (illegal_reports_own_text _ _ _ _ _ (.inr ⟨result, isResult, isIllegal⟩)).2.1

end Engine
end Highlighter

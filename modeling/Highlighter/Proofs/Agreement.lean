import Highlighter.Proofs.Detection
import Highlighter.Proofs.Registry
import Highlighter.Proofs.SafeMode

/-!
# Detected and direct results

A candidate stops at illegal text, and when a text is highlighted directly, illegal text is
ignored.  The two runs pass through the same states up to the first illegal text.  So where a
candidate comes upon none, its result is the one that is shown for its language.
-/
namespace Highlighter

/-- How a run that ignores illegal text agrees with one that stops at it: it comes to the
same, unless the other one did stop. -/
def Agrees (stopping ignoring : Except Failure Outcome) : Prop :=
  stopping = ignoring ∨ ∃ illegal, stopping = .error (.illegalLexeme illegal)

theorem Run.highlight_agrees (setting : Setting) (earlier : Option Continuation) (text : String) :
    Agrees (Run.highlight { setting with ignoreIllegals := false } earlier text)
      (Run.highlight { setting with ignoreIllegals := true } earlier text) := by
  let variant (ignoreIllegals : Bool) : Variant :=
    { safe := setting.safe, ignoreIllegals, embedder := setting.embedder }
  have follows : (variant false).Follows (fun cause => ∃ illegal, cause = .illegalLexeme illegal)
      (variant true) :=
    ⟨fun _ _ _ => .refl _, fun _ _ => .refl _, .inl rfl, .inr ⟨rfl, fun illegal => ⟨illegal, rfl⟩⟩⟩
  refine (Run.highlight_varies setting follows earlier text).imp id ?_
  rintro ⟨_, stops, illegal, rfl⟩
  exact ⟨illegal, stops⟩

namespace Engine

variable {engine : Engine} {text : String} {candidates : Option (List String)}

variable {result : Highlighted} {language : String} {safe : Bool}

/-! ## Results -/

theorem mem_results_of_detected (detected : result = (engine.detect text candidates).best ∨
      (engine.detect text candidates).runnerUp = some result) :
    result ∈ engine.results text candidates := by
  have isPerm := @Ranking.rank_perm _ engine.precedes (engine.results text candidates)
  rw [← isPerm.mem_iff]
  rw [detect, detectWith, ← results, bestOf] at detected
  cases isRank : Ranking.rank engine.precedes (engine.results text candidates) with
  | nil =>
    rw [isRank, results_eq] at isPerm
    cases isPerm.symm.eq_nil
  | cons best others =>
    rw [isRank] at detected
    rcases detected with rfl | isSecond
    · exact List.mem_cons_self
    · exact List.mem_cons_of_mem _ (List.mem_of_mem_head? isSecond)

theorem settle_of_agrees {stopping ignoring : Except Failure Outcome}
    (agrees : Agrees stopping ignoring)
    (success : engine.settle text language safe stopping = .ok result)
    (notIllegal : result.illegal = none) :
    engine.settle text language safe ignoring = .ok result := by
  rcases agrees with rfl | ⟨illegal, rfl⟩
  · exact success
  · cases safe with
    | true =>
      cases success
      cases notIllegal
    | false => cases success

theorem settle_language {ran : Except Failure Outcome}
    (success : engine.settle text language safe ran = .ok result) :
    result.language = some language := by
  unfold settle at success
  split at success
  · cases success
    rfl
  · split at success
    · split at success <;> cases success <;> rfl
    · cases success

theorem resolve?_of_resolved {settings : Settings} {history : List Registry.Change} {name : String}
    {grammar : Compiled.CompiledGrammar}
    (resolved : ({ settings, registry := .after history } : Engine).resolve? name =
      .ok (some (language, grammar))) :
    ({ settings, registry := .after history } : Engine).resolve? language =
      .ok (some (language, grammar)) := by
  unfold resolve? at resolved ⊢
  split at resolved
  · cases resolved
  · rename_i found entry isEntry
    split at resolved
    · cases resolved
    · rename_i isGrammar
      cases resolved
      simp only [Registry.entry?_of_resolved isEntry, isGrammar]

/-- Detecting the language of a text shows what highlighting it directly would show: a result
in a language for which nothing illegal was found is the one that this language gives,
although illegal text is ignored then. -/
theorem detected_result_is_direct (settings : Settings) (history : List Registry.Change)
    (text : String) (candidates : Option (List String)) (result : Highlighted)
    (language : String) :
    let engine : Engine := { settings, registry := .after history }
    (result = (engine.detect text candidates).best ∨
      (engine.detect text candidates).runnerUp = some result) →
    result.language = some language → result.illegal = none →
      engine.highlight text language {} = .ok result := by
  intro engine detected isLanguage notIllegal
  have isResult := mem_results_of_detected detected
  rw [results_eq] at isResult
  rcases List.mem_cons.mp isResult with rfl | isCandidate
  · cases isLanguage
  · obtain ⟨name, -, isResult⟩ := List.mem_filterMap.mp isCandidate
    have success : engine.highlight text name .strict = .ok result := by
      unfold resultOf? at isResult
      split at isResult
      · exact Success.toOption_eq_some.mp isResult
      · cases isResult
    cases resolved : engine.resolve? name with
    | error cause =>
      rw [highlight_of_uncompiled resolved] at success
      cases success
    | ok found =>
      rcases found with _ | ⟨found, grammar⟩
      · rw [highlight_of_unknown resolved] at success
        cases success
      · rw [highlight_of_resolved resolved] at success
        cases isLanguage.symm.trans (settle_language success)
        rw [highlight_of_resolved (resolve?_of_resolved resolved)]
        have agrees := Run.highlight_agrees
          (engine.settingFor text language grammar {}) none text
        exact settle_of_agrees agrees success notIllegal

/-- A grammar in which a one has the relevance 1 and a zero is illegal. -/
def onesOnly : Registry.Change :=
  .register "Ones" { (oneGrammar "ones" none).withIllegal (.source "0") with aliases := ["one"] } []

theorem detected_result_is_direct_ones :
    let engine : Engine := { registry := .after [onesOnly] }
    (engine.detect "1" (some ["ONE"])).best.language = some "ones" ∧
      (engine.detect "1" (some ["ONE"])).best.illegal = none ∧
      engine.highlight "1" "ones" {} = .ok (engine.detect "1" (some ["ONE"])).best :=
  have isLanguage : (({ registry := .after [onesOnly] } : Engine).detect "1"
      (some ["ONE"])).best.language = some "ones" := by decide +kernel
  have notIllegal : (({ registry := .after [onesOnly] } : Engine).detect "1"
      (some ["ONE"])).best.illegal = none := by decide +kernel
  ⟨isLanguage, notIllegal,
    detected_result_is_direct {} [onesOnly] "1" (some ["ONE"]) _ "ones" (.inl rfl) isLanguage
      notIllegal⟩

end Engine
end Highlighter

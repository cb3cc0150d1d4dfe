import Highlighter.Proofs.EmbeddingDepth
import Highlighter.Proofs.Failing

/-!
# Safe mode

A strict run and a safe run of a text pass through the same states, up to the first mode that
would end with nothing in it right where it began.  There the strict run stops.  So safe mode
changes what becomes of a failure, and never a result.
-/
namespace Highlighter

variable {cause : Failure}

/-- How a safe computation follows a strict one: it comes to the same, unless the strict
one stops at a mode that ends right where it began.  Neither looks up names. -/
structure Follows {α : Type} (strict safe : Except Failure α) : Prop where
  same : strict = safe ∨
    ∃ grammar offset, strict = .error (.loopDetected grammar offset .emptyMode)
  known : ∀ name, safe ≠ .error (.unknownGrammar name)

namespace Engine

variable {engine : Engine} {name : String}

theorem resolve?_known (engine : Engine) (language name : String) :
    engine.resolve? language ≠ .error (.unknownGrammar name) := by
  unfold resolve?
  split
  · simp
  · split <;> simp

/-- Embedded texts fail as allowed, if runs that pass over illegal text do. -/
theorem embedder_fails {allowed : Failure → Prop}
    (endless : ∀ cause, cause.isEndless → allowed cause)
    (resolves : ∀ language, Fails allowed (engine.resolve? language))
    (runs : ∀ {language name grammar safe embedder},
      engine.resolve? language = .ok (some (name, grammar)) → embedder.Fails allowed →
        ∀ earlier text, Fails allowed
          (Run.highlight { name, grammar, ignoreIllegals := true, safe, embedder } earlier text))
    (depth : Nat) : (engine.embedder depth).Fails allowed := by
  induction depth with
  | zero => exact ⟨fun _ _ _ _ => .error (endless _ rfl), fun _ _ => .error (endless _ rfl)⟩
  | succ depth ih =>
    refine ⟨fun language safe earlier text cause fails => ?_, fun candidates text cause fails => ?_⟩
    · rcases Success.bind_eq_error.mp fails with fails | ⟨resolved, isResolved, fails⟩
      · exact resolves language cause fails
      · cases resolved with
        | none => cases fails
        | some found =>
          exact (runs isResolved ih earlier text).bind
            (fun outcome => .ok (some (found.1, outcome))) cause fails
    · exact endless cause (detectEmbedded_error fails)

def IsKnown (cause : Failure) : Prop :=
  ∀ name, cause ≠ .unknownGrammar name

theorem run_known {setting : Setting} (known : setting.embedder.Fails IsKnown)
    (earlier : Option Continuation) (text : String) :
    Fails IsKnown (Run.highlight setting earlier text) := by
  refine Run.highlight_fails ⟨⟨?_, ?_, ?_⟩, ?_, ?_, ?_, ?_⟩ earlier text
  · exact fun _ => nofun
  · exact fun _ _ => nofun
  · exact fun _ language _ state content => Run.embed_fails known state content language
  · exact fun _ _ => nofun
  · intro _ _ _ cause _
    cases cause <;> exact nofun
  · exact nofun
  · exact nofun

theorem embedder_known (engine : Engine) (depth : Nat) :
    (engine.embedder depth).Fails IsKnown := by
  refine embedder_fails ?_ ?_ (fun _ known => run_known known) depth
  · rintro _ isEndless name rfl
    cases isEndless
  · rintro language _ fails name rfl
    exact engine.resolve?_known language name fails

/-- A strict run is excused where a mode ends right where it began. -/
def StopsEmpty (cause : Failure) : Prop :=
  ∃ grammar offset, cause = .loopDetected grammar offset .emptyMode

theorem run_varies (setting : Setting)
    (embeds : ∀ language earlier text,
      Varies StopsEmpty (setting.embedder.highlight language false earlier text)
        (setting.embedder.highlight language true earlier text))
    (earlier : Option Continuation) (text : String) :
    Varies StopsEmpty (Run.highlight { setting with safe := false } earlier text)
      (Run.highlight { setting with safe := true } earlier text) := by
  let variant (safe : Bool) : Variant :=
    { safe, ignoreIllegals := setting.ignoreIllegals, embedder := setting.embedder }
  have follows : (variant false).Follows StopsEmpty (variant true) :=
    ⟨embeds, fun _ _ => .refl _, .inr ⟨rfl, fun name offset => ⟨name, offset, rfl⟩⟩, .inl rfl⟩
  exact Run.highlight_varies setting follows earlier text

theorem embedder_varies (engine : Engine) (depth : Nat) (language : String)
    (earlier : Option Continuation) (text : String) :
    Varies StopsEmpty ((engine.embedder depth).highlight language false earlier text)
      ((engine.embedder depth).highlight language true earlier text) := by
  induction depth generalizing language earlier text with
  | zero => exact .refl _
  | succ depth ih =>
    refine Varies.bind (.refl _) fun resolved => ?_
    cases resolved with
    | none => exact .refl _
    | some entry =>
      obtain ⟨name, grammar⟩ := entry
      exact (run_varies
        { name, grammar, ignoreIllegals := true, safe := false, embedder := engine.embedder depth }
        ih earlier text).bind fun outcome => .refl _

/-! ## Highlighting -/

def settingFor (engine : Engine) (text language : String) (grammar : Compiled.CompiledGrammar)
    (options : Options) : Setting where
  name := language
  grammar := grammar
  ignoreIllegals := options.ignoreIllegals
  safe := options.safeMode.getD engine.settings.safeMode
  embedder := engine.embedder (engine.embeddingDepth text)

theorem highlight_of_resolved {language : String} {grammar : Compiled.CompiledGrammar}
    (resolved : engine.resolve? name = .ok (some (language, grammar))) (text : String)
    (options : Options) :
    engine.highlight text name options =
      engine.settle text language (options.safeMode.getD engine.settings.safeMode)
        (Run.highlight (engine.settingFor text language grammar options)
          options.continuation text) := by
  simp only [highlight, highlightWith, resolved]
  rfl

theorem highlight_of_unknown (unknown : engine.resolve? name = .ok none) (text : String)
    (options : Options) :
    engine.highlight text name options = .error (.unknownGrammar name) := by
  simp only [highlight, highlightWith, unknown]
  rfl

theorem highlight_of_uncompiled (uncompiled : engine.resolve? name = .error cause) (text : String)
    (options : Options) :
    engine.highlight text name options = .error cause := by
  simp only [highlight, highlightWith, uncompiled]
  rfl

theorem runs_follow (engine : Engine) (text language : String)
    (grammar : Compiled.CompiledGrammar) (options : Options) :
    Follows
      (Run.highlight
        (engine.settingFor text language grammar { options with safeMode := some false })
        options.continuation text)
      (Run.highlight
        (engine.settingFor text language grammar { options with safeMode := some true })
        options.continuation text) where
  same := by
    refine (run_varies (engine.settingFor text language grammar options)
      (engine.embedder_varies _) options.continuation text).imp id ?_
    rintro ⟨_, stops, grammar, offset, rfl⟩
    exact ⟨grammar, offset, stops⟩
  known := fun name fails => run_known (engine.embedder_known _) _ _ _ fails name rfl

end Engine

/-- Whether a failure of a run is one that safe mode takes note of and passes over: an
expression that gives up, or an expression or an embedded grammar that cannot be
compiled. -/
def Failure.isPassedOver : Failure → Bool
  | .search _ _ | .compile _ _ => true
  | _ => false

namespace Engine

theorem settle_of_follows (engine : Engine) (text language : String)
    {strictRun safeRun : Except Failure Outcome} (follows : Follows strictRun safeRun) :
    let strict := engine.settle text language false strictRun
    let safe := engine.settle text language true safeRun
    (∀ result, strict = .ok result → safe = .ok result) ∧
    (∀ illegal, strict = .error (.illegalLexeme illegal) →
      safe = .ok { Highlighted.plain text (some language) with illegal := some illegal }) ∧
    (∀ cause, cause.isPassedOver → strict = .error cause →
      safe = .ok { Highlighted.plain text (some language) with failure := some cause }) ∧
    ∀ cause, safe = .error cause →
      cause.isEndless ∨ ∃ grammar offset reason, cause = .loopDetected grammar offset reason := by
  obtain ⟨same, known⟩ := follows
  refine ⟨?_, ?_, ?_, ?_⟩
  · intro result finished
    rcases same with rfl | ⟨grammar, offset, rfl⟩
    · cases strictRun with
      | ok outcome => exact finished
      | error cause => cases finished
    · cases finished
  · intro illegal stopped
    rcases same with rfl | ⟨grammar, offset, rfl⟩
    · cases strictRun with
      | ok outcome => cases stopped
      | error cause =>
        cases stopped
        rfl
    · cases stopped
  · intro cause passedOver stopped
    rcases same with rfl | ⟨grammar, offset, rfl⟩
    · cases strictRun with
      | ok outcome => cases stopped
      | error cause =>
        cases stopped
        cases cause <;> first | rfl | cases passedOver
    · cases stopped
      cases passedOver
  · intro cause stopped
    cases safeRun with
    | ok outcome => cases stopped
    | error cause =>
      cases cause with
      | unknownGrammar name => exact absurd rfl (known name)
      | compile grammar reason | illegalLexeme illegal | search grammar reason => cases stopped
      | loopDetected grammar offset reason =>
        cases stopped
        exact .inr ⟨grammar, offset, reason, rfl⟩
      | misplaced grammar | endless grammar | endlessEmbedding =>
        cases stopped
        exact .inl rfl

/-- Safe mode changes failures only.  A result of a strict run is that of the safe one.
Illegal text and failures on the way leave the text plain and are reported with it, and
a grammar that is not known or cannot be compiled fails in the same way.  Whatever else
fails in safe mode does not get on. -/
theorem safeMode_changes_failures_only (engine : Engine) (text name : String)
    (options : Options) :
    let strict := engine.highlight text name { options with safeMode := some false }
    let safe := engine.highlight text name { options with safeMode := some true }
    (∀ cause, engine.resolve? name = .error cause →
      strict = .error cause ∧ safe = .error cause) ∧
    (engine.resolve? name = .ok none →
      strict = .error (.unknownGrammar name) ∧ safe = .error (.unknownGrammar name)) ∧
    ∀ language grammar, engine.resolve? name = .ok (some (language, grammar)) →
      (∀ result, strict = .ok result → safe = .ok result) ∧
      (∀ illegal, strict = .error (.illegalLexeme illegal) →
        safe = .ok { Highlighted.plain text (some language) with illegal := some illegal }) ∧
      (∀ cause, cause.isPassedOver → strict = .error cause →
        safe = .ok { Highlighted.plain text (some language) with failure := some cause }) ∧
      ∀ cause, safe = .error cause →
        cause.isEndless ∨
          ∃ grammar offset reason, cause = .loopDetected grammar offset reason := by
  refine ⟨?_, ?_, ?_⟩
  · intro cause uncompiled
    exact ⟨highlight_of_uncompiled uncompiled text _, highlight_of_uncompiled uncompiled text _⟩
  · intro unknown
    exact ⟨highlight_of_unknown unknown text _, highlight_of_unknown unknown text _⟩
  · intro language grammar resolved
    simp only [highlight_of_resolved resolved]
    exact engine.settle_of_follows text language
      (engine.runs_follow text language grammar options)

end Engine
end Highlighter

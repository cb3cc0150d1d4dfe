import Highlighter.Proofs.Variation

/-!
# The depth of embedding

Text can be embedded in embedded text up to a depth, and where that is not enough a run is
cut off.  A run that is not cut off comes to the same at every greater depth, so that the
depth has no part in what a text looks like in the end.
-/
namespace Highlighter

/-! ## Detecting the language of embedded text -/

namespace Engine

variable {engine : Engine} {embedder : Embedder} {text : String}
  {candidates : Option (List String)}

variable {cause : Failure}

theorem detectEmbedded_ok {detected : Detected}
    (success : engine.detectEmbedded embedder text candidates = .ok detected) :
    let best := (engine.detectWith embedder text candidates).best
    detected = { tree := best.tree, relevance := best.relevance, language := best.language } := by
  simp only [detectEmbedded] at success
  split at success
  · cases success
  · cases success
    simp only [detectWith, resultsWith, List.filterMap_map]
    rfl

theorem endlessFailure?_eq_some {attempt : Except Failure Highlighted}
    (isEndless : endlessFailure? attempt = some cause) :
    attempt = .error cause ∧ cause.isEndless := by
  cases attempt with
  | ok result => cases isEndless
  | error other =>
    simp only [endlessFailure?, Option.ite_none_right_eq_some, Option.some.injEq] at isEndless
    obtain ⟨holds, rfl⟩ := isEndless
    exact ⟨rfl, holds⟩

/-- Detection fails only where a run comes to no end. -/
theorem detectEmbedded_error
    (fails : engine.detectEmbedded embedder text candidates = .error cause) : cause.isEndless := by
  simp only [detectEmbedded] at fails
  split at fails
  · rename_i other first
    cases fails
    obtain ⟨attempt, -, isEndless⟩ := List.exists_of_findSome?_eq_some first
    exact (endlessFailure?_eq_some isEndless).2
  · cases fails

end Engine

/-! ## Runs at different depths -/

/-- What becomes of a computation at a greater depth: it comes to the same, unless it was cut
off. -/
def Persists {α : Type} (shallow deep : Except Failure α) : Prop :=
  shallow = deep ∨ shallow = .error .endlessEmbedding

namespace Persists

variable {α β : Type}

variable {shallow deep : Except Failure α}

theorem iff_varies : Persists shallow deep ↔ Varies (· = .endlessEmbedding) shallow deep := by
  simp [Persists, Varies]

theorem refl (result : Except Failure α) : Persists result result :=
  .inl rfl

theorem trans {middle : Except Failure α} (first : Persists shallow middle)
    (second : Persists middle deep) : Persists shallow deep := by
  rcases first with rfl | cut
  · exact second
  · exact .inr cut

theorem bind {shallowRest deepRest : α → Except Failure β} (first : Persists shallow deep)
    (rest : ∀ value, Persists (shallowRest value) (deepRest value)) :
    Persists (shallow >>= shallowRest) (deep >>= deepRest) :=
  iff_varies.mpr ((iff_varies.mp first).bind fun value => iff_varies.mp (rest value))

theorem ok {value : α} (persists : Persists shallow deep) (success : shallow = .ok value) :
    deep = .ok value := by
  rcases persists with rfl | rfl
  · exact success
  · cases success

end Persists

/-- What an embedder does another one does too, unless the first is cut off. -/
structure Embedder.Persists (shallow deep : Embedder) : Prop where
  highlight : ∀ language safe earlier text,
    Highlighter.Persists (shallow.highlight language safe earlier text)
      (deep.highlight language safe earlier text)
  detect : ∀ candidates text,
    Highlighter.Persists (shallow.detect candidates text) (deep.detect candidates text)

def Setting.embedding (setting : Setting) (embedder : Embedder) : Setting :=
  { setting with embedder }

theorem Run.highlight_persists (setting : Setting) {shallow deep : Embedder}
    (persists : shallow.Persists deep) (earlier : Option Continuation) (text : String) :
    Persists (Run.highlight (setting.embedding shallow) earlier text)
      (Run.highlight (setting.embedding deep) earlier text) := by
  let variant (embedder : Embedder) : Variant :=
    { safe := setting.safe, ignoreIllegals := setting.ignoreIllegals, embedder }
  have follows : (variant shallow).Follows (· = .endlessEmbedding) (variant deep) := by
    refine ⟨fun language earlier text => ?_, fun candidates text => ?_, .inl rfl, .inl rfl⟩
    · exact Persists.iff_varies.mp (persists.highlight language setting.safe earlier text)
    · exact Persists.iff_varies.mp (persists.detect candidates text)
  exact Persists.iff_varies.mpr (Run.highlight_varies setting follows earlier text)

/-! ## Engines -/

namespace Engine

theorem settle_endlessEmbedding (engine : Engine) (text name : String) (safe : Bool) :
    engine.settle text name safe (.error .endlessEmbedding) = .error .endlessEmbedding := by
  cases safe <;> rfl

theorem findSome?_endlessFailure? (attempt other : String → Except Failure Highlighted)
    (persist : ∀ name, Persists (attempt name) (other name)) (names : List String) :
    (names.map attempt).findSome? endlessFailure? = some .endlessEmbedding ∨
      (names.map attempt).findSome? endlessFailure? =
          (names.map other).findSome? endlessFailure? ∧
        ((names.map attempt).findSome? endlessFailure? = none →
          names.map attempt = names.map other) := by
  induction names with
  | nil => exact .inr ⟨rfl, fun _ => rfl⟩
  | cons name names ih =>
    simp only [List.map_cons, List.findSome?_cons]
    rcases persist name with same | cut
    · rw [← same]
      cases endlessFailure? (attempt name) with
      | some cause => exact .inr ⟨rfl, nofun⟩
      | none =>
        simp only [List.cons.injEq, true_and]
        exact ih
    · rw [cut]
      exact .inl rfl

section Embedders

variable (engine : Engine) {shallow deep : Embedder} (persists : shallow.Persists deep)

include persists

theorem highlightWith_persists (text name : String) (options : Options) :
    Persists (engine.highlightWith shallow text name options)
      (engine.highlightWith deep text name options) := by
  refine Persists.bind (.refl _) fun resolved => ?_
  cases resolved with
  | none => exact .refl _
  | some entry =>
    obtain ⟨name, grammar⟩ := entry
    let setting : Setting :=
      { name, grammar, ignoreIllegals := options.ignoreIllegals,
        safe := options.safeMode.getD engine.settings.safeMode, embedder := shallow }
    have ran : Persists (Run.highlight (setting.embedding shallow) options.continuation text)
        (Run.highlight (setting.embedding deep) options.continuation text) :=
      Run.highlight_persists setting persists options.continuation text
    rcases ran with same | cut
    · exact .inl (congrArg (engine.settle text name setting.safe) same)
    · refine .inr ((congrArg (engine.settle text name setting.safe) cut).trans ?_)
      exact engine.settle_endlessEmbedding text name setting.safe

theorem embed_persists (language : String) (safe : Bool) (earlier : Option Continuation)
    (text : String) :
    Persists (engine.embed shallow language safe earlier text)
      (engine.embed deep language safe earlier text) := by
  refine Persists.bind (.refl _) fun resolved => ?_
  cases resolved with
  | none => exact .refl _
  | some entry =>
    obtain ⟨name, grammar⟩ := entry
    exact (Run.highlight_persists
      { name, grammar, ignoreIllegals := true, safe, embedder := shallow } persists
      earlier text).bind fun outcome => .refl _

theorem detectEmbedded_persists (text : String) (candidates : Option (List String)) :
    Persists (engine.detectEmbedded shallow text candidates)
      (engine.detectEmbedded deep text candidates) := by
  have attempts := findSome?_endlessFailure?
    (fun name => engine.highlightWith shallow text name .strict)
    (fun name => engine.highlightWith deep text name .strict)
    (fun name => engine.highlightWith_persists persists text name .strict)
    ((engine.candidateNames candidates).filter engine.detects)
  simp only [detectEmbedded]
  rcases attempts with cut | ⟨sameFirst, same⟩
  · rw [cut]
    exact .inr rfl
  · rw [← sameFirst]
    split
    · exact .refl _
    · rename_i finished
      rw [same finished]
      exact .refl _

end Embedders

theorem embedder_persists_succ (engine : Engine) (depth : Nat) :
    (engine.embedder depth).Persists (engine.embedder (depth + 1)) := by
  induction depth with
  | zero => exact ⟨fun _ _ _ _ => .inr rfl, fun _ _ => .inr rfl⟩
  | succ depth ih =>
    exact ⟨engine.embed_persists ih, fun candidates text =>
      engine.detectEmbedded_persists ih text candidates⟩

theorem embedder_persists (engine : Engine) {shallow deep : Nat} (le : shallow ≤ deep) :
    (engine.embedder shallow).Persists (engine.embedder deep) := by
  induction le with
  | refl => exact ⟨fun _ _ _ _ => .refl _, fun _ _ => .refl _⟩
  | @step deep _ ih =>
    have next := engine.embedder_persists_succ deep
    exact ⟨fun language safe earlier text =>
        (ih.highlight language safe earlier text).trans
          (next.highlight language safe earlier text),
      fun candidates text =>
        (ih.detect candidates text).trans (next.detect candidates text)⟩

end Engine
end Highlighter

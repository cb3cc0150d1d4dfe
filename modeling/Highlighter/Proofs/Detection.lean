import Highlighter.Engine
import Highlighter.Proofs.Ranking
import Highlighter.Proofs.Relevance
import Highlighter.Proofs.Success

/-!
# Detecting languages

The results of all candidates are ranked together with the plain text.  The best result is at
least as relevant as every other one, and the second best as every remaining one.  Of two equally
relevant results the later one overtakes the earlier one only if the grammar of that extends its
grammar, and no unrelated result stands between them.
-/
namespace Highlighter.Engine

variable {engine : Engine} {text : String} {candidates : Option (List String)}

variable {second first : Highlighted}

theorem plain_relevance (text : String) (language : Option String) :
    (Highlighted.plain text language).relevance = 0.0 :=
  rfl

/-! ## Which of two results precedes -/

theorem precedes_of_different (different : (first.relevance == second.relevance) = false) :
    engine.precedes first second = decide (second.relevance < first.relevance) := by
  rw [precedes, Ranking.precedes, if_pos (by simpa [bne] using different)]

theorem precedes_of_tie (tie : (first.relevance == second.relevance) = true) :
    engine.precedes first second = true ↔
      ∃ one other, first.language = some one ∧ second.language = some other ∧
        engine.extendsGrammar one other = false ∧ engine.extendsGrammar other one = true := by
  rw [precedes, Ranking.precedes, if_neg (by simp [bne, tie])]
  rcases first.language with _ | one <;> rcases second.language with _ | other <;> simp

theorem level_of_precedes (firstDefined : first.relevance.isNaN = false)
    (secondDefined : second.relevance.isNaN = false) :
    (engine.precedes first second = true →
      Relevance.level second.relevance ≤ Relevance.level first.relevance) ∧
    (engine.precedes first second = false →
      Relevance.level first.relevance ≤ Relevance.level second.relevance) := by
  cases tie : first.relevance == second.relevance with
  | true =>
    have same := (Relevance.beq_iff firstDefined secondDefined).mp tie
    exact ⟨fun _ => same.ge, fun _ => same.le⟩
  | false =>
    rw [precedes_of_different tie, decide_eq_true_eq, decide_eq_false_iff_not,
      Relevance.lt_iff secondDefined firstDefined]
    exact ⟨fun more => more.le, fun notMore => not_lt.mp notMore⟩

/-! ## Results and their order -/

def results (engine : Engine) (text : String) (candidates : Option (List String)) :
    List Highlighted :=
  engine.resultsWith (engine.embedder (engine.embeddingDepth text)) text candidates

/-- What a candidate contributes: its result, if it stands for a grammar that takes part in
detecting languages and highlights the text without coming upon illegal text. -/
def resultOf? (engine : Engine) (text name : String) : Option Highlighted :=
  if engine.registry.contains name && engine.detects name then
    (engine.highlight text name .strict).toOption
  else none

def order (engine : Engine) (results : List Highlighted) : List (Fin results.length) :=
  Ranking.rank (fun first second => engine.precedes (results.get first) (results.get second))
    (List.finRange results.length)

theorem contains_of_detects {name : String} (detects : engine.detects name = true) :
    engine.registry.contains name = true := by
  unfold Engine.detects Registry.get? at detects
  unfold Registry.contains Registry.resolve?
  cases isEntry : engine.registry.entry? name with
  | none => simp [isEntry] at detects
  | some entry => rfl

theorem results_eq (engine : Engine) (text : String) (candidates : Option (List String)) :
    engine.results text candidates =
      .plain text none :: (engine.candidateNames candidates).filterMap (engine.resultOf? text) := by
  rw [results, resultsWith, List.filterMap_filter]
  congr 2
  funext name
  unfold resultOf?
  cases detects : engine.detects name with
  | true => rw [contains_of_detects detects]; rfl
  | false => simp

theorem rank_results (engine : Engine) (results : List Highlighted) :
    Ranking.rank engine.precedes results = (engine.order results).map results.get := by
  nth_rewrite 1 [← List.map_get_finRange results]
  exact Ranking.rank_map results.get (List.finRange results.length)

theorem order_perm (engine : Engine) (results : List Highlighted) :
    (engine.order results).Perm (List.finRange results.length) :=
  Ranking.rank_perm _

theorem mem_order {results : List Highlighted} (position : Fin results.length) :
    position ∈ engine.order results :=
  (engine.order_perm results).mem_iff.mpr (List.mem_finRange position)

theorem order_nodup (engine : Engine) (results : List Highlighted) :
    (engine.order results).Nodup :=
  Ranking.rank_nodup (List.nodup_finRange _)

theorem precedes_of_before {results : List Highlighted} {first second : Fin results.length}
    (before : Ranking.Before (engine.order results) first second) (later : second < first) :
    engine.precedes (results.get first) (results.get second) = true := by
  have overtakes := Ranking.before_iff_of_pairwise.mp
    (Ranking.rank_overtakes (List.pairwise_lt_finRange results.length)) first second before
  rcases overtakes with earlier | ⟨-, precedes⟩
  · exact absurd earlier (not_lt.mpr later.le)
  · exact precedes

/-! ## The best result -/

/-- What a ranking of results keeps to, where `order` lists their positions: every result
has its place, none is less relevant than one behind it, and one that was given later stands
before one of the same relevance only if the grammar of that says that it extends its
grammar. -/
structure Ranks (engine : Engine) (results : List Highlighted)
    (order : List (Fin results.length)) : Prop where
  complete : order.Perm (List.finRange results.length)
  descending : order.Pairwise fun first second =>
    (results.get second).relevance ≤ (results.get first).relevance
  overtaking : ∀ first second, Ranking.Before order first second → second < first →
    ((results.get first).relevance == (results.get second).relevance) = true →
      ∃ subset superset, (results.get first).language = some subset ∧
        (results.get second).language = some superset ∧
        engine.extendsGrammar superset subset = true

section Defined

variable {results : List Highlighted}
  (defined : ∀ result ∈ results, result.relevance.isNaN = false)

include defined

theorem order_descending (engine : Engine) :
    (engine.order results).Pairwise fun first second =>
      (results.get second).relevance ≤ (results.get first).relevance := by
  have definedAt : ∀ position, (results.get position).relevance.isNaN = false :=
    fun position => defined _ (List.get_mem results position)
  have byLevel : (engine.order results).Pairwise fun first second =>
      Relevance.level (results.get second).relevance ≤
        Relevance.level (results.get first).relevance := by
    refine Ranking.rank_pairwise ?_ ?_ ?_ _
    · intro first second third firstOver secondOver
      exact secondOver.trans firstOver
    · intro first second
      exact (level_of_precedes (definedAt first) (definedAt second)).1
    · intro first second
      exact (level_of_precedes (definedAt first) (definedAt second)).2
  refine byLevel.imp ?_
  intro first second lower
  exact (Relevance.le_iff (definedAt second) (definedAt first)).mpr lower

theorem ranks_order (engine : Engine) : engine.Ranks results (engine.order results) where
  complete := engine.order_perm results
  descending := order_descending defined engine
  overtaking := by
    intro first second before later tie
    obtain ⟨one, other, isOne, isOther, -, isExtended⟩ :=
      (precedes_of_tie tie).mp (precedes_of_before before later)
    exact ⟨one, other, isOne, isOther, isExtended⟩

theorem relevance_le_best {best : Fin results.length} {others : List (Fin results.length)}
    (isOrder : engine.order results = best :: others) :
    ∀ result ∈ results, result.relevance ≤ (results.get best).relevance := by
  intro result member
  obtain ⟨position, rfl⟩ := List.get_of_mem member
  have isPlaced := @mem_order engine results position
  have descending := order_descending defined engine
  rw [isOrder] at isPlaced descending
  rcases List.mem_cons.mp isPlaced with rfl | isOther
  · rw [Relevance.le_iff (defined _ member) (defined _ member)]
  · exact (List.pairwise_cons.mp descending).1 position isOther

end Defined

section Detection

variable {results given : List Highlighted} {best : Fin results.length}
  {others : List (Fin results.length)}

theorem plain_before (isGiven : results = .plain text none :: given)
    {plain position : Fin results.length} (isPlain : plain.val = 0) (isOther : plain < position)
    (tie : ((results.get position).relevance == 0.0) = true) :
    Ranking.Before (engine.order results) plain position := by
  have plainResult : results.get plain = .plain text none := by
    subst isGiven
    rw [List.get_eq_getElem, List.getElem_of_eq rfl]
    simp only [isPlain, List.getElem_cons_zero]
  refine (Ranking.before_or_before isOther.ne (mem_order plain) (mem_order position)).resolve_right
    fun before => ?_
  have precedes := precedes_of_before before isOther
  rw [precedes_of_tie (by rwa [plainResult, plain_relevance]), plainResult] at precedes
  obtain ⟨one, other, -, isLanguage, -⟩ := precedes
  cases isLanguage

theorem detect_of_order (isResults : engine.results text candidates = results)
    (isOrder : engine.order results = best :: others) :
    engine.detect text candidates =
      { best := results.get best, runnerUp := others.head?.map results.get } := by
  rw [Engine.results] at isResults
  rw [detect, detectWith, bestOf, isResults, rank_results, isOrder, List.map_cons]
  exact congrArg (Detection.mk _) List.head?_map

theorem others_isSome (isOrder : engine.order results = best :: others)
    (isGiven : results = .plain text none :: given) : others.head?.isSome ↔ given ≠ [] := by
  have placed := (engine.order_perm results).length_eq
  rw [isOrder, List.length_finRange, List.length_cons] at placed
  have counted := congrArg List.length isGiven
  rw [← placed, List.length_cons, Nat.add_right_cancel_iff] at counted
  rw [List.isSome_head?, ← List.length_pos_iff, ← List.length_pos_iff, counted]

end Detection

def oneGrammar (name : String) (supersetOf : Option String) : Grammar.Definition where
  name
  supersetOf
  root :=
    { contains := some [.inline { beginPattern := some (.source "1"), relevance := some 1.0 }] }

/-- An engine with three grammars, the first of which extends the last. -/
def tiedEngine : Engine where
  registry :=
    ((({} : Registry).register "ext" (oneGrammar "ext" (some "script")) []).register
      "other" (oneGrammar "other" none) []).register "script" (oneGrammar "script" none) []

theorem finRange_split {count : Nat} (position : Fin count) :
    ∃ former later, List.finRange count = former ++ position :: later ∧
      ∀ other, other ∈ former ↔ other < position := by
  obtain ⟨former, later, split⟩ := List.append_of_mem (List.mem_finRange position)
  have ascending := List.pairwise_lt_finRange count
  rw [split, List.pairwise_append, List.pairwise_cons] at ascending
  obtain ⟨-, ⟨above, -⟩, across⟩ := ascending
  refine ⟨former, later, split, fun other => ?_⟩
  constructor
  · intro member
    exact across other member position List.mem_cons_self
  · intro below
    have member := List.mem_finRange other
    rw [split, List.mem_append, List.mem_cons] at member
    rcases member with isFormer | rfl | isLater
    · exact isFormer
    · exact absurd below (lt_irrefl _)
    · exact absurd below (above other isLater).not_gt

/-- Of two equally relevant results, where only the grammar of the first says that it extends
the grammar of the second, the second stands before the first exactly if it was given before
it, or precedes all results that were given before it and stand behind the first.  So then
the first is not the best. -/
theorem subset_before_superset_iff (engine : Engine) (text : String)
    (candidates : Option (List String)) (results : List Highlighted)
    (isResults : engine.results text candidates = results) (first second : Fin results.length)
    (superset subset : String)
    (tie : ((results.get first).relevance == (results.get second).relevance) = true)
    (isSuperset : (results.get first).language = some superset)
    (isSubset : (results.get second).language = some subset)
    (isExtended : engine.extendsGrammar superset subset = true)
    (notExtended : engine.extendsGrammar subset superset = false) :
    (Ranking.Before (engine.order results) second first ↔
      second < first ∨
        ∀ other < second, Ranking.Before (engine.order results) first other →
          engine.precedes (results.get second) (results.get other) = true) ∧
    (Ranking.Before (engine.order results) second first →
      (engine.order results).head? ≠ some first ∧
        ∃ best, (engine.order results).head? = some best ∧
          (engine.detect text candidates).best = results.get best) := by
  have precedes : engine.precedes (results.get second) (results.get first) = true :=
    (precedes_of_tie (Relevance.beq_comm tie)).mpr
      ⟨subset, superset, isSubset, isSuperset, notExtended, isExtended⟩
  constructor
  · rcases lt_trichotomy first second with earlier | rfl | later
    · obtain ⟨former, later, split, isFormer⟩ := finRange_split second
      have isExact := @Ranking.before_rank_iff _
        (fun one other => engine.precedes (results.get one) (results.get other)) second first
        former later (split ▸ List.nodup_finRange _) ((isFormer first).mpr earlier)
      simp only [← split, precedes, true_and, isFormer] at isExact
      rw [or_iff_right earlier.not_gt]
      exact isExact
    · cases isSuperset.symm.trans isSubset
      cases isExtended.symm.trans notExtended
    · refine iff_of_true ?_ (.inl later)
      refine (Ranking.before_or_before later.ne (mem_order second) (mem_order first)).resolve_right
        fun before => ?_
      obtain ⟨one, other, isOne, isOther, notOther, -⟩ :=
        (precedes_of_tie tie).mp (precedes_of_before before later)
      cases isSuperset.symm.trans isOne
      cases isSubset.symm.trans isOther
      cases isExtended.symm.trans notOther
  · intro before
    have nodup := engine.order_nodup results
    cases isOrder : engine.order results with
    | nil =>
      rw [isOrder] at before
      cases before
    | cons best others =>
      rw [detect_of_order isResults isOrder]
      rw [isOrder] at before nodup
      refine ⟨?_, best, rfl, rfl⟩
      rintro ⟨⟩
      rw [Ranking.before_cons_iff] at before
      rcases before with ⟨rfl, isOther⟩ | isOther
      · exact (List.nodup_cons.mp nodup).1 isOther
      · exact (List.nodup_cons.mp nodup).1 isOther.mem_second

/-- The results of the grammar that extends another one and of that other one. -/
def pairResults : List Highlighted :=
  tiedEngine.results "1" (some ["ext", "script"])

theorem pairResults_length : pairResults.length = 3 := by
  decide +kernel

theorem subset_before_superset_of_pair :
    ∃ first second, (pairResults.get first).language = some "ext" ∧
      (pairResults.get second).language = some "script" ∧ first < second ∧
      Ranking.Before (tiedEngine.order pairResults) second first := by
  have isExact := subset_before_superset_iff tiedEngine "1" (some ["ext", "script"]) pairResults
    rfl ⟨1, pairResults_length ▸ by decide⟩ ⟨2, pairResults_length ▸ by decide⟩ "ext" "script"
    (by decide +kernel) (by decide +kernel) (by decide +kernel) (by decide +kernel)
    (by decide +kernel)
  exact ⟨_, _, by decide +kernel, by decide +kernel, by decide +kernel,
    isExact.1.mpr (.inr (by decide +kernel))⟩

/-- The grammar that extends another one is the best although the other one has the same
relevance, because an unrelated grammar stands between them. -/
theorem superset_best_of_tie :
    (tiedEngine.detect "1" none).best.language = some "ext" ∧
      tiedEngine.extendsGrammar "ext" "script" = true ∧
      tiedEngine.extendsGrammar "script" "ext" = false ∧
      ∃ result ∈ tiedEngine.results "1" none, result.language = some "script" ∧
        (result.relevance == (tiedEngine.detect "1" none).best.relevance) = true := by
  decide +kernel

end Highlighter.Engine

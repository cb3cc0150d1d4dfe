import Highlighter.Proofs.Suffixes
import Highlighter.Proofs.UnitedSources

/-!
# Counted groups

The groups of a source are counted from its tokens, and an expression has to have as many.  For
sources that can be moved both count alike.  What is compiled has these groups too, unless it is
an automaton in which the last ones are never entered.
-/
namespace Highlighter

open Pattern (Token countGroups joinCapturing)
open Regex (Expression)

variable {source : String} {ignoreCase : Bool} {expression : Expression}

/-! ## The only group of a pattern -/

namespace Regex.Expression

open Reading (shiftNumber)

theorem inside_single (sound : expression.IsSound) :
    (Part.mk 1 expression).IsIn expression.single where
  sound := sound
  within := Nat.le_of_eq (Nat.add_comm 1 expression.groups)
  located := by
    intro number positive _
    rw [single_referenced, List.mem_map]
    constructor
    · rintro ⟨other, member, isMoved⟩
      have same : other = number := by
        unfold shiftNumber at isMoved
        split at isMoved <;> simp only at isMoved <;> omega
      exact same ▸ member
    · exact fun member => ⟨number, member, if_neg (Nat.ne_of_gt positive)⟩

theorem isHard_single (sound : expression.IsSound) :
    expression.single.isHard = expression.isHard := by
  have measured := ((inside_single sound).fits (Nat.le_refl _)).measure
  have unreferenced : 1 ∉ expression.single.referenced := by
    rw [single_referenced, List.mem_map]
    rintro ⟨number, -, isMoved⟩
    unfold shiftNumber at isMoved
    split at isMoved <;> omega
  have isInner : ((expression.node.rename (shiftNumber 1)).measure
      expression.single.referenced).hard = expression.isHard :=
    congrArg Measure.hard measured
  rw [isHard, single_node, Node.measure]
  simp only [isInner, List.contains_eq_mem, unreferenced, decide_false, Bool.or_false]

theorem isPlanned_single (sound : expression.IsSound) (planned : expression.IsPlanned) :
    expression.single.IsPlanned := by
  rcases planEach_parts (List.forall_mem_singleton.mpr (inside_single sound)) (Nat.le_refl _) with
    ⟨made, -, isMade, -⟩ | ⟨-, unplanned⟩
  · obtain ⟨code, register, isCode, -⟩ := Success.run_bind_eq_ok.mp isMade
    refine ⟨(.group 1 code, register), ?_⟩
    simp only [single_node, Code.plan, Bool.not_true, Bool.false_and, Bool.false_eq_true, if_false]
    exact Success.run_bind_eq_ok.mpr ⟨code, register, isCode, rfl⟩
  · simp [planned] at unplanned

theorem greatest_single (expression : Expression) (base : Nat) :
    Automaton.greatest (expression.single.node.fragment base) =
      Automaton.greatest (expression.node.fragment 0) + 1 := by
  have monotone (number other : Nat) (order : number ≤ other) :
      shiftNumber 1 number ≤ shiftNumber 1 other := by
    unfold shiftNumber
    split <;> split <;> omega
  rw [single_node, Node.fragment, Automaton.greatest, Automaton.greatest_append,
    Automaton.greatest_rename rfl monotone]
  simp only [Automaton.greatest, State.number, shiftNumber]
  split <;> omega

end Regex.Expression

/-! ## Sources that are accepted -/

namespace Regex

theorem groups_of_read (isPortable : Pattern.isPortable source)
    (fits : (Token.ofSource source.toList).all (Token.staysBehind 0))
    (isRead : Expression.read (pattern source ignoreCase).toList = .ok expression) :
    expression.groups = countGroups source := by
  obtain ⟨outline, outlines, rfl⟩ := Reading.readsAs_of_read isPortable isRead
  have isSource : source.toList = Text.join ['|'] (Reading.Piece.texts 0 [.bare source.toList]) :=
    (Pattern.moved_of_staysBehind fits).symm
  have counts := (Reading.read_united (.cons ⟨isPortable, outlines⟩ .nil) (List.cons_ne_nil _ _)
    isPortable isRead (.inl isSource)).2
  exact (List.cons.inj counts).1

/-- As the only group of a pattern a source is read as before, or it is nested too deep then. -/
theorem read_single (isPortable : Pattern.isPortable source)
    (isRead : Expression.read (pattern source ignoreCase).toList = .ok expression)
    (counts : expression.groups = countGroups source) (few : countGroups source + 1 < Word.size 64) :
    Expression.read (pattern (joinCapturing "|" [source]) ignoreCase).toList =
        .ok expression.single ∨
      Expression.read (pattern (joinCapturing "|" [source]) ignoreCase).toList =
        .error .nestedTooDeep := by
  have readsAs := Reading.readsAs_of_read isPortable isRead
  have pairs : ∀ part ∈ [source].map String.toList,
      2 * Pattern.groupsIn 0 part ≤ Reading.parentheses part := by
    refine List.forall_mem_singleton.mpr ?_
    have isCount : Pattern.groupsIn 0 source.toList = expression.groups := counts.symm
    rw [isCount]
    exact readsAs.groups_le
  rcases @Reading.read_join_settles (fun cause => cause = .unreadable ∨ cause = .nestedTooDeep)
    ignoreCase 0 expression [] (.inl rfl) ⟨Nat.zero_le 1, .inl (.inr rfl)⟩ source []
    (.cons ⟨isPortable, readsAs⟩ .nil)
    (.inr ⟨Reading.width_lt_referenceBound ignoreCase pairs, few⟩) with
    ⟨joined, isJoined, rfl, -⟩ | ⟨cause, fails, rfl | rfl⟩
  · exact .inl (isJoined.trans (congrArg Except.ok expression.join_nil))
  · exact absurd fails (Expression.read_ne_unreadable _)
  · exact .inr fails

section Compiled

variable {regex : Regex} (compiled : compile source ignoreCase = .ok regex)
  (isRead : Expression.read (pattern source ignoreCase).toList = .ok expression)

include compiled isRead

theorem groups_eq_iff :
    regex.groups = expression.groups ↔ expression.isHard = true ∨ expression.TakesAll := by
  rcases compile_of_read compiled isRead with ⟨hard, code, -, rfl⟩ | ⟨easy, automaton, made, rfl⟩
  · exact iff_of_true rfl (.inl hard)
  · rw [Automaton.eq_forNodes made]
    simp only [Automaton.groups_forNodes, Automaton.greatest_fragment _ 1 0, easy,
      Bool.false_eq_true, false_or]
    rfl

theorem compile_single (isSingle : Expression.read
      (pattern (joinCapturing "|" [source]) ignoreCase).toList = .ok expression.single) :
    (∃ only, compile (joinCapturing "|" [source]) ignoreCase = .ok only ∧
        only.groups = regex.groups + 1) ∨
      expression.isHard = false ∧ Automaton.sizeLimit < expression.node.cost + 48 ∧
        compile (joinCapturing "|" [source]) ignoreCase = .error .tooLarge := by
  have sound := Expression.read_sound isRead
  rcases compile_of_read compiled isRead with
    ⟨hard, code, isCode, rfl⟩ | ⟨easy, automaton, made, rfl⟩
  · obtain ⟨other, isOther⟩ := compile_hard isSingle ((Expression.isHard_single sound).trans hard)
      (Expression.isPlanned_single sound ((Expression.isPlanned_iff _).mpr ⟨code, isCode⟩))
    exact .inl ⟨_, isOther, rfl⟩
  · have bounds : expression.single.node.hasValidBounds = true :=
      (Node.hasValidBounds_rename _ _).trans (Automaton.limits_of_ofNodes made).1
    have isCost : expression.single.node.cost = expression.node.cost + 48 :=
      congrArg (· + 48) (Node.cost_rename _ _)
    have isMade := compile_easy isSingle ((Expression.isHard_single sound).trans easy) bounds
    rw [isCost] at isMade
    split at isMade
    · exact .inr ⟨easy, ‹_›, isMade⟩
    · refine .inl ⟨_, isMade, ?_⟩
      rw [Automaton.eq_forNodes made, Automaton.groups_forNodes, Automaton.greatest_fragment _ 1 0]
      exact Expression.greatest_single expression 0

end Compiled

end Regex

/-! ## Counts and rules -/

namespace Rule

/-- Counting the groups of a source agrees with reading it.  What is compiled has as many groups
unless it is an automaton that does not note the last of them, as those that are repeated no time
at all.  Only then, or if there is no room left for one group more, is the source refused as the
only rule. -/
theorem groups_counted {regex : Regex} (isPortable : Pattern.isPortable source)
    (fits : (Token.ofSource source.toList).all (Token.staysBehind 0))
    (few : countGroups source + 1 < Word.size 64)
    (compiled : Regex.compile source ignoreCase = .ok regex) (kind : RuleKind) :
    ∃ expression,
      Expression.read (Regex.pattern source ignoreCase).toList = .ok expression ∧
      expression.groups = countGroups source ∧
      (regex.groups = countGroups source ↔ expression.isHard = true ∨ expression.TakesAll) ∧
      (∀ only, Alternation.compile [⟨source, kind⟩] ignoreCase = .ok only →
        regex.groups = countGroups source) ∧
      ∀ cause, Alternation.compile [⟨source, kind⟩] ignoreCase = .error cause →
        cause = .invalidPattern (joinCapturing "|" [source]) .nestedTooDeep ∨
        cause = .invalidPattern (joinCapturing "|" [source]) .tooLarge ∧
          expression.isHard = false ∧ Regex.Automaton.sizeLimit < expression.node.cost + 48 ∨
        cause = .groupMismatch (joinCapturing "|" [source]) (countGroups source + 1)
            (regex.groups + 1) ∧
          regex.groups ≠ countGroups source := by
  obtain ⟨expression, isRead, -⟩ := Regex.compile_ok compiled
  have counts := Regex.groups_of_read isPortable fits isRead
  have agree := Regex.groups_eq_iff compiled isRead
  rw [counts] at agree
  refine ⟨expression, isRead, counts, agree, ?_⟩
  have refused {reason : Regex.PatternError}
      (fails : Regex.compile (joinCapturing "|" [source]) ignoreCase = .error reason) :
      Alternation.compile [⟨source, kind⟩] ignoreCase =
        .error (.invalidPattern (joinCapturing "|" [source]) reason) := by
    simp only [Alternation.compile, List.map_cons, List.map_nil, fails]
  rcases Regex.read_single isPortable isRead counts few with isSingle | tooDeep
  · rcases Regex.compile_single compiled isRead isSingle with
      ⟨joined, isJoined, isGroups⟩ | ⟨easy, isLarge, fails⟩
    · refine ⟨fun only isOnly => ?_, fun cause isCause => ?_⟩
      · obtain ⟨-, ⟨isEmpty, -⟩ | ⟨-, other, -, isOther, isCount⟩⟩ := Alternation.compile_ok isOnly
        · cases isEmpty
        · cases isJoined.symm.trans isOther
          exact Nat.succ_inj.mp (isGroups.symm.trans isCount)
      · rcases Alternation.compile_eq_error isCause with
          ⟨reason, isReason, -⟩ | ⟨other, isOther, differ, rfl⟩
        · cases isJoined.symm.trans isReason
        · cases isJoined.symm.trans isOther
          rw [isGroups] at differ ⊢
          exact .inr (.inr ⟨rfl, fun same => differ (congrArg (· + 1) same)⟩)
    · refine ⟨fun only isOnly => ?_, fun cause isCause => ?_⟩
      · cases (refused fails).symm.trans isOnly
      · cases (refused fails).symm.trans isCause
        exact .inr (.inl ⟨rfl, easy, isLarge⟩)
  · have fails : Regex.compile (joinCapturing "|" [source]) ignoreCase = .error .nestedTooDeep := by
      rw [Regex.compile, tooDeep]
      rfl
    refine ⟨fun only isOnly => ?_, fun cause isCause => ?_⟩
    · cases (refused fails).symm.trans isOnly
    · cases (refused fails).symm.trans isCause
      exact .inl rfl

/-- Openings in a class and behind a backslash are no groups, and a reference takes a machine. -/
theorem groups_counted_referenced :
    ∃ regex only, Regex.compile "([(]\\()(?:b)\\1" false = .ok regex ∧
      regex.groups = countGroups "([(]\\()(?:b)\\1" ∧
      Alternation.compile [⟨"([(]\\()(?:b)\\1", .leave⟩] false = .ok only := by
  have evaluated : ((Regex.compile "([(]\\()(?:b)\\1" false).toOption.isSome &&
      (Alternation.compile [⟨"([(]\\()(?:b)\\1", .leave⟩] false).toOption.isSome) = true := by
    decide +kernel
  simp only [Bool.and_eq_true, Option.isSome_iff_exists, Success.toOption_eq_some] at evaluated
  obtain ⟨⟨regex, compiled⟩, only, isOnly⟩ := evaluated
  obtain ⟨-, -, -, -, accepted, -⟩ := groups_counted (by decide +kernel) (by decide +kernel)
    (by decide +kernel) compiled .leave
  exact ⟨regex, only, compiled, accepted only isOnly, isOnly⟩

/-- An opening in a comment is counted, and one in a group that is repeated no time at all is
not compiled.  Both sources are accepted alone and refused as the only rule. -/
theorem groups_miscounted :
    (["(?#(a)b", "(a)\x7b0\x7db"].all fun source => countGroups source == 1 &&
      ((Regex.compile source false).toOption.any fun regex => regex.groups == 0) &&
      (Alternation.compile [⟨source, .leave⟩] false).toOption.isNone) = true := by
  decide +kernel

end Rule
end Highlighter

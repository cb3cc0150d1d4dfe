import Highlighter.Proofs.Matcher
import Highlighter.Proofs.Regex.Acceptance
import Highlighter.Proofs.Regex.Parts

/-!
# Alternations of the last rules

When a mode is not entered after all, the search goes on with the rules behind the one that let
it begin, and these are joined only then.  If every rule can stand alone, the rules from any
position on are joined as all rules are, except that they can take an automaton where all rules
take a machine, and the automaton can be too large.
-/
namespace Highlighter

open Regex (Expression)
open Regex.Reading (IsAccepted Outline Piece)

variable {rules : List Rule} {expressions : List Expression}

namespace Regex

variable {source : String} {ignoreCase : Bool} {expression : Expression}
  (read : Expression.read (pattern source ignoreCase).toList = .ok expression)

include read

theorem compile_eq :
    compile source ignoreCase =
      if expression.isHard then do
        let code ← Code.ofExpression expression
        return { groups := expression.groups, strategy := .machine code }
      else do
        let automaton ← Automaton.ofNodes [expression.node]
        return { groups := automaton.groups, strategy := .automaton automaton } := by
  rw [compile, read]
  rfl

theorem compile_hard (hard : expression.isHard = true) (planned : expression.IsPlanned) :
    ∃ code, compile source ignoreCase =
      .ok { groups := expression.groups, strategy := .machine code } := by
  obtain ⟨code, isCode⟩ := expression.isPlanned_iff.mp planned
  refine ⟨code, ?_⟩
  rw [compile_eq read, if_pos hard, isCode]
  rfl

theorem compile_easy (easy : expression.isHard = false)
    (bounds : expression.node.hasValidBounds = true) :
    compile source ignoreCase =
      if Automaton.sizeLimit < expression.node.cost then .error .tooLarge
      else
        .ok
          { groups := Automaton.greatest (expression.node.fragment 0)
            strategy := .automaton (.forNodes [expression.node]) } := by
  have made : Automaton.ofNodes [expression.node] =
      if Automaton.sizeLimit < expression.node.cost then .error .tooLarge
      else .ok (.forNodes [expression.node]) := by
    have isBounds : Node.haveValidBounds [expression.node] = true := by
      simp [Node.haveValidBounds, bounds]
    have isCost : Node.costOf [expression.node] = expression.node.cost := by
      simp [Node.costOf]
    rw [Automaton.ofNodes, isBounds, isCost]
    rfl
  rw [compile_eq read, if_neg (Bool.eq_false_iff.mp easy), made,
    Automaton.greatest_fragment _ 0 1, ← Automaton.groups_forNodes]
  split <;> rfl

end Regex

/-! ## Rules that can stand alone -/

namespace Rule

variable {ignoreCase : Bool}

/-- Whether a rule does not depend on the rules around it: its source can be moved, and it is
accepted both alone and as the only rule. -/
def isSelfContained (ignoreCase : Bool) (rule : Rule) : Bool :=
  Pattern.isPortable rule.source &&
    (Regex.compile rule.source ignoreCase).toOption.isSome &&
    (Alternation.compile [rule] ignoreCase).toOption.isSome

def needsMachine (ignoreCase : Bool) (rule : Rule) : Bool :=
  match Regex.compile (Pattern.joinCapturing "|" [rule.source]) ignoreCase with
  | .ok { strategy := .machine _, .. } => true
  | _ => false

/-- What a rule that can stand alone is read as. -/
structure Reads (ignoreCase : Bool) (rule : Rule) (expression : Expression) : Prop where
  accepted : IsAccepted ignoreCase rule.source expression
  sound : expression.IsSound
  needsMachine : rule.needsMachine ignoreCase = expression.single.isHard
  bounds : expression.single.isHard = false → expression.single.node.hasValidBounds = true
  takesAll : expression.single.isHard = false → expression.single.TakesAll

theorem exists_reads {rule : Rule} (selfContained : rule.isSelfContained ignoreCase) :
    ∃ expression, rule.Reads ignoreCase expression := by
  simp only [isSelfContained, Bool.and_eq_true, Option.isSome_iff_exists,
    Success.toOption_eq_some] at selfContained
  obtain ⟨⟨isPortable, alone, isAlone⟩, only, isOnly⟩ := selfContained
  obtain ⟨-, ⟨isEmpty, -⟩ | ⟨-, regex, -, isRegex, isGroups⟩⟩ := Alternation.compile_ok isOnly
  · cases isEmpty
  · obtain ⟨expression, isRead, -⟩ := Regex.compile_ok isAlone
    obtain ⟨grouped, isGrouped, -⟩ := Regex.compile_ok isRegex
    have accepted : IsAccepted ignoreCase rule.source expression :=
      ⟨isPortable, isRead, grouped, isGrouped⟩
    obtain ⟨rfl, -⟩ := Regex.Reading.read_join (.cons ⟨isPortable, isRead⟩ .nil) isGrouped
    rw [Expression.join_nil] at isGrouped
    have isCount : Alternation.groupCount (Alternation.number 1 [rule]) =
        expression.single.groups := by
      rw [Expression.single_groups, accepted.groups]
      rfl
    have isRegex : Regex.compile (Pattern.joinCapturing "|" [rule.source]) ignoreCase =
        .ok regex := isRegex
    have sound := Expression.read_sound isRead
    rcases Regex.compile_of_read isRegex isGrouped with
      ⟨hard, code, -, rfl⟩ | ⟨easy, automaton, made, rfl⟩
    · have needed : rule.needsMachine ignoreCase = true := by rw [needsMachine, isRegex]
      exact ⟨expression, accepted, sound, needed.trans hard.symm, by simp [hard], by simp [hard]⟩
    · have unneeded : rule.needsMachine ignoreCase = false := by rw [needsMachine, isRegex]
      refine ⟨expression, accepted, sound, unneeded.trans easy.symm,
        fun _ => (Regex.Automaton.limits_of_ofNodes made).1, fun _ => ?_⟩
      obtain rfl := Regex.Automaton.eq_forNodes made
      rw [Expression.TakesAll, Regex.Automaton.greatest_fragment _ 0 1,
        ← Regex.Automaton.groups_forNodes, ← isCount, ← isGroups]

theorem exists_reads_each (selfContained : ∀ rule ∈ rules, rule.isSelfContained ignoreCase) :
    ∃ expressions, List.Forall₂ (Reads ignoreCase) rules expressions := by
  induction rules with
  | nil => exact ⟨[], .nil⟩
  | cons rule rules ih =>
    obtain ⟨isFirst, areOthers⟩ := List.forall_mem_cons.mp selfContained
    obtain ⟨expression, reads⟩ := exists_reads isFirst
    obtain ⟨expressions, readEach⟩ := ih areOthers
    exact ⟨expression :: expressions, .cons reads readEach⟩

theorem forall_of_reads (reads : List.Forall₂ (Reads ignoreCase) rules expressions)
    {property : Expression → Prop}
    (holds : ∀ {rule expression}, Reads ignoreCase rule expression → property expression) :
    ∀ expression ∈ expressions, property expression := by
  induction reads with
  | nil => simp
  | cons isFirst _ ih =>
    exact List.forall_mem_cons.mpr ⟨holds isFirst, ih⟩

theorem any_needsMachine (reads : List.Forall₂ (Reads ignoreCase) rules expressions) :
    rules.any (needsMachine ignoreCase) =
      expressions.any fun expression => expression.single.isHard := by
  induction reads with
  | nil => rfl
  | cons isFirst _ ih =>
    rw [List.any_cons, List.any_cons, isFirst.needsMachine, ih]

end Rule

/-! ## Joined rules -/

namespace Alternation

variable {ignoreCase : Bool}

variable {cause : CompileError}

theorem groupCount_number (wrapper : Nat) (rules : List Rule) :
    groupCount (number wrapper rules) =
      Piece.width (((rules.map Rule.source).map String.toList).map .captured) := by
  induction rules generalizing wrapper with
  | nil => rfl
  | cons rule rules ih =>
    rw [number, groupCount, ih]
    rfl

theorem groupCount_rest_le (wrapper : Nat) (front rest : List Rule) :
    groupCount (number wrapper rest) ≤ groupCount (number wrapper (front ++ rest)) := by
  rw [groupCount_number, groupCount_number]
  induction front with
  | nil => exact Nat.le_refl _
  | cons rule front ih =>
    exact Nat.le_trans ih (Nat.le_add_left _ _)

theorem groupCount_of_reads (reads : List.Forall₂ (Rule.Reads ignoreCase) rules expressions)
    (wrapper : Nat) :
    groupCount (number wrapper rules) = Outline.width (expressions.map .captured) := by
  induction reads generalizing wrapper with
  | nil => rfl
  | cons isFirst _ ih =>
    rw [number, groupCount, ih, List.map_cons, Outline.width, Outline.captured,
      isFirst.accepted.groups]
    rfl

theorem compile_eq_error (fails : compile rules ignoreCase = .error cause) :
    (∃ reason, Regex.compile (Pattern.joinCapturing "|" (rules.map Rule.source)) ignoreCase =
        .error reason ∧
      cause = .invalidPattern (Pattern.joinCapturing "|" (rules.map Rule.source)) reason) ∨
      ∃ regex, Regex.compile (Pattern.joinCapturing "|" (rules.map Rule.source)) ignoreCase =
        .ok regex ∧ regex.groups ≠ groupCount (number 1 rules) ∧
      cause = .groupMismatch (Pattern.joinCapturing "|" (rules.map Rule.source))
        (groupCount (number 1 rules)) regex.groups := by
  unfold compile at fails
  split at fails
  · cases fails
  · simp only at fails
    split at fails
    · cases fails
      exact .inl ⟨_, ‹_›, rfl⟩
    · rename_i regex isRegex
      split at fails
      · cases fails
      · cases fails
        exact .inr ⟨regex, isRegex, ‹_›, rfl⟩

section Joined

variable {rule : Rule} {rules : List Rule} {expression : Expression}
  {expressions : List Expression} (reads : List.Forall₂ (Rule.Reads ignoreCase) (rule :: rules)
    (expression :: expressions)) (fits : groupCount (number 1 (rule :: rules)) < Word.size 64)

include reads fits

theorem read_of_reads :
    Expression.read (Regex.pattern
        (Pattern.joinCapturing "|" ((rule :: rules).map Rule.source)) ignoreCase).toList =
      .ok (Expression.join expression expressions) := by
  rw [groupCount_number] at fits
  refine Regex.Reading.read_join_of_accepted ?_ fits
  exact List.forall₂_map_left_iff.mpr (reads.imp fun _ _ isRead => isRead.accepted)

theorem compile_easy_of_reads (easy : (Expression.join expression expressions).isHard = false) :
    Regex.compile (Pattern.joinCapturing "|" ((rule :: rules).map Rule.source)) ignoreCase =
      if Regex.Automaton.sizeLimit < (Expression.join expression expressions).node.cost then
        .error .tooLarge
      else
        .ok
          { groups := (Expression.join expression expressions).groups
            strategy := .automaton
              (.forNodes [(Expression.join expression expressions).node]) } := by
  have sound := Rule.forall_of_reads reads Rule.Reads.sound
  have areEasy : ∀ part ∈ expression :: expressions, part.single.isHard = false := by
    rw [Expression.isHard_join sound] at easy
    simpa using easy
  have bounds := Rule.forall_of_reads reads Rule.Reads.bounds
  have takesAll := Rule.forall_of_reads reads Rule.Reads.takesAll
  rw [← Expression.takesAll_join fun part member => takesAll part member (areEasy part member)]
  exact Regex.compile_easy (read_of_reads reads fits) easy
    (Expression.hasValidBounds_join sound fun part member =>
      bounds part member (areEasy part member))

theorem limits_of_compile {alternation : Alternation}
    (compiled : compile (rule :: rules) ignoreCase = .ok alternation) :
    ((Expression.join expression expressions).isHard = true ∧
        (Expression.join expression expressions).IsPlanned) ∨
      (Expression.join expression expressions).isHard = false ∧
        (Expression.join expression expressions).node.cost ≤ Regex.Automaton.sizeLimit := by
  obtain ⟨-, ⟨isEmpty, -⟩ | ⟨-, regex, -, isRegex, -⟩⟩ := compile_ok compiled
  · cases isEmpty
  · rcases Regex.compile_of_read isRegex (read_of_reads reads fits) with
      ⟨hard, code, isCode, -⟩ | ⟨easy, automaton, made, -⟩
    · exact .inl ⟨hard, (Expression.isPlanned_iff _).mpr ⟨code, isCode⟩⟩
    · exact .inr ⟨easy, (Regex.Automaton.limits_of_ofNodes made).2⟩

theorem limits_of_compile_error (fails : compile (rule :: rules) ignoreCase = .error cause) :
    ((Expression.join expression expressions).isHard = true ∧
        ¬(Expression.join expression expressions).IsPlanned) ∨
      (Expression.join expression expressions).isHard = false ∧
        Regex.Automaton.sizeLimit < (Expression.join expression expressions).node.cost ∧
        cause = .invalidPattern
          (Pattern.joinCapturing "|" ((rule :: rules).map Rule.source)) .tooLarge := by
  have isCount : groupCount (number 1 (rule :: rules)) =
      (Expression.join expression expressions).groups := groupCount_of_reads reads 1
  cases isHard : (Expression.join expression expressions).isHard with
  | true =>
    refine .inl ⟨rfl, fun planned => ?_⟩
    obtain ⟨code, isRegex⟩ := Regex.compile_hard (read_of_reads reads fits) isHard planned
    rcases compile_eq_error fails with ⟨reason, isReason, -⟩ | ⟨regex, isOther, differ, -⟩
    · cases isReason.symm.trans isRegex
    · cases isOther.symm.trans isRegex
      exact differ isCount.symm
  | false =>
    have made := compile_easy_of_reads reads fits isHard
    rcases compile_eq_error fails with ⟨reason, isReason, rfl⟩ | ⟨regex, isOther, differ, -⟩
    · rw [isReason] at made
      split at made
      · cases made
        exact .inr ⟨rfl, ‹_›, rfl⟩
      · cases made
    · rw [isOther] at made
      split at made
      · cases made
      · cases made
        exact absurd isCount.symm differ

end Joined

/-- If all rules are accepted, so are the last ones, unless a rule in front of them takes a
machine and they themselves take an automaton that is too large. -/
theorem compile_rest_error {front rest : List Rule} {all : Alternation}
    (compiled : compile (front ++ rest) ignoreCase = .ok all)
    (selfContained : ∀ rule ∈ front ++ rest, rule.isSelfContained ignoreCase)
    (fits : groupCount (number 1 (front ++ rest)) < Word.size 64)
    (fails : compile rest ignoreCase = .error cause) :
    front.any (Rule.needsMachine ignoreCase) = true ∧
      rest.any (Rule.needsMachine ignoreCase) = false ∧
      cause = .invalidPattern
        (Pattern.joinCapturing "|" (rest.map Rule.source)) .tooLarge := by
  obtain ⟨ofFront, ofRest⟩ := List.forall_mem_append.mp selfContained
  obtain ⟨before, frontReads⟩ := Rule.exists_reads_each ofFront
  obtain ⟨behind, restReads⟩ := Rule.exists_reads_each ofRest
  have restFits := Nat.lt_of_le_of_lt (groupCount_rest_le 1 front rest) fits
  rw [Rule.any_needsMachine frontReads, Rule.any_needsMachine restReads]
  cases restReads with
  | nil => cases fails
  | @cons rule part rest parts isPart areParts =>
    cases frontReads with
    | nil => cases compiled.symm.trans fails
    | @cons first expression front expressions isFirst areOthers =>
      have restReads := List.Forall₂.cons isPart areParts
      have reads := List.Forall₂.cons isFirst (List.rel_append areOthers restReads)
      have sound := Rule.forall_of_reads reads Rule.Reads.sound
      have restSound := Rule.forall_of_reads restReads Rule.Reads.sound
      have isHard := Expression.isHard_join sound
      rw [← List.cons_append, List.any_append, ← Expression.isHard_join restSound] at isHard
      rw [← Expression.isHard_join restSound]
      rcases limits_of_compile_error restReads restFits fails with
        ⟨restHard, unplanned⟩ | ⟨restEasy, large, isCause⟩
      · -- Then all rules take a machine too, and it has been planned.
        rcases limits_of_compile reads fits compiled with ⟨-, planned⟩ | ⟨easy, -⟩
        · rw [Expression.isPlanned_join sound, ← List.cons_append,
            List.forall_mem_append] at planned
          exact absurd ((Expression.isPlanned_join restSound).mpr planned.2) unplanned
        · simp [easy, restHard] at isHard
      · rcases limits_of_compile reads fits compiled with ⟨hard, -⟩ | ⟨-, small⟩
        · rw [hard, restEasy, Bool.or_false] at isHard
          exact ⟨isHard.symm, restEasy, isCause⟩
        · have costs : (Expression.join part parts).node.cost ≤
              (Expression.join expression (expressions ++ part :: parts)).node.cost :=
            Expression.cost_join_le (List.cons_append ..).symm
          exact absurd (Nat.le_trans costs small) (Nat.not_le.mpr large)

end Alternation

/-! ## Matchers -/

namespace Matcher

/-- Whether all rules can stand alone.  Their groups can then be counted in a word. -/
def isSelfContained (matcher : Matcher) : Bool :=
  matcher.rules.all (Rule.isSelfContained matcher.ignoreCase) &&
    Alternation.groupCount (Alternation.number 1 matcher.rules) < Word.size 64

/-- The rules from a position on cannot be searched for together: they take an automaton that
is too large, whereas all rules take a machine because of a rule in front of that position. -/
structure Outgrows (matcher : Matcher) (position : Nat) (cause : CompileError) : Prop where
  inside : position < matcher.rules.length
  front : (matcher.rules.take position).any (Rule.needsMachine matcher.ignoreCase) = true
  rest : (matcher.rules.drop position).any (Rule.needsMachine matcher.ignoreCase) = false
  isCause : cause = .invalidPattern
    (Pattern.joinCapturing "|" ((matcher.rules.drop position).map Rule.source)) .tooLarge

section Compiled

variable {rules : List Rule} {ignoreCase : Bool} {matcher : Matcher}
  (compiled : compile rules ignoreCase = .ok matcher) (selfContained : matcher.isSelfContained)
  {place : Place} {cause : CompileError}

variable {position : Nat}

include compiled selfContained

theorem suffix_compile
    (rejected : Alternation.compile (rules.drop position) ignoreCase = .error cause) :
    matcher.Outgrows position cause := by
  obtain ⟨all, isAll, isMatcher⟩ := Success.bind_eq_ok.mp compiled
  obtain rfl := Except.ok.inj isMatcher
  simp only [isSelfContained, Bool.and_eq_true, List.all_eq_true, decide_eq_true_eq]
    at selfContained
  have isWhole := List.take_append_drop position rules
  obtain ⟨front, rest, isCause⟩ := Alternation.compile_rest_error (isWhole.symm ▸ isAll)
    (isWhole.symm ▸ selfContained.1) (isWhole.symm ▸ selfContained.2) rejected
  refine ⟨Nat.lt_of_not_le fun beyond => ?_, front, rest, isCause⟩
  rw [List.drop_eq_nil_of_le beyond] at rejected
  cases rejected

theorem searchSuffix_compile
    (fails : matcher.searchSuffix position place = .error (.compile cause)) :
    matcher.Outgrows position cause := by
  obtain ⟨-, suffixes⟩ := compile_ok compiled
  unfold searchSuffix at fails
  split at fails
  · cases fails
  · rename_i suffix listed
    split at fails
    · rename_i rejected
      cases fails
      exact suffix_compile compiled selfContained ((suffixes position suffix listed) ▸ rejected)
    · split at fails <;> cases fails

theorem next_compile {cursor : Cursor}
    (fails : matcher.next cursor place = .error (.compile cause)) :
    matcher.Outgrows cursor.position cause := by
  have first : ∀ next, ¬matcher.searchSuffix 0 next = .error (.compile cause) := by
    intro next fails
    have outgrown := searchSuffix_compile compiled selfContained fails
    simpa using outgrown.front
  rcases Success.bind_eq_error.mp fails with fails | ⟨found, -, fails⟩
  · rcases Success.bind_eq_error.mp fails with fails | ⟨found, -, fails⟩
    · exact searchSuffix_compile compiled selfContained fails
    · split at fails
      · cases fails
      · split at fails
        · cases fails
        · split at fails
          · exact absurd fails (first _)
          · cases fails
  · cases fails

end Compiled
end Matcher
end Highlighter

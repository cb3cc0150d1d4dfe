import Highlighter.Proofs.Faithful
import Highlighter.Proofs.RuleByRule
import Highlighter.Proofs.Sharing

/-!
# Matches that belong to no rule

Rules are accepted when they are joined and have as many groups as they seem to have.  So a source
that is no expression by itself can end the group that it is put in and open another one, and what
matches there belongs to no rule: the search comes to nothing.  Where every source is an expression
by itself, every match belongs to a rule.
-/
namespace Highlighter

open Regex (Expression Node)

namespace Regex

variable {nodes : List Node} {start stop : Place} {effect : Effect}

/-- A match of alternatives is a match of one of them, and notes the places that this notes. -/
theorem Matches.ofBranches (matched : Matches [Reading.ofBranches nodes] start stop effect)
    (nonempty : nodes ≠ []) :
    ∃ node ∈ nodes, ∃ inner, Matches [node] start stop inner ∧ effect.Covers inner := by
  obtain ⟨first, others, rfl⟩ := List.exists_cons_of_ne_nil nonempty
  cases others with
  | nil => exact ⟨_, List.mem_cons_self, effect, matched, .refl _⟩
  | cons second others => exact matched.single

def isAccepted (ignoreCase : Bool) (source : String) : Bool :=
  (compile source ignoreCase).toOption.isSome

theorem read_of_isAccepted {ignoreCase : Bool} {source : String}
    (accepted : isAccepted ignoreCase source) :
    ∃ expression, Expression.read (pattern source ignoreCase).toList = .ok expression := by
  obtain ⟨regex, isRegex⟩ := Option.isSome_iff_exists.mp accepted
  obtain ⟨expression, isRead, -⟩ := compile_ok (Success.toOption_eq_some.mp isRegex)
  exact ⟨expression, isRead⟩

end Regex

namespace Alternation

variable {rules : List Rule} {expressions : List Expression} {ignoreCase : Bool}
  {alternation : Alternation} {regex : Regex} {place : Place}

theorem exists_of_mem_parts {before : Nat}
    (counts : expressions.map Expression.groups =
      rules.map fun rule => Pattern.countGroups rule.source)
    {part : Regex.Part}
    (member : part ∈ Regex.Reading.Outline.parts before (expressions.map .captured)) :
    ∃ expression ∈ expressions, ∃ alternative ∈ number (before + 1) rules,
      part.node = .group alternative.wrapper
        (expression.node.rename (Regex.Reading.shiftNumber alternative.wrapper)) := by
  induction expressions generalizing before rules with
  | nil => cases member
  | cons expression expressions ih =>
    cases rules with
    | nil => cases counts
    | cons rule rules =>
      obtain ⟨sameCount, counts⟩ := List.cons.inj counts
      rw [Expression.parts_cons, List.mem_cons] at member
      rcases member with rfl | member
      · refine ⟨expression, List.mem_cons_self, _, List.mem_cons_self, ?_⟩
        have isFirst : Regex.Reading.shiftNumber before 1 = before + 1 := Nat.add_comm 1 before
        rw [Regex.Part.node, Expression.single_node, Node.rename, Node.rename_rename, isFirst]
        simp only [Regex.Reading.shiftNumber_shiftNumber]
      · rw [Expression.single_groups, sameCount, ← Nat.add_assoc] at member
        obtain ⟨other, isOther, alternative, listed, isNode⟩ := ih counts member
        rw [Nat.add_right_comm before, Nat.add_right_comm (before + 1)] at listed
        exact ⟨other, .tail _ isOther, alternative, .tail _ listed, isNode⟩

theorem exists_alternative? {alternatives : List Alternative} {alternative : Alternative}
    (member : alternative ∈ alternatives) (first : Nat) :
    ∃ entry, alternative? alternative.wrapper first alternatives = some entry := by
  induction alternatives generalizing first with
  | nil => cases member
  | cons head tail ih =>
    rw [alternative?]
    split
    · exact ⟨_, rfl⟩
    · rename_i other
      rcases List.mem_cons.mp member with rfl | inTail
      · exact absurd rfl other
      · exact ih inTail (first + 1)

/-- What the joined expression matches is what the group of one of the rules matches, and no
group in front of that takes part. -/
theorem exists_firstGroup {first : Expression} {others : List Expression} {source : String}
    (counts : (first :: others).map Expression.groups =
      rules.map fun rule => Pattern.countGroups rule.source)
    (sound : ∀ expression ∈ first :: others, expression.IsSound)
    (compiled : Regex.compile source ignoreCase = .ok regex)
    (isRead : Expression.read (Regex.pattern source ignoreCase).toList =
      .ok (Expression.join first others))
    (sameCount : regex.groups = groupCount (number 1 rules)) {result : Regex.Match}
    (searched : regex.search place = .ok (some result)) :
    ∃ alternative ∈ number 1 rules, ∃ span,
      firstGroup? 1 result.groups = some (alternative.wrapper, span) := by
  obtain ⟨slots, start, stop, effect, isMatch, -, matched, same⟩ :=
    Regex.searchFrom_matches compiled isRead searched
  rw [(Expression.join_madeOf sound).node] at matched
  obtain ⟨node, member, inner, matched, covers⟩ := matched.ofBranches
    (by simpa using (Expression.join_madeOf sound).nonempty)
  obtain ⟨part, isPart, rfl⟩ := List.mem_map.mp member
  obtain ⟨expression, isExpression, alternative, listed, isNode⟩ :=
    exists_of_mem_parts counts isPart
  rw [isNode] at matched
  obtain ⟨positive, bound⟩ := number_bounds listed
  rw [Nat.zero_add, ← sameCount] at bound
  have behind : ∀ number ∈ (expression.node.rename
      (Regex.Reading.shiftNumber alternative.wrapper)).groups, alternative.wrapper < number := by
    rw [Node.groups_rename, List.forall_mem_map]
    intro number isGroup
    have bounds := (sound expression isExpression).groups number isGroup
    rw [Regex.Reading.shiftNumber, if_neg (by omega)]
    omega
  obtain ⟨isStart, isStop, -⟩ := matched.ofGroup
    (fun isGroup => Nat.lt_irrefl _ (behind _ isGroup)) (by omega)
  have inside {slot : Nat} (isGroup : 1 < slot) (within : slot < 2 * regex.groups + 2) :
      slots.effect slot = effect slot := by
    rw [same slot within]
    simp [Regex.Effect.whole, Regex.Effect.write, show slot ≠ 0 by omega, show slot ≠ 1 by omega]
  have isSpan : slots.span? alternative.wrapper = some { start, stop } := by
    rw [Regex.span?_eq_some, inside (by omega) (by omega), inside (by omega) (by omega),
      covers.noted_iff, covers.noted_iff]
    exact ⟨isStart, isStop⟩
  have outside (number : Nat) (least : 1 ≤ number) (less : number < alternative.wrapper) :
      slots.span? number = none := by
    refine Option.eq_none_iff_forall_ne_some.mpr fun span isSpan => ?_
    rw [Regex.span?_eq_some, inside (by omega) (by omega), covers.noted_iff] at isSpan
    have unnoted : inner (2 * number) = none := by
      refine matched.unchanged (Regex.Matches.not_notable ?_ (by omega) (by omega : _ = number))
      rw [Node.groupsOf_singleton, Node.groups, List.mem_cons, not_or]
      exact ⟨Nat.ne_of_lt less, fun isGroup => Nat.lt_asymm less (behind _ isGroup)⟩
    rw [unnoted] at isSpan
    cases isSpan.1
  obtain ⟨-, -, -, isGroups⟩ := Regex.matchOfSlots?_eq_some isMatch
  refine ⟨alternative, listed, { start, stop }, ?_⟩
  -- The groups are those in front of the rule's, its own and those behind it.
  obtain ⟨before, isBefore⟩ := Nat.exists_eq_add_of_le positive
  obtain ⟨others, isCount⟩ := Nat.exists_eq_add_of_lt (show before < regex.groups by omega)
  rw [isGroups, isCount, isBefore, Nat.add_right_comm]
  rw [isBefore] at isSpan outside
  exact firstGroup?_groupSpans (fun offset below => outside _ (by omega) (by omega)) isSpan

section Accepted

variable (compiled : compile rules ignoreCase = .ok alternation)
  (isRegex : alternation.regex = some regex)
  (accepted : ∀ rule ∈ rules, Pattern.isPortable rule.source ∧
    Regex.isAccepted ignoreCase rule.source)

include compiled isRegex accepted

/-- Every match of the joined expression belongs to a rule. -/
theorem exists_ruleMatch {result : Regex.Match}
    (searched : regex.search place = .ok (some result)) :
    ∃ found, alternation.ruleMatch? result = some found := by
  obtain ⟨isNumber, ⟨-, noRegex⟩ | ⟨nonempty, _, isJoined, compiledRegex, sameCount⟩⟩ :=
    compile_ok compiled
  · rw [noRegex] at isRegex
    cases isRegex
  rw [isJoined] at isRegex
  cases isRegex
  obtain ⟨first, others, rfl⟩ := List.exists_cons_of_ne_nil nonempty
  obtain ⟨_, isRead, -⟩ := Regex.compile_ok compiledRegex
  choose! expressionOf reads using fun rule member =>
    Regex.read_of_isAccepted (accepted rule member).2
  have readEach : List.Forall₂ (fun source expression => Pattern.isPortable source ∧
      Expression.read (Regex.pattern source ignoreCase).toList = .ok expression)
      ((first :: others).map Rule.source) ((first :: others).map expressionOf) := by
    rw [List.forall₂_map_left_iff, List.forall₂_map_right_iff, List.forall₂_same]
    exact fun rule member => ⟨(accepted rule member).1, reads rule member⟩
  obtain ⟨rfl, counts⟩ := Regex.Reading.read_join readEach isRead
  have sound : ∀ expression ∈ (first :: others).map expressionOf, expression.IsSound :=
    List.forall_mem_map.mpr fun rule member => Expression.read_sound (reads rule member)
  obtain ⟨alternative, listed, span, isFirst⟩ :=
    exists_firstGroup (by simpa using counts) sound compiledRegex isRead sameCount searched
  obtain ⟨entry, located⟩ := exists_alternative? listed 0
  rw [← isNumber] at located
  simp [ruleMatch?, isFirst, located]

/-- A search for the rules comes to nothing only if the joined expression does not match. -/
theorem search_eq_none_iff :
    alternation.search place = .ok none ↔ regex.search place = .ok none := by
  simp only [search, isRegex]
  cases searched : regex.search place with
  | error cause => constructor <;> intro fails <;> cases fails
  | ok result =>
    cases result with
    | none => exact ⟨fun _ => rfl, fun _ => rfl⟩
    | some result =>
      obtain ⟨found, belongs⟩ := exists_ruleMatch compiled isRegex accepted searched
      constructor
      · intro isNone
        cases belongs.symm.trans (Except.ok.inj isNone)
      · intro isNone
        cases isNone

end Accepted

/-- Whether a search for rules comes to nothing where their joined expression matches. -/
def strays (ignoreCase : Bool) (place : Place) (rules : List Rule) : Bool :=
  match compile rules ignoreCase with
  | .error _ => false
  | .ok alternation =>
    (alternation.search place).toOption = some none ∧
      alternation.regex.any fun regex => (regex.search place).toOption.join.isSome

end Alternation

/-! ## The ends of modes -/

namespace Pattern

/-- A source that is made of sources that are expressions by themselves. -/
inductive IsUnited (ignoreCase : Bool) : String → Prop where
  | alone {source : String} (accepted : Regex.isAccepted ignoreCase source) :
      IsUnited ignoreCase source
  | either {own inherited : String} (accepted : Regex.isAccepted ignoreCase own)
      (united : IsUnited ignoreCase inherited) : IsUnited ignoreCase (own ++ "|" ++ inherited)

end Pattern

namespace Compiled

open Grammar (Child Definition Mode)
open Pattern (IsUnited)

variable {own : Option String} {ignoreCase : Bool}

theorem Compilation.compileEnd_isAccepted {endRegex : Option Regex}
    (isEnd : compileEnd own ignoreCase = .ok endRegex) :
    ∀ source ∈ own, Regex.isAccepted ignoreCase source := by
  rintro source ⟨⟩
  rw [compileEnd] at isEnd
  cases isRegex : Regex.compile source ignoreCase with
  | error cause =>
    rw [isRegex] at isEnd
    cases isEnd
  | ok regex =>
    rw [Regex.isAccepted, isRegex]
    rfl

theorem Compilation.joinTerminators_isUnited {inherited : String}
    (accepted : ∀ source ∈ own, Regex.isAccepted ignoreCase source)
    (united : inherited = "" ∨ IsUnited ignoreCase inherited) :
    joinTerminators own inherited = "" ∨ IsUnited ignoreCase (joinTerminators own inherited) := by
  unfold joinTerminators
  split
  case isTrue =>
    cases own with
    | none => exact .inl rfl
    | some own => exact .inr (.alone (accepted own rfl))
  case isFalse inherits =>
    have united := united.resolve_left (by simpa using inherits)
    cases own with
    | none => exact .inr united
    | some own => exact .inr (.either (accepted own rfl) united)

namespace CompiledGrammar

variable {definition : Definition} {grammar : CompiledGrammar}

/-- The ends that a terminator is made of are expressions by themselves: every mode brings its
own end, and that is compiled alone. -/
theorem terminator_isUnited (compiled : compile definition = .ok grammar) (number : Nat) :
    (grammar.mode number).terminator = "" ∨
      IsUnited grammar.caseInsensitive (grammar.mode number).terminator := by
  obtain ⟨compiler, origins, elaborated, finishes⟩ := elaborated_of_compile compiled
  obtain ⟨-, -, sameCase, -⟩ := compile_ok compiled
  -- A mode inherits from its parent, which has a smaller number.
  induction number using Nat.strongRecOn with
  | ind number ih =>
    by_cases inUse : number < grammar.modes.size
    · obtain ⟨draft, _, resolved, _, isDraft, -, described, -⟩ :=
        elaborated.filled number (finishes.size ▸ inUse)
      obtain ⟨-, rfl⟩ := finishes.eq_of_draft isDraft
      obtain ⟨_, _, drafted⟩ := described.drafted
      have isTerminator : (grammar.mode number).terminator = Compilation.joinTerminators
          (Compilation.endSourceOf resolved (grammar.mode number).parent.isSome)
          (grammar.inherited resolved (grammar.mode number).parent) := by
        rw [← finishes.inherited_eq]
        exact congrArg Draft.terminator drafted
      rw [isTerminator]
      refine Compilation.joinTerminators_isUnited
        (sameCase ▸ Compilation.compileEnd_isAccepted described.ending) ?_
      cases isParent : (grammar.mode number).parent with
      | none => exact .inl rfl
      | some parent =>
        rw [inherited]
        split
        · exact ih parent (parent_lt elaborated finishes isParent).1
        · exact .inl rfl
    · rw [mode_of_not_inUse inUse]
      exact .inl rfl

/-- The terminators of a compiled grammar are made of expressions.  If that holds of all rules of
a mode, and they can be moved, no match of their joined expression is lost. -/
theorem matches_of_accepted_rules (compiled : compile definition = .ok grammar) (number : Nat) :
    ((grammar.mode number).terminator = "" ∨
      IsUnited grammar.caseInsensitive (grammar.mode number).terminator) ∧
    ((∀ rule ∈ (grammar.mode number).matcher.rules, Pattern.isPortable rule.source ∧
        Regex.isAccepted grammar.caseInsensitive rule.source) →
      ∀ suffix ∈ (grammar.mode number).matcher.suffixes, ∀ alternation,
        suffix.get = .ok alternation → ∀ regex ∈ alternation.regex, ∀ place,
          (alternation.search place = .ok none ↔ regex.search place = .ok none)) := by
  refine ⟨terminator_isUnited compiled number, ?_⟩
  intro accepted suffix member alternation isAlternation regex isRegex place
  rcases matcher_of_compile compiled number with isInert | ⟨-, isMatcher⟩
  · rw [isInert] at member
    cases Array.not_mem_empty _ member
  · obtain ⟨position, isSuffix⟩ := Array.mem_iff_getElem?.mp member
    have joined := (Matcher.compile_ok isMatcher).2 position suffix isSuffix
    refine Alternation.search_eq_none_iff (joined.symm.trans isAlternation) isRegex ?_
    exact fun rule isRule => accepted rule (List.mem_of_mem_drop isRule)

/-- A mode with an end of its own that also ends with the mode around it. -/
def nestedDefinition : Definition where
  root :=
    { contains := some
        [.inline
          { beginPattern := some (.source "<")
            endPattern := some (.source ">")
            contains := some
              [.inline
                { beginPattern := some (.source "(a)\\1")
                  endPattern := some (.source ";")
                  endsWithParent := some true }] }] }

theorem matches_of_accepted_rules_nested :
    ∃ grammar, compile nestedDefinition = .ok grammar ∧
      (grammar.mode 2).terminator = ";|>" ∧ IsUnited false (grammar.mode 2).terminator ∧
      (grammar.mode 1).matcher.rules.map Rule.source = ["(a)\\1", ">"] ∧
      ∀ suffix ∈ (grammar.mode 1).matcher.suffixes, ∀ alternation,
        suffix.get = .ok alternation → ∀ regex ∈ alternation.regex, ∀ place,
          (alternation.search place = .ok none ↔ regex.search place = .ok none) := by
  have facts : ((compile nestedDefinition).toOption.map fun grammar =>
      (grammar.caseInsensitive, (grammar.mode 2).terminator,
        (grammar.mode 1).matcher.rules.map Rule.source)) =
        some (false, ";|>", ["(a)\\1", ">"]) := by
    decide +kernel
  obtain ⟨grammar, isGrammar, isFacts⟩ := Option.map_eq_some_iff.mp facts
  simp only [Prod.mk.injEq] at isFacts
  obtain ⟨sameCase, isTerminator, isRules⟩ := isFacts
  rw [Success.toOption_eq_some] at isGrammar
  have accepted : ∀ source ∈ (grammar.mode 1).matcher.rules.map Rule.source,
      Pattern.isPortable source ∧ Regex.isAccepted grammar.caseInsensitive source := by
    rw [isRules, sameCase]
    decide +kernel
  have united := (matches_of_accepted_rules isGrammar 2).1
  rw [isTerminator, sameCase] at united
  exact ⟨grammar, isGrammar, isTerminator, isTerminator ▸ united.resolve_left (by decide), isRules,
    (matches_of_accepted_rules isGrammar 1).2 (List.forall_mem_map.mp accepted)⟩

def beginningWith (sources : List String) : Definition where
  root :=
    { contains := some (sources.map fun source =>
        .inline { beginPattern := some (.source source) }) }

/-- A source that is no expression is compiled, and hides what it matches.  Of the two rules
behind it each one is an expression, but the first seems to have a group more than it has, and the
second a group less. -/
theorem malformed_source_compiled :
    (∃ grammar, compile (beginningWith ["x)|(y"]) = .ok grammar ∧
      (grammar.mode 0).matcher.rules = [⟨"x)|(y", .enter 1⟩] ∧
      Regex.isAccepted false "x)|(y" = false ∧
      Alternation.strays false (.start "y".toList) (grammar.mode 0).matcher.rules) ∧
    ∃ grammar, compile (beginningWith ["(?#()a", "(?x)#[\n(c)#]\n"]) = .ok grammar ∧
      (∀ rule ∈ (grammar.mode 0).matcher.rules, Regex.isAccepted false rule.source) ∧
      Alternation.strays false (.start "c".toList) (grammar.mode 0).matcher.rules := by
  have torn : ((compile (beginningWith ["x)|(y"])).toOption.map fun grammar =>
      (grammar.mode 0).matcher.rules) = some [⟨"x)|(y", .enter 1⟩] := by
    decide +kernel
  have miscounted : ((compile (beginningWith ["(?#()a", "(?x)#[\n(c)#]\n"])).toOption.map
      fun grammar => (grammar.mode 0).matcher.rules) =
        some [⟨"(?#()a", .enter 1⟩, ⟨"(?x)#[\n(c)#]\n", .enter 2⟩] := by
    decide +kernel
  simp only [Option.map_eq_some_iff, Success.toOption_eq_some] at torn miscounted
  obtain ⟨first, isFirst, firstRules⟩ := torn
  obtain ⟨second, isSecond, secondRules⟩ := miscounted
  refine ⟨⟨first, isFirst, firstRules, ?_⟩, second, isSecond, ?_⟩
  · rw [firstRules]
    decide +kernel
  · rw [secondRules]
    decide +kernel

end CompiledGrammar
end Compiled
end Highlighter

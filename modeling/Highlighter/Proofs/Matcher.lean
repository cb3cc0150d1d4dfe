import Highlighter.Compiled.Matcher
import Highlighter.Proofs.Success

/-!
# The rule of a match

A match of joined rules belongs to one of the rules: it has its kind, and it names its
position among them.
-/
namespace Highlighter

variable {rules : List Rule} {ignoreCase : Bool} {found : RuleMatch} {place : Place}
  {position : Nat}

namespace Alternation

variable {alternation : Alternation} {alternative : Alternative} {wrapper : Nat}

theorem alternative?_eq_some {first : Nat} {alternatives : List Alternative}
    (found : alternative? wrapper first alternatives = some (position, alternative)) :
    first ≤ position ∧ alternatives[position - first]? = some alternative ∧
      alternative.wrapper = wrapper := by
  induction alternatives generalizing first with
  | nil => cases found
  | cons head tail ih =>
    rw [alternative?] at found
    split at found
    · cases found
      exact ⟨Nat.le_refl _, by simp, ‹_›⟩
    · obtain ⟨le, inTail, same⟩ := ih found
      have behind : position - first = position - (first + 1) + 1 := by omega
      refine ⟨by omega, ?_, same⟩
      rw [behind, List.getElem?_cons_succ]
      exact inTail

theorem number_getElem? (found : (number wrapper rules)[position]? = some alternative) :
    ∃ rule, rules[position]? = some rule ∧ alternative.kind = rule.kind ∧
      alternative.width = Pattern.countGroups rule.source := by
  induction rules generalizing wrapper position with
  | nil => simp [number] at found
  | cons rule rules ih =>
    cases position with
    | zero =>
      simp only [number, List.getElem?_cons_zero, Option.some.injEq] at found
      subst found
      exact ⟨rule, by simp, rfl, rfl⟩
    | succ position =>
      simp only [number, List.getElem?_cons_succ] at found
      simpa using ih found

/-- What joining rules gives: nothing for no rules, or else an expression with as many
groups as the rules have. -/
theorem compile_ok (compiled : compile rules ignoreCase = .ok alternation) :
    alternation.alternatives = number 1 rules ∧
      (rules = [] ∧ alternation.regex = none ∨
        rules ≠ [] ∧ ∃ regex, alternation.regex = some regex ∧
          Regex.compile (Pattern.joinCapturing "|" (rules.map Rule.source)) ignoreCase =
            .ok regex ∧
          regex.groups = groupCount (number 1 rules)) := by
  unfold compile at compiled
  split at compiled
  · cases compiled
    exact ⟨rfl, .inl ⟨rfl, rfl⟩⟩
  · rename_i nonempty
    simp only at compiled
    split at compiled
    · cases compiled
    · rename_i regex success
      split at compiled
      · rename_i sameCount
        cases compiled
        exact ⟨rfl, .inr ⟨nonempty, regex, rfl, success, sameCount⟩⟩
      · cases compiled

/-- How a match of the joined expression is read. -/
theorem ruleMatch?_eq_some {result : Regex.Match}
    (belongs : alternation.ruleMatch? result = some found) :
    ∃ wrapper position alternative,
      firstGroup? 1 result.groups = some (wrapper, found.span) ∧
      alternative? wrapper 0 alternation.alternatives = some (position, alternative) ∧
      found.kind = alternative.kind ∧ found.position = position ∧
      found.groups = (result.groups.drop wrapper).take alternative.width := by
  unfold ruleMatch? at belongs
  cases first : firstGroup? 1 result.groups with
  | none =>
    rw [first] at belongs
    cases belongs
  | some group =>
    obtain ⟨wrapper, span⟩ := group
    rw [first] at belongs
    cases located : alternative? wrapper 0 alternation.alternatives with
    | none =>
      simp only [Option.bind_eq_bind, Option.bind_some, located] at belongs
      cases belongs
    | some entry =>
      obtain ⟨position, alternative⟩ := entry
      simp only [Option.bind_eq_bind, Option.bind_some, located] at belongs
      cases belongs
      exact ⟨wrapper, position, alternative, rfl, located, rfl, rfl, rfl⟩

/-- A match of joined rules is a match of the joined expression. -/
theorem search_eq_some (search : alternation.search place = .ok (some found)) :
    ∃ regex result, alternation.regex = some regex ∧ regex.search place = .ok (some result) ∧
      alternation.ruleMatch? result = some found := by
  unfold Alternation.search at search
  split at search
  · cases search
  · rename_i regex isJoined
    cases searched : regex.search place with
    | error cause =>
      rw [searched] at search
      cases search
    | ok result =>
      rw [searched] at search
      have belongs : result.bind alternation.ruleMatch? = some found := by
        injection search
      obtain ⟨result, rfl, belongs⟩ := Option.bind_eq_some_iff.mp belongs
      exact ⟨regex, result, isJoined, searched, belongs⟩

theorem number_bounds (member : alternative ∈ number wrapper rules) :
    wrapper ≤ alternative.wrapper ∧
      alternative.wrapper + alternative.width < wrapper + groupCount (number wrapper rules) := by
  induction rules generalizing wrapper with
  | nil => cases member
  | cons rule rules ih =>
    simp only [number, groupCount] at member ⊢
    rcases List.mem_cons.mp member with rfl | inTail
    · simp only
      omega
    · obtain ⟨le, lt⟩ := ih inTail
      omega

theorem search_rule (compiled : compile rules ignoreCase = .ok alternation)
    (search : alternation.search place = .ok (some found)) :
    ∃ rule, rules[found.position]? = some rule ∧ found.kind = rule.kind := by
  obtain ⟨alternatives, -⟩ := compile_ok compiled
  obtain ⟨regex, result, -, -, belongs⟩ := search_eq_some search
  obtain ⟨wrapper, position, alternative, -, located, sameKind, rfl, -⟩ :=
    ruleMatch?_eq_some belongs
  rw [alternatives] at located
  obtain ⟨-, listed, -⟩ := alternative?_eq_some located
  obtain ⟨rule, isRule, ruleKind, -⟩ := number_getElem? listed
  exact ⟨rule, isRule, sameKind.trans ruleKind⟩

/-- A stretch of a text between two offsets. -/
def stretch (text : String) (first last : Nat) : Span where
  start := (Place.start text.toList).forwardTo first
  stop := (Place.start text.toList).forwardTo last

end Alternation

namespace Matcher

variable {matcher : Matcher} {cursor after : Cursor}

theorem compile_ok (compiled : compile rules ignoreCase = .ok matcher) :
    matcher.rules = rules ∧
      ∀ position suffix, matcher.suffixes[position]? = some suffix →
        suffix.get = Alternation.compile (rules.drop position) ignoreCase := by
  unfold compile at compiled
  cases joined : Alternation.compile rules ignoreCase with
  | error cause =>
    rw [joined] at compiled
    cases compiled
  | ok all =>
    rw [joined] at compiled
    cases compiled
    refine ⟨rfl, ?_⟩
    intro position suffix listed
    cases position with
    | zero =>
      simp only [suffixesOf, List.getElem?_toArray, List.getElem?_cons_zero,
        Option.some.injEq] at listed
      subst listed
      exact joined.symm
    | succ position =>
      simp only [suffixesOf, List.getElem?_toArray, List.getElem?_cons_succ,
        List.getElem?_map, Option.map_eq_some_iff] at listed
      obtain ⟨number, inRange, rfl⟩ := listed
      have same : number = position := by
        rw [List.getElem?_eq_some_iff] at inRange
        obtain ⟨inBounds, equality⟩ := inRange
        simpa using equality.symm
      subst same
      rfl

/-- A match that a suffix of the rules gives is a match of joined rules. -/
theorem searchSuffix_ok (compiled : compile rules ignoreCase = .ok matcher)
    (search : matcher.searchSuffix position place = .ok (some found)) :
    ∃ alternation, Alternation.compile (rules.drop position) ignoreCase = .ok alternation ∧
      alternation.search place = .ok (some found) := by
  unfold searchSuffix at search
  split at search
  · cases search
  · rename_i suffix listed
    have same := (compile_ok compiled).2 position suffix listed
    split at search
    · cases search
    · rename_i alternation available
      split at search
      · cases search
      · rename_i result searched
        cases search
        exact ⟨alternation, same ▸ available, searched⟩

/-- Where the next match of a matcher comes from: from the rules at the cursor searched
at the place, or from all rules searched behind the next character. -/
theorem next_ok (compiled : compile rules ignoreCase = .ok matcher)
    (search : matcher.next cursor place = .ok (some found, after)) :
    ∃ position origin alternation,
      Alternation.compile (rules.drop position) ignoreCase = .ok alternation ∧
      alternation.search origin = .ok (some found) ∧
      (position = cursor.position ∧ origin = place ∨
        position = 0 ∧ ∃ char, place.next? = some (char, origin)) := by
  obtain ⟨result, searched, search⟩ := Success.bind_eq_ok.mp search
  cases search
  obtain ⟨result, first, searched⟩ := Success.bind_eq_ok.mp searched
  split at searched
  · cases searched
    obtain ⟨alternation, joined, matched⟩ := searchSuffix_ok compiled first
    exact ⟨cursor.position, place, alternation, joined, matched, .inl ⟨rfl, rfl⟩⟩
  · split at searched
    · cases searched
      obtain ⟨alternation, joined, matched⟩ := searchSuffix_ok compiled first
      exact ⟨cursor.position, place, alternation, joined, matched, .inl ⟨rfl, rfl⟩⟩
    · split at searched
      · rename_i char following stepped
        obtain ⟨alternation, joined, matched⟩ := searchSuffix_ok compiled searched
        exact ⟨0, following, alternation, joined, matched, .inr ⟨rfl, char, stepped⟩⟩
      · cases searched

theorem empty_next_eq (cursor : Cursor) (place : Place) :
    empty.next cursor place = .ok (none, cursor) := by
  have noRules (position : Nat) (place : Place) : empty.searchSuffix position place = .ok none := by
    simp [searchSuffix, empty]
  have searched : empty.searchAt cursor place = .ok none := by
    rw [searchAt, noRules, Success.ok_bind]
    split
    · rfl
    · split
      · rfl
      · split
        · exact noRules 0 _
        · rfl
  rw [next, searched]
  rfl

theorem empty_next (cursor after : Cursor) (place : Place) (found : RuleMatch) :
    empty.next cursor place ≠ .ok (some found, after) := by
  rw [empty_next_eq]
  nofun

theorem next_kind (compiled : compile rules ignoreCase = .ok matcher)
    (search : matcher.next cursor place = .ok (some found, after)) :
    ∃ rule ∈ rules, found.kind = rule.kind := by
  obtain ⟨position, origin, alternation, joined, matched, -⟩ := next_ok compiled search
  obtain ⟨rule, listed, sameKind⟩ := Alternation.search_rule joined matched
  exact ⟨rule, List.mem_of_mem_drop (List.mem_of_getElem? listed), sameKind⟩

end Matcher
end Highlighter

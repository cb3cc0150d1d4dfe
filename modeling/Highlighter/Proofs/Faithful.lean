import Highlighter.Compiled.Segment
import Highlighter.Proofs.Sharing
import Highlighter.Proofs.Regex.Searching

/-!
# Grammars that can keep a text

A run puts a text together again from what its rules match if every match lies behind the place
from which it was searched for, if the parts of a match that have scopes of their own make up the
match, and if no flag of a mode lets a match be added twice.  These conditions can be checked.
-/
namespace Highlighter

open Compiled (BoundaryScope CompiledGrammar CompiledMode KeywordTable Segment)
open Regex (Covered Expression)

variable {found : List (Except Regex.SearchError Regex.Match)} {rules : List Rule}
  {place first : Place} {ignoreCase : Bool}

/-! ## Matches of rules -/

namespace Alternation

variable {wrapper : Nat} {result : Regex.Match} {span : Span}

/-- Whether a rule is read as it is meant among the others: it stands in no look-behind, and
if it consists of parts, its group consists of their groups. -/
def isFaithful (expression : Expression) (alternative : Alternative)
    (parts : Option (List Nat)) : Bool :=
  (expression.node.eachLookBehind fun inner => !inner.groups.contains alternative.wrapper) &&
    ((parts.getD []).all fun part => 0 < part && part ≤ alternative.width) &&
    expression.node.laidOut alternative.wrapper
      (parts.map fun parts => parts.map fun part => alternative.wrapper + part)

/-- Whether all rules are read as they are meant when they are joined.  `partsOf` tells of
which parts the matches of a rule consist. -/
def areFaithful (partsOf : RuleKind → Option (List Nat)) (rules : List Rule)
    (ignoreCase : Bool) : Bool :=
  let source := Pattern.joinCapturing "|" (rules.map Rule.source)
  match Expression.read (Regex.pattern source ignoreCase).toList with
  | .error _ => true
  | .ok expression =>
    (number 1 rules).all fun alternative =>
      isFaithful expression alternative (partsOf alternative.kind)

theorem firstGroup?_eq_some {first : Nat} {groups : List (Option Span)}
    (found : firstGroup? first groups = some (wrapper, span)) :
    first ≤ wrapper ∧ groups[wrapper - first]? = some (some span) := by
  induction groups generalizing first with
  | nil => cases found
  | cons group groups ih =>
    cases group with
    | none =>
      obtain ⟨le, inTail⟩ := ih found
      have behind : wrapper - first = wrapper - (first + 1) + 1 := by omega
      refine ⟨by omega, ?_⟩
      rw [behind, List.getElem?_cons_succ]
      exact inTail
    | some span =>
      cases found
      exact ⟨Nat.le_refl _, by simp⟩

theorem group?_of_firstGroup? (found : firstGroup? 1 result.groups = some (wrapper, span)) :
    result.group? wrapper = some span := by
  obtain ⟨positive, listed⟩ := firstGroup?_eq_some found
  obtain ⟨number, rfl⟩ := Nat.exists_eq_add_one_of_ne_zero (Nat.ne_of_gt positive)
  rw [Regex.Match.group?, ← Nat.add_sub_cancel number 1, listed]
  rfl

theorem group?_inside {found : RuleMatch} {width number : Nat}
    (sameGroups : found.groups = (result.groups.drop wrapper).take width) (positive : 0 < number)
    (inRange : number ≤ width) :
    result.group? (wrapper + number) = found.group? number := by
  obtain ⟨number, rfl⟩ := Nat.exists_eq_add_one_of_ne_zero (Nat.ne_of_gt positive)
  rw [← Nat.add_assoc, Regex.Match.group?, RuleMatch.group?, sameGroups,
    List.getElem?_take_of_lt inRange, List.getElem?_drop]

theorem covered_map {stretch other : Nat → Option Span} {change : Nat → Nat} {last : Place}
    {numbers : List Nat} (covered : Covered stretch first (numbers.map change) last)
    (same : ∀ number ∈ numbers, stretch (change number) = other number) :
    Covered other first numbers last := by
  induction numbers generalizing first with
  | nil => exact covered
  | cons number numbers ih =>
    obtain ⟨middle, isStretch, order, rest⟩ := covered
    refine ⟨middle, ?_, order, ih rest fun number member =>
      same number (List.mem_cons_of_mem _ member)⟩
    rw [← same number List.mem_cons_self, isStretch]

theorem search_placed {partsOf : RuleKind → Option (List Nat)}
    (faithful : areFaithful partsOf rules ignoreCase) {alternation : Alternation}
    (compiled : compile rules ignoreCase = .ok alternation) {found : RuleMatch}
    (search : alternation.search place = .ok (some found)) :
    place.Precedes found.span.start ∧ found.span.start.Precedes found.span.stop ∧
      ∀ parts, partsOf found.kind = some parts →
        Covered found.group? found.span.start parts found.span.stop := by
  obtain ⟨isNumber, ⟨-, noRegex⟩ | ⟨-, joined, isJoined, compiledRegex, sameCount⟩⟩ :=
    compile_ok compiled
  all_goals obtain ⟨regex, result, isRegex, searched, belongs⟩ := search_eq_some search
  · rw [noRegex] at isRegex
    cases isRegex
  · rw [isJoined] at isRegex
    cases isRegex
    obtain ⟨wrapper, position, alternative, isFirst, located, sameKind, -, sameGroups⟩ :=
      ruleMatch?_eq_some belongs
    rw [isNumber] at located
    obtain ⟨-, listed, rfl⟩ := alternative?_eq_some located
    obtain ⟨wrapperBound, widthBound⟩ := number_bounds (List.mem_of_getElem? listed)
    rw [← sameCount] at widthBound
    obtain ⟨expression, read, -⟩ := Regex.compile_ok compiledRegex
    simp only [areFaithful, read] at faithful
    have ruleFaithful := List.all_eq_true.mp faithful alternative (List.mem_of_getElem? listed)
    simp only [isFaithful, Bool.and_eq_true] at ruleFaithful
    obtain ⟨⟨ahead, inRange⟩, laidOut⟩ := ruleFaithful
    simp only [List.all_eq_true, Bool.and_eq_true, decide_eq_true_eq] at inRange
    have groupsInRange : ∀ number ∈ ((partsOf alternative.kind).map fun parts =>
        parts.map fun part => alternative.wrapper + part).getD [],
        0 < number ∧ number ≤ joined.groups := by
      intro number member
      cases isParts : partsOf alternative.kind with
      | none =>
        rw [isParts] at member
        cases member
      | some parts =>
        simp only [isParts, Option.map_some, Option.getD_some, List.mem_map] at member inRange
        obtain ⟨part, isPart, rfl⟩ := member
        have bounds := inRange part isPart
        omega
    obtain ⟨behind, order, covered⟩ :=
      Regex.group_placed compiledRegex read searched wrapperBound (group?_of_firstGroup? isFirst)
        ahead laidOut groupsInRange
    refine ⟨behind, order, fun parts isParts => ?_⟩
    rw [sameKind] at isParts
    simp only [isParts, Option.getD_some] at inRange
    refine covered_map (covered _ (by rw [isParts]; rfl)) fun number member => ?_
    exact group?_inside sameGroups (inRange number member).1 (inRange number member).2

theorem areFaithful_nil (partsOf : RuleKind → Option (List Nat)) (ignoreCase : Bool) :
    areFaithful partsOf [] ignoreCase := by
  simp only [areFaithful]
  split <;> rfl

end Alternation

/-- The next match of a matcher lies behind the place of the search and is covered by its
parts, if its rules are read as they are meant whichever of them are left. -/
theorem Matcher.next_placed {partsOf : RuleKind → Option (List Nat)}
    (faithful : ∀ position, Alternation.areFaithful partsOf (rules.drop position) ignoreCase)
    {matcher : Matcher} (compiled : compile rules ignoreCase = .ok matcher) {cursor after : Cursor}
    {found : RuleMatch} (search : matcher.next cursor place = .ok (some found, after)) :
    place.Precedes found.span.start ∧ found.span.start.Precedes found.span.stop ∧
      ∀ parts, partsOf found.kind = some parts →
        Covered found.group? found.span.start parts found.span.stop := by
  obtain ⟨position, origin, alternation, joined, searched, cases⟩ := next_ok compiled search
  obtain ⟨behind, order, covered⟩ := Alternation.search_placed (faithful position) joined searched
  refine ⟨?_, order, covered⟩
  rcases cases with ⟨-, rfl⟩ | ⟨-, char, isNext⟩
  · exact behind
  · exact (Place.precedes_next isNext).trans behind

/-! ## Keywords in a text -/

def FollowOn : Place → List (Except Regex.SearchError Regex.Match) → Prop
  | _, [] => True
  | _, .error _ :: _ => True
  | place, .ok found :: rest =>
    place.Precedes found.span.start ∧ found.span.start.Precedes found.span.stop ∧
      FollowOn found.span.stop rest

theorem FollowOn.earlier {second : Place} (order : first.Precedes second)
    (follow : FollowOn second found) :
    FollowOn first found := by
  cases found with
  | nil => trivial
  | cons head rest =>
    cases head with
    | error cause => trivial
    | ok found => exact ⟨order.trans follow.1, follow.2⟩

theorem matchesFrom_followOn {regex : Regex}
    (placed : ∀ place continued found, regex.searchFrom place continued = .ok (some found) →
      place.Precedes found.span.start ∧ found.span.start.Precedes found.span.stop)
    (strict : Bool) (fuel : Nat) (place : Place) (lastEnd : Option Nat) :
    FollowOn place (regex.matchesFrom strict fuel place lastEnd) := by
  induction fuel generalizing place lastEnd with
  | zero => trivial
  | succ fuel ih =>
    rw [Regex.matchesFrom]
    simp only
    split
    · trivial
    · trivial
    · rename_i found search
      obtain ⟨behind, order⟩ := placed _ _ _ search
      split
      · -- Behind an empty match the search goes on one character later.
        cases isNext : found.span.stop.next? with
        | none =>
          split
          · trivial
          · exact ⟨behind, order, trivial⟩
        | some step =>
          obtain ⟨char, next⟩ := step
          have following := (ih next (some found.span.stop.offset)).earlier
            (Place.precedes_next isNext)
          split
          · exact following.earlier (behind.trans order)
          · exact ⟨behind, order, following⟩
      · exact ⟨behind, order, ih _ _⟩

/-- Whether the expression that finds words never goes back. -/
def Compiled.KeywordTable.goesAhead (table : KeywordTable) : Bool :=
  match Expression.read (Regex.pattern table.source table.ignoreCase).toList with
  | .error _ => true
  | .ok expression => expression.node.eachLookBehind fun inner => !inner.keepsOut

namespace Compiled.Segment

variable {segments : List Segment} {table : KeywordTable}

@[simp]
theorem text_plain (content : String) : (plain content).text = content :=
  rfl

@[simp]
theorem text_keyword (word : String) (entry : Compiled.KeywordEntry) :
    (keyword word entry).text = word :=
  rfl

theorem ofMatches_text (follow : FollowOn place found)
    (success : ofMatches table place found = .ok segments) :
    segments.flatMap (fun segment => segment.text.toList) = place.after := by
  induction found generalizing place segments with
  | nil =>
    cases success
    simp
  | cons head rest ih =>
    cases head with
    | error cause => cases success
    | ok found =>
      obtain ⟨behind, order, follow⟩ := follow
      rw [ofMatches] at success
      obtain ⟨others, isOthers, success⟩ := Success.bind_eq_ok.mp success
      cases success
      have whole : place.upTo found.span.start ++ (found.span.content ++ found.span.stop.after) =
          place.after := by
        rw [Span.content, Place.upTo_append_after order, Place.upTo_append_after behind]
      cases table.lookup? (String.ofList found.span.content) <;>
        simpa [ih follow isOthers] using whole

theorem ofText_text (compiled : Regex.compile table.source table.ignoreCase = .ok table.pattern)
    (ahead : table.goesAhead) {text : String} (success : ofText table text = .ok segments) :
    segments.flatMap (fun segment => segment.text.toList) = text.toList := by
  obtain ⟨expression, read, -⟩ := Regex.compile_ok compiled
  simp only [KeywordTable.goesAhead, read] at ahead
  refine ofMatches_text (matchesFrom_followOn ?_ _ _ _ _) success
  intro place continued found search
  exact Regex.match_placed compiled read search ahead

end Compiled.Segment

/-! ## Faithful grammars -/

namespace Compiled

def partNumbers? : Option BoundaryScope → Option (List Nat)
  | some (.parts parts) => some (parts.map Prod.fst)
  | _ => none

/-- Whether what ends a mode is labelled as a whole. -/
def isWhole : Option BoundaryScope → Bool
  | some (.whole _) => true
  | _ => false

namespace CompiledGrammar

variable {definition : Grammar.Definition} {grammar : CompiledGrammar}

def partsOf (grammar : CompiledGrammar) (mode : CompiledMode) : RuleKind → Option (List Nat)
  | .enter child => partNumbers? (grammar.mode child).beginScope
  | .leave => partNumbers? mode.endScope
  | .illegal => none

/-- Whether a mode returns its beginning only where that is not added to the text before it,
and its end only where that is not added to the mode. -/
def returnsOnce (mode : CompiledMode) : Bool :=
  !(mode.flags.returnBegin && (mode.flags.skip || mode.flags.excludeBegin)) &&
    !(mode.flags.returnEnd &&
      (mode.flags.skip || mode.flags.excludeEnd || isWhole mode.endScope))

/-- Whether a mode follows another one only if its beginning has no parts of its own. -/
def startsWhole (grammar : CompiledGrammar) (mode : CompiledMode) : Bool :=
  mode.starts.all fun next => (partNumbers? (grammar.mode next).beginScope).isNone

/-- Whether the rules of a mode are read as they are meant, whichever of them are left. -/
def rulesFaithful (grammar : CompiledGrammar) (mode : CompiledMode) : Bool :=
  (List.range mode.matcher.rules.length).all fun position =>
    Alternation.areFaithful (grammar.partsOf mode) (mode.matcher.rules.drop position)
      grammar.caseInsensitive

/-- Whether all modes of a grammar let a text be put together again. -/
def isFaithful (grammar : CompiledGrammar) : Bool :=
  grammar.modes.all fun mode =>
    returnsOnce mode && grammar.startsWhole mode &&
      mode.keywords.all KeywordTable.goesAhead && grammar.rulesFaithful mode

structure FaithfulMode (grammar : CompiledGrammar) (mode : CompiledMode) : Prop where
  sound : mode.toDraft.Sound
  returnedBegin : mode.flags.returnBegin → mode.flags.skip = false ∧ mode.flags.excludeBegin = false
  returnedEnd : mode.flags.returnEnd →
    mode.flags.skip = false ∧ mode.flags.excludeEnd = false ∧ isWhole mode.endScope = false
  starts : ∀ next ∈ mode.starts, partNumbers? (grammar.mode next).beginScope = none
  keywords : ∀ table ∈ mode.keywords, table.goesAhead
  rules : ∀ cursor place found after, mode.matcher.next cursor place = .ok (some found, after) →
    place.Precedes found.span.start ∧ found.span.start.Precedes found.span.stop ∧
      ∀ parts, grammar.partsOf mode found.kind = some parts →
        Covered found.group? found.span.start parts found.span.stop

theorem next_placed (compiled : compile definition = .ok grammar) {number : Nat}
    (faithful : grammar.rulesFaithful (grammar.mode number)) {cursor after : Cursor}
    {found : RuleMatch}
    (search : (grammar.mode number).matcher.next cursor place = .ok (some found, after)) :
    place.Precedes found.span.start ∧ found.span.start.Precedes found.span.stop ∧
      ∀ parts, grammar.partsOf (grammar.mode number) found.kind = some parts →
        Covered found.group? found.span.start parts found.span.stop := by
  rcases matcher_of_compile compiled number with isInert | ⟨-, joined⟩
  · rw [isInert] at search
    exact absurd search (Matcher.empty_next cursor after place found)
  · refine Matcher.next_placed (fun position => ?_) joined search
    rcases Nat.lt_or_ge position (grammar.mode number).matcher.rules.length with lt | ge
    · exact List.all_eq_true.mp faithful position (List.mem_range.mpr lt)
    · rw [List.drop_eq_nil_of_le ge]
      exact Alternation.areFaithful_nil _ _

theorem faithfulMode (compiled : compile definition = .ok grammar) (faithful : grammar.isFaithful)
    (number : Nat) : grammar.FaithfulMode (grammar.mode number) := by
  have sound := sound_of_compile compiled number
  rcases matcher_of_compile compiled number with isInert | ⟨member, -⟩
  · rw [isInert] at sound ⊢
    refine ⟨sound, nofun, nofun, nofun, nofun, ?_⟩
    intro cursor place found after search
    exact absurd search (Matcher.empty_next cursor after place found)
  · have checked := Array.all_eq_true_iff_forall_mem.mp faithful _ member
    simp only [Bool.and_eq_true] at checked
    obtain ⟨⟨⟨returns, starts⟩, keywords⟩, rules⟩ := checked
    simp only [returnsOnce, Bool.and_eq_true, Bool.not_eq_true', Bool.and_eq_false_imp,
      Bool.or_eq_false_iff, and_assoc] at returns
    refine ⟨sound, returns.1, returns.2, ?_, ?_, ?_⟩
    · intro next isNext
      simpa [startsWhole, Option.mem_def.mp isNext] using starts
    · intro table isTable
      simpa [Option.mem_def.mp isTable] using keywords
    · exact fun cursor place found after search => next_placed compiled rules search

end CompiledGrammar
end Compiled
end Highlighter

import Highlighter.Proofs.Regex.Choosing
import Highlighter.Proofs.Suffixes

/-!
# Rules searched for one by one

Rules are joined so that one search does for all of them.  If each can stand alone, it finds what
the searches for the rules one by one find first: the match that begins before the others, and at
one place the match of the first rule.  Where some rules take a machine and others an automaton,
the latter have to be steady, since joined they are searched for with a machine too.
-/
namespace Highlighter

open Regex (Expression FirstPlace Slots groupSpans matchOfSlots?)

/-! ## Matches of rules -/

namespace Regex

theorem groupSpans_append (slots : Slots) (first count others : Nat) :
    groupSpans slots first (count + others) =
      groupSpans slots first count ++ groupSpans slots (first + count) others := by
  induction count generalizing first with
  | zero => rw [Nat.zero_add, Nat.add_zero, groupSpans, List.nil_append]
  | succ count ih =>
    rw [Nat.succ_add, groupSpans, ih, groupSpans, List.cons_append,
      Nat.add_right_comm, Nat.add_assoc]

theorem take_drop_groupSpans (slots : Slots) (first before count others : Nat) :
    ((groupSpans slots first (before + (count + others))).drop before).take count =
      groupSpans slots (first + before) count := by
  rw [groupSpans_append, List.drop_left' (groupSpans_length ..), groupSpans_append,
    List.take_left' (groupSpans_length ..)]

theorem groupSpans_congr {source target : Slots} {first other count : Nat}
    (same : ∀ offset < count, source.span? (first + offset) = target.span? (other + offset)) :
    groupSpans source first count = groupSpans target other count := by
  refine List.ext_getElem? fun position => ?_
  rcases Nat.lt_or_ge position count with inRange | beyond
  · rw [groupSpans_getElem? inRange, groupSpans_getElem? inRange, same position inRange]
  · rw [List.getElem?_eq_none (by rwa [groupSpans_length]),
      List.getElem?_eq_none (by rwa [groupSpans_length])]

end Regex

namespace Alternation

theorem firstGroup?_groupSpans {slots : Slots} {first before others : Nat} {span : Span}
    (outside : ∀ offset < before, slots.span? (first + offset) = none)
    (isSpan : slots.span? (first + before) = some span) :
    firstGroup? first (groupSpans slots first (before + 1 + others)) =
      some (first + before, span) := by
  induction before generalizing first with
  | zero =>
    rw [Nat.zero_add, Nat.add_comm, groupSpans, show slots.span? first = some span from isSpan]
    rfl
  | succ before ih =>
    have isNone : slots.span? first = none := outside 0 (Nat.succ_pos before)
    rw [Nat.succ_add before 1, Nat.succ_add, groupSpans, isNone, firstGroup?,
      ih (fun offset below => ?_) (by rwa [Nat.succ_add_eq_add_succ])]
    · rw [Nat.succ_add_eq_add_succ]
    · rw [Nat.succ_add_eq_add_succ]
      exact outside (offset + 1) (Nat.succ_lt_succ below)

theorem groupCount_append (first second : List Alternative) :
    groupCount (first ++ second) = groupCount first + groupCount second := by
  induction first with
  | nil => rw [List.nil_append, groupCount, Nat.zero_add]
  | cons alternative first ih =>
    rw [List.cons_append, groupCount, groupCount, ih, ← Nat.add_assoc]

theorem number_append (wrapper : Nat) (front rest : List Rule) :
    number wrapper (front ++ rest) =
      number wrapper front ++ number (wrapper + groupCount (number wrapper front)) rest := by
  induction front generalizing wrapper with
  | nil => rfl
  | cons rule front ih =>
    simp only [List.cons_append, number, groupCount, ih, List.cons.injEq,
      true_and, List.append_cancel_left_eq]
    congr 1
    omega

theorem alternative?_append {wrapper first : Nat} {front rest : List Alternative}
    (different : ∀ alternative ∈ front, alternative.wrapper ≠ wrapper) :
    alternative? wrapper first (front ++ rest) =
      alternative? wrapper (first + front.length) rest := by
  induction front generalizing first with
  | nil => rfl
  | cons alternative front ih =>
    obtain ⟨isOther, areOthers⟩ := List.forall_mem_cons.mp different
    rw [List.cons_append, alternative?, if_neg isOther, ih areOthers,
      List.length_cons, Nat.add_assoc, Nat.add_comm 1]

end Alternation

namespace Rule

def matchOf? (rule : Rule) (position : Nat) (slots : Slots) : Option RuleMatch := do
  let span ← slots.span? 1
  return {
    kind := rule.kind
    position
    span
    groups := groupSpans slots 2 (Pattern.countGroups rule.source) }

end Rule

namespace Alternation

theorem number_length (wrapper : Nat) (rules : List Rule) :
    (number wrapper rules).length = rules.length := by
  induction rules generalizing wrapper with
  | nil => rfl
  | cons rule rules ih =>
    rw [number, List.length_cons, List.length_cons, ih]

section Moved

variable (front behind : List Rule) (rule : Rule)

theorem alternative?_number :
    alternative? (1 + groupCount (number 1 front)) 0 (number 1 (front ++ rule :: behind)) =
      some (front.length,
        { kind := rule.kind
          wrapper := 1 + groupCount (number 1 front)
          width := Pattern.countGroups rule.source }) := by
  rw [number_append, alternative?_append fun alternative member =>
    Nat.ne_of_lt (Nat.lt_of_le_of_lt (Nat.le_add_right _ _) (number_bounds member).2),
    number_length, Nat.zero_add, number, alternative?, if_pos rfl]

theorem ruleMatch?_of_moved {alternation : Alternation}
    (alternatives : alternation.alternatives = number 1 (front ++ rule :: behind))
    {source target : Slots}
    (moved : Slots.Moved (groupCount (number 1 front)) (Pattern.countGroups rule.source + 1)
      source target)
    {whole span : Span} (isWhole : source.span? 0 = some whole)
    (isSpan : source.span? 1 = some span) :
    ((matchOfSlots? (groupCount (number 1 (front ++ rule :: behind))) target).bind
        alternation.ruleMatch?) = rule.matchOf? front.length source := by
  have located := alternative?_number front behind rule
  have isCount : groupCount (number 1 (front ++ rule :: behind)) =
      1 + groupCount (number 1 front) + (Pattern.countGroups rule.source +
        groupCount (number (1 + groupCount (number 1 front) + 1 +
          Pattern.countGroups rule.source) behind)) := by
    simp only [number_append, groupCount_append, number, groupCount]
    omega
  rw [← alternatives] at located
  -- From here on only the number of groups in front of the rule counts.
  generalize groupCount (number 1 front) = before at moved isCount located
  have inside {number : Nat} (positive : 0 < number)
      (within : number ≤ Pattern.countGroups rule.source + 1) :
      target.span? (before + number) = source.span? number := moved.inside number positive within
  have isGroup : firstGroup? 1 (groupSpans target 1
      (groupCount (number 1 (front ++ rule :: behind)))) = some (1 + before, span) := by
    rw [isCount, Nat.add_comm 1 before]
    refine (firstGroup?_groupSpans (fun offset below => ?_) ?_).trans (by rw [Nat.add_comm])
    · exact moved.outside (1 + offset) (by omega) (by omega)
    · rw [Nat.add_comm, inside Nat.one_pos (by omega), isSpan]
  have isInner : ((groupSpans target 1
      (groupCount (number 1 (front ++ rule :: behind)))).drop (1 + before)).take
        (Pattern.countGroups rule.source) =
      groupSpans source 2 (Pattern.countGroups rule.source) := by
    rw [isCount, Regex.take_drop_groupSpans]
    refine Regex.groupSpans_congr fun offset below => ?_
    rw [← inside (by omega) (by omega)]
    congr 1
    omega
  rw [matchOfSlots?, moved.whole, isWhole, Rule.matchOf?, isSpan]
  simp only [Option.bind_eq_bind, Option.bind_some, Option.pure_def, ruleMatch?, isGroup, located,
    isInner]

end Moved

theorem search_firstPlace {rules : List Rule} {ignoreCase : Bool} {alternation : Alternation}
    (compiled : compile rules ignoreCase = .ok alternation) (nonempty : rules ≠ [])
    {joined : Expression}
    (read : Expression.read (Regex.pattern
      (Pattern.joinCapturing "|" (rules.map Rule.source)) ignoreCase).toList = .ok joined)
    {place : Place} {found : Option RuleMatch} (searched : alternation.search place = .ok found) :
    ∃ result, FirstPlace (joined.Finds place.offset) place result ∧
      found = result.bind fun first =>
        (matchOfSlots? (groupCount (number 1 rules)) first.2).bind alternation.ruleMatch? := by
  obtain ⟨-, ⟨isEmpty, -⟩ | ⟨-, regex, isJoined, isRegex, isGroups⟩⟩ := compile_ok compiled
  · exact absurd isEmpty nonempty
  · simp only [Alternation.search, isJoined] at searched
    obtain ⟨whole, isWhole, isFound⟩ := Success.bind_eq_ok.mp searched
    obtain ⟨result, first, rfl⟩ := Regex.search_finds isRegex read isWhole
    refine ⟨result, first, ?_⟩
    rw [← Except.ok.inj isFound, Option.bind_assoc, isGroups]

end Alternation

/-! ## The rules one by one -/

namespace Alternation

def Finds (ignoreCase : Bool) (place : Place) (rules : List Rule) (found : Option RuleMatch) :
    Prop :=
  ∃ alternation, compile rules ignoreCase = .ok alternation ∧ alternation.search place = .ok found

instance (ignoreCase : Bool) (place : Place) (rules : List Rule) (found : Option RuleMatch) :
    Decidable (Finds ignoreCase place rules found) :=
  decidable_of_iff
    (((compile rules ignoreCase).toOption.bind fun alternation =>
      (alternation.search place).toOption) = some found)
    (by simp only [Finds, Option.bind_eq_some_iff, Success.toOption_eq_some])

end Alternation

namespace Rule

/-- Whether a rule, as the only one, is read as a steady expression, of which a machine finds what
an automaton finds. -/
def isSteady (ignoreCase : Bool) (rule : Rule) : Bool :=
  match Expression.read (Regex.pattern
      (Pattern.joinCapturing "|" [rule.source]) ignoreCase).toList with
  | .ok expression => expression.node.isSteady
  | .error _ => false

section Alone

variable {ignoreCase : Bool} {rule : Rule} {expression : Expression}
  (reads : rule.Reads ignoreCase expression)

include reads

theorem Reads.single :
    Expression.read (Regex.pattern (Pattern.joinCapturing "|" [rule.source]) ignoreCase).toList =
      .ok expression.single := by
  obtain ⟨isPortable, isRead, grouped, isGrouped⟩ := reads.accepted
  obtain ⟨rfl, -⟩ := Regex.Reading.read_join (.cons ⟨isPortable, isRead⟩ .nil) isGrouped
  rwa [Expression.join_nil] at isGrouped

theorem Reads.isSteady_eq : rule.isSteady ignoreCase = expression.single.node.isSteady := by
  rw [isSteady, reads.single]

theorem Reads.single_groups :
    expression.single.groups = Pattern.countGroups rule.source + 1 := by
  rw [Expression.single_groups, reads.accepted.groups]
  rfl

theorem Reads.isUsable : expression.IsUsable where
  sound := reads.sound
  different := (Expression.read_numbered reads.single).different
  bounds := reads.bounds

theorem Reads.firstPlace {place : Place} {found : Option RuleMatch}
    (finds : Alternation.Finds ignoreCase place [rule] found) :
    ∃ result, FirstPlace (expression.single.Finds place.offset) place result ∧
      found = result.bind fun first => rule.matchOf? 0 first.2 := by
  obtain ⟨only, compiled, searched⟩ := finds
  obtain ⟨result, first, rfl⟩ :=
    Alternation.search_firstPlace compiled (List.cons_ne_nil _ _) reads.single searched
  refine ⟨result, first, Option.bind_congr fun found isFound => ?_⟩
  rw [isFound] at first
  obtain ⟨⟨whole, isWhole⟩, stop, isSpan⟩ := first.precedes.2.spans reads.isUsable
  obtain ⟨alternatives, -⟩ := Alternation.compile_ok compiled
  exact Alternation.ruleMatch?_of_moved [] [] rule alternatives (.refl _ found.2) isWhole isSpan

end Alone
end Rule

structure Single (ignoreCase : Bool) (place : Place) where
  rule : Rule
  expression : Expression
  found : Option RuleMatch
  reads : rule.Reads ignoreCase expression
  finds : Alternation.Finds ignoreCase place [rule] found

namespace Single

variable {ignoreCase : Bool} {place : Place}

theorem exists_of_finds {rules : List Rule} {founds : List (Option RuleMatch)}
    (selfContained : ∀ rule ∈ rules, rule.isSelfContained ignoreCase)
    (searched : List.Forall₂ (fun rule => Alternation.Finds ignoreCase place [rule]) rules founds) :
    ∃ singles : List (Single ignoreCase place),
      singles.map rule = rules ∧ singles.map found = founds := by
  induction searched with
  | nil => exact ⟨[], rfl, rfl⟩
  | cons finds _ ih =>
    obtain ⟨isFirst, areOthers⟩ := List.forall_mem_cons.mp selfContained
    obtain ⟨expression, reads⟩ := Rule.exists_reads isFirst
    obtain ⟨singles, rfl, rfl⟩ := ih areOthers
    exact ⟨⟨_, expression, _, reads, finds⟩ :: singles, rfl, rfl⟩

theorem reads_each (singles : List (Single ignoreCase place)) :
    List.Forall₂ (Rule.Reads ignoreCase) (singles.map rule) (singles.map expression) := by
  rw [List.forall₂_map_left_iff, List.forall₂_map_right_iff, List.forall₂_same]
  exact fun single _ => single.reads

theorem unique (single : Single ignoreCase place) (next : Place) (result other : Option Slots)
    (finds : single.expression.single.Finds place.offset next result)
    (otherFinds : single.expression.single.Finds place.offset next other) : result = other :=
  finds.unique otherFinds

theorem matchOf?_of_finds (single : Single ignoreCase place) {next : Place} {slots : Slots}
    (finds : single.expression.single.Finds place.offset next (some slots)) :
    ∃ stop, ∀ position, single.rule.matchOf? position slots =
      some
        { kind := single.rule.kind
          position
          span := { start := next, stop }
          groups := groupSpans slots 2 (Pattern.countGroups single.rule.source) } := by
  obtain ⟨-, stop, isSpan⟩ := finds.spans single.reads.isUsable
  refine ⟨stop, fun position => ?_⟩
  rw [Rule.matchOf?, isSpan]
  rfl

section Joined

variable {decides : Place → Option Slots → Prop} (single : Single ignoreCase place)
  (fails : ∀ next, decides next none → single.expression.single.Finds place.offset next none)
  {next : Place} {target : Slots}

include fails

theorem found_eq_none (joined : FirstPlace decides place none) : single.found = none := by
  obtain ⟨result, first, isFound⟩ := single.reads.firstPlace single.finds
  obtain rfl := first.unique single.unique (joined.none_of_none rfl fails)
  exact isFound

variable (joined : FirstPlace decides place (some (next, target)))

include joined

theorem exists_from :
    ∃ result, FirstPlace (single.expression.single.Finds place.offset) next result ∧
      single.found = result.bind fun first => single.rule.matchOf? 0 first.2 := by
  obtain ⟨result, first, isFound⟩ := single.reads.firstPlace single.finds
  exact ⟨result, joined.from_found rfl fails single.unique first, isFound⟩

theorem found_of_finds {source : Slots}
    (finds : single.expression.single.Finds place.offset next (some source)) :
    single.found = single.rule.matchOf? 0 source := by
  obtain ⟨result, first, isFound⟩ := single.exists_from fails joined
  obtain rfl := first.unique single.unique (.here finds)
  exact isFound

theorem offset_le_of_found {found : RuleMatch} (isFound : single.found = some found) :
    next.offset ≤ found.span.start.offset ∧
      (single.expression.single.Finds place.offset next none →
        next.offset < found.span.start.offset) := by
  obtain ⟨result, first, isResult⟩ := single.exists_from fails joined
  rw [isFound] at isResult
  obtain ⟨⟨start, slots⟩, rfl, isMatch⟩ := Option.bind_eq_some_iff.mp isResult.symm
  obtain ⟨order, finds⟩ := first.precedes
  obtain ⟨stop, isOnly⟩ := single.matchOf?_of_finds finds
  obtain rfl := Option.some.inj ((isOnly 0).symm.trans isMatch)
  exact ⟨order.offset_le, first.offset_lt single.unique⟩

end Joined
end Single

namespace Alternation

variable {ignoreCase : Bool} {place : Place} {all : Alternation}
  {singles : List (Single ignoreCase place)} {next : Place} {target : Slots}

theorem search_decides (compiled : compile (singles.map Single.rule) ignoreCase = .ok all)
    (nonempty : singles ≠ [])
    (steady : (singles.map Single.rule).any (Rule.needsMachine ignoreCase) →
      ∀ rule ∈ singles.map Single.rule, rule.needsMachine ignoreCase ∨ rule.isSteady ignoreCase)
    {found : Option RuleMatch} (searched : all.search place = .ok found) :
    ∃ result,
      FirstPlace (Expression.Decides place.offset · (singles.map Single.expression)) place
        result ∧
      found = result.bind fun first =>
        (matchOfSlots? (groupCount (number 1 (singles.map Single.rule))) first.2).bind
          all.ruleMatch? := by
  obtain ⟨single, singles, rfl⟩ := List.exists_cons_of_ne_nil nonempty
  have usable : ∀ expression ∈ (single :: singles).map Single.expression,
      expression.IsUsable := by
    rw [List.forall_mem_map]
    exact fun single _ => single.reads.isUsable
  have areSteady :
      (Expression.join single.expression (singles.map Single.expression)).isHard = true →
        ∀ expression ∈ (single :: singles).map Single.expression,
          expression.single.isHard = false → expression.single.node.isSteady = true := by
    rw [Expression.isHard_join fun expression member => (usable expression member).sound,
      ← List.map_cons, ← Rule.any_needsMachine (Single.reads_each (single :: singles)),
      List.forall_mem_map]
    intro needed other member easy
    rcases steady needed other.rule (List.mem_map_of_mem member) with isNeeded | isSteady
    · cases (other.reads.needsMachine.symm.trans isNeeded).symm.trans easy
    · rwa [other.reads.isSteady_eq] at isSteady
  obtain ⟨-, ⟨isEmpty, -⟩ | ⟨-, regex, -, isRegex, -⟩⟩ := compile_ok compiled
  · cases isEmpty
  · obtain ⟨joined, isJoined, -⟩ := Regex.compile_ok isRegex
    obtain ⟨rfl, -⟩ := Regex.Reading.read_join
      (List.forall₂_map_left_iff.mpr ((Single.reads_each (single :: singles)).imp fun _ _ reads =>
        ⟨reads.accepted.isPortable, reads.accepted.alone⟩)) isJoined
    obtain ⟨result, first, isFound⟩ :=
      search_firstPlace compiled (List.cons_ne_nil _ _) isJoined searched
    exact ⟨result, first.imp fun _ _ => Expression.join_decides usable areSteady, isFound⟩

theorem exists_winner (compiled : compile (singles.map Single.rule) ignoreCase = .ok all)
    (decides : Expression.Decides place.offset next (singles.map Single.expression)
      (some target)) :
    ∃ front single behind source, singles = front ++ single :: behind ∧
      (∀ other ∈ front, other.expression.single.Finds place.offset next none) ∧
      single.expression.single.Finds place.offset next (some source) ∧
      ((matchOfSlots? (groupCount (number 1 (singles.map Single.rule))) target).bind
        all.ruleMatch?) = single.rule.matchOf? front.length source := by
  obtain ⟨front, expression, behind, source, isWhole, fails, finds, moved⟩ :=
    decides.exists_found
  obtain ⟨front, rest, rfl, rfl, isRest⟩ := List.map_eq_append_iff.mp isWhole
  obtain ⟨single, behind, rfl, rfl, rfl⟩ := List.map_eq_cons_iff.mp isRest
  refine ⟨front, single, behind, source, rfl, List.forall_mem_map.mp fails, finds, ?_⟩
  rw [Nat.zero_add, ← groupCount_of_reads (Single.reads_each front) 1,
    single.reads.single_groups] at moved
  obtain ⟨⟨whole, isWhole⟩, stop, isSpan⟩ := finds.spans single.reads.isUsable
  obtain ⟨alternatives, -⟩ := compile_ok compiled
  rw [List.map_append, List.map_cons] at alternatives ⊢
  rw [ruleMatch?_of_moved _ _ _ alternatives moved isWhole isSpan, List.length_map]

/-- The match that comes first of those that rules find one by one: it begins before the others,
or where they begin but with an earlier rule. -/
structure IsFirst (rules : List Rule) (founds : List (Option RuleMatch)) (found : RuleMatch) :
    Prop where
  belongs : ∃ rule, rules[found.position]? = some rule ∧ found.kind = rule.kind
  single : ∃ single, founds[found.position]? = some (some single) ∧
    found = { single with position := found.position }
  first : ∀ position other, founds[position]? = some (some other) →
    found.span.start.offset < other.span.start.offset ∨
      found.span.start.offset = other.span.start.offset ∧ found.position ≤ position

theorem finds_none_of_decides {single : Single ignoreCase place} (member : single ∈ singles)
    (next : Place)
    (nothing : Expression.Decides place.offset next (singles.map Single.expression) none) :
    single.expression.single.Finds place.offset next none := by
  refine nothing.finds_none rfl _ ?_
  rw [Regex.Reading.Outline.map_expression_parts, Expression.flatMap_alternatives, List.map_map]
  exact List.mem_map_of_mem member

theorem exists_isFirst (compiled : compile (singles.map Single.rule) ignoreCase = .ok all)
    (joined : FirstPlace (Expression.Decides place.offset · (singles.map Single.expression))
      place (some (next, target))) :
    ∃ found,
      ((matchOfSlots? (groupCount (number 1 (singles.map Single.rule))) target).bind
        all.ruleMatch?) = some found ∧
      IsFirst (singles.map Single.rule) (singles.map Single.found) found := by
  obtain ⟨front, winner, behind, source, rfl, nothing, finds, isMatch⟩ :=
    exists_winner compiled joined.precedes.2
  have isWinner : winner ∈ front ++ winner :: behind := by simp
  have isFound := winner.found_of_finds (finds_none_of_decides isWinner) joined finds
  obtain ⟨stop, isOnly⟩ := winner.matchOf?_of_finds finds
  rw [isOnly] at isFound isMatch
  have listed : ((front ++ winner :: behind).map Single.found)[front.length]? =
      some winner.found := by simp
  refine ⟨_, isMatch, ⟨winner.rule, by simp, rfl⟩, ⟨_, listed.trans (congrArg some isFound), rfl⟩,
    ?_⟩
  intro position other isOther
  rw [List.getElem?_map] at isOther
  obtain ⟨single, isSingle, isFound⟩ := Option.map_eq_some_iff.mp isOther
  obtain ⟨notBefore, later⟩ := single.offset_le_of_found
    (finds_none_of_decides (List.mem_of_getElem? isSingle)) joined isFound
  rcases Nat.lt_or_ge position front.length with before | notBehind
  · -- A rule in front of the winner finds nothing where the winner does.
    rw [List.getElem?_append_left before] at isSingle
    exact .inl (later (nothing single (List.mem_of_getElem? isSingle)))
  · exact (Nat.lt_or_eq_of_le notBefore).imp_right fun same => ⟨same, notBehind⟩

/-- Rules of which the second takes a machine and the others do not. -/
def mixedRules : List Rule :=
  [⟨"(b)c", .enter 1⟩, ⟨"(a)\\1", .enter 2⟩, ⟨"a", .leave⟩]

def mixedMatches : List RuleMatch :=
  [{ kind := .enter 1
     position := 0
     span := stretch "xaabc" 3 5
     groups := [some (stretch "xaabc" 3 4)] },
    { kind := .enter 2
      position := 0
      span := stretch "xaabc" 1 3
      groups := [some (stretch "xaabc" 1 2)] },
    { kind := .leave
      position := 0
      span := stretch "xaabc" 1 2
      groups := [] }]

/-- Rules of which the second is no expression by itself: it ends the group that it is put
in. -/
def halvedRules : List Rule :=
  [⟨"z", .leave⟩, ⟨"x)|(y", .leave⟩]

/-- Rules of which the first takes a machine, and the second a loop that is not steady. -/
def unsteadyRules : List Rule :=
  [⟨"(?=z)z", .leave⟩, ⟨"(?:(?:(a)|b)c*)*x", .leave⟩]

end Alternation
end Highlighter

import Highlighter.Proofs.Regex.Placement
import Highlighter.Proofs.Regex.Planning
import Highlighter.Proofs.Regex.Fuel

/-!
# What a search finds

A search with a compiled expression finds a match of the tree that its source is read
into, whichever way it is searched for.
-/
namespace Highlighter.Regex

variable {source : String} {ignoreCase : Bool} {regex : Regex} {expression : Expression}

variable {slots : Slots} {found : Match} {numbers : List Nat} {stretch : Nat → Option Span}
  {last place first : Place} {groups number : Nat} {span : Span}

/-- How an expression is compiled: to an automaton, or to a program if that is not enough. -/
theorem compile_ok (compiled : compile source ignoreCase = .ok regex) :
    ∃ expression, Expression.read (pattern source ignoreCase).toList = .ok expression ∧
      ((∃ code, Code.ofExpression expression = .ok code ∧
          regex = { groups := expression.groups, strategy := .machine code }) ∨
        ∃ automaton, Automaton.ofNodes [expression.node] = .ok automaton ∧
          regex = { groups := automaton.groups, strategy := .automaton automaton }) := by
  obtain ⟨expression, read, compiled⟩ := Success.bind_eq_ok.mp compiled
  refine ⟨expression, read, ?_⟩
  split at compiled
  · obtain ⟨code, isCode, compiled⟩ := Success.bind_eq_ok.mp compiled
    cases compiled
    exact .inl ⟨code, isCode, rfl⟩
  · obtain ⟨automaton, isAutomaton, compiled⟩ := Success.bind_eq_ok.mp compiled
    cases compiled
    exact .inr ⟨automaton, isAutomaton, rfl⟩

/-- What is noted of a match as a whole and of what happens in it. -/
def Effect.whole (start stop : Place) (effect : Effect) : Effect :=
  (Effect.write 0 start).andThen (effect.andThen (.write 1 stop))

theorem Code.ofExpression_matches {code : Code} (made : ofExpression expression = .ok code)
    (noZero : 0 ∉ expression.node.groups) {after : Effect} (runs : Runs [code] place last after) :
    ∃ start stop effect, place.Precedes start ∧ Matches [expression.node] start stop effect ∧
      ∀ slot < 2 * expression.groups + 2, after slot = effect.whole start stop slot := by
  obtain ⟨⟨body, registers⟩, planned, made⟩ := Success.bind_eq_ok.mp made
  cases made
  obtain ⟨-, implements⟩ := plan_isFaithful expression.node planned noZero
  have skips : Implements (2 * expression.groups + 2)
      [.star false (.consume [.complement .empty])]
      [.repetition (.consume (.complement .empty)) 0 none false] :=
    Implements.loop .star (by simp [register?]) (.consume rfl) 0 none false
  cases runs with
  | sequence inner =>
    obtain ⟨start, left, right, before, behind, rfl⟩ := inner.split
    obtain ⟨skipped, isSkipped, sameLeft⟩ := skips before
    have unnoted (slot : Nat) : skipped slot = none :=
      isSkipped.unchanged (by simp [Matches.Notable, Node.groupsOf, Node.groups,
        Node.anyKeepsOut, Node.keepsOut])
    cases behind with
    | group inside =>
      obtain ⟨effect, matched, sameRight⟩ := implements inside
      refine ⟨start, last, effect, isSkipped.precedes, matched, fun slot below => ?_⟩
      simp only [Effect.whole, Effect.andThen_apply, sameLeft slot below, unnoted slot,
        sameRight slot below, Option.or_none]
    | leave loops => cases loops
    | again loops => cases loops
  | leave loops => cases loops
  | again loops => cases loops

theorem searchFrom_matches (compiled : compile source ignoreCase = .ok regex)
    (read : Expression.read (pattern source ignoreCase).toList = .ok expression) {continued : Bool}
    (search : regex.searchFrom place continued = .ok (some found)) :
    ∃ slots start stop effect, matchOfSlots? regex.groups slots = some found ∧
      place.Precedes start ∧ Matches [expression.node] start stop effect ∧
      ∀ slot < 2 * regex.groups + 2, slots.effect slot = effect.whole start stop slot := by
  obtain ⟨sameExpression, sameRead, cases⟩ := compile_ok compiled
  obtain rfl : expression = sameExpression := by
    rw [read] at sameRead
    cases sameRead
    rfl
  have noZero : 0 ∉ expression.node.groups := fun isGroup =>
    Nat.not_lt_zero _ ((Expression.read_numbered read).bounds 0 isGroup).1
  rcases cases with ⟨code, made, rfl⟩ | ⟨automaton, made, rfl⟩
  · obtain ⟨slots, searched, search⟩ := Success.bind_eq_ok.mp search
    obtain ⟨slots, rfl, isMatch⟩ := Option.bind_eq_some_iff.mp (Except.ok.inj search)
    obtain ⟨last, runs⟩ := Machine.search_runs searched
    obtain ⟨start, stop, effect, order, matched, same⟩ :=
      Code.ofExpression_matches made noZero runs
    exact ⟨slots, start, stop, effect, isMatch, order, matched, same⟩
  · obtain ⟨slots, searched, isMatch⟩ := Option.bind_eq_some_iff.mp (Except.ok.inj search)
    obtain ⟨start, order, accepts⟩ := Automaton.search?_accepts searched
    obtain ⟨stop, effect, matched, same⟩ := accepts.matches (Automaton.ofNodes_ok made)
    refine ⟨slots, start, stop, effect, isMatch, order, matched, fun slot _ => ?_⟩
    rw [same]
    rfl

theorem matchOfSlots?_eq_some (isMatch : matchOfSlots? groups slots = some found) :
    ∃ span, slots.span? 0 = some span ∧
      found.span =
        { start := if span.stop.offset < span.start.offset then span.stop else span.start
          stop := span.stop } ∧
      found.groups = groupSpans slots 1 groups := by
  obtain ⟨span, isSpan, isMatch⟩ := Option.bind_eq_some_iff.mp isMatch
  cases isMatch
  exact ⟨span, isSpan, rfl, rfl⟩

theorem groupSpans_getElem? {first count position : Nat} (inRange : position < count) :
    (groupSpans slots first count)[position]? = some (slots.span? (first + position)) := by
  induction count generalizing first position with
  | zero => cases inRange
  | succ count ih =>
    cases position with
    | zero => rfl
    | succ position =>
      rw [groupSpans, List.getElem?_cons_succ,
        ih (Nat.lt_of_succ_lt_succ inRange)]
      congr 2
      omega

theorem groupSpans_length (slots : Slots) (first count : Nat) :
    (groupSpans slots first count).length = count := by
  induction count generalizing first with
  | zero => rfl
  | succ count ih => rw [groupSpans, List.length_cons, ih]

theorem span?_eq_some :
    slots.span? number = some span ↔
      slots.effect (2 * number) = some (some span.start) ∧
        slots.effect (2 * number + 1) = some (some span.stop) := by
  obtain ⟨start, stop⟩ := span
  simp only [Slots.span?, Slots.get?_eq_effect, Option.bind_eq_bind, Option.bind_eq_some_iff,
    Option.join_eq_some_iff, Option.pure_def, Option.some.injEq, Span.mk.injEq]
  constructor
  · rintro ⟨first, isStart, last, isStop, rfl, rfl⟩
    exact ⟨isStart, isStop⟩
  · rintro ⟨isStart, isStop⟩
    exact ⟨start, isStart, stop, isStop, rfl, rfl⟩

theorem group?_eq_span? (isMatch : matchOfSlots? groups slots = some found) (positive : 0 < number)
    (inRange : number ≤ groups) : found.group? number = slots.span? number := by
  obtain ⟨span, -, -, isGroups⟩ := matchOfSlots?_eq_some isMatch
  obtain ⟨number, rfl⟩ := Nat.exists_eq_add_one_of_ne_zero (Nat.ne_of_gt positive)
  rw [Match.group?, isGroups, groupSpans_getElem? inRange, Nat.add_comm]
  rfl

theorem le_groups_of_group? (isMatch : matchOfSlots? groups slots = some found)
    (isGroup : found.group? number = some span) : number ≤ groups := by
  obtain ⟨span, -, -, isGroups⟩ := matchOfSlots?_eq_some isMatch
  cases number with
  | zero => exact Nat.zero_le _
  | succ number =>
    rw [Match.group?, isGroups] at isGroup
    rcases Nat.lt_or_ge number groups with inRange | outOfRange
    · exact inRange
    · rw [List.getElem?_eq_none (by rwa [groupSpans_length])] at isGroup
      cases isGroup

def Covered (stretch : Nat → Option Span) : Place → List Nat → Place → Prop
  | first, [], last => first = last
  | first, number :: numbers, last =>
    ∃ middle, stretch number = some { start := first, stop := middle } ∧
      first.Precedes middle ∧ Covered stretch middle numbers last

theorem Covered.precedes (covered : Covered stretch first numbers last) :
    first.Precedes last := by
  induction numbers generalizing first with
  | nil =>
    obtain rfl : first = last := covered
    exact .refl first
  | cons number numbers ih =>
    obtain ⟨middle, -, order, rest⟩ := covered
    exact order.trans (ih rest)

theorem covered_of_tiles {effect : Effect} (tiles : effect.Tiles first numbers last)
    (same : ∀ number ∈ numbers, ∀ span : Span, effect (2 * number) = some (some span.start) →
      effect (2 * number + 1) = some (some span.stop) → stretch number = some span) :
    Covered stretch first numbers last := by
  induction numbers generalizing first with
  | nil => exact tiles
  | cons number numbers ih =>
    obtain ⟨middle, isStart, isStop, order, rest⟩ := tiles
    exact ⟨middle, same number List.mem_cons_self _ isStart isStop, order,
      ih rest fun number member => same number (List.mem_cons_of_mem _ member)⟩

section Found

variable (compiled : compile source ignoreCase = .ok regex)
  (read : Expression.read (pattern source ignoreCase).toList = .ok expression)
  {place : Place} {continued : Bool} {found : Match}
  (search : regex.searchFrom place continued = .ok (some found))

include compiled read search

/-- A group that took part in what is found took part in a match of the tree, which notes of all
groups what is found of them. -/
theorem exists_matches_of_group (positive : 0 < number) (isGroup : found.group? number = some span) :
    ∃ start stop effect, place.Precedes start ∧ Matches [expression.node] start stop effect ∧
      effect (2 * number) = some (some span.start) ∧
      effect (2 * number + 1) = some (some span.stop) ∧
      ∀ other, 0 < other → other ≤ regex.groups → ∀ part : Span,
        effect (2 * other) = some (some part.start) →
        effect (2 * other + 1) = some (some part.stop) → found.group? other = some part := by
  obtain ⟨slots, start, stop, effect, isMatch, order, matched, same⟩ :=
    searchFrom_matches compiled read search
  have isSpan {other : Nat} (positive : 0 < other) (inRange : other ≤ regex.groups) (part : Span) :
      found.group? other = some part ↔ effect (2 * other) = some (some part.start) ∧
        effect (2 * other + 1) = some (some part.stop) := by
    have inside {slot : Nat} (isSlot : slot / 2 = other) : slots.effect slot = effect slot := by
      have notStart : slot ≠ 0 := by omega
      have notStop : slot ≠ 1 := by omega
      rw [same slot (by omega)]
      simp [Effect.whole, Effect.write, notStart, notStop]
    rw [group?_eq_span? isMatch positive inRange, span?_eq_some, inside (by omega),
      inside (by omega)]
  obtain ⟨isStart, isStop⟩ :=
    (isSpan positive (le_groups_of_group? isMatch isGroup) span).mp isGroup
  exact ⟨start, stop, effect, order, matched, isStart, isStop, fun other positive inRange part
    isStart isStop => (isSpan positive inRange part).mpr ⟨isStart, isStop⟩⟩

theorem group_placed {wrapper : Nat} {parts : Option (List Nat)} (positive : 0 < wrapper)
    (isGroup : found.group? wrapper = some span)
    (ahead : expression.node.eachLookBehind fun inner => !inner.groups.contains wrapper)
    (laidOut : expression.node.laidOut wrapper parts)
    (inRange : ∀ number ∈ parts.getD [], 0 < number ∧ number ≤ regex.groups) :
    place.Precedes span.start ∧ span.start.Precedes span.stop ∧
      ∀ numbers, parts = some numbers → Covered found.group? span.start numbers span.stop := by
  obtain ⟨start, stop, effect, order, matched, isStart, isStop, same⟩ :=
    exists_matches_of_group compiled read search positive isGroup
  have numbered := Expression.read_numbered read
  have orderly : Matches.Orderly wrapper parts [expression.node] := by
    refine ⟨?_, ?_, ?_⟩
    · simpa [Node.allLaidOut] using laidOut
    · simpa [Node.groupsOf_singleton] using numbered.different
    · rw [Node.groupsOf_singleton]
      exact fun isGroup => Nat.not_lt_zero _ (numbered.bounds 0 isGroup).1
  have positives : 0 ∉ wrapper :: parts.getD [] := by
    intro isZero
    rcases List.mem_cons.mp isZero with isWrapper | isPart
    · exact Nat.ne_of_lt positive isWrapper
    · exact Nat.not_lt_zero _ (inRange 0 isPart).1
  have behind : effect.Behind start (2 * wrapper) := by
    refine matched.notedBehind (fun node _ tested => ?_) (List.forall_mem_singleton.mpr ahead)
    refine Matches.not_notable ?_ (Nat.ne_of_gt positive) (by omega)
    simpa [Node.groupsOf_singleton] using tested
  obtain ⟨inOrder, covered⟩ := (matched.laid orderly positives).isHeld isStart isStop
  refine ⟨order.trans (behind _ isStart), inOrder, fun numbers isParts => ?_⟩
  refine covered_of_tiles (covered numbers isParts) fun number member part => ?_
  obtain ⟨positive, inRange⟩ := inRange number (by simpa [isParts] using member)
  exact same number positive inRange part

theorem match_placed
    (ahead : expression.node.eachLookBehind fun inner => !inner.keepsOut) :
    place.Precedes found.span.start ∧ found.span.start.Precedes found.span.stop := by
  obtain ⟨slots, start, stop, effect, isMatch, order, matched, same⟩ :=
    searchFrom_matches compiled read search
  have noZero : 0 ∉ expression.node.groups := fun isGroup =>
    Nat.not_lt_zero _ ((Expression.read_numbered read).bounds 0 isGroup).1
  obtain ⟨span, isSpan, isFound, -⟩ := matchOfSlots?_eq_some isMatch
  obtain ⟨isStart, isStop⟩ := span?_eq_some.mp isSpan
  rw [same _ (by omega)] at isStart isStop
  have stopIs : span.stop = stop := by
    simpa [Effect.whole, Effect.write] using isStop.symm
  have behind : place.Precedes span.start := by
    have noted : effect.Behind start 0 := by
      refine matched.notedBehind (fun node within tested => ?_)
        (List.forall_mem_singleton.mpr ahead)
      rw [Node.groupsOf_singleton] at within
      have noZeroInside : 0 ∉ node.groups := fun isGroup => noZero (within isGroup)
      simpa [Matches.notable_singleton, noZeroInside] using tested
    have whole : (effect.whole start stop).Behind start (2 * 0) :=
      .andThen (.write (.refl _)) (.andThen noted (.write matched.precedes))
    exact order.trans (whole _ isStart)
  rw [isFound, stopIs]
  split
  · exact ⟨order.trans matched.precedes, .refl _⟩
  · rename_i inOrder
    exact ⟨behind, behind.total (order.trans matched.precedes) (Nat.le_of_not_lt inOrder)⟩

end Found

end Highlighter.Regex

import Highlighter.Proofs.Regex.Machine

/-!
# Programs for expressions

The program planned for a node runs only as the node matches.  It keeps more slots than the node
has groups: those in which loops note where they were.  Their numbers lie behind the ones taken
when the planning began, and on all other slots a run and a match do the same.
-/
namespace Highlighter.Regex

variable {referenced : List Nat} {nodes : List Node} {direction : Direction} {start stop : Place}
  {first last limit : Nat} {body : Code}

/-! ## Easy expressions -/

namespace Node

theorem take_measures (referenced : List Nat) (count : Nat) (nodes : List Node) :
    (measures referenced nodes).take count = measures referenced (nodes.take count) := by
  rw [measures_eq_map, measures_eq_map, List.map_take]

theorem drop_measures (referenced : List Nat) (count : Nat) (nodes : List Node) :
    (measures referenced nodes).drop count = measures referenced (nodes.drop count) := by
  rw [measures_eq_map, measures_eq_map, List.map_drop]

theorem not_mem_groupsOf {part : List Node} (isPart : part ⊆ nodes) {number : Nat}
    (noGroup : number ∉ groupsOf nodes) : number ∉ groupsOf part := by
  rw [groupsOf_eq_flatMap, List.mem_flatMap]
  rintro ⟨node, member, isGroup⟩
  exact noGroup (mem_groupsOf (isPart member) isGroup)

theorem eq_take_append_drop (order : first ≤ last) (nodes : List Node) :
    nodes = nodes.take first ++ (nodes.take last).drop first ++ nodes.drop last := by
  have front : nodes.take first = (nodes.take last).take first := by
    rw [List.take_take, Nat.min_eq_left order]
  rw [front, List.take_append_drop, List.take_append_drop]

theorem keepsOut_of_easy (node : Node) (easy : (measure referenced node).hard = false) :
    keepsOut node = false := by
  induction node using inside_induction with
  | step node ih =>
    cases node <;>
      simp_all [inside, measure, measures_eq_map, keepsOut, anyKeepsOut_eq_any]

theorem consume?_singleton {set : CharSet} (passed : Machine.consume? [set] start = some stop) :
    ∃ char, start.next? = some (char, stop) ∧ set.contains char := by
  simp only [Machine.consume?] at passed
  split at passed
  · rename_i char next isNext
    split at passed
    · rename_i member
      cases passed
      exact ⟨char, isNext, member⟩
    · cases passed
  · cases passed

theorem consume?_append {first second : List CharSet}
    (passed : Machine.consume? (first ++ second) start = some stop) :
    ∃ middle, Machine.consume? first start = some middle ∧
      Machine.consume? second middle = some stop := by
  induction first generalizing start with
  | nil => exact ⟨start, rfl, passed⟩
  | cons set sets ih =>
    simp only [List.cons_append, Machine.consume?] at passed ⊢
    split at passed
    · split at passed
      · rename_i member
        simpa only [if_pos member] using ih passed
      · cases passed
    · cases passed

mutual

theorem singles_matches :
    (node : Node) → {sets : List CharSet} → singles? node = some sets → {start stop : Place} →
      Machine.consume? sets start = some stop → Matches [node] start stop .skip
  | .empty, _, isSets, _, _, passed => by
      cases isSets
      cases passed
      exact .empty
  | .consume set, _, isSets, _, _, passed => by
      cases isSets
      obtain ⟨char, isNext, member⟩ := consume?_singleton passed
      exact .consume isNext member
  | .literal char, _, isSets, _, _, passed => by
      cases isSets
      obtain ⟨char, isNext, member⟩ := consume?_singleton passed
      exact .literal isNext member
  | .concat nodes, _, isSets, _, _, passed => .concat (singlesOf_matches nodes isSets passed)
  | .check _, _, isSets, _, _, _ | .alternation _, _, isSets, _, _, _
  | .group _ _, _, isSets, _, _, _ | .look _ _ _, _, isSets, _, _, _
  | .repetition _ _ _ _, _, isSets, _, _, _ | .reference _, _, isSets, _, _, _
  | .atomic _, _, isSets, _, _, _ | .keepOut, _, isSets, _, _, _
  | .searchStart, _, isSets, _, _, _ | .groupMatched _, _, isSets, _, _, _
  | .conditional _ _ _, _, isSets, _, _, _ => by cases isSets

theorem singlesOf_matches :
    (nodes : List Node) → {sets : List CharSet} → singlesOf? nodes = some sets →
      {start stop : Place} → Machine.consume? sets start = some stop →
      Matches nodes start stop .skip
  | [], _, isSets, _, _, passed => by
      cases isSets
      cases passed
      exact .nil
  | node :: nodes, sets, isSets, _, _, passed => by
      obtain ⟨first, isFirst, isSets⟩ := Option.bind_eq_some_iff.mp isSets
      obtain ⟨others, isOthers, isSets⟩ := Option.bind_eq_some_iff.mp isSets
      cases isSets
      obtain ⟨middle, before, behind⟩ := consume?_append passed
      exact .cons (singles_matches node isFirst before) (singlesOf_matches nodes isOthers behind)

end

end Node

/-! ## What programs stand for -/

theorem Code.Loops.unique {loop other : Code} (loops : loop.Loops body) (also : loop.Loops other) :
    other = body := by
  cases loops <;> cases also <;> rfl

/-- Programs run only as nodes match.  They do the same to the slots below a limit. -/
def Implements (limit : Nat) (codes : List Code) (nodes : List Node) : Prop :=
  ∀ ⦃start stop : Place⦄ ⦃effect : Effect⦄, Runs codes start stop effect →
    ∃ found, Matches nodes start stop found ∧ ∀ slot < limit, effect slot = found slot

namespace Implements

variable {limit : Nat} {code : Code} {node : Node} {codes : List Code} {nodes : List Node}

variable {looks : List (Nat × Code)}

theorem below {lower : Nat} (implements : Implements limit codes nodes) (le : lower ≤ limit) :
    Implements lower codes nodes := by
  intro start stop effect runs
  obtain ⟨found, matched, same⟩ := implements runs
  exact ⟨found, matched, fun slot lt => same slot (Nat.lt_of_lt_of_le lt le)⟩

theorem nil : Implements limit [] [] := by
  intro start stop effect runs
  cases runs
  exact ⟨.skip, .nil, fun _ _ => rfl⟩

theorem append {others : List Code} {rest : List Node} (first : Implements limit codes nodes)
    (second : Implements limit others rest) :
    Implements limit (codes ++ others) (nodes ++ rest) := by
  intro start stop effect runs
  obtain ⟨middle, left, right, before, behind, rfl⟩ := runs.append
  obtain ⟨leftFound, leftMatched, leftSame⟩ := first before
  obtain ⟨rightFound, rightMatched, rightSame⟩ := second behind
  refine ⟨_, .append leftMatched rightMatched, fun slot lt => ?_⟩
  rw [Effect.andThen_apply, Effect.andThen_apply, leftSame slot lt, rightSame slot lt]

theorem sequence (implements : Implements limit codes nodes) :
    Implements limit [.sequence codes] [.concat nodes] := by
  intro start stop effect runs
  cases runs with
  | sequence inner =>
    obtain ⟨found, matched, same⟩ := implements inner
    exact ⟨found, .concat matched, same⟩
  | leave loops | again loops => cases loops

theorem choice (each : ∀ code ∈ codes, ∃ node ∈ nodes, Implements limit [code] [node]) :
    Implements limit [.choice codes] [.alternation nodes] := by
  intro start stop effect runs
  cases runs with
  | choice member inner =>
    obtain ⟨node, isNode, implements⟩ := each _ member
    obtain ⟨found, matched, same⟩ := implements inner
    exact ⟨found, .alternation isNode matched, same⟩
  | leave loops | again loops => cases loops

theorem group (implements : Implements limit [code] [node]) (number : Nat) :
    Implements limit [.group number code] [.group number node] := by
  intro start stop effect runs
  cases runs with
  | group inner =>
    obtain ⟨found, matched, same⟩ := implements inner
    refine ⟨_, .group matched, fun slot lt => ?_⟩
    simp only [Effect.andThen_apply, same slot lt]
  | leave loops | again loops => cases loops

theorem optional (implements : Implements limit [code] [node]) (least : Nat) (most : Option Nat)
    (greedy : Bool) :
    Implements limit [.optional greedy code] [.repetition node least most greedy] := by
  intro start stop effect runs
  cases runs with
  | skipped => exact ⟨.skip, .leave, fun _ _ => rfl⟩
  | taken inner =>
    obtain ⟨found, matched, same⟩ := implements inner
    refine ⟨_, .again matched .leave, fun slot lt => ?_⟩
    rw [Effect.andThen_skip, same slot lt]
  | leave loops | again loops => cases loops

/-- A loop matches as a repetition does, whatever it keeps in its own register. -/
theorem loop {loop : Code} (loops : loop.Loops body)
    (registers : ∀ register, loop.register? = some register → limit ≤ register)
    (implements : Implements limit [body] [node]) (least : Nat) (most : Option Nat)
    (greedy : Bool) : Implements limit [loop] [.repetition node least most greedy] := by
  intro start stop effect runs
  have otherSlot {slot : Nat} (lt : slot < limit) : loop.register? ≠ some slot := by
    intro isRegister
    exact Nat.not_lt.mpr (registers slot isRegister) lt
  generalize isCodes : [loop] = codes at runs
  induction runs with
  | leave also unchanged =>
    cases isCodes
    exact ⟨.skip, .leave, fun slot lt => unchanged slot (otherSlot lt)⟩
  | again also once more isEffect _ ih =>
    cases isCodes
    obtain rfl := loops.unique also
    obtain ⟨left, leftMatched, leftSame⟩ := implements once
    obtain ⟨right, rightMatched, rightSame⟩ := ih rfl
    refine ⟨_, .again leftMatched rightMatched, fun slot lt => ?_⟩
    rw [isEffect slot (otherSlot lt), Effect.andThen_apply, Effect.andThen_apply,
      leftSame slot lt, rightSame slot lt]
  | _ => cases isCodes <;> cases loops

theorem plus (implements : Implements limit [code] [node]) (least : Nat) (most : Option Nat)
    (greedy : Bool) :
    Implements limit [.plus greedy code] [.repetition node least most greedy] := by
  intro start stop effect runs
  cases runs with
  | plus once more =>
    obtain ⟨left, leftMatched, leftSame⟩ := implements once
    obtain ⟨right, rightMatched, rightSame⟩ :=
      implements.loop .star (by simp [Code.register?]) least most greedy more
    refine ⟨_, .again leftMatched rightMatched, fun slot lt => ?_⟩
    rw [Effect.andThen_apply, Effect.andThen_apply, leftSame slot lt, rightSame slot lt]
  | leave loops | again loops => cases loops

theorem look (implements : Implements limit [code] [node]) (back : Nat)
    (ahead : direction = .ahead → back = 0) :
    Implements limit [.look back code] [.look direction false node] := by
  intro start stop effect runs
  cases runs with
  | look goesBack inner =>
    obtain ⟨found, matched, same⟩ := implements inner
    exact ⟨found, .look goesBack ahead matched, same⟩
  | leave loops | again loops => cases loops

theorem atomic (implements : Implements limit [code] [node]) :
    Implements limit [.atomic code] [.atomic node] := by
  intro start stop effect runs
  cases runs with
  | atomic inner =>
    obtain ⟨found, matched, same⟩ := implements inner
    exact ⟨found, .atomic matched, same⟩
  | leave loops | again loops => cases loops

theorem conditional {condition yes no : Code} {test whenTrue whenFalse : Node}
    (tests : Implements limit [condition] [test]) (onTrue : Implements limit [yes] [whenTrue])
    (onFalse : Implements limit [no] [whenFalse]) :
    Implements limit [.conditional condition yes no] [.conditional test whenTrue whenFalse] := by
  intro start stop effect runs
  cases runs with
  | whenTrue before behind =>
    obtain ⟨left, leftMatched, leftSame⟩ := tests before
    obtain ⟨right, rightMatched, rightSame⟩ := onTrue behind
    refine ⟨_, .whenTrue leftMatched rightMatched, fun slot lt => ?_⟩
    rw [Effect.andThen_apply, Effect.andThen_apply, leftSame slot lt, rightSame slot lt]
  | whenFalse inner =>
    obtain ⟨found, matched, same⟩ := onFalse inner
    exact ⟨found, .whenFalse matched, same⟩
  | leave loops | again loops => cases loops

theorem of_skip
    (each : ∀ ⦃start stop : Place⦄ ⦃effect : Effect⦄, Runs codes start stop effect →
      effect = .skip ∧ Matches nodes start stop .skip) : Implements limit codes nodes := by
  intro start stop effect runs
  obtain ⟨rfl, matched⟩ := each runs
  exact ⟨.skip, matched, fun _ _ => rfl⟩

theorem denial (direction : Direction) (back : Nat) :
    Implements limit [.denial back code] [.look direction true node] := by
  refine of_skip fun start stop effect runs => ?_
  cases runs with
  | denied => exact ⟨rfl, .denied⟩
  | leave loops | again loops => cases loops

theorem denied_each {effect : Effect}
    (runs : Runs (looks.map fun look => .denial look.1 look.2) start stop effect) :
    stop = start ∧ effect = .skip := by
  induction looks generalizing start effect with
  | nil =>
    cases runs
    exact ⟨rfl, rfl⟩
  | cons look looks ih =>
    obtain ⟨middle, left, right, first, others, rfl⟩ := runs.split
    obtain ⟨rfl, rfl⟩ := ih others
    cases first with
    | denied => exact ⟨rfl, rfl⟩
    | leave loops | again loops => cases loops

/-- Of look-arounds for the alternatives of a node one succeeds, or all are denied. -/
theorem lookAny (each : ∀ look ∈ looks, ∃ node ∈ nodes, Implements limit [look.2] [node])
    (negated : Bool) :
    Implements limit [Code.lookAny negated looks]
      [.look .behind negated (.alternation nodes)] := by
  intro start stop effect runs
  cases negated with
  | true =>
    cases runs with
    | sequence inner =>
      obtain ⟨rfl, rfl⟩ := denied_each inner
      exact ⟨.skip, .denied, fun _ _ => rfl⟩
    | leave loops | again loops => cases loops
  | false =>
    cases runs with
    | choice member inner =>
      obtain ⟨look, isLook, rfl⟩ := List.mem_map.mp member
      obtain ⟨node, isNode, implements⟩ := each look isLook
      cases inner with
      | look goesBack inner =>
        obtain ⟨found, matched, same⟩ := implements inner
        refine ⟨found, .look goesBack ?_ (.alternation isNode matched), same⟩
        intro ahead
        cases ahead
      | leave loops | again loops => cases loops
    | leave loops | again loops => cases loops

theorem nothing : Implements limit [.nothing] [] := by
  refine of_skip fun start stop effect runs => ?_
  cases runs with
  | nothing => exact ⟨rfl, .nil⟩
  | leave loops | again loops => cases loops

theorem empty : Implements limit [.nothing] [.empty] := by
  refine of_skip fun start stop effect runs => ?_
  cases runs with
  | nothing => exact ⟨rfl, .empty⟩
  | leave loops | again loops => cases loops

theorem consume {sets : List CharSet} (isSets : Node.singlesOf? nodes = some sets) :
    Implements limit [.consume sets] nodes := by
  refine of_skip fun start stop effect runs => ?_
  cases runs with
  | consume passed => exact ⟨rfl, Node.singlesOf_matches nodes isSets passed⟩
  | leave loops | again loops => cases loops

theorem check (assertion : Assertion) :
    Implements limit [.check assertion] [.check assertion] := by
  refine of_skip fun start stop effect runs => ?_
  cases runs with
  | check holds => exact ⟨rfl, .check holds⟩
  | leave loops | again loops => cases loops

theorem reference (number : Nat) :
    Implements limit [.reference number] [.reference number] := by
  refine of_skip fun start stop effect runs => ?_
  cases runs with
  | reference passed => exact ⟨rfl, .reference passed⟩
  | leave loops | again loops => cases loops

theorem groupMatched (number : Nat) :
    Implements limit [.groupMatched number] [.groupMatched number] := by
  refine of_skip fun start stop effect runs => ?_
  cases runs with
  | groupMatched => exact ⟨rfl, .groupMatched⟩
  | leave loops | again loops => cases loops

theorem searchStart : Implements limit [.searchStart] [.searchStart] := by
  refine of_skip fun start stop effect runs => ?_
  cases runs with
  | searchStart => exact ⟨rfl, .searchStart⟩
  | leave loops | again loops => cases loops

theorem keepOut : Implements limit [.keepOut] [.keepOut] := by
  intro start stop effect runs
  cases runs with
  | keepOut => exact ⟨_, .keepOut, fun _ _ => rfl⟩
  | leave loops | again loops => cases loops

end Implements

/-! ## Planning -/

theorem noteGroup_effect (number : Nat) (found : Slots) (slot : Nat) :
    Slots.effect [(2 * number + 1, found.get? (2 * number + 1)),
        (2 * number, found.get? (2 * number))] slot =
      if slot / 2 = number then some (found.get? slot) else none := by
  by_cases inGroup : slot / 2 = number
  · have isSlot : slot = 2 * number ∨ slot = 2 * number + 1 := by omega
    rw [if_pos inGroup]
    rcases isSlot with rfl | rfl <;> simp [Slots.effect]
  · have notStop : ¬ 2 * number + 1 = slot := by omega
    have notStart : ¬ 2 * number = slot := by omega
    simp [Slots.effect, inGroup, notStop, notStart]

theorem noteGroups_effect (groups : List Nat) (found : Slots) (slot : Nat) :
    Slots.effect (Machine.noteGroups groups found []) slot =
      if slot / 2 ∈ groups then some (found.get? slot) else none := by
  induction groups with
  | nil => rfl
  | cons number groups ih =>
    have split : Machine.noteGroups (number :: groups) found [] =
        Machine.noteGroups groups found [] ++
          [(2 * number + 1, found.get? (2 * number + 1)),
            (2 * number, found.get? (2 * number))] :=
      Machine.noteGroups_append groups found _
    rw [split, Slots.effect_append, Effect.andThen_apply, ih,
      noteGroup_effect]
    grind

/-- An automaton for easy nodes takes back what was noted of their groups earlier. -/
theorem Implements.piece {automaton : Automaton} (made : Automaton.ofNodes nodes = .ok automaton)
    (noZero : 0 ∉ Node.groupsOf nodes) (noMark : Node.anyKeepsOut nodes = false) :
    Implements limit [.piece automaton (Node.groupsOf nodes)] nodes := by
  intro start stop effect runs
  cases runs with
  | piece found isStop =>
    obtain ⟨last, effect, matched, isEffect⟩ :=
      (Automaton.matchAt?_accepts found).matches (Automaton.ofNodes_ok made)
    have sameStop : last = stop := by
      rw [Slots.get?_eq_effect, isEffect] at isStop
      simpa [Effect.write] using isStop
    subst sameStop
    refine ⟨_, .forget matched, fun slot _ => ?_⟩
    rw [noteGroups_effect, Effect.andThen_apply, Effect.forget]
    by_cases inGroup : slot / 2 ∈ Node.groupsOf nodes
    · have notZero : slot / 2 ≠ 0 := fun isZero => noZero (isZero ▸ inGroup)
      have notStart : slot ≠ 0 := by omega
      have notStop : slot ≠ 1 := by omega
      rw [Slots.get?_eq_effect, isEffect]
      cases isNoted : effect slot <;> simp [inGroup, Effect.write, notStart, notStop, isNoted]
    · have unnoted : effect slot = none := by
        refine matched.unchanged ?_
        rintro (isGroup | ⟨-, keeps⟩)
        · exact inGroup isGroup
        · simp [noMark] at keeps
      simp [inGroup, unnoted]
  | leave loops | again loops => cases loops

namespace Code

variable {register : Nat} {code : Code} {node : Node} {following : Bool}

theorem ofEasy_implements (limit : Nat) (made : ofEasy nodes = .ok code)
    (noZero : 0 ∉ Node.groupsOf nodes) (noMark : Node.anyKeepsOut nodes = false) :
    Implements limit [code] nodes := by
  unfold ofEasy at made
  split at made
  · cases made
    exact .nothing
  · split at made
    · rename_i sets isSets
      cases made
      exact .consume isSets
    · obtain ⟨automaton, isAutomaton, made⟩ := Success.bind_eq_ok.mp made
      cases made
      exact .piece isAutomaton noZero noMark

/-- Parts that are left to an automaton stand in front of and behind what is hard.  They are of a
fixed length, unless nothing follows. -/
theorem division_parts (following : Bool) (parts : List Measure) :
    (division following parts).1 ≤ (division following parts).2 ∧
      (∀ part ∈ parts.take (division following parts).1, part.hard = false ∧ part.fixed = true) ∧
      ∀ part ∈ parts.drop (division following parts).2,
        part.hard = false ∧ (following = true → part.fixed = true) := by
  let easyAndFixed (part : Measure) : Bool := part.fixed && !part.hard
  let leading := parts.takeWhile easyAndFixed
  let rest := (parts.drop leading.length).reverse
  let trailing :=
    if following then rest.takeWhile easyAndFixed
    else rest.takeWhile fun part => !part.hard
  have isDivision : division following parts =
    (leading.length, parts.length - trailing.length) := rfl
  have leadingFirst : leading <+: parts := List.takeWhile_prefix _
  have trailingFirst : trailing <+: rest := by
    simp only [trailing]
    split <;> exact List.takeWhile_prefix _
  have trailingLast : trailing.reverse <:+ parts := by
    have inRest : trailing.reverse <:+ parts.drop leading.length := by
      simpa [rest] using List.reverse_suffix.mpr trailingFirst
    exact inRest.trans (List.drop_suffix _ _)
  have eachLeading : leading.all easyAndFixed := List.all_takeWhile
  have eachTrailing : ∀ part ∈ trailing,
      part.hard = false ∧ (following = true → part.fixed = true) := by
    simp only [trailing]
    split
    · have each : (rest.takeWhile easyAndFixed).all easyAndFixed := List.all_takeWhile
      grind
    · have each : (rest.takeWhile fun part => !part.hard).all fun part => !part.hard :=
        List.all_takeWhile
      grind
  rw [isDivision]
  refine ⟨?_, ?_, ?_⟩
  · have trailingLength := trailingFirst.length_le
    have leadingLength := leadingFirst.length_le
    simp only [rest, List.length_reverse, List.length_drop] at trailingLength
    show leading.length ≤ parts.length - trailing.length
    omega
  · rw [← List.prefix_iff_eq_take.mp leadingFirst]
    grind
  · have isTrailing := List.suffix_iff_eq_drop.mp trailingLast
    rw [List.length_reverse] at isTrailing
    rw [← isTrailing]
    exact fun part member => eachTrailing part (List.mem_reverse.mp member)

theorem repetition_implements {inner : Measure} {least : Nat} {most : Option Nat} {greedy : Bool}
    (isNew : limit ≤ register) (implements : Implements limit [body] [node]) :
    Implements limit [repetition register inner least most greedy body]
      [.repetition node least most greedy] := by
  have noRegister {loop : Code} (isNone : loop.register? = none) :
      ∀ other, loop.register? = some other → limit ≤ other := by
    simp [isNone]
  unfold repetition
  split
  · exact implements.optional _ _ _
  · split
    · refine implements.loop .guarded ?_ _ _ _
      rintro other ⟨⟩
      exact isNew
    · split
      · exact implements.loop .star (noRegister rfl) _ _ _
      · exact implements.plus _ _ _
      · exact implements.loop .counted (noRegister rfl) _ _ _
  · exact implements.loop .counted (noRegister rfl) _ _ _

theorem unless_easy {hard : Plan Code}
    (made : (if !following && !(node.measure referenced).hard then liftM (ofEasy [node])
      else hard : Plan Code).run first = .ok (code, last)) (noZero : 0 ∉ node.groups)
    (planned : hard.run first = .ok (code, last) → first ≤ last ∧ Implements first [code] [node]) :
    first ≤ last ∧ Implements first [code] [node] := by
  split at made
  · rename_i isEasy
    obtain ⟨isCode, rfl⟩ := Success.run_lift_eq_ok.mp made
    simp only [Bool.and_eq_true, Bool.not_eq_true'] at isEasy
    refine ⟨Nat.le_refl _, ofEasy_implements _ isCode ?_ ?_⟩
    · rwa [Node.groupsOf_singleton]
    · rw [Node.anyKeepsOut, Node.keepsOut_of_easy node isEasy.2]
      rfl
  · exact planned made

theorem unless_easy_pure {leaf : Code} (implements : Implements first [leaf] [node])
    (made : (if !following && !(node.measure referenced).hard then liftM (ofEasy [node])
      else pure leaf : Plan Code).run first = .ok (code, last)) (noZero : 0 ∉ node.groups) :
    first ≤ last ∧ Implements first [code] [node] := by
  refine unless_easy made noZero fun made => ?_
  cases made
  exact ⟨Nat.le_refl _, implements⟩

theorem distance_ahead {measure : Measure} {back : Nat}
    (isBack : distance direction measure = .ok back) : direction = .ahead → back = 0 := by
  rintro rfl
  cases isBack
  rfl

theorem newRegister_ok (made : newRegister.run first = .ok (register, last)) :
    register = first ∧ last = first + 1 := by
  cases made
  exact ⟨rfl, rfl⟩

/-- The program planned for a node runs only as the node matches. -/
def IsFaithful (referenced : List Nat) (node : Node) : Prop :=
  ∀ ⦃following : Bool⦄ ⦃first last : Nat⦄ ⦃code : Code⦄,
    (plan referenced following node).run first = .ok (code, last) → 0 ∉ node.groups →
      first ≤ last ∧ Implements first [code] [node]

theorem planEach_implements (each : ∀ node ∈ nodes, IsFaithful referenced node) {codes : List Code}
    (made : (planEach referenced following nodes).run first = .ok (codes, last))
    (noZero : 0 ∉ Node.groupsOf nodes) :
    first ≤ last ∧ Implements first codes nodes ∧
      ∀ code ∈ codes, ∃ node ∈ nodes, Implements first [code] [node] := by
  induction nodes generalizing first last codes with
  | nil =>
    cases made
    exact ⟨Nat.le_refl _, .nil, by simp⟩
  | cons node nodes ih =>
    obtain ⟨isFaithful, others⟩ := List.forall_mem_cons.mp each
    obtain ⟨code, middle, isCode, made⟩ := Success.run_bind_eq_ok.mp made
    obtain ⟨codes, final, isCodes, made⟩ := Success.run_bind_eq_ok.mp made
    cases made
    rw [Node.groupsOf, List.mem_append, not_or] at noZero
    obtain ⟨le, implements⟩ := isFaithful isCode noZero.1
    obtain ⟨le', rest, each⟩ := ih others isCodes noZero.2
    refine ⟨by omega, implements.append (rest.below le),
      List.forall_mem_cons.mpr ⟨⟨node, List.mem_cons_self, implements⟩, ?_⟩⟩
    intro other member
    obtain ⟨found, isFound, implements⟩ := each other member
    exact ⟨found, List.mem_cons_of_mem _ isFound, implements.below le⟩

theorem planRange_eq (referenced : List Nat) (skipped kept : Nat) (nodes : List Node) :
    planRange referenced skipped kept nodes =
      planEach referenced true ((nodes.take kept).drop skipped) := by
  induction nodes generalizing skipped kept with
  | nil => simp [planRange, planEach]
  | cons node nodes ih =>
    cases kept with
    | zero => simp [planRange, planEach]
    | succ kept => cases skipped <;> simp [planRange, planEach, ih]

theorem planLooksEach_planEach {looks : List (Nat × Code)}
    (made : (planLooksEach referenced direction nodes).run first = .ok (looks, last)) :
    (planEach referenced false nodes).run first = .ok (looks.map Prod.snd, last) := by
  induction nodes generalizing first last looks with
  | nil =>
    cases made
    rfl
  | cons node nodes ih =>
    obtain ⟨back, _, isBack, made⟩ := Success.run_bind_eq_ok.mp made
    obtain ⟨code, middle, isCode, made⟩ := Success.run_bind_eq_ok.mp made
    obtain ⟨others, final, isOthers, made⟩ := Success.run_bind_eq_ok.mp made
    cases made
    obtain ⟨-, rfl⟩ := Success.run_lift_eq_ok.mp isBack
    exact Success.run_bind_eq_ok.mpr ⟨code, middle, isCode,
      Success.run_bind_eq_ok.mpr ⟨_, _, ih isOthers, rfl⟩⟩

mutual

theorem plan_isFaithful : (node : Node) → IsFaithful referenced node
  | .empty => fun _ _ _ _ => unless_easy_pure .empty
  | .consume _ => fun _ _ _ _ => unless_easy_pure (.consume rfl)
  | .literal _ => fun _ _ _ _ => unless_easy_pure (.consume rfl)
  | .check assertion => fun _ _ _ _ => unless_easy_pure (.check assertion)
  | .concat nodes => by
      intro following first last code made noZero
      refine unless_easy made noZero fun made => ?_
      obtain ⟨inFront, behindFront, isFront, made⟩ := Success.run_bind_eq_ok.mp made
      obtain ⟨between, behindBetween, isBetween, made⟩ := Success.run_bind_eq_ok.mp made
      obtain ⟨atEnd, behindEnd, isEnd, made⟩ := Success.run_bind_eq_ok.mp made
      cases made
      obtain ⟨easyFront, rfl⟩ := Success.run_lift_eq_ok.mp isFront
      obtain ⟨easyEnd, rfl⟩ := Success.run_lift_eq_ok.mp isEnd
      have isPart (skipped kept : Nat) : (nodes.take kept).drop skipped ⊆ nodes :=
        List.Subset.trans (List.drop_subset _ _) (List.take_subset _ _)
      rw [planRange_eq] at isBetween
      obtain ⟨le, implements, -⟩ := planEach_implements
        (fun node member => plans_areFaithful nodes node (isPart _ _ member)) isBetween
        (Node.not_mem_groupsOf (isPart _ _) noZero)
      obtain ⟨order, eachFront, eachEnd⟩ :=
        division_parts following (Node.measures referenced nodes)
      refine ⟨le, .sequence ?_⟩
      rw [Node.eq_take_append_drop order nodes, List.append_assoc]
      rw [Node.take_measures] at eachFront
      rw [Node.drop_measures] at eachEnd
      have noneHard {part : List Node}
          (each : ∀ measure ∈ Node.measures referenced part, measure.hard = false) :
          (Node.measures referenced part).any Measure.hard = false :=
        List.any_eq_false.mpr fun measure member => by simp [each measure member]
      have front := ofEasy_implements behindFront easyFront
        (Node.not_mem_groupsOf (List.take_subset _ _) noZero)
        (Node.keepsOut_of_easy (.concat _) (noneHard fun part member => (eachFront part member).1))
      have behind := ofEasy_implements behindFront easyEnd
        (Node.not_mem_groupsOf (List.drop_subset _ _) noZero)
        (Node.keepsOut_of_easy (.concat _) (noneHard fun part member => (eachEnd part member).1))
      exact front.append (implements.append behind)
  | .alternation nodes => by
      intro following first last code made noZero
      refine unless_easy made noZero fun made => ?_
      obtain ⟨codes, middle, isCodes, made⟩ := Success.run_bind_eq_ok.mp made
      cases made
      obtain ⟨le, -, each⟩ := planEach_implements (plans_areFaithful nodes) isCodes noZero
      exact ⟨le, .choice each⟩
  | .group number node => by
      intro following first last code made noZero
      refine unless_easy made noZero fun made => ?_
      obtain ⟨inner, middle, isInner, made⟩ := Success.run_bind_eq_ok.mp made
      cases made
      rw [Node.groups, List.mem_cons, not_or] at noZero
      obtain ⟨le, implements⟩ := plan_isFaithful node isInner noZero.2
      exact ⟨le, implements.group number⟩
  | .look direction negated node => by
      intro following first last code made noZero
      refine unless_easy made noZero fun made => ?_
      split at made
      · rename_i isBehind
        simp only [Bool.and_eq_true, decide_eq_true_eq] at isBehind
        obtain ⟨rfl, -⟩ := isBehind
        obtain ⟨looks, middle, isLooks, made⟩ := Success.run_bind_eq_ok.mp made
        cases made
        obtain ⟨nodes, rfl, le, each⟩ := planLooks_implements node isLooks noZero
        exact ⟨le, .lookAny each negated⟩
      · obtain ⟨back, behindBack, isBack, made⟩ := Success.run_bind_eq_ok.mp made
        obtain ⟨inner, middle, isInner, made⟩ := Success.run_bind_eq_ok.mp made
        cases made
        obtain ⟨isDistance, rfl⟩ := Success.run_lift_eq_ok.mp isBack
        obtain ⟨le, implements⟩ := plan_isFaithful node isInner noZero
        refine ⟨le, ?_⟩
        cases negated with
        | true => exact .denial direction back
        | false => exact implements.look back (distance_ahead isDistance)
  | .repetition node least most greedy => by
      intro following first last code made noZero
      refine unless_easy made noZero fun made => ?_
      obtain ⟨register, middle, isRegister, made⟩ := Success.run_bind_eq_ok.mp made
      obtain ⟨inner, final, isInner, made⟩ := Success.run_bind_eq_ok.mp made
      cases made
      obtain ⟨rfl, rfl⟩ := newRegister_ok isRegister
      obtain ⟨le, implements⟩ := plan_isFaithful node isInner noZero
      refine ⟨by omega, ?_⟩
      exact repetition_implements (Nat.le_refl _) (implements.below (by omega))
  | .reference number => fun _ _ _ _ => unless_easy_pure (.reference number)
  | .atomic node => by
      intro following first last code made noZero
      refine unless_easy made noZero fun made => ?_
      obtain ⟨inner, middle, isInner, made⟩ := Success.run_bind_eq_ok.mp made
      cases made
      obtain ⟨le, implements⟩ := plan_isFaithful node isInner noZero
      exact ⟨le, implements.atomic⟩
  | .keepOut => fun _ _ _ _ => unless_easy_pure .keepOut
  | .searchStart => fun _ _ _ _ => unless_easy_pure .searchStart
  | .groupMatched number => fun _ _ _ _ => unless_easy_pure (.groupMatched number)
  | .conditional condition whenTrue whenFalse => by
      intro following first last code made noZero
      refine unless_easy made noZero fun made => ?_
      obtain ⟨test, behindTest, isTest, made⟩ := Success.run_bind_eq_ok.mp made
      obtain ⟨yes, behindYes, isYes, made⟩ := Success.run_bind_eq_ok.mp made
      obtain ⟨no, behindNo, isNo, made⟩ := Success.run_bind_eq_ok.mp made
      cases made
      simp only [Node.groups, List.mem_append, not_or] at noZero
      obtain ⟨leTest, tests⟩ := plan_isFaithful condition isTest noZero.1.1
      obtain ⟨leYes, onTrue⟩ := plan_isFaithful whenTrue isYes noZero.1.2
      obtain ⟨leNo, onFalse⟩ := plan_isFaithful whenFalse isNo noZero.2
      refine ⟨by omega, ?_⟩
      exact .conditional tests (onTrue.below (by omega)) (onFalse.below (by omega))

theorem plans_areFaithful : (nodes : List Node) → ∀ node ∈ nodes, IsFaithful referenced node
  | [] => by simp
  | node :: nodes => List.forall_mem_cons.mpr ⟨plan_isFaithful node, plans_areFaithful nodes⟩

theorem planLooks_implements :
    (node : Node) → {first last : Nat} → {looks : List (Nat × Code)} →
      (planLooks referenced .behind node).run first = .ok (looks, last) → 0 ∉ node.groups →
      ∃ nodes, node = .alternation nodes ∧ first ≤ last ∧
        ∀ look ∈ looks, ∃ node ∈ nodes, Implements first [look.2] [node]
  | .alternation nodes, _, _, _, made, noZero => by
      obtain ⟨le, -, each⟩ := planEach_implements (plans_areFaithful nodes)
        (planLooksEach_planEach made) noZero
      exact ⟨nodes, rfl, le, fun look member => each look.2 (List.mem_map_of_mem member)⟩
  | .empty, _, _, _, made, _ | .consume _, _, _, _, made, _ | .literal _, _, _, _, made, _
  | .check _, _, _, _, made, _ | .concat _, _, _, _, made, _ | .group _ _, _, _, _, made, _
  | .look _ _ _, _, _, _, made, _ | .repetition _ _ _ _, _, _, _, made, _
  | .reference _, _, _, _, made, _ | .atomic _, _, _, _, made, _ | .keepOut, _, _, _, made, _
  | .searchStart, _, _, _, made, _ | .groupMatched _, _, _, _, made, _
  | .conditional _ _ _, _, _, _, made, _ => by cases made

end

end Code
end Highlighter.Regex

import Highlighter.Proofs.Regex.Parts

/-!
# The first part that finds something

What an expression finds at a place is what the first of its parts finds there that finds
anything.  The groups in front of the part take no part, and its own groups are moved on.
-/
namespace Highlighter.Regex

open Reading (Outline ofBranches shiftNumber)

variable {place : Place} {before origin register : Nat} {expression : Expression}

/-! ## Moved groups -/

namespace Slots

variable {rename : Nat → Nat}

theorem span?_congr {first second : Slots} (same : first.get? = second.get?) :
    first.span? = second.span? := by
  funext number
  rw [span?, span?, same]

theorem get?_map_of_ne (slots : Slots) {slot : Nat} (different : ∀ other, rename other ≠ slot) :
    Slots.get? (slots.map fun entry => (rename entry.1, entry.2)) slot = none := by
  have absent : (slots.map fun entry => (rename entry.1, entry.2)).find?
      (fun entry => entry.1 == slot) = none := by
    rw [List.find?_eq_none]
    intro entry member
    obtain ⟨other, -, rfl⟩ := List.mem_map.mp member
    simpa using different other.1
  rw [get?, absent]
  rfl

/-- The stretches of groups behind a number of other groups, which took no part. -/
structure Moved (before groups : Nat) (source target : Slots) : Prop where
  whole : target.span? 0 = source.span? 0
  inside : ∀ number, 0 < number → number ≤ groups →
    target.span? (before + number) = source.span? number
  outside : ∀ number, 0 < number → number ≤ before → target.span? number = none

namespace Moved

variable {before groups : Nat} {source other target : Slots}

theorem refl (groups : Nat) (slots : Slots) : Moved 0 groups slots slots where
  whole := rfl
  inside := fun number _ _ => by rw [Nat.zero_add]
  outside := fun number positive none => absurd none (Nat.not_le_of_gt positive)

theorem congr (moved : Moved before groups source target) (same : source.get? = other.get?) :
    Moved before groups other target where
  whole := moved.whole.trans (congrFun (span?_congr same) 0)
  inside := fun number positive within =>
    (moved.inside number positive within).trans (congrFun (span?_congr same) number)
  outside := moved.outside

theorem of_map (injective : ∀ first second, rename first = rename second → first = second)
    (names : ∀ number, number ≤ groups → rename (2 * number) = 2 * shiftNumber before number ∧
      rename (2 * number + 1) = 2 * shiftNumber before number + 1)
    (skips : ∀ slot number, 0 < number → number ≤ before → rename slot ≠ 2 * number)
    (slots : Slots) :
    Moved before groups slots (slots.map fun entry => (rename entry.1, entry.2)) := by
  have isSpan {number : Nat} (within : number ≤ groups) :
      Slots.span? (slots.map fun entry => (rename entry.1, entry.2))
        (shiftNumber before number) = slots.span? number := by
    obtain ⟨starts, stops⟩ := names number within
    rw [span?, span?, ← stops, ← starts, get?_map injective, get?_map injective]
  refine ⟨isSpan (Nat.zero_le _), fun number positive within => ?_, fun number positive less => ?_⟩
  · have isMoved : shiftNumber before number = before + number := by
      rw [shiftNumber, if_neg (by omega), Nat.add_comm]
    rw [← isMoved, isSpan within]
  · rw [span?, get?_map_of_ne slots fun slot => skips slot number positive less]
    rfl

end Moved

theorem shiftNumber_ne {number : Nat} (positive : 0 < number) (less : number ≤ before)
    (other : Nat) : shiftNumber before other ≠ number := by
  unfold shiftNumber
  split <;> omega

theorem moved_rename (before groups : Nat) (slots : Slots) :
    Moved before groups slots (slots.rename (shiftNumber before)) := by
  refine .of_map (fun _ _ same => renameSlot_injective ?_ same)
    (fun number _ => ⟨renameSlot_start _ number, renameSlot_stop _ number⟩) ?_ slots
  · intro first second same
    unfold shiftNumber at same
    split at same <;> split at same <;> omega
  · intro slot number positive less same
    have other := shiftNumber_ne positive less (slot / 2)
    unfold renameSlot at same
    omega

theorem moved_entries (part : Part)
    (enough : 2 * (part.before + part.expression.groups) + 2 ≤ register) (slots : Slots) :
    Moved part.before part.expression.groups slots
      ((part.placement register enough).entries slots) := by
  have names {number : Nat} (within : number ≤ part.expression.groups) :
      (part.placement register enough).Names number := by
    simp only [Renumbering.Names, Part.placement]
    omega
  refine .of_map (fun _ _ => Renumbering.slot_injective _) ?_ ?_ slots
  · exact fun number within => ⟨Renumbering.slot_start _ (names within),
      Renumbering.slot_stop _ (names within)⟩
  · intro slot number positive less same
    have other := shiftNumber_ne positive less (slot / 2)
    unfold Renumbering.slot at same
    split at same
    · simp only [Part.placement, renameSlot] at same
      omega
    · rename_i isRegister
      simp only [Part.placement] at isRegister same
      omega

end Slots

/-! ## Parts -/

namespace Expression

variable {expressions : List Expression} {result : Option Slots} {last : Nat} {parts : List Part}
  {alternatives : Machine.Alternatives}

/-- What the first of several parts finds that finds anything, with its groups behind others. -/
inductive Picks (finds : Expression → Option Slots → Prop) : List Part → Option Slots → Prop where
  | nil : Picks finds [] none
  | found {part : Part} {parts : List Part} {source target : Slots}
      (isFound : finds part.expression (some source))
      (moved : Slots.Moved part.before part.expression.groups source target) :
      Picks finds (part :: parts) (some target)
  | passed {part : Part} {parts : List Part} {result : Option Slots}
      (isNone : finds part.expression none) (others : Picks finds parts result) :
      Picks finds (part :: parts) result

namespace Picks

variable {finds other : Expression → Option Slots → Prop} {target : Slots}

theorem finds_none (picks : Picks finds parts result) (isNone : result = none) :
    ∀ expression ∈ parts.map Part.expression, finds expression none := by
  induction picks with
  | nil => simp
  | found => cases isNone
  | passed finds _ ih =>
    exact List.forall_mem_cons.mpr ⟨finds, ih isNone⟩

theorem exists_finds (picks : Picks finds parts (some target)) :
    ∃ expression ∈ parts.map Part.expression, ∃ source, finds expression (some source) := by
  generalize isResult : some target = result at picks
  induction picks with
  | nil => cases isResult
  | found isFound _ => exact ⟨_, List.mem_cons_self, _, isFound⟩
  | passed _ _ ih =>
    obtain ⟨expression, member, isFound⟩ := ih isResult
    exact ⟨expression, .tail _ member, isFound⟩

theorem imp (picks : Picks finds parts result)
    (alike : ∀ expression ∈ parts.map Part.expression, ∀ result, finds expression result →
      ∃ found, other expression found ∧ result.map Slots.get? = found.map Slots.get?) :
    Picks other parts result := by
  induction picks with
  | nil => exact .nil
  | found isFound moved =>
    obtain ⟨found, isOther, same⟩ := alike _ List.mem_cons_self _ isFound
    obtain ⟨source, rfl, sameSlots⟩ := Option.map_eq_some_iff.mp same.symm
    exact .found isOther (moved.congr sameSlots.symm)
  | passed isNone _ ih =>
    obtain ⟨found, isOther, same⟩ := alike _ List.mem_cons_self _ isNone
    obtain rfl := Option.map_eq_none_iff.mp same.symm
    exact .passed isOther (ih fun expression member => alike expression (.tail _ member))

theorem exists_found
    (picks : Picks finds (Outline.parts before (expressions.map .captured)) (some target)) :
    ∃ front expression behind source, expressions = front ++ expression :: behind ∧
      (∀ other ∈ front, finds other.single none) ∧ finds expression.single (some source) ∧
      Slots.Moved (before + Outline.width (front.map .captured)) expression.single.groups source
        target := by
  induction expressions generalizing before with
  | nil => cases picks
  | cons first expressions ih =>
    cases picks with
    | found isFound moved => exact ⟨[], _, _, _, rfl, by simp, isFound, moved⟩
    | passed isNone others =>
      obtain ⟨front, expression, behind, source, rfl, fails, isFound, moved⟩ := ih others
      refine ⟨first :: front, expression, behind, source, rfl,
        List.forall_mem_cons.mpr ⟨isNone, fails⟩, isFound, ?_⟩
      rw [Nat.add_assoc] at moved
      exact moved

end Picks

/-! ## Automata -/

theorem picks_of_automata (parts : List Part) :
    Picks (fun part => part.FindsBy origin place false) parts
      (parts.findSome? fun part => ((Automaton.forNodes [part.expression.node]).matchAt? place).map
        (Slots.rename (shiftNumber part.before))) := by
  induction parts with
  | nil => exact .nil
  | cons part parts ih =>
    have finds := @FindsBy.automaton part.expression origin place
    rw [List.findSome?_cons]
    cases isMatch : (Automaton.forNodes [part.expression.node]).matchAt? place with
    | none =>
      rw [isMatch] at finds
      exact .passed finds ih
    | some source =>
      rw [isMatch] at finds
      exact .found finds (Slots.moved_rename _ _ source)

theorem matchAt?_ofBranches (nonempty : parts ≠ []) (place : Place) :
    (Automaton.forNodes [ofBranches (parts.map Part.node)]).matchAt? place =
      parts.findSome? fun part => ((Automaton.forNodes [part.expression.node]).matchAt? place).map
        (Slots.rename (shiftNumber part.before)) := by
  obtain ⟨part, parts, rfl⟩ := List.exists_cons_of_ne_nil nonempty
  have tail := Automaton.forNodes_tail [ofBranches ((part :: parts).map Part.node)]
  have isChoice : Node.sequenceFragment [ofBranches ((part :: parts).map Part.node)] =
      Node.choiceFragment
        (((part :: parts).map fun part => (part.expression.node, shiftNumber part.before)).map
          fun other => other.1.rename other.2) := by
    rw [Automaton.sequenceFragment_singleton, List.map_map]
    cases parts <;> rfl
  rw [isChoice, List.map_cons] at tail
  rw [Automaton.matchAt?_forNodes]
  refine (@Automaton.follow_choice place _ _ _ ?_ 0 tail).trans ?_
  · exact List.forall_mem_cons.mpr ⟨rfl, List.forall_mem_map.mpr fun _ _ => rfl⟩
  · rw [List.findSome?_cons, List.findSome?_cons, List.findSome?_map]
    rfl

/-! ## Programs -/

theorem picks_of_chooses (plans : List.Forall₂ Part.IsPlan parts alternatives)
    (chooses : Machine.Chooses origin true place alternatives result) :
    Picks (fun part => part.FindsBy origin place true) parts result := by
  induction plans generalizing result with
  | nil =>
    cases chooses
    exact .nil
  | @cons part alternative _ _ isPlan _ ih =>
    obtain ⟨scheme, code⟩ := alternative
    obtain ⟨register, enough, last, rfl, planned⟩ := isPlan
    cases chooses with
    | found attempts =>
      exact .found (.machine planned attempts) (Slots.moved_entries part enough _)
    | passed attempts chooses => exact .passed (.machine planned attempts) (ih chooses)

theorem chooses_of_attempts {codes : List Code} (nonempty : codes ≠ [])
    (alike : List.Forall₂ (fun alternative code => alternative.2.Alike alternative.1 code)
      alternatives codes)
    (attempts : Machine.Attempts origin true (Code.anyOf codes) place result) :
    Machine.Chooses origin true place alternatives result := by
  obtain ⟨code, codes, rfl⟩ := List.exists_cons_of_ne_nil nonempty
  cases codes with
  | nil =>
    obtain ⟨alternative, others, same, isNil, rfl⟩ := List.forall₂_cons_right_iff.mp alike
    cases isNil
    rcases Machine.attempts_of_gives same attempts with ⟨slots, finds, rfl⟩ | ⟨fails, isNone⟩
    · exact .found finds
    · obtain rfl : result = none := isNone
      exact .passed fails .nil
  | cons second codes =>
    rcases Machine.chooses_of_gives alike nonempty attempts with
      ⟨slots, chooses, rfl⟩ | ⟨chooses, isNone⟩
    · exact chooses
    · obtain rfl : result = none := isNone
      exact chooses

/-- What an expression finds at a place is what the first of its alternatives finds there that
finds anything. -/
theorem MadeOf.picks {whole : Expression} (madeOf : whole.MadeOf parts) {machine : Bool}
    (finds : whole.FindsBy origin place machine result) :
    Picks (fun part => part.FindsBy origin place machine) parts result := by
  cases finds with
  | automaton =>
    rw [madeOf.node, matchAt?_ofBranches madeOf.nonempty]
    exact picks_of_automata parts
  | machine planned attempts =>
    rw [madeOf.node, Code.plan_ofBranches _ (by simpa using madeOf.nonempty)] at planned
    obtain ⟨codes, last, isCodes, isCode⟩ := Success.run_bind_eq_ok.mp planned
    cases isCode
    rcases planEach_parts madeOf.areIn (Nat.le_refl _) with
      ⟨made, alternatives, isMade, plans, alike⟩ | ⟨⟨cause, fails⟩, -⟩
    · cases isMade.symm.trans isCodes
      refine picks_of_chooses plans (chooses_of_attempts ?_ alike attempts)
      rintro rfl
      cases alike
      cases plans
      exact madeOf.nonempty rfl
    · cases fails.symm.trans isCodes

theorem FindsBy.automaton_of_machine
    (plain : Node.Plain (2 * expression.groups + 2) expression.referenced [expression.node])
    (finds : expression.FindsBy origin place true result) :
    ∃ found, expression.FindsBy origin place false found ∧
      result.map Slots.get? = found.map Slots.get? := by
  cases finds with
  | machine planned attempts =>
    exact ⟨_, .automaton, Machine.attempts_eq_matchAt? (by omega) planned plain attempts⟩

/-! ## Joined expressions -/

/-- An expression that can be searched for as the only group. -/
structure IsUsable (expression : Expression) : Prop where
  sound : expression.IsSound
  different : expression.single.node.groups.Nodup
  bounds : expression.single.isHard = false → expression.single.node.hasValidBounds = true

/-- What the first of several expressions finds at a place that finds anything there. -/
abbrev Decides (origin : Nat) (place : Place) (expressions : List Expression) :
    Option Slots → Prop :=
  Picks (fun part => part.Finds origin place) (Outline.parts 0 (expressions.map .captured))

theorem join_decides {first : Expression} {others : List Expression}
    (usable : ∀ expression ∈ first :: others, expression.IsUsable)
    (steady : (join first others).isHard = true → ∀ expression ∈ first :: others,
      expression.single.isHard = false → expression.single.node.isSteady = true)
    (finds : (join first others).Finds origin place result) :
    Decides origin place (first :: others) result := by
  have sound : ∀ expression ∈ first :: others, expression.IsSound :=
    fun expression member => (usable expression member).sound
  refine ((join_madeOf sound).picks finds).imp ?_
  rw [Outline.map_expression_parts, flatMap_alternatives, List.forall_mem_map]
  intro expression member result finds
  cases isHard : expression.single.isHard with
  | true =>
    have needed : (join first others).isHard = true := by
      rw [isHard_join sound, List.any_eq_true]
      exact ⟨expression, member, isHard⟩
    rw [needed] at finds
    rw [Finds, isHard]
    exact ⟨result, finds, rfl⟩
  | false =>
    rw [Finds, isHard]
    cases needed : (join first others).isHard with
    | false =>
      rw [needed] at finds
      exact ⟨result, finds, rfl⟩
    | true =>
      rw [needed] at finds
      have isUsable := usable expression member
      refine finds.automaton_of_machine ⟨?_, ?_, ?_, ?_, ?_⟩
      · exact List.forall_mem_singleton.mpr isHard
      · exact List.forall_mem_singleton.mpr (steady needed expression member isHard)
      · exact List.forall_mem_singleton.mpr (isUsable.bounds isHard)
      · rw [Node.groupsOf_singleton]
        exact isUsable.different
      · rw [Node.groupsOf_singleton]
        intro number isGroup
        have bounds := isUsable.sound.single.groups number isGroup
        omega

end Expression

/-! ## What a part notes -/

theorem Matches.unforgotten {nodes : List Node} {start stop : Place} {effect : Effect}
    (matched : Matches nodes start stop effect) (noZero : 0 ∉ Node.groupsOf nodes) :
    effect 0 ≠ some none := by
  have inside {node : Node} (noZero : 0 ∉ Node.groupsOf [node]) :
      0 ∉ Node.groupsOf node.inside := by
    rw [Node.groupsOf_singleton, Node.groups_eq, List.mem_append, not_or] at noZero
    exact noZero.2
  have joined {first second : Effect} (before : first 0 ≠ some none)
      (behind : second 0 ≠ some none) : first.andThen second 0 ≠ some none := by
    rw [Effect.andThen_apply, ne_eq, Option.or_eq_some_iff]
    rintro (isSecond | ⟨-, isFirst⟩)
    · exact behind isSecond
    · exact before isFirst
  have written (slot : Nat) (place : Place) : Effect.write slot place 0 ≠ some none := by
    unfold Effect.write
    split <;> simp
  refine matched.noting (fun part => 0 ∉ Node.groupsOf part)
    (fun _ _ effect => effect 0 ≠ some none) (fun noZero => ?_) (fun noZero _ _ => inside noZero)
    (by simp) (fun _ => joined) (fun noZero => by simp [Effect.forget, noZero])
    (fun noZero _ inner => joined (written _ _) (joined (inner (inside noZero)) (written _ _)))
    (fun _ _ noZero _ inner => inner (inside noZero)) (fun _ => written _ _) noZero
  rwa [Node.groupsOf_append, List.mem_append, not_or] at noZero

namespace Expression

/-- What is found of an expression as the only group begins where it is found. -/
theorem Finds.spans (usable : expression.IsUsable) {slots : Slots}
    (finds : expression.single.Finds origin place (some slots)) :
    (∃ whole, slots.span? 0 = some whole) ∧
      ∃ stop, slots.span? 1 = some { start := place, stop } := by
  have numbered := usable.sound.single.groups
  have noZero : 0 ∉ expression.single.node.groups := fun member =>
    absurd (numbered 0 member).1 (Nat.lt_irrefl 0)
  obtain ⟨stop, effect, matched, same⟩ := FindsBy.exists_matches finds noZero
  have whole := matched.unforgotten (by rwa [Node.groupsOf_singleton])
  have inRange : 4 ≤ 2 * expression.single.groups + 2 := by
    rw [single_groups]
    omega
  have different := usable.different
  rw [single_node, Node.groups, List.nodup_cons] at different
  rw [single_node] at matched
  obtain ⟨isStart, isStop, -⟩ := matched.ofGroup different.1 (by decide)
  refine ⟨?_, stop, ?_⟩
  · cases isWhole : effect 0 with
    | none =>
      refine ⟨{ start := place, stop }, span?_eq_some.mpr ⟨?_, ?_⟩⟩
      · rw [same _ (by omega)]
        simp [Effect.whole, Effect.write, isWhole]
      · rw [same _ (by omega)]
        simp [Effect.whole, Effect.write]
    | some noted =>
      obtain ⟨start, rfl⟩ := Option.ne_none_iff_exists'.mp fun isNone =>
        whole (isWhole.trans (congrArg some isNone))
      refine ⟨{ start, stop }, span?_eq_some.mpr ⟨?_, ?_⟩⟩
      · rw [same _ (by omega)]
        simp [Effect.whole, Effect.write, isWhole]
      · rw [same _ (by omega)]
        simp [Effect.whole, Effect.write]
  · rw [span?_eq_some, same _ (by omega), same _ (by omega)]
    simp [Effect.whole, Effect.write, isStart, isStop]

end Expression
end Highlighter.Regex

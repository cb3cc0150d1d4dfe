import Highlighter.Proofs.Regex.FirstPlace
import Highlighter.Proofs.Regex.Joining
import Highlighter.Proofs.Regex.PlainPlans

/-!
# Parts of an expression

The alternatives of joined sources are those of the sources one after another.  Each of them is
what it is alone, apart from the numbers of its groups: it is as hard, it is planned alike, and it
takes as much of an automaton.
-/
namespace Highlighter.Regex

open Reading (Outline ofBranches shiftNumber)

theorem Node.references_rename (map : Nat → Nat) (node : Node) :
    (rename map node).references = node.references.map map := by
  induction node using inside_induction with
  | step node ih =>
    cases node with
    | concat nodes | alternation nodes =>
      induction nodes <;> simp_all [rename, renameEach, inside, references, referencesOf]
    | _ => simp_all [rename, inside, references]

/-- An expression whose groups come behind a number of other groups. -/
structure Part where
  before : Nat
  expression : Expression

namespace Part

variable {part : Part} {whole : Expression} {register : Nat}

def node (part : Part) : Node :=
  part.expression.node.rename (shiftNumber part.before)

/-- The groups of a part are among those of a larger expression, and are referred to there if they
are referred to in the part. -/
structure IsIn (whole : Expression) (part : Part) : Prop where
  sound : part.expression.IsSound
  within : part.before + part.expression.groups ≤ whole.groups
  located : ∀ number, 0 < number → number ≤ part.expression.groups →
    (number + part.before ∈ whole.referenced ↔ number ∈ part.expression.referenced)

/-- A part, planned from a register on, against the expression alone. -/
def placement (part : Part) (register : Nat)
    (enough : 2 * (part.before + part.expression.groups) + 2 ≤ register) : Renumbering where
  map := shiftNumber part.before
  bound := 2 * part.expression.groups + 2
  shift := register - (2 * part.expression.groups + 2)
  injective := by
    intro first second same
    unfold shiftNumber at same
    split at same <;> split at same <;> omega
  fixed := rfl
  positive := by omega
  below := by
    intro slot isBelow
    have isMoved : shiftNumber part.before (slot / 2) ≤ part.before + part.expression.groups := by
      unfold shiftNumber
      split <;> omega
    have isHalf : slot % 2 < 2 := Nat.mod_lt _ (by decide)
    unfold renameSlot
    omega

theorem IsIn.fits (isIn : part.IsIn whole)
    (enough : 2 * (part.before + part.expression.groups) + 2 ≤ register) :
    part.expression.node.Fits (part.placement register enough) part.expression.referenced
      whole.referenced where
  groups := by
    intro number member
    obtain ⟨positive, within⟩ := isIn.sound.groups number member
    have isMoved : shiftNumber part.before number = number + part.before := if_neg (by omega)
    refine ⟨?_, ?_⟩
    · simp only [Renumbering.Names, placement]
      omega
    · rw [Bool.eq_iff_iff, List.contains_iff_mem, List.contains_iff_mem]
      simp only [placement, isMoved]
      exact isIn.located number positive within
  references := by
    intro number member
    have within := isIn.sound.references number member
    simp only [Renumbering.Names, placement]
    omega

end Part

namespace Expression

variable {whole : Expression} {parts : List Part} {register : Nat}

/-- An expression has the alternatives that some parts are. -/
structure MadeOf (whole : Expression) (parts : List Part) : Prop where
  nonempty : parts ≠ []
  node : whole.node = ofBranches (parts.map Part.node)
  areIn : ∀ part ∈ parts, part.IsIn whole

theorem ofBranches_pair (first second : Node) (others : List Node) :
    ofBranches (first :: second :: others) = .alternation (first :: second :: others) :=
  rfl

theorem MadeOf.isHard (madeOf : whole.MadeOf parts) :
    whole.isHard = (parts.map Part.expression).any Expression.isHard := by
  have measured : ∀ part ∈ parts, part.node.measure whole.referenced =
      part.expression.node.measure part.expression.referenced := fun part member =>
    ((madeOf.areIn part member).fits (Nat.le_refl _)).measure
  rw [Expression.isHard, madeOf.node]
  obtain ⟨part, parts, rfl⟩ := List.exists_cons_of_ne_nil madeOf.nonempty
  cases parts with
  | nil => simp [ofBranches, Reading.alternation, measured part, Expression.isHard]
  | cons second parts =>
    have measures : Node.measures whole.referenced ((part :: second :: parts).map Part.node) =
        (part :: second :: parts).map fun part =>
          part.expression.node.measure part.expression.referenced := by
      rw [Node.measures_eq_map, List.map_map]
      exact List.map_congr_left measured
    rw [List.map_cons, List.map_cons] at measures ⊢
    rw [ofBranches_pair, Node.measure, measures]
    simp [Measure.choice, Expression.isHard, List.any_map, Function.comp_def]

theorem MadeOf.hasValidBounds (madeOf : whole.MadeOf parts)
    (bounds : ∀ part ∈ parts.map Part.expression, part.node.hasValidBounds = true) :
    whole.node.hasValidBounds = true := by
  have areValid : ∀ node ∈ parts.map Part.node, node.hasValidBounds = true :=
    List.forall_mem_map.mpr fun part member =>
      (Node.hasValidBounds_rename _ _).trans (List.forall_mem_map.mp bounds part member)
  obtain ⟨part, parts, rfl⟩ := List.exists_cons_of_ne_nil madeOf.nonempty
  rw [madeOf.node]
  cases parts with
  | nil => exact areValid _ (by simp [ofBranches, Reading.alternation])
  | cons second parts => exact Node.haveValidBounds_iff.mpr areValid

/-! ## Plans -/

def IsPlanned (expression : Expression) : Prop :=
  ∃ made, (Code.plan expression.referenced true expression.node).run (2 * expression.groups + 2) =
    .ok made

theorem isPlanned_iff (expression : Expression) :
    expression.IsPlanned ↔ ∃ code, Code.ofExpression expression = .ok code := by
  constructor
  · rintro ⟨made, isMade⟩
    exact ⟨_, Success.bind_eq_ok.mpr ⟨made, isMade, rfl⟩⟩
  · rintro ⟨code, isCode⟩
    obtain ⟨made, isMade, -⟩ := Success.bind_eq_ok.mp isCode
    exact ⟨made, isMade⟩

end Expression

/-- The program for several alternatives. -/
def Code.anyOf : List Code → Code
  | [code] => code
  | codes => .choice codes

theorem Code.plan_ofBranches (referenced : List Nat) {nodes : List Node} (nonempty : nodes ≠ []) :
    Code.plan referenced true (ofBranches nodes) =
      Code.planEach referenced true nodes >>= fun codes => pure (Code.anyOf codes) := by
  obtain ⟨node, nodes, rfl⟩ := List.exists_cons_of_ne_nil nonempty
  cases nodes with
  | nil => simp [ofBranches, Reading.alternation, Code.planEach, Code.anyOf]
  | cons second nodes =>
    simp [Expression.ofBranches_pair, Code.plan, Code.planEach, Code.anyOf]

/-- What a part by itself is planned as, and the numbers that it has from a register on. -/
def Part.IsPlan (part : Part) (alternative : Renumbering × Code) : Prop :=
  ∃ register enough last, alternative.1 = part.placement register enough ∧
    (Code.plan part.expression.referenced true part.expression.node).run
      (2 * part.expression.groups + 2) = .ok (alternative.2, last)

namespace Expression

variable {whole : Expression} {parts : List Part} {register : Nat}

theorem planEach_parts (areIn : ∀ part ∈ parts, part.IsIn whole)
    (enough : 2 * whole.groups + 2 ≤ register) :
    (∃ made alternatives,
      (Code.planEach whole.referenced true (parts.map Part.node)).run register = .ok made ∧
        List.Forall₂ Part.IsPlan parts alternatives ∧
        List.Forall₂ (fun alternative code => alternative.2.Alike alternative.1 code) alternatives
          made.1) ∨
    (∃ cause, (Code.planEach whole.referenced true (parts.map Part.node)).run register =
        .error cause) ∧
      ∃ part ∈ parts, ¬part.expression.IsPlanned := by
  induction parts generalizing register with
  | nil => exact .inl ⟨_, [], rfl, .nil, .nil⟩
  | cons part parts ih =>
    obtain ⟨isIn, areIn⟩ := List.forall_mem_cons.mp areIn
    have inside : 2 * (part.before + part.expression.groups) + 2 ≤ register := by
      have within := isIn.within
      omega
    have isRegister : (part.placement register inside).bound +
        (part.placement register inside).shift = register := by
      simp only [Part.placement]
      omega
    -- The program of a part is the one that it has by itself, with other groups and registers.
    have alike := Code.plan_alike part.expression.node true (isIn.fits inside) _ (Nat.le_refl _)
    rw [isRegister] at alike
    rw [List.map_cons, Code.planEach]
    rcases alike with ⟨made, other, isMade, isOther, above, isLast, same⟩ |
      ⟨cause, fails, otherFails⟩
    · have isOther : (Code.plan whole.referenced true part.node).run register = .ok other := isOther
      rcases @ih other.2 areIn (by omega) with
        ⟨others, alternatives, isOthers, plans, areAlike⟩ | ⟨⟨cause, fails⟩, unplanned⟩
      · refine .inl ⟨(other.1 :: others.1, others.2),
          (part.placement register inside, made.1) :: alternatives, ?_,
          .cons ⟨register, inside, made.2, rfl, isMade⟩ plans, .cons same areAlike⟩
        rw [StateT.run_bind, isOther, Success.ok_bind, StateT.run_bind, isOthers]
        rfl
      · refine .inr ⟨⟨cause, ?_⟩, ?_⟩
        · rw [StateT.run_bind, isOther, Success.ok_bind, StateT.run_bind, fails]
          rfl
        · obtain ⟨other, member, isNot⟩ := unplanned
          exact ⟨other, .tail _ member, isNot⟩
    · have otherFails : (Code.plan whole.referenced true part.node).run register = .error cause :=
        otherFails
      refine .inr ⟨⟨cause, ?_⟩, part, .head _, ?_⟩
      · rw [StateT.run_bind, otherFails]
        rfl
      · rintro ⟨made, isMade⟩
        cases fails.symm.trans isMade

theorem MadeOf.isPlanned_iff (madeOf : whole.MadeOf parts) :
    whole.IsPlanned ↔ ∀ part ∈ parts.map Part.expression, part.IsPlanned := by
  rw [IsPlanned, madeOf.node, Code.plan_ofBranches _ (by simpa using madeOf.nonempty),
    List.forall_mem_map]
  rcases planEach_parts madeOf.areIn (Nat.le_refl _) with
    ⟨made, alternatives, isMade, plans, -⟩ | ⟨⟨cause, fails⟩, part, member, unplanned⟩
  · refine iff_of_true ⟨_, Success.run_bind_eq_ok.mpr ⟨_, _, isMade, rfl⟩⟩ ?_
    clear madeOf isMade
    induction plans with
    | nil => simp
    | cons isPlan _ ih =>
      obtain ⟨-, -, last, -, isPlanned⟩ := isPlan
      exact List.forall_mem_cons.mpr ⟨⟨_, isPlanned⟩, ih⟩
  · refine iff_of_false ?_ fun planned => unplanned (planned part member)
    rintro ⟨made, isMade⟩
    obtain ⟨codes, last, isCodes, -⟩ := Success.run_bind_eq_ok.mp isMade
    cases fails.symm.trans isCodes

end Expression

/-! ## Alternatives of sources -/

namespace Reading.Outline

variable {outlines : List Outline} {outline : Outline}

def alternatives (outline : Outline) : List Expression :=
  (outline.first :: outline.others).map fun node =>
    { node, referenced := outline.referenced, groups := outline.groups }

/-- The alternatives of several sources as parts of an expression. -/
def parts : (before : Nat) → List Outline → List Part
  | _, [] => []
  | before, outline :: outlines =>
    outline.alternatives.map (Part.mk before) ++ parts (before + outline.groups) outlines

theorem allBranches_eq (before : Nat) (outlines : List Outline) :
    allBranches before outlines = (parts before outlines).map Part.node := by
  induction outlines generalizing before with
  | nil => rfl
  | cons outline outlines ih =>
    rw [allBranches, parts, List.map_append, ih, branches, alternatives, List.map_map, List.map_map]
    rfl

theorem map_expression_parts (before : Nat) (outlines : List Outline) :
    (parts before outlines).map Part.expression = outlines.flatMap alternatives := by
  induction outlines generalizing before with
  | nil => rfl
  | cons outline outlines ih =>
    rw [parts, List.map_append, ih, List.map_map, List.flatMap_cons]
    exact congrArg (· ++ _) (List.map_id _)

theorem alternatives_sound (sound : outline.expression.IsSound) :
    ∀ expression ∈ outline.alternatives, expression.IsSound := by
  refine List.forall_mem_map.mpr fun node member => ?_
  have inside : node.groups ⊆ outline.expression.node.groups ∧
      node.references ⊆ outline.expression.node.references := by
    simp only [expression, alternation]
    split
    · rename_i isNil
      rw [List.isEmpty_iff.mp isNil, List.mem_singleton] at member
      rw [member]
      exact ⟨List.Subset.refl _, List.Subset.refl _⟩
    · exact ⟨fun _ => Node.mem_groupsOf member, fun _ => Node.mem_referencesOf member⟩
  exact
    { groups := fun number isGroup => sound.groups number (inside.1 isGroup)
      referenced := sound.referenced
      references := fun number refers => sound.references number (inside.2 refers) }

theorem located_references (sound : ∀ outline ∈ outlines, outline.expression.IsSound) (before : Nat)
    (earlier : List Nat) (bounded : ∀ number ∈ earlier, number ≤ before) :
    (∀ part ∈ parts before outlines, ∀ number, 0 < number → number ≤ part.expression.groups →
      (number + part.before ∈ references before earlier outlines ↔
        number ∈ part.expression.referenced)) ∧
      ∀ number, 0 < number → number ≤ before →
        (number ∈ references before earlier outlines ↔ number ∈ earlier) := by
  induction outlines generalizing before earlier with
  | nil => exact ⟨by simp [parts], fun _ _ _ => Iff.rfl⟩
  | cons outline outlines ih =>
    obtain ⟨isSound, areSound⟩ := List.forall_mem_cons.mp sound
    have own (number : Nat) (positive : 0 < number) :
        number + before ∈ outline.referenced.map (shiftNumber before) ↔
          number ∈ outline.referenced := by
      have moved {other : Nat} : shiftNumber before other = number + before ↔
          other = number ∨ other = 0 ∧ number + before = 0 := by
        unfold shiftNumber
        split <;> omega
      simp only [List.mem_map, moved]
      constructor
      · rintro ⟨other, member, rfl | ⟨-, isZero⟩⟩
        · exact member
        · omega
      · exact fun member => ⟨number, member, .inl rfl⟩
    -- The references of this source lie behind all earlier ones.
    have behind : ∀ number ∈ outline.referenced.map (shiftNumber before),
        number = 0 ∨ before < number ∧ number ≤ before + outline.groups := by
      refine List.forall_mem_map.mpr fun inner isInner => ?_
      have bounds : inner ≤ outline.groups := isSound.referenced inner isInner
      unfold shiftNumber
      split <;> omega
    obtain ⟨located, same⟩ := ih areSound (before + outline.groups)
      (outline.referenced.map (shiftNumber before) ++ earlier) (by
        rw [List.forall_mem_append]
        refine ⟨fun number member => ?_, fun number member => ?_⟩
        · have bounds := behind number member
          omega
        · have bounds := bounded number member
          omega)
    rw [references]
    refine ⟨List.forall_mem_append.mpr ⟨?_, located⟩, fun number positive within => ?_⟩
    · rw [alternatives, List.map_map]
      refine List.forall_mem_map.mpr fun node _ number positive within => ?_
      simp only [Function.comp_apply] at within ⊢
      rw [same _ (by omega) (by omega), List.mem_append, own number positive]
      exact or_iff_left fun isEarlier => by
        have bounds := bounded _ isEarlier
        omega
    · rw [same _ positive (by omega), List.mem_append]
      exact or_iff_right fun isOwn => by
        have bounds := behind _ isOwn
        omega

theorem parts_within (before : Nat) (outlines : List Outline) :
    ∀ part ∈ parts before outlines,
      part.before + part.expression.groups ≤ before + width outlines := by
  induction outlines generalizing before with
  | nil => simp [parts]
  | cons outline outlines ih =>
    refine List.forall_mem_append.mpr ⟨?_, ?_⟩
    · rw [alternatives, List.map_map]
      exact List.forall_mem_map.mpr fun _ _ =>
        Nat.add_le_add_left (Nat.le_add_right _ _) before
    · rw [width, ← Nat.add_assoc]
      exact ih _

theorem united_singleton (outline : Outline) : united [outline] = outline.expression := by
  have same : (Node.rename fun number => number) = id := funext Node.rename_same
  simp [united, allBranches, branches, references, width, expression, ofBranches, shiftNumber_zero,
    same]

theorem united_madeOf (nonempty : outlines ≠ [])
    (sound : ∀ outline ∈ outlines, outline.expression.IsSound) :
    (united outlines).MadeOf (parts 0 outlines) where
  nonempty := by
    obtain ⟨outline, outlines, rfl⟩ := List.exists_cons_of_ne_nil nonempty
    simp [parts, alternatives]
  node := congrArg ofBranches (allBranches_eq 0 outlines)
  areIn := fun part member =>
    { sound := by
        have listed := List.mem_map_of_mem (f := Part.expression) member
        rw [map_expression_parts] at listed
        obtain ⟨outline, isOutline, isPart⟩ := List.mem_flatMap.mp listed
        exact alternatives_sound (sound outline isOutline) _ isPart
      within := by
        have within := parts_within 0 outlines part member
        rwa [Nat.zero_add] at within
      located := (located_references sound 0 [] (by simp)).1 part member }

end Reading.Outline

/-! ## Joined expressions -/

namespace Expression

variable {expression first : Expression} {expressions others : List Expression}

/-- An expression as the only group of a pattern. -/
def single (expression : Expression) : Expression :=
  (Outline.captured expression).expression

theorem single_node (expression : Expression) :
    expression.single.node = .group 1 (expression.node.rename (shiftNumber 1)) :=
  rfl

theorem single_groups (expression : Expression) :
    expression.single.groups = expression.groups + 1 :=
  rfl

theorem single_referenced (expression : Expression) :
    expression.single.referenced = expression.referenced.map (shiftNumber 1) :=
  rfl

theorem IsSound.single (sound : expression.IsSound) :
    expression.single.IsSound where
  groups := by
    rw [single_node, single_groups, Node.groups, Node.groups_rename]
    refine List.forall_mem_cons.mpr ⟨by omega, fun number member => ?_⟩
    obtain ⟨inner, isInner, rfl⟩ := List.mem_map.mp member
    have bounds := sound.groups inner isInner
    simp only [shiftNumber]
    split <;> omega
  referenced := by
    intro number member
    rw [single_referenced] at member
    obtain ⟨inner, isInner, rfl⟩ := List.mem_map.mp member
    have bounds := sound.referenced inner isInner
    simp only [shiftNumber, single_groups]
    split <;> omega
  references := by
    intro number member
    rw [single_node, Node.references, Node.references_rename] at member
    obtain ⟨inner, isInner, rfl⟩ := List.mem_map.mp member
    have bounds := sound.references inner isInner
    simp only [shiftNumber, single_groups]
    split <;> omega

theorem join_nil (expression : Expression) : join expression [] = expression.single :=
  (Outline.captured expression).united_singleton

theorem flatMap_alternatives (expressions : List Expression) :
    (expressions.map Outline.captured).flatMap Outline.alternatives = expressions.map single := by
  rw [List.flatMap_map]
  exact List.map_eq_flatMap.symm

theorem parts_cons (before : Nat) (expression : Expression) (expressions : List Expression) :
    Outline.parts before ((expression :: expressions).map .captured) =
      ⟨before, expression.single⟩ ::
        Outline.parts (before + expression.single.groups) (expressions.map .captured) :=
  rfl

section Sound

variable (sound : ∀ expression ∈ first :: others, expression.IsSound)

include sound

theorem join_madeOf :
    (join first others).MadeOf (Outline.parts 0 ((first :: others).map .captured)) :=
  Outline.united_madeOf (by simp)
    (List.forall_mem_map.mpr fun expression member => (sound expression member).single)

theorem isHard_join :
    (join first others).isHard =
      (first :: others).any fun expression => expression.single.isHard := by
  rw [(join_madeOf sound).isHard, Outline.map_expression_parts, flatMap_alternatives, List.any_map]
  rfl

theorem isPlanned_join :
    (join first others).IsPlanned ↔
      ∀ expression ∈ first :: others, expression.single.IsPlanned := by
  rw [(join_madeOf sound).isPlanned_iff, Outline.map_expression_parts, flatMap_alternatives,
    List.forall_mem_map]

theorem hasValidBounds_join
    (bounds : ∀ expression ∈ first :: others, expression.single.node.hasValidBounds = true) :
    (join first others).node.hasValidBounds = true := by
  refine (join_madeOf sound).hasValidBounds ?_
  rw [Outline.map_expression_parts, flatMap_alternatives, List.forall_mem_map]
  exact bounds

end Sound

theorem costOf_append (nodes others : List Node) :
    Node.costOf (nodes ++ others) = Node.costOf nodes + Node.costOf others := by
  induction nodes with
  | nil => simp [Node.costOf]
  | cons node nodes ih => rw [List.cons_append, Node.costOf, ih, Node.costOf, Nat.add_assoc]

theorem costOf_parts (before : Nat) (expressions : List Expression) :
    Node.costOf ((Outline.parts before (expressions.map .captured)).map Part.node) =
      Node.costOf (expressions.map fun expression => expression.single.node) := by
  induction expressions generalizing before with
  | nil => rfl
  | cons expression expressions ih =>
    rw [parts_cons, List.map_cons, Node.costOf, ih, List.map_cons, Node.costOf, Part.node,
      Node.cost_rename]

theorem cost_join (first : Expression) (others : List Expression) :
    (join first others).node.cost =
      Node.costOf ((first :: others).map fun expression => expression.single.node) +
        if others = [] then 0 else 24 := by
  rw [← costOf_parts 0, ← Outline.allBranches_eq]
  cases others with
  | nil => simp [join, Outline.united, Outline.allBranches, Outline.branches, Outline.captured,
      ofBranches, Reading.alternation, Node.costOf]
  | cons second others => rfl

theorem cost_join_le {front : List Expression} {other : Expression} {rest : List Expression}
    (isPart : first :: others = front ++ other :: rest) :
    (join other rest).node.cost ≤ (join first others).node.cost := by
  rw [cost_join, cost_join]
  cases front with
  | nil =>
    obtain ⟨rfl, rfl⟩ := List.cons.inj isPart
    exact Nat.le_refl _
  | cons head front =>
    have isLonger : others ≠ [] := by
      obtain ⟨-, rfl⟩ := List.cons.inj isPart
      simp
    rw [isPart, List.map_append, costOf_append, if_neg isLonger]
    split <;> omega

end Expression

/-! ## Automata -/

/-- The number of the group that a state takes down; 0 if it takes down none. -/
def State.number : State → Nat
  | .save slot => slot / 2
  | _ => 0

namespace Automaton

variable {map : Nat → Nat}

/-- The greatest number of a group that states take down. -/
def greatest : List State → Nat
  | [] => 0
  | state :: states => max state.number (greatest states)

theorem greatest_append (first second : List State) :
    greatest (first ++ second) = max (greatest first) (greatest second) := by
  induction first with
  | nil => simp [greatest]
  | cons state first ih =>
    rw [List.cons_append, greatest, ih, greatest, Nat.max_assoc]

theorem groups_eq (automaton : Automaton) :
    automaton.groups = greatest automaton.states.toList := by
  have folds (states : List State) (start : Nat) :
      states.foldl
        (fun greatest state =>
          match state with
          | .save slot => max greatest (slot / 2)
          | _ => greatest)
        start = max start (greatest states) := by
    induction states generalizing start with
    | nil => simp [greatest]
    | cons state states ih =>
      rw [List.foldl_cons, ih, greatest, ← Nat.max_assoc]
      cases state <;> simp [State.number]
  rw [groups, ← Array.foldl_toList]
  exact (folds _ 0).trans (Nat.zero_max _)

theorem limits_of_ofNodes {node : Node} {automaton : Automaton}
    (made : ofNodes [node] = .ok automaton) :
    node.hasValidBounds = true ∧ node.cost ≤ sizeLimit := by
  unfold ofNodes at made
  split at made
  · cases made
  · split at made
    · cases made
    · rename_i bounds cost
      exact ⟨by simpa [Node.haveValidBounds] using bounds,
        by simpa [Node.costOf] using cost⟩

theorem groups_forNodes (node : Node) :
    (forNodes [node]).groups = greatest (node.fragment 1) := by
  rw [groups_eq]
  simp [forNodes, Node.sequenceFragment, greatest, greatest_append, State.number]

theorem greatest_relocate (fixed : map 0 = 0)
    (monotone : ∀ first second, first ≤ second → map first ≤ map second) (shift : Nat)
    (states : List State) :
    greatest (states.map (State.relocate shift map)) = map (greatest states) := by
  have number (state : State) : (state.relocate shift map).number = map state.number := by
    cases state with
    | save slot =>
      simp only [State.relocate, State.number, renameSlot]
      omega
    | _ => exact fixed.symm
  induction states with
  | nil => exact fixed.symm
  | cons state states ih =>
    rw [List.map_cons, greatest, greatest, ih, number]
    rcases Nat.le_total state.number (greatest states) with less | more
    · rw [Nat.max_eq_right less, Nat.max_eq_right (monotone _ _ less)]
    · rw [Nat.max_eq_left more, Nat.max_eq_left (monotone _ _ more)]

theorem greatest_fragment (node : Node) (base other : Nat) :
    greatest (node.fragment base) = greatest (node.fragment other) := by
  have same (base : Nat) : greatest (node.fragment base) = greatest (node.fragment 0) := by
    have relocates := (Node.fragment_rename (fun number => number) node).moves 0 base
    rw [Node.rename_same, Nat.zero_add] at relocates
    rw [relocates]
    exact greatest_relocate rfl (fun _ _ order => order) base _
  rw [same base, same other]

theorem greatest_rename (fixed : map 0 = 0)
    (monotone : ∀ first second, first ≤ second → map first ≤ map second) (node : Node)
    (base : Nat) :
    greatest ((node.rename map).fragment base) = map (greatest (node.fragment 0)) := by
  have relocates := (Node.fragment_rename map node).moves 0 base
  rw [Nat.zero_add] at relocates
  rw [relocates]
  exact greatest_relocate fixed monotone base _

end Automaton

namespace Expression

open Automaton (greatest)

variable {first : Expression} {others : List Expression}

def TakesAll (expression : Expression) : Prop :=
  greatest (expression.node.fragment 0) = expression.groups

theorem greatest_parts (taken : ∀ expression ∈ first :: others, expression.single.TakesAll)
    (before base : Nat) :
    greatest (Node.choiceFragment
      ((Outline.parts before ((first :: others).map .captured)).map Part.node) base) =
      before + Outline.width ((first :: others).map .captured) := by
  have monotone (before number other : Nat) (order : number ≤ other) :
      shiftNumber before number ≤ shiftNumber before other := by
    unfold shiftNumber
    split <;> split <;> omega
  have part (before base : Nat) {expression : Expression} (takesAll : expression.single.TakesAll) :
      greatest ((Part.mk before expression.single).node.fragment base) =
        before + expression.single.groups := by
    rw [Part.node, Automaton.greatest_rename rfl (monotone before), takesAll, single_groups]
    exact Nat.add_comm _ _
  induction others generalizing first before base with
  | nil => exact part before base (taken first (by simp))
  | cons second others ih =>
    obtain ⟨isFirst, areOthers⟩ := List.forall_mem_cons.mp taken
    have onward := @ih second areOthers (before + first.single.groups)
    have isWidth : Outline.width ((first :: second :: others).map .captured) =
        first.single.groups + Outline.width ((second :: others).map .captured) :=
      rfl
    rw [parts_cons, List.map_cons] at onward ⊢
    rw [parts_cons, List.map_cons, Node.choiceFragment_cons, greatest, Automaton.greatest_append,
      greatest, part _ _ isFirst, onward, isWidth]
    simp only [State.number]
    omega

theorem takesAll_join (taken : ∀ expression ∈ first :: others, expression.single.TakesAll) :
    (join first others).TakesAll := by
  cases others with
  | nil => exact (join_nil first).symm ▸ taken first (by simp)
  | cons second others =>
    have whole := greatest_parts taken 0 0
    rw [Nat.zero_add, ← Outline.allBranches_eq] at whole
    exact whole

end Expression
end Highlighter.Regex

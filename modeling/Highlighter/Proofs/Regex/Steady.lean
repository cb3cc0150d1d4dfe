import Highlighter.Proofs.Regex.Ways

/-!
# Steady expressions

An automaton and a machine can differ in what they make of a loop: whether it goes round without
a character, and what is left of a group that the last round did without.  In a steady expression
neither can happen.
-/
namespace Highlighter.Regex

namespace Node

/-! ## Groups that a match does without -/

mutual

def skipped : Node → List Nat
  | .concat nodes => skippedOf nodes
  | .alternation nodes => groupsOf nodes
  | .group _ node => skipped node
  | .repetition node least _ _ => if least = 0 then groups node else skipped node
  | _ => []

/-- The groups that nodes may match without, one after another. -/
def skippedOf : List Node → List Nat
  | [] => []
  | node :: nodes => skipped node ++ skippedOf nodes

end

mutual

/-- The groups that a match of a node may take back when it does without them: those in parts of
a fixed length, which a machine can leave to automata. -/
def retracted : Node → List Nat
  | .concat nodes => retractedOf nodes
  | .alternation nodes => retractedEach nodes
  | .group _ node => retracted node
  | .repetition node _ _ _ => retracted node
  | _ => []

/-- The groups that nodes may take back, one after another. -/
def retractedOf : List Node → List Nat
  | [] => []
  | node :: nodes =>
    (if (node.measure []).fixed then skipped node else retracted node) ++ retractedOf nodes

/-- The groups that one of several nodes may take back. -/
def retractedEach : List Node → List Nat
  | [] => []
  | node :: nodes => retracted node ++ retractedEach nodes

end

mutual

/-- Whether no loop of a node takes a group back, none without an end goes round without a
character, and what matches only nothing is at most left out. -/
def isSteady : Node → Bool
  | .concat nodes => areSteady nodes
  | .alternation nodes => areSteady nodes
  | .group _ node => isSteady node
  | .repetition node least most _ =>
    let inner := node.measure []
    isSteady node &&
      (least == 0 && most == some 1 ||
        (retracted node).isEmpty && (0 < inner.least || most.isSome && !inner.fixed))
  | _ => true

def areSteady : List Node → Bool
  | [] => true
  | node :: nodes => isSteady node && areSteady nodes

end

theorem skipped_subset (node : Node) : skipped node ⊆ groups node := by
  induction node using inside_induction with
  | step node ih =>
    cases node with
    | concat nodes =>
      rw [skipped, groups]
      induction nodes with
      | nil => exact List.nil_subset _
      | cons node nodes rest => grind [inside, skippedOf, groupsOf]
    | _ => grind [inside, skipped, groups]

theorem retracted_subset (node : Node) : retracted node ⊆ skipped node := by
  induction node using inside_induction with
  | step node ih =>
    cases node with
    | concat nodes =>
      rw [skipped, retracted]
      induction nodes with
      | nil => exact List.nil_subset _
      | cons node nodes rest => grind [inside, skippedOf, retractedOf]
    | alternation nodes =>
      rw [skipped, retracted]
      induction nodes with
      | nil => exact List.nil_subset _
      | cons node nodes rest => grind [inside, skipped_subset, retractedEach, groupsOf]
    | _ => grind [inside, skipped, retracted, skipped_subset]

end Node

/-! ## What is noted on a way -/

namespace Ways

variable {first second body : Ways} {numbers others : List Nat} {number : Nat}

abbrev Notes (ways : Ways) (numbers : List Nat) : Prop :=
  ways.Each fun _ way => ∀ entry ∈ way.2, entry.1 / 2 ∈ numbers

/-- Every way notes where a group begins and where it ends. -/
abbrev Marks (ways : Ways) (number : Nat) : Prop :=
  ways.Each fun _ way => ∀ slot, slot / 2 = number → slot ∈ way.2.map Prod.fst

theorem Notes.stay : stay.Notes numbers :=
  Each.stay fun _ => List.forall_mem_nil _

theorem Notes.save {slot : Nat} (listed : slot / 2 ∈ numbers) : (save slot).Notes numbers :=
  Each.save fun _ => List.forall_mem_singleton.mpr listed

theorem Notes.mono (notes : body.Notes numbers) (within : numbers ⊆ others) :
    body.Notes others :=
  fun place way member entry isEntry => within (notes place way member entry isEntry)

theorem Notes.andThen (isFirst : first.Notes numbers) (isSecond : second.Notes numbers) :
    (first.andThen second).Notes numbers :=
  Each.andThen isFirst isSecond fun _ _ _ earlier later =>
    List.forall_mem_append.mpr ⟨later, earlier⟩

theorem Notes.repetition (isBody : body.Notes numbers) (greedy : Bool) (least : Nat)
    (most : Option Nat) : (repetition greedy body least most).Notes numbers := by
  have copies (count : Nat) : (copies body count).Notes numbers := by
    induction count with
    | zero => exact .stay
    | succ count ih => exact isBody.andThen ih
  have atMost (count : Nat) : (atMost greedy body count).Notes numbers := by
    induction count with
    | zero => exact .stay
    | succ count ih => exact (isBody.andThen ih).fork Notes.stay _
  cases most with
  | none => exact (copies least).andThen fun place => atMost place.after.length place
  | some most => exact (copies least).andThen (atMost (most - least))

theorem Marks.andThen_left (marks : first.Marks number) : (first.andThen second).Marks number := by
  refine Each.andThen marks (fun _ _ _ => trivial) fun _ _ _ isMarked _ slot isSlot => ?_
  rw [List.map_append]
  exact List.mem_append_right _ (isMarked slot isSlot)

theorem Marks.andThen_right (marks : second.Marks number) :
    (first.andThen second).Marks number := by
  refine Each.andThen (fun _ _ _ => trivial) marks fun _ _ _ _ isMarked slot isSlot => ?_
  rw [List.map_append]
  exact List.mem_append_left _ (isMarked slot isSlot)

theorem Marks.group (number : Nat) (inner : Ways) : (group number inner).Marks number := by
  intro place way member slot isSlot
  obtain ⟨start, isStart, isWay⟩ := List.mem_flatMap.mp member
  obtain ⟨rest, isRest, rfl⟩ := List.mem_map.mp isWay
  obtain ⟨middle, isMiddle, isRest⟩ := List.mem_flatMap.mp isRest
  obtain ⟨stop, isStop, rfl⟩ := List.mem_map.mp isRest
  obtain rfl := List.mem_singleton.mp isStart
  obtain rfl := List.mem_singleton.mp isStop
  have isEither : slot = 2 * number ∨ slot = 2 * number + 1 := by omega
  rcases isEither with rfl | rfl <;> simp

end Ways

namespace Node

mutual

theorem ways_notes : (node : Node) → (ways node).Notes (groups node)
  | .empty => .stay
  | .consume _ | .literal _ => .pass fun _ _ _ => List.forall_mem_nil _
  | .check _ => .check fun _ => List.forall_mem_nil _
  | .concat nodes => waysOf_notes nodes
  | .alternation nodes => waysEach_notes nodes
  | .group number node => by
      have starts : 2 * number / 2 ∈ groups (.group number node) := by simp [groups]
      have stops : (2 * number + 1) / 2 ∈ groups (.group number node) := by
        have isNumber : (2 * number + 1) / 2 = number := by omega
        simp [groups, isNumber]
      exact (Ways.Notes.save starts).andThen
        (((ways_notes node).mono (List.subset_cons_self _ _)).andThen (.save stops))
  | .repetition node least most greedy => (ways_notes node).repetition greedy _ _
  | .look _ _ _ | .reference _ | .atomic _ | .keepOut | .searchStart | .groupMatched _
  | .conditional _ _ _ => .nil

theorem waysOf_notes : (nodes : List Node) → (waysOf nodes).Notes (groupsOf nodes)
  | [] => .stay
  | node :: nodes =>
    ((ways_notes node).mono (List.subset_append_left _ _)).andThen
      ((waysOf_notes nodes).mono (List.subset_append_right _ _))

theorem waysEach_notes : (nodes : List Node) → (waysEach nodes).Notes (groupsOf nodes)
  | [] => .nil
  | node :: nodes =>
    ((ways_notes node).mono (List.subset_append_left _ _)).orElse
      ((waysEach_notes nodes).mono (List.subset_append_right _ _))

end

mutual

variable {number : Nat}

theorem ways_marks : (node : Node) → number ∈ groups node →
    number ∉ skipped node → (ways node).Marks number
  | .concat nodes, member, kept => waysOf_marks nodes member kept
  | .alternation nodes, member, kept => absurd member kept
  | .group other node, member, kept => by
      rcases List.mem_cons.mp member with rfl | inside
      · exact .group _ _
      · exact (Ways.Marks.andThen_left (ways_marks node inside kept)).andThen_right
  | .repetition node least most greedy, member, kept => by
      rw [skipped] at kept
      split at kept
      · exact absurd member kept
      · rename_i notZero
        obtain ⟨count, isCount⟩ : ∃ count,
            (effectiveBounds (node.measure []) least most).1 = count + 1 := by
          refine Nat.exists_eq_add_one_of_ne_zero ?_
          unfold effectiveBounds
          split
          · simp only
            omega
          · exact notZero
        have marks := ways_marks node member kept
        rw [ways, isCount]
        exact Ways.Marks.andThen_left (Ways.Marks.andThen_left marks)
  | .empty, member, _ | .consume _, member, _ | .literal _, member, _ | .check _, member, _
  | .reference _, member, _ | .keepOut, member, _ | .searchStart, member, _
  | .groupMatched _, member, _ => by cases member
  | .look _ _ _, _, _ | .atomic _, _, _ | .conditional _ _ _, _, _ => by
      intro _ _ isWay
      cases isWay

theorem waysOf_marks : (nodes : List Node) → number ∈ groupsOf nodes →
    number ∉ skippedOf nodes → (waysOf nodes).Marks number
  | [], member, _ => by cases member
  | node :: nodes, member, kept => by
      rw [skippedOf, List.mem_append, not_or] at kept
      rcases List.mem_append.mp member with isFirst | isLater
      · exact Ways.Marks.andThen_left (ways_marks node isFirst kept.1)
      · exact Ways.Marks.andThen_right (waysOf_marks nodes isLater kept.2)

end

/-! ## Measures -/

theorem measure_of_easy {referenced : List Nat} (node : Node)
    (easy : (node.measure referenced).hard = false) :
    node.measure referenced = node.measure [] := by
  induction node using inside_induction with
  | step node ih =>
    cases node with
    | concat nodes | alternation nodes =>
      simp only [inside, measure, measures_eq_map] at ih easy ⊢
      rw [List.map_congr_left fun node member => ih node member (by simp_all)]
    | _ => simp_all [inside, measure]

end Node

end Highlighter.Regex

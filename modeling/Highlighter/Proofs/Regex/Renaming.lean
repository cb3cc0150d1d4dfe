import Highlighter.Proofs.Regex.Preference

/-!
# Expressions with other group numbers

The groups of an expression get other numbers when it becomes part of a larger one.  The
states that match it are the same then, apart from where they stand and which slots they
write.
-/
namespace Highlighter.Regex

/-! ## Nodes -/

namespace Node

mutual

/-- A node whose groups have other numbers, wherever they are named. -/
def rename (map : Nat → Nat) : Node → Node
  | .empty => .empty
  | .consume set => .consume set
  | .literal char => .literal char
  | .check assertion => .check assertion
  | .concat nodes => .concat (renameEach map nodes)
  | .alternation nodes => .alternation (renameEach map nodes)
  | .group number node => .group (map number) (rename map node)
  | .look direction negated node => .look direction negated (rename map node)
  | .repetition node least most greedy => .repetition (rename map node) least most greedy
  | .reference number => .reference (map number)
  | .atomic node => .atomic (rename map node)
  | .keepOut => .keepOut
  | .searchStart => .searchStart
  | .groupMatched number => .groupMatched (map number)
  | .conditional condition whenTrue whenFalse =>
    .conditional (rename map condition) (rename map whenTrue) (rename map whenFalse)

def renameEach (map : Nat → Nat) : List Node → List Node
  | [] => []
  | node :: nodes => rename map node :: renameEach map nodes

end

mutual

theorem rename_same : (node : Node) → rename (fun number => number) node = node
  | .empty | .consume _ | .literal _ | .check _ | .reference _ | .keepOut | .searchStart
  | .groupMatched _ => rfl
  | .concat nodes | .alternation nodes => by rw [rename, renameEach_same nodes]
  | .group _ node | .look _ _ node | .repetition node _ _ _ | .atomic node => by
      rw [rename, rename_same node]
  | .conditional condition whenTrue whenFalse => by
      rw [rename, rename_same condition, rename_same whenTrue, rename_same whenFalse]

theorem renameEach_same : (nodes : List Node) → renameEach (fun number => number) nodes = nodes
  | [] => rfl
  | node :: nodes => by rw [renameEach, rename_same node, renameEach_same nodes]

end

variable (map : Nat → Nat)

theorem renameEach_eq_map (nodes : List Node) : renameEach map nodes = nodes.map (rename map) := by
  induction nodes with
  | nil => rfl
  | cons node nodes ih =>
    rw [renameEach, ih, List.map_cons]

theorem rename_rename (outer inner : Nat → Nat) (node : Node) :
    (node.rename inner).rename outer = node.rename fun number => outer (inner number) := by
  induction node using inside_induction with
  | step node ih => cases node <;> simp_all [rename, inside, renameEach_eq_map]

theorem groups_rename (node : Node) : (rename map node).groups = node.groups.map map := by
  induction node using inside_induction with
  | step node ih =>
    cases node with
    | concat nodes | alternation nodes =>
      induction nodes <;> simp_all [rename, renameEach, inside, groups, groupsOf]
    | _ => simp_all [rename, inside, groups]

theorem groupsOf_rename (nodes : List Node) :
    groupsOf (renameEach map nodes) = (groupsOf nodes).map map :=
  groups_rename map (.concat nodes)

theorem measure_rename {referenced others : List Nat} (node : Node)
    (agree : ∀ number ∈ node.groups, others.contains (map number) = referenced.contains number) :
    (rename map node).measure others = node.measure referenced := by
  induction node using inside_induction with
  | step node ih =>
    cases node with
    | concat nodes | alternation nodes =>
      simp only [rename, measure]
      congr 1
      induction nodes <;> simp_all [renameEach, inside, measures, groups, groupsOf]
    | _ => simp_all [rename, inside, measure, groups]

theorem measure_rename_nil (node : Node) : (rename map node).measure [] = node.measure [] :=
  measure_rename map node fun _ _ => rfl

theorem hasValidBounds_rename (node : Node) :
    (rename map node).hasValidBounds = node.hasValidBounds := by
  induction node using inside_induction with
  | step node ih =>
    cases node with
    | concat nodes | alternation nodes =>
      induction nodes <;> simp_all [rename, renameEach, inside, hasValidBounds, haveValidBounds]
    | _ => simp_all [rename, inside, hasValidBounds]

theorem haveValidBounds_rename (nodes : List Node) :
    haveValidBounds (renameEach map nodes) = haveValidBounds nodes :=
  hasValidBounds_rename map (.concat nodes)

theorem cost_rename (node : Node) : (rename map node).cost = node.cost := by
  induction node using inside_induction with
  | step node ih =>
    cases node with
    | concat nodes | alternation nodes =>
      induction nodes <;> simp_all [rename, renameEach, inside, cost, costOf]
    | _ => simp_all [rename, inside, cost, measure_rename_nil]

theorem costOf_rename (nodes : List Node) : costOf (renameEach map nodes) = costOf nodes := by
  simpa [rename, cost] using cost_rename map (.concat nodes)

theorem singles?_rename (node : Node) : (rename map node).singles? = node.singles? := by
  induction node using inside_induction with
  | step node ih =>
    cases node with
    | concat nodes =>
      induction nodes <;> simp_all [rename, renameEach, inside, singles?, singlesOf?]
    | _ => rfl

theorem singlesOf?_rename (nodes : List Node) :
    singlesOf? (renameEach map nodes) = singlesOf? nodes :=
  singles?_rename map (.concat nodes)

end Node

/-! ## States -/

def renameSlot (map : Nat → Nat) (slot : Nat) : Nat :=
  2 * map (slot / 2) + slot % 2

theorem renameSlot_start (map : Nat → Nat) (number : Nat) :
    renameSlot map (2 * number) = 2 * map number := by
  rw [renameSlot, Nat.mul_div_cancel_left _ (by decide), Nat.mul_mod_right]
  rfl

theorem renameSlot_stop (map : Nat → Nat) (number : Nat) :
    renameSlot map (2 * number + 1) = 2 * map number + 1 := by
  unfold renameSlot
  have half : (2 * number + 1) / 2 = number := by omega
  have odd : (2 * number + 1) % 2 = 1 := by omega
  rw [half, odd]

/-- A state that stands further behind and writes the slots of renamed groups. -/
def State.relocate (shift : Nat) (map : Nat → Nat) : State → State
  | .consume set => .consume set
  | .check assertion => .check assertion
  | .save slot => .save (renameSlot map slot)
  | .fork first second => .fork (first + shift) (second + shift)
  | .jump target => .jump (target + shift)
  | .accept => .accept

/-- The states that a state leads to apart from the one behind it. -/
def State.targets : State → List Nat
  | .fork first second => [first, second]
  | .jump target => [target]
  | _ => []

namespace Fragment

variable {map : Nat → Nat} {body other first second firstOther secondOther : Fragment}

/-- A state does not accept, and leads to states in a range. -/
def StaysIn (first last : Nat) (state : State) : Prop :=
  state ≠ .accept ∧ ∀ target ∈ state.targets, first ≤ target ∧ target ≤ last

theorem StaysIn.mono {first last lower upper : Nat} {state : State}
    (stays : StaysIn first last state) (isLower : lower ≤ first) (isUpper : last ≤ upper) :
    StaysIn lower upper state :=
  ⟨stays.1, fun target isTarget =>
    (stays.2 target isTarget).imp (Nat.le_trans isLower) (Nat.le_trans · isUpper)⟩

theorem staysIn_fork {base stop onward exit : Nat} (greedy : Bool)
    (isOnward : base ≤ onward ∧ onward ≤ stop) (isExit : base ≤ exit ∧ exit ≤ stop) :
    StaysIn base stop (fork greedy onward exit) := by
  cases greedy <;> simp [StaysIn, fork, State.targets, isOnward, isExit]

theorem staysIn_jump {base stop target : Nat} (inside : base ≤ target ∧ target ≤ stop) :
    StaysIn base stop (.jump target) := by
  simp [StaysIn, State.targets, inside]

theorem relocate_fork (shift : Nat) (map : Nat → Nat) (greedy : Bool) (onward exit : Nat) :
    (fork greedy onward exit).relocate shift map =
      fork greedy (onward + shift) (exit + shift) := by
  cases greedy <;> rfl

/-- A fragment is another one with renamed groups, wherever it stands.  Its states lead to states
of the fragment or to the one behind it. -/
structure Relocates (map : Nat → Nat) (body other : Fragment) : Prop where
  moves : ∀ base shift, other (base + shift) = (body base).map (State.relocate shift map)
  stays : ∀ base, ∀ state ∈ body base, StaysIn base (base + (body base).length) state

namespace Relocates

theorem length (relocates : Relocates map body other) (base shift : Nat) :
    (other (base + shift)).length = (body base).length := by
  rw [relocates.moves, List.length_map]

theorem nil : Relocates map (fun _ => []) (fun _ => []) where
  moves := fun _ _ => rfl
  stays := fun _ => List.forall_mem_nil _

theorem single {state other : State} (moves : ∀ shift, other = state.relocate shift map)
    (free : state ≠ .accept ∧ state.targets = []) :
    Relocates map (fun _ => [state]) fun _ => [other] where
  moves := fun _ shift => congrArg ([·]) (moves shift)
  stays := by
    intro base
    rw [List.forall_mem_singleton, StaysIn, free.2]
    exact ⟨free.1, nofun⟩

theorem followedBy (isFirst : Relocates map first firstOther)
    (isSecond : Relocates map second secondOther) :
    Relocates map (first.followedBy second) (firstOther.followedBy secondOther) where
  moves := by
    intro base shift
    have moved := isSecond.moves (base + (first base).length) shift
    simp only [Fragment.followedBy, List.map_append, ← isFirst.moves base shift,
      isFirst.length base shift, ← moved]
    rw [Nat.add_right_comm]
  stays := by
    intro base state member
    simp only [Fragment.followedBy, List.mem_append, List.length_append] at member ⊢
    rcases member with inFirst | inSecond
    · exact (isFirst.stays base state inFirst).mono (by omega) (by omega)
    · exact (isSecond.stays _ state inSecond).mono (by omega) (by omega)

variable (isBody : Relocates map body other)

include isBody

theorem copies (count : Nat) : Relocates map (copies body count) (copies other count) := by
  induction count with
  | zero => exact .nil
  | succ count ih => exact isBody.followedBy ih

theorem star (greedy nullable : Bool) :
    Relocates map (star greedy nullable body) (star greedy nullable other) where
  moves := by
    intro base shift
    have onward : base + shift + 1 = base + 1 + shift := by omega
    have exit : base + shift + 2 + (body (base + 1)).length =
        base + 2 + (body (base + 1)).length + shift := by omega
    simp only [Fragment.star, onward, isBody.moves (base + 1) shift, List.length_map, exit,
      List.map_cons, List.map_append, List.map_nil, relocate_fork]
    cases nullable with
    | false => rfl
    | true => simp only [if_true, relocate_fork]
  stays := by
    intro base state member
    simp only [Fragment.star, List.mem_cons, List.mem_append, List.not_mem_nil, or_false,
      List.length_cons, List.length_append, List.length_nil] at member ⊢
    rcases member with rfl | inBody | rfl
    · exact staysIn_fork greedy (by omega) (by omega)
    · exact (isBody.stays _ state inBody).mono (by omega) (by omega)
    · cases nullable with
      | false => exact staysIn_jump (by omega)
      | true => exact staysIn_fork greedy (by omega) (by omega)

theorem plus (greedy : Bool) : Relocates map (plus greedy body) (plus greedy other) where
  moves := by
    intro base shift
    have exit : base + shift + (body base).length + 1 =
        base + (body base).length + 1 + shift := by omega
    simp only [Fragment.plus, isBody.moves base shift, List.length_map, exit, List.map_append,
      List.map_cons, List.map_nil, relocate_fork]
  stays := by
    intro base state member
    simp only [Fragment.plus, List.mem_append, List.mem_singleton, List.length_append,
      List.length_cons, List.length_nil] at member ⊢
    rcases member with inBody | rfl
    · exact (isBody.stays _ state inBody).mono (by omega) (by omega)
    · exact staysIn_fork greedy (by omega) (by omega)

theorem atMost (greedy : Bool) (count : Nat) :
    Relocates map (atMost greedy body count) (atMost greedy other count) := by
  induction count with
  | zero => exact .nil
  | succ count ih =>
    have inner := isBody.followedBy ih
    refine ⟨fun base shift => ?_, fun base state member => ?_⟩
    · have onward : base + shift + 1 = base + 1 + shift := by omega
      simp only [Fragment.atMost, onward, inner.moves (base + 1) shift, List.length_map,
        List.map_cons, relocate_fork]
      rw [Nat.add_right_comm (base + 1)]
    · simp only [Fragment.atMost, List.mem_cons, List.length_cons] at member ⊢
      rcases member with rfl | isInner
      · exact staysIn_fork greedy (by omega) (by omega)
      · exact (inner.stays _ state isInner).mono (by omega) (by omega)

theorem repetition (greedy nullable : Bool) (least : Nat) (most : Option Nat) :
    Relocates map (repetition greedy nullable body least most)
      (repetition greedy nullable other least most) := by
  cases most with
  | none =>
    cases least with
    | zero => exact isBody.star greedy nullable
    | succ least => exact (isBody.copies least).followedBy (isBody.plus greedy)
  | some most =>
    have bounded := (isBody.copies least).followedBy (isBody.atMost greedy (most - least))
    cases least <;> exact bounded

end Relocates

end Fragment

namespace Node

variable (map : Nat → Nat)

theorem choiceFragment_cons (node next : Node) (nodes : List Node) (base : Nat) :
    choiceFragment (node :: next :: nodes) base =
      .fork (base + 1) (base + 2 + (fragment node (base + 1)).length) ::
        (fragment node (base + 1) ++
          .jump (base + 2 + (fragment node (base + 1)).length +
              (choiceFragment (next :: nodes)
                (base + 2 + (fragment node (base + 1)).length)).length) ::
            choiceFragment (next :: nodes) (base + 2 + (fragment node (base + 1)).length)) := by
  rw [choiceFragment]
  exact List.cons_ne_nil _ _

mutual

theorem fragment_rename :
    (node : Node) → Fragment.Relocates map node.fragment (rename map node).fragment
  | .empty => .nil
  | .consume _ | .literal _ | .check _ | .look _ _ _ | .reference _ | .atomic _ | .keepOut
  | .searchStart | .groupMatched _ | .conditional _ _ _ => .single (fun _ => rfl) ⟨nofun, rfl⟩
  | .concat nodes => sequenceFragment_rename nodes
  | .alternation nodes => choiceFragment_rename nodes
  | .group number node => by
      have inner := fragment_rename node
      refine ⟨fun base shift => ?_, fun base state member => ?_⟩
      · have onward : base + shift + 1 = base + 1 + shift := by omega
        simp only [rename, fragment, onward, inner.moves (base + 1) shift, List.map_cons,
          List.map_append, List.map_nil, State.relocate, renameSlot_start, renameSlot_stop]
      · simp only [fragment, List.mem_cons, List.mem_append, List.not_mem_nil, or_false,
          List.length_cons, List.length_append, List.length_nil] at member ⊢
        rcases member with rfl | isInner | rfl
        · exact ⟨nofun, nofun⟩
        · exact (inner.stays _ state isInner).mono (by omega) (by omega)
        · exact ⟨nofun, nofun⟩
  | .repetition node least most greedy => by
      have relocates := (fragment_rename node).repetition greedy ((node.measure []).least == 0)
        (effectiveBounds (node.measure []) least most).1
        (effectiveBounds (node.measure []) least most).2
      refine ⟨fun base shift => ?_, relocates.stays⟩
      simp only [rename, fragment, measure_rename_nil]
      exact relocates.moves base shift

theorem sequenceFragment_rename :
    (nodes : List Node) →
    Fragment.Relocates map (sequenceFragment nodes) (sequenceFragment (renameEach map nodes))
  | [] => .nil
  | node :: nodes => (fragment_rename node).followedBy (sequenceFragment_rename nodes)

theorem choiceFragment_rename :
    (nodes : List Node) →
    Fragment.Relocates map (choiceFragment nodes) (choiceFragment (renameEach map nodes))
  | [] => .single (fun _ => rfl) ⟨nofun, rfl⟩
  | [node] => fragment_rename node
  | node :: next :: nodes => by
      have inner := fragment_rename node
      have others := choiceFragment_rename (next :: nodes)
      refine ⟨fun base shift => ?_, fun base state member => ?_⟩
      · have onward : base + shift + 1 = base + 1 + shift := by omega
        have behind : base + shift + 2 + (fragment node (base + 1)).length =
            base + 2 + (fragment node (base + 1)).length + shift := by omega
        rw [renameEach] at others
        rw [renameEach, renameEach, choiceFragment_cons, choiceFragment_cons, onward,
          inner.moves (base + 1) shift, List.length_map, behind, others.moves _ shift,
          List.length_map]
        simp only [List.map_cons, List.map_append, State.relocate, Nat.add_right_comm _ shift]
      · rw [choiceFragment_cons] at member ⊢
        simp only [List.mem_cons, List.mem_append, List.length_cons, List.length_append]
          at member ⊢
        rcases member with rfl | inNode | rfl | inOthers
        · exact Fragment.staysIn_fork true (by omega) (by omega)
        · exact (inner.stays _ state inNode).mono (by omega) (by omega)
        · exact Fragment.staysIn_jump (by omega)
        · exact (others.stays _ state inOthers).mono (by omega) (by omega)

end

end Node

end Highlighter.Regex

import Highlighter.Proofs.Regex.Reading

/-!
# Reading at another depth

What is read at some depth is read alike one group deeper, unless it is nested too deep there.
-/
namespace Highlighter.Regex.Reading

variable {α β : Type}

def Deepens (first second : Reading α) : Prop :=
  ∀ ⦃state : ReadState⦄ ⦃found : α × ReadState⦄, first.run state = .ok found →
    second.run state = .ok found ∨ second.run state = .error .nestedTooDeep

namespace Deepens

variable {onward next : α → Reading β} {second first : Reading α}

theorem refl (action : Reading α) : Deepens action action :=
  fun _ _ isFound => .inl isFound

theorem bind (deepens : Deepens first second)
    (follows : ∀ value, Deepens (next value) (onward value)) :
    Deepens (first >>= next) (second >>= onward) := by
  intro state found isFound
  obtain ⟨value, after, isFirst, isNext⟩ := Success.run_bind_eq_ok.mp isFound
  rw [StateT.run_bind]
  rcases deepens isFirst with isSecond | isDeep
  · rw [isSecond]
    exact follows value isNext
  · rw [isDeep]
    exact .inr rfl

theorem bind_left (deepens : Deepens first second) (next : α → Reading β) :
    Deepens (first >>= next) (second >>= next) :=
  deepens.bind fun value => refl (next value)

theorem bind_right (action : Reading α) (follows : ∀ value, Deepens (next value) (onward value)) :
    Deepens (action >>= next) (action >>= onward) :=
  (refl action).bind follows

end Deepens

/-- What is read with some fuel is read alike one group deeper. -/
structure AllDeepen (fuel : Nat) : Prop where
  alternatives : ∀ depth, Deepens (alternatives fuel depth) (alternatives fuel (depth + 1))
  otherAlternatives : ∀ depth newestFirst,
    Deepens (otherAlternatives fuel depth newestFirst)
      (otherAlternatives fuel (depth + 1) newestFirst)
  branch : ∀ depth newestFirst,
    Deepens (branch fuel depth newestFirst) (branch fuel (depth + 1) newestFirst)
  piece : ∀ depth, Deepens (piece fuel depth) (piece fuel (depth + 1))
  atom : ∀ depth, Deepens (atom fuel depth) (atom fuel (depth + 1))
  group : ∀ depth, Deepens (group fuel depth) (group fuel (depth + 1))
  conditional : ∀ depth, Deepens (conditional fuel depth) (conditional fuel (depth + 1))

section Step

variable {fuel : Nat} (all : AllDeepen fuel) (depth : Nat)

include all

theorem alternatives_deepens :
    Deepens (alternatives (fuel + 1) depth) (alternatives (fuel + 1) (depth + 1)) := by
  rw [alternatives, alternatives]
  exact (all.branch depth []).bind fun _ => (all.otherAlternatives depth []).bind_left _

theorem otherAlternatives_deepens (newestFirst : List Node) :
    Deepens (otherAlternatives (fuel + 1) depth newestFirst)
      (otherAlternatives (fuel + 1) (depth + 1) newestFirst) := by
  rw [otherAlternatives, otherAlternatives]
  refine .bind_right _ fun accepted => ?_
  cases accepted with
  | false => exact .refl _
  | true => exact (all.branch depth []).bind fun node => all.otherAlternatives depth _

theorem branch_deepens (newestFirst : List Node) :
    Deepens (branch (fuel + 1) depth newestFirst) (branch (fuel + 1) (depth + 1) newestFirst) := by
  rw [branch, branch]
  refine .bind_right _ fun _ => .bind_right _ fun state => ?_
  split
  · exact .refl _
  · exact .refl _
  · exact .refl _
  · exact (all.piece depth).bind fun node => all.branch depth _

theorem piece_deepens : Deepens (piece (fuel + 1) depth) (piece (fuel + 1) (depth + 1)) := by
  rw [piece, piece]
  exact (all.atom depth).bind_left _

theorem atom_deepens : Deepens (atom (fuel + 1) depth) (atom (fuel + 1) (depth + 1)) := by
  rw [atom, atom]
  refine .bind_right _ fun state => ?_
  cases state.rest with
  | nil => exact .refl _
  | cons char rest =>
    simp only
    split
    case h_4 => exact .bind_right _ fun _ => all.group (depth + 1)
    all_goals exact .refl _

theorem group_deepens : Deepens (group (fuel + 1) depth) (group (fuel + 1) (depth + 1)) := by
  simp only [group]
  by_cases isDeep : 64 ≤ depth + 1
  · rw [if_pos isDeep]
    exact fun _ _ _ => .inr rfl
  rw [if_neg isDeep, if_neg (fun isDeeper => isDeep (Nat.le_succ_of_le isDeeper))]
  refine .bind_right _ fun _ => .bind_right _ fun state => ?_
  have enclosed (wrap : Node → Node) :=
    (all.alternatives depth).bind_left fun node => do
      close
      return wrap node
  split
  case h_7 => exact .refl _
  case h_9 => exact .bind_right _ fun _ => all.conditional depth
  case h_10 =>
    refine .bind_right _ fun _ => .bind_right _ fun _ => .bind_right _ fun scopes => ?_
    cases scopes with
    | false => exact .refl _
    | true => exact (all.alternatives depth).bind_left _
  all_goals exact .bind_right _ fun _ => enclosed _

theorem conditional_deepens :
    Deepens (conditional (fuel + 1) depth) (conditional (fuel + 1) (depth + 1)) := by
  rw [conditional, conditional]
  refine .bind_right _ fun state => ?_
  have onward (condition : Node) :
      Deepens
        (do
          close
          let behindCondition := (← get).rest.length
          let body ← alternatives fuel depth
          closeConditional condition behindCondition body)
        (do
          close
          let behindCondition := (← get).rest.length
          let body ← alternatives fuel (depth + 1)
          closeConditional condition behindCondition body) :=
    .bind_right _ fun _ => .bind_right _ fun _ => (all.alternatives depth).bind_left _
  split
  · exact .refl _
  · split
    · exact .bind_right _ fun number => onward _
    · split
      · exact .bind_right _ fun number => onward _
      · split
        · exact .bind_right _ fun number => onward _
        · exact (all.alternatives depth).bind onward

end Step

theorem allDeepen (fuel : Nat) : AllDeepen fuel := by
  induction fuel with
  | zero =>
    constructor <;> intros <;>
      simp only [alternatives, otherAlternatives, branch, piece, atom, group, conditional] <;>
      exact .refl _
  | succ fuel all =>
    exact {
      alternatives := alternatives_deepens all
      otherAlternatives := otherAlternatives_deepens all
      branch := branch_deepens all
      piece := piece_deepens all
      atom := atom_deepens all
      group := group_deepens all
      conditional := conditional_deepens all }

end Highlighter.Regex.Reading

import Highlighter.Proofs.Regex.Attempts
import Highlighter.Proofs.Regex.Fuel
import Highlighter.Proofs.Regex.Planning

/-!
# Programs for renamed expressions

The program planned for an expression with other group numbers, from another register on, is
the one planned for the expression itself apart from these numbers.
-/
namespace Highlighter.Regex

variable {nodes : List Node} {node : Node}

/-! ## Numbers in nodes -/

namespace Node

theorem mem_referencesOf (member : node ∈ nodes) {number : Nat}
    (refers : number ∈ references node) : number ∈ referencesOf nodes := by
  induction nodes with
  | nil => cases member
  | cons head tail ih =>
    rw [referencesOf, List.mem_append]
    rcases List.mem_cons.mp member with rfl | inTail
    · exact .inl refers
    · exact .inr (ih inTail)

/-- The numbers in a node are renamed as a scheme says, and its groups are referred to under
their new numbers if they are under the old ones. -/
structure Fits (scheme : Renumbering) (referenced others : List Nat) (node : Node) : Prop where
  groups : ∀ number ∈ node.groups, scheme.Names number ∧
    others.contains (scheme.map number) = referenced.contains number
  references : ∀ number ∈ node.references, scheme.Names number

section Fits

variable {scheme : Renumbering} {referenced others : List Nat} {node : Node} {nodes : List Node}

theorem Fits.part {inner : Node} (fits : node.Fits scheme referenced others)
    (isGroup : inner.groups ⊆ node.groups) (refers : inner.references ⊆ node.references) :
    inner.Fits scheme referenced others :=
  ⟨fun number member => fits.groups number (isGroup member),
    fun number member => fits.references number (refers member)⟩

theorem Fits.concat (fits : (Node.concat nodes).Fits scheme referenced others) :
    ∀ node ∈ nodes, node.Fits scheme referenced others :=
  fun _ member => fits.part (fun _ => mem_groupsOf member) fun _ => mem_referencesOf member

theorem Fits.alternation (fits : (Node.alternation nodes).Fits scheme referenced others) :
    ∀ node ∈ nodes, node.Fits scheme referenced others :=
  fun _ member => fits.part (fun _ => mem_groupsOf member) fun _ => mem_referencesOf member

theorem Fits.conditional {condition whenTrue whenFalse : Node}
    (fits : (Node.conditional condition whenTrue whenFalse).Fits scheme referenced others) :
    condition.Fits scheme referenced others ∧ whenTrue.Fits scheme referenced others ∧
      whenFalse.Fits scheme referenced others := by
  refine ⟨fits.part ?_ ?_, fits.part ?_ ?_, fits.part ?_ ?_⟩ <;>
  · intro number member
    simp [Node.groups, Node.references, member]

theorem Fits.measure (fits : node.Fits scheme referenced others) :
    (node.rename scheme.map).measure others = node.measure referenced :=
  measure_rename _ _ fun number member => (fits.groups number member).2

theorem measures_of_fits (fits : ∀ node ∈ nodes, node.Fits scheme referenced others) :
    measures others (renameEach scheme.map nodes) = measures referenced nodes := by
  rw [renameEach_eq_map, measures_eq_map, measures_eq_map, List.map_map]
  exact List.map_congr_left fun node member => (fits node member).measure

end Fits

end Node

/-! ## Pieces -/

namespace Automaton

theorem matchAt?_rename {map : Nat → Nat} (fixed : map 0 = 0) (nodes : List Node)
    (place : Place) :
    (forNodes (Node.renameEach map nodes)).matchAt? place =
      ((forNodes nodes).matchAt? place).map (Slots.rename map) := by
  have renamed := forNodes_tail (Node.renameEach map nodes)
  have behind := renamed.behind
  have length : (Node.sequenceFragment (Node.renameEach map nodes) 1).length =
      (Node.sequenceFragment nodes 1).length :=
    (Node.sequenceFragment_rename map nodes).length 1 0
  rw [length] at behind
  rw [matchAt?_forNodes]
  exact @follow_of_tail place _ map nodes 0 _ fixed renamed
    (exits_of_save behind.head behind.cons.head)

theorem ofNodes_rename (map : Nat → Nat) (nodes : List Node) :
    (ofNodes nodes = .ok (forNodes nodes) ∧
        ofNodes (Node.renameEach map nodes) = .ok (forNodes (Node.renameEach map nodes))) ∨
      ∃ cause, ofNodes nodes = .error cause ∧
        ofNodes (Node.renameEach map nodes) = .error cause := by
  unfold ofNodes
  rw [Node.haveValidBounds_rename, Node.costOf_rename]
  split
  · exact .inr ⟨_, rfl, rfl⟩
  · split
    · exact .inr ⟨_, rfl, rfl⟩
    · exact .inl ⟨rfl, rfl⟩

end Automaton

namespace Code

open Node (renameEach)

variable {scheme : Renumbering} {referenced others : List Nat}

theorem ofEasy_cons (node : Node) (nodes : List Node) :
    ofEasy (node :: nodes) =
      (Node.singlesOf? (node :: nodes)).elim
        (do
          let automaton ← Automaton.ofNodes (node :: nodes)
          return .piece automaton (Node.groupsOf (node :: nodes)))
        fun sets => .ok (.consume sets) := by
  rw [ofEasy]
  · cases Node.singlesOf? (node :: nodes) <;> rfl
  · exact List.cons_ne_nil _ _

/-- Two results are both there and related, or both fail for the same cause. -/
def ComeAlike {α β : Type} (first : Except PatternError α) (second : Except PatternError β)
    (related : α → β → Prop) : Prop :=
  (∃ value other, first = .ok value ∧ second = .ok other ∧ related value other) ∨
    ∃ cause, first = .error cause ∧ second = .error cause

theorem ofEasy_alike (named : ∀ number ∈ Node.groupsOf nodes, scheme.Names number) :
    ComeAlike (ofEasy nodes) (ofEasy (renameEach scheme.map nodes)) (Alike scheme) := by
  cases nodes with
  | nil => exact .inl ⟨.nothing, .nothing, rfl, rfl, .nothing⟩
  | cons node nodes =>
    rw [renameEach, ofEasy_cons, ofEasy_cons, ← renameEach, Node.singlesOf?_rename]
    cases Node.singlesOf? (node :: nodes) with
    | some sets => exact .inl ⟨.consume sets, .consume sets, rfl, rfl, .consume⟩
    | none =>
      rcases Automaton.ofNodes_rename scheme.map (node :: nodes) with
        ⟨isOwn, isOther⟩ | ⟨cause, fails, otherFails⟩
      · refine .inl ⟨_, _, Success.bind_eq_ok.mpr ⟨_, isOwn, rfl⟩,
          Success.bind_eq_ok.mpr ⟨_, isOther, rfl⟩, ?_⟩
        rw [Node.groupsOf_rename]
        exact .piece (Automaton.matchAt?_rename scheme.fixed _) named
      · refine .inr ⟨cause, ?_, ?_⟩
        · exact congrArg (· >>= _) fails
        · exact congrArg (· >>= _) otherFails

/-! ## Plans side by side -/

variable {α β γ δ : Type} {related : α → β → Prop}

/-- Two plans come to related results, or fail alike, if the first begins with a register that is
less by the shift of the scheme. -/
def PlansAlike (scheme : Renumbering) (first : Plan α) (second : Plan β)
    (related : α → β → Prop) : Prop :=
  ∀ register, scheme.bound ≤ register →
    ComeAlike (first.run register) (second.run (register + scheme.shift)) fun made other =>
      scheme.bound ≤ made.2 ∧ other.2 = made.2 + scheme.shift ∧ related made.1 other.1

theorem PlansAlike.pure {value : α} {other : β} (isRelated : related value other) :
    PlansAlike scheme (Pure.pure value) (Pure.pure other) related :=
  fun register isRegister => .inl ⟨(value, register), (other, register + scheme.shift), rfl, rfl,
    isRegister, rfl, isRelated⟩

theorem PlansAlike.bind {first : Plan α} {second : Plan β} {next : α → Plan γ}
    {onward : β → Plan δ} {between : α → β → Prop} {related : γ → δ → Prop}
    (alike : PlansAlike scheme first second between)
    (follows : ∀ value other, between value other →
      PlansAlike scheme (next value) (onward other) related) :
    PlansAlike scheme (first >>= next) (second >>= onward) related := by
  intro register isRegister
  rw [StateT.run_bind, StateT.run_bind]
  rcases alike register isRegister with
    ⟨⟨value, after⟩, ⟨other, last⟩, isValue, isOther, above, rfl, isBetween⟩ |
    ⟨cause, fails, otherFails⟩
  · rw [isValue, isOther]
    exact follows value other isBetween after above
  · rw [fails, otherFails]
    exact .inr ⟨cause, rfl, rfl⟩

theorem PlansAlike.lift {first : Except PatternError α} {second : Except PatternError β}
    (alike : ComeAlike first second related) :
    PlansAlike scheme (liftM first) (liftM second) related := by
  intro register isRegister
  rcases alike with ⟨value, other, rfl, rfl, isRelated⟩ | ⟨cause, rfl, rfl⟩
  · exact .inl ⟨(value, register), (other, register + scheme.shift), rfl, rfl, isRegister, rfl,
      isRelated⟩
  · exact .inr ⟨cause, rfl, rfl⟩

theorem ComeAlike.refl (made : Except PatternError α) : ComeAlike made made fun value other =>
    other = value := by
  cases made with
  | error cause => exact .inr ⟨cause, rfl, rfl⟩
  | ok value => exact .inl ⟨value, value, rfl, rfl, rfl⟩

theorem PlansAlike.ite {condition : Prop} [Decidable condition] {first yes : Plan α}
    {second no : Plan β} (whenTrue : PlansAlike scheme first second related)
    (whenFalse : PlansAlike scheme yes no related) :
    PlansAlike scheme (if condition then first else yes) (if condition then second else no)
      related := by
  split
  · exact whenTrue
  · exact whenFalse

theorem newRegister_alike :
    PlansAlike scheme newRegister newRegister fun register other =>
      scheme.bound ≤ register ∧ other = register + scheme.shift := by
  intro register isRegister
  refine .inl ⟨(register, register + 1), (register + scheme.shift, register + scheme.shift + 1),
    rfl, rfl, ?_, ?_, isRegister, rfl⟩
  · exact Nat.le_succ_of_le isRegister
  · exact Nat.add_right_comm _ _ _

theorem repetition_alike {register : Nat} {inner : Measure} {least : Nat} {most : Option Nat}
    {greedy : Bool} {body other : Code} (isRegister : scheme.bound ≤ register)
    (alike : body.Alike scheme other) :
    (repetition register inner least most greedy body).Alike scheme
      (repetition (register + scheme.shift) inner least most greedy other) := by
  unfold repetition
  split
  · exact .optional alike
  · split
    · exact .guarded isRegister alike
    · split
      · exact .star alike
      · exact .plus alike
      · exact .counted alike
  · exact .counted alike

theorem lookAny_alike {looks others : List (Nat × Code)}
    (each : List.Forall₂ (fun look other => other.1 = look.1 ∧ look.2.Alike scheme other.2)
      looks others) (negated : Bool) :
    (lookAny negated looks).Alike scheme (lookAny negated others) := by
  unfold lookAny
  split
  · refine .sequence (List.forall₂_map_left_iff.mpr (List.forall₂_map_right_iff.mpr ?_))
    refine each.imp fun look other same => ?_
    rw [same.1]
    exact .denial same.2
  · refine .choice (List.forall₂_map_left_iff.mpr (List.forall₂_map_right_iff.mpr ?_))
    refine each.imp fun look other same => ?_
    rw [same.1]
    exact .look same.2

theorem unless_easy_alike {following : Bool} {hard otherHard : Plan Code}
    (fits : node.Fits scheme referenced others)
    (planned : PlansAlike scheme hard otherHard (Alike scheme)) :
    PlansAlike scheme
      (if !following && !(node.measure referenced).hard then liftM (ofEasy [node]) else hard)
      (if !following && !((node.rename scheme.map).measure others).hard then
        liftM (ofEasy [node.rename scheme.map]) else otherHard) (Alike scheme) := by
  rw [fits.measure]
  refine .ite (.lift (ofEasy_alike ?_)) planned
  rw [Node.groupsOf_singleton]
  exact fun number member => (fits.groups number member).1

/-- The program for a renamed node is like the program for the node. -/
def IsStable (scheme : Renumbering) (referenced others : List Nat) (node : Node) : Prop :=
  ∀ following, node.Fits scheme referenced others →
    PlansAlike scheme (plan referenced following node)
      (plan others following (node.rename scheme.map)) (Alike scheme)

theorem planEach_alike (each : ∀ node ∈ nodes, IsStable scheme referenced others node)
    (following : Bool) (fits : ∀ node ∈ nodes, node.Fits scheme referenced others) :
    PlansAlike scheme (planEach referenced following nodes)
      (planEach others following (renameEach scheme.map nodes)) (List.Forall₂ (Alike scheme)) := by
  induction nodes with
  | nil => exact .pure .nil
  | cons node nodes ih =>
    obtain ⟨first, rest⟩ := List.forall_mem_cons.mp fits
    obtain ⟨isStable, areStable⟩ := List.forall_mem_cons.mp each
    rw [planEach, renameEach, planEach]
    refine .bind (isStable following first) fun code other same => ?_
    refine .bind (ih areStable rest) fun codes otherCodes each => ?_
    exact .pure (.cons same each)

theorem planLooksEach_alike (each : ∀ node ∈ nodes, IsStable scheme referenced others node)
    (direction : Direction) (fits : ∀ node ∈ nodes, node.Fits scheme referenced others) :
    PlansAlike scheme (planLooksEach referenced direction nodes)
      (planLooksEach others direction (renameEach scheme.map nodes))
      (List.Forall₂ fun look other => other.1 = look.1 ∧ look.2.Alike scheme other.2) := by
  induction nodes with
  | nil => exact .pure .nil
  | cons node nodes ih =>
    obtain ⟨first, rest⟩ := List.forall_mem_cons.mp fits
    obtain ⟨isStable, areStable⟩ := List.forall_mem_cons.mp each
    rw [planLooksEach, renameEach, planLooksEach, first.measure]
    refine .bind (.lift (.refl _)) ?_
    rintro back _ rfl
    refine .bind (isStable false first) fun code other same => ?_
    refine .bind (ih areStable rest) fun looks otherLooks each => ?_
    exact .pure (.cons ⟨rfl, same⟩ each)

mutual

theorem plan_alike : (node : Node) → IsStable scheme referenced others node
  | .empty, _, fits => unless_easy_alike fits (.pure .nothing)
  | .consume _, _, fits => unless_easy_alike fits (.pure .consume)
  | .literal _, _, fits => unless_easy_alike fits (.pure .consume)
  | .check _, _, fits => unless_easy_alike fits (.pure .check)
  | .concat nodes, following, fits => by
      simp only [plan, Node.rename]
      have parts := fits.concat
      refine unless_easy_alike fits ?_
      rw [Node.measures_of_fits parts]
      have easy {some : List Node} (isPart : some ⊆ nodes) :
          ComeAlike (ofEasy some) (ofEasy (renameEach scheme.map some)) (Alike scheme) := by
        refine ofEasy_alike fun number member => ?_
        by_contra unnamed
        refine Node.not_mem_groupsOf isPart (fun isGroup => ?_) member
        exact unnamed (fits.groups number isGroup).1
      simp only [planRange_eq, Node.renameEach_eq_map, ← List.map_take, ← List.map_drop]
      simp only [← Node.renameEach_eq_map]
      refine .bind (.lift (easy (List.take_subset _ _))) fun front otherFront isFront => ?_
      have isPart (skipped kept : Nat) : (nodes.take kept).drop skipped ⊆ nodes :=
        List.Subset.trans (List.drop_subset _ _) (List.take_subset _ _)
      refine .bind (planEach_alike (fun node member => plans_alike nodes node (isPart _ _ member))
        true fun node member => parts node (isPart _ _ member))
        fun between otherBetween isBetween => ?_
      refine .bind (.lift (easy (List.drop_subset _ _))) fun behind otherBehind isBehind => ?_
      refine .pure (.sequence (.cons isFront (List.rel_append isBetween (.cons isBehind .nil))))
  | .alternation nodes, following, fits => by
      simp only [plan, Node.rename]
      refine unless_easy_alike fits
        (.bind (planEach_alike (plans_alike nodes) following fits.alternation) ?_)
      exact fun codes otherCodes each => .pure (.choice each)
  | .group number node, following, fits => by
      simp only [plan, Node.rename]
      have inner : node.Fits scheme referenced others :=
        fits.part (List.subset_cons_self _ _) (List.Subset.refl _)
      have names := (fits.groups number List.mem_cons_self).1
      refine unless_easy_alike fits (.bind (plan_alike node following inner) ?_)
      exact fun code other same => .pure (.group names same)
  | .look direction negated node, following, fits => by
      have inner : node.Fits scheme referenced others :=
        fits.part (List.Subset.refl _) (List.Subset.refl _)
      simp only [plan, Node.rename]
      refine unless_easy_alike fits ?_
      rw [inner.measure]
      refine .ite (.bind (planLooks_alike node direction inner) fun looks otherLooks each => ?_)
        (.bind (.lift (.refl _)) ?_)
      · exact .pure (lookAny_alike each negated)
      · rintro back _ rfl
        refine .bind (plan_alike node false inner) fun code other same => .pure ?_
        cases negated with
        | true => exact .denial same
        | false => exact .look same
  | .repetition node least most greedy, following, fits => by
      have inner : node.Fits scheme referenced others :=
        fits.part (List.Subset.refl _) (List.Subset.refl _)
      have whole := fits.measure
      rw [Node.rename] at whole
      simp only [plan, Node.rename]
      refine unless_easy_alike fits (.bind newRegister_alike ?_)
      rintro register _ ⟨isRegister, rfl⟩
      rw [inner.measure, whole]
      refine .bind (plan_alike node _ inner) fun code other same => ?_
      exact .pure (repetition_alike isRegister same)
  | .reference number, _, fits =>
    unless_easy_alike fits
      (.pure (.reference (fits.references number (List.mem_singleton_self number))))
  | .atomic node, following, fits => by
      simp only [plan, Node.rename]
      have inner : node.Fits scheme referenced others :=
        fits.part (List.Subset.refl _) (List.Subset.refl _)
      refine unless_easy_alike fits (.bind (plan_alike node false inner) ?_)
      exact fun code other same => .pure (.atomic same)
  | .keepOut, _, fits => unless_easy_alike fits (.pure .keepOut)
  | .searchStart, _, fits => unless_easy_alike fits (.pure .searchStart)
  | .groupMatched number, _, fits =>
    unless_easy_alike fits
      (.pure (.groupMatched (fits.references number (List.mem_singleton_self number))))
  | .conditional condition whenTrue whenFalse, following, fits => by
      obtain ⟨test, onTrue, onFalse⟩ := fits.conditional
      simp only [plan, Node.rename]
      refine unless_easy_alike fits (.bind (plan_alike condition following test) ?_)
      refine fun code other isTest => .bind (plan_alike whenTrue following onTrue) ?_
      refine fun yes otherYes isYes => .bind (plan_alike whenFalse following onFalse) ?_
      exact fun no otherNo isNo => .pure (.conditional isTest isYes isNo)

theorem plans_alike : (nodes : List Node) → ∀ node ∈ nodes, IsStable scheme referenced others node
  | [] => by simp
  | node :: nodes => List.forall_mem_cons.mpr ⟨plan_alike node, plans_alike nodes⟩

theorem planLooks_alike :
    (node : Node) → (direction : Direction) → node.Fits scheme referenced others →
      PlansAlike scheme (planLooks referenced direction node)
        (planLooks others direction (node.rename scheme.map))
        (List.Forall₂ fun look other => other.1 = look.1 ∧ look.2.Alike scheme other.2)
  | .alternation nodes, direction, fits => planLooksEach_alike (plans_alike nodes) direction
      fits.alternation
  | .empty, _, _ | .consume _, _, _ | .literal _, _, _ | .check _, _, _ | .concat _, _, _
  | .group _ _, _, _ | .look _ _ _, _, _ | .repetition _ _ _ _, _, _ | .reference _, _, _
  | .atomic _, _, _ | .keepOut, _, _ | .searchStart, _, _ | .groupMatched _, _, _
  | .conditional _ _ _, _, _ => by
      exact fun _ _ => .inr ⟨_, rfl, rfl⟩

end

end Code
end Highlighter.Regex

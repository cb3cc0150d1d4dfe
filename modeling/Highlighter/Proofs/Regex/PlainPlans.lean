import Highlighter.Proofs.Regex.Backtracking
import Mathlib.Data.List.Nodup

/-!
# Programs for what an automaton could match

A machine that works off the program for a steady expression that an automaton could match comes
to what the automaton comes to.
-/
namespace Highlighter.Regex

variable {nodes : List Node} {most : Option Nat} {greedy : Bool} {least bound : Nat} {code : Code}
  {node : Node}

namespace Node

theorem singles_ways {sets : List CharSet} (isSets : singles? node = some sets) :
    ways node = .passEach sets := by
  induction node using inside_induction generalizing sets with
  | step node ih =>
    cases node with
    | empty =>
      cases isSets
      rfl
    | consume set | literal char =>
      cases isSets
      exact (Ways.passEach_single _).symm
    | concat nodes =>
      rw [singles?] at isSets
      rw [ways]
      induction nodes generalizing sets with
      | nil =>
        cases isSets
        rfl
      | cons node nodes rest =>
        obtain ⟨isNode, areOthers⟩ := List.forall_mem_cons.mp ih
        obtain ⟨first, isFirst, isSets⟩ := Option.bind_eq_some_iff.mp isSets
        obtain ⟨others, isOthers, isSets⟩ := Option.bind_eq_some_iff.mp isSets
        cases isSets
        rw [waysOf, isNode isFirst, rest areOthers isOthers, Ways.passEach_append]
    | _ => cases isSets

theorem waysOf_append (first second : List Node) :
    waysOf (first ++ second) = (waysOf first).andThen (waysOf second) := by
  induction first with
  | nil => exact (Ways.stay_andThen _).symm
  | cons node first ih =>
    rw [List.cons_append, waysOf, ih, waysOf, Ways.andThen_assoc]

theorem retractedOf_append (first second : List Node) :
    retractedOf (first ++ second) = retractedOf first ++ retractedOf second := by
  induction first with
  | nil => rfl
  | cons node first ih =>
    rw [List.cons_append, retractedOf, ih, retractedOf, List.append_assoc]

theorem retractedOf_fixed (fixed : ∀ measure ∈ measures [] nodes, measure.fixed = true) :
    retractedOf nodes = skippedOf nodes := by
  induction nodes with
  | nil => rfl
  | cons node nodes ih =>
    obtain ⟨isFixed, areFixed⟩ := List.forall_mem_cons.mp fixed
    rw [retractedOf, skippedOf, if_pos isFixed, ih areFixed]

/-! ## Plain nodes -/

/-- Nodes for which an automaton could be made, and whose groups all have numbers of their own
below a bound. -/
structure Plain (bound : Nat) (referenced : List Nat) (nodes : List Node) : Prop where
  easy : ∀ node ∈ nodes, (node.measure referenced).hard = false
  steady : ∀ node ∈ nodes, isSteady node = true
  bounds : ∀ node ∈ nodes, node.hasValidBounds = true
  distinct : (groupsOf nodes).Nodup
  within : ∀ number ∈ groupsOf nodes, 0 < number ∧ 2 * number + 1 < bound

theorem areSteady_iff :
    areSteady nodes = true ↔ ∀ node ∈ nodes, isSteady node = true := by
  induction nodes with
  | nil => simp [areSteady]
  | cons node nodes ih =>
    rw [areSteady, Bool.and_eq_true, ih, List.forall_mem_cons]

theorem haveValidBounds_iff :
    haveValidBounds nodes = true ↔ ∀ node ∈ nodes, node.hasValidBounds = true := by
  induction nodes with
  | nil => simp [haveValidBounds]
  | cons node nodes ih =>
    rw [haveValidBounds, Bool.and_eq_true, ih, List.forall_mem_cons]

theorem groupsOf_sublist {part : List Node} (isPart : part.Sublist nodes) :
    (groupsOf part).Sublist (groupsOf nodes) := by
  induction isPart with
  | slnil => exact .slnil
  | cons node _ ih =>
    exact ih.trans (List.sublist_append_right _ _)
  | cons_cons node _ ih => exact ih.append_left _

namespace Plain

variable {bound : Nat} {referenced : List Nat} {node : Node} {nodes part : List Node}

theorem sublist (plain : Plain bound referenced nodes) (isPart : part.Sublist nodes) :
    Plain bound referenced part where
  easy := fun node member => plain.easy node (isPart.subset member)
  steady := fun node member => plain.steady node (isPart.subset member)
  bounds := fun node member => plain.bounds node (isPart.subset member)
  distinct := plain.distinct.sublist (groupsOf_sublist isPart)
  within := fun number member => plain.within number ((groupsOf_sublist isPart).subset member)

theorem head (plain : Plain bound referenced (node :: nodes)) : Plain bound referenced [node] :=
  plain.sublist (List.singleton_sublist.mpr List.mem_cons_self)

theorem tail (plain : Plain bound referenced (node :: nodes)) : Plain bound referenced nodes :=
  plain.sublist (List.sublist_cons_self node nodes)

theorem inside {whole : Node} (plain : Plain bound referenced [whole])
    (easy : (whole.measure referenced).hard = false →
      ∀ node ∈ nodes, (node.measure referenced).hard = false)
    (steady : isSteady whole = true → ∀ node ∈ nodes, isSteady node = true)
    (bounds : whole.hasValidBounds = true → ∀ node ∈ nodes, node.hasValidBounds = true)
    (isPart : (groupsOf nodes).Sublist (groups whole)) : Plain bound referenced nodes where
  easy := easy (plain.easy whole (List.mem_singleton_self _))
  steady := steady (plain.steady whole (List.mem_singleton_self _))
  bounds := bounds (plain.bounds whole (List.mem_singleton_self _))
  distinct := by
    have distinct := plain.distinct
    rw [groupsOf_singleton] at distinct
    exact distinct.sublist isPart
  within := by
    have within := plain.within
    rw [groupsOf_singleton] at within
    exact fun number member => within number (isPart.subset member)

theorem concat (plain : Plain bound referenced [.concat nodes]) : Plain bound referenced nodes :=
  plain.inside (by simp [measure, measures_eq_map]) areSteady_iff.mp haveValidBounds_iff.mp
    (List.Sublist.refl _)

theorem alternation (plain : Plain bound referenced [.alternation nodes]) :
    Plain bound referenced nodes :=
  plain.inside (by simp [measure, measures_eq_map]) areSteady_iff.mp haveValidBounds_iff.mp
    (List.Sublist.refl _)

theorem group {number : Nat} (plain : Plain bound referenced [.group number node]) :
    Plain bound referenced [node] := by
  refine plain.inside ?_ ?_ ?_ ?_
  · intro easy
    exact List.forall_mem_singleton.mpr (Bool.or_eq_false_iff.mp easy).1
  · exact fun steady => List.forall_mem_singleton.mpr steady
  · exact fun bounds => List.forall_mem_singleton.mpr bounds
  · rw [groupsOf_singleton]
    exact List.sublist_cons_self _ _

theorem repetition (plain : Plain bound referenced [.repetition node least most greedy]) :
    Plain bound referenced [node] := by
  refine plain.inside (fun easy => List.forall_mem_singleton.mpr easy) ?_ ?_ ?_
  · intro steady
    exact List.forall_mem_singleton.mpr (Bool.and_eq_true_iff.mp steady).1
  · intro bounds
    exact List.forall_mem_singleton.mpr (Bool.and_eq_true_iff.mp bounds).2
  · rw [groupsOf_singleton]
    exact List.Sublist.refl _

/-- What is not hard is measured alike, whatever is referred to. -/
theorem measures (plain : Plain bound referenced nodes) :
    Node.measures referenced nodes = Node.measures [] nodes := by
  rw [measures_eq_map, measures_eq_map]
  exact List.map_congr_left fun node member => measure_of_easy node (plain.easy node member)

end Plain
end Node

/-! ## Plans -/

namespace Machine

/-- Tasks pass on in the ways of nodes one after another, apart from some that make no
difference. -/
def Realizes {bound : Nat} (positive : 1 < bound) (tasks : List Task) (nodes : List Node) : Prop :=
  ∃ ways, Ways.Prunes ways (Node.waysOf nodes) ∧
    Performs positive tasks (Node.retractedOf nodes) ways

theorem Realizes.append {positive : 1 < bound} {first second : List Task} {others : List Node}
    (isFirst : Realizes positive first nodes) (isSecond : Realizes positive second others)
    (disjoint : (Node.groupsOf nodes).Disjoint (Node.groupsOf others)) :
    Realizes positive (first ++ second) (nodes ++ others) := by
  obtain ⟨ways, prunes, performs⟩ := isFirst
  obtain ⟨next, nextPrunes, nextPerforms⟩ := isSecond
  rw [Realizes, Node.waysOf_append, Node.retractedOf_append]
  refine ⟨_, prunes.andThen nextPrunes, performs.append nextPerforms ?_⟩
  intro place way member slots fresh
  refine fresh.append (prunes.notes (Node.waysOf_notes nodes) place way member) ?_
  refine List.disjoint_of_subset_left ?_ (List.disjoint_comm.mp disjoint)
  exact List.Subset.trans (Node.retracted_subset (.concat others))
    (Node.skipped_subset (.concat others))

end Machine

namespace Code

open Machine (Performs Realizes)

variable {bound : Nat} {positive : 1 < bound} {referenced : List Nat} {codes : List Code}

theorem ofEasy_realizes (made : ofEasy nodes = .ok code) (plain : Node.Plain bound referenced nodes)
    (fixed : ∀ measure ∈ Node.measures referenced nodes, measure.fixed = true) :
    Realizes positive [.run code] nodes := by
  rw [plain.measures] at fixed
  rw [Realizes, Node.retractedOf_fixed fixed]
  unfold ofEasy at made
  split at made
  · cases made
    exact ⟨.stay, .refl _, .nothing⟩
  · split at made
    · rename_i sets isSets
      cases made
      rw [← Node.ways, @Node.singles_ways (.concat nodes) _ isSets]
      exact ⟨_, .refl _, (Performs.consume sets).mono (List.nil_subset _)⟩
    · obtain ⟨automaton, isAutomaton, made⟩ := Success.bind_eq_ok.mp made
      cases made
      obtain rfl := Automaton.eq_forNodes isAutomaton
      have passes := Node.waysOf_passes nodes
      have isFixed : (Measure.sequence (Node.measures [] nodes)).fixed = true :=
        List.all_eq_true.mpr fixed
      rw [isFixed] at passes
      exact ⟨_, .takeFirst passes, .piece (Node.areSteady_iff.mpr plain.steady) plain.within⟩

theorem repetition_performs
    (plain : Node.Plain bound referenced [.repetition node least most greedy]) {body : Code}
    {ways : Ways} (prunes : ways.Prunes (Node.ways node))
    (performs : Performs positive [.run body] (Node.retracted node) ways) (register : Nat) :
    Performs positive [.run (repetition register (node.measure referenced) least most greedy body)]
      (Node.retracted node) (ways.repetition greedy least most) := by
  have steady := plain.steady _ (List.mem_singleton_self _)
  have valid := plain.bounds _ (List.mem_singleton_self _)
  have isMeasure := Node.measure_of_easy node
    (plain.repetition.easy node (List.mem_singleton_self _))
  obtain ⟨-, passes⟩ := Node.bounds_of_isSteady steady
  rw [isMeasure]
  refine performs.repetition register greedy (fun isNone => ⟨passes isNone, ?_⟩) ?_ ?_
  · exact prunes.consumes ((Node.ways_passes node).consumes (passes isNone))
  · rintro bound rfl
    simp only [Node.hasValidBounds, Option.all_some, Bool.and_eq_true, decide_eq_true_eq] at valid
    exact valid.1.2.1
  · simp only [Node.isSteady, Bool.and_eq_true, Bool.or_eq_true, beq_iff_eq,
      List.isEmpty_iff] at steady
    exact steady.2.imp id And.left

/-- The program planned for a plain node passes on in the ways of the node. -/
def IsExact (positive : 1 < bound) (referenced : List Nat) (node : Node) : Prop :=
  ∀ ⦃first last : Nat⦄ ⦃code : Code⦄, (plan referenced true node).run first = .ok (code, last) →
    Node.Plain bound referenced [node] →
    ∃ ways, Ways.Prunes ways (Node.ways node) ∧
      Performs positive [.run code] (Node.retracted node) ways

theorem planEach_performs {first last : Nat}
    (each : ∀ node ∈ nodes, IsExact positive referenced node)
    (made : (planEach referenced true nodes).run first = .ok (codes, last))
    (plain : Node.Plain bound referenced nodes) :
    ∃ ways, Ways.Prunes ways (Node.waysEach nodes) ∧
      Performs positive [.run (.choice codes)] (Node.retractedEach nodes) ways := by
  induction nodes generalizing first last codes with
  | nil =>
    cases made
    exact ⟨_, .refl _, .choice_nil⟩
  | cons node nodes ih =>
    obtain ⟨code, middle, isCode, made⟩ := Success.run_bind_eq_ok.mp made
    obtain ⟨others, final, isOthers, made⟩ := Success.run_bind_eq_ok.mp made
    cases made
    obtain ⟨isExact, areExact⟩ := List.forall_mem_cons.mp each
    obtain ⟨ways, prunes, performs⟩ := isExact isCode plain.head
    cases nodes with
    | nil =>
      cases isOthers
      have isWays : Node.waysEach [node] = Node.ways node := by
        funext place
        simp [Node.waysEach, Ways.orElse]
      rw [isWays]
      exact ⟨ways, prunes, performs.choice_single.mono (List.subset_append_left _ _)⟩
    | cons next nodes =>
      obtain ⟨otherWays, otherPrunes, othersPerform⟩ := ih areExact isOthers plain.tail
      obtain ⟨other, between, -, isOthers⟩ := Success.run_bind_eq_ok.mp isOthers
      obtain ⟨rest, behind, -, isOthers⟩ := Success.run_bind_eq_ok.mp isOthers
      cases isOthers
      exact ⟨_, prunes.orElse otherPrunes, performs.choice_cons othersPerform⟩

theorem planEach_realizes {first last : Nat}
    (each : ∀ node ∈ nodes, IsExact positive referenced node)
    (made : (planEach referenced true nodes).run first = .ok (codes, last))
    (plain : Node.Plain bound referenced nodes) : Realizes positive (codes.map .run) nodes := by
  induction nodes generalizing first last codes with
  | nil =>
    cases made
    exact ⟨_, .refl _, .nil⟩
  | cons node nodes ih =>
    obtain ⟨code, middle, isCode, made⟩ := Success.run_bind_eq_ok.mp made
    obtain ⟨others, final, isOthers, made⟩ := Success.run_bind_eq_ok.mp made
    cases made
    obtain ⟨isExact, areExact⟩ := List.forall_mem_cons.mp each
    obtain ⟨ways, prunes, performs⟩ := isExact isCode plain.head
    have alone : Realizes positive [.run code] [node] := by
      refine ⟨ways, ?_, performs.mono ?_⟩
      · rwa [Node.waysOf, Node.waysOf, Ways.andThen_stay]
      · rw [Node.retractedOf, Node.retractedOf, List.append_nil]
        split
        · exact Node.retracted_subset node
        · exact List.Subset.refl _
    have distinct := plain.distinct
    rw [Node.groupsOf, ← Node.groupsOf_singleton] at distinct
    exact alone.append (ih areExact isOthers plain.tail) (List.disjoint_of_nodup_append distinct)

mutual

theorem plan_isExact : (node : Node) → IsExact positive referenced node
  | .empty => by
      rintro _ _ _ ⟨⟩ -
      exact ⟨_, .refl _, .nothing⟩
  | .consume set => by
      rintro _ _ _ ⟨⟩ -
      rw [Node.ways, ← Ways.passEach_single]
      exact ⟨_, .refl _, .consume _⟩
  | .literal char => by
      rintro _ _ _ ⟨⟩ -
      rw [Node.ways, ← Ways.passEach_single]
      exact ⟨_, .refl _, .consume _⟩
  | .check assertion => by
      rintro _ _ _ ⟨⟩ -
      exact ⟨_, .refl _, .check assertion⟩
  | .concat nodes => by
      intro first last code made plain
      have plain := plain.concat
      simp only [plan, Bool.not_true, Bool.false_and, Bool.false_eq_true, reduceIte] at made
      obtain ⟨inFront, behindFront, isFront, made⟩ := Success.run_bind_eq_ok.mp made
      obtain ⟨between, behindBetween, isBetween, made⟩ := Success.run_bind_eq_ok.mp made
      obtain ⟨atEnd, behindEnd, isEnd, made⟩ := Success.run_bind_eq_ok.mp made
      cases made
      obtain ⟨easyFront, rfl⟩ := Success.run_lift_eq_ok.mp isFront
      obtain ⟨easyEnd, rfl⟩ := Success.run_lift_eq_ok.mp isEnd
      obtain ⟨order, eachFront, eachEnd⟩ := division_parts true (Node.measures referenced nodes)
      rw [Node.take_measures] at eachFront
      rw [Node.drop_measures] at eachEnd
      have isPart (skipped kept : Nat) : ((nodes.take kept).drop skipped).Sublist nodes :=
        (List.drop_sublist _ _).trans (List.take_sublist _ _)
      rw [planRange_eq] at isBetween
      have front : Realizes positive _ _ := ofEasy_realizes easyFront
        (plain.sublist (List.take_sublist _ _)) fun measure member => (eachFront measure member).2
      have middle := planEach_realizes
        (fun node member => plans_areExact nodes node ((isPart _ _).subset member)) isBetween
        (plain.sublist (isPart _ _))
      have behind : Realizes positive _ _ := ofEasy_realizes easyEnd
        (plain.sublist (List.drop_sublist _ _)) fun measure member =>
          (eachEnd measure member).2 rfl
      have isNodes := Node.eq_take_append_drop order nodes
      have distinct := plain.distinct
      rw [isNodes, Node.groupsOf_append, Node.groupsOf_append] at distinct
      have isWhole := (front.append middle
        (List.disjoint_of_nodup_append distinct.of_append_left)).append behind
        (by rw [Node.groupsOf_append]; exact List.disjoint_of_nodup_append distinct)
      rw [← isNodes] at isWhole
      obtain ⟨ways, prunes, performs⟩ := isWhole
      refine ⟨ways, prunes, Performs.sequence ?_⟩
      rw [Node.retracted, List.map_cons, List.map_append]
      exact performs
  | .alternation nodes => by
      intro first last code made plain
      obtain ⟨codes, middle, isCodes, made⟩ := Success.run_bind_eq_ok.mp made
      cases made
      exact planEach_performs (plans_areExact nodes) isCodes plain.alternation
  | .group number node => by
      intro first last code made plain
      obtain ⟨inner, middle, isInner, made⟩ := Success.run_bind_eq_ok.mp made
      cases made
      have distinct := plain.distinct
      rw [Node.groupsOf_singleton, Node.groups, List.nodup_cons] at distinct
      have names := (plain.within number (by simp [Node.groupsOf, Node.groups])).2
      obtain ⟨ways, prunes, performs⟩ := plan_isExact node isInner plain.group
      refine ⟨_, prunes.group number, performs.group names fun member => distinct.1 ?_⟩
      exact Node.skipped_subset node (Node.retracted_subset node member)
  | .repetition node least most greedy => by
      intro first last code made plain
      simp only [plan, Bool.not_true, Bool.false_and, Bool.false_eq_true, reduceIte,
        Bool.true_or] at made
      obtain ⟨register, middle, isRegister, made⟩ := Success.run_bind_eq_ok.mp made
      obtain ⟨inner, final, isInner, made⟩ := Success.run_bind_eq_ok.mp made
      cases made
      obtain ⟨ways, prunes, performs⟩ := plan_isExact node isInner plain.repetition
      obtain ⟨bounds, -⟩ := Node.bounds_of_isSteady (plain.steady _ (List.mem_singleton_self _))
      rw [Node.ways, bounds]
      exact ⟨_, prunes.repetition greedy least most,
        repetition_performs plain prunes performs register⟩
  | .look _ _ _ | .reference _ | .atomic _ | .keepOut | .searchStart | .groupMatched _
  | .conditional _ _ _ => by
      intro _ _ _ _ plain
      cases plain.easy _ (List.mem_singleton_self _)

theorem plans_areExact : (nodes : List Node) → ∀ node ∈ nodes, IsExact positive referenced node
  | [] => by simp
  | node :: nodes => List.forall_mem_cons.mpr ⟨plan_isExact node, plans_areExact nodes⟩

end

end Code

namespace Machine

variable {result : Option Slots} {continued : Bool} {place : Place} {origin : Nat}

theorem comes_stop {slots : Slots} (comes : Comes origin continued [.save 1] place slots result) :
    result.map Slots.get? = some (Slots.get? ((1, some place) :: slots)) := by
  obtain ⟨held, backtracks, isHeld, gives⟩ := comes
  obtain rfl := (gives.onward rfl).unique (gives_of_matched rfl)
  exact congrArg some (Slots.get?_append_congr [(1, some place)] isHeld)

/-- The program planned for a plain node comes to what an automaton for it does. -/
theorem attempts_eq_matchAt? (positive : 1 < bound) {referenced : List Nat} {first last : Nat}
    (planned : (Code.plan referenced true node).run first = .ok (code, last))
    (plain : Node.Plain bound referenced [node])
    (attempts : Attempts origin continued code place result) :
    result.map Slots.get? = ((Automaton.forNodes [node]).matchAt? place).map Slots.get? := by
  obtain ⟨ways, prunes, performs⟩ := @Code.plan_isExact bound positive referenced node _ _ _
    planned plain
  have isNode : Node.waysOf [node] = Node.ways node := Ways.andThen_stay _
  have isHead := prunes.head? place
  have fresh : Slots.IsFresh [(0, some place)] (Node.retracted node) := by
    intro slot member
    have isGroup := Node.skipped_subset node (Node.retracted_subset node member)
    rw [← Node.groupsOf_singleton] at isGroup
    have bounds := plain.within _ isGroup
    have behindZero : 0 ≠ slot := by omega
    simp [Slots.get?, behindZero]
  have tries := performs.tries (Performs.save 1).stable fresh ⟨_, 0, rfl, attempts⟩
  rw [Automaton.matchAt?_eq_head (Node.areSteady_iff.mpr plain.steady), isNode, ← isHead]
  generalize ways place = each at tries
  cases tries with
  | nil => rfl
  | found goesOn =>
    rw [comes_stop goesOn]
    rfl
  | passed fails => cases comes_stop fails

end Machine
end Highlighter.Regex

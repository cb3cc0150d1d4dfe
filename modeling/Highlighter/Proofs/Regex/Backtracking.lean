import Highlighter.Proofs.Regex.Crossing
import Highlighter.Proofs.Regex.FirstPlace
import Highlighter.Proofs.Regex.Trying

/-!
# What a machine comes to

A machine comes to the first way to work off its tasks that can be gone on with.  It leaves the
parts of a fixed length to automata and does not go back to them, but all ways through such a part
end at the same place.
-/
namespace Highlighter.Regex

variable {slots held : Slots}

/-! ## Groups of which nothing is noted -/

namespace Slots

variable {numbers others : List Nat}

theorem get?_append (first second : Slots) (slot : Nat) :
    get? (first ++ second) slot =
      if slot ∈ first.map Prod.fst then first.get? slot else second.get? slot := by
  unfold get?
  rw [List.find?_append]
  cases isFound : first.find? fun entry => entry.1 == slot with
  | none =>
    have absent : slot ∉ first.map Prod.fst := by
      intro member
      obtain ⟨entry, isEntry, rfl⟩ := List.mem_map.mp member
      exact List.find?_eq_none.mp isFound entry isEntry (beq_self_eq_true _)
    rw [if_neg absent, Option.none_or]
  | some entry =>
    have isSlot : entry.1 = slot := by simpa using List.find?_some isFound
    have present : slot ∈ first.map Prod.fst :=
      List.mem_map.mpr ⟨entry, List.mem_of_find?_eq_some isFound, isSlot⟩
    rw [if_pos present, Option.some_or]

theorem get?_append_congr (noted : Slots) (same : held.get? = slots.get?) :
    get? (noted ++ held) = get? (noted ++ slots) := by
  funext slot
  rw [get?_append, get?_append, same]

def IsFresh (slots : Slots) (numbers : List Nat) : Prop :=
  ∀ slot, slot / 2 ∈ numbers → slots.get? slot = none

theorem IsFresh.nil (slots : Slots) : slots.IsFresh [] := by
  intro slot member
  cases member

theorem IsFresh.mono (fresh : slots.IsFresh others) (within : numbers ⊆ others) :
    slots.IsFresh numbers :=
  fun slot member => fresh slot (within member)

/-- What is noted of other groups changes nothing. -/
theorem IsFresh.append {noted : Slots} (fresh : slots.IsFresh numbers)
    (notes : ∀ entry ∈ noted, entry.1 / 2 ∈ others) (disjoint : numbers.Disjoint others) :
    IsFresh (noted ++ slots) numbers := by
  intro slot member
  have absent : slot ∉ noted.map Prod.fst := by
    intro isNoted
    obtain ⟨entry, isEntry, rfl⟩ := List.mem_map.mp isNoted
    exact disjoint member (notes entry isEntry)
  rw [get?_append, if_neg absent]
  exact fresh slot member

end Slots

/-! ## Characters one after another -/

namespace Ways

def passEach (sets : List CharSet) : Ways :=
  fun place => ((Machine.consume? sets place).map fun next => (next, [])).toList

theorem passEach_single (set : CharSet) : passEach [set] = pass set := by
  funext place
  unfold passEach pass Machine.consume?
  cases place.next? with
  | none => rfl
  | some step =>
    by_cases contains : set.contains step.1 <;> simp [Machine.consume?, Option.filter, contains]

theorem passEach_append (first second : List CharSet) :
    passEach (first ++ second) = (passEach first).andThen (passEach second) := by
  have isAppend (place : Place) : Machine.consume? (first ++ second) place =
      (Machine.consume? first place).bind (Machine.consume? second) := by
    induction first generalizing place with
    | nil => rfl
    | cons set sets ih =>
      simp only [List.cons_append, Machine.consume?]
      split
      · split
        · exact ih _
        · rfl
      · rfl
  funext place
  rw [passEach, isAppend, andThen, passEach]
  cases Machine.consume? first place with
  | none => rfl
  | some middle =>
    rw [Option.bind_some, Option.map_some, Option.toList_some, List.flatMap_singleton, passEach]
    cases Machine.consume? second middle <;> rfl

end Ways

namespace Machine

/-! ## Tasks with no way back -/

def Comes (origin : Nat) (continued : Bool) (tasks : List Task) (place : Place) (slots : Slots)
    (result : Option Slots) : Prop :=
  ∃ held backtracks, Slots.get? held = slots.get? ∧
    Gives origin continued (resume { tasks, place, slots := held, marks := [] } [] backtracks)
      result

section Comes

variable {bound : Nat} {positive : 1 < bound} {origin : Nat} {continued : Bool}
  {tasks taken kept rest : List Task} {place : Place} {slots held : Slots} {backtracks : Nat}
  {result : Option Slots}

theorem tries_of_unmatched {machine : Machine} (gives : Gives origin continued machine result)
    (step : machine.step origin continued = .unmatched)
    (onward : Place → Slots → Option Slots → Prop) (slots : Slots) :
    Ways.Tries onward slots [] result := by
  have fails := gives.unique (gives_of_unmatched step)
  subst fails
  exact .nil

theorem tries_of_fork
    (stable : List.Forall₂ (Task.Alike (.same bound positive) 1) taken taken)
    (isHeld : Slots.get? held = slots.get?)
    (gives : Gives origin continued
      { tasks := taken, place, slots := held, marks := []
        choices := [{ tasks := kept, place, slots := held, marks := [] }], depth := 1
        backtracks } result)
    {onward : Place → Slots → Option Slots → Prop} {first second : List (Place × Slots)}
    (isTaken : ∀ result, Comes origin continued taken place slots result →
      Ways.Tries onward slots first result)
    (isKept : ∀ result, Comes origin continued kept place slots result →
      Ways.Tries onward slots second result) :
    Ways.Tries onward slots (first ++ second) result := by
  have frames : Frames (.behind (.same bound positive)
      [{ tasks := kept, place, slots := held, marks := [] }])
      (resume { tasks := taken, place, slots := held, marks := [] } [] backtracks)
      { tasks := taken, place, slots := held, marks := []
        choices := [{ tasks := kept, place, slots := held, marks := [] }], depth := 1
        backtracks } :=
    { tasks := Task.allAlike_behind stable
      place := rfl
      slots := ⟨held, (List.append_nil held).symm, by
        rw [Renumbering.same_entries]
        exact (List.append_nil held).symm⟩
      marks := rfl
      choices := ⟨[], rfl, .nil⟩
      sourceDepth := rfl
      targetDepth := rfl
      backtracks := Nat.le_refl _ }
  rcases frames.gives_behind gives with ⟨found, matched, same⟩ | ⟨fails, later, back⟩
  · rw [Renumbering.same_entries] at same
    subst same
    exact (isTaken _ ⟨held, backtracks, isHeld, matched⟩).append_found _
  · exact (isTaken _ ⟨held, backtracks, isHeld, fails⟩).append_none
      (isKept _ ⟨held, later, isHeld, back⟩)

/-- Tasks pass on in given ways, if nothing is noted yet of some groups: what they come to with
others behind them is what these come to at the end of the first way that can be gone on with. -/
structure Performs (positive : 1 < bound) (tasks : List Task) (numbers : List Nat) (ways : Ways) :
    Prop where
  stable : List.Forall₂ (Task.Alike (.same bound positive) 1) tasks tasks
  tries : ∀ {origin : Nat} {continued : Bool} {rest : List Task} {place : Place} {slots : Slots}
    {result : Option Slots}, List.Forall₂ (Task.Alike (.same bound positive) 1) rest rest →
    slots.IsFresh numbers → Comes origin continued (tasks ++ rest) place slots result →
    Ways.Tries (Comes origin continued rest) slots (ways place) result

end Comes

namespace Performs

variable {bound : Nat} {positive : 1 < bound} {first second : List Task}
  {numbers others noted : List Nat} {ways next : Ways} {code : Code}

variable {least count : Nat} {tasks : List Task} {codes : List Code} {nodes : List Node}
  {inner : Measure} {place : Place} {greedy : Bool}

theorem mono (performs : Performs positive first numbers ways) (within : numbers ⊆ others) :
    Performs positive first others ways where
  stable := performs.stable
  tries := fun stable fresh => performs.tries stable (fresh.mono within)

theorem append (isFirst : Performs positive first numbers ways)
    (isSecond : Performs positive second others next)
    (keeps : ∀ place, ∀ way ∈ ways place, ∀ slots : Slots, slots.IsFresh others →
      Slots.IsFresh (way.2 ++ slots) others) :
    Performs positive (first ++ second) (numbers ++ others) (ways.andThen next) where
  stable := List.rel_append isFirst.stable isSecond.stable
  tries := by
    intro origin continued rest place slots result stable fresh comes
    rw [List.append_assoc] at comes
    refine Ways.Tries.andThen ((isFirst.tries (List.rel_append isSecond.stable stable)
      (fresh.mono (List.subset_append_left _ _)) comes).imp fun way member result goesOn => ?_)
    exact isSecond.tries stable
      (keeps place way member slots (fresh.mono (List.subset_append_right _ _))) goesOn

theorem nil : Performs positive [] [] .stay where
  stable := .nil
  tries := fun _ _ comes => .single comes

theorem nothing : Performs positive [.run .nothing] [] .stay where
  stable := .cons (.run .nothing) .nil
  tries := by
    rintro origin continued rest place slots result - - ⟨held, backtracks, isHeld, gives⟩
    exact .single ⟨held, backtracks, isHeld, gives.onward rfl⟩

theorem save (slot : Nat) : Performs positive [.save slot] [] (.save slot) where
  stable := by
    have alike := @Task.Alike.save (.same bound positive) 1 slot
    rw [Renumbering.same_slot] at alike
    exact .cons alike .nil
  tries := by
    rintro origin continued rest place slots result - - ⟨held, backtracks, isHeld, gives⟩
    exact .single ⟨_, backtracks, Slots.get?_append_congr [(slot, some place)] isHeld,
      gives.onward rfl⟩

theorem consume (sets : List CharSet) :
    Performs positive [.run (.consume sets)] [] (.passEach sets) where
  stable := .cons (.run .consume) .nil
  tries := by
    rintro origin continued rest place slots result - - ⟨held, backtracks, isHeld, gives⟩
    unfold Ways.passEach
    cases passed : consume? sets place with
    | none =>
      refine tries_of_unmatched gives ?_ _ _
      simp [Machine.step, start, resume, passed, fail]
    | some stop =>
      refine .single ⟨held, backtracks, isHeld, gives.onward ?_⟩
      simp [Machine.step, start, resume, passed, goOnAt]

theorem check (assertion : Assertion) :
    Performs positive [.run (.check assertion)] [] (.check assertion) where
  stable := .cons (.run .check) .nil
  tries := by
    rintro origin continued rest place slots result - - ⟨held, backtracks, isHeld, gives⟩
    unfold Ways.check
    split
    · rename_i holds
      refine .single ⟨held, backtracks, isHeld, gives.onward ?_⟩
      simp [Machine.step, start, resume, holds, goOn]
    · rename_i fails
      refine tries_of_unmatched gives ?_ _ _
      simp [Machine.step, start, resume, fails, fail]

theorem alike (performs : Performs positive [.run code] numbers ways) :
    code.Alike (.same bound positive) code := by
  obtain ⟨alike, -⟩ := List.forall₂_cons.mp performs.stable
  cases alike with
  | run inner => exact inner

/-- A program that only puts other tasks in its place. -/
theorem enter (performs : Performs positive tasks numbers ways)
    (alike : code.Alike (.same bound positive) code) (steps : ∀ origin continued machine rest,
      start origin continued machine code rest = machine.goOn (tasks ++ rest)) :
    Performs positive [.run code] numbers ways where
  stable := .cons (.run alike) .nil
  tries := by
    rintro origin continued rest place slots result stable fresh ⟨held, backtracks, isHeld, gives⟩
    exact performs.tries stable fresh
      ⟨held, backtracks, isHeld, gives.onward (steps origin continued _ rest)⟩

theorem group {number : Nat} (names : 2 * number + 1 < bound)
    (performs : Performs positive [.run code] numbers ways) (unlisted : number ∉ numbers) :
    Performs positive [.run (.group number code)] numbers (.group number ways) where
  stable := .cons (.run (.group names performs.alike)) .nil
  tries := by
    rintro origin continued rest place slots result stable fresh ⟨held, backtracks, isHeld, gives⟩
    have inner := performs.append (save (2 * number + 1)) fun _ _ _ _ _ => .nil _
    refine Ways.Tries.andThen (.single (inner.tries stable ?_ ⟨_, backtracks,
      Slots.get?_append_congr [(2 * number, some place)] isHeld, gives.onward rfl⟩))
    rw [List.append_nil]
    refine fresh.append ?_ (List.disjoint_singleton.mpr unlisted)
    simp

theorem sequence (performs : Performs positive (codes.map .run) numbers ways) :
    Performs positive [.run (.sequence codes)] numbers ways := by
  refine performs.enter (.sequence ?_) fun origin continued machine rest => ?_
  · refine (List.forall₂_map_right_iff.mp (List.forall₂_map_left_iff.mp performs.stable)).imp ?_
    intro code other alike
    cases alike with
    | run inner => exact inner
  · rw [start, List.foldr_cons_eq_append]

/-! ## Alternatives -/

theorem choice_nil : Performs positive [.run (.choice [])] [] (fun _ => []) where
  stable := .cons (.run (.choice .nil)) .nil
  tries := by
    rintro origin continued rest place slots result - - ⟨held, backtracks, isHeld, gives⟩
    exact tries_of_unmatched gives rfl _ _

theorem choice_single (performs : Performs positive [.run code] numbers ways) :
    Performs positive [.run (.choice [code])] numbers ways :=
  performs.enter (.choice (.cons performs.alike .nil)) fun _ _ _ _ => rfl

theorem choice_cons {other : Code} (isFirst : Performs positive [.run code] numbers ways)
    (areOthers : Performs positive [.run (.choice (other :: codes))] others next) :
    Performs positive [.run (.choice (code :: other :: codes))] (numbers ++ others)
      (ways.orElse next) where
  stable := by
    cases areOthers.alike with
    | choice each => exact .cons (.run (.choice (.cons isFirst.alike each))) .nil
  tries := by
    rintro origin continued rest place slots result stable fresh ⟨held, backtracks, isHeld, gives⟩
    refine tries_of_fork (List.rel_append isFirst.stable stable) isHeld (gives.onward rfl) ?_ ?_
    · exact fun _ => isFirst.tries stable (fresh.mono (List.subset_append_left _ _))
    · exact fun _ => areOthers.tries stable (fresh.mono (List.subset_append_right _ _))

/-! ## Parts left to an automaton -/

theorem get?_noteGroups (noZero : 0 ∉ Node.groupsOf nodes) {way : Place × Slots}
    (isWay : way ∈ Node.waysOf nodes place) (isHeld : held.get? = slots.get?)
    (fresh : slots.IsFresh (Node.skippedOf nodes)) :
    Slots.get? (noteGroups (Node.groupsOf nodes)
        ((1, some way.1) :: (way.2 ++ [(0, some place)])) held) =
      Slots.get? (way.2 ++ slots) := by
  funext slot
  rw [Slots.get?_eq_effect, noteGroups_append, Slots.effect_append, Effect.andThen_apply,
    noteGroups_effect, Slots.get?_append way.2]
  by_cases isGroup : slot / 2 ∈ Node.groupsOf nodes
  · have behindZero : slot ≠ 0 ∧ slot ≠ 1 := by
      constructor <;> rintro rfl <;> exact noZero isGroup
    have isStart : Slots.get? [(0, some place)] slot = none := by
      simp [Slots.get?, behindZero.1.symm]
    have isFound : Slots.get? ((1, some way.1) :: (way.2 ++ [(0, some place)])) slot =
        Slots.get? (way.2 ++ [(0, some place)]) slot := by
      simp [Slots.get?, behindZero.2.symm]
    rw [if_pos isGroup, isFound, Slots.get?_append, isStart]
    split
    · rfl
    · rename_i unnoted
      refine (fresh slot ?_).symm
      refine Classical.byContradiction fun marked => unnoted ?_
      exact Node.waysOf_marks nodes isGroup marked place way isWay slot rfl
  · have unnoted : slot ∉ way.2.map Prod.fst := by
      intro member
      obtain ⟨entry, isEntry, rfl⟩ := List.mem_map.mp member
      exact isGroup (Node.waysOf_notes nodes place way isWay entry isEntry)
    rw [if_neg isGroup, if_neg unnoted, Option.none_or, ← Slots.get?_eq_effect, isHeld]

theorem piece (steady : Node.areSteady nodes = true)
    (within : ∀ number ∈ Node.groupsOf nodes, 0 < number ∧ 2 * number + 1 < bound) :
    Performs positive [.run (.piece (.forNodes nodes) (Node.groupsOf nodes))]
      (Node.skippedOf nodes) (fun place => (Node.waysOf nodes place).take 1) where
  stable := by
    have same : Slots.rename (fun number => number) = id := by
      funext slots
      simp [Slots.rename, renameSlot, Nat.div_add_mod]
    have alike := @Code.Alike.piece (.same bound positive) (.forNodes nodes) (.forNodes nodes)
      (Node.groupsOf nodes) (fun place => by simp [Renumbering.same, same])
      fun number member => (within number member).2
    have isGroups : (Node.groupsOf nodes).map (Renumbering.same bound positive).map =
        Node.groupsOf nodes := List.map_id' _
    rw [isGroups] at alike
    exact .cons (.run alike) .nil
  tries := by
    rintro origin continued rest place slots result stable fresh ⟨held, backtracks, isHeld, gives⟩
    have isMatch := Automaton.matchAt?_eq_head steady place
    cases isWays : Node.waysOf nodes place with
    | nil =>
      rw [isWays] at isMatch
      refine tries_of_unmatched gives ?_ _ _
      simp [Machine.step, start, resume, isMatch, fail]
    | cons way others =>
      rw [isWays] at isMatch
      have isWay : way ∈ Node.waysOf nodes place := by
        rw [isWays]
        exact List.mem_cons_self
      have noZero : 0 ∉ Node.groupsOf nodes := fun member =>
        absurd (within 0 member).1 (Nat.lt_irrefl 0)
      refine .single ⟨_, backtracks, get?_noteGroups noZero isWay isHeld fresh,
        gives.onward ?_⟩
      have isStop : Slots.get? ((1, some way.1) :: (way.2 ++ [(0, some place)])) 1 =
          some way.1 := rfl
      simp only [Machine.step, resume, List.cons_append, List.nil_append, start, isMatch,
        List.head?_cons, Option.map_some, isStop]

/-! ## Loops -/

theorem optional (performs : Performs positive [.run code] numbers ways) (greedy : Bool) :
    Performs positive [.run (.optional greedy code)] numbers (.fork greedy ways .stay) where
  stable := .cons (.run (.optional performs.alike)) .nil
  tries := by
    rintro origin continued rest place slots result stable fresh ⟨held, backtracks, isHeld, gives⟩
    cases greedy with
    | true =>
      exact tries_of_fork (List.rel_append performs.stable stable) isHeld (gives.onward rfl)
        (fun _ => performs.tries stable fresh) fun _ => .stay
    | false =>
      exact tries_of_fork stable isHeld (gives.onward rfl) (fun _ => .stay)
        fun _ => performs.tries stable fresh

theorem tries_of_loop {onward rest : List Task} {origin : Nat} {continued : Bool} {backtracks : Nat}
    {result : Option Slots}
    (stable : List.Forall₂ (Task.Alike (.same bound positive) 1) onward onward)
    (restStable : List.Forall₂ (Task.Alike (.same bound positive) 1) rest rest)
    (isHeld : Slots.get? held = slots.get?) (gives : Gives origin continued
      (resume { tasks, place, slots := held, marks := [] } [] backtracks) result)
    (step : (resume { tasks, place, slots := held, marks := [] } [] backtracks).step origin
        continued =
      (resume { tasks, place, slots := held, marks := [] } [] backtracks).loop true greedy onward
        rest) (goesRound : ∀ result, Comes origin continued onward place slots result →
      Ways.Tries (Comes origin continued rest) slots (ways place) result) :
    Ways.Tries (Comes origin continued rest) slots (Ways.fork greedy ways .stay place) result := by
  cases greedy with
  | true => exact tries_of_fork stable isHeld (gives.onward step) goesRound fun _ => .stay
  | false => exact tries_of_fork restStable isHeld (gives.onward step) (fun _ => .stay) goesRound

/-- A loop that can always be left is gone round as often as its body matches. -/
theorem loop (again : Nat → Task) (body : Performs positive [.run code] [] ways)
    (consumes : ways.Consumes)
    (alike : ∀ count, Task.Alike (.same bound positive) 1 (again count) (again count))
    (steps : ∀ {origin : Nat} {continued : Bool} {machine : Machine} {count : Nat}
      {rest : List Task}, machine.tasks = again count :: rest →
      machine.step origin continued =
        machine.loop true greedy (.run code :: again (count + 1) :: rest) rest) (count : Nat) :
    Performs positive [again count] [] (ways.star greedy) where
  stable := .cons (alike count) .nil
  tries := by
    intro origin continued rest place slots result stable fresh comes
    generalize length : place.after.length = left
    induction left using Nat.strongRecOn generalizing count place slots result with
    | ind left ih =>
      obtain ⟨held, backtracks, isHeld, gives⟩ := comes
      rw [Ways.star_eq consumes]
      have again := List.Forall₂.cons (alike (count + 1)) stable
      refine tries_of_loop (List.rel_append body.stable again) stable isHeld gives (steps rfl)
        fun result comes => .andThen ((body.tries again (.nil _) comes).imp ?_)
      intro way member result goesOn
      have shorter := consumes place way member
      exact ih _ (by omega) (count + 1) (.nil _) goesOn rfl

theorem star (body : Performs positive [.run code] [] ways) (consumes : ways.Consumes)
    (greedy : Bool) : Performs positive [.star greedy code] [] (ways.star greedy) :=
  body.loop (fun _ => .star greedy code) consumes (fun _ => .star body.alike)
    (fun isTask => by rw [Machine.step, isTask]) 0

theorem counted_none (body : Performs positive [.run code] [] ways) (consumes : ways.Consumes)
    (greedy : Bool) (left : Nat) (isLeft : count + left = least) :
    Performs positive [.counted least none greedy code count] []
      ((ways.copies left).andThen (ways.star greedy)) := by
  induction left generalizing count with
  | zero =>
    obtain rfl : count = least := isLeft
    rw [Ways.copies, Ways.stay_andThen]
    refine body.loop (fun more => .counted count none greedy code (count + more))
      consumes (fun _ => .counted body.alike) (fun isTask => ?_) 0
    simp [Machine.step, isTask, Nat.add_assoc]
  | succ left ih =>
    have onward := @ih (count + 1) (by omega)
    have round := body.append onward fun _ _ _ _ _ => .nil _
    rw [Ways.copies, Ways.andThen_assoc]
    refine ⟨.cons (.counted body.alike) .nil, ?_⟩
    rintro origin continued rest place slots result stable fresh ⟨held, backtracks, isHeld, gives⟩
    refine round.tries stable fresh ⟨held, backtracks, isHeld, gives.onward ?_⟩
    have tooFew : ¬ least ≤ count := by omega
    simp [Machine.step, resume, Machine.loop, tooFew, goOn]

theorem counted_some (body : Performs positive [.run code] [] ways) (greedy : Bool) {most : Nat}
    (order : least ≤ most) (left : Nat) (isLeft : count + left = most) :
    Performs positive [.counted least (some most) greedy code count] []
      ((ways.copies (least - count)).andThen (ways.atMost greedy (most - max count least))) := by
  induction left generalizing count with
  | zero =>
    obtain rfl : count = most := isLeft
    rw [Nat.sub_eq_zero_of_le order, Nat.max_eq_left order, Nat.sub_self, Ways.copies,
      Ways.atMost, Ways.stay_andThen]
    refine ⟨.cons (.counted body.alike) .nil, ?_⟩
    rintro origin continued rest place slots result stable fresh ⟨held, backtracks, isHeld, gives⟩
    refine .stay ⟨held, backtracks, isHeld, gives.onward ?_⟩
    simp [Machine.step, resume, goOn]
  | succ left ih =>
    have onward := @ih (count + 1) (by omega)
    have round := body.append onward fun _ _ _ _ _ => .nil _
    have unfinished : most ≠ count := by omega
    refine ⟨.cons (.counted body.alike) .nil, ?_⟩
    rintro origin continued rest place slots result stable fresh ⟨held, backtracks, isHeld, gives⟩
    by_cases enough : least ≤ count
    · have isCopies : least - count = 0 := by omega
      have otherCopies : least - (count + 1) = 0 := by omega
      have isMore : most - max count least = (most - max (count + 1) least) + 1 := by omega
      rw [otherCopies, Ways.copies, Ways.stay_andThen] at round
      rw [isCopies, isMore, Ways.copies, Ways.stay_andThen, Ways.atMost]
      refine tries_of_loop (List.rel_append round.stable stable) stable isHeld gives ?_
        fun result => round.tries stable fresh
      simp [Machine.step, resume, unfinished, enough]
    · have isCopies : least - count = (least - (count + 1)) + 1 := by omega
      have isMore : max count least = max (count + 1) least := by omega
      rw [isCopies, isMore, Ways.copies, Ways.andThen_assoc]
      refine round.tries stable fresh ⟨held, backtracks, isHeld, gives.onward ?_⟩
      simp [Machine.step, resume, Machine.loop, unfinished, enough, goOn]

theorem unbounded (isPositive : 0 < inner.least) (body : Performs positive [.run code] [] ways)
    (consumes : ways.Consumes) (register : Nat) (greedy : Bool) (least : Nat) :
    Performs positive [.run (Code.repetition register inner least none greedy code)] []
      (ways.repetition greedy least none) := by
  have star := body.star consumes greedy
  cases least with
  | zero =>
    have isCode : Code.repetition register inner 0 none greedy code = .star greedy code := by
      simp [Code.repetition, Nat.ne_of_gt isPositive]
    rw [isCode, Ways.repetition, Ways.copies, Ways.stay_andThen]
    exact star.enter (.star body.alike) fun _ _ _ _ => rfl
  | succ least =>
    cases least with
    | zero =>
      have isCode : Code.repetition register inner 1 none greedy code =
          .plus greedy code := by
        simp [Code.repetition, Nat.ne_of_gt isPositive]
      rw [isCode, Ways.repetition, Ways.copies, Ways.copies, Ways.andThen_stay]
      exact (body.append star fun _ _ _ _ _ => .nil _).enter (.plus body.alike)
        fun _ _ _ _ => rfl
    | succ least =>
      have isCode : Code.repetition register inner (least + 2) none greedy code =
          .counted (least + 2) none greedy code := by
        simp [Code.repetition, Nat.ne_of_gt isPositive]
      rw [isCode]
      exact (body.counted_none consumes greedy (least + 2) (Nat.zero_add _)).enter
        (.counted body.alike) fun _ _ _ _ => rfl

/-- A repetition is gone round as its bounds say. -/
theorem repetition {most : Option Nat} (body : Performs positive [.run code] numbers ways)
    (register : Nat) (greedy : Bool) (consumes : most = none → 0 < inner.least ∧ ways.Consumes)
    (order : ∀ bound, most = some bound → least ≤ bound)
    (unlisted : least = 0 ∧ most = some 1 ∨ numbers = []) :
    Performs positive [.run (Code.repetition register inner least most greedy code)] numbers
      (ways.repetition greedy least most) := by
  by_cases isOptional : least = 0 ∧ most = some 1
  · obtain ⟨rfl, rfl⟩ := isOptional
    have isWays : ways.repetition greedy 0 (some 1) = .fork greedy ways .stay := by
      rw [Ways.repetition, Ways.copies, Ways.stay_andThen]
      simp [Ways.atMost, Ways.andThen_stay]
    rw [isWays]
    exact body.optional greedy
  · obtain rfl := unlisted.resolve_left isOptional
    cases most with
    | some most =>
      have isCode : Code.repetition register inner least (some most) greedy code =
          .counted least (some most) greedy code := by
        unfold Code.repetition
        split
        · simp_all
        · simp_all
        · rename_i same
          cases same
          rfl
      rw [isCode]
      have counted := body.counted_some greedy (order most rfl) most (Nat.zero_add most)
      rw [Nat.zero_max, Nat.sub_zero] at counted
      exact counted.enter (.counted body.alike) fun _ _ _ _ => rfl
    | none =>
      obtain ⟨isPositive, consumes⟩ := consumes rfl
      exact body.unbounded isPositive consumes register greedy least

end Performs

end Machine

end Highlighter.Regex

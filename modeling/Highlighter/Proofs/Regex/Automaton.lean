import Highlighter.Proofs.Regex.Matching

/-!
# What automata find

Whatever an automaton notes when it accepts is noted by a match of the nodes it was made from.
The argument goes backward: if a state that a thread moves to can come to accept, so can the state
it comes from, and a way to accept from a fragment begins with a match of its node.
-/
namespace Highlighter.Regex
namespace Automaton

variable {automaton : Automaton} {place : Place} {state moves : Nat} {before after : Effect}
  {base : Nat} {states : List State}

/-- The states that follow a state without a character. -/
def nexts (automaton : Automaton) (place : Place) (state : Nat) : List Nat :=
  match automaton.states[state]? with
  | some (.check assertion) => if assertion.holds place then [state + 1] else []
  | some (.save _) => [state + 1]
  | some (.fork first second) => [first, second]
  | some (.jump target) => [target]
  | _ => []

def note (automaton : Automaton) (place : Place) (state : Nat) : Effect :=
  match automaton.states[state]? with
  | some (.save slot) => .write slot place
  | _ => .skip

def IsFinal (automaton : Automaton) (state : Nat) : Prop :=
  automaton.states[state]? = some .accept

instance (automaton : Automaton) (state : Nat) : Decidable (automaton.IsFinal state) :=
  inferInstanceAs (Decidable (automaton.states[state]? = some .accept))

/-- From a state at a place the automaton can come to accept in so many moves. -/
inductive Completes (automaton : Automaton) :
    (moves state : Nat) → Place → (before after : Effect) → Prop where
  | accept {state : Nat} {place : Place} {before : Effect} (isFinal : automaton.IsFinal state) :
      Completes automaton 0 state place before before
  | consume {moves state : Nat} {set : CharSet} {char : Char} {place next : Place}
      {before after : Effect} (isState : automaton.states[state]? = some (.consume set))
      (step : place.next? = some (char, next)) (member : set.contains char)
      (rest : Completes automaton moves (state + 1) next before after) :
      Completes automaton (moves + 1) state place before after
  | move {moves state next : Nat} {place : Place} {before after : Effect}
      (follows : next ∈ automaton.nexts place state)
      (rest : Completes automaton moves next place
        (before.andThen (automaton.note place state)) after) :
      Completes automaton (moves + 1) state place before after

def Accepts (automaton : Automaton) (place : Place) (after : Effect) : Prop :=
  ∃ moves, Completes automaton moves 0 place .skip after

/-! ## Fragments -/

def Has (automaton : Automaton) (base : Nat) (states : List State) : Prop :=
  ∀ position state, states[position]? = some state →
    automaton.states[base + position]? = some state

theorem Has.head {state : State} (has : automaton.Has base (state :: states)) :
    automaton.states[base]? = some state :=
  has 0 state rfl

theorem Has.tail {state : State} (has : automaton.Has base (state :: states)) :
    automaton.Has (base + 1) states := by
  intro position other listed
  have found := has (position + 1) other (by simpa using listed)
  rwa [show base + (position + 1) = base + 1 + position by omega] at found

theorem Has.left {first second : List State} (has : automaton.Has base (first ++ second)) :
    automaton.Has base first := by
  intro position state listed
  have inRange := (List.getElem?_eq_some_iff.mp listed).1
  exact has position state (by rwa [List.getElem?_append_left inRange])

theorem Has.right {first second : List State} (has : automaton.Has base (first ++ second)) :
    automaton.Has (base + first.length) second := by
  intro position state listed
  have found := has (first.length + position) state (by
    rwa [List.getElem?_append_right (by omega), Nat.add_sub_cancel_left])
  rwa [← Nat.add_assoc] at found

/-- Every way to accept from one state goes on from another one, behind something that
matches. -/
def Crosses (automaton : Automaton) (base exit : Nat)
    (found : Place → Place → Effect → Prop) : Prop :=
  ∀ ⦃moves : Nat⦄ ⦃place : Place⦄ ⦃before after : Effect⦄,
    Completes automaton moves base place before after →
      ∃ fewer stop effect, fewer ≤ moves ∧ found place stop effect ∧
        Completes automaton fewer exit stop (before.andThen effect) after

theorem Crosses.imp {exit : Nat} {found other : Place → Place → Effect → Prop}
    (crosses : automaton.Crosses base exit found)
    (implies : ∀ {start stop effect}, found start stop effect → other start stop effect) :
    automaton.Crosses base exit other := by
  intro moves place before after completes
  obtain ⟨fewer, stop, effect, le, isFound, rest⟩ := crosses completes
  exact ⟨fewer, stop, effect, le, implies isFound, rest⟩

theorem Crosses.followedBy {base middle exit : Nat}
    {left right whole : Place → Place → Effect → Prop}
    (first : automaton.Crosses base middle left) (second : automaton.Crosses middle exit right)
    (join : ∀ {start between stop before behind}, left start between before →
      right between stop behind → whole start stop (before.andThen behind)) :
    automaton.Crosses base exit whole := by
  intro moves place before after completes
  obtain ⟨fewer, between, effect, le, isLeft, rest⟩ := first completes
  obtain ⟨least, stop, other, le', isRight, rest⟩ := second rest
  rw [Effect.andThen_assoc] at rest
  exact ⟨least, stop, _, Nat.le_trans le' le, join isLeft isRight, rest⟩

theorem Completes.onward {kind : State}
    (completes : Completes automaton moves state place before after)
    (isState : automaton.states[state]? = some kind) (moving : kind ≠ .accept)
    (passing : ∀ set, kind ≠ .consume set) :
    ∃ fewer next, fewer < moves ∧ next ∈ automaton.nexts place state ∧
      Completes automaton fewer next place (before.andThen (automaton.note place state)) after := by
  cases completes with
  | accept isFinal => exact absurd (Option.some.inj (isState.symm.trans isFinal)) moving
  | consume other => exact absurd (Option.some.inj (isState.symm.trans other)) (passing _)
  | move follows rest => exact ⟨_, _, Nat.lt_succ_self _, follows, rest⟩

theorem completes_accept (isFinal : automaton.IsFinal state)
    (completes : Completes automaton moves state place before after) : after = before := by
  cases completes with
  | accept => rfl
  | consume other => cases isFinal.symm.trans other
  | move follows =>
    simp [nexts, show automaton.states[state]? = some .accept from isFinal] at follows

theorem crosses_save {slot : Nat} (isState : automaton.states[state]? = some (.save slot)) :
    automaton.Crosses state (state + 1) fun start stop effect =>
      stop = start ∧ effect = .write slot start := by
  intro moves place before after completes
  obtain ⟨fewer, next, lt, follows, rest⟩ := completes.onward isState (by simp) (by simp)
  obtain rfl : next = state + 1 := by simpa [nexts, isState] using follows
  exact ⟨fewer, place, _, Nat.le_of_lt lt, ⟨rfl, by simp [note, isState]⟩, rest⟩

theorem crosses_consume {set : CharSet}
    (isState : automaton.states[state]? = some (.consume set)) :
    automaton.Crosses state (state + 1) fun start stop effect =>
      effect = .skip ∧ ∃ char, start.next? = some (char, stop) ∧ set.contains char := by
  intro moves place before after completes
  cases completes with
  | accept isFinal => cases isState.symm.trans isFinal
  | consume other step member rest =>
    cases isState.symm.trans other
    exact ⟨_, _, .skip, Nat.le_succ _, ⟨rfl, _, step, member⟩, rest⟩
  | move follows => simp [nexts, isState] at follows

theorem crosses_check {assertion : Assertion}
    (isState : automaton.states[state]? = some (.check assertion)) :
    automaton.Crosses state (state + 1) fun start stop effect =>
      stop = start ∧ effect = .skip ∧ assertion.holds start := by
  intro moves place before after completes
  obtain ⟨fewer, next, lt, follows, rest⟩ := completes.onward isState (by simp) (by simp)
  obtain ⟨holds, rfl⟩ : assertion.holds place ∧ next = state + 1 := by
    simpa [nexts, isState] using follows
  exact ⟨fewer, place, _, Nat.le_of_lt lt, ⟨rfl, by simp [note, isState], holds⟩, rest⟩

theorem completes_jump {target : Nat} (isState : automaton.states[state]? = some (.jump target))
    (completes : Completes automaton moves state place before after) :
    ∃ fewer, fewer < moves ∧ Completes automaton fewer target place before after := by
  obtain ⟨fewer, next, lt, follows, rest⟩ := completes.onward isState (by simp) (by simp)
  obtain rfl : next = target := by simpa [nexts, isState] using follows
  exact ⟨fewer, lt, by simpa [note, isState] using rest⟩

theorem completes_fork {onward exit : Nat} {greedy : Bool}
    (isState : automaton.states[state]? = some (Fragment.fork greedy onward exit))
    (completes : Completes automaton moves state place before after) :
    ∃ fewer, fewer < moves ∧ (Completes automaton fewer onward place before after ∨
      Completes automaton fewer exit place before after) := by
  have isFork : ∃ first second, Fragment.fork greedy onward exit = .fork first second ∧
      ∀ next ∈ [first, second], next = onward ∨ next = exit := by
    cases greedy
    · exact ⟨exit, onward, rfl, by simp⟩
    · exact ⟨onward, exit, rfl, by simp⟩
  obtain ⟨first, second, isFork, either⟩ := isFork
  rw [isFork] at isState
  obtain ⟨fewer, next, lt, follows, rest⟩ := completes.onward isState (by simp) (by simp)
  simp only [nexts, note, isState, Effect.andThen_skip] at follows rest
  refine ⟨fewer, lt, ?_⟩
  rcases either next follows with rfl | rfl
  · exact .inl rest
  · exact .inr rest

/-! ## Loops -/

/-- Nodes match any number of times. -/
inductive Iterates (nodes : List Node) : Place → Place → Effect → Prop where
  | stop {place : Place} : Iterates nodes place place .skip
  | once {start middle stop : Place} {left right : Effect}
      (first : Matches nodes start middle left) (others : Iterates nodes middle stop right) :
      Iterates nodes start stop (left.andThen right)

theorem Iterates.append {nodes : List Node} {start middle stop : Place} {left right : Effect}
    (first : Iterates nodes start middle left) (second : Iterates nodes middle stop right) :
    Iterates nodes start stop (left.andThen right) := by
  induction first with
  | stop =>
    rw [Effect.skip_andThen]
    exact second
  | once first others ih =>
    rw [Effect.andThen_assoc]
    exact .once first (ih second)

theorem Iterates.repetition {node : Node} {start stop : Place} {effect : Effect}
    (iterates : Iterates [node] start stop effect) (least : Nat) (most : Option Nat)
    (greedy : Bool) : Matches [.repetition node least most greedy] start stop effect := by
  induction iterates with
  | stop => exact .leave
  | once first others ih => exact .again first ih

end Automaton

namespace Fragment

open Automaton (Iterates Completes)

variable {automaton : Automaton}

/-- The states of a fragment find something wherever they stand. -/
def Finds (automaton : Automaton) (fragment : Fragment)
    (found : Place → Place → Effect → Prop) : Prop :=
  ∀ base, automaton.Has base (fragment base) →
    automaton.Crosses base (base + (fragment base).length) found

theorem finds_nothing {found : Place → Place → Effect → Prop}
    (skips : ∀ place, found place place .skip) : Finds automaton (fun _ => []) found := by
  intro base _ moves place before after completes
  exact ⟨moves, place, .skip, Nat.le_refl _, skips place, completes⟩

theorem Finds.followedBy {first second : Fragment}
    {left right whole : Place → Place → Effect → Prop}
    (firstFinds : Finds automaton first left) (secondFinds : Finds automaton second right)
    (join : ∀ {start between stop before behind}, left start between before →
      right between stop behind → whole start stop (before.andThen behind)) :
    Finds automaton (first.followedBy second) whole := by
  intro base has
  simp only [Fragment.followedBy, List.length_append, ← Nat.add_assoc] at has ⊢
  exact (firstFinds base has.left).followedBy (secondFinds _ has.right) join

variable {body : Fragment} {nodes : List Node} (finds : Finds automaton body (Matches nodes))

include finds

theorem finds_copies (count : Nat) : Finds automaton (copies body count) (Iterates nodes) := by
  induction count with
  | zero => exact finds_nothing fun _ => .stop
  | succ count ih =>
    exact finds.followedBy ih fun first others => .once first others

theorem finds_atMost (greedy : Bool) (count : Nat) :
    Finds automaton (atMost greedy body count) (Iterates nodes) := by
  induction count with
  | zero => exact finds_nothing fun _ => .stop
  | succ count ih =>
    have inner := @Finds.followedBy automaton _ _ _ _ (Iterates nodes) finds
      ih fun first others => .once first others
    intro base has moves place before after completes
    simp only [atMost, List.length_cons] at has ⊢
    obtain ⟨fewer, lt, goesOn | leaves⟩ := Automaton.completes_fork has.head completes
    · obtain ⟨least, stop, effect, le, iterates, rest⟩ := inner (base + 1) has.tail goesOn
      refine ⟨least, stop, effect, by omega, iterates, ?_⟩
      rwa [Nat.add_assoc, Nat.add_comm 1] at rest
    · refine ⟨fewer, place, .skip, Nat.le_of_lt lt, .stop, ?_⟩
      rwa [Nat.add_assoc, Nat.add_comm 1] at leaves

theorem finds_plus (greedy : Bool) : Finds automaton (plus greedy body) (Iterates nodes) := by
  intro base has moves
  simp only [plus, List.length_append, List.length_singleton, ← Nat.add_assoc] at has ⊢
  induction moves using Nat.strongRecOn with
  | ind moves ih =>
    intro place before after completes
    obtain ⟨fewer, middle, effect, le, matched, rest⟩ := finds base has.left completes
    obtain ⟨least, lt, goesOn | leaves⟩ := Automaton.completes_fork has.right.head rest
    · obtain ⟨last, stop, other, le', iterates, rest⟩ :=
        ih least (by omega) goesOn
      rw [Effect.andThen_assoc] at rest
      exact ⟨last, stop, _, by omega, .once matched iterates, rest⟩
    · refine ⟨least, middle, effect, by omega, ?_, leaves⟩
      have once : Iterates nodes place middle (effect.andThen .skip) := .once matched .stop
      rwa [Effect.andThen_skip] at once

theorem finds_star (greedy nullable : Bool) :
    Finds automaton (star greedy nullable body) (Iterates nodes) := by
  intro base has
  have exit : base + (star greedy nullable body base).length =
      base + 2 + (body (base + 1)).length := by
    simp only [star, List.length_cons, List.length_append, List.length_nil]
    omega
  rw [exit]
  simp only [star] at has
  -- From the body on: once around, and then the last state leads back or out.
  have fromBody : automaton.Crosses (base + 1) (base + 2 + (body (base + 1)).length)
      (Iterates nodes) := by
    intro moves
    induction moves using Nat.strongRecOn with
    | ind moves ih =>
      intro place before after completes
      obtain ⟨fewer, middle, effect, le, matched, rest⟩ :=
        finds (base + 1) has.tail.left completes
      have once : Iterates nodes place middle effect := by
        have single : Iterates nodes place middle (effect.andThen .skip) :=
          .once matched .stop
        rwa [Effect.andThen_skip] at single
      have around : ∃ least, least < fewer ∧
          (Completes automaton least (base + 1) middle (before.andThen effect) after ∨
            Completes automaton least (base + 2 + (body (base + 1)).length) middle
              (before.andThen effect) after) := by
        cases nullable with
        | true => exact Automaton.completes_fork has.tail.right.head rest
        | false =>
          obtain ⟨least, lt, atBase⟩ := Automaton.completes_jump has.tail.right.head rest
          obtain ⟨last, lt', way⟩ := Automaton.completes_fork has.head atBase
          exact ⟨last, by omega, way⟩
      obtain ⟨least, lt, goesOn | leaves⟩ := around
      · obtain ⟨last, stop, other, le', iterates, rest⟩ :=
          ih least (by omega) goesOn
        rw [Effect.andThen_assoc] at rest
        exact ⟨last, stop, _, by omega, .once matched iterates, rest⟩
      · exact ⟨least, middle, effect, by omega, once, leaves⟩
  intro moves place before after completes
  obtain ⟨fewer, lt, goesOn | leaves⟩ := Automaton.completes_fork has.head completes
  · obtain ⟨least, stop, effect, le, iterates, rest⟩ := fromBody goesOn
    exact ⟨least, stop, effect, by omega, iterates, rest⟩
  · exact ⟨fewer, place, .skip, Nat.le_of_lt lt, .stop, leaves⟩

theorem finds_repetition (greedy nullable : Bool) (least : Nat) (most : Option Nat) :
    Finds automaton (repetition greedy nullable body least most) (Iterates nodes) := by
  cases most with
  | none =>
    cases least with
    | zero => exact finds_star finds greedy nullable
    | succ least =>
      exact (finds_copies finds least).followedBy (finds_plus finds greedy)
        fun first second => first.append second
  | some most =>
    have finds' := (finds_copies finds least).followedBy
      (finds_atMost finds greedy (most - least))
      fun first second => first.append second
    cases least <;> exact finds'

end Fragment

namespace Node

open Automaton (Crosses)

variable {automaton : Automaton}

theorem finds_impossible (found : Place → Place → Effect → Prop) :
    Fragment.Finds automaton (fun _ => [.consume .empty]) found := by
  intro base has
  refine (Automaton.crosses_consume has.head).imp ?_
  rintro start stop effect ⟨-, char, -, member⟩
  cases member

mutual

theorem fragment_finds : (node : Node) → Fragment.Finds automaton node.fragment (Matches [node])
  | .empty => by
      have finds := @Fragment.finds_nothing automaton (Matches [.empty]) fun _ => .empty
      exact finds
  | .consume set => by
      intro base has
      refine (Automaton.crosses_consume has.head).imp ?_
      rintro start stop effect ⟨rfl, char, step, member⟩
      exact .consume step member
  | .literal expected => by
      intro base has
      refine (Automaton.crosses_consume has.head).imp ?_
      rintro start stop effect ⟨rfl, char, step, member⟩
      exact .literal step member
  | .check assertion => by
      intro base has
      refine (Automaton.crosses_check has.head).imp ?_
      rintro start stop effect ⟨rfl, rfl, holds⟩
      exact .check holds
  | .concat nodes => by
      intro base has
      exact (sequenceFragment_finds nodes base has).imp .concat
  | .alternation nodes => by
      intro base has
      refine (choiceFragment_finds nodes base has).imp ?_
      rintro start stop effect ⟨node, member, matched⟩
      exact .alternation member matched
  | .group number node => by
      intro base has moves place before after completes
      obtain ⟨fewer, start, effect, le, ⟨rfl, rfl⟩, rest⟩ :=
        Automaton.crosses_save has.head completes
      obtain ⟨least, stop, effect, le', matched, rest⟩ :=
        fragment_finds node (base + 1) has.tail.left rest
      obtain ⟨last, end', effect', le'', ⟨rfl, rfl⟩, rest⟩ :=
        Automaton.crosses_save has.tail.right.head rest
      rw [Effect.andThen_assoc, Effect.andThen_assoc] at rest
      refine ⟨last, _, _, by omega, .group matched, ?_⟩
      simp only [fragment, List.length_cons, List.length_append, List.length_nil]
      rwa [show base + ((fragment node (base + 1)).length + (0 + 1) + 1) =
        base + 1 + (fragment node (base + 1)).length + 1 by omega]
  | .repetition node least most greedy => by
      intro base has
      have finds := Fragment.finds_repetition (fragment_finds node) greedy
        ((node.measure []).least == 0) (effectiveBounds (node.measure []) least most).1
        (effectiveBounds (node.measure []) least most).2
      refine (finds base has).imp ?_
      intro start stop effect iterates
      exact iterates.repetition least most greedy
  | .look _ _ _ => finds_impossible _
  | .reference _ => finds_impossible _
  | .atomic _ => finds_impossible _
  | .keepOut => finds_impossible _
  | .searchStart => finds_impossible _
  | .groupMatched _ => finds_impossible _
  | .conditional _ _ _ => finds_impossible _

theorem sequenceFragment_finds :
    (nodes : List Node) → Fragment.Finds automaton (sequenceFragment nodes) (Matches nodes)
  | [] => by
      have finds := @Fragment.finds_nothing automaton (Matches []) fun _ => .nil
      exact finds
  | node :: nodes => by
      have finds := (fragment_finds node).followedBy (sequenceFragment_finds nodes)
        fun first second => Matches.append first second
      exact finds

theorem choiceFragment_finds :
    (nodes : List Node) → Fragment.Finds automaton (choiceFragment nodes)
      fun start stop effect => ∃ node ∈ nodes, Matches [node] start stop effect
  | [] => finds_impossible _
  | [node] => by
      intro base has
      refine (fragment_finds node base has).imp ?_
      intro start stop effect matched
      exact ⟨node, List.mem_singleton_self node, matched⟩
  | node :: other :: nodes => by
      intro base has moves place before after completes
      have exit : base + (choiceFragment (node :: other :: nodes) base).length =
          base + 2 + (fragment node (base + 1)).length +
            (choiceFragment (other :: nodes)
              (base + 2 + (fragment node (base + 1)).length)).length := by
        simp only [choiceFragment, List.length_cons, List.length_append]
        omega
      rw [exit]
      simp only [choiceFragment] at has
      obtain ⟨fewer, lt, takesFirst | takesOther⟩ :=
        @Automaton.completes_fork _ _ _ _ _ _ _ _ true has.head completes
      · obtain ⟨least, stop, effect, le, matched, rest⟩ :=
          fragment_finds node (base + 1) has.tail.left takesFirst
        obtain ⟨last, lt', rest⟩ := Automaton.completes_jump has.tail.right.head rest
        exact ⟨last, stop, effect, by omega, ⟨node, by simp, matched⟩, rest⟩
      · have behind : base + 1 + (fragment node (base + 1)).length + 1 =
            base + 2 + (fragment node (base + 1)).length := by omega
        obtain ⟨least, stop, effect, le, ⟨found, member, matched⟩, rest⟩ :=
          choiceFragment_finds (other :: nodes) _ (behind ▸ has.tail.right.tail) takesOther
        exact ⟨least, stop, effect, by omega,
          ⟨found, List.mem_cons_of_mem _ member, matched⟩, rest⟩

end

end Node

namespace Automaton

variable {automaton : Automaton} {nodes : List Node}

theorem ofNodes_ok (made : ofNodes nodes = .ok automaton) :
    automaton.states =
      (.save 0 :: (Node.sequenceFragment nodes 1 ++ [.save 1, .accept])).toArray := by
  unfold ofNodes at made
  split at made
  · cases made
  · split at made
    · cases made
    · cases made
      rfl

/-- What an automaton made of nodes notes when it accepts: the beginning, what the nodes
note in matching, and the end. -/
theorem Accepts.matches
    (isStates : automaton.states =
      (.save 0 :: (Node.sequenceFragment nodes 1 ++ [.save 1, .accept])).toArray)
    {place : Place} {after : Effect} (accepts : Accepts automaton place after) :
    ∃ stop effect, Matches nodes place stop effect ∧
      after = (Effect.write 0 place).andThen (effect.andThen (.write 1 stop)) := by
  have has :
      automaton.Has 0 (.save 0 :: (Node.sequenceFragment nodes 1 ++ [.save 1, .accept])) := by
    intro position state listed
    rw [isStates, Nat.zero_add]
    simpa using listed
  obtain ⟨moves, completes⟩ := accepts
  obtain ⟨fewer, start, effect, -, ⟨rfl, rfl⟩, rest⟩ := crosses_save has.head completes
  obtain ⟨least, stop, effect, -, matched, rest⟩ :=
    Node.sequenceFragment_finds nodes 1 has.tail.left rest
  obtain ⟨last, final, effect', -, ⟨rfl, rfl⟩, rest⟩ := crosses_save has.tail.right.head rest
  refine ⟨_, effect, matched, ?_⟩
  rw [Effect.skip_andThen, Effect.andThen_assoc] at rest
  exact completes_accept has.tail.right.tail.head rest

end Automaton
end Highlighter.Regex

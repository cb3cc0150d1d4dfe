import Highlighter.Proofs.Regex.Renaming

/-!
# Automata inside automata

States that match an expression do the same in every automaton, as long as what follows them
accepts right away.  So an automaton for several alternatives finds what the automata for
the alternatives find, tried one after another.
-/
namespace Highlighter.Regex

def Slots.rename (map : Nat → Nat) (slots : Slots) : Slots :=
  slots.map fun entry => (renameSlot map entry.1, entry.2)

namespace Automaton

variable {state base : Nat} {thread : Thread} {threads : List Thread} {waiting : List Waiting}
  {accepted : Option Slots} {states : List State} {nodes : List Node}

/-- A thread in a state further behind that has noted renamed groups, and something else
before. -/
def Thread.relocate (shift : Nat) (map : Nat → Nat) (noted : Slots) (thread : Thread) :
    Thread where
  state := thread.state + shift
  slots := thread.slots.rename map ++ noted

/-- A waiting thread that goes on further behind and has noted renamed groups, and something else
before. -/
def Waiting.relocate (shift : Nat) (map : Nat → Nat) (noted : Slots) (waiting : Waiting) :
    Waiting where
  set := waiting.set
  next := waiting.next + shift
  slots := waiting.slots.rename map ++ noted

/-! ## Relocated states -/

/-- The states of one automaton in a range stand in another one further behind.  They lead
to states in the range or to the one behind it. -/
structure Relocates (source target : Automaton) (map : Nat → Nat) (base length shift : Nat) :
    Prop where
  moved : ∀ state, base ≤ state → state < base + length →
    target.states[state + shift]? = source.states[state]?.map (State.relocate shift map)
  stays : ∀ state kind, base ≤ state → state < base + length →
    source.states[state]? = some kind →
    ∀ other ∈ kind.targets, base ≤ other ∧ other ≤ base + length

theorem mem_nexts {automaton : Automaton} {place : Place} {next : Nat}
    (follows : next ∈ automaton.nexts place state) :
    next = state + 1 ∨ ∃ kind, automaton.states[state]? = some kind ∧ next ∈ kind.targets := by
  unfold nexts at follows
  split at follows
  · split at follows
    · exact .inl (List.mem_singleton.mp follows)
    · cases follows
  · exact .inl (List.mem_singleton.mp follows)
  · exact .inr ⟨.fork _ _, ‹_›, follows⟩
  · exact .inr ⟨.jump _, ‹_›, follows⟩
  · cases follows

section Relocates

variable {source target : Automaton} {map : Nat → Nat} {base length shift : Nat} {place : Place}
  {noted : Slots} {result : Slots → Slots} {state : Nat} {thread : Thread}

theorem waits_next {waiting : Waiting} (isWaiting : waiting ∈ source.waits thread) :
    waiting.next = thread.state + 1 := by
  unfold Automaton.waits at isWaiting
  split at isWaiting
  · rw [List.mem_singleton.mp isWaiting]
  · cases isWaiting

namespace Relocates

variable (relocates : Relocates source target map base length shift)

include relocates

theorem nexts (above : base ≤ state) (below : state < base + length) :
    target.nexts place (state + shift) = (source.nexts place state).map (· + shift) := by
  rw [Automaton.nexts, Automaton.nexts, relocates.moved state above below]
  rcases source.states[state]? with _ | kind
  · rfl
  · cases kind with
    | check assertion =>
      simp only [Option.map_some, State.relocate]
      split <;> simp [Nat.add_right_comm]
    | save slot => simp [State.relocate, Nat.add_right_comm]
    | _ => rfl

theorem nexts_inside {next : Nat} (above : base ≤ state) (below : state < base + length)
    (follows : next ∈ source.nexts place state) : base ≤ next ∧ next ≤ base + length := by
  rcases mem_nexts follows with rfl | ⟨kind, isState, isTarget⟩
  · omega
  · exact relocates.stays state kind above below isState next isTarget

theorem moves (above : base ≤ thread.state) (below : thread.state < base + length) :
    target.moves place (thread.relocate shift map noted) =
      (source.moves place thread).map (Thread.relocate shift map noted) := by
  have sameNoted : target.noted place (thread.relocate shift map noted) =
      (source.noted place thread).rename map ++ noted := by
    rw [Automaton.noted, Automaton.noted, Thread.relocate,
      relocates.moved thread.state above below]
    rcases source.states[thread.state]? with _ | kind
    · rfl
    · cases kind <;> rfl
  have sameNexts : target.nexts place (thread.relocate shift map noted).state =
      (source.nexts place thread.state).map (· + shift) :=
    relocates.nexts above below
  rw [Automaton.moves, Automaton.moves, sameNoted, sameNexts, List.map_map, List.map_map]
  rfl

theorem waits (above : base ≤ thread.state) (below : thread.state < base + length) :
    target.waits (thread.relocate shift map noted) =
      (source.waits thread).map (Waiting.relocate shift map noted) := by
  rw [Automaton.waits, Automaton.waits, Thread.relocate, relocates.moved thread.state above below]
  rcases source.states[thread.state]? with _ | kind
  · rfl
  · cases kind with
    | consume set => simp [State.relocate, Waiting.relocate, Nat.add_right_comm]
    | _ => rfl

theorem isFinal_iff (above : base ≤ state) (below : state < base + length) :
    target.IsFinal (state + shift) ↔ source.IsFinal state := by
  rw [IsFinal, IsFinal, relocates.moved state above below]
  rcases source.states[state]? with _ | kind
  · simp
  · cases kind <;> simp [State.relocate]

end Relocates

/-- A thread in the state behind a range accepts at once, as long as only states in the
range have been entered. -/
def Exits (automaton : Automaton) (base length : Nat) (finish : Place → Slots → Slots) : Prop :=
  ∀ place slots threads seen,
    (∀ state, seen state → base ≤ state ∧ state < base + length) →
    ∃ after, automaton.Closes place ({ state := base + length, slots } :: threads) seen []
      (some (finish place slots)) after

/-- States of one automaton stand in another one, and both accept right behind them.  What the
one accepts is the result of what the other one accepts. -/
structure Embeds (source target : Automaton) (map : Nat → Nat) (noted : Slots)
    (result : Slots → Slots) (base length shift : Nat) :
    Prop extends Relocates source target map base length shift where
  moving : ∀ state, base ≤ state → state < base + length → ¬ source.IsFinal state
  exits : ∃ finish other, source.Exits base length finish ∧
    target.Exits (base + shift) length other ∧
    ∀ place slots, other place (slots.rename map ++ noted) = result (finish place slots)

theorem Embeds.closes (embeds : Embeds source target map noted result base length shift)
    {threads : List Thread} {seen after : Nat → Prop} {waiting : List Waiting}
    {accepted : Option Slots}
    (closes : source.Closes place threads seen waiting accepted after)
    (inside : ∀ thread ∈ threads, base ≤ thread.state ∧ thread.state ≤ base + length)
    (seenInside : ∀ state, seen state → base ≤ state ∧ state < base + length) :
    (∃ last, target.Closes place (threads.map (Thread.relocate shift map noted))
      (fun state => ∃ other, seen other ∧ state = other + shift)
      (waiting.map (Waiting.relocate shift map noted)) (accepted.map result) last) ∧
    ∀ thread ∈ waiting, base ≤ thread.next ∧ thread.next ≤ base + length := by
  obtain ⟨finish, other, exits, otherExits, commutes⟩ := embeds.exits
  -- Behind the range both accept at once, whatever else is to be done.
  have atExit : ∀ {thread : Thread} {threads : List Thread} {seen after : Nat → Prop}
      {waiting : List Waiting} {accepted : Option Slots},
      source.Closes place (thread :: threads) seen waiting accepted after →
      (∀ state, seen state → base ≤ state ∧ state < base + length) →
      thread.state = base + length →
      (∃ last, target.Closes place ((thread :: threads).map (Thread.relocate shift map noted))
        (fun state => ∃ other, seen other ∧ state = other + shift)
        (waiting.map (Waiting.relocate shift map noted)) (accepted.map result) last) ∧
      ∀ thread ∈ waiting, base ≤ thread.next ∧ thread.next ≤ base + length := by
    rintro ⟨state, slots⟩ threads seen after waiting accepted closes seenInside rfl
    obtain ⟨_, accepts⟩ := exits place slots threads seen seenInside
    obtain ⟨rfl, rfl⟩ := closes.unique accepts
    have otherAccepts := otherExits place (slots.rename map ++ noted)
      (threads.map (Thread.relocate shift map noted))
      (fun state => ∃ other, seen other ∧ state = other + shift) (by
        rintro state ⟨other, wasSeen, rfl⟩
        have bounds := seenInside other wasSeen
        omega)
    rw [commutes, Nat.add_right_comm] at otherAccepts
    exact ⟨otherAccepts, by simp⟩
  induction closes with
  | done => exact ⟨⟨_, .done⟩, by simp⟩
  | skip wasSeen others ih =>
    obtain ⟨⟨last, closes⟩, nextInside⟩ := ih
      (fun thread member => inside thread (List.mem_cons_of_mem _ member)) seenInside
    exact ⟨⟨last, .skip ⟨_, wasSeen, rfl⟩ closes⟩, nextInside⟩
  | accept isNew accepts =>
    rename_i thread threads seen
    obtain ⟨above, atMost⟩ := inside thread List.mem_cons_self
    rcases Nat.lt_or_eq_of_le atMost with below | isExit
    · exact absurd accepts (embeds.moving _ above below)
    · exact atExit (.accept isNew accepts) seenInside isExit
  | enter isNew moving others ih =>
    rename_i thread threads seen after waiting accepted
    obtain ⟨above, atMost⟩ := inside thread List.mem_cons_self
    rcases Nat.lt_or_eq_of_le atMost with below | isExit
    · obtain ⟨⟨last, closes⟩, nextInside⟩ := ih (by
          intro other member
          rcases List.mem_append.mp member with isMove | isOther
          · obtain ⟨next, follows, rfl⟩ := List.mem_map.mp isMove
            exact embeds.nexts_inside above below follows
          · exact inside other (List.mem_cons_of_mem _ isOther)) (by
          rintro state (rfl | wasSeen)
          · exact ⟨above, below⟩
          · exact seenInside state wasSeen)
      constructor
      · have seenToo : (fun state => ∃ other, (other = thread.state ∨ seen other) ∧
            state = other + shift) = fun state => state = (thread.relocate shift map noted).state ∨
              ∃ other, seen other ∧ state = other + shift := by
          funext state
          simp [Thread.relocate, or_and_right, exists_or]
        rw [seenToo, List.map_append, ← embeds.moves above below] at closes
        rw [List.map_append, ← embeds.waits above below]
        refine ⟨last, .enter ?_ ?_ closes⟩
        · rintro ⟨other, wasSeen, same⟩
          exact isNew (Nat.add_right_cancel same ▸ wasSeen)
        · exact fun accepts => moving ((embeds.isFinal_iff above below).mp accepts)
      · intro next member
        rcases List.mem_append.mp member with isWaiting | isOther
        · have isNext := waits_next isWaiting
          omega
        · exact nextInside next isOther
    · exact atExit (.enter isNew moving others) seenInside isExit

theorem step_relocate (char : Char) (waiting : List Waiting) :
    Automaton.step char (waiting.map (Waiting.relocate shift map noted)) =
      (Automaton.step char waiting).map (Thread.relocate shift map noted) := by
  unfold Automaton.step
  rw [List.filterMap_map, List.map_filterMap]
  congr 1
  funext thread
  by_cases contains : thread.set.contains char <;>
    simp [Waiting.relocate, Thread.relocate, contains]

/-- Threads in states that stand in two automata find the same in both. -/
theorem Embeds.follow (embeds : Embeds source target map noted result base length shift)
    {threads : List Thread}
    (inside : ∀ thread ∈ threads, base ≤ thread.state ∧ thread.state ≤ base + length)
    (best : Option Slots) :
    target.follow place (threads.map (Thread.relocate shift map noted)) (best.map result) =
      (source.follow place threads best).map result := by
  induction place using Place.next_induction generalizing threads best with
  | last place isLast =>
    obtain ⟨waiting, accepted, after, closes, -⟩ := source.exists_closes place threads
    obtain ⟨⟨last, otherCloses⟩, -⟩ := embeds.closes closes inside fun _ => False.elim
    simp only [false_and, exists_const] at otherCloses
    rw [follow_last isLast closes, follow_last isLast otherCloses, Option.map_or]
  | next place char next step ih =>
    obtain ⟨waiting, accepted, after, closes, -⟩ := source.exists_closes place threads
    obtain ⟨⟨last, otherCloses⟩, nextInside⟩ := embeds.closes closes inside fun _ => False.elim
    simp only [false_and, exists_const] at otherCloses
    rw [follow_next step closes, follow_next step otherCloses, ← Option.map_or, step_relocate]
    refine ih ?_ _
    intro thread member
    obtain ⟨waits, isWaiting, chosen⟩ := List.mem_filterMap.mp member
    split at chosen
    · cases chosen
      exact nextInside waits isWaiting
    · cases chosen

end Relocates

/-! ## Entering a state that is not entered again -/

theorem Closing.agree {moves : Thread → List Thread} {waits : Thread → List Waiting}
    {isFinal : Nat → Prop} {threads : List Thread} {seen after : Nat → Prop}
    {waiting : List Waiting} {accepted : Option Slots}
    (closing : Closing moves waits isFinal threads seen waiting accepted after)
    {region : Nat → Prop}
    (closed : ∀ thread, region thread.state → ∀ next ∈ moves thread, region next.state)
    (inside : ∀ thread ∈ threads, region thread.state) {other : Nat → Prop}
    (agree : ∀ state, region state → (seen state ↔ other state)) :
    ∃ last, Closing moves waits isFinal threads other waiting accepted last := by
  induction closing generalizing other with
  | done => exact ⟨other, .done⟩
  | skip wasSeen _ ih =>
    obtain ⟨last, closing⟩ := ih
      (fun thread member => inside thread (List.mem_cons_of_mem _ member)) agree
    exact ⟨last, .skip ((agree _ (inside _ List.mem_cons_self)).mp wasSeen) closing⟩
  | accept isNew accepts =>
    have same := agree _ (inside _ List.mem_cons_self)
    exact ⟨other, .accept (fun wasSeen => isNew (same.mpr wasSeen)) accepts⟩
  | enter isNew moving _ ih =>
    rename_i thread threads seen after waiting accepted _
    have same := agree _ (inside _ List.mem_cons_self)
    obtain ⟨last, closing⟩ := @ih (by
        intro next member
        rcases List.mem_append.mp member with isMove | isOther
        · exact closed thread (inside _ List.mem_cons_self) next isMove
        · exact inside next (List.mem_cons_of_mem _ isOther))
      (fun state => state = thread.state ∨ other state) (by
        intro state inRegion
        simp only [agree state inRegion])
    exact ⟨last, .enter (fun wasSeen => isNew (same.mpr wasSeen)) moving closing⟩

variable {automaton : Automaton} {place : Place}

theorem Closes.move {seen after : Nat → Prop} (isNew : ¬ seen thread.state)
    (moving : ¬ automaton.IsFinal thread.state) (passing : automaton.waits thread = [])
    (others : automaton.Closes place (automaton.moves place thread ++ threads)
      (fun state => state = thread.state ∨ seen state) waiting accepted after) :
    automaton.Closes place (thread :: threads) seen waiting accepted after := by
  have entered := Closing.enter isNew moving others
  rwa [passing, List.nil_append] at entered

theorem follow_eq_of_closes {others : List Thread} {after last : Nat → Prop}
    (closes : automaton.Closes place threads (fun _ => False) waiting accepted after)
    (otherCloses : automaton.Closes place others (fun _ => False) waiting accepted last)
    (best : Option Slots) :
    automaton.follow place threads best = automaton.follow place others best := by
  cases step : place.next? with
  | none => rw [follow_last step closes, follow_last step otherCloses]
  | some next => rw [follow_next step closes, follow_next step otherCloses]

/-- A thread whose state is not entered again can be replaced by those it moves to. -/
theorem follow_moves (region : Nat → Prop)
    (closed : ∀ state, region state → ∀ next ∈ automaton.nexts place state, region next)
    (onward : ∀ next ∈ automaton.nexts place thread.state, region next)
    (outside : ¬ region thread.state) (moving : ¬ automaton.IsFinal thread.state)
    (passing : automaton.waits thread = []) (best : Option Slots) :
    automaton.follow place [thread] best =
      automaton.follow place (automaton.moves place thread) best := by
  obtain ⟨waiting, accepted, after, closes, -⟩ :=
    automaton.exists_closes place (automaton.moves place thread)
  have inside : ∀ {source : Thread} {next : Thread}, next ∈ automaton.moves place source →
      (∀ state ∈ automaton.nexts place source.state, region state) → region next.state := by
    intro source next isMove follows
    obtain ⟨state, member, rfl⟩ := List.mem_map.mp isMove
    exact follows state member
  obtain ⟨last, otherCloses⟩ := @Closing.agree _ _ _ _ _ _ _ _ closes region
    (fun source inRegion next isMove => inside isMove (closed source.state inRegion))
    (fun next isMove => inside isMove onward)
    (fun state => state = thread.state ∨ False) (by
      intro state inRegion
      have different : state ≠ thread.state := fun same => outside (same ▸ inRegion)
      simp [different])
  rw [← List.append_nil (automaton.moves place thread)] at otherCloses
  exact follow_eq_of_closes (Closes.move id moving passing otherCloses) closes best

/-! ## Alternatives -/

def Tail (automaton : Automaton) (base : Nat) (states : List State) : Prop :=
  automaton.states.toList.drop base = states

theorem Tail.getElem? (tail : automaton.Tail base states) (position : Nat) :
    automaton.states[base + position]? = states[position]? := by
  rw [← tail, List.getElem?_drop, Array.getElem?_toList]

theorem Tail.head {state : State} (tail : automaton.Tail base (state :: states)) :
    automaton.states[base]? = some state :=
  tail.getElem? 0

theorem Tail.behind {base : Nat} {first second : List State}
    (tail : automaton.Tail base (first ++ second)) :
    automaton.Tail (base + first.length) second := by
  rw [Tail, ← List.drop_drop, tail, List.drop_left]

theorem Tail.cons {base : Nat} {state : State} {states : List State}
    (tail : automaton.Tail base (state :: states)) : automaton.Tail (base + 1) states :=
  @Tail.behind _ _ [state] _ tail

theorem Tail.has (tail : automaton.Tail base states) : automaton.Has base states :=
  fun position _ listed => (tail.getElem? position).trans listed

/-- The states from a number on lead on to one another. -/
theorem Tail.forward (tail : automaton.Tail base states)
    (free : ∀ state ∈ states, ∀ target ∈ state.targets, base ≤ target) {next : Nat}
    (above : base ≤ state) (follows : next ∈ automaton.nexts place state) : base ≤ next := by
  obtain ⟨position, rfl⟩ := Nat.exists_eq_add_of_le above
  rcases mem_nexts follows with rfl | ⟨kind, isState, isTarget⟩
  · omega
  · exact free kind (List.mem_of_getElem? ((tail.getElem? position).symm.trans isState)) next
      isTarget

theorem closes_of_save {exit slot : Nat} {slots : Slots} {threads : List Thread}
    {seen : Nat → Prop} (saves : automaton.states[exit]? = some (.save slot))
    (accepts : automaton.states[exit + 1]? = some .accept) (isNew : ¬ seen exit)
    (nextIsNew : ¬ seen (exit + 1)) :
    ∃ after, automaton.Closes place ({ state := exit, slots } :: threads) seen []
      (some ((slot, some place) :: slots)) after := by
  have onward : automaton.moves place { state := exit, slots } =
      [{ state := exit + 1, slots := (slot, some place) :: slots }] := by
    simp [moves, nexts, noted, saves]
  have passing : automaton.waits { state := exit, slots } = [] := by simp [waits, saves]
  refine ⟨fun state => state = exit ∨ seen state,
    Closes.move isNew (by simp [IsFinal, saves]) passing ?_⟩
  rw [onward]
  refine .accept ?_ accepts
  rintro (same | wasSeen)
  · simp at same
  · exact nextIsNew wasSeen

theorem exits_of_save {length slot : Nat}
    (saves : automaton.states[base + length]? = some (.save slot))
    (accepts : automaton.states[base + length + 1]? = some .accept) :
    automaton.Exits base length fun place slots => (slot, some place) :: slots := by
  intro place slots threads seen inside
  refine closes_of_save saves accepts ?_ ?_ <;>
  · intro wasSeen
    have bounds := inside _ wasSeen
    omega

theorem exits_of_jump {length target slot : Nat}
    (jumps : automaton.states[base + length]? = some (.jump target))
    (ahead : base + length < target) (saves : automaton.states[target]? = some (.save slot))
    (accepts : automaton.states[target + 1]? = some .accept) :
    automaton.Exits base length fun place slots => (slot, some place) :: slots := by
  intro place slots threads seen inside
  have onward : automaton.moves place { state := base + length, slots } =
      [{ state := target, slots }] := by
    simp [moves, nexts, noted, jumps]
  have passing : automaton.waits { state := base + length, slots } = [] := by simp [waits, jumps]
  have further : ∀ {state}, base + length < state → ¬ (state = base + length ∨ seen state) := by
    rintro state beyond (same | wasSeen)
    · omega
    · have bounds := inside _ wasSeen
      omega
  obtain ⟨after, closes⟩ := @closes_of_save automaton place target slot slots threads
    (fun state => state = base + length ∨ seen state) saves accepts (further ahead)
    (further (by omega))
  refine ⟨after, Closes.move ?_ (by simp [IsFinal, jumps]) passing ?_⟩
  · intro wasSeen
    have bounds := inside (base + length) wasSeen
    omega
  · rw [onward]
    exact closes

def forNodes (nodes : List Node) : Automaton where
  states := (.save 0 :: (Node.sequenceFragment nodes 1 ++ [.save 1, .accept])).toArray

theorem eq_forNodes (made : ofNodes nodes = .ok automaton) : automaton = forNodes nodes := by
  obtain ⟨states⟩ := automaton
  exact congrArg Automaton.mk (ofNodes_ok made)

theorem forNodes_tail (nodes : List Node) :
    (forNodes nodes).Tail 1 (Node.sequenceFragment nodes 1 ++ [.save 1, .accept]) :=
  rfl

theorem forNodes_forward (nodes : List Node) {next : Nat} (above : 1 ≤ state)
    (follows : next ∈ (forNodes nodes).nexts place state) : 1 ≤ next := by
  refine (forNodes_tail nodes).forward ?_ above follows
  intro kind member target isTarget
  simp only [List.mem_append, List.mem_cons, List.not_mem_nil, or_false] at member
  rcases member with inside | rfl | rfl
  · exact (((Node.sequenceFragment_rename id nodes).stays 1 kind inside).2 target isTarget).1
  · cases isTarget
  · cases isTarget

/-- A match begins by noting where. -/
theorem matchAt?_forNodes (nodes : List Node) (place : Place) :
    (forNodes nodes).matchAt? place =
      (forNodes nodes).follow place [{ state := 1, slots := [(0, some place)] }] none := by
  have isState : (forNodes nodes).states[0]? = some (.save 0) := rfl
  refine (follow_moves (1 ≤ ·) (fun _ above _ => forNodes_forward nodes above) ?_
    (by simp) (by simp [IsFinal, isState]) (by simp [waits, isState]) none).trans ?_
  · simp [nexts, isState]
  · simp [moves, nexts, noted, isState]

theorem sequenceFragment_singleton (node : Node) :
    Node.sequenceFragment [node] = node.fragment := by
  funext base
  simp [Node.sequenceFragment]

theorem relocates_of_tail {target : Automaton} {map : Nat → Nat} {shift : Nat} {rest : List State}
    (tail : target.Tail (1 + shift)
      (Node.sequenceFragment (Node.renameEach map nodes) (1 + shift) ++ rest)) :
    Relocates (forNodes nodes) target map 1 (Node.sequenceFragment nodes 1).length shift := by
  constructor
  · intro state above below
    obtain ⟨position, rfl⟩ := Nat.exists_eq_add_of_le above
    rw [Nat.add_right_comm, tail.getElem?, (forNodes_tail nodes).getElem?,
      (Node.sequenceFragment_rename map nodes).moves 1 shift,
      List.getElem?_append_left (by rw [List.length_map]; omega),
      List.getElem?_append_left (by omega), List.getElem?_map]
  · intro state kind above below isState
    obtain ⟨position, rfl⟩ := Nat.exists_eq_add_of_le above
    rw [(forNodes_tail nodes).getElem?, List.getElem?_append_left (by omega)] at isState
    exact ((Node.sequenceFragment_rename id nodes).stays 1 kind (List.mem_of_getElem? isState)).2

theorem forNodes_moving (nodes : List Node) (above : 1 ≤ state)
    (below : state < 1 + (Node.sequenceFragment nodes 1).length) :
    ¬ (forNodes nodes).IsFinal state := by
  obtain ⟨position, rfl⟩ := Nat.exists_eq_add_of_le above
  rw [IsFinal, (forNodes_tail nodes).getElem?, List.getElem?_append_left (by omega)]
  exact fun isState =>
    ((Node.sequenceFragment_rename id nodes).stays 1 _ (List.mem_of_getElem? isState)).1 rfl

theorem forNodes_exits (nodes : List Node) :
    (forNodes nodes).Exits 1 (Node.sequenceFragment nodes 1).length
      fun place slots => (1, some place) :: slots := by
  have tail := (forNodes_tail nodes).behind
  exact exits_of_save tail.head tail.cons.head

theorem follow_of_tail {target : Automaton} {map : Nat → Nat} {nodes : List Node}
    {shift : Nat} {rest : List State} (fixed : map 0 = 0)
    (tail : target.Tail (1 + shift)
      (Node.sequenceFragment (Node.renameEach map nodes) (1 + shift) ++ rest))
    (exits : target.Exits (1 + shift) (Node.sequenceFragment nodes 1).length
      fun place slots => (1, some place) :: slots) :
    target.follow place [{ state := 1 + shift, slots := [(0, some place)] }] none =
      ((forNodes nodes).matchAt? place).map (Slots.rename map) := by
  have keepsStart : renameSlot map 0 = 0 := by simp [renameSlot, fixed]
  have keepsStop : renameSlot map 1 = 1 := by simp [renameSlot, fixed]
  have embeds : Embeds (forNodes nodes) target map [] (Slots.rename map) 1
      (Node.sequenceFragment nodes 1).length shift := by
    refine { relocates_of_tail tail with
      moving := fun _ => forNodes_moving nodes
      exits := ⟨_, _, forNodes_exits nodes, exits, ?_⟩ }
    intro place slots
    simp [Slots.rename, keepsStop]
  have found := @Embeds.follow _ _ _ _ _ _ place _ _ embeds
    [{ state := 1, slots := [(0, some place)] }] (by simp) none
  rw [matchAt?_forNodes, ← found]
  simp [Thread.relocate, Slots.rename, keepsStart]

theorem follow_fork {first second : Nat} {slots : Slots}
    (isState : automaton.states[base]? = some (.fork first second))
    (forward : ∀ state next, base < state → next ∈ automaton.nexts place state → base < next)
    (ahead : base < first ∧ base < second) :
    automaton.follow place [{ state := base, slots }] none =
      (automaton.follow place [{ state := first, slots }] none).or
        (automaton.follow place [{ state := second, slots }] none) := by
  rw [follow_moves (base < ·) (fun state above next => forward state next above)
    (by simpa [nexts, isState] using ahead) (by simp) (by simp [IsFinal, isState])
    (by simp [waits, isState]), ← follow_append]
  simp [moves, nexts, noted, isState]

theorem findSome?_cons_or {α β : Type} (find : α → Option β) (first : α) (others : List α) :
    (first :: others).findSome? find = (find first).or (others.findSome? find) := by
  rw [List.findSome?_cons]
  cases find first <;> rfl

/-- Alternatives at the end of an automaton find what their own automata find, tried one
after another. -/
theorem follow_choice {target : Automaton} (part : Node × (Nat → Nat))
    (parts : List (Node × (Nat → Nat))) (fixed : ∀ other ∈ part :: parts, other.2 0 = 0)
    {shift : Nat}
    (tail : target.Tail (1 + shift)
      (Node.choiceFragment ((part :: parts).map fun other => other.1.rename other.2) (1 + shift) ++
        [.save 1, .accept])) :
    target.follow place [{ state := 1 + shift, slots := [(0, some place)] }] none =
      (part :: parts).findSome? fun other =>
        ((forNodes [other.1]).matchAt? place).map (Slots.rename other.2) := by
  have singleton : ∀ (node : Node) (map : Nat → Nat),
      Node.sequenceFragment (Node.renameEach map [node]) = (node.rename map).fragment :=
    fun node map => sequenceFragment_singleton (node.rename map)
  have length : ∀ (node : Node) (map : Nat → Nat) (base : Nat),
      ((node.rename map).fragment (1 + base)).length =
        (Node.sequenceFragment [node] 1).length := by
    intro node map base
    rw [sequenceFragment_singleton]
    exact (Node.fragment_rename map node).length 1 base
  induction parts generalizing part shift with
  | nil =>
    have single : Node.choiceFragment [part.1.rename part.2] (1 + shift) =
        (part.1.rename part.2).fragment (1 + shift) := rfl
    rw [List.map_singleton, single] at tail
    have behind := tail.behind
    rw [length] at behind
    rw [← singleton] at tail
    have found := @follow_of_tail place _ _ _ _ _ (fixed part List.mem_cons_self) tail
      (exits_of_save behind.head behind.cons.head)
    rw [found, findSome?_cons_or, List.findSome?_nil, Option.or_none]
  | cons next parts ih =>
    have onward : 1 + shift + 1 = 1 + (shift + 1) := by omega
    have afterwards : 1 + shift + 2 + (Node.sequenceFragment [part.1] 1).length =
        1 + (shift + 2 + (Node.sequenceFragment [part.1] 1).length) := by omega
    have later := @ih next
      (fun other member => fixed other (List.mem_cons_of_mem _ member))
      (shift + 2 + (Node.sequenceFragment [part.1] 1).length)
    rw [List.map_cons, List.map_cons, Node.choiceFragment_cons, List.cons_append,
      List.append_assoc, List.cons_append, onward, length, afterwards] at tail
    rw [List.map_cons] at later
    generalize isRest : Node.choiceFragment (next.1.rename next.2 ::
      List.map (fun other => other.1.rename other.2) parts)
      (1 + (shift + 2 + (Node.sequenceFragment [part.1] 1).length)) = rest at tail later
    have inside := tail.cons
    rw [onward] at inside
    have exit := inside.behind
    rw [length] at exit
    have behind := exit.cons
    have restStarts : 1 + (shift + 1) + (Node.sequenceFragment [part.1] 1).length + 1 =
        1 + (shift + 2 + (Node.sequenceFragment [part.1] 1).length) := by omega
    rw [restStarts] at behind
    have final := behind.behind
    -- Nothing leads back to the fork.
    have forward : ∀ state next, 1 + shift < state → next ∈ target.nexts place state →
        1 + shift < next := by
      intro state other above
      rw [← Nat.succ_le_iff, Nat.succ_eq_add_one, onward] at above ⊢
      refine inside.forward ?_ above
      intro kind member goal isTarget
      simp only [List.mem_append, List.mem_cons, List.not_mem_nil, or_false] at member
      rcases member with inFirst | rfl | inRest | rfl | rfl
      · exact (((Node.fragment_rename id _).stays _ kind inFirst).2 goal isTarget).1
      · simp only [State.targets, List.mem_singleton] at isTarget
        omega
      · rw [← isRest] at inRest
        have bounds := ((Node.choiceFragment_rename id _).stays _ kind inRest).2 goal isTarget
        omega
      · cases isTarget
      · cases isTarget
    rw [← singleton] at inside
    have found := @follow_of_tail place _ _ _ _ _ (fixed part List.mem_cons_self) inside
      (exits_of_jump exit.head (by omega) final.head final.cons.head)
    rw [follow_fork tail.head forward (by omega), later behind, found,
      findSome?_cons_or _ part]

end Automaton
end Highlighter.Regex

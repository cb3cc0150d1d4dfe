import Highlighter.Proofs.Regex.Automaton

/-!
# Which way an automaton prefers

Of all ways to accept an automaton takes the one it prefers.  Threads that cannot come to accept
make no difference: they keep other threads only out of dead ends.  So threads can be tried one
after another, and a search tries one place after another.
-/
namespace Highlighter.Regex.Automaton

variable {automaton : Automaton} {place : Place}

variable {threads others : List Thread} {waiting otherWaiting : List Waiting}
  {after seen last : Nat → Prop} {accepted otherAccepted : Option Slots} {thread : Thread}
  {state : Nat} {next : Place} {char : Char} {slots : Slots}

/-! ## Closing threads -/

def noted (automaton : Automaton) (place : Place) (thread : Thread) : Slots :=
  match automaton.states[thread.state]? with
  | some (.save slot) => (slot, some place) :: thread.slots
  | _ => thread.slots

def moves (automaton : Automaton) (place : Place) (thread : Thread) : List Thread :=
  (automaton.nexts place thread.state).map fun state =>
    { state, slots := automaton.noted place thread }

/-- The thread as it waits for a character, if its state consumes one. -/
def waits (automaton : Automaton) (thread : Thread) : List Waiting :=
  match automaton.states[thread.state]? with
  | some (.consume set) => [{ set, next := thread.state + 1, slots := thread.slots }]
  | _ => []

theorem noted_effect (thread : Thread) :
    (automaton.noted place thread).effect =
      thread.slots.effect.andThen (automaton.note place thread.state) := by
  unfold noted note
  cases automaton.states[thread.state]? with
  | none => rfl
  | some state =>
    cases state with
    | save => exact Slots.effect_cons ..
    | _ => rfl

theorem close_cons (fuel : Nat) (thread : Thread) (threads : List Thread) (entered : Nat)
    (newestFirst : List Waiting) :
    automaton.close place (fuel + 1) (thread :: threads) entered newestFirst =
      if entered.testBit thread.state then
        automaton.close place fuel threads entered newestFirst
      else if automaton.IsFinal thread.state then
        (newestFirst.reverse, some thread.slots)
      else
        automaton.close place fuel (automaton.moves place thread ++ threads)
          (entered ||| (1 <<< thread.state)) (automaton.waits thread ++ newestFirst) := by
  rw [close]
  split
  · rfl
  · rcases isState : automaton.states[thread.state]? with _ | state
    · rw [if_neg (by simp [IsFinal, isState]), moves, nexts, noted, waits, isState]
      rfl
    · cases state with
      | accept => rw [if_pos (show automaton.IsFinal thread.state from isState)]
      | check assertion =>
        rw [if_neg (by simp [IsFinal, isState]), moves, nexts, noted, waits, isState]
        simp only
        split <;> rfl
      | _ =>
        rw [if_neg (by simp [IsFinal, isState]), moves, nexts, noted, waits, isState]
        rfl

/-- What threads come to, when the states in `seen` have been entered: the threads that wait
for a character, what the thread has noted that accepts, if one does, and the states entered
in the end. -/
inductive Closing (moves : Thread → List Thread) (waits : Thread → List Waiting)
    (isFinal : Nat → Prop) :
    List Thread → (seen : Nat → Prop) → List Waiting → Option Slots → (after : Nat → Prop) →
    Prop where
  | done {seen : Nat → Prop} : Closing moves waits isFinal [] seen [] none seen
  | skip {thread : Thread} {threads : List Thread} {seen after : Nat → Prop}
      {waiting : List Waiting} {accepted : Option Slots} (wasSeen : seen thread.state)
      (others : Closing moves waits isFinal threads seen waiting accepted after) :
      Closing moves waits isFinal (thread :: threads) seen waiting accepted after
  | accept {thread : Thread} {threads : List Thread} {seen : Nat → Prop}
      (isNew : ¬ seen thread.state) (accepts : isFinal thread.state) :
      Closing moves waits isFinal (thread :: threads) seen [] (some thread.slots) seen
  | enter {thread : Thread} {threads : List Thread} {seen after : Nat → Prop}
      {waiting : List Waiting} {accepted : Option Slots} (isNew : ¬ seen thread.state)
      (moving : ¬ isFinal thread.state)
      (others : Closing moves waits isFinal (moves thread ++ threads)
        (fun state => state = thread.state ∨ seen state) waiting accepted after) :
      Closing moves waits isFinal (thread :: threads) seen (waits thread ++ waiting) accepted
        after

abbrev Closes (automaton : Automaton) (place : Place) :=
  Closing (automaton.moves place) automaton.waits automaton.IsFinal

section Closing

variable {moves : Thread → List Thread} {waits : Thread → List Waiting} {isFinal : Nat → Prop}
  {threads : List Thread} {seen after : Nat → Prop} {waiting : List Waiting}
  {accepted : Option Slots}

theorem Closing.unique (closing : Closing moves waits isFinal threads seen waiting accepted after)
    {otherAfter : Nat → Prop}
    (other : Closing moves waits isFinal threads seen otherWaiting otherAccepted otherAfter) :
    waiting = otherWaiting ∧ accepted = otherAccepted := by
  induction closing generalizing otherWaiting with
  | done =>
    cases other
    exact ⟨rfl, rfl⟩
  | skip wasSeen _ ih =>
    cases other with
    | skip _ others => exact ih others
    | accept isNew => exact absurd wasSeen isNew
    | enter isNew => exact absurd wasSeen isNew
  | accept isNew accepts =>
    cases other with
    | skip wasSeen => exact absurd wasSeen isNew
    | accept => exact ⟨rfl, rfl⟩
    | enter _ moving => exact absurd accepts moving
  | enter isNew moving _ ih =>
    cases other with
    | skip wasSeen => exact absurd wasSeen isNew
    | accept _ accepts => exact absurd accepts moving
    | enter _ _ others =>
      obtain ⟨sameWaiting, sameAccepted⟩ := ih others
      exact ⟨by rw [sameWaiting], sameAccepted⟩

theorem Closing.append_accepted {slots : Slots}
    (closing : Closing moves waits isFinal threads seen waiting (some slots) after)
    (others : List Thread) :
    Closing moves waits isFinal (threads ++ others) seen waiting (some slots) after := by
  generalize isAccepted : some slots = accepted at closing
  induction closing with
  | done => cases isAccepted
  | skip wasSeen _ ih => exact .skip wasSeen (ih isAccepted)
  | accept isNew accepts => exact .accept isNew accepts
  | enter isNew moving _ ih =>
    have closing := ih isAccepted
    rw [List.append_assoc] at closing
    exact .enter isNew moving closing

/-- Threads behind others that do not accept go on with the states these have entered. -/
theorem Closing.split (closing : Closing moves waits isFinal threads seen waiting none after)
    {allWaiting : List Waiting}
    (all : Closing moves waits isFinal (threads ++ others) seen allWaiting accepted last) :
    ∃ otherWaiting, allWaiting = waiting ++ otherWaiting ∧
      Closing moves waits isFinal others after otherWaiting accepted last := by
  generalize isNone : none = result at closing
  induction closing generalizing allWaiting with
  | done => exact ⟨allWaiting, rfl, all⟩
  | skip wasSeen _ ih =>
    cases all with
    | skip _ others => exact ih others isNone
    | accept isNew => exact absurd wasSeen isNew
    | enter isNew => exact absurd wasSeen isNew
  | accept => cases isNone
  | enter isNew moving _ ih =>
    rw [List.cons_append] at all
    cases all with
    | skip wasSeen => exact absurd wasSeen isNew
    | accept _ accepts => exact absurd accepts moving
    | enter _ _ others =>
      rw [← List.append_assoc] at others
      obtain ⟨otherWaiting, rfl, closing⟩ := ih others isNone
      exact ⟨otherWaiting, (List.append_assoc ..).symm, closing⟩

end Closing

/-- The number of states that have not been entered. -/
def unseen (automaton : Automaton) (entered : Nat) : Nat :=
  (List.range automaton.states.size).countP fun state => !entered.testBit state

theorem unseen_zero (automaton : Automaton) : automaton.unseen 0 ≤ automaton.states.size := by
  have counted := List.countP_le_length (p := fun state => !(0 : Nat).testBit state)
    (l := List.range automaton.states.size)
  rwa [List.length_range] at counted

theorem testBit_enter (entered state other : Nat) :
    (entered ||| (1 <<< state)).testBit other ↔ other = state ∨ entered.testBit other := by
  rw [Nat.testBit_or, Bool.or_eq_true, Nat.one_shiftLeft, Nat.testBit_two_pow]
  simp only [decide_eq_true_eq]
  grind

theorem unseen_enter_le (entered state : Nat) :
    automaton.unseen (entered ||| (1 <<< state)) ≤ automaton.unseen entered := by
  refine List.countP_mono_left ?_
  intro other _ isUnseen
  rw [Bool.not_eq_true', ← Bool.not_eq_true, testBit_enter, not_or] at isUnseen
  rw [Bool.not_eq_true', ← Bool.not_eq_true]
  exact isUnseen.2

theorem countP_lt_countP {first second : Nat → Bool} {items : List Nat} (item : Nat)
    (implies : ∀ other, first other → second other) (member : item ∈ items)
    (differs : first item = false ∧ second item) :
    items.countP first < items.countP second := by
  induction items with
  | nil => cases member
  | cons head tail ih =>
    have headImplies := implies head
    rcases List.mem_cons.mp member with rfl | inTail
    · have tailImplies := List.countP_mono_left fun other (_ : other ∈ tail) => implies other
      rw [List.countP_cons, List.countP_cons, differs.1, differs.2]
      simp only [Bool.false_eq_true, if_false, if_true]
      omega
    · have fewer := ih inTail
      rw [List.countP_cons, List.countP_cons]
      split <;> split <;> grind

theorem unseen_enter_lt {entered : Nat} (inRange : state < automaton.states.size)
    (isNew : entered.testBit state = false) :
    automaton.unseen (entered ||| (1 <<< state)) < automaton.unseen entered := by
  refine countP_lt_countP state ?_ (List.mem_range.mpr inRange) ?_
  · intro other isUnseen
    rw [Bool.not_eq_true', ← Bool.not_eq_true, testBit_enter, not_or] at isUnseen
    rw [Bool.not_eq_true', ← Bool.not_eq_true]
    exact isUnseen.2
  · rw [isNew, Bool.not_eq_false', testBit_enter]
    exact ⟨.inl rfl, rfl⟩

theorem moves_length_le (automaton : Automaton) (place : Place) (thread : Thread) (entered : Nat)
    (isNew : entered.testBit thread.state = false) :
    (automaton.moves place thread).length +
        2 * automaton.unseen (entered ||| (1 <<< thread.state)) ≤
      2 * automaton.unseen entered := by
  have atMost := automaton.unseen_enter_le entered thread.state
  rcases isState : automaton.states[thread.state]? with _ | state
  · simp only [moves, nexts, isState, List.map_nil, List.length_nil]
    omega
  · have inRange := (Array.getElem?_eq_some_iff.mp isState).1
    have fewer := unseen_enter_lt inRange isNew
    have two : (automaton.moves place thread).length ≤ 2 := by
      rw [moves, List.length_map, nexts, isState]
      cases state with
      | check assertion =>
        simp only
        split <;> simp
      | _ => simp
    omega

theorem waits_reverse (thread : Thread) :
    (automaton.waits thread).reverse = automaton.waits thread := by
  unfold waits
  split <;> rfl

theorem close_closes (automaton : Automaton) (place : Place) (fuel : Nat)
    (threads : List Thread) (entered : Nat) (newestFirst : List Waiting)
    (enough : threads.length + 2 * automaton.unseen entered < fuel) :
    ∃ waiting accepted after,
      Closes automaton place threads (fun state => entered.testBit state) waiting accepted
        after ∧
      automaton.close place fuel threads entered newestFirst =
        (newestFirst.reverse ++ waiting, accepted) := by
  induction fuel generalizing threads entered newestFirst with
  | zero => omega
  | succ fuel ih =>
    cases threads with
    | nil =>
      refine ⟨[], none, _, .done, ?_⟩
      rw [close, List.append_nil]
    | cons thread threads =>
      rw [List.length_cons] at enough
      rw [close_cons]
      split
      · rename_i wasSeen
        obtain ⟨waiting, accepted, after, closes, isClosed⟩ :=
          ih threads entered newestFirst (by omega)
        exact ⟨waiting, accepted, after, .skip wasSeen closes, isClosed⟩
      · rename_i isNew
        split
        · rename_i accepts
          refine ⟨[], some thread.slots, _, .accept isNew accepts, ?_⟩
          rw [List.append_nil]
        · rename_i moving
          have fewer := automaton.moves_length_le place thread entered
            (Bool.eq_false_iff.mpr isNew)
          obtain ⟨waiting, accepted, after, closes, isClosed⟩ :=
            ih (automaton.moves place thread ++ threads)
              (entered ||| (1 <<< thread.state)) (automaton.waits thread ++ newestFirst) (by
                rw [List.length_append]
                omega)
          refine ⟨automaton.waits thread ++ waiting, accepted, after,
            .enter isNew moving ?_, ?_⟩
          · simpa only [testBit_enter] using closes
          · rw [isClosed, List.reverse_append, waits_reverse, List.append_assoc]

/-! ## Coming to accept -/

def AnySucceeds (automaton : Automaton) (place : Place) (threads : List Thread)
    (after : Effect) : Prop :=
  ∃ thread ∈ threads, ∃ moves,
    Completes automaton moves thread.state place thread.slots.effect after

theorem AnySucceeds.cons {after : Effect} (succeeds : automaton.AnySucceeds place threads after)
    (thread : Thread) : automaton.AnySucceeds place (thread :: threads) after := by
  obtain ⟨other, member, succeeds⟩ := succeeds
  exact ⟨other, .tail _ member, succeeds⟩

theorem anySucceeds_of_moves {after : Effect}
    (succeeds : automaton.AnySucceeds place (automaton.moves place thread ++ threads) after) :
    automaton.AnySucceeds place (thread :: threads) after := by
  obtain ⟨other, member, count, completes⟩ := succeeds
  rcases List.mem_append.mp member with isMove | isOther
  · obtain ⟨next, follows, rfl⟩ := List.mem_map.mp isMove
    rw [noted_effect] at completes
    exact ⟨thread, .head _, _, .move follows completes⟩
  · exact ⟨other, .tail _ isOther, count, completes⟩

theorem anySucceeds_of_waits {after : Effect} (step : place.next? = some (char, next))
    (succeeds : automaton.AnySucceeds next (Automaton.step char (automaton.waits thread)) after) :
    automaton.AnySucceeds place (thread :: threads) after := by
  obtain ⟨other, member, count, completes⟩ := succeeds
  obtain ⟨waiting, isWaiting, chosen⟩ := List.mem_filterMap.mp member
  unfold waits at isWaiting
  split at isWaiting
  · rename_i set isState
    rw [List.mem_singleton.mp isWaiting] at chosen
    obtain ⟨contains, isOther⟩ := Option.ite_none_right_eq_some.mp chosen
    cases isOther
    exact ⟨thread, .head _, _, .consume isState step contains completes⟩
  · cases isWaiting

theorem Closes.succeeds (closes : automaton.Closes place threads seen waiting accepted after) :
    (∀ slots, accepted = some slots → automaton.AnySucceeds place threads slots.effect) ∧
      ∀ char next, place.next? = some (char, next) → ∀ effect,
        automaton.AnySucceeds next (Automaton.step char waiting) effect →
        automaton.AnySucceeds place threads effect := by
  induction closes with
  | done =>
    refine ⟨by simp, ?_⟩
    rintro char next step effect ⟨thread, member, -⟩
    cases member
  | skip _ _ ih =>
    exact ⟨fun slots isAccepted => (ih.1 slots isAccepted).cons _,
      fun char next step effect succeeds => (ih.2 char next step effect succeeds).cons _⟩
  | accept _ accepts =>
    constructor
    · rintro _ ⟨⟩
      exact ⟨_, .head _, 0, .accept accepts⟩
    · rintro char next step effect ⟨thread, member, -⟩
      cases member
  | enter _ _ _ ih =>
    refine ⟨fun slots isAccepted => anySucceeds_of_moves (ih.1 slots isAccepted), ?_⟩
    intro char next step effect succeeds
    obtain ⟨thread, member, succeeds⟩ := succeeds
    rw [Automaton.step, List.filterMap_append] at member
    rcases List.mem_append.mp member with isWaiting | isOther
    · exact anySucceeds_of_waits step ⟨thread, isWaiting, succeeds⟩
    · exact anySucceeds_of_moves (ih.2 char next step effect ⟨thread, isOther, succeeds⟩)

/-! ## Dead ends -/

/-- Whether a state can come to accept does not depend on what was noted before. -/
theorem Completes.whatever {count : Nat} {before after : Effect}
    (completes : Completes automaton count state place before after) (other : Effect) :
    ∃ after, Completes automaton count state place other after := by
  induction completes generalizing other with
  | accept isFinal => exact ⟨other, .accept isFinal⟩
  | consume isState step member _ ih =>
    obtain ⟨after, rest⟩ := ih other
    exact ⟨after, .consume isState step member rest⟩
  | move follows _ ih =>
    obtain ⟨after, rest⟩ := ih _
    exact ⟨after, .move follows rest⟩

def Leads (automaton : Automaton) (place : Place) (state : Nat) : Prop :=
  ∃ count before after, Completes automaton count state place before after

/-- A thread that waits for a character can come to accept. -/
def WaitingLeads (automaton : Automaton) (place : Place) (waiting : Waiting) : Prop :=
  ∃ char next, place.next? = some (char, next) ∧ waiting.set.contains char ∧
    automaton.Leads next waiting.next

theorem leads_of_isFinal (place : Place) (isFinal : automaton.IsFinal state) :
    automaton.Leads place state :=
  ⟨0, .skip, .skip, .accept isFinal⟩

theorem leads_of_nexts {next : Nat} (follows : next ∈ automaton.nexts place state)
    (leads : automaton.Leads place next) : automaton.Leads place state := by
  obtain ⟨count, before, after, completes⟩ := leads
  obtain ⟨after, completes⟩ := completes.whatever _
  exact ⟨_, .skip, after, .move follows completes⟩

theorem leads_of_waits {waiting : Waiting} (isWaiting : waiting ∈ automaton.waits thread)
    (leads : automaton.WaitingLeads place waiting) : automaton.Leads place thread.state := by
  obtain ⟨char, next, step, member, count, before, after, completes⟩ := leads
  unfold waits at isWaiting
  split at isWaiting
  · rename_i set isState
    rw [List.mem_singleton.mp isWaiting] at member completes
    exact ⟨_, _, _, .consume isState step member completes⟩
  · cases isWaiting

open Classical in
noncomputable def live (automaton : Automaton) (place : Place) (threads : List Thread) :
    List Thread :=
  threads.filter fun thread => automaton.Leads place thread.state

open Classical in
noncomputable def liveWaiting (automaton : Automaton) (place : Place)
    (waiting : List Waiting) : List Waiting :=
  waiting.filter fun thread => automaton.WaitingLeads place thread

theorem live_append (first second : List Thread) :
    automaton.live place (first ++ second) =
      automaton.live place first ++ automaton.live place second :=
  List.filter_append ..

theorem live_cons_of_leads (leads : automaton.Leads place thread.state) (threads : List Thread) :
    automaton.live place (thread :: threads) = thread :: automaton.live place threads :=
  List.filter_cons_of_pos (by simpa using leads)

theorem live_cons_of_dead (dead : ¬ automaton.Leads place thread.state) (threads : List Thread) :
    automaton.live place (thread :: threads) = automaton.live place threads :=
  List.filter_cons_of_neg (by simpa using dead)

theorem live_eq_nil_of_dead (dead : ∀ thread ∈ threads, ¬ automaton.Leads place thread.state) :
    automaton.live place threads = [] := by
  refine List.filter_eq_nil_iff.mpr ?_
  simpa using dead

/-- Only live threads count.  What they come to does not depend on dead threads among them,
nor on whether dead states have been entered. -/
theorem Closes.live (closes : automaton.Closes place threads seen waiting accepted after) :
    ∀ {other : Nat → Prop},
      (∀ state, automaton.Leads place state → (seen state ↔ other state)) →
      ∃ last, Closing (automaton.live place ∘ automaton.moves place)
        (automaton.liveWaiting place ∘ automaton.waits) automaton.IsFinal
        (automaton.live place threads) other (automaton.liveWaiting place waiting) accepted
        last := by
  induction closes with
  | done =>
    intro other agree
    exact ⟨other, .done⟩
  | skip wasSeen _ ih =>
    rename_i thread threads _ _ _ _ _
    intro other agree
    obtain ⟨last, closing⟩ := ih agree
    by_cases leads : automaton.Leads place thread.state
    · rw [live_cons_of_leads leads]
      exact ⟨last, .skip ((agree _ leads).mp wasSeen) closing⟩
    · rw [live_cons_of_dead leads]
      exact ⟨last, closing⟩
  | accept isNew accepts =>
    intro other agree
    have leads := leads_of_isFinal place accepts
    rw [live_cons_of_leads leads]
    exact ⟨other, .accept (fun wasSeen => isNew ((agree _ leads).mpr wasSeen)) accepts⟩
  | enter isNew moving _ ih =>
    rename_i thread threads seen _ waiting _ _
    intro other agree
    rw [live_append] at ih
    by_cases leads : automaton.Leads place thread.state
    · obtain ⟨last, closing⟩ := @ih
        (fun state => state = thread.state ∨ other state) (by
          intro state leads
          simp only [agree state leads])
      rw [live_cons_of_leads leads, liveWaiting, List.filter_append]
      exact ⟨last, .enter (fun wasSeen => isNew ((agree _ leads).mpr wasSeen)) moving closing⟩
    · -- A dead thread moves only to dead ones.
      have noMoves : automaton.live place (automaton.moves place thread) = [] := by
        refine live_eq_nil_of_dead ?_
        intro next isNext nextLeads
        obtain ⟨state, follows, rfl⟩ := List.mem_map.mp isNext
        exact leads (leads_of_nexts follows nextLeads)
      have noWaiting : automaton.liveWaiting place (automaton.waits thread) = [] := by
        refine List.filter_eq_nil_iff.mpr ?_
        intro waiting isWaiting waits
        exact leads (leads_of_waits isWaiting (by simpa using waits))
      obtain ⟨last, closing⟩ := @ih other (by
        intro state stateLeads
        have different : state ≠ thread.state := fun same => leads (same ▸ stateLeads)
        simp only [different, false_or, agree state stateLeads])
      rw [noMoves, List.nil_append] at closing
      rw [live_cons_of_dead leads, liveWaiting, List.filter_append, ← liveWaiting, noWaiting,
        List.nil_append]
      exact ⟨last, closing⟩

theorem Closes.congr {other : Nat → Prop}
    (closes : automaton.Closes place threads seen waiting accepted after)
    (otherCloses : automaton.Closes place others other otherWaiting otherAccepted last)
    (same : automaton.live place threads = automaton.live place others)
    (agree : ∀ state, automaton.Leads place state → (seen state ↔ other state)) :
    automaton.liveWaiting place waiting = automaton.liveWaiting place otherWaiting ∧
      accepted = otherAccepted := by
  obtain ⟨_, closing⟩ := closes.live agree
  obtain ⟨_, otherClosing⟩ := otherCloses.live fun state _ => Iff.rfl
  rw [same] at closing
  exact closing.unique otherClosing

/-- What has become of a state that was entered while no thread accepted: it does not
accept, what follows it has been entered, and its thread waits if it consumes. -/
structure Settled (automaton : Automaton) (place : Place) (after : Nat → Prop)
    (waiting : List Waiting) (state : Nat) : Prop where
  moving : ¬ automaton.IsFinal state
  nexts : ∀ next ∈ automaton.nexts place state, after next
  waits : ∀ set, automaton.states[state]? = some (.consume set) →
    ∃ thread ∈ waiting, thread.set = set ∧ thread.next = state + 1

theorem Closes.settled (closes : automaton.Closes place threads seen waiting none after) :
    (∀ state, seen state → after state) ∧ (∀ thread ∈ threads, after thread.state) ∧
      ∀ state, after state → seen state ∨ automaton.Settled place after waiting state := by
  generalize isNone : none = accepted at closes
  induction closes with
  | done => exact ⟨fun _ wasSeen => wasSeen, by simp, fun _ wasSeen => .inl wasSeen⟩
  | skip wasSeen _ ih =>
    obtain ⟨grows, entered, settled⟩ := ih isNone
    refine ⟨grows, ?_, settled⟩
    intro thread member
    rcases List.mem_cons.mp member with rfl | isOther
    · exact grows _ wasSeen
    · exact entered thread isOther
  | accept => cases isNone
  | enter isNew moving _ ih =>
    rename_i first threads seen after waiting _ _
    obtain ⟨grows, entered, settled⟩ := ih isNone
    refine ⟨fun state wasSeen => grows state (.inr wasSeen), ?_, ?_⟩
    · intro thread member
      rcases List.mem_cons.mp member with rfl | isOther
      · exact grows _ (.inl rfl)
      · exact entered thread (List.mem_append_right _ isOther)
    · intro state isAfter
      rcases settled state isAfter with (rfl | wasSeen) | isSettled
      · refine .inr ⟨moving, ?_, ?_⟩
        · intro next follows
          exact entered { state := next, slots := automaton.noted place first }
            (List.mem_append_left _ (List.mem_map_of_mem follows))
        · intro set isState
          refine ⟨{ set, next := first.state + 1, slots := first.slots }, ?_, rfl, rfl⟩
          refine List.mem_append_left _ ?_
          rw [waits, isState]
          exact List.mem_singleton_self _
      · exact .inl wasSeen
      · refine .inr ⟨isSettled.moving, isSettled.nexts, ?_⟩
        intro set isState
        obtain ⟨thread, member, isThread⟩ := isSettled.waits set isState
        exact ⟨thread, List.mem_append_right _ member, isThread⟩

theorem Closes.exists_waitingLeads
    (closes : automaton.Closes place threads (fun _ => False) waiting none after)
    (member : thread ∈ threads) (leads : automaton.Leads place thread.state) :
    ∃ waits ∈ waiting, automaton.WaitingLeads place waits := by
  obtain ⟨-, entered, settled⟩ := closes.settled
  obtain ⟨count, before, last, completes⟩ := leads
  have isAfter := entered thread member
  generalize thread.state = state at completes isAfter
  induction completes with
  | accept isState =>
    exact absurd isState ((settled _ isAfter).resolve_left id).moving
  | consume isState step contains rest =>
    obtain ⟨waits, isWaiting, rfl, isNext⟩ :=
      ((settled _ isAfter).resolve_left id).waits _ isState
    exact ⟨waits, isWaiting, _, _, step, contains, _, _, _, isNext ▸ rest⟩
  | move follows _ ih =>
    exact ih closes settled (((settled _ isAfter).resolve_left id).nexts _ follows)

/-! ## Following threads -/

/-- The threads at a place, with one that begins there unless the match has begun. -/
def threadsAt (anchored : Bool) (threads : List Thread) (best : Option Slots) : List Thread :=
  if anchored || best.isSome then threads else threads ++ [{ state := 0, slots := [] }]

def closedAt (automaton : Automaton) (anchored : Bool) (place : Place) (threads : List Thread)
    (best : Option Slots) : List Waiting × Option Slots :=
  automaton.close place ((threadsAt anchored threads best).length + 2 * automaton.states.size + 1)
    (threadsAt anchored threads best) 0 []

theorem run_nil (anchored : Bool) (before : List Char) (offset : Nat) (threads : List Thread)
    (best : Option Slots) :
    automaton.run anchored before [] offset threads best =
      (closedAt automaton anchored { before, after := [], offset } threads best).2.or best := by
  rw [run]
  rfl

theorem run_cons (anchored : Bool) (before rest : List Char) (char : Char) (offset : Nat)
    (threads : List Thread) (best : Option Slots) :
    automaton.run anchored before (char :: rest) offset threads best =
      let closed := closedAt automaton anchored { before, after := char :: rest, offset } threads
        best
      let next := step char closed.1
      let best := closed.2.or best
      if next.isEmpty && (anchored || best.isSome) then best
      else
        automaton.run anchored (char :: before) rest (offset + char.utf8Size) next best := by
  rw [run]
  rfl

/-- What threads come to note, or the best so far, when none begins later. -/
def follow (automaton : Automaton) (place : Place) (threads : List Thread)
    (best : Option Slots) : Option Slots :=
  automaton.run true place.before place.after place.offset threads best

theorem exists_closes (automaton : Automaton) (place : Place) (threads : List Thread) :
    ∃ waiting accepted after,
      automaton.Closes place threads (fun _ => False) waiting accepted after ∧
      ∀ anchored best, threadsAt anchored threads best = threads →
        closedAt automaton anchored place threads best = (waiting, accepted) := by
  have few := automaton.unseen_zero
  obtain ⟨waiting, accepted, after, closes, isClosed⟩ :=
    automaton.close_closes place (threads.length + 2 * automaton.states.size + 1)
      threads 0 [] (by omega)
  simp only [Nat.zero_testBit, Bool.false_eq_true] at closes
  refine ⟨waiting, accepted, after, closes, ?_⟩
  intro anchored best same
  rw [closedAt, same, isClosed]
  rfl

theorem follow_nil (automaton : Automaton) (place : Place) (best : Option Slots) :
    automaton.follow place [] best = best := by
  obtain ⟨before, after, offset⟩ := place
  have isClosed : closedAt automaton true { before, after, offset } [] best = ([], none) := rfl
  cases after with
  | nil => rw [follow, run_nil, isClosed, Option.none_or]
  | cons char rest =>
    rw [follow, run_cons, isClosed]
    exact Option.none_or

theorem follow_last (isLast : place.next? = none)
    (closes : automaton.Closes place threads (fun _ => False) waiting accepted after)
    (best : Option Slots) : automaton.follow place threads best = accepted.or best := by
  obtain ⟨otherWaiting, otherAccepted, last, otherCloses, isClosed⟩ :=
    automaton.exists_closes place threads
  obtain ⟨rfl, rfl⟩ := closes.unique otherCloses
  obtain ⟨before, chars, offset⟩ := place
  cases chars with
  | nil => rw [follow, run_nil, isClosed true best rfl]
  | cons char rest => cases isLast

theorem follow_next (step : place.next? = some (char, next))
    (closes : automaton.Closes place threads (fun _ => False) waiting accepted after)
    (best : Option Slots) :
    automaton.follow place threads best =
      automaton.follow next (Automaton.step char waiting) (accepted.or best) := by
  obtain ⟨otherWaiting, otherAccepted, last, otherCloses, isClosed⟩ :=
    automaton.exists_closes place threads
  obtain ⟨rfl, rfl⟩ := closes.unique otherCloses
  obtain ⟨before, chars, offset⟩ := place
  cases chars with
  | nil => cases step
  | cons first rest =>
    cases step
    rw [follow, run_cons, isClosed true best rfl]
    simp only [Bool.true_or, Bool.and_true, List.isEmpty_iff]
    split
    · rename_i isEmpty
      rw [isEmpty, follow_nil]
    · rfl

theorem live_step (step : place.next? = some (char, next)) (waiting : List Waiting) :
    automaton.live next (Automaton.step char waiting) =
      Automaton.step char (automaton.liveWaiting place waiting) := by
  induction waiting with
  | nil => rfl
  | cons thread waiting ih =>
    unfold Automaton.step liveWaiting at ih ⊢
    have leads : automaton.WaitingLeads place thread ↔
        thread.set.contains char ∧ automaton.Leads next thread.next := by
      constructor
      · rintro ⟨other, target, otherStep, contains, nextLeads⟩
        cases step.symm.trans otherStep
        exact ⟨contains, nextLeads⟩
      · rintro ⟨contains, nextLeads⟩
        exact ⟨char, next, step, contains, nextLeads⟩
    by_cases contains : thread.set.contains char
    · by_cases nextLeads : automaton.Leads next thread.next
      · rw [List.filter_cons_of_pos (by simpa [leads] using ⟨contains, nextLeads⟩),
          List.filterMap_cons_some (by rw [if_pos contains]),
          List.filterMap_cons_some (by rw [if_pos contains]),
          live_cons_of_leads nextLeads, ih]
      · rw [List.filter_cons_of_neg (by simpa [leads] using fun _ => nextLeads),
          List.filterMap_cons_some (by rw [if_pos contains]),
          live_cons_of_dead nextLeads, ih]
    · rw [List.filter_cons_of_neg (by simp [leads, contains]),
        List.filterMap_cons_none (by rw [if_neg contains]), ih]

theorem follow_congr (same : automaton.live place threads = automaton.live place others)
    (best : Option Slots) :
    automaton.follow place threads best = automaton.follow place others best := by
  induction place using Place.next_induction generalizing threads others best with
  | last place isLast =>
    obtain ⟨waiting, accepted, after, closes, -⟩ := automaton.exists_closes place threads
    obtain ⟨otherWaiting, otherAccepted, last, otherCloses, -⟩ :=
      automaton.exists_closes place others
    obtain ⟨-, sameAccepted⟩ := closes.congr otherCloses same fun _ _ => Iff.rfl
    rw [follow_last isLast closes, follow_last isLast otherCloses, sameAccepted]
  | next place char next step ih =>
    obtain ⟨waiting, accepted, after, closes, -⟩ := automaton.exists_closes place threads
    obtain ⟨otherWaiting, otherAccepted, last, otherCloses, -⟩ :=
      automaton.exists_closes place others
    obtain ⟨sameWaiting, sameAccepted⟩ := closes.congr otherCloses same fun _ _ => Iff.rfl
    rw [follow_next step closes, follow_next step otherCloses, sameAccepted]
    refine ih ?_ _
    rw [live_step step, live_step step, sameWaiting]

theorem follow_of_dead (dead : ∀ thread ∈ threads, ¬ automaton.Leads place thread.state)
    (best : Option Slots) :
    automaton.follow place threads best = best := by
  have same : automaton.live place threads = automaton.live place [] :=
    live_eq_nil_of_dead dead
  rw [follow_congr same, follow_nil]

theorem follow_some_isSome (place : Place) (threads : List Thread) (slots : Slots) :
    (automaton.follow place threads (some slots)).isSome := by
  induction place using Place.next_induction generalizing threads slots with
  | last place isLast =>
    obtain ⟨waiting, accepted, after, closes, -⟩ := automaton.exists_closes place threads
    rw [follow_last isLast closes]
    cases accepted <;> rfl
  | next place char next step ih =>
    obtain ⟨waiting, accepted, after, closes, -⟩ := automaton.exists_closes place threads
    rw [follow_next step closes]
    cases accepted <;> exact ih _ _

theorem follow_append_of_leads {first second : List Thread} {thread : Thread}
    (member : thread ∈ first) (leads : automaton.Leads place thread.state)
    (best other : Option Slots) :
    automaton.follow place (first ++ second) best = automaton.follow place first other ∧
      (automaton.follow place first other).isSome := by
  induction place using Place.next_induction generalizing first second thread best other with
  | last place isLast =>
    obtain ⟨waiting, accepted, after, closes, -⟩ := automaton.exists_closes place first
    cases accepted with
    | some slots =>
      rw [follow_last isLast closes, follow_last isLast (closes.append_accepted second)]
      exact ⟨rfl, rfl⟩
    | none =>
      obtain ⟨waits, -, char, next, step, -⟩ := closes.exists_waitingLeads member leads
      cases isLast.symm.trans step
  | next place char next step ih =>
    obtain ⟨waiting, accepted, after, closes, -⟩ := automaton.exists_closes place first
    cases accepted with
    | some slots =>
      rw [follow_next step closes, follow_next step (closes.append_accepted second)]
      exact ⟨rfl, follow_some_isSome ..⟩
    | none =>
      obtain ⟨allWaiting, accepted, last, allCloses, -⟩ :=
        automaton.exists_closes place (first ++ second)
      obtain ⟨otherWaiting, rfl, -⟩ := closes.split allCloses
      obtain ⟨waits, isWaiting, other, target, otherStep, contains, nextLeads⟩ :=
        closes.exists_waitingLeads member leads
      cases step.symm.trans otherStep
      rw [follow_next step closes, follow_next step allCloses, Automaton.step,
        List.filterMap_append]
      refine @ih _ _ ⟨waits.next, waits.slots⟩ ?_ nextLeads _ _
      exact List.mem_filterMap.mpr ⟨waits, isWaiting, if_pos contains⟩

/-- Threads are tried one after another. -/
theorem follow_append (place : Place) (first second : List Thread) :
    automaton.follow place (first ++ second) none =
      (automaton.follow place first none).or (automaton.follow place second none) := by
  by_cases leads : ∃ thread ∈ first, automaton.Leads place thread.state
  · obtain ⟨thread, member, leads⟩ := leads
    obtain ⟨same, isSome⟩ :=
      @follow_append_of_leads _ _ _ second _ member leads none none
    rw [same, Option.or_of_isSome isSome]
  · have dead : ∀ thread ∈ first, ¬ automaton.Leads place thread.state :=
      fun thread member leadsOn => leads ⟨thread, member, leadsOn⟩
    have same : automaton.live place (first ++ second) = automaton.live place second := by
      rw [live_append, live_eq_nil_of_dead dead, List.nil_append]
    rw [follow_congr same, follow_of_dead dead, Option.none_or]

theorem follow_succeeds {best : Option Slots}
    (found : automaton.follow place threads best = some slots) :
    best = some slots ∨ automaton.AnySucceeds place threads slots.effect := by
  induction place using Place.next_induction generalizing threads best with
  | last place isLast =>
    obtain ⟨waiting, accepted, after, closes, -⟩ := automaton.exists_closes place threads
    rw [follow_last isLast closes, Option.or_eq_some_iff] at found
    exact (found.imp (closes.succeeds.1 slots) And.right).symm
  | next place char next step ih =>
    obtain ⟨waiting, accepted, after, closes, -⟩ := automaton.exists_closes place threads
    rw [follow_next step closes] at found
    rcases ih found with isBest | succeeds
    · exact ((Option.or_eq_some_iff.mp isBest).imp (closes.succeeds.1 slots) And.right).symm
    · exact .inr (closes.succeeds.2 char next step _ succeeds)

theorem matchAt?_accepts (found : automaton.matchAt? place = some slots) :
    automaton.Accepts place slots.effect := by
  rcases follow_succeeds found with isBest | ⟨thread, member, moves, completes⟩
  · cases isBest
  · rw [List.mem_singleton.mp member] at completes
    exact ⟨moves, completes⟩

/-! ## Searching -/

theorem run_false_some (before chars : List Char) (offset : Nat) (threads : List Thread)
    (slots : Slots) :
    automaton.run false before chars offset threads (some slots) =
      automaton.run true before chars offset threads (some slots) := by
  induction chars generalizing before offset threads slots with
  | nil =>
    rw [run_nil, run_nil]
    rfl
  | cons char rest ih =>
    obtain ⟨waiting, accepted, after, -, isClosed⟩ :=
      automaton.exists_closes { before, after := char :: rest, offset } threads
    obtain ⟨best, isBest⟩ : ∃ best, accepted.or (some slots) = some best := by
      cases accepted with
      | none => exact ⟨slots, rfl⟩
      | some other => exact ⟨other, rfl⟩
    rw [run_cons, run_cons, isClosed false (some slots) rfl, isClosed true (some slots) rfl]
    simp only [isBest, Option.isSome_some, Bool.or_true, ih]

theorem run_false_none (before chars : List Char) (offset : Nat) (threads : List Thread) :
    automaton.run false before chars offset threads none =
      (automaton.follow { before, after := chars, offset }
        (threads ++ [{ state := 0, slots := [] }]) none).or
      ((Place.next? { before, after := chars, offset }).bind fun step =>
        automaton.search? step.2) := by
  induction chars generalizing before offset threads with
  | nil =>
    obtain ⟨waiting, accepted, after, closes, isClosed⟩ :=
      automaton.exists_closes { before, after := [], offset }
        (threads ++ [{ state := 0, slots := [] }])
    have same : closedAt automaton false { before, after := [], offset } threads none =
        (waiting, accepted) := isClosed true none rfl
    rw [run_nil, same, follow_last rfl closes]
    exact (Option.or_none).symm
  | cons char rest ih =>
    have step : Place.next? { before, after := char :: rest, offset } = some (char, _) := rfl
    obtain ⟨waiting, accepted, after, closes, isClosed⟩ :=
      automaton.exists_closes { before, after := char :: rest, offset }
        (threads ++ [{ state := 0, slots := [] }])
    have same : closedAt automaton false { before, after := char :: rest, offset } threads
        none = (waiting, accepted) := isClosed true none rfl
    rw [run_cons, same, follow_next step closes, step]
    cases accepted with
    | some slots =>
      simp only [Option.some_or, Option.isSome_some, Bool.or_true, Bool.and_true,
        List.isEmpty_iff]
      rw [Option.or_of_isSome (follow_some_isSome ..), run_false_some]
      split
      · rename_i isEmpty
        rw [isEmpty, follow_nil]
      · rfl
    | none =>
      have later := ih (char :: before) (offset + char.utf8Size) []
      simp only [Option.none_or, Option.isSome_none, Bool.or_false, Bool.and_false,
        Bool.false_eq_true, if_false, Option.bind_some]
      rw [ih, follow_append, Option.or_assoc, search?, later,
        List.nil_append]

theorem search?_eq (automaton : Automaton) (place : Place) :
    automaton.search? place =
      (automaton.matchAt? place).or
        (place.next?.bind fun step => automaton.search? step.2) := by
  obtain ⟨before, chars, offset⟩ := place
  exact run_false_none before chars offset []

theorem search?_accepts (found : automaton.search? place = some slots) :
    ∃ start, place.Precedes start ∧ automaton.Accepts start slots.effect := by
  induction place using Place.next_induction with
  | last place isLast =>
    rw [search?_eq, isLast, Option.bind_none, Option.or_none] at found
    exact ⟨place, .refl place, matchAt?_accepts found⟩
  | next place char next step ih =>
    rw [search?_eq, step, Option.bind_some, Option.or_eq_some_iff] at found
    rcases found with here | ⟨-, later⟩
    · exact ⟨place, .refl place, matchAt?_accepts here⟩
    · obtain ⟨start, order, accepts⟩ := ih later
      exact ⟨start, (Place.precedes_next step).trans order, accepts⟩

end Highlighter.Regex.Automaton

import Highlighter.Proofs.Regex.Relocation
import Highlighter.Proofs.Regex.Steady
import Mathlib.Logic.Relation

/-!
# What an automaton comes to

An automaton comes to the first way to match its nodes that can be gone on with, if none of its
loops goes round without a character.  Then no state is entered twice at the same place, and its
threads are what is left to try.
-/
namespace Highlighter.Regex

namespace Automaton

variable {automaton : Automaton} {place : Place} {slots : Slots} {state : Nat} {target : Nat}
  {greedy : Bool} {consuming : Prop}

/-! ## States that are not entered again -/

def comesTo (automaton : Automaton) (state : Nat) (place : Place) (slots : Slots) :
    Option Slots :=
  automaton.follow place [{ state, slots }] none

/-- Going on from a state without a character comes to an end. -/
def Ends (automaton : Automaton) (place : Place) (state : Nat) : Prop :=
  Acc (fun next state => next ∈ automaton.nexts place state) state

theorem Ends.not_again (ends : automaton.Ends place state) :
    ¬ Relation.TransGen (fun state next => next ∈ automaton.nexts place state) state state := by
  induction ends with
  | intro state _ ih =>
    intro again
    obtain ⟨next, isNext, goesBack⟩ := Relation.TransGen.head'_iff.mp again
    refine ih next isNext ?_
    rcases Relation.reflTransGen_iff_eq_or_transGen.mp goesBack with same | goesBack
    · rwa [same] at again
    · exact goesBack.tail isNext

theorem ends_of_nexts (each : ∀ next ∈ automaton.nexts place state, automaton.Ends place next) :
    automaton.Ends place state :=
  Acc.intro state each

theorem ends_of_fork {greedy : Bool} {onward exit : Nat}
    (isState : automaton.states[state]? = some (Fragment.fork greedy onward exit))
    (onwardEnds : automaton.Ends place onward) (exitEnds : automaton.Ends place exit) :
    automaton.Ends place state := by
  refine ends_of_nexts fun next member => ?_
  have either : next = onward ∨ next = exit := by
    cases greedy <;> simp [nexts, isState, Fragment.fork] at member <;> omega
  rcases either with rfl | rfl
  · exact onwardEnds
  · exact exitEnds

theorem ends_of_jump (isState : automaton.states[state]? = some (.jump target))
    (ends : automaton.Ends place target) : automaton.Ends place state := by
  refine ends_of_nexts fun next member => ?_
  rwa [show next = target by simpa [nexts, isState] using member]

theorem comesTo_moves (ends : automaton.Ends place state) (moving : ¬ automaton.IsFinal state)
    (passing : automaton.waits { state, slots } = []) :
    automaton.comesTo state place slots =
      automaton.follow place (automaton.moves place { state, slots }) none := by
  refine follow_moves
    (Relation.TransGen (fun state next => next ∈ automaton.nexts place state) state)
    (fun _ reached _ isNext => reached.tail isNext) (fun _ isNext => .single isNext)
    ends.not_again moving passing none

/-! ## Single states -/

theorem comesTo_consume {set : CharSet}
    (isState : automaton.states[state]? = some (.consume set)) :
    automaton.comesTo state = (Ways.pass set).into (automaton.comesTo (state + 1)) := by
  funext place slots
  have waits : automaton.waits { state, slots } = [{ set, next := state + 1, slots }] := by
    simp [Automaton.waits, isState]
  have closes : automaton.Closes place [{ state, slots }] (fun _ => False)
      (automaton.waits { state, slots } ++ []) none _ :=
    .enter id (by simp [IsFinal, isState])
      (by simpa [moves, nexts, isState] using Closing.done)
  rw [waits, List.append_nil] at closes
  unfold comesTo Ways.into Ways.pass
  cases step : place.next? with
  | none => simp [follow_last step closes]
  | some following =>
    obtain ⟨char, next⟩ := following
    rw [follow_next step closes]
    by_cases contains : set.contains char
    · simp [Automaton.step, contains, Option.filter]
    · simp [Automaton.step, contains, Option.filter, follow_nil]

theorem comesTo_check {assertion : Assertion}
    (isState : automaton.states[state]? = some (.check assertion))
    (ends : ∀ place, automaton.Ends place state) :
    automaton.comesTo state = (Ways.check assertion).into (automaton.comesTo (state + 1)) := by
  funext place slots
  rw [comesTo_moves (ends place) (by simp [IsFinal, isState]) (by simp [waits, isState])]
  unfold Ways.into Ways.check
  split
  · rename_i holds
    simp [moves, nexts, noted, isState, holds, Ways.stay, comesTo]
  · rename_i fails
    simp [moves, nexts, isState, fails, follow_nil]

theorem comesTo_save {slot : Nat} (isState : automaton.states[state]? = some (.save slot))
    (ends : ∀ place, automaton.Ends place state) :
    automaton.comesTo state = (Ways.save slot).into (automaton.comesTo (state + 1)) := by
  funext place slots
  rw [comesTo_moves (ends place) (by simp [IsFinal, isState]) (by simp [waits, isState])]
  simp [moves, nexts, noted, isState, comesTo]

theorem comesTo_jump (isState : automaton.states[state]? = some (.jump target))
    (ends : ∀ place, automaton.Ends place state) :
    automaton.comesTo state = automaton.comesTo target := by
  funext place slots
  rw [comesTo_moves (ends place) (by simp [IsFinal, isState]) (by simp [waits, isState])]
  simp [moves, nexts, noted, isState, comesTo]

theorem comesTo_fork {first second : Nat}
    (isState : automaton.states[state]? = some (.fork first second))
    (ends : ∀ place, automaton.Ends place state) (place : Place) (slots : Slots) :
    automaton.comesTo state place slots =
      (automaton.comesTo first place slots).or (automaton.comesTo second place slots) := by
  rw [comesTo_moves (ends place) (by simp [IsFinal, isState]) (by simp [waits, isState])]
  simp only [moves, nexts, noted, isState, List.map_cons, List.map_nil, comesTo]
  rw [← List.singleton_append, follow_append]

theorem comesTo_accept (accepts : automaton.states[state]? = some .accept) :
    automaton.comesTo state = fun _ slots => some slots := by
  funext place slots
  have closes : automaton.Closes place [{ state, slots }] (fun _ => False) [] (some slots) _ :=
    .accept id accepts
  unfold comesTo
  cases step : place.next? with
  | none => rw [follow_last step closes, Option.some_or]
  | some next =>
    rw [follow_next step closes, Option.some_or]
    exact follow_nil automaton _ _

theorem comesTo_choose {onward exit : Nat} {ways : Ways}
    (isState : automaton.states[state]? = some (Fragment.fork greedy onward exit))
    (ends : ∀ place, automaton.Ends place state)
    (goesOn : automaton.comesTo onward = ways.into (automaton.comesTo exit)) :
    automaton.comesTo state = (Ways.fork greedy ways .stay).into (automaton.comesTo exit) := by
  funext place slots
  cases greedy <;>
  · rw [comesTo_fork isState ends, goesOn]
    simp [Ways.fork, Ways.orElse_into]

theorem comesTo_loop {onward exit : Nat} {body : Ways} (consumes : body.Consumes)
    (isState : automaton.states[state]? = some (Fragment.fork greedy onward exit))
    (ends : ∀ place, automaton.Ends place state)
    (goesOn : automaton.comesTo onward = body.into (automaton.comesTo state)) :
    automaton.comesTo state = (Ways.star greedy body).into (automaton.comesTo exit) := by
  funext place slots
  generalize length : place.after.length = count
  induction count using Nat.strongRecOn generalizing place slots with
  | ind count ih =>
    have again : body.into (automaton.comesTo state) place slots =
        body.into ((Ways.star greedy body).into (automaton.comesTo exit)) place slots := by
      refine Ways.into_congr fun way member slots => ?_
      have shorter := consumes place way member
      exact ih _ (by omega) way.1 slots rfl
    rw [Ways.star_eq consumes]
    cases greedy <;>
    · rw [comesTo_fork isState ends, goesOn, again]
      simp [Ways.fork, Ways.orElse_into, Ways.andThen_into]

/-! ## Parts of an automaton -/

/-- The states from one up to another match in given ways.  Going on without a character ends
in them if it does behind them, and from the first of them anyway if they consume
something. -/
structure Performs (automaton : Automaton) (base exit : Nat) (ways : Ways) (consuming : Prop) :
    Prop where
  order : base ≤ exit
  ends : ∀ place, automaton.Ends place exit → ∀ state, base ≤ state → state ≤ exit →
    automaton.Ends place state
  begins : consuming → ∀ place, automaton.Ends place base
  comesTo : (∀ place, automaton.Ends place exit) →
    automaton.comesTo base = ways.into (automaton.comesTo exit)

namespace Performs

variable {base middle exit : Nat} {first second body : Ways} {consuming other : Prop}
  {greedy : Bool} {last : Nat}

theorem nil (base : Nat) : automaton.Performs base base .stay False where
  order := Nat.le_refl _
  ends := by
    intro place ends state above below
    rwa [Nat.le_antisymm below above]
  begins := False.elim
  comesTo := fun _ => (Ways.stay_into _).symm

theorem append (left : automaton.Performs base middle first consuming)
    (right : automaton.Performs middle exit second other) :
    automaton.Performs base exit (first.andThen second) (consuming ∨ other) := by
  have between {place : Place} (ends : automaton.Ends place exit) :
      automaton.Ends place middle :=
    right.ends place ends middle (Nat.le_refl _) right.order
  refine ⟨Nat.le_trans left.order right.order, ?_, ?_, ?_⟩
  · intro place ends state above below
    rcases Nat.le_total state middle with before | behind
    · exact left.ends place (between ends) state above before
    · exact right.ends place ends state behind below
  · rintro (isFirst | isSecond) place
    · exact left.begins isFirst place
    · exact left.ends place (right.begins isSecond place) base (Nat.le_refl _) left.order
  · intro ends
    rw [left.comesTo fun place => between (ends place), right.comesTo ends, Ways.andThen_into]

/-- A single state that leads to the one behind it. -/
theorem single (leads : ∀ place, ∀ next ∈ automaton.nexts place base, next = base + 1)
    (comesTo : (∀ place, automaton.Ends place base) →
      automaton.comesTo base = body.into (automaton.comesTo (base + 1)))
    (begins : consuming → ∀ place, automaton.nexts place base = []) :
    automaton.Performs base (base + 1) body consuming := by
  have ends {place : Place} (isEnd : automaton.Ends place (base + 1)) :
      automaton.Ends place base := by
    refine ends_of_nexts fun next member => ?_
    rwa [leads place next member]
  refine ⟨Nat.le_succ _, ?_, ?_, ?_⟩
  · intro place isEnd state above below
    rcases Nat.lt_or_ge base state with behind | before
    · rwa [Nat.le_antisymm below behind]
    · rw [Nat.le_antisymm before above]
      exact ends isEnd
  · intro isConsuming place
    refine ends_of_nexts fun next member => ?_
    rw [begins isConsuming] at member
    cases member
  · exact fun isEnd => comesTo fun place => ends (isEnd place)

theorem consume {set : CharSet} (isState : automaton.states[base]? = some (.consume set)) :
    automaton.Performs base (base + 1) (.pass set) True :=
  .single (by simp [nexts, isState]) (fun _ => comesTo_consume isState)
    (by simp [nexts, isState])

theorem check {assertion : Assertion}
    (isState : automaton.states[base]? = some (.check assertion)) :
    automaton.Performs base (base + 1) (.check assertion) False := by
  refine .single ?_ (comesTo_check isState) False.elim
  intro place next member
  simp only [nexts, isState] at member
  split at member
  · exact List.mem_singleton.mp member
  · cases member

theorem save {slot : Nat} (isState : automaton.states[base]? = some (.save slot)) :
    automaton.Performs base (base + 1) (.save slot) False :=
  .single (by simp [nexts, isState]) (comesTo_save isState) False.elim

theorem imp (crosses : automaton.Performs base exit body consuming) (implies : other → consuming) :
    automaton.Performs base exit body other :=
  { crosses with begins := fun isOther => crosses.begins (implies isOther) }

theorem option (isState : automaton.states[base]? = some (Fragment.fork greedy (base + 1) exit))
    (inner : automaton.Performs (base + 1) exit body consuming) :
    automaton.Performs base exit (.fork greedy body .stay) False := by
  have order := inner.order
  have ends {place : Place} (isEnd : automaton.Ends place exit) : automaton.Ends place base :=
    ends_of_fork isState (inner.ends place isEnd _ (Nat.le_refl _) order) isEnd
  refine ⟨by omega, ?_, False.elim, ?_⟩
  · intro place isEnd state above below
    rcases Nat.lt_or_ge base state with behind | before
    · exact inner.ends place isEnd state behind below
    · rw [Nat.le_antisymm before above]
      exact ends isEnd
  · intro isEnd
    exact comesTo_choose isState (fun place => ends (isEnd place)) (inner.comesTo isEnd)

/-- A fork in front of states that lead back to it. -/
theorem star (isState : automaton.states[base]? = some (Fragment.fork greedy (base + 1) (last + 1)))
    (loops : automaton.states[last]? = some (.jump base))
    (inner : automaton.Performs (base + 1) last body True) (consumes : body.Consumes) :
    automaton.Performs base (last + 1) (.star greedy body) False := by
  have order := inner.order
  have baseEnds {place : Place} (isEnd : automaton.Ends place (last + 1)) :
      automaton.Ends place base :=
    ends_of_fork isState (inner.begins trivial place) isEnd
  have lastEnds {place : Place} (isEnd : automaton.Ends place (last + 1)) :
      automaton.Ends place last :=
    ends_of_jump loops (baseEnds isEnd)
  refine ⟨by omega, ?_, False.elim, fun isEnd => ?_⟩
  · intro place isEnd state above below
    rcases Nat.lt_or_ge base state with behind | before
    · rcases Nat.lt_or_ge last state with isExit | inside
      · rwa [Nat.le_antisymm below isExit]
      · exact inner.ends place (lastEnds isEnd) state behind inside
    · rw [Nat.le_antisymm before above]
      exact baseEnds isEnd
  · refine comesTo_loop consumes isState (fun place => baseEnds (isEnd place)) ?_
    rw [inner.comesTo fun place => lastEnds (isEnd place),
      comesTo_jump loops fun place => lastEnds (isEnd place)]

/-- A fork behind states that leads back to them. -/
theorem plus (loops : automaton.states[last]? = some (Fragment.fork greedy base (last + 1)))
    (inner : automaton.Performs base last body True) (consumes : body.Consumes) :
    automaton.Performs base (last + 1) (body.andThen (.star greedy body)) True := by
  have order := inner.order
  have lastEnds {place : Place} (isEnd : automaton.Ends place (last + 1)) :
      automaton.Ends place last :=
    ends_of_fork loops (inner.begins trivial place) isEnd
  refine ⟨by omega, ?_, inner.begins, fun isEnd => ?_⟩
  · intro place isEnd state above below
    rcases Nat.lt_or_ge last state with isExit | inside
    · rwa [Nat.le_antisymm below isExit]
    · exact inner.ends place (lastEnds isEnd) state above inside
  · have ends : ∀ place, automaton.Ends place last := fun place => lastEnds (isEnd place)
    rw [inner.comesTo ends, comesTo_loop consumes loops ends (inner.comesTo ends),
      Ways.andThen_into]

/-- A fork in front of two alternatives. -/
theorem choice (isState : automaton.states[base]? = some (.fork (base + 1) (last + 1)))
    (jumps : automaton.states[last]? = some (.jump exit))
    (left : automaton.Performs (base + 1) last first consuming)
    (right : automaton.Performs (last + 1) exit second other) :
    automaton.Performs base exit (first.orElse second) (consuming ∧ other) := by
  have order := left.order
  have rightOrder := right.order
  have baseEnds {place : Place} (isFirst : automaton.Ends place (base + 1))
      (isSecond : automaton.Ends place (last + 1)) : automaton.Ends place base :=
    @ends_of_fork _ _ _ true _ _ isState isFirst isSecond
  have wholeEnds {place : Place} (isEnd : automaton.Ends place exit) :
      automaton.Ends place base :=
    baseEnds (left.ends place (ends_of_jump jumps isEnd) _ (Nat.le_refl _) order)
      (right.ends place isEnd _ (Nat.le_refl _) rightOrder)
  refine ⟨by omega, ?_, ?_, fun isEnd => ?_⟩
  · intro place isEnd state above below
    rcases Nat.lt_or_ge base state with behind | before
    · rcases Nat.lt_or_ge last state with inSecond | inFirst
      · exact right.ends place isEnd state inSecond below
      · exact left.ends place (ends_of_jump jumps isEnd) state behind inFirst
    · rw [Nat.le_antisymm before above]
      exact wholeEnds isEnd
  · exact fun begins place => baseEnds (left.begins begins.1 place) (right.begins begins.2 place)
  · have ends : ∀ place, automaton.Ends place last := fun place => ends_of_jump jumps (isEnd place)
    funext place slots
    rw [comesTo_fork isState fun place => wholeEnds (isEnd place), left.comesTo ends,
      right.comesTo isEnd, comesTo_jump jumps ends, Ways.orElse_into]

end Performs

/-! ## Fragments -/

/-- Wherever the states of a fragment stand, they match in given ways. -/
def Lays (automaton : Automaton) (body : Fragment) (ways : Ways) (consuming : Prop) : Prop :=
  ∀ base, automaton.Has base (body base) →
    automaton.Performs base (base + (body base).length) ways consuming

namespace Lays

variable {first second : Fragment} {ways others : Ways} {consuming other : Prop}

theorem followedBy (isFirst : automaton.Lays first ways consuming)
    (isSecond : automaton.Lays second others other) :
    automaton.Lays (first.followedBy second) (ways.andThen others) (consuming ∨ other) := by
  intro base has
  simp only [Fragment.followedBy, List.length_append, ← Nat.add_assoc] at has ⊢
  exact (isFirst base has.left).append (isSecond _ has.right)

theorem copies (isBody : automaton.Lays first ways consuming) (count : Nat) :
    automaton.Lays (first.copies count) (ways.copies count) (consuming ∧ 0 < count) := by
  induction count with
  | zero =>
    intro base _
    exact (Performs.nil base).imp fun impossible => absurd impossible.2 (by decide)
  | succ count ih =>
    intro base has
    exact (isBody.followedBy ih base has).imp fun consumes => .inl consumes.1

theorem atMost (isBody : automaton.Lays first ways consuming) (greedy : Bool) (count : Nat) :
    automaton.Lays (first.atMost greedy count) (ways.atMost greedy count) False := by
  induction count with
  | zero => exact fun base _ => Performs.nil base
  | succ count ih =>
    intro base has
    simp only [Fragment.atMost, List.length_cons] at has ⊢
    rw [Nat.add_comm _ 1, ← Nat.add_assoc]
    exact .option has.head (isBody.followedBy ih (base + 1) has.tail)

theorem star (isBody : automaton.Lays first ways True) (consumes : ways.Consumes)
    (greedy : Bool) :
    automaton.Lays (first.star greedy false) (ways.star greedy) False := by
  intro base has
  have isExit : base + 2 + (first (base + 1)).length =
      base + 1 + (first (base + 1)).length + 1 := by omega
  have length : base + (first.star greedy false base).length =
      base + 1 + (first (base + 1)).length + 1 := by
    simp only [Fragment.star, List.length_cons, List.length_append, List.length_nil]
    omega
  rw [length]
  simp only [Fragment.star, isExit] at has
  exact .star has.head has.tail.right.head (isBody (base + 1) has.tail.left) consumes

theorem plus (isBody : automaton.Lays first ways True) (consumes : ways.Consumes)
    (greedy : Bool) :
    automaton.Lays (first.plus greedy) (ways.andThen (ways.star greedy)) True := by
  intro base has
  simp only [Fragment.plus, List.length_append, List.length_singleton, ← Nat.add_assoc] at has ⊢
  exact .plus has.right.head (isBody base has.left) consumes

theorem imp (lays : automaton.Lays first ways consuming) (implies : other → consuming) :
    automaton.Lays first ways other :=
  fun base has => (lays base has).imp implies

/-- A repetition without an upper bound has to pass a character every time. -/
theorem repetition (isBody : automaton.Lays first ways consuming) (greedy nullable : Bool)
    (least : Nat) (most : Option Nat)
    (passes : most = none → nullable = false ∧ consuming ∧ ways.Consumes) :
    automaton.Lays (Fragment.repetition greedy nullable first least most)
      (ways.repetition greedy least most) (consuming ∧ 0 < least) := by
  cases most with
  | some most =>
    have lays := (isBody.copies least).followedBy (isBody.atMost greedy (most - least))
    cases least <;> exact lays.imp .inl
  | none =>
    obtain ⟨rfl, isConsuming, consumes⟩ := passes rfl
    have isBody : automaton.Lays first ways True := isBody.imp fun _ => isConsuming
    cases least with
    | zero =>
      have isWays : ways.repetition greedy 0 none = ways.star greedy := Ways.stay_andThen _
      rw [isWays]
      exact (isBody.star consumes greedy).imp fun impossible => absurd impossible.2 (by decide)
    | succ least =>
      have isWays : ways.repetition greedy (least + 1) none =
          (ways.copies least).andThen (ways.andThen (ways.star greedy)) := by
        rw [← Ways.andThen_assoc, Ways.copies_andThen]
        rfl
      rw [isWays]
      exact ((isBody.copies least).followedBy (isBody.plus consumes greedy)).imp
        fun _ => .inr trivial

end Lays

/-! ## Nodes -/

theorem Lays.nil : automaton.Lays (fun _ => []) .stay False :=
  fun base _ => .nil base

theorem Lays.never : automaton.Lays (fun _ => [.consume .empty]) (fun _ => []) consuming := by
  have isNever : Ways.pass .empty = fun _ => [] := by
    funext place
    simp [Ways.pass, CharSet.contains]
  intro base has
  rw [← isNever]
  exact (Performs.consume has.head).imp fun _ => trivial

theorem Lays.save (slot : Nat) : automaton.Lays (fun _ => [.save slot]) (.save slot) False :=
  fun _ has => .save has.head

theorem Lays.orElse {first second : Fragment} {ways others : Ways}
    (isFirst : automaton.Lays first ways consuming)
    (isSecond : automaton.Lays second others consuming) :
    automaton.Lays
      (fun base =>
        .fork (base + 1) (base + 2 + (first (base + 1)).length) ::
          (first (base + 1) ++
            .jump (base + 2 + (first (base + 1)).length +
                (second (base + 2 + (first (base + 1)).length)).length) ::
              second (base + 2 + (first (base + 1)).length)))
      (ways.orElse others) consuming := by
  intro base has
  have isNext : base + 2 + (first (base + 1)).length =
      base + 1 + (first (base + 1)).length + 1 := by omega
  simp only [isNext] at has
  have performs := Performs.choice has.head has.tail.right.head (isFirst _ has.tail.left)
    (isSecond _ has.tail.right.tail)
  simp only [List.length_cons, List.length_append]
  have isEnd : base + ((first (base + 1)).length +
      ((second (base + 2 + (first (base + 1)).length)).length + 1) + 1) =
      base + 1 + (first (base + 1)).length + 1 +
        (second (base + 1 + (first (base + 1)).length + 1)).length := by
    rw [isNext]
    omega
  rw [isEnd]
  exact performs.imp fun isConsuming => ⟨isConsuming, isConsuming⟩

end Automaton

namespace Node

open Automaton (Lays)

variable {automaton : Automaton}

theorem bounds_of_isSteady {node : Node} {least : Nat} {most : Option Nat} {greedy : Bool}
    (steady : isSteady (.repetition node least most greedy) = true) :
    effectiveBounds (node.measure []) least most = (least, most) ∧
      (most = none → 0 < (node.measure []).least) := by
  simp only [isSteady, Bool.and_eq_true, Bool.or_eq_true, beq_iff_eq, decide_eq_true_eq,
    Bool.not_eq_true'] at steady
  obtain ⟨-, ⟨rfl, rfl⟩ | ⟨-, positive | ⟨bounded, unfixed⟩⟩⟩ := steady
  · refine ⟨?_, by simp⟩
    unfold effectiveBounds
    split <;> rfl
  · exact ⟨if_neg (by simp; omega), fun _ => positive⟩
  · refine ⟨if_neg (by simp [unfixed]), ?_⟩
    rintro rfl
    cases bounded

mutual

theorem fragment_lays : (node : Node) → isSteady node = true →
    automaton.Lays node.fragment (ways node) (0 < (node.measure []).least)
  | .empty, _ => Lays.nil.imp (by simp [measure])
  | .consume set, _ => fun _ has => (Automaton.Performs.consume has.head).imp fun _ => trivial
  | .literal char, _ => fun _ has => (Automaton.Performs.consume has.head).imp fun _ => trivial
  | .check assertion, _ => fun _ has =>
    (Automaton.Performs.check has.head).imp (by simp [measure])
  | .concat nodes, steady => sequenceFragment_lays nodes steady
  | .alternation nodes, steady =>
    choiceFragment_lays nodes steady fun _ member positive =>
      Nat.lt_of_lt_of_le positive (Measure.choice_mem member).1
  | .group number node, steady =>
    ((Lays.save _).followedBy ((fragment_lays node steady).followedBy (Lays.save _))).imp
      fun positive => .inr (.inl positive)
  | .repetition node least most greedy, steady => by
      obtain ⟨bounds, positive⟩ := bounds_of_isSteady steady
      have inner := fragment_lays node (Bool.and_eq_true_iff.mp steady).1
      have lays := inner.repetition greedy ((node.measure []).least == 0) least most
        fun isNone => ⟨by simpa using Nat.ne_of_gt (positive isNone), positive isNone,
          (ways_passes node).consumes (positive isNone)⟩
      have isFragment : (Node.repetition node least most greedy).fragment =
          Fragment.repetition greedy ((node.measure []).least == 0) node.fragment least most := by
        funext base
        rw [fragment, bounds]
      rw [isFragment, ways, bounds]
      exact lays.imp fun isPositive => ⟨Nat.pos_of_mul_pos_right isPositive,
        Nat.pos_of_mul_pos_left isPositive⟩
  | .look _ _ _, _ | .reference _, _ | .atomic _, _ | .keepOut, _ | .searchStart, _
  | .groupMatched _, _ | .conditional _ _ _, _ => Lays.never

theorem sequenceFragment_lays : (nodes : List Node) → areSteady nodes = true →
    automaton.Lays (sequenceFragment nodes) (waysOf nodes)
      (0 < (Measure.sequence (measures [] nodes)).least)
  | [], _ => Lays.nil.imp (by simp [measures, Measure.sequence])
  | node :: nodes, steady => by
      obtain ⟨isFirst, areOthers⟩ := Bool.and_eq_true_iff.mp steady
      rw [measures, Measure.sequence_cons]
      exact ((fragment_lays node isFirst).followedBy (sequenceFragment_lays nodes areOthers)).imp
        (by omega)

theorem choiceFragment_lays {consuming : Prop} : (nodes : List Node) → areSteady nodes = true →
    (∀ measure ∈ measures [] nodes, consuming → 0 < measure.least) →
    automaton.Lays (choiceFragment nodes) (waysEach nodes) consuming
  | [], _, _ => Lays.never
  | [node], steady, positive => by
      have isWays : waysEach [node] = ways node := by
        funext place
        simp [waysEach, Ways.orElse]
      rw [isWays]
      exact (fragment_lays node (Bool.and_eq_true_iff.mp steady).1).imp
        (positive _ (List.mem_singleton_self _))
  | node :: next :: nodes, steady, positive => by
      obtain ⟨isFirst, areOthers⟩ := Bool.and_eq_true_iff.mp steady
      obtain ⟨firstPositive, othersPositive⟩ := List.forall_mem_cons.mp positive
      have lays := ((fragment_lays node isFirst).imp firstPositive).orElse
        (choiceFragment_lays (next :: nodes) areOthers othersPositive)
      intro base has
      rw [choiceFragment_cons] at has ⊢
      exact lays base has

end

end Node

namespace Automaton

/-- An automaton for steady nodes takes the first of the ways in which they match. -/
theorem matchAt?_eq_head {nodes : List Node} (steady : Node.areSteady nodes = true)
    (place : Place) :
    (forNodes nodes).matchAt? place =
      (Node.waysOf nodes place).head?.map fun way =>
        (1, some way.1) :: (way.2 ++ [(0, some place)]) := by
  have tail := forNodes_tail nodes
  have performs := Node.sequenceFragment_lays nodes steady 1 tail.has.left
  have exit := tail.behind
  generalize isExit : 1 + (Node.sequenceFragment nodes 1).length = last at performs exit
  have accepts := exit.cons.head
  have isEnd (place : Place) : (forNodes nodes).Ends place (last + 1) := by
    refine ends_of_nexts fun next member => ?_
    simp [nexts, accepts] at member
  have saveEnds (place : Place) : (forNodes nodes).Ends place last :=
    (Performs.save exit.head).ends place (isEnd place) last (Nat.le_refl _) (Nat.le_succ _)
  have finishes : (forNodes nodes).comesTo last = fun place slots =>
      some ((1, some place) :: slots) := by
    rw [comesTo_save exit.head saveEnds, Ways.save_into, comesTo_accept accepts]
  rw [matchAt?_forNodes]
  have comes := congrFun (congrFun (performs.comesTo saveEnds) place) [(0, some place)]
  rw [finishes] at comes
  refine comes.trans ?_
  unfold Ways.into
  cases Node.waysOf nodes place <;> rfl

end Automaton
end Highlighter.Regex

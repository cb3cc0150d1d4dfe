import Highlighter.Proofs.Regex.Preference
import Highlighter.Proofs.Success

/-!
# What backtracking finds

Whatever the machine notes when its tasks are done is noted by a run of its program.  As with
automata the argument goes backward: if the machine can come to an end from the state a step leads
to, it can from the state before, or from one of the choices it has kept.
-/
namespace Highlighter.Regex

/-! ## Runs of programs -/

/-- A program is a loop with a body. -/
inductive Code.Loops : (loop body : Code) → Prop where
  | star {greedy : Bool} {body : Code} : Code.Loops (.star greedy body) body
  | guarded {register least : Nat} {greedy : Bool} {body : Code} :
      Code.Loops (.guarded register least greedy body) body
  | counted {least : Nat} {most : Option Nat} {greedy : Bool} {body : Code} :
      Code.Loops (.counted least most greedy body) body

/-- The register in which a loop notes where it was. -/
def Code.register? : Code → Option Nat
  | .guarded register _ _ _ => some register
  | _ => none

/-- How programs run one after another from a place to another, and what that does to
slots. -/
inductive Runs : List Code → Place → Place → Effect → Prop where
  | nil {place : Place} : Runs [] place place .skip
  | cons {code next : Code} {codes : List Code} {start middle stop : Place}
      {left right : Effect} (first : Runs [code] start middle left)
      (others : Runs (next :: codes) middle stop right) :
      Runs (code :: next :: codes) start stop (left.andThen right)
  | nothing {place : Place} : Runs [.nothing] place place .skip
  | consume {sets : List CharSet} {start stop : Place}
      (passed : Machine.consume? sets start = some stop) : Runs [.consume sets] start stop .skip
  | check {assertion : Assertion} {place : Place} (holds : assertion.holds place) :
      Runs [.check assertion] place place .skip
  | piece {automaton : Automaton} {groups : List Nat} {start stop : Place} {found : Slots}
      (matched : automaton.matchAt? start = some found) (isStop : found.get? 1 = some stop) :
      Runs [.piece automaton groups] start stop
        (Slots.effect (Machine.noteGroups groups found []))
  | sequence {codes : List Code} {start stop : Place} {effect : Effect}
      (inner : Runs codes start stop effect) : Runs [.sequence codes] start stop effect
  | choice {codes : List Code} {code : Code} (member : code ∈ codes) {start stop : Place}
      {effect : Effect} (inner : Runs [code] start stop effect) :
      Runs [.choice codes] start stop effect
  | group {number : Nat} {code : Code} {start stop : Place} {effect : Effect}
      (inner : Runs [code] start stop effect) :
      Runs [.group number code] start stop
        ((Effect.write (2 * number) start).andThen
          (effect.andThen (.write (2 * number + 1) stop)))
  | skipped {greedy : Bool} {code : Code} {place : Place} :
      Runs [.optional greedy code] place place .skip
  | taken {greedy : Bool} {code : Code} {start stop : Place} {effect : Effect}
      (inner : Runs [code] start stop effect) : Runs [.optional greedy code] start stop effect
  | plus {greedy : Bool} {code : Code} {start middle stop : Place} {left right : Effect}
      (once : Runs [code] start middle left) (more : Runs [.star greedy code] middle stop right) :
      Runs [.plus greedy code] start stop (left.andThen right)
  | leave {loop body : Code} (loops : loop.Loops body) {place : Place} {effect : Effect}
      (unchanged : ∀ slot, loop.register? ≠ some slot → effect slot = none) :
      Runs [loop] place place effect
  | again {loop body : Code} (loops : loop.Loops body) {start middle stop : Place}
      {left right effect : Effect} (once : Runs [body] start middle left)
      (more : Runs [loop] middle stop right)
      (same : ∀ slot, loop.register? ≠ some slot → effect slot = left.andThen right slot) :
      Runs [loop] start stop effect
  | look {back : Nat} {code : Code} {place start stop : Place} {effect : Effect}
      (goesBack : place.back? back = some start) (inner : Runs [code] start stop effect) :
      Runs [.look back code] place place effect
  | denied {back : Nat} {code : Code} {place : Place} :
      Runs [.denial back code] place place .skip
  | reference {number : Nat} {chars : List Char} {start stop : Place}
      (passed : start.pass? chars = some stop) : Runs [.reference number] start stop .skip
  | groupMatched {number : Nat} {place : Place} : Runs [.groupMatched number] place place .skip
  | atomic {code : Code} {start stop : Place} {effect : Effect}
      (inner : Runs [code] start stop effect) : Runs [.atomic code] start stop effect
  | keepOut {place : Place} : Runs [.keepOut] place place (.write 0 place)
  | searchStart {place : Place} : Runs [.searchStart] place place .skip
  | whenTrue {condition yes no : Code} {start middle stop : Place} {left right : Effect}
      (test : Runs [condition] start middle left) (inner : Runs [yes] middle stop right) :
      Runs [.conditional condition yes no] start stop (left.andThen right)
  | whenFalse {condition yes no : Code} {start stop : Place} {effect : Effect}
      (inner : Runs [no] start stop effect) :
      Runs [.conditional condition yes no] start stop effect

namespace Runs

variable {code : Code} {codes : List Code} {start : Place} {effect : Effect}

theorem first {middle stop : Place} {left right : Effect} (runs : Runs [code] start middle left)
    (others : Runs codes middle stop right) :
    Runs (code :: codes) start stop (left.andThen right) := by
  cases codes with
  | nil =>
    cases others
    rw [Effect.andThen_skip]
    exact runs
  | cons next codes => exact .cons runs others

theorem split {stop : Place} (runs : Runs (code :: codes) start stop effect) :
    ∃ middle left right, Runs [code] start middle left ∧ Runs codes middle stop right ∧
      effect = left.andThen right := by
  cases codes with
  | nil => exact ⟨stop, effect, .skip, runs, .nil, (Effect.andThen_skip effect).symm⟩
  | cons next codes =>
    cases runs with
    | cons first others => exact ⟨_, _, _, first, others, rfl⟩

theorem append {first second : List Code} {stop : Place}
    (runs : Runs (first ++ second) start stop effect) :
    ∃ middle left right, Runs first start middle left ∧ Runs second middle stop right ∧
      effect = left.andThen right := by
  induction first generalizing start effect with
  | nil => exact ⟨start, .skip, effect, .nil, runs, (Effect.skip_andThen effect).symm⟩
  | cons code codes ih =>
    obtain ⟨middle, left, right, isFirst, others, rfl⟩ := split runs
    obtain ⟨last, before, behind, isBefore, isBehind, rfl⟩ := ih others
    exact ⟨last, left.andThen before, behind, isFirst.first isBefore, isBehind,
      (Effect.andThen_assoc _ _ _).symm⟩

end Runs

/-! ## Working off tasks -/

def Task.code? : Task → Option Code
  | .run code => some code
  | .star greedy code => some (.star greedy code)
  | .guarded register least greedy code _ => some (.guarded register least greedy code)
  | .counted least most greedy code _ => some (.counted least most greedy code)
  | _ => none

/-- Tasks can be worked off from a place. -/
inductive Leads : List Task → Place → (before after : Effect) → Prop where
  | done {place : Place} {before : Effect} : Leads [] place before before
  | code {task : Task} {tasks : List Task} {code : Code} {start stop : Place}
      {before effect after : Effect} (isCode : task.code? = some code)
      (runs : Runs [code] start stop effect)
      (rest : Leads tasks stop (before.andThen effect) after) :
      Leads (task :: tasks) start before after
  | save {slot : Nat} {tasks : List Task} {place : Place} {before after : Effect}
      (rest : Leads tasks place (before.andThen (.write slot place)) after) :
      Leads (.save slot :: tasks) place before after
  | returnTo {tasks : List Task} {place back : Place} {before after : Effect}
      (rest : Leads tasks back before after) : Leads (.returnTo back :: tasks) place before after
  | commit {tasks : List Task} {place : Place} {before after : Effect}
      (rest : Leads tasks place before after) : Leads (.commit :: tasks) place before after

namespace Leads

variable {tasks : List Task} {place : Place} {before after : Effect} {code : Code}

theorem run {start stop : Place} {effect : Effect} (runs : Runs [code] start stop effect)
    (rest : Leads tasks stop (before.andThen effect) after) :
    Leads (.run code :: tasks) start before after :=
  .code rfl runs rest

theorem ofNil (leads : Leads [] place before after) : after = before := by
  cases leads
  rfl

theorem ofRun (leads : Leads (.run code :: tasks) place before after) :
    ∃ stop effect, Runs [code] place stop effect ∧
      Leads tasks stop (before.andThen effect) after := by
  cases leads with
  | code isCode runs rest =>
    cases isCode
    exact ⟨_, _, runs, rest⟩

theorem ofRuns {codes : List Code}
    (leads : Leads (codes.foldr (fun code tasks => .run code :: tasks) tasks) place before after) :
    ∃ stop effect, Runs codes place stop effect ∧
      Leads tasks stop (before.andThen effect) after := by
  induction codes generalizing place before with
  | nil => exact ⟨place, .skip, .nil, leads⟩
  | cons code codes ih =>
    obtain ⟨middle, effect, runs, rest⟩ := leads.ofRun
    obtain ⟨stop, other, others, rest⟩ := ih rest
    rw [Effect.andThen_assoc] at rest
    exact ⟨stop, _, runs.first others, rest⟩

theorem ofSave {slot : Nat} (leads : Leads (.save slot :: tasks) place before after) :
    Leads tasks place (before.andThen (.write slot place)) after := by
  cases leads with
  | code isCode => cases isCode
  | save rest => exact rest

theorem ofReturnTo {back : Place} (leads : Leads (.returnTo back :: tasks) place before after) :
    Leads tasks back before after := by
  cases leads with
  | code isCode => cases isCode
  | returnTo rest => exact rest

theorem ofCommit (leads : Leads (.commit :: tasks) place before after) :
    Leads tasks place before after := by
  cases leads with
  | code isCode => cases isCode
  | commit rest => exact rest

theorem not_deny {depth : Nat} : ¬ Leads (.deny depth :: tasks) place before after := by
  intro leads
  cases leads with
  | code isCode => cases isCode

end Leads

/-! ## Steps of the machine -/

namespace Machine

def CanTake (choice : Choice) (after : Effect) : Prop :=
  Leads choice.tasks choice.place choice.slots.effect after

/-- The tasks of the machine lead to an end, or one of its choices does. -/
def CanEnd (machine : Machine) (after : Effect) : Prop :=
  Leads machine.tasks machine.place machine.slots.effect after ∨
    ∃ choice ∈ machine.choices, CanTake choice after

def Progress.CanEnd : Progress → Effect → Prop
  | .onward machine, after => machine.CanEnd after
  | .matched slots, after => after = slots.effect
  | .unmatched, _ => False
  | .exhausted _, _ => False

variable {machine : Machine} {tasks : List Task} {after : Effect} {place : Place} {leadsHere : Prop}
  {origin : Nat} {continued : Bool} {code : Code} {slots : Slots}

theorem canEnd_fail (canEnd : machine.fail.CanEnd after) :
    ∃ choice ∈ machine.choices, CanTake choice after := by
  unfold fail at canEnd
  split at canEnd
  · exact canEnd.elim
  · rename_i choice choices isChoices
    rw [isChoices]
    split at canEnd
    · exact canEnd.elim
    · rcases canEnd with leads | ⟨other, member, takes⟩
      · exact ⟨choice, List.mem_cons_self, leads⟩
      · exact ⟨other, List.mem_cons_of_mem _ member, takes⟩

theorem canEnd_goOnAt (canEnd : (machine.goOnAt tasks place).CanEnd after)
    (leads : Leads tasks place machine.slots.effect after → leadsHere) :
    leadsHere ∨ ∃ choice ∈ machine.choices, CanTake choice after :=
  canEnd.imp_left leads

theorem canEnd_goOn (canEnd : (machine.goOn tasks).CanEnd after)
    (leads : Leads tasks machine.place machine.slots.effect after → leadsHere) :
    leadsHere ∨ ∃ choice ∈ machine.choices, CanTake choice after :=
  canEnd.imp_left leads

theorem canEnd_fork {taken kept : List Task} (canEnd : (machine.fork taken kept).CanEnd after)
    (takenLeads : Leads taken machine.place machine.slots.effect after → leadsHere)
    (keptLeads : Leads kept machine.place machine.slots.effect after → leadsHere) :
    leadsHere ∨ ∃ choice ∈ machine.choices, CanTake choice after := by
  rcases canEnd with leads | ⟨choice, member, takes⟩
  · exact .inl (takenLeads leads)
  · rcases List.mem_cons.mp member with rfl | isOther
    · exact .inl (keptLeads takes)
    · exact .inr ⟨choice, isOther, takes⟩

theorem canEnd_loop {mayLeave greedy : Bool} {onward leaving : List Task}
    (canEnd : (machine.loop mayLeave greedy onward leaving).CanEnd after)
    (onwardLeads : Leads onward machine.place machine.slots.effect after → leadsHere)
    (leavingLeads : Leads leaving machine.place machine.slots.effect after → leadsHere) :
    leadsHere ∨ ∃ choice ∈ machine.choices, CanTake choice after := by
  unfold loop at canEnd
  split at canEnd
  · exact canEnd_goOn canEnd onwardLeads
  · split at canEnd
    · exact canEnd_fork canEnd onwardLeads leavingLeads
    · exact canEnd_fork canEnd leavingLeads onwardLeads

theorem noteGroups_append (groups : List Nat) (found slots : Slots) :
    noteGroups groups found slots = noteGroups groups found [] ++ slots := by
  unfold noteGroups
  induction groups generalizing slots with
  | nil => rfl
  | cons number groups ih =>
    rw [List.foldl_cons, List.foldl_cons, ih,
      ih [_, _], List.append_assoc]
    rfl

theorem canEnd_start (isTasks : machine.tasks = .run code :: tasks)
    (canEnd : (machine.start origin continued code tasks).CanEnd after) : machine.CanEnd after := by
  have finish : ∀ {stop : Place} {effect : Effect}, Runs [code] machine.place stop effect →
      Leads tasks stop (machine.slots.effect.andThen effect) after →
      Leads machine.tasks machine.place machine.slots.effect after := by
    intro stop effect runs rest
    rw [isTasks]
    exact .run runs rest
  have stay : Runs [code] machine.place machine.place .skip →
      Leads tasks machine.place machine.slots.effect after →
      Leads machine.tasks machine.place machine.slots.effect after :=
    fun runs rest => finish runs rest
  cases code with
  | nothing => exact canEnd_goOn canEnd (stay .nothing)
  | consume sets =>
    simp only [start] at canEnd
    split at canEnd
    · rename_i place passed
      exact canEnd_goOnAt canEnd (finish (.consume passed))
    · exact .inr (canEnd_fail canEnd)
  | check assertion =>
    simp only [start] at canEnd
    split at canEnd
    · rename_i holds
      exact canEnd_goOn canEnd (stay (.check holds))
    · exact .inr (canEnd_fail canEnd)
  | piece automaton groups =>
    simp only [start] at canEnd
    split at canEnd
    · rename_i found matched
      split at canEnd
      · rename_i place isStop
        refine canEnd.imp_left fun rest => finish (.piece matched isStop) ?_
        rw [← Slots.effect_append, ← noteGroups_append]
        exact rest
      · exact .inr (canEnd_fail canEnd)
    · exact .inr (canEnd_fail canEnd)
  | sequence codes =>
    refine canEnd_goOn canEnd fun leads => ?_
    obtain ⟨stop, effect, runs, rest⟩ := leads.ofRuns
    exact finish (.sequence runs) rest
  | choice codes =>
    cases codes with
    | nil => exact .inr (canEnd_fail canEnd)
    | cons code codes =>
      cases codes with
      | nil =>
        refine canEnd_goOn canEnd fun leads => ?_
        obtain ⟨stop, effect, runs, rest⟩ := leads.ofRun
        exact finish (.choice (List.mem_singleton_self code) runs) rest
      | cons next codes =>
        refine canEnd_fork canEnd (fun leads => ?_) fun leads => ?_
        · obtain ⟨stop, effect, runs, rest⟩ := leads.ofRun
          exact finish (.choice List.mem_cons_self runs) rest
        · obtain ⟨stop, effect, runs, rest⟩ := leads.ofRun
          cases runs with
          | choice member inner =>
            exact finish (.choice (List.mem_cons_of_mem _ member) inner) rest
          | leave loops => cases loops
          | again loops => cases loops
  | group number code =>
    refine canEnd.imp_left fun leads => ?_
    obtain ⟨stop, effect, runs, rest⟩ := leads.ofRun
    refine finish (.group runs) ?_
    rw [← Effect.andThen_assoc, ← Effect.andThen_assoc, ← Slots.effect_cons]
    exact rest.ofSave
  | optional greedy code =>
    have take : Leads (.run code :: tasks) machine.place machine.slots.effect after →
        Leads machine.tasks machine.place machine.slots.effect after := by
      intro leads
      obtain ⟨stop, effect, runs, rest⟩ := leads.ofRun
      exact finish (.taken runs) rest
    cases greedy with
    | true => exact canEnd_fork canEnd take (stay .skipped)
    | false => exact canEnd_fork canEnd (stay .skipped) take
  | star greedy code =>
    refine canEnd_goOn canEnd fun leads => ?_
    cases leads with
    | code isCode runs rest =>
      cases isCode
      exact finish runs rest
  | plus greedy code =>
    refine canEnd_goOn canEnd fun leads => ?_
    obtain ⟨middle, effect, once, rest⟩ := leads.ofRun
    cases rest with
    | code isCode more rest =>
      cases isCode
      rw [Effect.andThen_assoc] at rest
      exact finish (.plus once more) rest
  | guarded register least greedy code =>
    refine canEnd_goOn canEnd fun leads => ?_
    cases leads with
    | code isCode runs rest =>
      cases isCode
      exact finish runs rest
  | counted least most greedy code =>
    refine canEnd_goOn canEnd fun leads => ?_
    cases leads with
    | code isCode runs rest =>
      cases isCode
      exact finish runs rest
  | look back code =>
    simp only [start] at canEnd
    split at canEnd
    · rename_i place goesBack
      refine canEnd_goOnAt canEnd fun leads => ?_
      obtain ⟨stop, effect, runs, rest⟩ := leads.ofRun
      exact finish (.look goesBack runs) rest.ofReturnTo
    · exact .inr (canEnd_fail canEnd)
  | denial back code =>
    -- The way that was kept goes on behind the denial; the other one never ends.
    have kept : (∃ choice ∈ (machine.keep tasks).choices, CanTake choice after) →
        machine.CanEnd after := by
      rintro ⟨choice, member, takes⟩
      rcases List.mem_cons.mp member with rfl | isOther
      · exact .inl (stay .denied takes)
      · exact .inr ⟨choice, isOther, takes⟩
    simp only [start] at canEnd
    split at canEnd
    · rcases canEnd with leads | choices
      · obtain ⟨stop, effect, runs, rest⟩ := leads.ofRun
        exact absurd rest Leads.not_deny
      · exact kept choices
    · exact kept (canEnd_fail canEnd)
  | reference number =>
    simp only [start] at canEnd
    split at canEnd
    · split at canEnd
      · rename_i place passed
        exact canEnd_goOnAt canEnd (finish (.reference passed))
      · exact .inr (canEnd_fail canEnd)
    · exact .inr (canEnd_fail canEnd)
  | groupMatched number =>
    simp only [start] at canEnd
    split at canEnd
    · exact canEnd_goOn canEnd (stay .groupMatched)
    · exact .inr (canEnd_fail canEnd)
  | atomic code =>
    refine canEnd.imp_left fun leads => ?_
    obtain ⟨stop, effect, runs, rest⟩ := leads.ofRun
    exact finish (.atomic runs) rest.ofCommit
  | keepOut =>
    refine canEnd.imp_left fun leads => finish .keepOut ?_
    rw [← Slots.effect_cons]
    exact leads
  | searchStart =>
    simp only [start] at canEnd
    split at canEnd
    · exact canEnd_goOn canEnd (stay .searchStart)
    · exact .inr (canEnd_fail canEnd)
  | conditional condition yes no =>
    refine @canEnd_fork { machine with marks := machine.depth :: machine.marks } after _ _ _
      canEnd (fun leads => ?_) fun leads => ?_
    · obtain ⟨middle, effect, test, rest⟩ := leads.ofRun
      obtain ⟨stop, other, inner, rest⟩ := rest.ofCommit.ofRun
      rw [Effect.andThen_assoc] at rest
      exact finish (.whenTrue test inner) rest
    · obtain ⟨stop, effect, inner, rest⟩ := leads.ofRun
      exact finish (.whenFalse inner) rest

theorem leads_leave {task : Task} {loop body : Code} (isCode : task.code? = some loop)
    (loops : loop.Loops body) {before noted : Effect}
    (unchanged : ∀ slot, loop.register? ≠ some slot → noted slot = none)
    (leads : Leads tasks place (before.andThen noted) after) :
    Leads (task :: tasks) place before after :=
  .code isCode (.leave loops unchanged) leads

theorem leads_again {task next : Task} {loop body : Code} (isCode : task.code? = some loop)
    (nextIsCode : next.code? = some loop) (loops : loop.Loops body) {before noted : Effect}
    (unchanged : ∀ slot, loop.register? ≠ some slot → noted slot = none)
    (leads : Leads (.run body :: next :: tasks) place (before.andThen noted) after) :
    Leads (task :: tasks) place before after := by
  obtain ⟨middle, effect, once, rest⟩ := leads.ofRun
  obtain ⟨code, stop, other, isLoop, more, rest⟩ : ∃ code stop other, next.code? = some code ∧
      Runs [code] middle stop other ∧
      Leads tasks stop (((before.andThen noted).andThen effect).andThen other) after := by
    cases rest with
    | code isLoop more rest => exact ⟨_, _, _, isLoop, more, rest⟩
    | save => cases nextIsCode
    | returnTo => cases nextIsCode
    | commit => cases nextIsCode
  cases nextIsCode.symm.trans isLoop
  rw [Effect.andThen_assoc, Effect.andThen_assoc] at rest
  refine .code isCode (.again loops once more ?_) rest
  intro slot other
  simp [unchanged slot other]

theorem canEnd_step (canEnd : (machine.step origin continued).CanEnd after) :
    machine.CanEnd after := by
  unfold step at canEnd
  split at canEnd
  · rename_i isTasks
    left
    rw [isTasks, canEnd]
    exact .done
  · rename_i code tasks isTasks
    exact canEnd_start isTasks canEnd
  · rename_i slot tasks isTasks
    refine canEnd.imp_left fun leads => ?_
    rw [isTasks]
    exact .save (Slots.effect_cons _ _ _ ▸ leads)
  · rename_i place tasks isTasks
    refine canEnd_goOnAt canEnd fun leads => ?_
    rw [isTasks]
    exact .returnTo leads
  · rename_i tasks isTasks
    split at canEnd
    · refine canEnd_goOn canEnd fun leads => ?_
      rw [isTasks]
      exact .commit leads
    · rcases canEnd with leads | ⟨choice, member, takes⟩
      · left
        rw [isTasks]
        exact .commit leads
      · exact .inr ⟨choice, List.mem_of_mem_drop member, takes⟩
  · obtain ⟨choice, member, takes⟩ := canEnd_fail canEnd
    exact .inr ⟨choice, List.mem_of_mem_drop member, takes⟩
  · rename_i greedy code tasks isTasks
    have unchanged : ∀ slot, (Code.star greedy code).register? ≠ some slot →
        Effect.skip slot = none := fun _ _ => rfl
    refine canEnd_loop canEnd (fun leads => ?_) fun leads => ?_
    · rw [isTasks]
      exact leads_again rfl rfl .star unchanged leads
    · rw [isTasks]
      exact leads_leave rfl .star unchanged leads
  · rename_i register least greedy code count tasks isTasks
    have unchanged : ∀ slot,
        (Code.guarded register least greedy code).register? ≠ some slot →
          Effect.write register machine.place slot = none := by
      intro slot other
      have different : slot ≠ register := fun same => other (congrArg some same.symm)
      simp [Effect.write, different]
    have nothing : ∀ slot, (Code.guarded register least greedy code).register? ≠ some slot →
        Effect.skip slot = none := fun _ _ => rfl
    simp only at canEnd
    split at canEnd
    · exact .inr (canEnd_fail canEnd)
    · split at canEnd
      · refine @canEnd_loop (machine.note register machine.place) after _ _ _ _ _ canEnd
          (fun leads => ?_) fun leads => ?_
        · rw [isTasks]
          exact leads_again rfl rfl .guarded unchanged (Slots.effect_cons _ _ _ ▸ leads)
        · rw [isTasks]
          exact leads_leave rfl .guarded unchanged (Slots.effect_cons _ _ _ ▸ leads)
      · refine canEnd_goOn canEnd fun leads => ?_
        rw [isTasks]
        exact leads_again rfl rfl .guarded nothing leads
  · rename_i least most greedy code count tasks isTasks
    have unchanged : ∀ slot, (Code.counted least most greedy code).register? ≠ some slot →
        Effect.skip slot = none := fun _ _ => rfl
    split at canEnd
    · refine canEnd_goOn canEnd fun leads => ?_
      rw [isTasks]
      exact leads_leave rfl .counted unchanged leads
    · refine canEnd_loop canEnd (fun leads => ?_) fun leads => ?_
      · rw [isTasks]
        exact leads_again rfl rfl .counted unchanged leads
      · rw [isTasks]
        exact leads_leave rfl .counted unchanged leads

theorem canEnd_run {fuel : Nat} (found : run origin continued fuel machine = .ok (some slots)) :
    machine.CanEnd slots.effect := by
  induction fuel generalizing machine with
  | zero => cases found
  | succ fuel ih =>
    rw [run] at found
    split at found
    · rename_i next isNext
      have canEnd : (machine.step origin continued).CanEnd slots.effect := by
        rw [isNext]
        exact ih found
      exact canEnd_step canEnd
    · rename_i isMatched
      cases found
      have canEnd : (machine.step origin continued).CanEnd slots.effect := by
        rw [isMatched]
        rfl
      exact canEnd_step canEnd
    · cases found
    · cases found

theorem search_runs (found : search code continued place = .ok (some slots)) :
    ∃ stop, Runs [code] place stop slots.effect := by
  rcases canEnd_run found with leads | ⟨choice, member, -⟩
  · obtain ⟨stop, effect, runs, rest⟩ := leads.ofRun
    rw [rest.ofNil, Slots.effect_nil, Effect.skip_andThen]
    exact ⟨stop, runs⟩
  · cases member

end Machine
end Highlighter.Regex

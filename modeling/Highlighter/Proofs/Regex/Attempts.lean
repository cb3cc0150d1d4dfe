import Mathlib.Data.List.Forall2
import Highlighter.Proofs.Regex.Machine
import Highlighter.Proofs.Regex.Relocation

/-!
# Trying one alternative after another

A machine that keeps choices for later runs like one that keeps none, until it has to go
back to them, and it does not matter which numbers the groups and registers of its program
have.  So what an alternative among others comes to is what it comes to by itself.
-/
namespace Highlighter.Regex

/-! ## Renamed slots -/

/-- Other numbers for the groups and the registers of a program.  Slots below `bound` belong
to groups, and the others are registers. -/
structure Renumbering where
  map : Nat → Nat
  bound : Nat
  shift : Nat
  injective : ∀ first second, map first = map second → first = second
  fixed : map 0 = 0
  positive : 1 < bound
  below : ∀ slot, slot < bound → renameSlot map slot < bound + shift

theorem renameSlot_injective {map : Nat → Nat}
    (injective : ∀ first second, map first = map second → first = second) {first second : Nat}
    (same : renameSlot map first = renameSlot map second) : first = second := by
  unfold renameSlot at same
  have half := injective (first / 2) (second / 2) (by omega)
  omega

namespace Renumbering

variable (scheme : Renumbering)

def slot (slot : Nat) : Nat :=
  if slot < scheme.bound then renameSlot scheme.map slot else slot + scheme.shift

def entries (slots : Slots) : Slots :=
  slots.map fun entry => (scheme.slot entry.1, entry.2)

def Names (number : Nat) : Prop :=
  2 * number + 1 < scheme.bound

theorem slot_injective {first second : Nat}
    (same : scheme.slot first = scheme.slot second) : first = second := by
  have firstBelow := scheme.below first
  have secondBelow := scheme.below second
  unfold slot at same
  split at same <;> split at same
  · exact renameSlot_injective scheme.injective same
  · omega
  · omega
  · omega

theorem slot_start {number : Nat} (names : scheme.Names number) :
    scheme.slot (2 * number) = 2 * scheme.map number := by
  unfold Names at names
  rw [slot, if_pos (by omega), renameSlot_start]

theorem slot_stop {number : Nat} (names : scheme.Names number) :
    scheme.slot (2 * number + 1) = 2 * scheme.map number + 1 := by
  unfold Names at names
  rw [slot, if_pos names, renameSlot_stop]

theorem slot_zero : scheme.slot 0 = 0 := by
  have zero := @slot_start scheme 0 scheme.positive
  rwa [Nat.mul_zero, scheme.fixed] at zero

theorem slot_register {register : Nat} (isRegister : scheme.bound ≤ register) :
    scheme.slot register = register + scheme.shift := by
  rw [slot, if_neg (by omega)]

end Renumbering

theorem Slots.get?_map_append {rename : Nat → Nat}
    (injective : ∀ first second, rename first = rename second → first = second)
    {noted otherNoted : Slots}
    (agree : ∀ slot, otherNoted.get? (rename slot) = noted.get? slot) (slots : Slots)
    (slot : Nat) :
    Slots.get? ((slots.map fun entry => (rename entry.1, entry.2)) ++ otherNoted) (rename slot) =
      Slots.get? (slots ++ noted) slot := by
  unfold Slots.get? at agree ⊢
  induction slots with
  | nil => exact agree slot
  | cons entry slots ih =>
    rw [List.map_cons, List.cons_append, List.cons_append, List.find?_cons, List.find?_cons]
    by_cases same : entry.1 = slot
    · simp [same]
    · have different : rename entry.1 ≠ rename slot := fun equal => same (injective _ _ equal)
      simp only [beq_eq_false_iff_ne.mpr same, beq_eq_false_iff_ne.mpr different]
      exact ih

theorem Slots.get?_map {rename : Nat → Nat}
    (injective : ∀ first second, rename first = rename second → first = second)
    (slots : Slots) (slot : Nat) :
    Slots.get? (slots.map fun entry => (rename entry.1, entry.2)) (rename slot) =
      slots.get? slot := by
  have read := @Slots.get?_map_append rename injective [] [] (fun _ => rfl) slots slot
  rwa [List.append_nil, List.append_nil] at read

theorem Slots.get?_rename {map : Nat → Nat}
    (injective : ∀ first second, map first = map second → first = second) (slots : Slots)
    (slot : Nat) : (slots.rename map).get? (renameSlot map slot) = slots.get? slot :=
  Slots.get?_map (fun _ _ => renameSlot_injective injective) slots slot

namespace Renumbering

variable (scheme : Renumbering)

theorem noteGroups_entries (found slots : Slots) {groups : List Nat}
    (named : ∀ number ∈ groups, scheme.Names number) :
    Machine.noteGroups (groups.map scheme.map) (found.rename scheme.map)
        (scheme.entries slots) =
      scheme.entries (Machine.noteGroups groups found slots) := by
  unfold Machine.noteGroups
  induction groups generalizing slots with
  | nil => rfl
  | cons number groups ih =>
    have names := named number List.mem_cons_self
    have start := Slots.get?_rename scheme.injective found (2 * number)
    have stop := Slots.get?_rename scheme.injective found (2 * number + 1)
    rw [renameSlot_start] at start
    rw [renameSlot_stop] at stop
    rw [List.map_cons, List.foldl_cons, List.foldl_cons, start, stop,
      ← scheme.slot_stop names, ← scheme.slot_start names]
    exact ih
      ((2 * number + 1, found.get? (2 * number + 1)) ::
        (2 * number, found.get? (2 * number)) :: slots)
      fun other member => named other (List.mem_cons_of_mem _ member)

end Renumbering

/-- What two machines have that need not be alike: choices that only the second has kept, from
before, and what each has noted before and writes last. -/
structure Surroundings (scheme : Renumbering) where
  kept : List Choice
  noted : Slots
  otherNoted : Slots
  last : List Nat
  otherLast : List Nat
  agree : ∀ slot, otherNoted.get? (scheme.slot slot) = noted.get? slot

namespace Surroundings

variable {scheme : Renumbering}

def behind (scheme : Renumbering) (kept : List Choice) : Surroundings scheme where
  kept := kept
  noted := []
  otherNoted := []
  last := []
  otherLast := []
  agree := fun _ => rfl

/-- Two machines have noted the same since they began. -/
def Carry (around : Surroundings scheme) (source target : Slots) : Prop :=
  ∃ front, source = front ++ around.noted ∧ target = scheme.entries front ++ around.otherNoted

section Carry

variable {around : Surroundings scheme} {source target : Slots}

theorem Carry.get? (carry : around.Carry source target) (slot : Nat) :
    target.get? (scheme.slot slot) = source.get? slot := by
  obtain ⟨front, rfl, rfl⟩ := carry
  exact Slots.get?_map_append (fun _ _ => scheme.slot_injective) around.agree front slot

theorem Carry.span? (carry : around.Carry source target) {number : Nat}
    (names : scheme.Names number) : target.span? (scheme.map number) = source.span? number := by
  rw [Slots.span?, Slots.span?, ← scheme.slot_stop names, ← scheme.slot_start names, carry.get?,
    carry.get?]

theorem Carry.cons (carry : around.Carry source target) (slot : Nat) (place : Option Place) :
    around.Carry ((slot, place) :: source) ((scheme.slot slot, place) :: target) := by
  obtain ⟨front, rfl, rfl⟩ := carry
  exact ⟨(slot, place) :: front, rfl, rfl⟩

theorem Carry.noteGroups (carry : around.Carry source target) (found : Slots)
    {groups : List Nat} (named : ∀ number ∈ groups, scheme.Names number) :
    around.Carry (Machine.noteGroups groups found source)
      (Machine.noteGroups (groups.map scheme.map) (found.rename scheme.map) target) := by
  obtain ⟨front, rfl, rfl⟩ := carry
  refine ⟨Machine.noteGroups groups found front, ?_, ?_⟩
  · rw [Machine.noteGroups_append, Machine.noteGroups_append groups found front,
      List.append_assoc]
  · rw [Machine.noteGroups_append, ← List.append_assoc, ← Machine.noteGroups_append,
      scheme.noteGroups_entries found front named]

end Carry
end Surroundings

/-! ## Programs alike -/

/-- Two programs differ only in the numbers of their groups and registers. -/
inductive Code.Alike (scheme : Renumbering) : Code → Code → Prop where
  | nothing : Alike scheme .nothing .nothing
  | consume {sets : List CharSet} : Alike scheme (.consume sets) (.consume sets)
  | check {assertion : Assertion} : Alike scheme (.check assertion) (.check assertion)
  | piece {automaton other : Automaton} {groups : List Nat}
      (same : ∀ place, other.matchAt? place =
        (automaton.matchAt? place).map (Slots.rename scheme.map))
      (named : ∀ number ∈ groups, scheme.Names number) :
      Alike scheme (.piece automaton groups) (.piece other (groups.map scheme.map))
  | sequence {codes others : List Code} (each : List.Forall₂ (Alike scheme) codes others) :
      Alike scheme (.sequence codes) (.sequence others)
  | choice {codes others : List Code} (each : List.Forall₂ (Alike scheme) codes others) :
      Alike scheme (.choice codes) (.choice others)
  | group {number : Nat} {code other : Code} (names : scheme.Names number)
      (inner : Alike scheme code other) :
      Alike scheme (.group number code) (.group (scheme.map number) other)
  | optional {greedy : Bool} {code other : Code} (inner : Alike scheme code other) :
      Alike scheme (.optional greedy code) (.optional greedy other)
  | star {greedy : Bool} {code other : Code} (inner : Alike scheme code other) :
      Alike scheme (.star greedy code) (.star greedy other)
  | plus {greedy : Bool} {code other : Code} (inner : Alike scheme code other) :
      Alike scheme (.plus greedy code) (.plus greedy other)
  | guarded {register least : Nat} {greedy : Bool} {code other : Code}
      (isRegister : scheme.bound ≤ register) (inner : Alike scheme code other) :
      Alike scheme (.guarded register least greedy code)
        (.guarded (register + scheme.shift) least greedy other)
  | counted {least : Nat} {most : Option Nat} {greedy : Bool} {code other : Code}
      (inner : Alike scheme code other) :
      Alike scheme (.counted least most greedy code) (.counted least most greedy other)
  | look {back : Nat} {code other : Code} (inner : Alike scheme code other) :
      Alike scheme (.look back code) (.look back other)
  | denial {back : Nat} {code other : Code} (inner : Alike scheme code other) :
      Alike scheme (.denial back code) (.denial back other)
  | reference {number : Nat} (names : scheme.Names number) :
      Alike scheme (.reference number) (.reference (scheme.map number))
  | groupMatched {number : Nat} (names : scheme.Names number) :
      Alike scheme (.groupMatched number) (.groupMatched (scheme.map number))
  | atomic {code other : Code} (inner : Alike scheme code other) :
      Alike scheme (.atomic code) (.atomic other)
  | keepOut : Alike scheme .keepOut .keepOut
  | searchStart : Alike scheme .searchStart .searchStart
  | conditional {condition yes no otherCondition otherYes otherNo : Code}
      (test : Alike scheme condition otherCondition) (whenTrue : Alike scheme yes otherYes)
      (whenFalse : Alike scheme no otherNo) :
      Alike scheme (.conditional condition yes no) (.conditional otherCondition otherYes otherNo)

/-- Two tasks differ only in the numbers of groups and registers, and in how many choices
there were before, `depth` more for the second. -/
inductive Task.Alike (scheme : Renumbering) (depth : Nat) : Task → Task → Prop where
  | run {code other : Code} (inner : code.Alike scheme other) :
      Alike scheme depth (.run code) (.run other)
  | save {slot : Nat} : Alike scheme depth (.save slot) (.save (scheme.slot slot))
  | returnTo {place : Place} : Alike scheme depth (.returnTo place) (.returnTo place)
  | commit : Alike scheme depth .commit .commit
  | deny {mark : Nat} : Alike scheme depth (.deny mark) (.deny (mark + depth))
  | star {greedy : Bool} {code other : Code} (inner : code.Alike scheme other) :
      Alike scheme depth (.star greedy code) (.star greedy other)
  | guarded {register least : Nat} {greedy : Bool} {code other : Code} {count : Nat}
      (isRegister : scheme.bound ≤ register) (inner : code.Alike scheme other) :
      Alike scheme depth (.guarded register least greedy code count)
        (.guarded (register + scheme.shift) least greedy other count)
  | counted {least : Nat} {most : Option Nat} {greedy : Bool} {code other : Code} {count : Nat}
      (inner : code.Alike scheme other) :
      Alike scheme depth (.counted least most greedy code count)
        (.counted least most greedy other count)

/-- Two lists of tasks are alike up to what each writes last. -/
inductive Task.AllAlike {scheme : Renumbering} (around : Surroundings scheme) :
    List Task → List Task → Prop where
  | last : AllAlike around (around.last.map .save) (around.otherLast.map .save)
  | cons {task other : Task} {tasks others : List Task}
      (same : task.Alike scheme around.kept.length other) (alike : AllAlike around tasks others) :
      AllAlike around (task :: tasks) (other :: others)

theorem Task.allAlike_behind {scheme : Renumbering} {kept : List Choice}
    {tasks others : List Task}
    (alike : List.Forall₂ (Task.Alike scheme kept.length) tasks others) :
    Task.AllAlike (.behind scheme kept) tasks others := by
  induction alike with
  | nil => exact .last
  | cons same _ ih => exact .cons same ih

/-- Two choices differ only in such numbers, and in what is around them. -/
structure Choice.Alike {scheme : Renumbering} (around : Surroundings scheme)
    (source target : Choice) : Prop where
  tasks : Task.AllAlike around source.tasks target.tasks
  place : target.place = source.place
  slots : around.Carry source.slots target.slots
  marks : target.marks = source.marks.map (· + around.kept.length)

namespace Machine

/-- The second machine is like the first, but has something else around it. -/
structure Frames {scheme : Renumbering} (around : Surroundings scheme) (source target : Machine) :
    Prop where
  tasks : Task.AllAlike around source.tasks target.tasks
  place : target.place = source.place
  slots : around.Carry source.slots target.slots
  marks : target.marks = source.marks.map (· + around.kept.length)
  choices : ∃ others, target.choices = others ++ around.kept ∧
    List.Forall₂ (Choice.Alike around) source.choices others
  sourceDepth : source.depth = source.choices.length
  targetDepth : target.depth = source.depth + around.kept.length
  backtracks : source.backtracks ≤ target.backtracks

def resume (choice : Choice) (choices : List Choice) (backtracks : Nat) : Machine where
  tasks := choice.tasks
  place := choice.place
  slots := choice.slots
  marks := choice.marks
  choices := choices
  depth := choices.length
  backtracks := backtracks

/-- How the second of two machines goes on when the first does, and what it does when the
first has no choice left. -/
inductive Goes {scheme : Renumbering} (around : Surroundings scheme) :
    Progress → Progress → Prop where
  | onward {source target : Machine} (frames : Frames around source target) :
      Goes around (.onward source) (.onward target)
  | unmatched (none : around.kept = []) : Goes around .unmatched .unmatched
  | resumed {choice : Choice} {choices : List Choice} (some : around.kept = choice :: choices)
      (backtracks : Nat) :
      Goes around .unmatched (.onward (resume choice choices backtracks))
  | exhausted {progress : Progress} {cause : SearchError} :
      Goes around progress (.exhausted cause)

namespace Frames

variable {scheme : Renumbering} {around : Surroundings scheme} {source target : Machine}
  {tasks others : List Task}

theorem allAlike_append {codes otherCodes : List Code}
    (each : List.Forall₂ (Code.Alike scheme) codes otherCodes)
    (alike : Task.AllAlike around tasks others) :
    Task.AllAlike around (codes.foldr (fun code tasks => .run code :: tasks) tasks)
      (otherCodes.foldr (fun code tasks => .run code :: tasks) others) := by
  induction each with
  | nil => exact alike
  | cons same _ ih => exact .cons (.run same) ih

variable (frames : Frames around source target)

include frames

theorem fail : Goes around source.fail target.fail := by
  obtain ⟨others, isChoices, alike⟩ := frames.choices
  have sourceDepth := frames.sourceDepth
  have targetDepth := frames.targetDepth
  have fewer := frames.backtracks
  unfold Machine.fail
  rw [isChoices]
  generalize source.choices = choices at alike sourceDepth
  cases alike with
  | nil =>
    cases isKept : around.kept with
    | nil => exact .unmatched isKept
    | cons choice rest =>
      simp only [List.nil_append]
      split
      · exact .exhausted
      · have depth : target.depth - 1 = rest.length := by
          rw [targetDepth, sourceDepth, isKept]
          simp
        rw [depth]
        exact .resumed isKept _
  | cons same alike =>
    simp only [List.cons_append]
    split
    · split
      · exact .exhausted
      · omega
    · split
      · exact .exhausted
      · simp only [List.length_cons] at sourceDepth
        refine .onward
          { tasks := same.tasks
            place := same.place
            slots := same.slots
            marks := same.marks
            choices := ⟨_, rfl, alike⟩
            sourceDepth := ?_
            targetDepth := ?_
            backtracks := Nat.succ_le_succ fewer }
        · simp only [sourceDepth, Nat.add_sub_cancel]
        · simp only [targetDepth, sourceDepth]
          omega

theorem goOn (alike : Task.AllAlike around tasks others) :
    Goes around (source.goOn tasks) (target.goOn others) :=
  .onward { frames with tasks := alike }

theorem goOnAt (alike : Task.AllAlike around tasks others) (place : Place) :
    Goes around (source.goOnAt tasks place) (target.goOnAt others place) :=
  .onward { frames with tasks := alike, place := rfl }

theorem keep (alike : Task.AllAlike around tasks others) :
    Frames around (source.keep tasks) (target.keep others) := by
  obtain ⟨choices, isChoices, each⟩ := frames.choices
  refine { frames with
    choices := ⟨⟨others, target.place, target.slots, target.marks⟩ :: choices, ?_, .cons ?_ each⟩
    sourceDepth := ?_
    targetDepth := ?_ }
  · simp only [Machine.keep, isChoices, List.cons_append]
  · exact { tasks := alike, place := frames.place, slots := frames.slots, marks := frames.marks }
  · simp only [Machine.keep, frames.sourceDepth, List.length_cons]
  · simp only [Machine.keep, frames.targetDepth]
    omega

theorem fork {taken otherTaken : List Task} (alike : Task.AllAlike around taken otherTaken)
    (keptAlike : Task.AllAlike around tasks others) :
    Goes around (source.fork taken tasks) (target.fork otherTaken others) :=
  (frames.keep keptAlike).goOn alike

theorem note (slot : Nat) (place : Option Place) :
    Frames around (source.note slot place) (target.note (scheme.slot slot) place) :=
  { frames with slots := frames.slots.cons slot place }

theorem cut (mark : Nat) :
    Frames around (source.cut mark) (target.cut (mark + around.kept.length)) := by
  obtain ⟨choices, isChoices, each⟩ := frames.choices
  have sourceDepth := frames.sourceDepth
  have targetDepth := frames.targetDepth
  have sameLength := each.length_eq
  have dropped : target.depth - (mark + around.kept.length) = source.depth - mark := by omega
  refine { frames with
    choices := ⟨choices.drop (source.depth - mark), ?_, List.forall₂_drop _ each⟩
    sourceDepth := ?_
    targetDepth := ?_ }
  · simp only [Machine.cut, dropped, isChoices]
    exact List.drop_append_of_le_length (by omega)
  · simp only [Machine.cut, List.length_drop]
    omega
  · simp only [Machine.cut]
    omega

/-- Programs that are alike begin alike. -/
theorem start {code other : Code} (same : code.Alike scheme other)
    (alike : Task.AllAlike around tasks others) (origin : Nat) (continued : Bool) :
    Goes around (source.start origin continued code tasks)
      (target.start origin continued other others) := by
  have samePlace := frames.place
  cases same with
  | nothing => exact frames.goOn alike
  | consume =>
    simp only [Machine.start, samePlace]
    split
    · exact frames.goOnAt alike _
    · exact frames.fail
  | check =>
    simp only [Machine.start, samePlace]
    split
    · exact frames.goOn alike
    · exact frames.fail
  | piece matches_ named =>
    rename_i automaton otherAutomaton groups
    simp only [Machine.start, samePlace, matches_]
    cases automaton.matchAt? source.place with
    | none => exact frames.fail
    | some found =>
      have stop := Slots.get?_rename scheme.injective found 1
      have one : renameSlot scheme.map 1 = 1 := by simp [renameSlot, scheme.fixed]
      rw [one] at stop
      simp only [Option.map_some, stop]
      cases found.get? 1 with
      | none => exact frames.fail
      | some place =>
        exact .onward
          { frames with
            tasks := alike
            place := rfl
            slots := frames.slots.noteGroups found named }
  | sequence each => exact frames.goOn (allAlike_append each alike)
  | choice each =>
    cases each with
    | nil => exact frames.fail
    | cons same each =>
      cases each with
      | nil => exact frames.goOn (.cons (.run same) alike)
      | cons next each =>
        exact frames.fork (.cons (.run same) alike)
          (.cons (.run (.choice (.cons next each))) alike)
  | group names inner =>
    simp only [Machine.start, samePlace]
    rw [← scheme.slot_stop names, ← scheme.slot_start names]
    exact (frames.note _ _).goOn (.cons (.run inner) (.cons .save alike))
  | optional inner =>
    rename_i greedy code other
    cases greedy with
    | true => exact frames.fork (.cons (.run inner) alike) alike
    | false => exact frames.fork alike (.cons (.run inner) alike)
  | star inner => exact frames.goOn (.cons (.star inner) alike)
  | plus inner => exact frames.goOn (.cons (.run inner) (.cons (.star inner) alike))
  | guarded isRegister inner => exact frames.goOn (.cons (.guarded isRegister inner) alike)
  | counted inner => exact frames.goOn (.cons (.counted inner) alike)
  | look inner =>
    simp only [Machine.start, samePlace]
    split
    · exact frames.goOnAt (.cons (.run inner) (.cons .returnTo alike)) _
    · exact frames.fail
  | denial inner =>
    simp only [Machine.start, samePlace, frames.targetDepth]
    split
    · exact (frames.keep alike).goOnAt (.cons (.run inner) (.cons .deny alike)) _
    · exact (frames.keep alike).fail
  | reference names =>
    simp only [Machine.start, frames.slots.span? names, samePlace]
    split
    · split
      · exact frames.goOnAt alike _
      · exact frames.fail
    · exact frames.fail
  | groupMatched names =>
    simp only [Machine.start, ← scheme.slot_start names, frames.slots.get?]
    split
    · exact frames.goOn alike
    · exact frames.fail
  | atomic inner =>
    refine .onward { frames with
      tasks := .cons (.run inner) (.cons .commit alike)
      marks := ?_ }
    simp only [frames.marks, frames.targetDepth, List.map_cons]
  | keepOut =>
    have noted := (frames.note 0 source.place).goOn alike
    rw [scheme.slot_zero] at noted
    simp only [Machine.start, samePlace]
    exact noted
  | searchStart =>
    simp only [Machine.start, samePlace]
    split
    · exact frames.goOn alike
    · exact frames.fail
  | conditional test whenTrue whenFalse =>
    have marked : Frames around { source with marks := source.depth :: source.marks }
        { target with marks := target.depth :: target.marks } := by
      refine { frames with marks := ?_ }
      simp only [frames.marks, frames.targetDepth, List.map_cons]
    exact marked.fork (.cons (.run test) (.cons .commit (.cons (.run whenTrue) alike)))
      (.cons (.run whenFalse) alike)

theorem loop {onward otherOnward : List Task}
    (alike : Task.AllAlike around onward otherOnward)
    (leaving : Task.AllAlike around tasks others) (mayLeave greedy : Bool) :
    Goes around (source.loop mayLeave greedy onward tasks)
      (target.loop mayLeave greedy otherOnward others) := by
  unfold Machine.loop
  split
  · exact frames.goOn alike
  · split
    · exact frames.fork alike leaving
    · exact frames.fork leaving alike

/-- Machines that are alike take steps alike, until only what they write last is left. -/
theorem step (origin : Nat) (continued : Bool) :
    (source.tasks = around.last.map .save ∧ target.tasks = around.otherLast.map .save) ∨
      Goes around (source.step origin continued) (target.step origin continued) := by
  have tasksAlike := frames.tasks
  have samePlace := frames.place
  have sameMarks := frames.marks
  unfold Machine.step
  generalize source.tasks = tasks at tasksAlike
  generalize target.tasks = otherTasks at tasksAlike
  cases tasksAlike with
  | last => exact .inl ⟨rfl, rfl⟩
  | cons same alike =>
    refine .inr ?_
    cases same with
    | run inner => exact frames.start inner alike origin continued
    | save =>
      simp only [samePlace]
      exact (frames.note _ _).goOn alike
    | returnTo => exact frames.goOnAt alike _
    | commit =>
      simp only [sameMarks]
      cases isMarks : source.marks with
      | nil => exact frames.goOn alike
      | cons mark marks =>
        have unmarked : Frames around { source with marks }
            { target with marks := marks.map (· + around.kept.length) } :=
          { frames with marks := rfl }
        exact (unmarked.cut mark).goOn alike
    | deny => exact (frames.cut _).fail
    | star inner =>
      exact frames.loop (.cons (.run inner) (.cons (.star inner) alike)) alike true _
    | @guarded register least greedy code other count isRegister inner =>
      simp only [samePlace, ← scheme.slot_register isRegister, frames.slots.get?]
      split
      · exact frames.fail
      · rw [scheme.slot_register isRegister]
        split
        · have noted := frames.note register source.place
          rw [scheme.slot_register isRegister] at noted
          exact noted.loop (.cons (.run inner) (.cons (.guarded isRegister inner) alike))
            alike true _
        · exact frames.goOn (.cons (.run inner) (.cons (.guarded isRegister inner) alike))
    | counted inner =>
      simp only
      split
      · exact frames.goOn alike
      · exact frames.loop (.cons (.run inner) (.cons (.counted inner) alike)) alike _ _

end Frames

/-! ## Runs -/

def Gives (origin : Nat) (continued : Bool) (machine : Machine) (result : Option Slots) : Prop :=
  ∃ fuel, run origin continued fuel machine = .ok result

section Gives

variable {origin : Nat} {continued : Bool} {machine : Machine} {result : Option Slots}
  {next : Machine} {scheme : Renumbering}

theorem run_mono {fuel more : Nat} (le : fuel ≤ more)
    (gives : run origin continued fuel machine = .ok result) :
    run origin continued more machine = .ok result := by
  induction fuel generalizing machine more with
  | zero => cases gives
  | succ fuel ih =>
    obtain ⟨more, rfl⟩ : ∃ other, more = other + 1 := ⟨more - 1, by omega⟩
    rw [run] at gives ⊢
    cases step : machine.step origin continued with
    | onward next =>
      rw [step] at gives
      exact ih (by omega) gives
    | matched slots =>
      rw [step] at gives
      exact gives
    | unmatched =>
      rw [step] at gives
      exact gives
    | exhausted cause =>
      rw [step] at gives
      cases gives

theorem Gives.unique {other : Option Slots} (gives : Gives origin continued machine result)
    (otherGives : Gives origin continued machine other) : result = other := by
  obtain ⟨fuel, isResult⟩ := gives
  obtain ⟨more, isOther⟩ := otherGives
  have first := run_mono (Nat.le_max_left fuel more) isResult
  have second := run_mono (Nat.le_max_right fuel more) isOther
  cases first.symm.trans second
  rfl

theorem gives_of_matched {slots : Slots} (step : machine.step origin continued = .matched slots) :
    Gives origin continued machine (some slots) :=
  ⟨1, by rw [run, step]⟩

theorem gives_of_unmatched (step : machine.step origin continued = .unmatched) :
    Gives origin continued machine none :=
  ⟨1, by rw [run, step]⟩

theorem Gives.onward (gives : Gives origin continued machine result)
    (step : machine.step origin continued = .onward next) : Gives origin continued next result := by
  obtain ⟨fuel, isResult⟩ := gives
  cases fuel with
  | zero => cases isResult
  | succ fuel =>
    rw [run, step] at isResult
    exact ⟨fuel, isResult⟩

theorem gives_of_onward (step : machine.step origin continued = .onward next)
    (gives : Gives origin continued next result) : Gives origin continued machine result := by
  obtain ⟨fuel, isResult⟩ := gives
  exact ⟨fuel + 1, by rw [run, step]; exact isResult⟩

/-- What becomes of choices that were kept: without any there is no match, and otherwise the
first of them is gone on with. -/
def GoesBack (origin : Nat) (continued : Bool) (kept : List Choice) (result : Option Slots) :
    Prop :=
  match kept with
  | [] => result = none
  | choice :: choices => ∃ backtracks,
      Gives origin continued (resume choice choices backtracks) result

def written (place : Place) (slots : List Nat) (noted : Slots) : Slots :=
  slots.foldl (fun noted slot => (slot, some place) :: noted) noted

theorem gives_of_saves {slots : List Nat} (saves : machine.tasks = slots.map .save) :
    Gives origin continued machine (some (written machine.place slots machine.slots)) := by
  induction slots generalizing machine with
  | nil => exact gives_of_matched (by rw [Machine.step, saves]; rfl)
  | cons slot slots ih =>
    have step : machine.step origin continued =
        (machine.note slot machine.place).goOn (slots.map .save) := by
      rw [Machine.step, saves]
      rfl
    exact gives_of_onward step (ih rfl)

/-- A machine with something else around it matches as the other one does, or else it goes back
to the choices from before. -/
theorem Frames.gives {around : Surroundings scheme} {source target : Machine}
    (frames : Frames around source target) (gives : Gives origin continued target result) :
    (∃ place front,
      Gives origin continued source (some (written place around.last (front ++ around.noted))) ∧
      result = some (written place around.otherLast
        (scheme.entries front ++ around.otherNoted))) ∨
    Gives origin continued source none ∧ GoesBack origin continued around.kept result := by
  obtain ⟨fuel, isResult⟩ := gives
  induction fuel generalizing source target with
  | zero => cases isResult
  | succ fuel ih =>
    rcases frames.step origin continued with ⟨saves, otherSaves⟩ | goes
    · obtain ⟨front, isSource, isTarget⟩ := frames.slots
      have sourceGives := @gives_of_saves origin continued source _ saves
      have targetGives := @gives_of_saves origin continued target _ otherSaves
      rw [isSource] at sourceGives
      rw [isTarget, frames.place] at targetGives
      exact .inl ⟨source.place, front, sourceGives, Gives.unique ⟨_, isResult⟩ targetGives⟩
    · rw [run] at isResult
      generalize isStep : source.step origin continued = progress at goes
      generalize target.step origin continued = otherProgress at goes isResult
      cases goes with
      | onward next =>
        rcases ih next isResult with
          ⟨place, front, matched, same⟩ | ⟨fails, back⟩
        · exact .inl ⟨place, front, gives_of_onward isStep matched, same⟩
        · exact .inr ⟨gives_of_onward isStep fails, back⟩
      | unmatched none =>
        cases isResult
        refine .inr ⟨gives_of_unmatched isStep, ?_⟩
        rw [none]
        rfl
      | resumed some backtracks =>
        refine .inr ⟨gives_of_unmatched isStep, ?_⟩
        rw [some]
        exact ⟨backtracks, fuel, isResult⟩
      | exhausted => cases isResult

theorem Frames.gives_behind {kept : List Choice} {source target : Machine}
    (frames : Frames (.behind scheme kept) source target)
    (gives : Gives origin continued target result) :
    (∃ slots, Gives origin continued source (some slots) ∧
      result = some (scheme.entries slots)) ∨
    Gives origin continued source none ∧ GoesBack origin continued kept result := by
  rcases frames.gives gives with ⟨place, front, matched, same⟩ | fails
  · simp only [Surroundings.behind, written, List.foldl_nil, List.append_nil] at matched same
    exact .inl ⟨front, matched, same⟩
  · exact .inr fails

end Gives

/-! ## Alternatives -/

/-- What a program comes to at a place by itself, when the match begins there. -/
def Attempts (origin : Nat) (continued : Bool) (code : Code) (place : Place)
    (result : Option Slots) : Prop :=
  Gives origin continued
    (resume { tasks := [.run code, .save 1], place, slots := [(0, some place)], marks := [] } [] 0)
    result

/-- Programs by themselves, with the numbers that their groups and registers have among
others. -/
abbrev Alternatives :=
  List (Renumbering × Code)

/-- What the first of several programs that matches at a place comes to, in the numbers that
it has among the others. -/
inductive Chooses (origin : Nat) (continued : Bool) (place : Place) :
    Alternatives → Option Slots → Prop where
  | nil : Chooses origin continued place [] none
  | found {scheme : Renumbering} {code : Code} {others : Alternatives} {slots : Slots}
      (attempts : Attempts origin continued code place (some slots)) :
      Chooses origin continued place ((scheme, code) :: others) (some (scheme.entries slots))
  | passed {scheme : Renumbering} {code : Code} {others : Alternatives}
      {result : Option Slots} (attempts : Attempts origin continued code place none)
      (chooses : Chooses origin continued place others result) :
      Chooses origin continued place ((scheme, code) :: others) result

section Alternatives

variable {origin : Nat} {continued : Bool} {place : Place} {result : Option Slots}
  {kept : List Choice} {backtracks : Nat}

/-- A program among others does what it does by itself, or the others are gone back to. -/
theorem attempts_of_gives {scheme : Renumbering} {code other : Code}
    (alike : code.Alike scheme other) (gives : Gives origin continued
      (resume { tasks := [.run other, .save 1], place, slots := [(0, some place)], marks := [] }
        kept backtracks) result) :
    (∃ slots, Attempts origin continued code place (some slots) ∧
      result = some (scheme.entries slots)) ∨
    Attempts origin continued code place none ∧ GoesBack origin continued kept result := by
  have keepsStop : scheme.slot 1 = 1 := by
    have stop := @Renumbering.slot_stop scheme 0 scheme.positive
    rwa [Nat.mul_zero, scheme.fixed] at stop
  refine Frames.gives_behind ?_ gives
  refine { tasks := .cons (.run alike) (.cons ?_ .last)
           place := rfl
           slots := ⟨[(0, some place)], rfl, ?_⟩
           marks := rfl
           choices := ⟨[], rfl, .nil⟩
           sourceDepth := rfl
           targetDepth := (Nat.zero_add _).symm
           backtracks := Nat.zero_le _ }
  · have save := @Task.Alike.save scheme kept.length 1
    rwa [keepsStop] at save
  · simp [resume, Renumbering.entries, scheme.slot_zero, Surroundings.behind]

/-- A choice tries its programs one after another. -/
theorem chooses_of_gives {alternatives : Alternatives} {codes : List Code}
    (alike : List.Forall₂ (fun alternative code => alternative.2.Alike alternative.1 code)
      alternatives codes) (nonempty : codes ≠ []) (gives : Gives origin continued
      (resume { tasks := [.run (.choice codes), .save 1], place, slots := [(0, some place)],
                marks := [] } kept backtracks) result) :
    (∃ slots, Chooses origin continued place alternatives (some slots) ∧
      result = some slots) ∨
    Chooses origin continued place alternatives none ∧ GoesBack origin continued kept result := by
  induction alike generalizing backtracks with
  | nil => exact absurd rfl nonempty
  | cons same alike ih =>
    cases alike with
    | nil =>
      rcases attempts_of_gives same (gives.onward rfl) with ⟨slots, attempts, rfl⟩ |
        ⟨attempts, back⟩
      · exact .inl ⟨_, .found attempts, rfl⟩
      · exact .inr ⟨.passed attempts .nil, back⟩
    | cons next rest =>
      rcases attempts_of_gives same (gives.onward rfl) with ⟨slots, attempts, rfl⟩ |
        ⟨attempts, later, back⟩
      · exact .inl ⟨_, .found attempts, rfl⟩
      · rcases ih (List.cons_ne_nil _ _) back with
          ⟨slots, chooses, same⟩ | ⟨chooses, back⟩
        · exact .inl ⟨slots, .passed attempts chooses, same⟩
        · exact .inr ⟨.passed attempts chooses, back⟩

end Alternatives

end Machine
end Highlighter.Regex

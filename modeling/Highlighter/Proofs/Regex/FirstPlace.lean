import Highlighter.Proofs.Regex.Replanning
import Highlighter.Proofs.Regex.Searching

/-!
# The first place where something is found

A search tries one place after another.  At each of them an automaton or a program is tried
from there on, and the first that finds something decides.
-/
namespace Highlighter.Regex

variable {place : Place} {finds : Place → Option Slots → Prop} {found : Place × Slots}
  {expression : Expression} {ignoreCase : Bool} {source : String} {regex : Regex}

/-! ## One place after another -/

/-- What is found first from a place on, and where, if `finds` tells what is found right at a
place. -/
inductive FirstPlace (finds : Place → Option Slots → Prop) :
    Place → Option (Place × Slots) → Prop where
  | here {place : Place} {slots : Slots} (found : finds place (some slots)) :
      FirstPlace finds place (some (place, slots))
  | later {place next : Place} {char : Char} {result : Option (Place × Slots)}
      (nothing : finds place none) (step : place.next? = some (char, next))
      (others : FirstPlace finds next result) : FirstPlace finds place result
  | never {place : Place} (nothing : finds place none) (last : place.next? = none) :
      FirstPlace finds place none

theorem FirstPlace.precedes (first : FirstPlace finds place (some found)) :
    place.Precedes found.1 ∧ finds found.1 (some found.2) := by
  generalize isResult : some found = result at first
  induction first with
  | here isFound =>
    cases isResult
    exact ⟨.refl _, isFound⟩
  | later _ step _ ih =>
    obtain ⟨order, isFound⟩ := ih isResult
    exact ⟨(Place.precedes_next step).trans order, isFound⟩
  | never => cases isResult

section Compare

variable {finds others : Place → Option Slots → Prop} {place : Place}
  {result other : Option (Place × Slots)}

theorem FirstPlace.unique
    (unique : ∀ place result other, finds place result → finds place other → result = other)
    (first : FirstPlace finds place result) (second : FirstPlace finds place other) :
    result = other := by
  induction first with
  | here found =>
    cases second with
    | here otherFound =>
      cases unique _ _ _ found otherFound
      rfl
    | later nothing => cases unique _ _ _ found nothing
    | never nothing => cases unique _ _ _ found nothing
  | later nothing step _ ih =>
    cases second with
    | here found => cases unique _ _ _ found nothing
    | later _ otherStep later =>
      cases step.symm.trans otherStep
      exact ih later
    | never _ last => cases step.symm.trans last
  | never nothing last =>
    cases second with
    | here found => cases unique _ _ _ found nothing
    | later _ step => cases last.symm.trans step
    | never => rfl

theorem FirstPlace.none_of_none (first : FirstPlace finds place result) (isNone : result = none)
    (fails : ∀ place, finds place none → others place none) : FirstPlace others place none := by
  induction first with
  | here => cases isNone
  | later nothing step _ ih =>
    exact .later (fails _ nothing) step (ih isNone)
  | never nothing last => exact .never (fails _ nothing) last

theorem FirstPlace.from_found (first : FirstPlace finds place result)
    (isFound : result = some found) (fails : ∀ place, finds place none → others place none)
    (unique : ∀ place result other, others place result → others place other → result = other)
    (second : FirstPlace others place other) : FirstPlace others found.1 other := by
  induction first with
  | here =>
    cases isFound
    exact second
  | later nothing step _ ih =>
    cases second with
    | here otherFound => cases unique _ _ _ otherFound (fails _ nothing)
    | later _ otherStep later =>
      cases step.symm.trans otherStep
      exact ih isFound later
    | never _ last => cases step.symm.trans last
  | never => cases isFound

theorem FirstPlace.offset_lt (first : FirstPlace finds place (some found))
    (unique : ∀ place result other, finds place result → finds place other → result = other)
    (fails : finds place none) : place.offset < found.1.offset := by
  cases first with
  | here isFound => cases unique _ _ _ isFound fails
  | later _ step later =>
    exact Nat.lt_of_lt_of_le (Place.offset_lt_of_next step) later.precedes.1.offset_le

end Compare

namespace Automaton

theorem search?_first (automaton : Automaton) (place : Place) :
    ∃ found, FirstPlace (fun place result => result = automaton.matchAt? place) place found ∧
      automaton.search? place = found.map Prod.snd := by
  obtain ⟨before, chars, offset⟩ := place
  induction chars generalizing before offset with
  | nil =>
    rw [search?_eq]
    cases isFound : automaton.matchAt? { before, after := [], offset } with
    | some slots => exact ⟨_, .here isFound.symm, rfl⟩
    | none => exact ⟨none, .never isFound.symm rfl, rfl⟩
  | cons char rest ih =>
    rw [search?_eq]
    cases isFound : automaton.matchAt? { before, after := char :: rest, offset } with
    | some slots => exact ⟨_, .here isFound.symm, rfl⟩
    | none =>
      obtain ⟨found, first, same⟩ :=
        ih (char :: before) (offset + char.utf8Size)
      exact ⟨found, .later isFound.symm rfl first, same⟩

end Automaton

/-! ## Programs -/

/-- The numbers that groups and registers have already. -/
def Renumbering.same (bound : Nat) (positive : 1 < bound) : Renumbering where
  map := fun number => number
  bound := bound
  shift := 0
  injective := fun _ _ same => same
  fixed := rfl
  positive := positive
  below := by
    intro slot isBelow
    rwa [renameSlot, Nat.div_add_mod]

theorem Renumbering.same_slot (bound : Nat) (positive : 1 < bound) (slot : Nat) :
    (Renumbering.same bound positive).slot slot = slot := by
  simp [Renumbering.slot, Renumbering.same, renameSlot, Nat.div_add_mod]

theorem Renumbering.same_entries (bound : Nat) (positive : 1 < bound) (slots : Slots) :
    (Renumbering.same bound positive).entries slots = slots := by
  simp [Renumbering.entries, Renumbering.same_slot]

namespace Machine

theorem consume?_any (place : Place) :
    consume? [.complement .empty] place = place.next?.map Prod.snd := by
  unfold consume?
  cases place.next? with
  | none => rfl
  | some step => simp [consume?, CharSet.contains]

section Search

variable {code : Code} {bound : Nat} {positive : 1 < bound} {origin : Nat} {continued : Bool}
  {result : Option Slots}

theorem attempts_or_later (alike : code.Alike (.same bound positive) code) {backtracks : Nat}
    (gives : Gives origin continued
      (resume
        { tasks := [.star false (.consume [.complement .empty]), .run (.group 0 code)]
          place, slots := [], marks := [] } [] backtracks) result) :
    (∃ slots, Attempts origin continued code place (some slots) ∧ result = some slots) ∨
    Attempts origin continued code place none ∧
      (place.next? = none ∧ result = none ∨
        ∃ char next backtracks, place.next? = some (char, next) ∧
          Gives origin continued
            (resume
              { tasks := [.star false (.consume [.complement .empty]), .run (.group 0 code)]
                place := next, slots := [], marks := [] } [] backtracks) result) := by
  have attempt := (gives.onward rfl).onward rfl
  rcases attempts_of_gives alike attempt with ⟨slots, attempts, rfl⟩ | ⟨attempts, later, back⟩
  · rw [Renumbering.same_entries]
    exact .inl ⟨slots, attempts, rfl⟩
  · refine .inr ⟨attempts, ?_⟩
    cases step : place.next? with
    | none =>
      refine .inl ⟨rfl, back.unique (gives_of_unmatched ?_)⟩
      simp [Machine.step, start, resume, consume?_any, step, fail]
    | some following =>
      refine .inr ⟨following.1, following.2, later, rfl, back.onward ?_⟩
      simp [Machine.step, start, resume, consume?_any, step, goOnAt]

theorem search_first (alike : code.Alike (.same bound positive) code)
    (searched : search (.sequence [.star false (.consume [.complement .empty]), .group 0 code])
      continued place = .ok result) :
    ∃ found, FirstPlace (Attempts place.offset continued code) place found ∧
      result = found.map Prod.snd := by
  have tries {origin : Nat} {place : Place} {backtracks : Nat}
      (gives : Gives origin continued
        (resume
          { tasks := [.star false (.consume [.complement .empty]), .run (.group 0 code)]
            place, slots := [], marks := [] } [] backtracks) result) :
      ∃ found, FirstPlace (Attempts origin continued code) place found ∧
        result = found.map Prod.snd := by
    obtain ⟨before, chars, offset⟩ := place
    induction chars generalizing before offset backtracks with
    | nil =>
      rcases attempts_or_later alike gives with ⟨slots, attempts, rfl⟩ |
        ⟨attempts, ⟨last, rfl⟩ | ⟨char, next, later, step, gives⟩⟩
      · exact ⟨_, .here attempts, rfl⟩
      · exact ⟨none, .never attempts last, rfl⟩
      · cases step
    | cons char rest ih =>
      rcases attempts_or_later alike gives with ⟨slots, attempts, rfl⟩ |
        ⟨attempts, ⟨last, rfl⟩ | ⟨char, next, later, step, gives⟩⟩
      · exact ⟨_, .here attempts, rfl⟩
      · cases last
      · cases step
        obtain ⟨found, first, same⟩ := ih _ _ gives
        exact ⟨found, .later attempts rfl first, same⟩
  have gives : Gives place.offset continued _ result := ⟨_, searched⟩
  exact tries ((gives.onward rfl).onward rfl)

end Search

end Machine

/-! ## Expressions -/

namespace Expression

variable {expression : Expression} {origin : Nat} {place : Place}

/-- Whether an expression needs more than an automaton. -/
def isHard (expression : Expression) : Bool :=
  (expression.node.measure expression.referenced).hard

/-- What is found of an expression right at a place, with a machine or with an automaton, by a
search that began at offset `origin`. -/
inductive FindsBy (expression : Expression) (origin : Nat) (place : Place) :
    (machine : Bool) → Option Slots → Prop where
  | automaton : FindsBy expression origin place false
      ((Automaton.forNodes [expression.node]).matchAt? place)
  | machine {code : Code} {last : Nat} {result : Option Slots}
      (planned : (Code.plan expression.referenced true expression.node).run
        (2 * expression.groups + 2) = .ok (code, last))
      (attempts : Machine.Attempts origin true code place result) :
      FindsBy expression origin place true result

/-- What is found of an expression right at a place with what it takes. -/
abbrev Finds (expression : Expression) (origin : Nat) (place : Place) : Option Slots → Prop :=
  expression.FindsBy origin place expression.isHard

namespace FindsBy

variable {machine : Bool}

theorem unique {result other : Option Slots}
    (finds : expression.FindsBy origin place machine result)
    (otherFinds : expression.FindsBy origin place machine other) : result = other := by
  cases finds with
  | automaton =>
    cases otherFinds
    rfl
  | machine planned attempts =>
    cases otherFinds with
    | machine otherPlanned otherAttempts =>
      cases planned.symm.trans otherPlanned
      exact attempts.unique otherAttempts

theorem exists_matches {slots : Slots}
    (finds : expression.FindsBy origin place machine (some slots))
    (noZero : 0 ∉ expression.node.groups) :
    ∃ stop effect, Matches [expression.node] place stop effect ∧
      ∀ slot < 2 * expression.groups + 2, slots.effect slot = effect.whole place stop slot := by
  generalize isResult : some slots = result at finds
  cases finds with
  | automaton =>
    obtain ⟨stop, effect, matched, same⟩ :=
      (Automaton.matchAt?_accepts isResult.symm).matches rfl
    refine ⟨stop, effect, matched, fun slot _ => ?_⟩
    rw [same]
    rfl
  | machine planned attempts =>
    subst isResult
    obtain ⟨-, implements⟩ := Code.plan_isFaithful expression.node planned noZero
    obtain ⟨fuel, isResult⟩ := attempts
    rcases Machine.canEnd_run isResult with leads | ⟨choice, member, -⟩
    · obtain ⟨stop, effect, runs, rest⟩ := leads.ofRun
      obtain ⟨other, matched, same⟩ := implements runs
      refine ⟨stop, other, matched, fun slot below => ?_⟩
      rw [rest.ofSave.ofNil]
      simp [Machine.resume, Effect.whole, same slot below, Option.or_assoc]
    · cases member

end FindsBy

theorem fits_same (sound : expression.IsSound) (positive : 1 < 2 * expression.groups + 2) :
    expression.node.Fits (.same (2 * expression.groups + 2) positive) expression.referenced
      expression.referenced where
  groups := by
    intro number member
    have bounds := (sound.groups number member).2
    exact ⟨by simp only [Renumbering.Names, Renumbering.same]; omega, rfl⟩
  references := by
    intro number member
    have bounds := sound.references number member
    simp only [Renumbering.Names, Renumbering.same]
    omega

end Expression

theorem compile_of_read (compiled : compile source ignoreCase = .ok regex)
    (read : Expression.read (pattern source ignoreCase).toList = .ok expression) :
    (expression.isHard = true ∧ ∃ code, Code.ofExpression expression = .ok code ∧
        regex = { groups := expression.groups, strategy := .machine code }) ∨
      expression.isHard = false ∧ ∃ automaton, Automaton.ofNodes [expression.node] = .ok automaton ∧
        regex = { groups := automaton.groups, strategy := .automaton automaton } := by
  obtain ⟨other, otherRead, compiled⟩ := Success.bind_eq_ok.mp compiled
  cases read.symm.trans otherRead
  split at compiled
  · rename_i hard
    obtain ⟨code, isCode, compiled⟩ := Success.bind_eq_ok.mp compiled
    cases compiled
    exact .inl ⟨hard, code, isCode, rfl⟩
  · rename_i easy
    obtain ⟨automaton, isAutomaton, compiled⟩ := Success.bind_eq_ok.mp compiled
    cases compiled
    exact .inr ⟨Bool.eq_false_iff.mpr easy, automaton, isAutomaton, rfl⟩

theorem FirstPlace.imp {others : Place → Option Slots → Prop}
    (weaker : ∀ place result, finds place result → others place result)
    {result : Option (Place × Slots)} (first : FirstPlace finds place result) :
    FirstPlace others place result := by
  induction first with
  | here found => exact .here (weaker _ _ found)
  | later nothing step _ ih =>
    exact .later (weaker _ _ nothing) step ih
  | never nothing last => exact .never (weaker _ _ nothing) last

theorem search_finds (compiled : compile source ignoreCase = .ok regex)
    (read : Expression.read (pattern source ignoreCase).toList = .ok expression)
    {found : Option Match} (searched : regex.search place = .ok found) :
    ∃ result, FirstPlace (expression.Finds place.offset) place result ∧
      found = result.bind fun first => matchOfSlots? regex.groups first.2 := by
  unfold search searchFrom at searched
  rcases compile_of_read compiled read with ⟨hard, code, made, rfl⟩ | ⟨easy, automaton, made, rfl⟩
  · obtain ⟨slots, isSlots, isFound⟩ := Success.bind_eq_ok.mp searched
    obtain ⟨⟨body, last⟩, planned, made⟩ := Success.bind_eq_ok.mp made
    cases made
    obtain rfl := Except.ok.inj isFound
    have positive : 1 < 2 * expression.groups + 2 := by omega
    have alike : body.Alike (.same (2 * expression.groups + 2) positive) body := by
      have fits := Expression.fits_same (Expression.read_sound read) positive
      have plans := Code.plan_alike expression.node true fits
      have renamed : expression.node.rename
          (Renumbering.same (2 * expression.groups + 2) positive).map = expression.node :=
        Node.rename_same expression.node
      rw [renamed] at plans
      rcases plans _ (Nat.le_refl _) with ⟨made, other, isMade, isOther, -, -, same⟩ | ⟨_, fails, -⟩
      · cases planned.symm.trans isMade
        cases planned.symm.trans isOther
        exact same
      · cases planned.symm.trans fails
    obtain ⟨result, first, rfl⟩ := Machine.search_first alike isSlots
    refine ⟨result, first.imp fun place result attempts => ?_, ?_⟩
    · rw [Expression.Finds, hard]
      exact .machine planned attempts
    · cases result <;> rfl
  · cases searched
    obtain ⟨result, first, same⟩ := automaton.search?_first place
    refine ⟨result, first.imp ?_, ?_⟩
    · rintro place _ rfl
      rw [Expression.Finds, easy, Automaton.eq_forNodes made]
      exact .automaton
    · rw [same]
      cases result <;> rfl

end Highlighter.Regex

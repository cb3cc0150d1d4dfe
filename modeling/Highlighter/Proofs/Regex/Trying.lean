import Highlighter.Proofs.Regex.Steady

/-!
# Trying one way after another

Of all ways to match only the first one counts that can be gone on with.  If going on depends on
nothing but the place, ways that end where an earlier one does can be left out.
-/
namespace Highlighter.Regex

/-! ## Ways that can be left out -/

namespace Ways

/-- The first way that ends at an accepted place. -/
def pick (ways : Ways) (accepts : Place → Bool) (place : Place) : Option (Place × Slots) :=
  (ways place).find? fun way => accepts way.1

/-- Some ways are left out, but none that is the first to end at a place. -/
structure Prunes (ways others : Ways) : Prop where
  subset : ∀ place, ways place ⊆ others place
  pick : ∀ accepts place, ways.pick accepts place = others.pick accepts place

theorem findSome?_eq_find? {α β : Type} (values : List α) (find : α → Option β) :
    values.findSome? find = (values.find? fun value => (find value).isSome).bind find := by
  induction values with
  | nil => rfl
  | cons value values ih =>
    rw [List.findSome?_cons, List.find?_cons, ih]
    cases found : find value with
    | none => rfl
    | some result => simp [found]

theorem pick_andThen (first second : Ways) (accepts : Place → Bool) (place : Place) :
    (first.andThen second).pick accepts place =
      (first.pick (fun place => (second.pick accepts place).isSome) place).bind fun way =>
        (second.pick accepts way.1).map fun next => (next.1, next.2 ++ way.2) := by
  have isEach (way : Place × Slots) :
      ((second way.1).map fun next => (next.1, next.2 ++ way.2)).find?
          (fun way => accepts way.1) =
        (second.pick accepts way.1).map fun next => (next.1, next.2 ++ way.2) := by
    rw [List.find?_map]
    rfl
  unfold pick andThen
  rw [List.find?_flatMap, findSome?_eq_find?]
  simp only [isEach, Option.isSome_map]
  rfl

theorem pick_orElse (first second : Ways) (accepts : Place → Bool) (place : Place) :
    (first.orElse second).pick accepts place =
      (first.pick accepts place).or (second.pick accepts place) :=
  List.find?_append

namespace Prunes

variable {first second ways others : Ways}

theorem refl (ways : Ways) : ways.Prunes ways :=
  ⟨fun _ => List.Subset.refl _, fun _ _ => rfl⟩

theorem andThen (isFirst : first.Prunes second) (isNext : ways.Prunes others) :
    (first.andThen ways).Prunes (second.andThen others) where
  subset := by
    intro place way member
    obtain ⟨middle, isMiddle, isWay⟩ := List.mem_flatMap.mp member
    obtain ⟨next, isNext', rfl⟩ := List.mem_map.mp isWay
    exact List.mem_flatMap.mpr ⟨middle, isFirst.subset place isMiddle,
      List.mem_map.mpr ⟨next, isNext.subset _ isNext', rfl⟩⟩
  pick := by
    intro accepts place
    rw [pick_andThen, pick_andThen, isFirst.pick]
    simp only [isNext.pick]

theorem orElse (isFirst : first.Prunes second) (isNext : ways.Prunes others) :
    (first.orElse ways).Prunes (second.orElse others) where
  subset := by
    intro place way member
    rcases List.mem_append.mp member with inFirst | inNext
    · exact List.mem_append_left _ (isFirst.subset place inFirst)
    · exact List.mem_append_right _ (isNext.subset place inNext)
  pick := by
    intro accepts place
    rw [pick_orElse, pick_orElse, isFirst.pick, isNext.pick]

theorem fork (isFirst : first.Prunes second) (isNext : ways.Prunes others) (greedy : Bool) :
    (fork greedy first ways).Prunes (fork greedy second others) := by
  cases greedy with
  | true => exact isFirst.orElse isNext
  | false => exact isNext.orElse isFirst

theorem repetition (isBody : ways.Prunes others) (greedy : Bool) (least : Nat)
    (most : Option Nat) :
    (repetition greedy ways least most).Prunes (repetition greedy others least most) := by
  have copies (count : Nat) : (copies ways count).Prunes (copies others count) := by
    induction count with
    | zero => exact refl _
    | succ count ih => exact isBody.andThen ih
  have atMost (count : Nat) : (atMost greedy ways count).Prunes (atMost greedy others count) := by
    induction count with
    | zero => exact refl _
    | succ count ih =>
      exact (isBody.andThen ih).fork (refl _) greedy
  cases most with
  | none =>
    exact (copies least).andThen
      ⟨fun place => (atMost place.after.length).subset place,
        fun accepts place => (atMost place.after.length).pick accepts place⟩
  | some most => exact (copies least).andThen (atMost (most - least))

theorem group (isInner : ways.Prunes others) (number : Nat) :
    (group number ways).Prunes (group number others) :=
  (refl _).andThen (isInner.andThen (refl _))

theorem takeFirst {least : Nat} (passes : ways.Passes least true) :
    Prunes (fun place => (ways place).take 1) ways where
  subset := fun place => List.take_subset _ _
  pick := by
    intro accepts place
    simp only [Ways.pick]
    have same {way next : Place × Slots} (isWay : way ∈ ways place) (isNext : next ∈ ways place) :=
      passes.same_end isWay isNext
    generalize ways place = each at same
    cases each with
    | nil => rfl
    | cons way each =>
      rw [List.take_succ_cons, List.take_zero, List.find?_cons, List.find?_cons, List.find?_nil]
      split
      · rfl
      · rename_i refused
        refine (List.find?_eq_none.mpr fun next member => ?_).symm
        rw [same List.mem_cons_self (List.mem_cons_of_mem _ member), refused]
        exact Bool.false_ne_true

theorem notes {numbers : List Nat} (prunes : ways.Prunes others) (notes : others.Notes numbers) :
    ways.Notes numbers :=
  fun place way member => notes place way (prunes.subset place member)

theorem consumes (prunes : ways.Prunes others) (consumes : others.Consumes) : ways.Consumes :=
  fun place way member => consumes place way (prunes.subset place member)

theorem head? (prunes : ways.Prunes others) (place : Place) :
    (ways place).head? = (others place).head? := by
  have isHead (ways : Ways) : ways.pick (fun _ => true) place = (ways place).head? := by
    unfold Ways.pick
    cases ways place <;> rfl
  rw [← isHead, ← isHead, prunes.pick]

end Prunes

/-! ## Trying ways -/

/-- What trying ways one after another comes to, if `onward` tells what going on from a place
comes to. -/
inductive Tries (onward : Place → Slots → Option Slots → Prop) (slots : Slots) :
    List (Place × Slots) → Option Slots → Prop where
  | nil : Tries onward slots [] none
  | found {way : Place × Slots} {ways : List (Place × Slots)} {result : Slots}
      (goesOn : onward way.1 (way.2 ++ slots) (some result)) :
      Tries onward slots (way :: ways) (some result)
  | passed {way : Place × Slots} {ways : List (Place × Slots)} {result : Option Slots}
      (fails : onward way.1 (way.2 ++ slots) none) (others : Tries onward slots ways result) :
      Tries onward slots (way :: ways) result

namespace Tries

variable {onward other : Place → Slots → Option Slots → Prop} {slots : Slots}
  {ways others : List (Place × Slots)} {result : Option Slots}

variable {place : Place}

theorem single {way : Place × Slots} (goesOn : onward way.1 (way.2 ++ slots) result) :
    Tries onward slots [way] result := by
  cases result with
  | none => exact .passed goesOn .nil
  | some result => exact .found goesOn

theorem stay (goesOn : onward place slots result) :
    Tries onward slots (Ways.stay place) result :=
  single goesOn

theorem append_found {found : Slots} (tries : Tries onward slots ways (some found))
    (others : List (Place × Slots)) : Tries onward slots (ways ++ others) (some found) := by
  generalize isResult : some found = result at tries
  induction tries with
  | nil => cases isResult
  | found goesOn =>
    cases isResult
    exact .found goesOn
  | passed fails _ ih => exact .passed fails (ih isResult)

theorem append_none (tries : Tries onward slots ways none)
    (next : Tries onward slots others result) : Tries onward slots (ways ++ others) result := by
  generalize isResult : none = first at tries
  induction tries with
  | nil => exact next
  | found => cases isResult
  | passed fails _ ih => exact .passed fails (ih isResult)

theorem behind {noted : Slots} (tries : Tries onward (noted ++ slots) ways result) :
    Tries onward slots (ways.map fun way => (way.1, way.2 ++ noted)) result := by
  induction tries with
  | nil => exact .nil
  | found goesOn =>
    refine .found ?_
    rwa [List.append_assoc]
  | passed fails _ ih =>
    refine .passed ?_ ih
    rwa [List.append_assoc]

theorem imp (tries : Tries onward slots ways result)
    (implies : ∀ way ∈ ways, ∀ result, onward way.1 (way.2 ++ slots) result →
      other way.1 (way.2 ++ slots) result) : Tries other slots ways result := by
  induction tries with
  | nil => exact .nil
  | found goesOn => exact .found (implies _ List.mem_cons_self _ goesOn)
  | passed fails _ ih =>
    obtain ⟨first, others⟩ := List.forall_mem_cons.mp implies
    exact .passed (first _ fails) (ih others)

theorem andThen {first second : Ways}
    (tries : Tries (fun place slots => Tries onward slots (second place)) slots (first place)
      result) : Tries onward slots (first.andThen second place) result := by
  unfold Ways.andThen
  generalize first place = each at tries
  induction tries with
  | nil => exact .nil
  | found goesOn => exact goesOn.behind.append_found _
  | passed fails _ ih => exact fails.behind.append_none ih

end Tries

end Ways

end Highlighter.Regex

import Highlighter.Proofs.Regex.Matching
import Mathlib.Data.List.Basic

/-!
# All ways to match

An expression that an automaton can match, given as the list of all the ways in which it matches
from a place on, the preferred ones first.  Both an automaton and a machine come to the first way
that can be gone on with, as long as no loop goes round without a character.
-/
namespace Highlighter

variable {place : Place} {count : Nat}

namespace Place

def advance? : (count : Nat) → Place → Option Place
  | 0, place => some place
  | count + 1, place => place.next?.bind fun step => advance? count step.2

theorem advance?_add (first second : Nat) (place : Place) :
    place.advance? (first + second) = (place.advance? first).bind (advance? second) := by
  induction first generalizing place with
  | zero => rw [Nat.zero_add, advance?, Option.bind_some]
  | succ first ih =>
    rw [Nat.add_right_comm, advance?, advance?]
    cases place.next? with
    | none => rfl
    | some step => exact ih step.2

theorem advance?_length {next : Place} (isNext : place.advance? count = some next) :
    place.after.length = next.after.length + count := by
  induction count generalizing place with
  | zero =>
    cases isNext
    rfl
  | succ count ih =>
    obtain ⟨before, chars, offset⟩ := place
    cases chars with
    | nil => cases isNext
    | cons char rest =>
      have length := ih isNext
      simp only [List.length_cons] at length ⊢
      omega

end Place

namespace Regex

/-! ## Ways -/

/-- The ways to go on from a place: where each of them ends, and what is noted on it, newest
entry first. -/
abbrev Ways := Place → List (Place × Slots)

namespace Ways

variable {body other : Ways}

def stay : Ways :=
  fun place => [(place, [])]

def save (slot : Nat) : Ways :=
  fun place => [(place, [(slot, some place)])]

def pass (set : CharSet) : Ways :=
  fun place =>
    ((place.next?.filter fun step => set.contains step.1).map fun step => (step.2, [])).toList

def check (assertion : Assertion) : Ways :=
  fun place => if assertion.holds place then stay place else []

def andThen (first second : Ways) : Ways :=
  fun place => (first place).flatMap fun way =>
    (second way.1).map fun next => (next.1, next.2 ++ way.2)

def orElse (first second : Ways) : Ways :=
  fun place => first place ++ second place

/-- Going on rather than leaving, or the other way round if not greedy. -/
def fork (greedy : Bool) (onward exit : Ways) : Ways :=
  if greedy then onward.orElse exit else exit.orElse onward

def copies (body : Ways) : Nat → Ways
  | 0 => stay
  | count + 1 => body.andThen (copies body count)

def atMost (greedy : Bool) (body : Ways) : Nat → Ways
  | 0 => stay
  | count + 1 => fork greedy (body.andThen (atMost greedy body count)) stay

/-- Any number of times, if every time passes a character. -/
def star (greedy : Bool) (body : Ways) : Ways :=
  fun place => atMost greedy body place.after.length place

def repetition (greedy : Bool) (body : Ways) (least : Nat) (most : Option Nat) : Ways :=
  (copies body least).andThen
    (most.elim (star greedy body) fun most => atMost greedy body (most - least))

def group (number : Nat) (inner : Ways) : Ways :=
  (save (2 * number)).andThen (inner.andThen (save (2 * number + 1)))

theorem stay_andThen (ways : Ways) : stay.andThen ways = ways := by
  funext place
  simp [andThen, stay]

theorem andThen_stay (ways : Ways) : ways.andThen stay = ways := by
  funext place
  simp [andThen, stay]

theorem andThen_assoc (first second third : Ways) :
    (first.andThen second).andThen third = first.andThen (second.andThen third) := by
  funext place
  simp only [andThen, List.flatMap_assoc, List.map_flatMap, List.flatMap_map, List.map_map,
    Function.comp_def, List.append_assoc]

/-! ## The first way that can be gone on with -/

/-- What the first way comes to from which there is a way on. -/
def into (ways : Ways) (onward : Place → Slots → Option Slots) (place : Place) (slots : Slots) :
    Option Slots :=
  (ways place).findSome? fun way => onward way.1 (way.2 ++ slots)

variable (onward : Place → Slots → Option Slots)

@[simp]
theorem stay_into : stay.into onward = onward := by
  funext place slots
  simp [into, stay]

@[simp]
theorem save_into (slot : Nat) :
    (save slot).into onward = fun place slots => onward place ((slot, some place) :: slots) := by
  funext place slots
  simp [into, save]

theorem findSome?_flatMap {α β γ : Type} (values : List α) (each : α → List β)
    (find : β → Option γ) :
    (values.flatMap each).findSome? find =
      values.findSome? fun value => (each value).findSome? find := by
  induction values with
  | nil => rfl
  | cons value values ih =>
    rw [List.flatMap_cons, List.findSome?_append, ih, List.findSome?_cons]
    cases (each value).findSome? find <;> rfl

theorem andThen_into (first second : Ways) :
    (first.andThen second).into onward = first.into (second.into onward) := by
  funext place slots
  simp [into, andThen, findSome?_flatMap, List.findSome?_map, Function.comp_def]

omit onward in
theorem into_congr {ways : Ways} {onward other : Place → Slots → Option Slots} {slots : Slots}
    (same : ∀ way ∈ ways place, ∀ slots, onward way.1 slots = other way.1 slots) :
    ways.into onward place slots = ways.into other place slots := by
  unfold into
  generalize ways place = each at same
  induction each with
  | nil => rfl
  | cons way each ih =>
    obtain ⟨first, others⟩ := List.forall_mem_cons.mp same
    rw [List.findSome?_cons, List.findSome?_cons, first, ih others]

theorem orElse_into (first second : Ways) (place : Place) (slots : Slots) :
    (first.orElse second).into onward place slots =
      (first.into onward place slots).or (second.into onward place slots) :=
  List.findSome?_append

/-! ## Loops -/

def Consumes (ways : Ways) : Prop :=
  ∀ place, ∀ way ∈ ways place, way.1.after.length < place.after.length

theorem andThen_congr {first second : Ways}
    (same : ∀ way ∈ first place, second way.1 = other way.1) :
    first.andThen second place = first.andThen other place := by
  refine List.flatMap_congr fun way member => ?_
  rw [same way member]

theorem fork_congr (greedy : Bool) {onward exit : Ways} (same : onward place = other place) :
    fork greedy onward exit place = fork greedy other exit place := by
  cases greedy <;> simp [fork, orElse, same]

theorem Consumes.eq_nil (consumes : body.Consumes) (isEnd : place.after.length = 0) :
    body place = [] := by
  refine List.eq_nil_iff_forall_not_mem.mpr fun way member => ?_
  have shorter := consumes place way member
  omega

theorem fork_stay_of_eq_nil (greedy : Bool) {next : Ways} (noWay : body place = []) :
    fork greedy (body.andThen next) stay place = stay place := by
  cases greedy <;> simp [fork, orElse, andThen, noWay]

theorem atMost_eq (consumes : body.Consumes) (greedy : Bool) {other : Nat}
    (enough : place.after.length ≤ count) (otherEnough : place.after.length ≤ other) :
    atMost greedy body count place = atMost greedy body other place := by
  induction count generalizing other place with
  | zero =>
    have noWay := consumes.eq_nil (Nat.le_zero.mp enough)
    cases other with
    | zero => rfl
    | succ other => rw [atMost, atMost, fork_stay_of_eq_nil greedy noWay]
  | succ count ih =>
    cases other with
    | zero =>
      have noWay := consumes.eq_nil (Nat.le_zero.mp otherEnough)
      rw [atMost, atMost, fork_stay_of_eq_nil greedy noWay]
    | succ other =>
      refine fork_congr greedy (andThen_congr fun way member => ?_)
      have shorter := consumes place way member
      exact ih (by omega) (by omega)

/-- A loop is entered once more or left. -/
theorem star_eq (consumes : body.Consumes) (greedy : Bool) :
    star greedy body = fork greedy (body.andThen (star greedy body)) stay := by
  funext place
  rw [star, atMost_eq consumes greedy (Nat.le_refl _) (Nat.le_succ _), atMost]
  refine fork_congr greedy (andThen_congr fun way member => ?_)
  have shorter := consumes place way member
  exact atMost_eq consumes greedy (by omega) (Nat.le_refl _)

theorem copies_andThen (body : Ways) (count : Nat) :
    (copies body count).andThen body = body.andThen (copies body count) := by
  induction count with
  | zero => rw [copies, stay_andThen, andThen_stay]
  | succ count ih => rw [copies, andThen_assoc, ih]

/-! ## What holds of every way -/

def Each (property : Place → Place × Slots → Prop) (ways : Ways) : Prop :=
  ∀ place, ∀ way ∈ ways place, property place way

namespace Each

variable {property earlier later : Place → Place × Slots → Prop} {first second : Ways}

theorem nil : Each property fun _ => [] := by
  intro _ _ member
  cases member

theorem stay (here : ∀ place, property place (place, [])) : stay.Each property := by
  intro place way member
  rw [List.mem_singleton.mp member]
  exact here place

theorem save {slot : Nat} (here : ∀ place, property place (place, [(slot, some place)])) :
    (save slot).Each property := by
  intro place way member
  rw [List.mem_singleton.mp member]
  exact here place

theorem pass {set : CharSet}
    (next : ∀ place step, place.next? = some step → property place (step.2, [])) :
    (pass set).Each property := by
  intro place way member
  obtain ⟨step, isStep, rfl⟩ := Option.map_eq_some_iff.mp (Option.mem_toList.mp member)
  exact next place step (Option.filter_eq_some_iff.mp isStep).1

theorem check {assertion : Assertion} (here : ∀ place, property place (place, [])) :
    (check assertion).Each property := by
  intro place way member
  unfold Ways.check at member
  split at member
  · exact Each.stay here place way member
  · cases member

theorem andThen (isFirst : first.Each earlier) (isSecond : second.Each later)
    (join : ∀ place middle next, earlier place middle → later middle.1 next →
      property place (next.1, next.2 ++ middle.2)) :
    (first.andThen second).Each property := by
  intro place way member
  obtain ⟨middle, isMiddle, isWay⟩ := List.mem_flatMap.mp member
  obtain ⟨next, isNext, rfl⟩ := List.mem_map.mp isWay
  exact join place middle next (isFirst place middle isMiddle) (isSecond middle.1 next isNext)

theorem orElse (isFirst : first.Each property) (isSecond : second.Each property) :
    (first.orElse second).Each property :=
  fun place => List.forall_mem_append.mpr ⟨isFirst place, isSecond place⟩

theorem fork (isFirst : first.Each property) (isSecond : second.Each property) (greedy : Bool) :
    (fork greedy first second).Each property := by
  cases greedy with
  | true => exact isFirst.orElse isSecond
  | false => exact isSecond.orElse isFirst

end Each

/-! ## Lengths -/

/-- Every way passes at least the fewest characters of a measure, and exactly these if it is
fixed. -/
abbrev Passes (ways : Ways) (least : Nat) (fixed : Bool) : Prop :=
  ways.Each fun place way =>
    ∃ count, place.advance? count = some way.1 ∧ least ≤ count ∧ (fixed = true → count = least)

section Passes

variable {first second body : Ways} {least other : Nat} {fixed otherFixed : Bool}

theorem Passes.consumes (passes : body.Passes least fixed) (positive : 0 < least) :
    body.Consumes := by
  intro place way member
  obtain ⟨count, isWay, atLeast, -⟩ := passes place way member
  have length := Place.advance?_length isWay
  omega

theorem Passes.same_end (passes : body.Passes least true) {way next : Place × Slots}
    (member : way ∈ body place) (isNext : next ∈ body place) :
    next.1 = way.1 := by
  obtain ⟨count, isWay, -, isLeast⟩ := passes place way member
  obtain ⟨other, isOther, -, otherLeast⟩ := passes place next isNext
  rw [isLeast rfl] at isWay
  rw [otherLeast rfl, isWay] at isOther
  exact (Option.some.inj isOther).symm

theorem Passes.stay : stay.Passes 0 true :=
  Each.stay fun _ => ⟨0, rfl, Nat.le_refl _, fun _ => rfl⟩

theorem Passes.imp (passes : body.Passes least fixed) (fewer : other ≤ least)
    (same : otherFixed = true → fixed = true ∧ other = least) :
    body.Passes other otherFixed := by
  intro place way member
  obtain ⟨count, isWay, atLeast, exactly⟩ := passes place way member
  refine ⟨count, isWay, by omega, fun isFixed => ?_⟩
  obtain ⟨isFixed, rfl⟩ := same isFixed
  exact exactly isFixed

theorem Passes.andThen (isFirst : first.Passes least fixed)
    (isSecond : second.Passes other otherFixed) :
    (first.andThen second).Passes (least + other) (fixed && otherFixed) := by
  refine Each.andThen isFirst isSecond ?_
  rintro place middle next ⟨count, goes, atLeast, exactly⟩ ⟨more, goesOn, otherLeast, otherExactly⟩
  refine ⟨count + more, ?_, by omega, fun isFixed => ?_⟩
  · rw [Place.advance?_add, goes]
    exact goesOn
  · rw [Bool.and_eq_true] at isFixed
    rw [exactly isFixed.1, otherExactly isFixed.2]

theorem Passes.copies (isBody : body.Passes least fixed) (count : Nat) :
    (copies body count).Passes (least * count) fixed := by
  induction count with
  | zero => exact Passes.stay.imp (Nat.le_refl _) fun _ => ⟨rfl, rfl⟩
  | succ count ih =>
    have passes := isBody.andThen ih
    rw [Bool.and_self, Nat.add_comm, ← Nat.mul_succ] at passes
    exact passes

theorem Passes.atMost (isBody : body.Passes least fixed) (greedy : Bool) (count : Nat) :
    (atMost greedy body count).Passes 0 (count == 0 || fixed && least == 0) := by
  induction count with
  | zero => exact Passes.stay.imp (Nat.le_refl _) fun _ => ⟨rfl, rfl⟩
  | succ count ih =>
    refine Each.fork ((isBody.andThen ih).imp (Nat.zero_le _) ?_)
      (Passes.stay.imp (Nat.le_refl _) fun _ => ⟨rfl, rfl⟩) greedy
    intro isFixed
    simp_all

theorem Passes.save (slot : Nat) : (save slot).Passes 0 true :=
  Each.save fun _ => ⟨0, rfl, Nat.le_refl _, fun _ => rfl⟩

theorem Passes.pass (set : CharSet) : (pass set).Passes 1 true := by
  refine Each.pass fun place step isNext => ⟨1, ?_, Nat.le_refl _, fun _ => rfl⟩
  rw [Place.advance?, isNext]
  rfl

theorem Passes.group (isBody : body.Passes least fixed) (number : Nat) :
    (group number body).Passes least fixed := by
  refine ((Passes.save _).andThen (isBody.andThen (Passes.save _))).imp (by omega) ?_
  intro isFixed
  simp [isFixed]

theorem Passes.star (isBody : body.Passes least fixed) (greedy : Bool) :
    (star greedy body).Passes 0 (fixed && least == 0) := by
  intro place way member
  have passes : (Ways.atMost greedy body place.after.length).Passes 0 (fixed && least == 0) :=
    (isBody.atMost greedy place.after.length).imp (Nat.le_refl 0)
      fun isFixed => ⟨by rw [isFixed, Bool.or_true], rfl⟩
  exact passes place way member

theorem Passes.repetition (isBody : body.Passes least fixed) (greedy : Bool) (count : Nat)
    (most : Option Nat) :
    (repetition greedy body count most).Passes (least * count)
      (fixed && (most == some count || least == 0)) := by
  cases most with
  | none =>
    refine ((isBody.copies count).andThen (isBody.star greedy)).imp (Nat.le_refl _) ?_
    intro isFixed
    simpa using isFixed
  | some most =>
    refine ((isBody.copies count).andThen (isBody.atMost greedy (most - count))).imp
      (Nat.le_refl _) ?_
    intro isFixed
    simp only [Option.some_beq_some, Bool.and_eq_true, Bool.or_eq_true, beq_iff_eq] at isFixed ⊢
    refine ⟨⟨isFixed.1, ?_⟩, rfl⟩
    rcases isFixed.2 with same | isEmpty
    · exact .inl (by omega)
    · exact .inr ⟨isFixed.1, isEmpty⟩

end Passes

end Ways

/-! ## Ways to match a node -/

namespace Measure

theorem sequence_cons (part : Measure) (parts : List Measure) :
    (sequence (part :: parts)).least = part.least + (sequence parts).least := by
  have shift (start : Nat) : parts.foldl (fun least part => least + part.least) start =
      start + parts.foldl (fun least part => least + part.least) 0 := by
    induction parts generalizing start with
    | nil => rfl
    | cons part parts ih =>
      rw [List.foldl_cons, List.foldl_cons, ih,
        ih (0 + part.least)]
      omega
  simp only [sequence, List.foldl_cons, Nat.zero_add]
  exact shift part.least

theorem foldl_min_le (others : List Measure) (start : Nat) :
    others.foldl (fun least other => min least other.least) start ≤ start ∧
      ∀ other ∈ others,
        others.foldl (fun least other => min least other.least) start ≤ other.least := by
  induction others generalizing start with
  | nil => simp
  | cons first others ih =>
    obtain ⟨belowStart, belowEach⟩ := ih (min start first.least)
    simp only [List.foldl_cons, List.forall_mem_cons]
    exact ⟨by omega, by omega, belowEach⟩

theorem foldl_min_eq {others : List Measure} {start : Nat}
    (same : ∀ other ∈ others, other.least = start) :
    others.foldl (fun least other => min least other.least) start = start := by
  induction others with
  | nil => rfl
  | cons first others ih =>
    rw [List.forall_mem_cons] at same
    rw [List.foldl_cons, same.1, Nat.min_self]
    exact ih same.2

theorem choice_mem {alternatives : List Measure} {measure : Measure}
    (member : measure ∈ alternatives) :
    (choice alternatives).least ≤ measure.least ∧
      ((choice alternatives).fixed = true →
        measure.fixed = true ∧ (choice alternatives).least = measure.least) := by
  cases alternatives with
  | nil => cases member
  | cons first others =>
    obtain ⟨belowFirst, belowEach⟩ := foldl_min_le others first.least
    refine ⟨?_, fun isFixed => ?_⟩
    · rcases List.mem_cons.mp member with rfl | isOther
      · exact belowFirst
      · exact belowEach measure isOther
    · simp only [choice, Bool.and_eq_true, List.all_eq_true, beq_iff_eq] at isFixed ⊢
      rw [foldl_min_eq fun other isOther => (isFixed.2 other isOther).2]
      rcases List.mem_cons.mp member with rfl | isOther
      · exact ⟨isFixed.1, rfl⟩
      · obtain ⟨otherFixed, same⟩ := isFixed.2 measure isOther
        exact ⟨otherFixed, same.symm⟩

end Measure

namespace Node

mutual

def ways : Node → Ways
  | .empty => .stay
  | .consume set => .pass set
  | .literal char => .pass (.single char)
  | .check assertion => .check assertion
  | .concat nodes => waysOf nodes
  | .alternation nodes => waysEach nodes
  | .group number node => .group number (ways node)
  | .repetition node least most greedy =>
    let bounds := effectiveBounds (node.measure []) least most
    .repetition greedy (ways node) bounds.1 bounds.2
  | _ => fun _ => []

def waysOf : List Node → Ways
  | [] => .stay
  | node :: nodes => (ways node).andThen (waysOf nodes)

def waysEach : List Node → Ways
  | [] => fun _ => []
  | node :: nodes => (ways node).orElse (waysEach nodes)

end

mutual

/-- A node is as long as its measure says. -/
theorem ways_passes : (node : Node) →
    (ways node).Passes (node.measure []).least (node.measure []).fixed
  | .empty => .stay
  | .consume set => .pass set
  | .literal char => .pass _
  | .check assertion => .check fun _ => ⟨0, rfl, Nat.le_refl _, fun _ => rfl⟩
  | .concat nodes => waysOf_passes nodes
  | .alternation nodes => waysEach_passes nodes fun _ member => Measure.choice_mem member
  | .group number node => (ways_passes node).group number
  | .repetition node least most greedy => by
      have passes := (ways_passes node).repetition greedy
        (effectiveBounds (node.measure []) least most).1
        (effectiveBounds (node.measure []) least most).2
      refine passes.imp ?_ ?_ <;> simp only [measure, effectiveBounds] <;> split <;> simp_all
  | .look _ _ _ | .reference _ | .atomic _ | .keepOut | .searchStart | .groupMatched _
  | .conditional _ _ _ => .nil

theorem waysOf_passes : (nodes : List Node) →
    (waysOf nodes).Passes (Measure.sequence (measures [] nodes)).least
      (Measure.sequence (measures [] nodes)).fixed
  | [] => .stay
  | node :: nodes => by
      rw [measures, Measure.sequence_cons]
      exact (ways_passes node).andThen (waysOf_passes nodes)

theorem waysEach_passes : (nodes : List Node) → {least : Nat} → {fixed : Bool} →
    (∀ measure ∈ measures [] nodes, least ≤ measure.least ∧
      (fixed = true → measure.fixed = true ∧ least = measure.least)) →
    (waysEach nodes).Passes least fixed
  | [], _, _, _ => .nil
  | node :: nodes, least, fixed, within => by
      rw [measures, List.forall_mem_cons] at within
      obtain ⟨first, others⟩ := within
      exact ((ways_passes node).imp first.1 first.2).orElse (waysEach_passes nodes others)

end

end Node

end Regex
end Highlighter

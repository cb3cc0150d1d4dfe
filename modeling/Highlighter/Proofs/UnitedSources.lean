import Highlighter.Proofs.GroupNumbers
import Highlighter.Proofs.Regex.Unions

/-!
# Matches of sources between bars

A source that is made of others with bars between them matches at a place exactly if one of the
others does.  That takes that none of them refers to its groups where other groups stand in front
of them: nothing moves such references on.
-/
namespace Highlighter

open Regex (Expression FirstPlace Slots)
open Regex.Reading (Outline Outlines Piece)

variable {ignoreCase : Bool} {sources : List String} {place : Place} {source : String}
  {before : Nat} {expression : Expression}

/-! ## References -/

namespace Pattern

/-- Whether what a token refers to stays the same behind a number of groups. -/
def Token.staysBehind (before : Nat) : Token → Bool
  | .reference number => before == 0 && 0 < number
  | _ => true

/-- Whether what sources refer to stays the same when they are put between bars, the first one
behind a number of groups. -/
def stayBehind : (before : Nat) → List String → Bool
  | _, [] => true
  | before, source :: sources =>
    (Token.ofSource source.toList).all (Token.staysBehind before) &&
      stayBehind (before + countGroups source) sources

theorem moved_of_staysBehind
    (stays : (Token.ofSource source.toList).all (Token.staysBehind before)) :
    moved before 0 source.toList = source.toList := by
  rw [List.all_eq_true] at stays
  have unshifted : ∀ token ∈ Token.scan 0 0 source.toList,
      (token.shift before).text = token.text := by
    intro token member
    have stays := stays token member
    cases token with
    | reference number =>
      simp only [Token.staysBehind, Bool.and_eq_true, beq_iff_eq] at stays
      rw [stays.1]
      rfl
    | opening capturing text => rfl
    | verbatim text => rfl
  rw [moved, List.flatMap_congr unshifted]
  refine flatMap_text_scan 0 0 source.toList fun number member => ?_
  have stays := stays _ member
  simp only [Token.staysBehind, Bool.and_eq_true, decide_eq_true_eq] at stays
  exact stays.2

theorem texts_of_stayBehind (stay : stayBehind before sources) :
    Piece.texts before ((sources.map String.toList).map .bare) = sources.map String.toList := by
  induction sources generalizing before with
  | nil => rfl
  | cons source sources ih =>
    rw [stayBehind, Bool.and_eq_true] at stay
    exact congrArg₂ List.cons (moved_of_staysBehind stay.1) (ih stay.2)

def isReadAs (test : Expression → Bool) (ignoreCase : Bool) (source : String) : Bool :=
  match Expression.read (Regex.pattern source ignoreCase).toList with
  | .ok expression => test expression
  | .error _ => false

theorem isReadAs_eq {test : Expression → Bool}
    (isRead : Expression.read (Regex.pattern source ignoreCase).toList = .ok expression) :
    isReadAs test ignoreCase source = test expression := by
  rw [isReadAs, isRead]

theorem toList_joinWith_bar (sources : List String) :
    (joinWith "|" sources).toList = Text.join ['|'] (sources.map String.toList) :=
  String.toList_ofList

theorem toList_either (sources : List String) :
    (either sources).toList =
      '(' :: '?' :: ':' :: (Text.join ['|'] (sources.map String.toList) ++ [')']) := by
  rw [either, String.toList_append, String.toList_append, toList_joinWith_bar]
  rfl

end Pattern

/-! ## Matches right at a place -/

namespace Regex

/-- Whether a source by itself matches right at a place, unless the search for it is given up. -/
def matchesAt? (ignoreCase : Bool) (place : Place) (source : String) : Option Bool := do
  let regex ← (compile source ignoreCase).toOption
  let found ← (regex.search place).toOption
  return found.any fun found => found.span.start.offset == place.offset

theorem FirstPlace.exists_here {finds : Place → Option Slots → Prop}
    {result : Option (Place × Slots)} (first : FirstPlace finds place result) :
    ∃ here, finds place here ∧
      (∀ slots, here = some slots → result = some (place, slots)) ∧
      (here = none → ∀ next slots, result = some (next, slots) →
        place.offset < next.offset ∧ finds next (some slots)) := by
  cases first with
  | here found => exact ⟨_, found, by rintro _ ⟨⟩; rfl, nofun⟩
  | never nothing => exact ⟨none, nothing, nofun, nofun⟩
  | later nothing step others =>
    refine ⟨none, nothing, nofun, ?_⟩
    rintro - next slots rfl
    obtain ⟨order, found⟩ := others.precedes
    exact ⟨Nat.lt_of_lt_of_le (Place.offset_lt_of_next step) order.offset_le, found⟩

/-- A match that does not move its beginning begins where it is found. -/
theorem Expression.Finds.exists_match {origin : Nat} {slots : Slots} (sound : expression.IsSound)
    (stays : expression.node.keepsOut = false)
    (finds : expression.Finds origin place (some slots)) (groups : Nat) :
    ∃ found, matchOfSlots? groups slots = some found ∧ found.span.start = place := by
  have noZero : 0 ∉ expression.node.groups := fun member =>
    absurd (sound.groups 0 member).1 (Nat.lt_irrefl 0)
  obtain ⟨stop, effect, matched, same⟩ := FindsBy.exists_matches finds noZero
  have unmoved : effect 0 = none := by
    refine matched.unchanged (Matches.notable_singleton.not.mpr ?_)
    rintro (inGroup | ⟨-, keeps⟩)
    · exact noZero inGroup
    · rw [stays] at keeps
      cases keeps
  have isSpan : slots.span? 0 = some { start := place, stop } := by
    rw [span?_eq_some, same _ (by omega), same _ (by omega)]
    simp [Effect.whole, Effect.write, unmoved]
  have order : ¬ stop.offset < place.offset := Nat.not_lt.mpr matched.precedes.offset_le
  simp [matchOfSlots?, isSpan, order]

theorem exists_finds_of_matchesAt? {answer : Bool}
    (isRead : Expression.read (pattern source ignoreCase).toList = .ok expression)
    (stays : expression.node.keepsOut = false)
    (answers : matchesAt? ignoreCase place source = some answer) :
    ∃ here, expression.Finds place.offset place here ∧ answer = here.isSome := by
  simp only [matchesAt?, Option.bind_eq_bind, Option.bind_eq_some_iff, Success.toOption_eq_some,
    Option.pure_def, Option.some.injEq] at answers
  obtain ⟨regex, compiled, found, searched, rfl⟩ := answers
  have sound := Expression.read_sound isRead
  obtain ⟨result, first, rfl⟩ := search_finds compiled isRead searched
  obtain ⟨here, finds, isHere, isLater⟩ := first.exists_here
  refine ⟨here, finds, ?_⟩
  cases here with
  | some slots =>
    obtain ⟨found, isFound, starts⟩ := finds.exists_match sound stays regex.groups
    rw [isHere slots rfl]
    simp [isFound, starts]
  | none =>
    cases result with
    | none => rfl
    | some found =>
      obtain ⟨order, finds⟩ := isLater rfl found.1 found.2 rfl
      obtain ⟨found, isFound, starts⟩ := finds.exists_match sound stays regex.groups
      simp [isFound, starts, Nat.ne_of_gt order]

/-! ## Sources between bars -/

/-- Each of the sources between the bars of another one means the same alone as among the
others. -/
structure Unites (ignoreCase : Bool) (source : String) (sources : List String) : Prop where
  nonempty : sources ≠ []
  arePortable : ∀ part ∈ source :: sources, Pattern.isPortable part
  keepStart : ∀ part ∈ source :: sources,
    Pattern.isReadAs (fun expression => !expression.node.keepsOut) ignoreCase part
  stay : Pattern.stayBehind 0 sources
  steady : sources.any (Pattern.isReadAs Expression.isHard ignoreCase) → ∀ part ∈ sources,
    Pattern.isReadAs (fun expression => expression.isHard || expression.node.isSteady) ignoreCase
      part

/-- A source matches at a place exactly if one of some others does, wherever no search is given
up. -/
def MeansAnyOf (ignoreCase : Bool) (source : String) (sources : List String) : Prop :=
  ∀ place, (∀ part ∈ source :: sources, (matchesAt? ignoreCase place part).isSome) →
    (matchesAt? ignoreCase place source = some true ↔
      ∃ part ∈ sources, matchesAt? ignoreCase place part = some true)

theorem plain_of_compile {regex : Regex} (compiled : compile source ignoreCase = .ok regex)
    (isRead : Expression.read (pattern source ignoreCase).toList = .ok expression)
    (easy : expression.isHard = false) (steady : expression.node.isSteady = true) :
    Node.Plain (2 * expression.groups + 2) expression.referenced [expression.node] := by
  rcases compile_of_read compiled isRead with ⟨hard, -⟩ | ⟨-, automaton, made, -⟩
  · cases easy.symm.trans hard
  · constructor
    case easy => exact List.forall_mem_singleton.mpr easy
    case steady => exact List.forall_mem_singleton.mpr steady
    case bounds => exact List.forall_mem_singleton.mpr (Automaton.limits_of_ofNodes made).1
    case distinct =>
      rw [Node.groupsOf_singleton]
      exact (Expression.read_numbered isRead).different
    case within =>
      rw [Node.groupsOf_singleton]
      intro number member
      obtain ⟨positive, within⟩ := (Expression.read_sound isRead).groups number member
      exact ⟨positive, by omega⟩

section Unites

variable (unites : Unites ignoreCase source sources)

include unites

theorem Unites.exists_read {part : String} (member : part ∈ source :: sources) :
    ∃ expression, Expression.read (pattern part ignoreCase).toList = .ok expression ∧
      expression.node.keepsOut = false := by
  have keeps := unites.keepStart part member
  unfold Pattern.isReadAs at keeps
  split at keeps
  · exact ⟨_, ‹_›, by simpa using keeps⟩
  · cases keeps

theorem Unites.isUsable {outlineOf : String → Outline}
    (reads : ∀ part ∈ sources,
      Expression.read (pattern part ignoreCase).toList = .ok (outlineOf part).expression)
    (answered : ∀ part ∈ sources, (matchesAt? ignoreCase place part).isSome) :
    ∀ outline ∈ sources.map outlineOf,
      outline.IsUsable (Outline.united (sources.map outlineOf)).isHard := by
  have sound : ∀ outline ∈ sources.map outlineOf, outline.expression.IsSound :=
    List.forall_mem_map.mpr fun part member => Expression.read_sound (reads part member)
  rw [Outline.united_isHard (by simpa using unites.nonempty) sound, List.forall_mem_map]
  intro part member
  refine ⟨Expression.read_sound (reads part member), ?_⟩
  cases needed : (sources.map outlineOf).any fun outline => outline.expression.isHard with
  | false =>
    rw [List.any_eq_false, List.forall_mem_map] at needed
    exact .inl (Bool.eq_false_iff.mpr (needed part member))
  | true =>
    have isNeeded : sources.any (Pattern.isReadAs Expression.isHard ignoreCase) = true := by
      rw [List.any_map, List.any_eq_true] at needed
      obtain ⟨other, isOther, hard⟩ := needed
      exact List.any_eq_true.mpr
        ⟨other, isOther, (Pattern.isReadAs_eq (reads other isOther)).trans hard⟩
    have steady := unites.steady isNeeded part member
    rw [Pattern.isReadAs_eq (reads part member), Bool.or_eq_true] at steady
    cases isHard : (outlineOf part).expression.isHard with
    | true => exact .inl rfl
    | false =>
      rw [isHard] at steady
      obtain ⟨answer, answers⟩ := Option.isSome_iff_exists.mp (answered part member)
      simp only [matchesAt?, Option.bind_eq_bind, Option.bind_eq_some_iff,
        Success.toOption_eq_some] at answers
      obtain ⟨regex, compiled, -⟩ := answers
      exact .inr ⟨rfl, plain_of_compile compiled (reads part member) isHard (by simpa using steady)⟩

theorem Unites.meansAnyOf
    (isSource : source = Pattern.joinWith "|" sources ∨ source = Pattern.either sources) :
    MeansAnyOf ignoreCase source sources := by
  intro place answered
  obtain ⟨answeredWhole, answeredEach⟩ := List.forall_mem_cons.mp answered
  have exists_outline : ∀ part ∈ sources, ∃ outline, Outlines 0 ignoreCase part.toList outline ∧
      Expression.read (pattern part ignoreCase).toList = .ok outline.expression ∧
        outline.expression.node.keepsOut = false := by
    intro part member
    obtain ⟨expression, isRead, stays⟩ := unites.exists_read (.tail _ member)
    obtain ⟨outline, outlines, rfl⟩ :=
      Reading.readsAs_of_read (unites.arePortable part (.tail _ member)) isRead
    exact ⟨outline, outlines, isRead, stays⟩
  choose! outlineOf outlines reads stays using exists_outline
  have answers {part : String} (member : part ∈ sources) : ∃ here,
      (outlineOf part).expression.Finds place.offset place here ∧
        matchesAt? ignoreCase place part = some here.isSome := by
    obtain ⟨answer, isAnswer⟩ := Option.isSome_iff_exists.mp (answeredEach part member)
    obtain ⟨here, finds, rfl⟩ :=
      exists_finds_of_matchesAt? (reads part member) (stays part member) isAnswer
    exact ⟨here, finds, isAnswer⟩
  obtain ⟨whole, isWhole, staysWhole⟩ := unites.exists_read List.mem_cons_self
  obtain rfl : whole = Outline.united (sources.map outlineOf) := by
    have listed : List.Forall₂ (fun source outline => Pattern.portable 0 0 source ∧
        Outlines 0 ignoreCase source outline) (sources.map String.toList)
        (sources.map outlineOf) := by
      rw [List.forall₂_map_left_iff, List.forall₂_map_right_iff, List.forall₂_same]
      exact fun part member => ⟨unites.arePortable part (.tail _ member), outlines part member⟩
    refine (Reading.read_united listed (by simpa using unites.nonempty)
      (unites.arePortable source List.mem_cons_self) isWhole ?_).1
    rw [Pattern.texts_of_stayBehind unites.stay]
    rcases isSource with rfl | rfl
    · exact .inl (Pattern.toList_joinWith_bar sources)
    · exact .inr (Pattern.toList_either sources)
  obtain ⟨answer, isAnswer⟩ := Option.isSome_iff_exists.mp answeredWhole
  obtain ⟨here, finds, rfl⟩ := exists_finds_of_matchesAt? isWhole staysWhole isAnswer
  have united := Outline.united_isSome (by simpa using unites.nonempty)
    (unites.isUsable reads answeredEach)
    (List.forall_mem_map.mpr fun part member => (answers member).imp fun _ isHere => isHere.1) finds
  rw [isAnswer, Option.some_inj, united]
  simp only [List.mem_map, exists_exists_and_eq_and]
  refine exists_congr fun part => and_congr_right fun member => ?_
  obtain ⟨here, isHere, isAnswer⟩ := answers member
  rw [isAnswer, Option.some_inj, Option.isSome_iff_exists]
  constructor
  · rintro ⟨slots, isFound⟩
    exact ⟨slots, isHere.unique isFound⟩
  · rintro ⟨slots, rfl⟩
    exact ⟨slots, isHere⟩

end Unites

end Regex
end Highlighter

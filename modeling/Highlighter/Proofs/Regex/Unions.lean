import Highlighter.Proofs.Regex.Choosing

/-!
# Sources between bars

Sources that are joined by bars alone are read as the alternatives of all of them, one after
another, and so find something at a place exactly if one of them does by itself.  Nothing moves
their references on: all this takes that no groups stand in front of references.
-/
namespace Highlighter.Regex

variable {ignoreCase : Bool} {outline : Reading.Outline} {outlines : List Reading.Outline}

namespace Reading

open Pattern (moved groupsIn portable)

variable {depth : Nat} {source : List Char} {sources : List (List Char)}

/-! ## Reading -/

def Piece.bare (source : List Char) : Piece where
  text := fun before => moved before 0 source
  groups := groupsIn 0 source

theorem yields_bare (isPortable : portable 0 0 source)
    (outlines : Outlines 0 ignoreCase source outline) :
    Yields (fun _ => True) depth ignoreCase (.bare source) outline := fun _ _ _ isTail _ =>
  yieldsAt_moved trivial ⟨Nat.zero_le _, .inl trivial⟩ isPortable outlines isTail
    (fun _ _ => trivial) (.inl trivial)

theorem group_of_bare {state : ReadState} {content tail : List Char}
    {property : Node → ReadState → Prop} (noBlanks : state.flags.ignoreBlanks = false)
    (reads : ∀ fuel, Settles (fun _ => True) (alternatives fuel 1) { state with rest := content }
      fun node after => after.rest = ')' :: tail ∧
        property node { after with rest := tail, flags := state.flags }) (fuel : Nat) :
    Settles (fun _ => True) (group fuel 1) { state with rest := '?' :: ':' :: content }
      fun node after => after.rest = tail ∧ property node after := by
  cases fuel with
  | zero => simp [group]
  | succ fuel =>
    have stays (chars : List Char) (noOpening : chars.head? ≠ some '(') :
        afterBlanks state.flags.ignoreBlanks .between chars = .ok chars := by
      rw [noBlanks]
      refine afterBlanks_of_ne ?_
      rintro others rfl
      exact noOpening rfl
    simp only [group]
    rw [if_neg (by decide), Settles.bind_iff,
      @skipBlanks_iff _ { state with rest := '?' :: ':' :: content } _ (stays _ (by simp)),
      Settles.bind_iff, Settles.get_iff]
    refine scope_of_flags rfl ?_
    simp only [flags, Settles.bind_iff]
    rw [@skipBlanks_iff _ { state with rest := ':' :: content } _ (stays _ (by simp))]
    refine ⟨by simp, fun _ => (reads fuel).imp ?_⟩
    rintro node after ⟨isRest, holds⟩
    exact (close_iff isRest).mpr ⟨rfl, holds⟩

section Whole

variable {bound : Nat} {tail : List Char} {state : ReadState}
  (yields : List.Forall₂ (fun source outline => portable 0 0 source ∧
    Outlines 0 ignoreCase source outline) sources outlines) (nonempty : sources ≠ [])

include yields nonempty

/-- Sources between bars are read as the alternatives of all of them. -/
theorem branch_bare (isTail : ∀ char ∈ tail.head?, char = ')')
    (between : Between ignoreCase bound
      (Text.join ['|'] (Piece.texts 0 (sources.map .bare)) ++ tail) 0 [] state)
    (fuel otherFuel : Nat) :
    Settles (fun _ => True) (branch fuel depth []) state fun first middle =>
      Settles (fun _ => True) (otherAlternatives otherFuel depth []) middle fun others after =>
        (alternation first others = (Outline.united outlines).node ∧
          outlines.map Outline.groups = sources.map (groupsIn 0)) ∧
          Between ignoreCase bound tail (Outline.united outlines).groups
            (Outline.united outlines).referenced after := by
  have each : List.Forall₂ (Yields (fun _ => True) depth ignoreCase) (sources.map .bare)
      outlines := by
    rw [List.forall₂_map_left_iff]
    exact yields.imp fun _ _ isOutline => yields_bare isOutline.1 isOutline.2
  refine (branch_united trivial isTail (by simpa using nonempty) each (.inl trivial) between fuel
    otherFuel).imp fun first middle read => read.imp ?_
  rintro others after ⟨isBranches, sameGroups, finished⟩
  rw [Nat.zero_add] at finished
  rw [List.map_map] at sameGroups
  exact ⟨⟨congrArg ofBranches isBranches, sameGroups⟩, finished⟩

theorem read_united {source : String} (isPortable : Pattern.isPortable source)
    {expression : Expression}
    (isRead : Expression.read (pattern source ignoreCase).toList = .ok expression)
    (isSource : source.toList = Text.join ['|'] (Piece.texts 0 (sources.map .bare)) ∨
      source.toList =
        '(' :: '?' :: ':' :: (Text.join ['|'] (Piece.texts 0 (sources.map .bare)) ++ [')'])) :
    expression = Outline.united outlines ∧
      outlines.map Outline.groups = sources.map (groupsIn 0) := by
  obtain ⟨_, ⟨bound, fuel, otherFuel, first, middle, others, after, isFirst, isOthers, -, rfl⟩,
    rfl⟩ := readsAs_of_read isPortable isRead
  rcases isSource with isSource | isSource
  · have between : Between ignoreCase bound
        (Text.join ['|'] (Piece.texts 0 (sources.map .bare)) ++ []) 0 []
        (initial ignoreCase source.toList bound) :=
      ⟨isSource.trans (List.append_nil _).symm, rfl, rfl, rfl, rfl, rfl⟩
    obtain ⟨⟨isNode, sameGroups⟩, finished⟩ :=
      ((branch_bare yields nonempty (by simp) between fuel otherFuel).ensures isFirst).ensures
        isOthers
    rw [Outline.expression, isNode, finished.referenced, finished.opened]
    exact ⟨rfl, sameGroups⟩
  · have grouped : Settles (fun _ => True) (branch fuel 0 [])
        (initial ignoreCase source.toList bound) fun node after =>
          (node = (Outline.united outlines).node ∧
            outlines.map Outline.groups = sources.map (groupsIn 0)) ∧
            Between ignoreCase bound [] (Outline.united outlines).groups
              (Outline.united outlines).referenced after := by
      refine @branch_of_group _ trivial _ _ [] _ rfl isSource
        (afterBlanks_of_ne (by simp [initial, isSource])) (by simp [Ends])
        (group_of_bare rfl fun fuel => ?_) fuel
      refine alternatives_of_branch trivial fun fuel => (branch_bare yields nonempty (by simp)
        ⟨rfl, rfl, rfl, rfl, rfl, rfl⟩ fuel fuel).imp fun first middle read => read.imp ?_
      rintro others after ⟨isNode, finished⟩
      exact ⟨.inr trivial, finished.rest, isNode, { finished with rest := rfl, flags := rfl }⟩
    obtain ⟨⟨rfl, sameGroups⟩, finished⟩ := grouped.ensures isFirst
    have stops : Settles (fun _ => True) (otherAlternatives otherFuel 0 []) middle
        fun nodes last => nodes = [] ∧ last = middle :=
      otherAlternatives_end trivial (by simp [finished.rest]) ⟨rfl, rfl⟩
    obtain ⟨rfl, rfl⟩ := stops.ensures isOthers
    rw [Outline.expression, finished.referenced, finished.opened]
    exact ⟨rfl, sameGroups⟩

end Whole

/-! ## Finding -/

namespace Outline

open Expression (Picks)

variable {result : Option Slots} {place : Place} {origin : Nat} {machine : Bool}

/-- A source can be searched for among others: it is sound, and steady if it takes an automaton
where the others take a machine. -/
structure IsUsable (machine : Bool) (outline : Outline) : Prop where
  sound : outline.expression.IsSound
  steady : outline.expression.isHard = machine ∨
    machine = true ∧ Node.Plain (2 * outline.groups + 2) outline.referenced
      [outline.expression.node]

theorem expression_picks (sound : outline.expression.IsSound)
    (finds : outline.expression.FindsBy origin place machine result) :
    Picks (fun part => part.FindsBy origin place machine) (parts 0 [outline]) result := by
  rw [← outline.united_singleton] at finds
  exact (united_madeOf (by simp) (by simpa using sound)).picks finds

theorem map_expression_singleton (outline : Outline) :
    (parts 0 [outline]).map Part.expression = outline.alternatives := by
  rw [map_expression_parts, List.flatMap_singleton]

theorem IsUsable.own (usable : outline.IsUsable machine) {part : Expression}
    (member : part ∈ outline.alternatives) (finds : part.FindsBy origin place machine result) :
    ∃ found, part.FindsBy origin place outline.expression.isHard found ∧
      found.isSome = result.isSome := by
  rcases usable.steady with same | ⟨rfl, plain⟩
  · rw [same]
    exact ⟨result, finds, rfl⟩
  · have easy : outline.expression.isHard = false := plain.easy _ (List.mem_singleton_self _)
    have each : Node.Plain (2 * outline.groups + 2) outline.referenced
        (outline.first :: outline.others) := by
      simp only [expression, alternation] at plain
      split at plain
      · rename_i isNil
        rwa [List.isEmpty_iff.mp isNil]
      · exact plain.alternation
    obtain ⟨node, isNode, rfl⟩ := List.mem_map.mp member
    obtain ⟨found, finds, same⟩ :=
      finds.automaton_of_machine (each.sublist (List.singleton_sublist.mpr isNode))
    rw [easy]
    refine ⟨found, finds, ?_⟩
    rw [← Option.isSome_map, ← same, Option.isSome_map]

theorem united_isHard (nonempty : outlines ≠ [])
    (sound : ∀ outline ∈ outlines, outline.expression.IsSound) :
    (united outlines).isHard = outlines.any fun outline => outline.expression.isHard := by
  rw [(united_madeOf nonempty sound).isHard, map_expression_parts, List.any_flatMap,
    Bool.eq_iff_iff, List.any_eq_true, List.any_eq_true]
  refine exists_congr fun outline => and_congr_right fun member => ?_
  have own := (united_madeOf (List.cons_ne_nil outline [])
    (by simpa using sound outline member)).isHard
  rw [united_singleton, map_expression_singleton] at own
  rw [own]

/-- Sources between bars find something exactly if one of them does by itself. -/
theorem united_isSome (nonempty : outlines ≠ [])
    (usable : ∀ outline ∈ outlines, outline.IsUsable (united outlines).isHard)
    (each : ∀ outline ∈ outlines, ∃ alone, outline.expression.Finds origin place alone)
    (finds : (united outlines).Finds origin place result) :
    result.isSome ↔ ∃ outline ∈ outlines, ∃ slots,
      outline.expression.Finds origin place (some slots) := by
  have sound : ∀ outline ∈ outlines, outline.expression.IsSound :=
    fun outline member => (usable outline member).sound
  have picks := (united_madeOf nonempty sound).picks finds
  cases result with
  | none =>
    have fails := picks.finds_none rfl
    rw [map_expression_parts] at fails
    refine iff_of_false (by simp) ?_
    rintro ⟨outline, member, slots, isFound⟩
    obtain ⟨part, isPart, source, isSource⟩ :=
      (expression_picks (sound outline member) isFound).exists_finds
    rw [map_expression_singleton] at isPart
    obtain ⟨other, isOther, same⟩ := (usable outline member).own isPart
      (fails part (List.mem_flatMap.mpr ⟨outline, member, isPart⟩))
    cases isSource.unique isOther
    cases same
  | some target =>
    refine iff_of_true rfl ?_
    obtain ⟨part, isPart, source, isSource⟩ := picks.exists_finds
    rw [map_expression_parts] at isPart
    obtain ⟨outline, member, isPart⟩ := List.mem_flatMap.mp isPart
    obtain ⟨alone, isAlone⟩ := each outline member
    refine ⟨outline, member, ?_⟩
    cases alone with
    | some slots => exact ⟨slots, isAlone⟩
    | none =>
      have fails := (expression_picks (sound outline member) isAlone).finds_none rfl
      rw [map_expression_singleton] at fails
      obtain ⟨other, isOther, same⟩ := (usable outline member).own isPart isSource
      cases isOther.unique (fails part isPart)
      cases same

end Outline
end Reading
end Highlighter.Regex

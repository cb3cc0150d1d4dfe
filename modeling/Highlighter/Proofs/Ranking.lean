import Mathlib.Data.List.DropRight
import Mathlib.Data.List.FinRange
import Highlighter.Ranking

/-!
# What a ranking keeps to

Items are ranked one after another, and each moves forward past those that it precedes, up to the
first that it does not.  To precede need be neither transitive nor total.  An item stands before
one listed earlier only if it precedes it, and it is said exactly when it does.
-/
namespace Highlighter.Ranking

variable {α β : Type} {precedes : α → α → Bool}

/-! ## One item -/

theorem insertBackward_eq (item : α) (ranked : List α) :
    insertBackward precedes item ranked =
      ranked.takeWhile (precedes item) ++ item :: ranked.dropWhile (precedes item) := by
  induction ranked with
  | nil => rfl
  | cons last earlier ih =>
    rw [insertBackward, List.takeWhile_cons, List.dropWhile_cons]
    split
    · rw [ih, List.cons_append]
    · rfl

theorem rank_snoc (items : List α) (item : α) :
    rank precedes (items ++ [item]) =
      (rank precedes items).rdropWhile (precedes item) ++
        item :: (rank precedes items).rtakeWhile (precedes item) := by
  rw [rank, List.foldl_append, List.foldl_cons, List.foldl_nil, insertBackward_eq,
    List.reverse_append, List.reverse_cons, List.append_assoc, List.rdropWhile,
    List.rtakeWhile, rank, List.reverse_reverse]
  rfl

theorem rank_sublist_snoc (items : List α) (item : α) :
    (rank precedes items).Sublist (rank precedes (items ++ [item])) := by
  rw [rank_snoc]
  nth_rewrite 1 [← List.rdropWhile_append_rtakeWhile (p := precedes item) (l := rank precedes items)]
  exact (List.sublist_cons_self ..).append_left _

/-! ## All items -/

theorem rank_perm (items : List α) : (rank precedes items).Perm items := by
  induction items using List.reverseRecOn with
  | nil => exact .refl _
  | append_singleton items item ih =>
    rw [rank_snoc]
    refine List.perm_middle.trans ?_
    rw [List.rdropWhile_append_rtakeWhile]
    exact (ih.cons item).trans (List.perm_append_singleton ..).symm

theorem rank_map (view : β → α) (items : List β) :
    rank precedes (items.map view) =
      (rank (fun first second => precedes (view first) (view second)) items).map view := by
  induction items using List.reverseRecOn with
  | nil => rfl
  | append_singleton items item ih =>
    rw [List.map_append, List.map_singleton, rank_snoc, rank_snoc, ih,
      List.map_append, List.map_cons, List.rdropWhile, List.rdropWhile, List.rtakeWhile,
      List.rtakeWhile, ← List.map_reverse, List.dropWhile_map, List.takeWhile_map,
      List.map_reverse, List.map_reverse]
    rfl

theorem rank_pairwise {atLeast : α → α → Prop}
    (transitive : ∀ first second third, atLeast first second → atLeast second third →
      atLeast first third)
    (ahead : ∀ first second, precedes first second = true → atLeast first second)
    (behind : ∀ first second, precedes first second = false → atLeast second first)
    (items : List α) : (rank precedes items).Pairwise atLeast := by
  induction items using List.reverseRecOn with
  | nil => exact .nil
  | append_singleton items item ih =>
    rw [rank_snoc]
    rw [← List.rdropWhile_append_rtakeWhile (p := precedes item) (l := rank precedes items),
      List.pairwise_append] at ih
    obtain ⟨stays, passed, across⟩ := ih
    have overPassed : ∀ other ∈ (rank precedes items).rtakeWhile (precedes item),
        atLeast item other := fun other member =>
      ahead item other (List.mem_rtakeWhile_imp member)
    have underStaying : ∀ other ∈ (rank precedes items).rdropWhile (precedes item),
        atLeast other item := by
      intro other member
      -- The last item that stays stops the new one, and the others are above it.
      generalize isStaying : (rank precedes items).rdropWhile (precedes item) = staying
        at member stays
      have nonempty : staying ≠ [] := List.ne_nil_of_mem member
      have stopped : precedes item (staying.getLast nonempty) = false := by
        subst isStaying
        exact Bool.eq_false_iff.mpr (List.rdropWhile_last_not _ _ nonempty)
      have last := behind _ _ stopped
      rw [← List.dropLast_append_getLast nonempty, List.mem_append,
        List.mem_singleton] at member
      rcases member with above | rfl
      · rw [← List.dropLast_append_getLast nonempty, List.pairwise_append] at stays
        exact transitive _ _ _ (stays.2.2 other above _ (List.mem_singleton_self _)) last
      · exact last
    refine List.pairwise_append.mpr ⟨stays, List.pairwise_cons.mpr ⟨overPassed, passed⟩, ?_⟩
    intro other member lower isLower
    rcases List.mem_cons.mp isLower with rfl | wasPassed
    · exact underStaying other member
    · exact across other member lower wasPassed

theorem rank_overtakes {earlier : α → α → Prop} {items : List α}
    (listed : items.Pairwise earlier) :
    (rank precedes items).Pairwise fun first second =>
      earlier first second ∨ earlier second first ∧ precedes first second = true := by
  induction items using List.reverseRecOn with
  | nil => exact .nil
  | append_singleton items item ih =>
    obtain ⟨listedBefore, -, isLast⟩ := List.pairwise_append.mp listed
    have beforeItem : ∀ other ∈ rank precedes items, earlier other item := fun other member =>
      isLast other ((rank_perm items).mem_iff.mp member) item (List.mem_singleton_self _)
    have former := ih listedBefore
    rw [rank_snoc]
    rw [← List.rdropWhile_append_rtakeWhile (p := precedes item) (l := rank precedes items),
      List.pairwise_append] at former
    obtain ⟨stays, passed, across⟩ := former
    refine List.pairwise_append.mpr ⟨stays, List.pairwise_cons.mpr ⟨?_, passed⟩, ?_⟩
    · intro other member
      exact .inr ⟨beforeItem other ((List.rtakeWhile_suffix _ _).mem member),
        List.mem_rtakeWhile_imp member⟩
    · intro other member lower isLower
      rcases List.mem_cons.mp isLower with rfl | wasPassed
      · exact .inl (beforeItem other ((List.rdropWhile_prefix _ _).mem member))
      · exact across other member lower wasPassed

/-! ## Which of two items stands first -/

def Before (ranked : List α) (first second : α) : Prop :=
  [first, second].Sublist ranked

instance [DecidableEq α] (ranked : List α) (first second : α) :
    Decidable (Before ranked first second) :=
  inferInstanceAs (Decidable ([first, second].Sublist ranked))

theorem before_iff_of_pairwise {related : α → α → Prop} {ranked : List α} :
    ranked.Pairwise related ↔ ∀ first second, Before ranked first second → related first second :=
  List.pairwise_iff_forall_sublist.trans
    ⟨fun all _ _ before => all before, fun all _ _ before => all _ _ before⟩

section Nodup

variable {ranked : List α} {first second : α}

theorem Before.mem_first (before : Before ranked first second) : first ∈ ranked :=
  before.subset List.mem_cons_self

theorem Before.mem_second (before : Before ranked first second) : second ∈ ranked :=
  before.subset (List.mem_cons_of_mem _ List.mem_cons_self)

theorem before_cons_iff {head : α} {tail : List α} :
    Before (head :: tail) first second ↔
      first = head ∧ second ∈ tail ∨ Before tail first second := by
  unfold Before
  rw [List.sublist_cons_iff]
  constructor
  · rintro (inTail | ⟨rest, isRest, inTail⟩)
    · exact .inr inTail
    · cases isRest
      exact .inl ⟨rfl, List.singleton_sublist.mp inTail⟩
  · rintro (⟨rfl, member⟩ | inTail)
    · exact .inr ⟨[second], rfl, List.singleton_sublist.mpr member⟩
    · exact .inl inTail

theorem before_append_iff {front back : List α} :
    Before (front ++ back) first second ↔
      Before front first second ∨ first ∈ front ∧ second ∈ back ∨ Before back first second := by
  induction front with
  | nil => simp [Before]
  | cons head tail ih =>
    rw [List.cons_append, before_cons_iff, ih, before_cons_iff,
      List.mem_append, List.mem_cons]
    grind

theorem before_or_before (different : first ≠ second) (isFirst : first ∈ ranked)
    (isSecond : second ∈ ranked) : Before ranked first second ∨ Before ranked second first := by
  induction ranked with
  | nil => cases isFirst
  | cons head tail ih =>
    rw [before_cons_iff, before_cons_iff]
    grind

theorem Before.asymm (nodup : ranked.Nodup) (before : Before ranked first second) :
    ¬ Before ranked second first := by
  induction ranked with
  | nil => cases before
  | cons head tail ih =>
    obtain ⟨isNew, nodup⟩ := List.nodup_cons.mp nodup
    rw [before_cons_iff] at before ⊢
    have inTail := @Before.mem_second _ tail second first
    have inTail' := @Before.mem_second _ tail first second
    grind

end Nodup

section Nodup

variable {items : List α} {item first second : α}

theorem rank_nodup (nodup : items.Nodup) : (rank precedes items).Nodup :=
  (rank_perm items).nodup_iff.mpr nodup

theorem before_snoc_iff (nodup : (items ++ [item]).Nodup) (listed : first ∈ items) :
    Before (rank precedes (items ++ [item])) item first ↔
      precedes item first = true ∧
        ∀ other, Before (rank precedes items) first other → precedes item other = true := by
  obtain ⟨nodupItems, -, isNew⟩ := List.nodup_append.mp nodup
  have nodupRanked : (rank precedes items).Nodup := rank_nodup nodupItems
  have isRanked : first ∈ rank precedes items := (rank_perm items).mem_iff.mpr listed
  have itemIsNew : item ∉ rank precedes items := fun member =>
    isNew item ((rank_perm items).mem_iff.mp member) item (List.mem_singleton_self _) rfl
  rw [rank_snoc]
  have all := List.rdropWhile_append_rtakeWhile (p := precedes item) (l := rank precedes items)
  have passes : ∀ other ∈ (rank precedes items).rtakeWhile (precedes item),
      precedes item other = true := fun other member => List.mem_rtakeWhile_imp member
  have stops := List.rdropWhile_last_not (precedes item) (rank precedes items)
  generalize (rank precedes items).rdropWhile (precedes item) = staying at all stops ⊢
  generalize (rank precedes items).rtakeWhile (precedes item) = passed at all passes ⊢
  rw [← all] at nodupRanked isRanked itemIsNew ⊢
  have apart := (List.nodup_append.mp nodupRanked).2.2
  rw [List.mem_append, not_or] at itemIsNew
  have behind : Before (staying ++ item :: passed) item first ↔ first ∈ passed := by
    rw [before_append_iff, before_cons_iff]
    have inStaying := @Before.mem_first _ staying item first
    have inPassed := @Before.mem_first _ passed item first
    grind
  rw [behind]
  constructor
  · intro wasPassed
    refine ⟨passes first wasPassed, fun other before => ?_⟩
    rw [before_append_iff] at before
    rcases before with inStaying | ⟨inStaying, -⟩ | inPassed
    · exact absurd rfl (apart first inStaying.mem_first first wasPassed)
    · exact absurd rfl (apart first inStaying first wasPassed)
    · exact passes other inPassed.mem_second
  · rintro ⟨precedesFirst, precedesBehind⟩
    refine (List.mem_append.mp isRanked).resolve_left fun stays => ?_
    -- The last item that stays stops the new one, so it cannot stand behind `first`.
    have nonempty := List.ne_nil_of_mem stays
    have stopped := stops nonempty
    rw [← List.dropLast_append_getLast nonempty, List.mem_append, List.mem_singleton] at stays
    rcases stays with above | isLast
    · refine stopped (precedesBehind _ ?_)
      rw [before_append_iff]
      refine .inl ?_
      nth_rewrite 1 [← List.dropLast_append_getLast nonempty]
      rw [before_append_iff]
      exact .inr (.inl ⟨above, List.mem_singleton_self _⟩)
    · rw [← isLast] at stopped
      exact stopped precedesFirst

theorem before_append_rank_iff (later : List α) (nodup : (items ++ later).Nodup)
    (isFirst : first ∈ items) (isSecond : second ∈ items) :
    Before (rank precedes (items ++ later)) first second ↔
      Before (rank precedes items) first second := by
  have kept : (rank precedes items).Sublist (rank precedes (items ++ later)) := by
    clear nodup
    induction later using List.reverseRecOn with
    | nil => rw [List.append_nil]
    | append_singleton later item ih =>
      rw [← List.append_assoc]
      exact ih.trans (rank_sublist_snoc _ _)
  refine ⟨fun before => ?_, fun before => before.trans kept⟩
  have different : first ≠ second := by
    rintro rfl
    exact before.asymm (rank_nodup nodup) before
  refine (before_or_before different ((rank_perm items).mem_iff.mpr isFirst)
    ((rank_perm items).mem_iff.mpr isSecond)).resolve_right fun reversed => ?_
  exact before.asymm (rank_nodup nodup) (reversed.trans kept)

theorem before_rank_iff {former later : List α} (nodup : (former ++ item :: later).Nodup)
    (listed : first ∈ former) :
    Before (rank precedes (former ++ item :: later)) item first ↔
      precedes item first = true ∧
        ∀ other ∈ former, Before (rank precedes (former ++ item :: later)) first other →
          precedes item other = true := by
  have split : former ++ item :: later = (former ++ [item]) ++ later := by simp
  rw [split] at nodup ⊢
  have nodupFormer := (List.nodup_append.mp nodup).1
  have isItem : item ∈ former ++ [item] := List.mem_append_right _ (List.mem_singleton_self _)
  have inFront : ∀ other ∈ former, other ∈ former ++ [item] := fun _ member =>
    List.mem_append_left _ member
  rw [before_append_rank_iff later nodup isItem (inFront first listed),
    before_snoc_iff nodupFormer listed]
  refine and_congr_right fun _ => ⟨fun all other member before => ?_, fun all other before => ?_⟩
  · rw [before_append_rank_iff later nodup (inFront first listed) (inFront other member),
      before_append_rank_iff [item] nodupFormer listed member] at before
    exact all other before
  · have member : other ∈ former := (rank_perm former).mem_iff.mp before.mem_second
    refine all other member ?_
    rwa [before_append_rank_iff later nodup (inFront first listed) (inFront other member),
      before_append_rank_iff [item] nodupFormer listed member]

end Nodup

end Highlighter.Ranking

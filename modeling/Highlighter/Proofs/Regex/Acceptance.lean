import Highlighter.Proofs.Regex.Joining

/-!
# Joined sources are read

Sources that are read alone, and as the only group of a pattern, are read when they are joined:
nothing in the sources in front of a source makes it unreadable.
-/
namespace Highlighter.Regex.Reading

open Pattern (moved groupsIn portable Token)

variable {expressions : List Expression} {expression : Expression} {others : List String}
  {ignoreCase : Bool} {first : String}

/-! ## Parentheses -/

theorem parentheses_eq_zero {chars : List Char} (isDigit : ∀ char ∈ chars, char.isDigit) :
    parentheses chars = 0 := by
  refine List.countP_eq_zero.mpr fun char member => ?_
  have isPlain := Pattern.Passes.isPlain_of_isDigit (isDigit char member)
  simp only [Pattern.isPlain, Bool.not_eq_true', List.contains_eq_mem, decide_eq_false_iff_not,
    List.mem_cons, List.not_mem_nil, or_false, not_or] at isPlain
  simp [isPlain]

theorem parentheses_le_copy (char : Char) (count : Nat) {rest copy : List Char}
    (less : parentheses (rest.drop count) ≤ parentheses copy) :
    parentheses (char :: rest) ≤ parentheses ((char :: rest.take count) ++ copy) := by
  have parts :
      parentheses (rest.take count) + parentheses (rest.drop count) = parentheses rest := by
    rw [← parentheses_append, List.take_append_drop]
  rw [parentheses_append, parentheses_cons, parentheses_cons]
  omega

theorem parentheses_le_scan (offset brackets skipped : Nat) (source : List Char) :
    parentheses (source.drop skipped) ≤
      parentheses ((Token.scan brackets skipped source).flatMap fun token =>
        (token.shift offset).text) := by
  fun_induction Token.scan brackets skipped source with
  | case1 => simp [parentheses]
  | case2 _ _ _ _ ih => simpa using ih
  | case3 => simp [Token.shift, Token.text]
  | case4 escaped rest isNumber digits ih =>
    -- The digits of the source are no parentheses, so that their copy may be anything.
    have inSource : parentheses digits = 0 :=
      parentheses_eq_zero fun char => List.all_eq_true.mp List.all_takeWhile char
    have isPart : digits = (escaped :: rest).take digits.length := by
      have parts := @List.takeWhile_append_dropWhile _ Char.isDigit (escaped :: rest)
      exact List.take_left.symm.trans (congrArg (List.take digits.length) parts)
    have parts : parentheses ((escaped :: rest).take digits.length) +
        parentheses ((escaped :: rest).drop digits.length) = parentheses (escaped :: rest) := by
      rw [← parentheses_append, List.take_append_drop]
    rw [← isPart, inSource, Nat.zero_add] at parts
    rw [List.flatMap_cons, parentheses_append, List.drop_zero, parentheses_cons, ← parts]
    exact Nat.le_trans ih (Nat.le_add_left _ _)
  | case5 escaped rest _ ih => exact parentheses_le_copy '\\' 1 ih
  | case6 rest leading _ ih =>
    exact parentheses_le_copy '[' leading ih
  | case7 rest capturing length _ _ _ ih =>
    exact parentheses_le_copy '(' length ih
  | case8 char rest _ _ _ ih => exact parentheses_le_copy char 0 ih
  | case9 _ rest ih => exact parentheses_le_copy '\\' 1 ih
  | case10 _ rest leading _ ih =>
    exact parentheses_le_copy '[' leading ih
  | case11 _ rest _ _ ih => exact parentheses_le_copy ']' 0 ih
  | case12 _ char rest _ _ _ ih =>
    exact parentheses_le_copy char 0 ih

theorem parentheses_le_length (chars : List Char) : parentheses chars ≤ chars.length :=
  List.countP_le_length

theorem ReadsAs.groups_le {depth : Nat} {source : List Char}
    (readsAs : ReadsAs depth ignoreCase source expression) :
    2 * expression.groups ≤ parentheses source := by
  obtain ⟨_, ⟨bound, first, second, start, middle, others, last, isStart, isOthers, isEnd, rfl⟩,
    rfl⟩ := readsAs
  have fewer := ((allRead first).branch depth [] (.refl _)).ensures isStart
  have less := ((allRead second).otherAlternatives depth [] (.refl _)).ensures isOthers
  have weight := (fewer.trans less).weight
  rw [isEnd] at weight
  simpa [initial, parentheses, Outline.expression] using weight

theorem length_le_bytes (chars : List Char) (start : Nat) :
    start + chars.length ≤ chars.foldl (fun bytes char => bytes + char.utf8Size) start := by
  induction chars generalizing start with
  | nil => simp
  | cons char chars ih =>
    have positive := char.utf8Size_pos
    have onward := ih (start + char.utf8Size)
    rw [List.foldl_cons, List.length_cons]
    omega

theorem parentheses_capture (before : Nat) (source : List Char) :
    2 + parentheses source ≤ parentheses (Pattern.capture before source) := by
  have isCopy : parentheses source ≤ parentheses (moved (before + 1) 0 source) :=
    parentheses_le_scan (before + 1) 0 0 source
  have closing : parentheses [')'] = 1 := rfl
  rw [Pattern.capture_eq, parentheses_append, parentheses_cons, if_pos (.inl rfl), closing]
  omega

theorem parentheses_texts {sources : List (List Char)}
    (pairs : ∀ source ∈ sources, 2 * groupsIn 0 source ≤ parentheses source) (before : Nat) :
    2 * Piece.width (sources.map .captured) ≤
      parentheses (Piece.texts before (sources.map .captured)).flatten := by
  induction sources generalizing before with
  | nil => simp [Piece.width]
  | cons source sources ih =>
    obtain ⟨isPair, arePairs⟩ := List.forall_mem_cons.mp pairs
    have onward := ih arePairs (before + (Piece.captured source).groups)
    have isGroup := parentheses_capture before source
    rw [List.map_cons, Piece.texts, List.flatten_cons, parentheses_append, Piece.width]
    simp only [Piece.captured] at onward ⊢
    omega

theorem parentheses_join (parts : List (List Char)) :
    parentheses (Text.join ['|'] parts) = parentheses parts.flatten := by
  cases parts with
  | nil => rfl
  | cons part parts =>
    rw [join_cons, parentheses_append, List.flatten_cons, parentheses_append]
    congr 1
    induction parts with
    | nil => rfl
    | cons part parts ih =>
      have noParenthesis : parentheses ['|'] = 0 := rfl
      rw [List.flatMap_cons, parentheses_append, parentheses_append, noParenthesis, Nat.zero_add,
        ih, List.flatten_cons, parentheses_append]

theorem width_lt_referenceBound (ignoreCase : Bool) {sources : List String}
    (pairs : ∀ source ∈ sources.map String.toList, 2 * groupsIn 0 source ≤ parentheses source) :
    Piece.width ((sources.map String.toList).map .captured) <
      referenceBound (pattern (Pattern.joinCapturing "|" sources) ignoreCase).toList := by
  have bytes := length_le_bytes (pattern (Pattern.joinCapturing "|" sources) ignoreCase).toList 0
  have flags : 4 + (Pattern.joinCapturing "|" sources).toList.length ≤
      (pattern (Pattern.joinCapturing "|" sources) ignoreCase).toList.length := by
    rw [pattern_toList]
    cases ignoreCase <;> simp <;> omega
  have isShort := parentheses_le_length (Pattern.joinCapturing "|" sources).toList
  have isWide := parentheses_texts pairs 0
  rw [← parentheses_join, ← joinCapturing_toList] at isWide
  rw [referenceBound]
  omega

/-! ## Joined sources -/

theorem read_join {joined : Expression}
    (reads : List.Forall₂ (fun source expression => Pattern.isPortable source ∧
      Expression.read (pattern source ignoreCase).toList = .ok expression) (first :: others)
      (expression :: expressions))
    (isJoined : Expression.read
      (pattern (Pattern.joinCapturing "|" (first :: others)) ignoreCase).toList = .ok joined) :
    joined = Expression.join expression expressions ∧
      (expression :: expressions).map Expression.groups =
        (first :: others).map Pattern.countGroups := by
  have reaches : Reaches (fun _ => True) 0 1 := ⟨Nat.zero_le 1, .inl trivial⟩
  have readEach : ReadEach 0 ignoreCase ((first :: others).map String.toList)
      (expression :: expressions) := by
    refine List.forall₂_map_left_iff.mpr (reads.imp ?_)
    exact fun _ _ reads => ⟨reads.1, readsAs_of_read reads.1 reads.2⟩
  rcases read_join_settles trivial reaches readEach (.inl trivial) with
    ⟨found, isFound, isJoin⟩ | ⟨cause, fails, -⟩
  · cases isJoined.symm.trans isFound
    exact isJoin
  · cases isJoined.symm.trans fails

structure IsAccepted (ignoreCase : Bool) (source : String) (expression : Expression) : Prop where
  isPortable : Pattern.isPortable source
  alone : Expression.read (pattern source ignoreCase).toList = .ok expression
  grouped : ∃ grouped,
    Expression.read (pattern (Pattern.joinCapturing "|" [source]) ignoreCase).toList = .ok grouped

namespace IsAccepted

variable {ignoreCase : Bool} {source : String} {expression : Expression}

theorem groups (accepted : IsAccepted ignoreCase source expression) :
    expression.groups = groupsIn 0 source.toList := by
  obtain ⟨grouped, isGrouped⟩ := accepted.grouped
  have counts := (read_join (.cons ⟨accepted.isPortable, accepted.alone⟩ .nil) isGrouped).2
  simpa [countGroups_eq] using counts

theorem readsAs (accepted : IsAccepted ignoreCase source expression) :
    ReadsAs 1 ignoreCase source.toList expression := by
  have readsAs := readsAs_of_read accepted.isPortable accepted.alone
  obtain ⟨grouped, isGrouped⟩ := accepted.grouped
  have isSource : (Pattern.joinCapturing "|" [source]).toList =
      Pattern.capture 0 source.toList ++ [] :=
    (joinCapturing_toList [source]).trans (join_cons _ _ _)
  have noComment := readsAs.afterBlanks_capture 0 []
  generalize Pattern.joinCapturing "|" [source] = joined at isGrouped isSource
  have deepens (fuel bound : Nat) : Ensures (alternatives fuel 0)
      { rest := (pattern joined ignoreCase).toList, referenceBound := bound } fun _ _ =>
        ReadsAs 1 ignoreCase source.toList expression := by
    have between : Between ignoreCase bound (Pattern.capture 0 source.toList ++ []) 0 []
        (initial ignoreCase joined.toList bound) :=
      ⟨isSource, rfl, rfl, rfl, rfl, rfl⟩
    refine alternatives_behindFlags trivial isSource (by rwa [isSource]) (fun fuel otherFuel => ?_)
      fuel
    refine ensures_iff.mpr fun first middle isFirst => ensures_iff.mpr fun _ _ _ =>
      ⟨.inr trivial, ?_⟩
    exact readsAs.deeper accepted.isPortable between (by simp [Ends]) isFirst
  obtain ⟨⟨node, state⟩, isNode, -⟩ := Success.bind_eq_ok.mp isGrouped
  exact (deepens _ _).ensures isNode

theorem pairs (accepted : IsAccepted ignoreCase source expression) :
    2 * groupsIn 0 source.toList ≤ parentheses source.toList := by
  rw [← accepted.groups]
  exact accepted.readsAs.groups_le

theorem pairs_of_mem {sources : List String}
    (accepted : List.Forall₂ (IsAccepted ignoreCase) sources expressions) :
    ∀ source ∈ sources.map String.toList, 2 * groupsIn 0 source ≤ parentheses source := by
  induction accepted with
  | nil => simp
  | cons isFirst _ ih =>
    rw [List.map_cons, List.forall_mem_cons]
    exact ⟨isFirst.pairs, ih⟩

end IsAccepted

theorem read_join_of_accepted
    (accepted : List.Forall₂ (IsAccepted ignoreCase) (first :: others) (expression :: expressions))
    (fits : Piece.width (((first :: others).map String.toList).map .captured) < Word.size 64) :
    Expression.read (pattern (Pattern.joinCapturing "|" (first :: others)) ignoreCase).toList =
      .ok (Expression.join expression expressions) := by
  have reaches : Reaches (Eq .unreadable) 1 1 := ⟨Nat.le_refl 1, .inr (Nat.le_refl 1)⟩
  have readEach : ReadEach 1 ignoreCase ((first :: others).map String.toList)
      (expression :: expressions) :=
    List.forall₂_map_left_iff.mpr
      (accepted.imp fun _ _ accepted => ⟨accepted.isPortable, accepted.readsAs⟩)
  have pairs := IsAccepted.pairs_of_mem accepted
  rcases read_join_settles rfl reaches readEach
    (.inr ⟨width_lt_referenceBound ignoreCase pairs, fits⟩) with
    ⟨joined, isJoined, rfl, -⟩ | ⟨cause, fails, rfl⟩
  · exact isJoined
  · exact absurd fails (Expression.read_ne_unreadable _)

end Highlighter.Regex.Reading

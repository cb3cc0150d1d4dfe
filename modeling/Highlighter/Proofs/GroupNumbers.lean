import Highlighter.Proofs.Regex.Mirroring
import Mathlib.Algebra.Ring.Nat
import Mathlib.Data.List.Induction

/-!
# The numbers of groups in joined sources

Sources are joined as text: each becomes a group, and the references in it are moved on.  The joined
source has the tokens of its parts, one part after the other.  So the groups of a part come right
behind the group that it has become, in their old order, and references find them as before.
-/
namespace Highlighter.Pattern

variable {digits rest : List Char} {number offset position : Nat} {token : Token}
  {tokens : List Token} {source separator : String}

/-! ## Sources that can be joined -/

/-- Whether a source ends outside of brackets, and not with a backslash that escapes nothing. -/
def isClosed : (brackets skipped : Nat) → List Char → Bool
  | brackets, _, [] => brackets == 0
  | brackets, skipped + 1, _ :: rest => isClosed brackets skipped rest
  | 0, 0, char :: rest =>
    if char = '\\' then !rest.isEmpty && isClosed 0 1 rest
    else if char = '[' then isClosed 1 (Token.leadingInBracket rest) rest
    else isClosed 0 0 rest
  | brackets + 1, 0, char :: rest =>
    if char = '\\' then isClosed (brackets + 1) 1 rest
    else if char = '[' then isClosed (brackets + 2) (Token.leadingInBracket rest) rest
    else if char = ']' then isClosed brackets 0 rest
    else isClosed (brackets + 1) 0 rest

/-- Whether a token refers to no group with a number beyond 63 bits.  A number beyond 64 bits is
read as 0. -/
def Token.isSmall : Token → Bool
  | .reference number => 0 < number && number < Word.size 63
  | _ => true

/-- Whether a source keeps its tokens when it becomes a group: it does not begin like the mark of
another kind of group, it ends outside of brackets and escapes, and its references are small. -/
def isJoinable (source : String) : Bool :=
  source.toList.head? != some '?' && isClosed 0 0 source.toList &&
    (Token.ofSource source.toList).all Token.isSmall

theorem isClosed_skip (brackets skipped : Nat) (source : List Char) :
    isClosed brackets skipped source = isClosed brackets 0 (source.drop skipped) := by
  induction source generalizing skipped with
  | nil => simp [isClosed]
  | cons char rest ih =>
    cases skipped with
    | zero => rfl
    | succ skipped => rw [isClosed, ih, List.drop_succ_cons]

theorem isClosed_plains {text rest : List Char} (isText : ∀ char ∈ text, isPlain char) :
    isClosed 0 0 (text ++ rest) = isClosed 0 0 rest := by
  induction text with
  | nil => rfl
  | cons char text ih =>
    obtain ⟨isChar, isText⟩ := List.forall_mem_cons.mp isText
    simp only [isPlain, Bool.not_eq_true', List.contains_eq_mem, decide_eq_false_iff_not,
      List.mem_cons, List.not_mem_nil, or_false, not_or] at isChar
    rw [List.cons_append, isClosed, if_neg isChar.1, if_neg isChar.2.1]
    exact ih isText

/-! ## Tokens of moved text -/

/-- What follows a parenthesis decides what it opens, and keeps its first characters when it is
moved, up to the parenthesis that closes the group around it. -/
theorem groupOpening_moved (offset : Nat) (rest tail : List Char) :
    Token.groupOpening (moved offset 0 rest ++ ')' :: tail) = Token.groupOpening rest := by
  have head (rest : List Char) : ∃ others, moved offset 0 rest ++ ')' :: tail =
      rest.head?.getD ')' :: others := by
    cases rest with
    | nil => exact ⟨tail, by simp⟩
    | cons char rest =>
      obtain ⟨others, isMoved⟩ := moved_cons offset 0 char rest
      exact ⟨others ++ ')' :: tail, by rw [isMoved]; rfl⟩
  have plain (char : Char) (rest : List Char) (isOutside : char ∉ ['\\', '[', '(']) :
      moved offset 0 (char :: rest) = char :: moved offset 0 rest :=
    (Passes.plain isOutside).text
  cases rest with
  | nil => simp [Token.groupOpening]
  | cons first rest =>
    by_cases isMark : first = '?'
    · subst isMark
      rw [plain _ _ (by simp), List.cons_append]
      cases rest with
      | nil => simp [Token.groupOpening]
      | cons second rest =>
        by_cases isNamed : second = 'P' ∨ second = '<'
        · have isOutside : second ∉ ['\\', '[', '('] := by
            rcases isNamed with rfl | rfl <;> simp
          rw [plain _ _ isOutside, List.cons_append]
          obtain ⟨others, isHead⟩ := head rest
          rw [isHead]
          cases rest with
          | nil => rcases isNamed with rfl | rfl <;> simp [Token.groupOpening]
          | cons third rest =>
            by_cases isMarked : third = '<' ∨ third = '=' ∨ third = '!'
            · rcases isNamed with rfl | rfl <;> rcases isMarked with rfl | rfl | rfl <;> rfl
            · rw [not_or, not_or] at isMarked
              rcases isNamed with rfl | rfl <;> simp [Token.groupOpening, isMarked]
        · rw [not_or] at isNamed
          obtain ⟨others, isHead⟩ := head (second :: rest)
          rw [isHead]
          simp [Token.groupOpening, isNamed]
    · obtain ⟨others, isHead⟩ := head (first :: rest)
      rw [isHead]
      simp [Token.groupOpening, isMark]

/-! ### References as digits -/

theorem digitChar_of_isDigit {char : Char} (isDigit : char.isDigit) :
    char.toNat - 48 < 10 ∧ Nat.digitChar (char.toNat - 48) = char := by
  have decoded : ∀ digit < 10, Nat.digitChar digit = Char.ofNat (digit + 48) := by decide
  have range : 48 ≤ char.toNat ∧ char.toNat ≤ 57 := by
    simp only [Char.isDigit, Bool.and_eq_true, decide_eq_true_eq, ge_iff_le,
      UInt32.le_iff_toNat_le] at isDigit
    exact isDigit
  have small : char.toNat - 48 < 10 := by omega
  refine ⟨small, ?_⟩
  rw [decoded _ small, Nat.sub_add_cancel range.1, Char.ofNat_toNat]

theorem toDigits_foldl (nonempty : digits ≠ []) (isDigit : ∀ char ∈ digits, char.isDigit)
    (noZero : digits.head? ≠ some '0') :
    0 < digits.foldl (fun value digit => 10 * value + (digit.toNat - 48)) 0 ∧
    Nat.toDigits 10 (digits.foldl (fun value digit => 10 * value + (digit.toNat - 48)) 0) =
      digits := by
  induction digits using List.reverseRecOn with
  | nil => exact absurd rfl nonempty
  | append_singleton digits last ih =>
    obtain ⟨small, isLast⟩ := digitChar_of_isDigit (isDigit last (by simp))
    rw [List.foldl_append, List.foldl_cons, List.foldl_nil]
    by_cases isEmpty : digits = []
    · subst isEmpty
      simp only [List.foldl_nil, Nat.mul_zero, Nat.zero_add, List.nil_append]
      rw [Nat.toDigits_of_lt_base small, isLast]
      refine ⟨Nat.pos_of_ne_zero fun isZero => noZero ?_, rfl⟩
      rw [isZero] at isLast
      rw [← isLast]
      rfl
    · rw [List.head?_append_of_ne_nil _ isEmpty] at noZero
      obtain ⟨positive, isValue⟩ := ih isEmpty
        (fun char member => isDigit char (by simp [member])) noZero
      refine ⟨by omega, ?_⟩
      rw [Nat.toDigits_of_base_le (by decide) (by omega), Nat.mul_add_div (by decide),
        Nat.div_eq_of_lt small, Nat.mul_add_mod, Nat.mod_eq_of_lt small, isLast, Nat.add_zero,
        isValue]

theorem toDigits_referenceNumber (nonempty : digits ≠ []) (isDigit : ∀ char ∈ digits, char.isDigit)
    (noZero : digits.head? ≠ some '0') (fits : 0 < Token.referenceNumber digits) :
    Nat.toDigits 10 (Token.referenceNumber digits) = digits := by
  rw [Token.referenceNumber] at fits ⊢
  split_ifs at fits ⊢ with small
  · exact (toDigits_foldl nonempty isDigit noZero).2
  · exact absurd fits (Nat.lt_irrefl 0)

theorem head?_toDigits_ne_zero (positive : 0 < number) :
    (Nat.toDigits 10 number).head? ≠ some '0' := by
  induction number using Nat.strongRecOn with
  | ind number ih =>
    by_cases small : number < 10
    · rw [Nat.toDigits_of_lt_base small]
      simpa using Nat.ne_of_gt positive
    · rw [Nat.toDigits_of_base_le (by decide) (by omega),
        List.head?_append_of_ne_nil _ Nat.toDigits_ne_nil]
      exact ih (number / 10) (by omega) (by omega)

/-- What a token is when it is spelled and read again: a number beyond 64 bits is read as 0. -/
def Token.reread : Token → Token
  | .reference number => .reference (if number < Word.size 64 then number else 0)
  | token => token

theorem scan_reference (positive : 0 < number) (stops : rest.takeWhile Char.isDigit = []) :
    Token.scan 0 0 ('\\' :: Nat.toDigits 10 number ++ rest) =
      Token.reread (.reference number) :: Token.scan 0 0 rest := by
  have isDigit : ∀ char ∈ Nat.toDigits 10 number, char.isDigit :=
    fun char => Nat.isDigit_of_mem_toDigits (by decide) (by decide)
  have digits : (Nat.toDigits 10 number ++ rest).takeWhile Char.isDigit =
      Nat.toDigits 10 number := by
    rw [List.takeWhile_append_of_pos isDigit, stops, List.append_nil]
  have behind : (Nat.toDigits 10 number ++ rest).dropWhile Char.isDigit = rest := by
    rw [← drop_length_takeWhile, digits, List.drop_left]
  have isNumber : Token.referenceNumber (Nat.toDigits 10 number) =
      if number < Word.size 64 then number else 0 := by
    rw [Token.referenceNumber, Regex.Reading.value_toDigits]
  have noZero := head?_toDigits_ne_zero positive
  obtain ⟨first, others, isFirst⟩ := List.exists_cons_of_ne_nil (@Nat.toDigits_ne_nil number 10)
  have isFirstDigit := isDigit first (by simp [isFirst])
  rw [isFirst] at digits behind isNumber noZero
  have starts : (first.isDigit && first != '0') = true := by
    simpa [isFirstDigit] using noZero
  rw [List.cons_append] at digits behind
  rw [isFirst, List.cons_append, List.cons_append, scan_number starts, digits, behind, isNumber]
  rfl

theorem takeWhile_moved_dropWhile (offset : Nat) (chars tail : List Char) :
    (moved offset 0 (chars.dropWhile Char.isDigit) ++ ')' :: tail).takeWhile Char.isDigit = [] := by
  have isHead := List.head?_dropWhile_not Char.isDigit chars
  cases isBehind : chars.dropWhile Char.isDigit with
  | nil => rfl
  | cons char behind =>
    rw [isBehind] at isHead
    obtain ⟨others, isMoved⟩ := moved_cons offset 0 char behind
    rw [isMoved, List.cons_append]
    exact List.takeWhile_cons_of_neg (Bool.eq_false_iff.mp isHead)

theorem leadingInBracket_append {copy : List Char}
    (goesOn : rest.drop (Token.leadingInBracket rest) ≠ [])
    (sameHead : copy.head? = (rest.drop (Token.leadingInBracket rest)).head?) :
    Token.leadingInBracket (rest.take (Token.leadingInBracket rest) ++ copy) =
      Token.leadingInBracket rest := by
  obtain ⟨char, behind, isBehind⟩ := List.exists_cons_of_ne_nil goesOn
  obtain ⟨others, rfl⟩ : ∃ others, copy = char :: others := by
    rw [isBehind] at sameHead
    exact List.head?_eq_some_iff.mp sameHead
  clear goesOn sameHead
  revert isBehind
  fun_cases Token.leadingInBracket rest <;> intro isBehind
  · rfl
  · rename_i rest noClosing
    obtain rfl : rest = char :: behind := isBehind
    have different : char ≠ ']' := fun same => noClosing behind (by rw [same])
    simp [Token.leadingInBracket, different]
  · rfl
  · rename_i noCaret noClosing
    obtain rfl : rest = char :: behind := isBehind
    have different : char ≠ '^' ∧ char ≠ ']' :=
      ⟨fun same => noCaret behind (by rw [same]), fun same => noClosing behind (by rw [same])⟩
    simp [Token.leadingInBracket, different]

theorem flatMap_text_scan (brackets skipped : Nat) (source : List Char)
    (fits : ∀ number, .reference number ∈ Token.scan brackets skipped source → 0 < number) :
    (Token.scan brackets skipped source).flatMap Token.text = source.drop skipped := by
  fun_induction Token.scan brackets skipped source with
  | case1 => simp
  | case2 _ _ _ _ ih => exact ih fits
  | case3 => rfl
  | case4 escaped rest isNumber digits ih =>
    rw [Bool.and_eq_true, bne_iff_ne] at isNumber
    have starts : digits = escaped :: rest.takeWhile Char.isDigit :=
      List.takeWhile_cons_of_pos isNumber.1
    have isDigits : Nat.toDigits 10 (Token.referenceNumber digits) = digits :=
      toDigits_referenceNumber (by simp [starts])
        (fun char => List.all_eq_true.mp List.all_takeWhile char)
        (by simpa [starts] using isNumber.2) (fits _ List.mem_cons_self)
    have parts : digits ++ (escaped :: rest).drop digits.length = escaped :: rest :=
      List.prefix_iff_eq_append.mp (List.takeWhile_prefix _)
    rw [List.flatMap_cons, Token.text, isDigits,
      ih fun number member => fits number (.tail _ member), List.cons_append, parts, List.drop_zero]
  | case5 _ _ _ ih | case6 _ _ _ ih
  | case7 _ _ _ _ _ _ ih | case8 _ _ _ _ _ ih
  | case10 _ _ _ _ ih | case11 _ _ _ _ ih
  | case12 _ _ _ _ _ _ ih =>
    rw [List.flatMap_cons, ih fun number member => fits number (.tail _ member)]
    simp [Token.text, *]
  | case9 brackets rest ih =>
    rw [List.flatMap_cons, ih fun number member => fits number (.tail _ member),
      Token.text, List.cons_append, List.take_append_drop, List.drop_zero]

theorem head?_moved (offset brackets : Nat) {source : List Char} (nonempty : source ≠ [])
    (tail : List Char) : (moved offset brackets source ++ tail).head? = source.head? := by
  obtain ⟨char, rest, rfl⟩ := List.exists_cons_of_ne_nil nonempty
  obtain ⟨others, isMoved⟩ := moved_cons offset brackets char rest
  rw [isMoved]
  rfl

theorem scan_leading {offset brackets : Nat} {rest tail : List Char}
    (closed : isClosed (brackets + 1) 0 (rest.drop (Token.leadingInBracket rest))) :
    Token.leadingInBracket (rest.take (Token.leadingInBracket rest) ++
        (moved offset (brackets + 1) (rest.drop (Token.leadingInBracket rest)) ++ tail)) =
      Token.leadingInBracket rest ∧
    (rest.take (Token.leadingInBracket rest)).length = Token.leadingInBracket rest := by
  have goesOn : rest.drop (Token.leadingInBracket rest) ≠ [] := by
    intro isEnd
    simp [isEnd, isClosed] at closed
  refine ⟨leadingInBracket_append goesOn (head?_moved _ _ goesOn tail), ?_⟩
  rw [ne_eq, List.drop_eq_nil_iff, Nat.not_le] at goesOn
  exact List.length_take_of_le (Nat.le_of_lt goesOn)

theorem length_take_groupOpening (rest : List Char) :
    (rest.take (Token.groupOpening rest).2).length = (Token.groupOpening rest).2 := by
  fun_cases Token.groupOpening rest <;> rfl

/-- One token of moved text, if it is read again as itself and what follows it is too. -/
theorem scan_moved_cons {brackets others : Nat} {source tail : List Char}
    (isScan : Token.scan brackets 0 source = token :: Token.scan others 0 rest)
    (again : Token.scan brackets 0
        ((token.shift offset).text ++ (moved offset others rest ++ tail)) =
      (token.shift offset).reread :: Token.scan others 0 (moved offset others rest ++ tail))
    (onward : Token.scan others 0 (moved offset others rest ++ tail) = tokens) :
    Token.scan brackets 0 (moved offset brackets source ++ tail) =
      (token.shift offset).reread :: tokens := by
  rw [moved, isScan, List.flatMap_cons, List.append_assoc, ← onward]
  exact again

theorem scan_moved (positive : 0 < offset) (tail : List Char) (brackets skipped : Nat)
    (source : List Char) (closed : isClosed brackets skipped source) :
    Token.scan brackets 0 (moved offset brackets (source.drop skipped) ++ ')' :: tail) =
      (Token.scan brackets skipped source).map (fun token => (token.shift offset).reread) ++
        Token.scan 0 0 (')' :: tail) := by
  fun_induction Token.scan brackets skipped source with
  | case1 brackets =>
    obtain rfl : brackets = 0 := by simpa [isClosed] using closed
    simp
  | case2 _ _ _ _ ih =>
    rw [isClosed] at closed
    exact ih closed
  | case3 => simp [isClosed] at closed
  | case4 escaped rest isNumber digits ih =>
    have isDigit : ∀ char ∈ digits, isPlain char := fun char member =>
      Passes.isPlain_of_isDigit (List.all_eq_true.mp List.all_takeWhile char member)
    have parts : digits ++ (escaped :: rest).dropWhile Char.isDigit = escaped :: rest :=
      List.takeWhile_append_dropWhile
    have dropped : (escaped :: rest).drop digits.length =
        (escaped :: rest).dropWhile Char.isDigit := drop_length_takeWhile _ _
    have isPlainEscaped : isPlain escaped :=
      Passes.isPlain_of_isDigit (Bool.and_eq_true_iff.mp isNumber).1
    rw [isClosed, if_pos rfl, Bool.and_eq_true, isClosed_skip] at closed
    have behind : isClosed 0 digits.length (escaped :: rest) := by
      have outside := closed.2
      rw [List.drop_one, List.tail_cons,
        ← @isClosed_plains [escaped] rest (by simpa using isPlainEscaped), List.singleton_append,
        ← parts, isClosed_plains isDigit] at outside
      rwa [isClosed_skip, dropped]
    have onward := ih behind
    rw [dropped] at onward
    exact scan_moved_cons (scan_number isNumber) (scan_reference (by omega)
      (takeWhile_moved_dropWhile _ _ _)) onward
  | case5 escaped rest noNumber ih =>
    rw [isClosed, if_pos rfl, Bool.and_eq_true] at closed
    exact scan_moved_cons (scan_escape noNumber) (scan_escape noNumber)
      (ih closed.2)
  | case6 rest leading _ ih =>
    rw [isClosed, if_neg (by decide), if_pos rfl] at closed
    have onward := ih closed
    rw [isClosed_skip] at closed
    obtain ⟨isLeading, length⟩ := @scan_leading offset 0 rest (')' :: tail) closed
    refine scan_moved_cons scan_bracket ?_ onward
    simp only [Token.shift, Token.text, Token.reread, List.cons_append]
    rw [scan_bracket, isLeading, List.take_left' length, List.drop_left' length]
  | case7 rest capturing length isOpening _ _ ih =>
    obtain rfl : (Token.groupOpening rest).2 = length := congrArg Prod.snd isOpening
    obtain rfl : (Token.groupOpening rest).1 = capturing := congrArg Prod.fst isOpening
    have belongs := isPlain_take_groupOpening rest
    have isText := (Passes.plains offset 0 _ (rest.drop (Token.groupOpening rest).2) belongs).text
    have outside : isClosed 0 (Token.groupOpening rest).2 rest := by
      rw [isClosed, if_neg (by decide), if_neg (by decide),
        ← List.take_append_drop (Token.groupOpening rest).2 rest,
        isClosed_plains belongs] at closed
      rwa [isClosed_skip]
    have onward := ih outside
    rw [List.take_append_drop] at isText
    rw [List.drop_zero, Passes.opening.text, List.singleton_append, List.cons_append,
      scan_opening, groupOpening_moved, isText, List.append_assoc,
      List.take_left' (length_take_groupOpening rest),
      List.drop_left' (length_take_groupOpening rest)]
    exact congrArg _ onward
  | case8 char rest noEscape noBracket noGroup ih =>
    rw [isClosed, if_neg noEscape, if_neg noBracket] at closed
    have isOutside : char ∉ ['\\', '[', '('] := by simp [noEscape, noBracket, noGroup]
    exact scan_moved_cons (scan_plain isOutside) (scan_plain isOutside) (ih closed)
  | case9 brackets rest ih =>
    rw [isClosed, if_pos rfl] at closed
    have onward := ih closed
    cases rest with
    | nil => simp [isClosed] at closed
    | cons escaped rest =>
      exact scan_moved_cons scan_innerEscape scan_innerEscape onward
  | case10 brackets rest leading _ ih =>
    rw [isClosed, if_neg (by decide), if_pos rfl] at closed
    have onward := ih closed
    rw [isClosed_skip] at closed
    obtain ⟨isLeading, length⟩ := @scan_leading offset (brackets + 1) rest (')' :: tail) closed
    refine scan_moved_cons scan_innerBracket ?_ onward
    simp only [Token.shift, Token.text, Token.reread, List.cons_append]
    rw [scan_innerBracket, isLeading, List.take_left' length, List.drop_left' length]
  | case11 brackets rest _ _ ih =>
    rw [isClosed, if_neg (by decide), if_neg (by decide), if_pos rfl] at closed
    exact scan_moved_cons scan_innerClose scan_innerClose (ih closed)
  | case12 brackets char rest noEscape noBracket noClosing ih =>
    rw [isClosed, if_neg noEscape, if_neg noBracket, if_neg noClosing] at closed
    have isInside : char ∉ ['\\', '[', ']'] := by simp [noEscape, noBracket, noClosing]
    exact scan_moved_cons (scan_inner isInside) (scan_inner isInside) (ih closed)

/-! ## Joined sources -/

/-- The number of the group that one of some joined sources becomes. -/
def wrapper (sources : List String) (index : Nat) : Nat :=
  index + 1 + ((sources.take index).map countGroups).sum

def enclosed (number : Nat) (source : String) : List Token :=
  .opening true ['('] ::
    ((Token.ofSource source.toList).map (Token.shift number) ++ [.verbatim [')']])

def enclosedText (number : Nat) (source : String) : List Char :=
  '(' :: moved number 0 source.toList ++ [')']

theorem wrapper_succ (source : String) (sources : List String) (index : Nat) :
    wrapper (source :: sources) (index + 1) = 1 + countGroups source + wrapper sources index := by
  simp only [wrapper, List.take_succ_cons, List.map_cons, List.sum_cons]
  omega

theorem wrapper_next {sources : List String} {index : Nat}
    (isSource : sources[index]? = some source) :
    wrapper sources (index + 1) = wrapper sources index + countGroups source + 1 := by
  simp only [wrapper, List.take_add_one, isSource, Option.toList_some, List.map_append,
    List.sum_append, List.map_singleton, List.sum_singleton]
  omega

theorem captureEach_eq (before : Nat) (sources : List String) :
    captureEach before (sources.map String.toList) =
      sources.mapIdx fun index source => enclosedText (before + wrapper sources index) source := by
  induction sources generalizing before with
  | nil => rfl
  | cons source sources ih =>
    rw [List.map_cons, captureEach, ih, List.mapIdx_cons]
    refine congrArg₂ _ (capture_eq before source.toList) ?_
    refine congrArg (sources.mapIdx ·) (funext fun index => ?_)
    rw [wrapper_succ, ← Nat.add_assoc, ← Nat.add_assoc]
    rfl

/-- Whether a source keeps its openings when it becomes a group: it does not begin like the mark of
another kind of group, and it ends outside of brackets and escapes. -/
def isSeparable (source : String) : Bool :=
  source.toList.head? != some '?' && isClosed 0 0 source.toList

theorem flatMap_text_of_isJoinable (joinable : isJoinable source) :
    (Token.ofSource source.toList).flatMap Token.text = source.toList := by
  simp only [isJoinable, Bool.and_eq_true, List.all_eq_true] at joinable
  refine flatMap_text_scan 0 0 source.toList fun number member => ?_
  have isSmall := joinable.2 _ member
  simp only [Token.isSmall, Bool.and_eq_true, decide_eq_true_eq] at isSmall
  exact isSmall.1

theorem scan_enclosedText (positive : 0 < number) (separable : isSeparable source)
    (tail : List Char) :
    Token.scan 0 0 (enclosedText number source ++ tail) =
      (enclosed number source).map Token.reread ++ Token.scan 0 0 tail := by
  rw [isSeparable, Bool.and_eq_true, bne_iff_ne] at separable
  obtain ⟨noMark, closed⟩ := separable
  have plainOpening : Token.groupOpening source.toList = (true, 0) := by
    cases isSource : source.toList with
    | nil => rfl
    | cons char rest =>
      rw [isSource, List.head?_cons, ne_eq, Option.some_inj] at noMark
      simp [Token.groupOpening, noMark]
  have isMoved := scan_moved positive tail 0 0 source.toList closed
  rw [List.drop_zero, @scan_plain tail ')' (by decide)] at isMoved
  rw [enclosedText, List.append_assoc, List.singleton_append, List.cons_append, scan_opening,
    groupOpening_moved, plainOpening, List.drop_zero, isMoved]
  simp [enclosed, Token.ofSource, Token.reread]

theorem scan_join (isSeparator : separator ∈ ["|", ""]) (pieces : List (Nat × String))
    (readable : ∀ piece ∈ pieces, 0 < piece.1 ∧ isSeparable piece.2) :
    Token.scan 0 0
        (Text.join separator.toList (pieces.map fun piece => enclosedText piece.1 piece.2)) =
      (Token.ofSource separator.toList).intercalate
        (pieces.map fun piece => (enclosed piece.1 piece.2).map Token.reread) := by
  have between (rest : List Char) : Token.scan 0 0 (separator.toList ++ rest) =
      Token.ofSource separator.toList ++ Token.scan 0 0 rest := by
    simp only [List.mem_cons, List.not_mem_nil, or_false] at isSeparator
    rcases isSeparator with rfl | rfl
    · exact scan_plain (by decide)
    · simp [Token.ofSource, Token.scan]
  induction pieces with
  | nil => rfl
  | cons piece pieces ih =>
    obtain ⟨⟨positive, separable⟩, others⟩ := List.forall_mem_cons.mp readable
    have onward := ih others
    cases pieces with
    | nil =>
      have alone := scan_enclosedText positive separable []
      simpa [Text.join, List.intercalate, Token.scan] using alone
    | cons next pieces =>
      simp only [List.map_cons] at onward ⊢
      rw [Text.join, List.append_assoc, scan_enclosedText positive separable, between,
        onward, List.intercalate_cons_cons, List.append_assoc]
      exact List.cons_ne_nil _ _

/-- The tokens of joined sources are those of the sources, each in a group and read again. -/
theorem ofSource_joined (isSeparator : separator ∈ ["|", ""]) {sources : List String}
    (separable : ∀ source ∈ sources, isSeparable source) :
    Token.ofSource (joinCapturing separator sources).toList =
      (Token.ofSource separator.toList).intercalate (sources.mapIdx fun index source =>
        (enclosed (wrapper sources index) source).map Token.reread) := by
  have read := scan_join isSeparator
    (sources.mapIdx fun index source => (wrapper sources index, source)) (by
      intro piece member
      obtain ⟨index, within, rfl⟩ := List.mem_mapIdx.mp member
      exact ⟨by simp only [wrapper]; omega, separable _ (List.getElem_mem within)⟩)
  simp only [List.mapIdx_eq_zipIdx_map, List.map_map, Function.comp_def] at read
  rw [joinCapturing, String.toList_ofList, captureEach_eq, Token.ofSource]
  simpa only [Nat.zero_add, List.mapIdx_eq_zipIdx_map] using read

/-! ## Groups and references by their places -/

def groupAt? (tokens : List Token) (position : Nat) : Option Nat :=
  if tokens[position]?.any Token.isCapturing then
    some ((tokens.take position).countP Token.isCapturing + 1)
  else none

/-- The place of the opening of the group that a reference stands for. -/
def referent? (tokens : List Token) (position : Nat) : Option Nat :=
  match tokens[position]? with
  | some (.reference number) =>
    (List.range tokens.length).find? fun place => groupAt? tokens place = some number
  | _ => none

theorem lt_length_of_groupAt? (opens : groupAt? tokens position = some number) :
    position < tokens.length := by
  by_contra beyond
  simp [groupAt?, List.getElem?_eq_none (Nat.not_lt.mp beyond)] at opens

theorem groupAt?_append_left (within : position < tokens.length) (others : List Token) :
    groupAt? (tokens ++ others) position = groupAt? tokens position := by
  rw [groupAt?, groupAt?, List.getElem?_append_left within,
    List.take_append_of_le_length (Nat.le_of_lt within)]

theorem groupAt?_append_right (front tokens : List Token) (position : Nat) :
    groupAt? (front ++ tokens) (front.length + position) =
      (groupAt? tokens position).map (· + front.countP Token.isCapturing) := by
  rw [groupAt?, groupAt?, List.getElem?_append_right (Nat.le_add_right _ _),
    List.take_length_add_append, List.countP_append, Nat.add_sub_cancel_left]
  split_ifs
  · exact congrArg some (by dsimp only; omega)
  · rfl

theorem isCapturing_shift (offset : Nat) (token : Token) :
    (token.shift offset).isCapturing = token.isCapturing := by
  cases token <;> rfl

theorem isCapturing_reread (token : Token) : token.reread.isCapturing = token.isCapturing := by
  cases token <;> rfl

section Change

variable {change : Token → Token}
  (same : ∀ token, (change token).isCapturing = token.isCapturing)

include same

theorem countP_change (tokens : List Token) :
    (tokens.map change).countP Token.isCapturing = tokens.countP Token.isCapturing := by
  rw [List.countP_map]
  exact List.countP_congr fun token _ => by rw [Function.comp_apply, same]

theorem groupAt?_change (tokens : List Token) (position : Nat) :
    groupAt? (tokens.map change) position = groupAt? tokens position := by
  rw [groupAt?, groupAt?, ← List.map_take, countP_change same, List.getElem?_map]
  cases tokens[position]? <;> simp [same]

end Change

theorem countP_take_of_groupAt? (opens : groupAt? tokens position = some number) :
    (tokens.take (position + 1)).countP Token.isCapturing = number := by
  rw [groupAt?, Option.ite_none_right_eq_some, Option.some_inj] at opens
  obtain ⟨capturing, rfl⟩ := opens
  obtain ⟨token, isToken, captures⟩ := (Option.any_eq_true _ _).mp capturing
  rw [List.take_add_one, isToken, Option.toList_some, List.countP_append, List.countP_singleton,
    if_pos captures]

theorem groupAt?_lt {first second other : Nat} (before : first < second)
    (isFirst : groupAt? tokens first = some number)
    (isSecond : groupAt? tokens second = some other) : number < other := by
  have counted : ((tokens.take (first + 1)).countP Token.isCapturing) ≤
      (tokens.take second).countP Token.isCapturing :=
    (List.take_sublist_take_left (by omega)).countP_le
  rw [countP_take_of_groupAt? isFirst] at counted
  rw [groupAt?, Option.ite_none_right_eq_some, Option.some_inj] at isSecond
  omega

theorem referent?_eq_some_iff {place : Nat} :
    referent? tokens position = some place ↔
      ∃ number, tokens[position]? = some (.reference number) ∧
        groupAt? tokens place = some number := by
  rw [referent?]
  split
  · rename_i number isReference
    simp only [List.find?_range_eq_some, decide_eq_true_eq, List.mem_range, Bool.not_eq_true',
      decide_eq_false_iff_not, Option.some_inj, Token.reference.injEq, exists_eq_left', isReference]
    refine ⟨And.left, fun opens => ⟨opens, ?_, fun earlier before isEarlier => ?_⟩⟩
    · exact lt_length_of_groupAt? opens
    · exact Nat.lt_irrefl _ (groupAt?_lt before isEarlier opens)
  · rename_i noReference
    simp only [reduceCtorEq, false_iff, not_exists, not_and]
    exact fun number isReference => (noReference number isReference).elim

theorem length_enclosed (number : Nat) (source : String) :
    (enclosed number source).length = (Token.ofSource source.toList).length + 2 := by
  simp [enclosed]

theorem countP_enclosed (number : Nat) (source : String) :
    (enclosed number source).countP Token.isCapturing = 1 + countGroups source := by
  rw [enclosed, List.countP_cons_of_pos rfl, List.countP_append,
    countP_change (isCapturing_shift number), Nat.add_comm]
  rfl

/-- How many tokens stand in front of one of some sources that are joined as groups. -/
def tokensBefore (separator : List Token) (sources : List String) (index : Nat) : Nat :=
  ((sources.take index).map fun source =>
    (Token.ofSource source.toList).length + 2 + separator.length).sum

theorem exists_front {separator : List Token} (plain : separator.countP Token.isCapturing = 0)
    {piece : Nat → String → List Token}
    (sized : ∀ index source,
      (piece index source).length = (Token.ofSource source.toList).length + 2)
    (counted : ∀ index source,
      (piece index source).countP Token.isCapturing = 1 + countGroups source)
    (sources : List String) {index : Nat} (isSource : sources[index]? = some source) :
    ∃ front back,
      separator.intercalate (sources.mapIdx piece) = front ++ (piece index source ++ back) ∧
      front.length = tokensBefore separator sources index ∧
      front.countP Token.isCapturing + 1 = wrapper sources index := by
  induction sources generalizing index piece with
  | nil => simp at isSource
  | cons first sources ih =>
    rw [List.mapIdx_cons]
    cases index with
    | zero =>
      obtain rfl : first = source := by simpa using isSource
      cases isMapped : sources.mapIdx fun index => piece (index + 1) with
      | nil => exact ⟨[], [], by simp [List.intercalate], rfl, rfl⟩
      | cons next others =>
        exact ⟨[], separator ++ separator.intercalate (next :: others),
          by rw [List.intercalate_cons_cons, List.append_assoc]; rfl, rfl, rfl⟩
    | succ index =>
      obtain ⟨front, back, isJoined, isLength, isNumber⟩ :=
        @ih (fun index => piece (index + 1)) (fun index => sized (index + 1))
          (fun index => counted (index + 1)) index (by simpa using isSource)
      cases isMapped : sources.mapIdx fun index => piece (index + 1) with
      | nil =>
        rw [List.mapIdx_eq_nil_iff] at isMapped
        simp [isMapped] at isSource
      | cons next others =>
        rw [isMapped] at isJoined
        refine ⟨piece 0 first ++ (separator ++ front), back, ?_, ?_, ?_⟩
        · rw [List.intercalate_cons_cons, isJoined]
          simp only [List.append_assoc]
        · rw [List.length_append, List.length_append, sized, isLength, ← Nat.add_assoc]
          rfl
        · rw [List.countP_append, List.countP_append, counted, plain, wrapper_succ, ← isNumber]
          omega

theorem countP_separator (isSeparator : separator ∈ ["|", ""]) :
    (Token.ofSource separator.toList).countP Token.isCapturing = 0 := by
  simp only [List.mem_cons, List.not_mem_nil, or_false] at isSeparator
  rcases isSeparator with rfl | rfl <;> decide

/-- Where a source stands among the tokens that joined sources have when they are read. -/
theorem exists_front_joined (isSeparator : separator ∈ ["|", ""]) {sources : List String}
    (separable : ∀ source ∈ sources, isSeparable source) {index : Nat}
    (isSource : sources[index]? = some source) :
    ∃ front back, Token.ofSource (joinCapturing separator sources).toList =
        front ++ ((enclosed (wrapper sources index) source).map Token.reread ++ back) ∧
      front.length = tokensBefore (Token.ofSource separator.toList) sources index ∧
      front.countP Token.isCapturing + 1 = wrapper sources index := by
  rw [ofSource_joined isSeparator separable]
  refine exists_front (countP_separator isSeparator) (fun index source => ?_)
    (fun index source => ?_) sources isSource
  · rw [List.length_map, length_enclosed]
  · rw [countP_change isCapturing_reread, countP_enclosed]

theorem countP_scan_le (brackets skipped : Nat) (source : List Char) :
    (Token.scan brackets skipped source).countP Token.isCapturing ≤ source.length := by
  have step (token : Token) (char : Char) {tokens : List Token} {rest : List Char}
      (fewer : tokens.countP Token.isCapturing ≤ rest.length) :
      (token :: tokens).countP Token.isCapturing ≤ (char :: rest).length := by
    rw [List.countP_cons, List.length_cons]
    split <;> omega
  fun_induction Token.scan brackets skipped source with
  | case1 => exact Nat.le_refl 0
  | case2 _ _ _ _ ih => exact Nat.le_succ_of_le ih
  | case3 => exact step _ _ (Nat.le_refl 0)
  | case4 _ _ _ _ ih | case5 _ _ _ ih | case6 _ _ _ ih | case7 _ _ _ _ _ _ ih
  | case8 _ _ _ _ _ ih | case9 _ _ ih | case10 _ _ _ _ ih | case11 _ _ _ _ ih
  | case12 _ _ _ _ _ _ ih => exact step _ _ ih

theorem wrapper_le_length (isSeparator : separator ∈ ["|", ""]) {sources : List String}
    (separable : ∀ source ∈ sources, isSeparable source) {index : Nat}
    (isSource : sources[index]? = some source) :
    wrapper sources index ≤ (joinCapturing separator sources).length := by
  obtain ⟨front, back, isJoined, -, isNumber⟩ :=
    exists_front_joined isSeparator separable isSource
  have counted := countP_scan_le 0 0 (joinCapturing separator sources).toList
  rw [← Token.ofSource, isJoined, List.countP_append, List.countP_append,
    countP_change isCapturing_reread, countP_enclosed, String.length_toList] at counted
  omega

theorem reread_enclosed (joinable : isJoinable source) (small : number ≤ Word.size 63) :
    (enclosed number source).map Token.reread = enclosed number source := by
  have allSmall := List.all_eq_true.mp (Bool.and_eq_true_iff.mp joinable).2
  have inside : ((Token.ofSource source.toList).map (Token.shift number)).map Token.reread =
      (Token.ofSource source.toList).map (Token.shift number) := by
    rw [List.map_map]
    refine List.map_congr_left fun token member => ?_
    have isSmall := allSmall token member
    cases token with
    | reference reference =>
      simp only [Token.isSmall, Bool.and_eq_true, decide_eq_true_eq] at isSmall
      have double : Word.size 64 = 2 * Word.size 63 := rfl
      exact congrArg Token.reference (if_pos (by omega))
    | opening capturing text => rfl
    | verbatim text => rfl
  rw [enclosed, List.map_cons, List.map_append, inside]
  rfl

theorem ofSource_joinCapturing (isSeparator : separator ∈ ["|", ""]) {sources : List String}
    (joinable : ∀ source ∈ sources, isJoinable source)
    (fits : (joinCapturing separator sources).length < Word.size 63) :
    Token.ofSource (joinCapturing separator sources).toList =
      (Token.ofSource separator.toList).intercalate
        (sources.mapIdx fun index source => enclosed (wrapper sources index) source) := by
  have separable : ∀ source ∈ sources, isSeparable source := fun source member =>
    (Bool.and_eq_true_iff.mp (joinable source member)).1
  rw [ofSource_joined isSeparator separable]
  refine congrArg _ (List.mapIdx_eq_mapIdx_iff.mpr fun index within => ?_)
  refine reread_enclosed (joinable _ (List.getElem_mem within)) ?_
  exact Nat.le_of_lt (Nat.lt_of_le_of_lt
    (wrapper_le_length isSeparator separable (List.getElem?_eq_getElem within)) fits)

/-- Where a source stands among the tokens of a longer one, in the group that it has become. -/
structure StandsAt (tokens : List Token) (start number : Nat) (source : String) : Prop where
  wrapper : groupAt? tokens start = some number
  groups : ∀ position < (Token.ofSource source.toList).length,
    groupAt? tokens (start + 1 + position) =
      (groupAt? (Token.ofSource source.toList) position).map (number + ·)
  references : ∀ position target,
    referent? (Token.ofSource source.toList) position = some target →
      referent? tokens (start + 1 + position) = some (start + 1 + target)

/-- The groups of a source in a group are numbered onwards from that. -/
theorem groupAt?_enclosed (front inner back : List Token)
    (isNumber : front.countP Token.isCapturing + 1 = number) :
    groupAt? (front ++ .opening true ['('] :: (inner ++ back)) front.length = some number ∧
      ∀ position < inner.length,
        groupAt? (front ++ .opening true ['('] :: (inner ++ back)) (front.length + 1 + position) =
          (groupAt? inner position).map (number + ·) := by
  constructor
  · rw [← Nat.add_zero front.length, groupAt?_append_right]
    exact congrArg some ((Nat.add_comm _ _).trans isNumber)
  · intro position within
    have inside : groupAt? (.opening true ['('] :: (inner ++ back)) (1 + position) =
        (groupAt? inner position).map (· + 1) := by
      rw [← groupAt?_append_left within back]
      exact groupAt?_append_right [.opening true ['(']] _ position
    rw [Nat.add_assoc, groupAt?_append_right, inside, Option.map_map]
    exact congrArg (Option.map · _) (funext fun group => by simp only [Function.comp]; omega)

theorem standsAt_enclosed (front back : List Token) (source : String)
    (isNumber : front.countP Token.isCapturing + 1 = number) :
    StandsAt (front ++ (enclosed number source ++ back)) front.length number source := by
  rw [enclosed, List.cons_append, List.append_assoc]
  obtain ⟨isWrapper, groups⟩ := groupAt?_enclosed front
    ((Token.ofSource source.toList).map (Token.shift number)) ([.verbatim [')']] ++ back) isNumber
  simp only [List.length_map, groupAt?_change (isCapturing_shift number)] at groups
  refine ⟨isWrapper, groups, fun position target isReferent => ?_⟩
  obtain ⟨reference, isReference, opens⟩ := referent?_eq_some_iff.mp isReferent
  refine referent?_eq_some_iff.mpr ⟨reference + number, ?_, ?_⟩
  · have within := (List.getElem?_eq_some_iff.mp isReference).1
    rw [Nat.add_assoc, List.getElem?_append_right (Nat.le_add_right _ _), Nat.add_sub_cancel_left,
      Nat.add_comm 1, List.getElem?_cons_succ, List.getElem?_append_left (by simpa using within),
      List.getElem?_map, isReference]
    rfl
  · rw [groups target (lt_length_of_groupAt? opens), opens, Option.map_some, Nat.add_comm]

/-- Joined sources keep their groups and references.  The tokens of the joined source are those of
the sources, which spell them, each in a group and with its references moved on by the number of
that group.  So the groups of a source are numbered onwards from its own, and a reference finds
the group that it found before. -/
theorem joinCapturing_keeps_groups {separator : String} (isSeparator : separator ∈ ["|", ""])
    {sources : List String} (joinable : ∀ source ∈ sources, isJoinable source)
    (fits : (joinCapturing separator sources).length < Word.size 63) :
    Token.ofSource (joinCapturing separator sources).toList =
        (Token.ofSource separator.toList).intercalate
          (sources.mapIdx fun index source => enclosed (wrapper sources index) source) ∧
      ∀ index source, sources[index]? = some source →
        (Token.ofSource source.toList).flatMap Token.text = source.toList ∧
          ∃ start, StandsAt (Token.ofSource (joinCapturing separator sources).toList) start
            (wrapper sources index) source := by
  have tokens := ofSource_joinCapturing isSeparator joinable fits
  refine ⟨tokens, fun index source isSource => ⟨flatMap_text_of_isJoinable
    (joinable source (List.mem_of_getElem? isSource)), ?_⟩⟩
  obtain ⟨front, back, isJoined, -, isNumber⟩ := exists_front (countP_separator isSeparator)
    (fun index source => length_enclosed (wrapper sources index) source)
    (fun index source => countP_enclosed (wrapper sources index) source) sources isSource
  rw [tokens, isJoined]
  exact ⟨front.length, standsAt_enclosed front back source isNumber⟩

/-- Two sources that each refer to a group of their own, behind brackets and another opening. -/
theorem joinCapturing_keeps_groups_pair :
    Token.ofSource (joinCapturing "|" ["([)(]a)\\1", "(?:b)(c)(\\1)"]).toList =
        (Token.ofSource "|".toList).intercalate
          (["([)(]a)\\1", "(?:b)(c)(\\1)"].mapIdx fun index source =>
            enclosed (wrapper ["([)(]a)\\1", "(?:b)(c)(\\1)"] index) source) ∧
      ∃ start, StandsAt
        (Token.ofSource (joinCapturing "|" ["([)(]a)\\1", "(?:b)(c)(\\1)"]).toList) start 3
        "(?:b)(c)(\\1)" := by
  have kept := @joinCapturing_keeps_groups "|" (by decide) ["([)(]a)\\1", "(?:b)(c)(\\1)"]
    (by decide +kernel) (by decide +kernel)
  exact ⟨kept.1, (kept.2 1 _ rfl).2⟩

end Highlighter.Pattern

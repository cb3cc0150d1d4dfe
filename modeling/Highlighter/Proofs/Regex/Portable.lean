import Highlighter.Pattern.Source
import Mathlib.Data.List.Basic

/-!
# Sources that can be moved

A source becomes a group of a longer pattern as text: its tokens are copied, and references moved
on.  The copy means what the source meant if tokens and syntax agree on where brackets and groups
begin and end, and if nothing in the source names a group or sets a flag for what follows.
-/
namespace Highlighter.Pattern

/-! ## Portable sources -/

/-- Characters that escape nothing, and neither open nor close anything. -/
def isPlain (char : Char) : Bool :=
  !(['\\', '[', ']', '(', ')'].contains char)

/-- The letters of the flags that change nothing but the meaning of characters, and the
hyphen that clears what follows it. -/
def isFlagLetter (char : Char) : Bool :=
  ['i', 'm', 's', 'U', 'u', '-'].contains char

def hasPlainProperty : List Char → Bool
  | '\x7b' :: inside => (inside.takeWhile fun char => char != '\x7d').all isPlain
  | chars => (chars.take 1).all isPlain

/-- Whether what stands behind a backslash is no reference, or one by a number that is written
without a leading zero. -/
def hasPortableEscape : List Char → Bool
  | 'k' :: _ => false
  | '0' :: chars => !(chars.take 1).any Char.isDigit
  | 'p' :: chars => hasPlainProperty chars
  | 'P' :: chars => hasPlainProperty chars
  | _ => true

/-- Whether what stands behind a backslash inside brackets is no property with a name that
is not plain. -/
def hasPortableInnerEscape : List Char → Bool
  | 'p' :: chars => hasPlainProperty chars
  | 'P' :: chars => hasPlainProperty chars
  | _ => true

/-- Whether a parenthesis opens a group without a name, a look-around, an atomic group, or a
group with flags of its own. -/
def hasPortableOpening : List Char → Bool
  | '?' :: '=' :: _ => true
  | '?' :: '!' :: _ => true
  | '?' :: '>' :: _ => true
  | '?' :: '<' :: '=' :: _ => true
  | '?' :: '<' :: '!' :: _ => true
  | '?' :: chars => (chars.dropWhile isFlagLetter).head? == some ':'
  | _ => true

/-- Whether a closing bracket comes first in a bracket expression. -/
def startsClosed : List Char → Bool
  | '^' :: ']' :: _ => true
  | ']' :: _ => true
  | _ => false

/-- Whether a source can be moved, read in the steps that its tokens are read in. -/
def portable : (brackets skipped : Nat) → List Char → Bool
  | _, _, [] => true
  | brackets, skipped + 1, _ :: rest => portable brackets skipped rest
  | 0, 0, char :: rest =>
    if char = '\\' then hasPortableEscape rest && portable 0 1 rest
    else if char = '[' then portable 1 (Token.leadingInBracket rest) rest
    else if char = '(' then hasPortableOpening rest && portable 0 0 rest
    else portable 0 0 rest
  | brackets + 1, 0, char :: rest =>
    if char = '\\' then hasPortableInnerEscape rest && portable (brackets + 1) 1 rest
    else if char = '[' then !startsClosed rest && portable (brackets + 2) 0 rest
    else if char = ']' then portable brackets 0 rest
    else portable (brackets + 1) 0 rest

def isPortable (source : String) : Bool :=
  portable 0 0 source.toList

/-! ## Moved text -/

/-- The text of a source, from inside a number of brackets on, with its references moved on. -/
def moved (offset brackets : Nat) (source : List Char) : List Char :=
  (Token.scan brackets 0 source).flatMap fun token => (token.shift offset).text

def groupsIn (brackets : Nat) (source : List Char) : Nat :=
  (Token.scan brackets 0 source).countP Token.isCapturing

theorem capture_eq (before : Nat) (source : List Char) :
    capture before source = '(' :: moved (before + 1) 0 source ++ [')'] :=
  rfl

@[simp]
theorem moved_nil (offset brackets : Nat) : moved offset brackets [] = [] :=
  rfl

@[simp]
theorem groupsIn_nil (brackets : Nat) : groupsIn brackets [] = 0 :=
  rfl

theorem scan_skip (brackets skipped : Nat) (source : List Char) :
    Token.scan brackets skipped source = Token.scan brackets 0 (source.drop skipped) := by
  induction source generalizing skipped with
  | nil =>
    rw [List.drop_nil]
    rfl
  | cons char rest ih =>
    cases skipped with
    | zero => rfl
    | succ skipped => exact ih skipped

theorem portable_skip (brackets skipped : Nat) (source : List Char) :
    portable brackets skipped source = portable brackets 0 (source.drop skipped) := by
  induction source generalizing skipped with
  | nil =>
    rw [List.drop_nil]
    rfl
  | cons char rest ih =>
    cases skipped with
    | zero => rfl
    | succ skipped => exact ih skipped

theorem moved_cons (offset brackets : Nat) (char : Char) (rest : List Char) :
    ∃ others, moved offset brackets (char :: rest) = char :: others := by
  have starts : ∀ brackets, ∃ token tokens others,
      Token.scan brackets 0 (char :: rest) = token :: tokens ∧
        (token.shift offset).text = char :: others := by
    intro brackets
    cases brackets <;> simp only [Token.scan] <;> split_ifs <;> try split <;> try split_ifs
    all_goals exact ⟨_, _, _, rfl, by simp [Token.shift, Token.text, *]; rfl⟩
  obtain ⟨token, tokens, others, isScan, isText⟩ := starts brackets
  exact ⟨_, by rw [moved, isScan, List.flatMap_cons, isText, List.cons_append]⟩

/-! ## One token after another -/

section Scan

variable {rest : List Char} {brackets : Nat} {escaped : Char}

theorem scan_plain {char : Char} (isOutside : char ∉ ['\\', '[', '(']) :
    Token.scan 0 0 (char :: rest) = .verbatim [char] :: Token.scan 0 0 rest := by
  simp only [List.mem_cons, List.not_mem_nil, or_false, not_or] at isOutside
  exact (if_neg isOutside.1).trans ((if_neg isOutside.2.1).trans (if_neg isOutside.2.2))

theorem scan_escape (noNumber : ¬ (escaped.isDigit && escaped != '0') = true) :
    Token.scan 0 0 ('\\' :: escaped :: rest) =
      .verbatim ['\\', escaped] :: Token.scan 0 0 rest :=
  if_neg noNumber

theorem scan_bracket :
    Token.scan 0 0 ('[' :: rest) =
      .verbatim ('[' :: rest.take (Token.leadingInBracket rest)) ::
        Token.scan 1 0 (rest.drop (Token.leadingInBracket rest)) := by
  rw [← scan_skip]
  rfl

theorem scan_opening :
    Token.scan 0 0 ('(' :: rest) =
      .opening (Token.groupOpening rest).1 ('(' :: rest.take (Token.groupOpening rest).2) ::
        Token.scan 0 0 (rest.drop (Token.groupOpening rest).2) := by
  rw [← scan_skip]
  rfl

theorem scan_inner {char : Char} (isInside : char ∉ ['\\', '[', ']']) :
    Token.scan (brackets + 1) 0 (char :: rest) =
      .verbatim [char] :: Token.scan (brackets + 1) 0 rest := by
  simp only [List.mem_cons, List.not_mem_nil, or_false, not_or] at isInside
  exact (if_neg isInside.1).trans ((if_neg isInside.2.1).trans (if_neg isInside.2.2))

theorem scan_innerEscape :
    Token.scan (brackets + 1) 0 ('\\' :: rest) =
      .verbatim ('\\' :: rest.take 1) :: Token.scan (brackets + 1) 0 (rest.drop 1) := by
  rw [← scan_skip]
  rfl

theorem scan_innerBracket :
    Token.scan (brackets + 1) 0 ('[' :: rest) =
      .verbatim ('[' :: rest.take (Token.leadingInBracket rest)) ::
        Token.scan (brackets + 2) 0 (rest.drop (Token.leadingInBracket rest)) := by
  rw [← scan_skip]
  rfl

theorem scan_innerClose :
    Token.scan (brackets + 1) 0 (']' :: rest) = .verbatim [']'] :: Token.scan brackets 0 rest :=
  rfl

theorem drop_length_takeWhile (kind : Char → Bool) (chars : List Char) :
    chars.drop (chars.takeWhile kind).length = chars.dropWhile kind := by
  have parts := @List.takeWhile_append_dropWhile _ kind chars
  exact (congrArg (List.drop _) parts).symm.trans List.drop_left

theorem scan_number (isNumber : escaped.isDigit && escaped != '0') :
    Token.scan 0 0 ('\\' :: escaped :: rest) =
      .reference (Token.referenceNumber ((escaped :: rest).takeWhile Char.isDigit)) ::
        Token.scan 0 0 ((escaped :: rest).dropWhile Char.isDigit) := by
  rw [← drop_length_takeWhile, ← scan_skip]
  exact if_pos isNumber

end Scan

/-! ## Passing a part of a source -/

theorem isPlain_take_groupOpening (rest : List Char) :
    ∀ char ∈ rest.take (Token.groupOpening rest).2, isPlain char := by
  fun_cases Token.groupOpening rest <;> simp [isPlain]

/-- Behind a part of a source, in which some groups are opened and which reads `text` when it
is moved, the source goes on inside another number of brackets. -/
structure Passes (offset brackets : Nat) (source text : List Char) (groups others : Nat)
    (rest : List Char) : Prop where
  text : moved offset brackets source = text ++ moved offset others rest
  groups : groupsIn brackets source = groups + groupsIn others rest
  portable : portable brackets 0 source → portable others 0 rest

namespace Passes

variable {offset brackets others : Nat} {source rest : List Char} {token : Token}
  {char escaped : Char}

theorem ofToken (isScan : Token.scan brackets 0 source = token :: Token.scan others 0 rest)
    (isPortable : Pattern.portable brackets 0 source → Pattern.portable others 0 rest) :
    Passes offset brackets source (token.shift offset).text token.isCapturing.toNat others
      rest where
  text := by rw [moved, isScan, List.flatMap_cons, moved]
  groups := by
    rw [groupsIn, isScan, List.countP_cons, groupsIn, Nat.add_comm]
    cases token.isCapturing <;> rfl
  portable := isPortable

theorem plain (isOutside : char ∉ ['\\', '[', '(']) :
    Passes offset 0 (char :: rest) [char] 0 0 rest := by
  refine ofToken (scan_plain isOutside) (Eq.trans (Eq.symm ?_))
  simp only [List.mem_cons, List.not_mem_nil, or_false, not_or] at isOutside
  exact (if_neg isOutside.1).trans ((if_neg isOutside.2.1).trans (if_neg isOutside.2.2))

theorem escape (isNoNumber : ¬ (escaped.isDigit && escaped != '0') = true) :
    Passes offset 0 ('\\' :: escaped :: rest) ['\\', escaped] 0 0 rest :=
  ofToken (scan_escape isNoNumber) fun isPortable => (Bool.and_eq_true_iff.mp isPortable).2

theorem bracket :
    Passes offset 0 ('[' :: rest) ('[' :: rest.take (Token.leadingInBracket rest)) 0 1
      (rest.drop (Token.leadingInBracket rest)) :=
  ofToken scan_bracket (portable_skip 1 (Token.leadingInBracket rest) rest).symm.trans

theorem inner (isInside : char ∉ ['\\', '[', ']']) :
    Passes offset (brackets + 1) (char :: rest) [char] 0 (brackets + 1) rest := by
  refine ofToken (scan_inner isInside) (Eq.trans (Eq.symm ?_))
  simp only [List.mem_cons, List.not_mem_nil, or_false, not_or] at isInside
  exact (if_neg isInside.1).trans ((if_neg isInside.2.1).trans (if_neg isInside.2.2))

theorem innerEscape :
    Passes offset (brackets + 1) ('\\' :: escaped :: rest) ['\\', escaped] 0 (brackets + 1)
      rest :=
  ofToken scan_innerEscape fun isPortable => (Bool.and_eq_true_iff.mp isPortable).2

theorem innerClose :
    Passes offset (brackets + 1) (']' :: rest) [']'] 0 brackets rest :=
  ofToken scan_innerClose id

theorem trans {middle last groups : Nat} {between first second : List Char}
    (passes : Passes offset brackets source first groups middle between)
    (onward : Passes offset middle between second others last rest) :
    Passes offset brackets source (first ++ second) (groups + others) last rest where
  text := by rw [passes.text, onward.text, List.append_assoc]
  groups := by rw [passes.groups, onward.groups, Nat.add_assoc]
  portable := fun isPortable => onward.portable (passes.portable isPortable)

theorem plains (offset brackets : Nat) (text rest : List Char)
    (isText : ∀ char ∈ text, isPlain char) :
    Passes offset brackets (text ++ rest) text 0 brackets rest := by
  induction text with
  | nil => exact ⟨rfl, by simp, id⟩
  | cons char text ih =>
    have isChar := isText char List.mem_cons_self
    simp only [isPlain, Bool.not_eq_true', List.contains_eq_mem, decide_eq_false_iff_not,
      List.mem_cons, List.not_mem_nil, or_false, not_or] at isChar
    have onward := ih fun other member => isText other (List.mem_cons_of_mem _ member)
    cases brackets with
    | zero => exact (plain (by simp [isChar])).trans onward
    | succ brackets => exact (inner (by simp [isChar])).trans onward

theorem beforePlain {count : Nat} (isScan : Token.scan brackets 0 (char :: rest) =
      token :: Token.scan others 0 (rest.drop count))
    (isText : (token.shift offset).text = char :: rest.take count)
    (belongs : ∀ char ∈ rest.take count, isPlain char)
    (isPortable : Pattern.portable brackets 0 (char :: rest) → Pattern.portable others 0 rest) :
    Passes offset brackets (char :: rest) [char] token.isCapturing.toNat others rest := by
  have passed := plains offset others _ (rest.drop count) belongs
  rw [List.take_append_drop] at passed
  have passes : Passes offset brackets _ _ _ others (rest.drop count) :=
    ofToken isScan fun source => passed.portable (isPortable source)
  refine ⟨?_, ?_, isPortable⟩
  · rw [passes.text, isText, passed.text]
    rfl
  · rw [passes.groups, passed.groups, Nat.zero_add]

/-- A parenthesis is passed alone: what else belongs to the opening is plain. -/
theorem opening :
    Passes offset 0 ('(' :: rest) ['('] (Token.groupOpening rest).1.toNat 0 rest :=
  beforePlain scan_opening rfl (isPlain_take_groupOpening rest)
    fun isPortable => (Bool.and_eq_true_iff.mp isPortable).2

theorem innerOpen (isPortable : Pattern.portable (brackets + 1) 0 ('[' :: rest)) :
    Passes offset (brackets + 1) ('[' :: rest) ['['] 0 (brackets + 2) rest := by
  obtain ⟨notClosed, onward⟩ := Bool.and_eq_true_iff.mp isPortable
  refine beforePlain scan_innerBracket rfl ?_ fun _ => onward
  revert notClosed
  fun_cases Token.leadingInBracket rest <;> simp [isPlain, startsClosed]

theorem isPlain_of_isDigit (isDigit : char.isDigit) : isPlain char := by
  have different (special : Char) (isSpecial : special.isDigit = false) : char ≠ special := by
    rintro rfl
    rw [isDigit] at isSpecial
    cases isSpecial
  simp [isPlain, different]

theorem reference (isNumber : escaped.isDigit && escaped != '0') :
    Passes offset 0 ('\\' :: escaped :: rest)
      ('\\' :: Nat.toDigits 10
        (Token.referenceNumber ((escaped :: rest).takeWhile Char.isDigit) + offset)) 0 0
      ((escaped :: rest).dropWhile Char.isDigit) := by
  have digits := plains offset 0 (rest.takeWhile Char.isDigit) (rest.dropWhile Char.isDigit)
    fun char member => isPlain_of_isDigit (List.all_eq_true.mp List.all_takeWhile char member)
  rw [List.takeWhile_append_dropWhile] at digits
  have isDigit : escaped.isDigit := (Bool.and_eq_true_iff.mp isNumber).1
  refine ofToken (scan_number isNumber) fun isPortable => ?_
  rw [List.dropWhile_cons_of_pos isDigit]
  exact digits.portable (Bool.and_eq_true_iff.mp isPortable).2

end Passes
end Highlighter.Pattern

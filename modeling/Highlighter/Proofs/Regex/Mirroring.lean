import Highlighter.Proofs.Regex.Fuel
import Highlighter.Proofs.Regex.Portable
import Highlighter.Proofs.Regex.Renaming

/-!
# Two readings side by side

A portable source is read alone, and as a part of a longer pattern that a bar or a parenthesis
ends.  The two readings are at the same point of the source all the time, and what they have read
is the same apart from the numbers of groups, which are moved on.  Here are the steps that open no
group.
-/
namespace Highlighter.Regex.Reading

open Pattern (moved groupsIn portable isPlain Passes)

variable {α β : Type} {excused : PatternError → Prop} {chars rest others : List Char}
  {char escaped : Char} {state : ReadState}

/-! ## Two readings side by side -/

/-- Whenever the first of two actions reads something, the second reads something related, or
it fails for a cause that is excused.  Where the first is nested too deep, the second reads
nothing. -/
def Follows (excused : PatternError → Prop) (first : Reading α) (state : ReadState)
    (second : Reading α) (other : ReadState)
    (related : α → ReadState → α → ReadState → Prop) : Prop :=
  Settles (fun cause => cause = .nestedTooDeep → Ensures second other fun _ _ => False) first state
    fun value after => Settles excused second other fun otherValue otherAfter =>
      related value after otherValue otherAfter

namespace Follows

variable {excused : PatternError → Prop} {state other : ReadState} {first second : Reading α}
  {related : α → ReadState → α → ReadState → Prop} {onto : β → ReadState → β → ReadState → Prop}

theorem of_local {property : α → ReadState → Prop}
    (follows : Ensures first state fun value after =>
      Settles excused second other (related value after))
    (isLocal : Settles IsLocal first state property) :
    Follows excused first state second other related := by
  cases result : first.run state with
  | error cause =>
    have isOwn := (Settles.of_error result).mp isLocal
    exact (Settles.of_error result).mpr fun isDeep => absurd isDeep isOwn.2
  | ok found => exact (Settles.of_ok result).mpr (follows.ensures result)

theorem of_error {cause : PatternError} (fails : first.run state = .error cause)
    (isLocal : cause ≠ .nestedTooDeep) : Follows excused first state second other related :=
  (Settles.of_error fails).mpr fun isDeep => absurd isDeep isLocal

theorem of_excused {cause : PatternError} (fails : second.run other = .error cause)
    (excuse : excused cause) : Follows excused first state second other related := by
  cases result : first.run state with
  | error cause =>
    exact (Settles.of_error result).mpr fun _ => (Settles.of_error fails).mpr trivial
  | ok found => exact (Settles.of_ok result).mpr ((Settles.of_error fails).mpr excuse)

theorem bind {next onward : α → Reading β} (leads : Follows excused first state second other related)
    (follows : ∀ value after otherValue otherAfter,
      related value after otherValue otherAfter →
        Follows excused (next value) after (onward otherValue) otherAfter onto) :
    Follows excused (first >>= next) state (second >>= onward) other onto := by
  rw [Follows, Settles.bind_iff]
  cases result : first.run state with
  | error cause =>
    refine (Settles.of_error result).mpr fun isDeep => Settles.bind_iff.mpr ?_
    exact ((Settles.of_error result).mp leads isDeep).imp fun _ _ => False.elim
  | ok found =>
    have between := leads.ensures result
    refine (Settles.of_ok result).mpr ?_
    cases isNext : (next found.1).run found.2 with
    | error cause =>
      refine (Settles.of_error isNext).mpr fun isDeep => Settles.bind_iff.mpr ?_
      refine ensures_iff.mpr fun _ _ isOther => ?_
      exact (Settles.of_error isNext).mp (follows _ _ _ _ (between.ensures isOther)) isDeep
    | ok last =>
      refine (Settles.of_ok isNext).mpr (Settles.bind_iff.mpr (between.imp fun _ _ isBetween => ?_))
      exact (follows _ _ _ _ isBetween).ensures isNext

theorem get_bind {next onward : ReadState → Reading β}
    (follows : Follows excused (next state) state (onward other) other onto) :
    Follows excused (get >>= next) state (get >>= onward) other onto :=
  follows

theorem set_bind {before otherBefore : ReadState} {next onward : PUnit → Reading β}
    (follows : Follows excused (next ⟨⟩) state (onward ⟨⟩) other onto) :
    Follows excused (set state >>= next) before (set other >>= onward) otherBefore onto :=
  follows

theorem modify_bind {change otherChange : ReadState → ReadState} {next onward : PUnit → Reading β}
    (follows : Follows excused (next ⟨⟩) (change state) (onward ⟨⟩) (otherChange other) onto) :
    Follows excused (modify change >>= next) state (modify otherChange >>= onward) other onto :=
  follows

theorem throw {cause : PatternError} (isLocal : cause ≠ .nestedTooDeep) :
    Follows excused (throw cause) state second other related :=
  fun isDeep => absurd isDeep isLocal

theorem pure {value otherValue : α} (isRelated : related value state otherValue other) :
    Follows excused (pure value) state (pure otherValue) other related :=
  isRelated

end Follows

/-! ## States side by side -/

/-- The number of a group that is moved on; group 0 stays what it is. -/
def shiftNumber (offset number : Nat) : Nat :=
  if number = 0 then 0 else number + offset

/-- Where a source stands in a longer pattern: the number of groups in front, what follows the
source, which can only go on with another alternative or end a group, and the references in front;
the number of groups in the source; the flags that hold; the bound of the numbers that the longer
pattern may refer to; and the causes for which it may fail where the source does not, which are all
causes if it goes on with another alternative. -/
structure Setting where
  offset : Nat
  tail : List Char
  earlier : List Nat
  total : Nat
  flags : Flags
  bound : Nat
  excused : PatternError → Prop
  ends : ∀ char ∈ tail.head?, char = '|' ∨ char = ')'
  lenient : tail.head? = some '|' → ∀ cause, excused cause

/-- Groups up to a number can be referred to, unless a pattern may fail for that cause. -/
def Admits (excused : PatternError → Prop) (bound number : Nat) : Prop :=
  excused .unknownGroup ∨ number < bound ∧ number < Word.size 64

theorem Admits.anti {bound number other : Nat} (admits : Admits excused bound number)
    (less : other ≤ number) : Admits excused bound other :=
  admits.imp_right fun isWithin =>
    ⟨Nat.lt_of_le_of_lt less isWithin.1, Nat.lt_of_le_of_lt less isWithin.2⟩

/-- What a node of the source is in its copy. -/
abbrev Setting.copy (setting : Setting) : Node → Node :=
  Node.rename (shiftNumber setting.offset)

/-- What is left of a longer pattern when `rest` is left of a source in it. -/
def Setting.text (setting : Setting) (brackets : Nat) (rest : List Char) : List Char :=
  moved setting.offset brackets rest ++ setting.tail

/-- A source has been read alone and as a part up to the same point, inside a number of
brackets. -/
structure Mirrored (setting : Setting) (brackets : Nat) (alone joined : ReadState) : Prop where
  rest : joined.rest = setting.text brackets alone.rest
  isPortable : portable brackets 0 alone.rest
  groups : alone.opened + groupsIn brackets alone.rest = setting.total
  isFlags : alone.flags = setting.flags
  flags : joined.flags = alone.flags
  noBlanks : alone.flags.ignoreBlanks = false
  opened : joined.opened = alone.opened + setting.offset
  noNames : alone.names = [] ∧ joined.names = []
  referenced :
    joined.referenced = alone.referenced.map (shiftNumber setting.offset) ++ setting.earlier
  bound : joined.referenceBound = setting.bound
  unreadable : setting.excused .unreadable
  admits : Admits setting.excused setting.bound (setting.offset + setting.total)

namespace Setting

variable (setting : Setting) {brackets : Nat} {char : Char}

theorem text_nil : setting.text brackets [] = setting.tail := by
  simp [text]

theorem tail_cases : setting.tail = [] ∨ (∃ others, setting.tail = '|' :: others) ∨
    ∃ others, setting.tail = ')' :: others := by
  cases isTail : setting.tail with
  | nil => exact .inl rfl
  | cons char others =>
    rcases setting.ends char (by simp [isTail]) with rfl | rfl
    · exact .inr (.inl ⟨others, rfl⟩)
    · exact .inr (.inr ⟨others, rfl⟩)

theorem head?_tail_ne (noEnd : char ≠ '|' ∧ char ≠ ')') : setting.tail.head? ≠ some char := by
  intro isHead
  rcases setting.ends char isHead with rfl | rfl
  · exact noEnd.1 rfl
  · exact noEnd.2 rfl

theorem text_of_passes {source between rest : List Char} {groups others : Nat}
    (passes : Passes setting.offset brackets source between groups others rest) :
    setting.text brackets source = between ++ setting.text others rest := by
  rw [text, passes.text, List.append_assoc, text]

theorem text_cons (char : Char) (rest : List Char) :
    ∃ others, setting.text brackets (char :: rest) = char :: others := by
  obtain ⟨others, isMoved⟩ := Pattern.moved_cons setting.offset brackets char rest
  exact ⟨_, by rw [text, isMoved, List.cons_append]⟩

theorem starts_of_text {chars others : List Char}
    (isText : setting.text brackets chars = char :: others) (noEnd : char ≠ '|' ∧ char ≠ ')') :
    ∃ behind, chars = char :: behind := by
  cases chars with
  | nil =>
    rw [text_nil] at isText
    exact absurd (by rw [isText, List.head?_cons]) (setting.head?_tail_ne noEnd)
  | cons first chars =>
    obtain ⟨copied, isFirst⟩ := @text_cons setting brackets first chars
    rw [isFirst, List.cons.injEq] at isText
    exact ⟨chars, by rw [isText.1]⟩

theorem cons_of_text {rest others : List Char} (isText : setting.text 0 rest = char :: others)
    (isCopied : char ∉ ['\\', '[', '|', ')']) :
    ∃ behind, rest = char :: behind ∧ setting.text 0 behind = others := by
  simp only [List.mem_cons, List.not_mem_nil, or_false, not_or] at isCopied
  obtain ⟨rest, rfl⟩ := setting.starts_of_text isText isCopied.2.2
  refine ⟨rest, rfl, ?_⟩
  by_cases isOpening : char = '('
  · subst isOpening
    rw [setting.text_of_passes .opening] at isText
    exact (List.cons.inj isText).2
  · rw [setting.text_of_passes (.plain (by simp [isCopied, isOpening]))] at isText
    exact (List.cons.inj isText).2

theorem text_plains {text rest : List Char} (isText : ∀ char ∈ text, isPlain char) :
    setting.text brackets (text ++ rest) = text ++ setting.text brackets rest :=
  setting.text_of_passes (.plains _ _ _ _ isText)

theorem takeWhile_text_of {kind : Char → Bool} {rest : List Char}
    (isText : ∀ char ∈ rest.takeWhile kind, isPlain char)
    (ends : rest.dropWhile kind = [] → kind '|' = false ∧ kind ')' = false) :
    (setting.text brackets rest).takeWhile kind = rest.takeWhile kind ∧
      (setting.text brackets rest).dropWhile kind =
        setting.text brackets (rest.dropWhile kind) := by
  have parts := @List.takeWhile_append_dropWhile _ kind rest
  have isKind : ∀ char ∈ rest.takeWhile kind, kind char :=
    List.all_eq_true.mp List.all_takeWhile
  have stops : ∀ char ∈ (setting.text brackets (rest.dropWhile kind)).head?, kind char = false := by
    cases isBehind : rest.dropWhile kind with
    | nil =>
      rw [setting.text_nil]
      intro char isHead
      rcases setting.ends char isHead with rfl | rfl
      · exact (ends isBehind).1
      · exact (ends isBehind).2
    | cons char behind =>
      obtain ⟨others, isOthers⟩ := @text_cons setting brackets char behind
      have isHead := @List.head?_dropWhile_not _ kind rest
      rw [isBehind] at isHead
      simpa [isOthers] using isHead
  rw [← congrArg (setting.text brackets) parts, setting.text_plains isText,
    List.takeWhile_append_of_pos isKind, List.dropWhile_append_of_pos isKind]
  cases isBehind : setting.text brackets (rest.dropWhile kind) with
  | nil => simp
  | cons char others =>
    have isOther := stops char (by simp [isBehind])
    simp [isOther]

theorem takeWhile_text {kind : Char → Bool} (isKind : ∀ char, kind char → isPlain char)
    (noBar : kind '|' = false) (rest : List Char) :
    (setting.text brackets rest).takeWhile kind = rest.takeWhile kind ∧
      (setting.text brackets rest).dropWhile kind =
        setting.text brackets (rest.dropWhile kind) := by
  refine setting.takeWhile_text_of (fun char member => isKind char ?_) fun _ => ⟨noBar, ?_⟩
  · exact List.all_eq_true.mp List.all_takeWhile char member
  · exact Bool.eq_false_iff.mpr fun isClosing => by simpa [isPlain] using isKind _ isClosing

end Setting

namespace Mirrored

variable {setting : Setting} {brackets : Nat} {alone joined : ReadState} {rest : List Char}
  {char : Char}

/-- Both readings get behind a part of the source that opens no group. -/
theorem pass (mirrored : Mirrored setting brackets alone joined) {source text : List Char}
    {others : Nat} (isRest : alone.rest = source)
    (passes : Passes setting.offset brackets source text 0 others rest) :
    joined.rest = text ++ setting.text others rest ∧
      Mirrored setting others { alone with rest }
        { joined with rest := setting.text others rest } := by
  subst isRest
  refine ⟨mirrored.rest.trans (setting.text_of_passes passes), { mirrored with
    rest := rfl
    isPortable := passes.portable mirrored.isPortable
    groups := ?_ }⟩
  rw [← mirrored.groups, passes.groups, Nat.zero_add]

theorem pass_plain (mirrored : Mirrored setting 0 alone joined) (isRest : alone.rest = char :: rest)
    (isOutside : char ∉ ['\\', '[', '(']) :
    joined.rest = char :: setting.text 0 rest ∧
      Mirrored setting 0 { alone with rest } { joined with rest := setting.text 0 rest } :=
  mirrored.pass isRest (.plain isOutside)

variable (mirrored : Mirrored setting brackets alone joined)

include mirrored

theorem pass_plains {text : List Char} (isRest : alone.rest = text ++ rest)
    (isText : ∀ char ∈ text, isPlain char) :
    joined.rest = text ++ setting.text brackets rest ∧
      Mirrored setting brackets { alone with rest }
        { joined with rest := setting.text brackets rest } :=
  mirrored.pass isRest (.plains _ _ _ _ isText)

theorem pass_char (isRest : alone.rest = char :: rest) (isChar : isPlain char) :
    joined.rest = char :: setting.text brackets rest ∧
      Mirrored setting brackets { alone with rest }
        { joined with rest := setting.text brackets rest } :=
  mirrored.pass isRest (.plains _ _ [char] rest (by simpa using isChar))

theorem joined_noBlanks : joined.flags.ignoreBlanks = false := by
  rw [mirrored.flags, mirrored.noBlanks]

theorem joined_rest_nil (isRest : alone.rest = []) : joined.rest = setting.tail := by
  rw [mirrored.rest, isRest, setting.text_nil]

theorem joined_rest_cons (isRest : alone.rest = char :: rest) :
    ∃ others, joined.rest = char :: others := by
  rw [mirrored.rest, isRest]
  exact setting.text_cons char rest

end Mirrored

/-! ## Steps that consume plain characters -/

variable {setting : Setting} {brackets : Nat} {alone joined : ReadState}

theorem afterBlanks_of_ne (noComment : ∀ others, chars ≠ '(' :: '?' :: '#' :: others) :
    afterBlanks false .between chars = .ok chars := by
  cases chars with
  | nil => rfl
  | cons char chars =>
    rw [afterBlanks]
    · simp
    · rintro others rfl rfl
      exact noComment _ rfl

theorem afterBlanks_text {rest : List Char} (isPortable : portable 0 0 rest) :
    afterBlanks false .between rest = .ok rest ∧
      afterBlanks false .between (setting.text 0 rest) = .ok (setting.text 0 rest) := by
  have noComment : ∀ others, rest ≠ '(' :: '?' :: '#' :: others := by
    rintro others rfl
    simp [portable, Pattern.hasPortableOpening, Pattern.isFlagLetter] at isPortable
  refine ⟨afterBlanks_of_ne noComment, afterBlanks_of_ne fun others isText => ?_⟩
  -- The three characters would be those of the source.
  obtain ⟨first, isRest, isFirst⟩ := setting.cons_of_text isText (by simp)
  obtain ⟨second, rfl, isSecond⟩ := setting.cons_of_text isFirst (by simp)
  obtain ⟨third, rfl, -⟩ := setting.cons_of_text isSecond (by simp)
  exact noComment third isRest

theorem skipBlanks_follows (mirrored : Mirrored setting 0 alone joined) :
    Follows setting.excused skipBlanks alone skipBlanks joined fun _ after _ other =>
      after = alone ∧ other = joined := by
  obtain ⟨isAlone, isJoined⟩ := @afterBlanks_text setting _ mirrored.isPortable
  rw [← mirrored.rest] at isJoined
  simp [Follows, skipBlanks, mirrored.noBlanks, mirrored.joined_noBlanks, isAlone, isJoined]

theorem accept_follows (mirrored : Mirrored setting 0 alone joined) {expected : Char}
    (isPlain : isPlain expected)
    (noEnd : alone.rest = [] → setting.tail.head? ≠ some expected) :
    Follows setting.excused (accept expected) alone (accept expected) joined
      fun accepted after other otherAfter =>
        other = accepted ∧ Mirrored setting 0 after otherAfter := by
  simp only [Follows, accept, Settles.bind_iff, Settles.get_iff]
  cases isRest : alone.rest with
  | nil =>
    have different := noEnd isRest
    rw [mirrored.joined_rest_nil isRest]
    cases isTail : setting.tail with
    | nil => simp [mirrored]
    | cons char others =>
      rw [isTail, List.head?_cons, ne_eq, Option.some_inj] at different
      simp [different, mirrored]
  | cons char rest =>
    by_cases isExpected : char = expected
    · subst isExpected
      obtain ⟨isOther, passed⟩ := mirrored.pass_char isRest isPlain
      simp [isOther, passed]
    · obtain ⟨others, isOther⟩ := mirrored.joined_rest_cons isRest
      simp [isOther, isExpected, mirrored]

theorem close_follows (mirrored : Mirrored setting 0 alone joined) :
    Follows setting.excused close alone close joined fun _ after _ otherAfter =>
      Mirrored setting 0 after otherAfter := by
  simp only [Follows, close, accept, Settles.bind_iff, Settles.get_iff]
  cases isRest : alone.rest with
  | nil => simp
  | cons char rest =>
    by_cases isClosing : char = ')'
    · subst isClosing
      obtain ⟨isOther, passed⟩ := mirrored.pass_plain isRest (by simp)
      simp [isRest, isOther, passed]
    · simp [isRest, isClosing]

theorem decimal?_text (rest : List Char) :
    decimal? (setting.text brackets rest) =
      (decimal? rest).map fun found => (found.1, setting.text brackets found.2) := by
  have digits := @Setting.takeWhile_text setting brackets Char.isDigit
    (fun _ => Passes.isPlain_of_isDigit) rfl rest
  simp only [decimal?, digits]
  split <;> rfl

theorem head?_text_eq_some {char : Char} (isPlain : isPlain char) (noBar : char ≠ '|')
    (rest : List Char) :
    (setting.text brackets rest).head? = some char ↔ rest.head? = some char := by
  rw [List.head?_eq_some_iff, List.head?_eq_some_iff]
  constructor
  · rintro ⟨others, isText⟩
    exact setting.starts_of_text isText ⟨noBar, by rintro rfl; cases isPlain⟩
  · rintro ⟨others, rfl⟩
    exact setting.text_cons char others

theorem leastBound_text (rest : List Char) :
    leastBound (setting.text 0 rest) =
      (leastBound rest).map fun found => (found.1, setting.text 0 found.2) := by
  simp only [leastBound, head?_text_eq_some (show isPlain ',' from rfl) (by decide), decimal?_text]
  split
  · rfl
  · cases decimal? rest <;> rfl

theorem greatestBound_text (rest : List Char) :
    greatestBound (setting.text 0 rest) =
      ((greatestBound rest).1, setting.text 0 (greatestBound rest).2) := by
  simp only [greatestBound, decimal?_text]
  cases decimal? rest <;> rfl

theorem behindBounds_text (rest : List Char) :
    behindBounds (setting.text 0 rest) = (behindBounds rest).map (setting.text 0) := by
  cases rest with
  | nil =>
    rw [Setting.text_nil]
    rcases setting.tail_cases with isTail | ⟨others, isTail⟩ | ⟨others, isTail⟩ <;>
      simp [isTail, behindBounds, Except.map]
  | cons char rest =>
    by_cases isBrace : char = '\x7d'
    · subst isBrace
      rw [setting.text_of_passes (.plain (by simp))]
      rfl
    · obtain ⟨others, isText⟩ := @Setting.text_cons setting 0 char rest
      simp [isText, behindBounds, isBrace, Except.map]

/-- Plain characters stand in front of the rest of a source. -/
def Leaves (chars rest : List Char) : Prop :=
  ∃ text, (∀ char ∈ text, isPlain char) ∧ chars = text ++ rest

namespace Leaves

variable {chars between rest : List Char}

theorem refl (chars : List Char) : Leaves chars chars :=
  ⟨[], by simp, rfl⟩

theorem trans (leaves : Leaves chars between) (onward : Leaves between rest) :
    Leaves chars rest := by
  obtain ⟨first, isFirst, rfl⟩ := leaves
  obtain ⟨second, isSecond, rfl⟩ := onward
  refine ⟨first ++ second, ?_, by simp⟩
  simpa [or_imp, forall_and] using ⟨isFirst, isSecond⟩

theorem tail {char : Char} (isPlain : isPlain char) (starts : chars.head? = some char) :
    Leaves chars chars.tail := by
  cases chars with
  | nil => cases starts
  | cons first rest =>
    obtain rfl : first = char := by simpa using starts
    exact ⟨[first], by simpa using isPlain, rfl⟩

theorem isPortable (leaves : Leaves chars rest) (isPortable : portable 0 0 chars) :
    portable 0 0 rest := by
  obtain ⟨text, isText, rfl⟩ := leaves
  exact (Passes.plains 0 0 text rest isText).portable isPortable

end Leaves

theorem skips_leaves : Skips false fun chars rest => portable 0 0 chars → Leaves chars rest where
  refl chars _ := .refl chars
  trans first second isPortable :=
    (first isPortable).trans (second ((first isPortable).isPortable isPortable))
  digits chars _ := by
    refine ⟨chars.takeWhile Char.isDigit, fun digit member => ?_, ?_⟩
    · exact Passes.isPlain_of_isDigit (List.all_eq_true.mp List.all_takeWhile digit member)
    · rw [List.takeWhile_append_dropWhile]
  mark isMark _ := by
    simp only [List.mem_cons, List.not_mem_nil, or_false] at isMark
    rcases isMark with rfl | rfl <;> exact .tail rfl rfl
  gap isRest isPortable := by
    rw [(@afterBlanks_text ⟨0, [], [], 0, {}, 0, fun _ => True, by simp, by simp⟩ _
      isPortable).1] at isRest
    cases isRest
    exact .refl _

theorem tail_text (isPlain : isPlain char) (starts : rest.head? = some char) :
    (setting.text brackets rest).tail = setting.text brackets rest.tail := by
  cases rest with
  | nil => cases starts
  | cons first rest =>
    obtain rfl : first = char := by simpa using starts
    have isText : ∀ other ∈ [first], Pattern.isPlain other := by simpa using isPlain
    exact congrArg List.tail (@Setting.text_plains setting brackets [first] rest isText)

theorem bounds_text {rest : List Char} (isPortable : portable 0 0 rest) :
    bounds false (setting.text 0 rest) =
      (bounds false rest).map fun found => (found.1, found.2.1, setting.text 0 found.2.2) := by
  obtain ⟨isAlone, isJoined⟩ := @afterBlanks_text setting _ isPortable
  simp only [bounds, isAlone, isJoined, bind, Except.bind, leastBound_text]
  cases isLeast : leastBound rest with
  | error cause => rfl
  | ok least =>
    have leastPortable := (leastBound_left skips_leaves isLeast isPortable).isPortable isPortable
    obtain ⟨isAlone, isJoined⟩ := @afterBlanks_text setting _ leastPortable
    simp only [Except.map, isAlone, isJoined,
      head?_text_eq_some (show isPlain ',' from rfl) (by decide)]
    split
    · rename_i isComma
      have commaPortable := (Leaves.tail rfl isComma).isPortable leastPortable
      have mostPortable :=
        (greatestBound_left skips_leaves _ commaPortable).isPortable commaPortable
      simp only [tail_text (show isPlain ',' from rfl) isComma,
        @afterBlanks_text setting _ commaPortable, greatestBound_text,
        @afterBlanks_text setting _ mostPortable, behindBounds_text]
      cases behindBounds (greatestBound least.2.tail).2 <;> rfl
    · simp only [behindBounds_text]
      cases behindBounds least.2 <;> rfl

theorem quantifier?_follows (mirrored : Mirrored setting 0 alone joined) :
    Follows setting.excused quantifier? alone quantifier? joined fun found after other otherAfter =>
      other = found ∧ Mirrored setting 0 after otherAfter := by
  simp only [Follows, quantifier?, Settles.bind_iff, Settles.get_iff]
  cases isRest : alone.rest with
  | nil =>
    rw [mirrored.joined_rest_nil isRest]
    rcases setting.tail_cases with isTail | ⟨others, isTail⟩ | ⟨others, isTail⟩ <;>
      simp [isTail, mirrored]
  | cons char rest =>
    obtain ⟨others, isOthers⟩ := mirrored.joined_rest_cons isRest
    by_cases isMark : char ∈ ['?', '*', '+']
    · have isOutside : char ∉ ['\\', '[', '('] := by
        simp only [List.mem_cons, List.not_mem_nil, or_false] at isMark
        rcases isMark with rfl | rfl | rfl <;> decide
      obtain ⟨isOther, passed⟩ := mirrored.pass_plain isRest isOutside
      simp only [List.mem_cons, List.not_mem_nil, or_false] at isMark
      rcases isMark with rfl | rfl | rfl <;> simp [isOther, passed]
    · simp only [List.mem_cons, List.not_mem_nil, or_false, not_or] at isMark
      by_cases isBrace : char = '\x7b'
      · subst isBrace
        obtain ⟨isOther, passed⟩ := mirrored.pass_plain isRest (by simp)
        have isPortable : portable 0 0 rest := passed.isPortable
        have isBounds := @bounds_text setting _ isPortable
        simp only [isOther, mirrored.noBlanks, mirrored.joined_noBlanks]
        cases isFound : bounds false rest with
        | error cause => simp [isBounds, isFound, Except.map, mirrored]
        | ok found =>
          obtain ⟨text, isText, isLeft⟩ := bounds_left skips_leaves isFound isPortable
          simp only [isBounds, isFound, Except.map]
          simpa using (passed.pass_plains isLeft isText).2
      · simp [isOthers, isMark, isBrace, mirrored]

/-! ## Escapes -/

/-- An escape in which the groups have other numbers. -/
def Escape.rename (map : Nat → Nat) : Escape → Escape
  | .node inner => .node (inner.rename map)
  | found => found

abbrev EscapesAlike (setting : Setting) (brackets : Nat) (action : Reading Escape)
    (alone joined : ReadState) : Prop :=
  Follows setting.excused action alone action joined fun found after other otherAfter =>
    other = found.rename (shiftNumber setting.offset) ∧ Mirrored setting brackets after otherAfter

theorem isPlain_of_hexValue? (isHex : (hexValue? char).isSome) : isPlain char := by
  have different (special : Char) (noHex : (hexValue? special).isSome = false) :
      char ≠ special := by
    rintro rfl
    rw [isHex] at noHex
    cases noHex
  have noHex : ∀ special ∈ ['\\', '[', ']', '(', ')'], (hexValue? special).isSome = false := by
    simp only [List.mem_cons, List.not_mem_nil, or_false]
    rintro special (rfl | rfl | rfl | rfl | rfl) <;> rfl
  simp only [isPlain, Bool.not_eq_true', List.contains_eq_mem, decide_eq_false_iff_not]
  exact fun member => different char (noHex char member) rfl

theorem take_all_iff {kind : Char → Bool} {count : Nat} :
    ((chars.take count).length = count && (chars.take count).all kind) =
      decide (count ≤ (chars.takeWhile kind).length) := by
  induction chars generalizing count with
  | nil => cases count <;> simp
  | cons char chars ih =>
    cases count with
    | zero => simp
    | succ count =>
      by_cases isKind : kind char
      · simpa [isKind] using ih
      · simp [isKind]

theorem charCode_follows (count : Nat) (mirrored : Mirrored setting brackets alone joined) :
    EscapesAlike setting brackets (charCode count) alone joined := by
  have same := @Setting.takeWhile_text setting brackets (fun char => (hexValue? char).isSome)
    (fun _ => isPlain_of_hexValue?) rfl
  have hexDigits {chars : List Char} :
      ∀ char ∈ chars.takeWhile fun char => (hexValue? char).isSome, isPlain char :=
    fun char member => isPlain_of_hexValue? (List.all_eq_true.mp List.all_takeWhile char member)
  refine .of_local ?_ (charCode_proceeds count alone)
  simp only [Ensures, charCode, Settles.bind_iff, Settles.get_iff, take_all_iff, mirrored.rest,
    same]
  split
  · rename_i enough
    have isText : ∀ char ∈ alone.rest.take count, isPlain char := by
      intro char member
      have parts := @List.takeWhile_append_dropWhile _ (fun char => (hexValue? char).isSome)
        alone.rest
      rw [← parts, List.take_append_of_le_length (by simpa using enough)] at member
      exact hexDigits char (List.mem_of_mem_take member)
    have long : (alone.rest.take count).length = count := by
      rw [List.length_take, Nat.min_eq_left]
      exact Nat.le_trans (of_decide_eq_true enough) (List.takeWhile_sublist _).length_le
    obtain ⟨isOther, passed⟩ :=
      mirrored.pass_plains (List.take_append_drop count alone.rest).symm isText
    rw [mirrored.rest] at isOther
    have isTake : (setting.text brackets alone.rest).take count = alone.rest.take count := by
      rw [isOther, List.take_left' long]
    have isDrop : (setting.text brackets alone.rest).drop count =
        setting.text brackets (alone.rest.drop count) := by
      rw [isOther, List.drop_left' long]
    rw [isTake, isDrop]
    cases charOfCode (alone.rest.take count) with
    | error cause => simp
    | ok char => simpa [Escape.rename] using passed
  · split
    · rename_i inside isRest
      obtain ⟨isOther, passed⟩ := mirrored.pass_char isRest rfl
      rw [mirrored.rest] at isOther
      simp only [isOther, same]
      split
      · rename_i rest isBehind
        have isInside : inside = (inside.takeWhile fun char => (hexValue? char).isSome) ++
            ['\x7d'] ++ rest := by
          rw [List.append_assoc, List.singleton_append, ← isBehind,
            List.takeWhile_append_dropWhile]
        have isText : ∀ char ∈ (inside.takeWhile fun char => (hexValue? char).isSome) ++
            ['\x7d'], isPlain char := by
          simpa [or_imp, forall_and] using ⟨hexDigits, rfl⟩
        obtain ⟨-, finished⟩ := passed.pass_plains isInside isText
        have isOtherBehind : setting.text brackets ('\x7d' :: rest) =
            '\x7d' :: setting.text brackets rest :=
          @Setting.text_plains setting brackets ['\x7d'] rest (by simp [isPlain])
        simp only [isBehind, isOtherBehind]
        split
        · simp
        · cases charOfCode (inside.takeWhile fun char => (hexValue? char).isSome) with
          | error cause => simp
          | ok char => simpa [Escape.rename] using finished
      · simp
    · simp

theorem property_follows (negated : Bool) (mirrored : Mirrored setting brackets alone joined)
    (hasName : Pattern.hasPlainProperty alone.rest) :
    EscapesAlike setting brackets (property negated) alone joined := by
  simp only [EscapesAlike, Follows, property, Settles.bind_iff, Settles.get_iff,
    congrArg Flags.ignoreCase mirrored.flags]
  cases isRest : alone.rest with
  | nil => simp
  | cons char rest =>
    by_cases isBrace : char = '\x7b'
    · subst isBrace
      obtain ⟨isOther, passed⟩ := mirrored.pass_char isRest rfl
      have isName : ∀ char ∈ rest.takeWhile fun char => char != '\x7d', isPlain char := by
        simpa [isRest, Pattern.hasPlainProperty] using hasName
      simp only [isOther]
      cases isBehind : rest.dropWhile fun char => char != '\x7d' with
      | nil => simp
      | cons closing behind =>
        obtain ⟨isTake, isDrop⟩ := @Setting.takeWhile_text_of setting brackets _ _ isName
          (by simp [isBehind])
        have isClosing : closing = '\x7d' := by
          have isHead := List.head?_dropWhile_not (fun char => char != '\x7d') rest
          rw [isBehind] at isHead
          simpa using isHead
        subst isClosing
        have isParts := (@List.takeWhile_append_dropWhile _ (· != '\x7d') rest).symm
        rw [isBehind] at isParts
        obtain ⟨isText, finished⟩ := (passed.pass_plains isParts isName).2.pass_char rfl rfl
        change setting.text brackets _ = _ at isText
        simp only [isTake, isDrop, isBehind, isText]
        cases isFound : propertySet? (rest.takeWhile fun char => char != '\x7d') with
        | none => simp [isFound]
        | some found => simpa [isFound, Escape.rename] using finished
    · have isChar : isPlain char := by
        rw [isRest, Pattern.hasPlainProperty] at hasName
        · simpa using hasName
        · simpa using isBrace
      obtain ⟨isOther, passed⟩ := mirrored.pass_char isRest isChar
      simp only [isOther]
      cases isFound : propertySet? [char] with
      | none => simp [isFound]
      | some found => simpa [isBrace, isFound, Escape.rename] using passed

/-! ## References -/

theorem value_toDigits (number : Nat) : (Nat.toDigits 10 number).foldl
    (fun value digit => 10 * value + (digit.toNat - 48)) 0 = number :=
  Nat.ofDigitChars_toDigits (by decide) (by decide)

theorem decimal?_toDigits (number : Nat) (stops : chars.takeWhile Char.isDigit = []) :
    decimal? (Nat.toDigits 10 number ++ chars) =
      if Word.size 64 ≤ number then none else some (number, chars) := by
  have isDigit : ∀ char ∈ Nat.toDigits 10 number, char.isDigit :=
    fun char => Nat.isDigit_of_mem_toDigits (by decide) (by decide)
  have stays : chars.dropWhile Char.isDigit = chars := by
    have parts := @List.takeWhile_append_dropWhile _ Char.isDigit chars
    rwa [stops, List.nil_append] at parts
  simp only [decimal?, List.takeWhile_append_of_pos isDigit, List.dropWhile_append_of_pos isDigit,
    stops, stays, List.append_nil, value_toDigits]
  simp [Nat.toDigits_ne_nil]

theorem le_value (digits : List Char) (start : Nat) :
    start ≤ digits.foldl (fun value digit => 10 * value + (digit.toNat - 48)) start := by
  induction digits generalizing start with
  | nil => exact Nat.le_refl start
  | cons digit digits ih =>
    refine Nat.le_trans ?_ (ih (10 * start + (digit.toNat - 48)))
    omega

theorem numberedReference_follows
    (leads : ∀ number rest, decimal? alone.rest = some (number, rest) →
      decimal? joined.rest =
        (if Word.size 64 ≤ shiftNumber setting.offset number then none
        else some (shiftNumber setting.offset number, setting.text 0 rest)) ∧
      Mirrored setting 0 { alone with rest } { joined with rest := setting.text 0 rest }) :
    Follows setting.excused numberedReference alone numberedReference joined
      fun number after other otherAfter =>
        other = shiftNumber setting.offset number ∧ Mirrored setting 0 after otherAfter := by
  refine .of_local ?_ (numberedReference_proceeds alone)
  simp only [Ensures, numberedReference, referTo, Settles.bind_iff, Settles.get_iff]
  cases isNumber : decimal? alone.rest with
  | none => simp
  | some found =>
    obtain ⟨number, rest⟩ := found
    obtain ⟨isOther, passed⟩ := leads number rest isNumber
    have referred : Mirrored setting 0
        { alone with rest, numbered := true, referenced := number :: alone.referenced }
        { joined with
          rest := setting.text 0 rest
          numbered := true
          referenced := shiftNumber setting.offset number :: joined.referenced } := by
      have same : joined.referenced = _ := passed.referenced
      exact { passed with referenced := by simp [same] }
    simp only [Settles.ite_iff, Settles.bind_iff, Settles.set_iff, Settles.get_iff,
      Settles.throw_iff, Settles.pure_iff, implies_true, and_true, true_and]
    intro _ isOpened
    rw [isOther]
    rcases passed.admits with excuse | ⟨bounded, small⟩
    · by_cases tooLarge : Word.size 64 ≤ shiftNumber setting.offset number
      · simp [tooLarge, excuse]
      · simpa [tooLarge, Settles.ite_iff, excuse] using fun _ _ => referred
    · have isGroups : alone.opened + groupsIn 0 rest = setting.total := passed.groups
      have isJoined : joined.opened = alone.opened + setting.offset := passed.opened
      have isBelow : shiftNumber setting.offset number ≤ joined.opened ∧
          joined.opened ≤ setting.offset + setting.total := by
        unfold shiftNumber
        split <;> omega
      have isBound : joined.referenceBound = setting.bound := passed.bound
      rw [if_neg (by omega)]
      simp only
      rw [if_pos (by omega)]
      simpa [Settles.ite_iff, Nat.not_lt.mpr isBelow.1] using referred

theorem takeWhile_dropWhile (kind : Char → Bool) (chars : List Char) :
    (chars.dropWhile kind).takeWhile kind = [] := by
  have isHead := List.head?_dropWhile_not kind chars
  cases isBehind : chars.dropWhile kind with
  | nil => rfl
  | cons char behind =>
    rw [isBehind] at isHead
    exact List.takeWhile_cons_of_neg (Bool.eq_false_iff.mp isHead)

theorem value_ne_zero {first : Char} (isNumber : first.isDigit && first != '0')
    (digits : List Char) :
    (first :: digits).foldl (fun value digit => 10 * value + (digit.toNat - 48)) 0 ≠ 0 := by
  have atLeast := le_value digits (10 * 0 + (first.toNat - 48))
  have positive : 48 < first.toNat := by
    simp only [Char.isDigit, Bool.and_eq_true, decide_eq_true_eq, bne_iff_ne] at isNumber
    obtain ⟨⟨lower, -⟩, different⟩ := isNumber
    refine Nat.lt_of_le_of_ne lower fun same => different ?_
    exact (Char.toNat_inj.mp (show '0'.toNat = first.toNat from same)).symm
  rw [List.foldl_cons]
  omega

theorem reference_follows (mirrored : Mirrored setting 0 alone joined)
    (isRest : alone.rest = '\\' :: escaped :: rest) (isDigit : escaped.isDigit)
    (isOthers : joined.rest = '\\' :: others) :
    Follows setting.excused numberedReference { alone with rest := escaped :: rest }
      numberedReference { joined with rest := others } fun number after other otherAfter =>
        other = shiftNumber setting.offset number ∧ Mirrored setting 0 after otherAfter := by
  have same := @Setting.takeWhile_text setting 0 Char.isDigit
    (fun _ => Passes.isPlain_of_isDigit) rfl
  refine numberedReference_follows fun number behind isNumber => ?_
  by_cases isZero : escaped = '0'
  · subst isZero
    obtain ⟨isOther, passed⟩ := mirrored.pass isRest (.escape (by decide))
    obtain rfl : others = '0' :: setting.text 0 rest := by simpa [isOthers] using isOther
    have stops : rest.takeWhile Char.isDigit = [] := by
      have isPortable := mirrored.isPortable
      rw [isRest] at isPortable
      simp only [portable, reduceIte, Pattern.hasPortableEscape, Bool.and_eq_true] at isPortable
      cases rest with
      | nil => rfl
      | cons digit rest => simpa [List.takeWhile_cons] using isPortable.1
    have isFirst : decimal? ('0' :: rest) = some (0, rest) :=
      (decimal?_toDigits 0 stops).trans (if_neg (by decide))
    obtain ⟨rfl, rfl⟩ : 0 = number ∧ rest = behind := by simpa [isFirst] using isNumber
    exact ⟨decimal?_toDigits 0 ((same rest).1.trans stops), passed⟩
  · have isReference : escaped.isDigit && escaped != '0' := by simp [isDigit, isZero]
    obtain ⟨isOther, passed⟩ := mirrored.pass isRest (.reference isReference)
    simp only [decimal?, Option.ite_none_left_eq_some, Option.some.injEq, Prod.mk.injEq,
      Bool.or_eq_true, not_or, decide_eq_true_eq, Nat.not_le] at isNumber
    obtain ⟨⟨-, fits⟩, isValue, rfl⟩ := isNumber
    have isReferenceNumber : Pattern.Token.referenceNumber
        ((escaped :: rest).takeWhile Char.isDigit) = number := by
      rw [Pattern.Token.referenceNumber, if_pos fits, isValue]
    have isPositive : number ≠ 0 := by
      rw [← isValue, List.takeWhile_cons_of_pos isDigit]
      exact value_ne_zero isReference _
    rw [isReferenceNumber] at isOther
    obtain rfl := (List.cons.inj (isOthers.symm.trans isOther)).2
    have isShifted : shiftNumber setting.offset number = number + setting.offset := by
      simp [shiftNumber, isPositive]
    rw [isShifted]
    exact ⟨decimal?_toDigits _
      ((same _).1.trans (takeWhile_dropWhile Char.isDigit (escaped :: rest))), passed⟩

theorem escape_follows (inBracket : Bool) (isRest : alone.rest = escaped :: rest)
    (isOther : joined.rest = escaped :: setting.text brackets rest)
    (passed : Mirrored setting brackets { alone with rest }
      { joined with rest := setting.text brackets rest }) (noNumber : escaped.isDigit = false)
    (noName : inBracket = false → escaped ≠ 'k')
    (hasName : escaped = 'p' ∨ escaped = 'P' → Pattern.hasPlainProperty rest) :
    EscapesAlike setting brackets (escape inBracket) alone joined := by
  have sameBrace := @head?_text_eq_some setting brackets '\x7b' rfl (by decide) rest
  simp only [EscapesAlike, Follows, escape, Settles.bind_iff, Settles.get_iff, isRest, isOther]
  split
  case h_1 =>
    cases inBracket with
    | true => simp [Escape.rename, passed]
    | false => exact absurd rfl (noName rfl)
  case h_4 | h_5 =>
    cases inBracket <;> by_cases isBrace : rest.head? = some '\x7b' <;>
      simp [Escape.rename, Node.rename, passed, sameBrace, isBrace]
  case h_16 | h_17 | h_18 =>
    simp only [Settles.bind_iff, Settles.set_iff]
    exact charCode_follows _ passed
  case h_19 | h_20 =>
    simp only [Settles.bind_iff, Settles.set_iff]
    exact property_follows _ passed (hasName (by simp))
  case h_30 =>
    simp only [noNumber, Bool.false_eq_true, reduceIte]
    split <;> simp [Escape.rename, passed]
  all_goals
    simp [Settles.ite_iff, Escape.rename, Node.rename, passed]

/-! ## Bracket expressions -/

theorem escape_of_isDigit (isRest : state.rest = escaped :: rest) (isDigit : escaped.isDigit)
    (inBracket : Bool) :
    (escape inBracket).run state =
      ((fun number => Escape.node (.reference number)) <$> numberedReference).run state := by
  have opens (next : ReadState → Reading Escape) :
      (get >>= next).run state = (next state).run state := rfl
  rw [escape, opens, isRest]
  simp only
  split
  case h_30 =>
    rw [if_pos isDigit, map_eq_pure_bind]
  all_goals cases isDigit

theorem escape_iff_of_isDigit {property : Escape → ReadState → Prop}
    (isRest : state.rest = escaped :: rest) (isDigit : escaped.isDigit) (inBracket : Bool) :
    Settles excused (escape inBracket) state property ↔
      Settles excused numberedReference state fun number after =>
        property (.node (.reference number)) after := by
  rw [← @Settles.map_iff _ _ _ numberedReference excused property, Settles,
    escape_of_isDigit isRest isDigit inBracket]
  rfl

theorem bracketTokens_follows (fuel otherFuel : Nat) (newestFirst : List BracketToken)
    (mirrored : Mirrored setting (brackets + 1) alone joined) :
    Follows setting.excused (bracketTokens fuel (brackets + 1) newestFirst) alone
      (bracketTokens otherFuel (brackets + 1) newestFirst) joined
      fun tokens after others otherAfter =>
        others = tokens ∧ Mirrored setting 0 after otherAfter := by
  induction fuel generalizing otherFuel brackets newestFirst alone joined with
  | zero => simp [Follows, bracketTokens]
  | succ fuel ih =>
    cases otherFuel with
    | zero => exact .of_excused rfl mirrored.unreadable
    | succ otherFuel =>
      cases isRest : alone.rest with
      | nil => simp [Follows, bracketTokens, isRest]
      | cons char rest =>
        by_cases isBackslash : char = '\\'
        · subst isBackslash
          cases rest with
          | nil => simp [Follows, bracketTokens, isRest, escape]
          | cons escaped rest =>
            obtain ⟨isOther, passed⟩ := mirrored.pass isRest .innerEscape
            simp only [bracketTokens]
            refine .get_bind ?_
            simp only [isRest, isOther, List.cons_append, List.nil_append]
            refine .set_bind ?_
            by_cases isDigit : escaped.isDigit
            · rw [Follows, Settles.bind_iff, escape_iff_of_isDigit rfl isDigit]
              refine ((numberedReference_proceeds _).excuse ?_).imp (by simp)
              exact fun _ isLocal isDeep => absurd isDeep isLocal.2
            have isPortable := mirrored.isPortable
            simp only [isRest, portable, reduceIte, Bool.and_eq_true] at isPortable
            have escapes : EscapesAlike setting (brackets + 1) (escape true)
                { alone with rest := escaped :: rest }
                { joined with rest := escaped :: setting.text (brackets + 1) rest } :=
              escape_follows true rfl rfl passed (by simpa using isDigit) (by simp)
                (by rintro (rfl | rfl) <;> exact isPortable.1)
            refine escapes.bind ?_
            rintro found after _ otherAfter ⟨rfl, onward⟩
            cases found with
            | char _ | set _ | hexDigit _ => exact ih otherFuel _ onward
            | node inner => simp [Follows]
        by_cases isOpening : char = '['
        · subst isOpening
          have isPortable := mirrored.isPortable
          rw [isRest] at isPortable
          obtain ⟨isOther, passed⟩ := mirrored.pass isRest (.innerOpen isPortable)
          have := ih otherFuel (.plain '[' :: newestFirst) passed
          simpa [Follows, bracketTokens, isRest, isOther] using this
        by_cases isClosing : char = ']'
        · subst isClosing
          obtain ⟨isOther, passed⟩ := mirrored.pass isRest .innerClose
          cases brackets with
          | zero => simpa [Follows, bracketTokens, isRest, isOther] using passed
          | succ brackets =>
            have := ih otherFuel (.plain ']' :: newestFirst) passed
            simpa [Follows, bracketTokens, isRest, isOther] using this
        obtain ⟨isOther, passed⟩ := mirrored.pass isRest
          (.inner (by simp [isBackslash, isOpening, isClosing]))
        have := ih otherFuel (.plain char :: newestFirst) passed
        simpa [Follows, bracketTokens, isRest, isOther, isBackslash, isOpening,
          isClosing] using this

abbrev NodeFollows (setting : Setting) (first second : Reading Node) (alone joined : ReadState) :
    Prop :=
  Follows setting.excused first alone second joined fun node after other otherAfter =>
    other = setting.copy node ∧ Mirrored setting 0 after otherAfter

theorem leadingTokens_behind (rest : List Char) :
    (leadingTokens rest).2 = rest.drop (Pattern.Token.leadingInBracket rest) := by
  fun_cases leadingTokens rest <;> simp [Pattern.Token.leadingInBracket, *]

theorem leadingTokens_text (rest : List Char) :
    leadingTokens (rest.take (Pattern.Token.leadingInBracket rest) ++
        setting.text 1 (rest.drop (Pattern.Token.leadingInBracket rest))) =
      ((leadingTokens rest).1, setting.text 1 (leadingTokens rest).2) := by
  fun_cases leadingTokens rest
  case case1 behind => simp [Pattern.Token.leadingInBracket, leadingTokens]
  case case2 behind isOpen =>
    have isLeading : Pattern.Token.leadingInBracket ('^' :: behind) = 1 := by
      rw [Pattern.Token.leadingInBracket]
      exact isOpen
    rw [isLeading]
    refine leadingTokens.eq_2 _ fun others isText => ?_
    obtain ⟨others, rfl⟩ := setting.starts_of_text isText (by decide)
    exact isOpen others rfl
  case case3 behind => simp [Pattern.Token.leadingInBracket, leadingTokens]
  case case4 noCaretClosed noCaret noClosed =>
    have isLeading : Pattern.Token.leadingInBracket rest = 0 := by
      rw [Pattern.Token.leadingInBracket] <;> assumption
    rw [isLeading]
    refine leadingTokens.eq_4 _ ?_ ?_ ?_ <;> intro others isText <;>
      obtain ⟨others, rfl⟩ := setting.starts_of_text isText (by decide)
    · exact noCaret others rfl
    · exact noCaret others rfl
    · exact noClosed others rfl

theorem bracket_follows (mirrored : Mirrored setting 0 alone joined)
    (isRest : alone.rest = '[' :: rest) (isOthers : joined.rest = '[' :: others) :
    NodeFollows setting bracket bracket { alone with rest } { joined with rest := others } := by
  obtain ⟨isOther, passed⟩ := mirrored.pass isRest .bracket
  rw [← leadingTokens_behind] at passed
  have isLeading : leadingTokens others =
      ((leadingTokens rest).1, setting.text 1 (leadingTokens rest).2) := by
    rw [isOthers, List.cons_append, List.cons.injEq] at isOther
    rw [isOther.2, leadingTokens_text]
  simp only [NodeFollows, bracket]
  refine .get_bind (.set_bind ?_)
  simp only [isLeading, congrArg Flags.ignoreCase mirrored.flags]
  refine (bracketTokens_follows _ _ _ passed).bind ?_
  rintro _ after tokens otherAfter ⟨rfl, onward⟩
  cases Bracket.read alone.flags.ignoreCase tokens with
  | error cause => simp [Follows]
  | ok found => simpa [Follows, Node.rename] using onward

/-! ## Characters and escapes outside brackets -/

theorem literal_follows (char : Char) (mirrored : Mirrored setting 0 alone joined) :
    NodeFollows setting (literal char) (literal char) alone joined := by
  simp only [NodeFollows, Follows, literal, Settles.bind_iff, Settles.get_iff,
    congrArg Flags.ignoreCase mirrored.flags]
  split <;> simp [Node.rename, mirrored]

theorem Mirrored.moved_reference (mirrored : Mirrored setting 0 alone joined)
    (isRest : alone.rest = '\\' :: escaped :: rest) (isDigit : escaped.isDigit)
    (isOthers : joined.rest = '\\' :: others) :
    ∃ first behind, others = first :: behind ∧ first.isDigit := by
  by_cases isZero : escaped = '0'
  · subst isZero
    obtain ⟨isOther, -⟩ := mirrored.pass isRest (.escape (by decide))
    exact ⟨'0', _, (List.cons.inj (isOthers.symm.trans isOther)).2, rfl⟩
  · obtain ⟨isOther, -⟩ := mirrored.pass isRest (.reference (by simp [isDigit, isZero]))
    rw [isOthers, List.cons_append, List.cons.injEq] at isOther
    generalize isNumber : Pattern.Token.referenceNumber _ + setting.offset = number at isOther
    obtain ⟨first, digits, isDigits⟩ := List.exists_cons_of_ne_nil (@Nat.toDigits_ne_nil number 10)
    refine ⟨first, _, by rw [isOther.2, isDigits, List.cons_append], ?_⟩
    have member : first ∈ Nat.toDigits 10 number := by rw [isDigits]; exact List.mem_cons_self
    exact Nat.isDigit_of_mem_toDigits (by decide) (by decide) member

theorem escapedNode_follows (mirrored : Mirrored setting 0 alone joined)
    (isRest : alone.rest = '\\' :: rest) (isOthers : joined.rest = '\\' :: others) :
    NodeFollows setting escapedNode escapedNode { alone with rest }
      { joined with rest := others } := by
  cases rest with
  | nil => simp [NodeFollows, Follows, escapedNode, escape]
  | cons escaped rest =>
    have isPortable := mirrored.isPortable
    simp only [isRest, portable, reduceIte, Bool.and_eq_true] at isPortable
    have escapes : EscapesAlike setting 0 (escape false) { alone with rest := escaped :: rest }
        { joined with rest := others } := by
      by_cases isDigit : escaped.isDigit
      · obtain ⟨first, behind, isFirst, isFirstDigit⟩ :=
          mirrored.moved_reference isRest isDigit isOthers
        refine .of_local ?_ (escape_proceeds false _)
        rw [Ensures, escape_iff_of_isDigit rfl isDigit]
        refine ensures_iff.mpr fun number after isNumber => ?_
        have related := (reference_follows mirrored isRest isDigit isOthers).ensures isNumber
        refine (escape_iff_of_isDigit isFirst isFirstDigit false).mpr (related.imp ?_)
        rintro _ otherAfter ⟨rfl, onward⟩
        exact ⟨rfl, onward⟩
      · obtain ⟨isOther, passed⟩ := mirrored.pass isRest
          (.escape (by simpa using fun isNumber => absurd isNumber isDigit))
        obtain rfl := (List.cons.inj (isOthers.symm.trans isOther)).2
        refine escape_follows false rfl rfl passed (by simpa using isDigit) ?_ ?_
        · rintro - rfl
          simp [Pattern.hasPortableEscape] at isPortable
        · rintro (rfl | rfl) <;> exact isPortable.1
    simp only [NodeFollows, escapedNode]
    refine Follows.bind escapes ?_
    rintro found after _ otherAfter ⟨rfl, onward⟩
    cases found with
    | char char => exact literal_follows char onward
    | set _ | hexDigit _ => simpa [Follows, Escape.rename, Node.rename] using onward
    | node inner => simpa [Follows, Escape.rename] using onward

/-! ## Flags -/

theorem updateFlag?_ignoreBlanks {flags changed : Flags} {letter : Char} {value : Bool}
    (isFlag : Pattern.isFlagLetter letter)
    (isChanged : updateFlag? flags letter value = some changed) :
    changed.ignoreBlanks = flags.ignoreBlanks := by
  unfold updateFlag? at isChanged
  split at isChanged
  case h_5 => cases isFlag
  case h_6 =>
    split at isChanged <;> cases isChanged
    rfl
  all_goals
    cases isChanged
    try rfl

theorem Mirrored.setFlags (mirrored : Mirrored setting brackets alone joined) {flags : Flags}
    (noBlanks : flags.ignoreBlanks = false) :
    Mirrored { setting with flags } brackets { alone with flags } { joined with flags } :=
  { mirrored with isFlags := rfl, flags := rfl, noBlanks }

/-- What was left behind the hyphen in front of flags, in a source and in a longer pattern: the
two are as far from it. -/
def SameHyphen (alone joined : List Char) (afterHyphen otherHyphen : Option Nat) : Prop :=
  ∃ longer shorter, joined.length + shorter = alone.length + longer ∧
    otherHyphen.map (· + shorter) = afterHyphen.map (· + longer)

namespace SameHyphen

variable {rest others : List Char} {first second : Char} {afterHyphen otherHyphen : Option Nat}

theorem none (rest others : List Char) : SameHyphen rest others none none :=
  ⟨others.length, rest.length, Nat.add_comm _ _, rfl⟩

theorem tail (same : SameHyphen (first :: rest) (second :: others) afterHyphen otherHyphen) :
    SameHyphen rest others afterHyphen otherHyphen := by
  obtain ⟨longer, shorter, lengths, hyphens⟩ := same
  simp only [List.length_cons] at lengths
  exact ⟨longer, shorter, by omega, hyphens⟩

theorem here (same : SameHyphen (first :: rest) (second :: others) afterHyphen otherHyphen) :
    SameHyphen rest others (some rest.length) (some others.length) := by
  obtain ⟨longer, shorter, lengths, -⟩ := same
  simp only [List.length_cons] at lengths
  refine ⟨longer, shorter, by omega, congrArg some ?_⟩
  show others.length + shorter = rest.length + longer
  omega

theorem isSome (same : SameHyphen rest others afterHyphen otherHyphen) :
    otherHyphen.isSome = afterHyphen.isSome := by
  obtain ⟨longer, shorter, -, hyphens⟩ := same
  simpa using congrArg Option.isSome hyphens

theorem eq_some_iff (same : SameHyphen rest others afterHyphen otherHyphen) :
    otherHyphen = some others.length ↔ afterHyphen = some rest.length := by
  obtain ⟨longer, shorter, lengths, hyphens⟩ := same
  cases afterHyphen <;> cases otherHyphen <;> simp at hyphens ⊢
  omega

end SameHyphen

theorem flags_follows {whole otherWhole fuel otherFuel : Nat} {afterHyphen otherHyphen : Option Nat}
    (mirrored : Mirrored setting 0 alone joined)
    (isScoped : (alone.rest.dropWhile Pattern.isFlagLetter).head? = some ':')
    (sameHyphen : SameHyphen alone.rest joined.rest afterHyphen otherHyphen) :
    Follows setting.excused (flags whole fuel afterHyphen) alone
      (flags otherWhole otherFuel otherHyphen) joined fun isGroup after isOtherGroup otherAfter =>
        isGroup = true ∧ isOtherGroup = true ∧
          ∃ changed, Mirrored { setting with flags := changed } 0 after otherAfter := by
  induction fuel generalizing setting otherFuel afterHyphen otherHyphen alone joined with
  | zero => simp [Follows, flags]
  | succ fuel ih =>
    cases otherFuel with
    | zero => exact .of_excused rfl mirrored.unreadable
    | succ otherFuel =>
      refine Follows.bind (skipBlanks_follows mirrored) ?_
      rintro _ after _ otherAfter ⟨isAfter, isOtherAfter⟩
      rw [isAfter, isOtherAfter]
      cases isRest : alone.rest with
      | nil => simp [isRest] at isScoped
      | cons char rest =>
        rw [isRest] at isScoped
        by_cases isFlag : Pattern.isFlagLetter char
        · have isLetter : isPlain char ∧ char ≠ ')' ∧ char ≠ ':' := by
            simp only [Pattern.isFlagLetter, List.contains_eq_mem, List.mem_cons,
              List.not_mem_nil, or_false, decide_eq_true_eq] at isFlag
            rcases isFlag with rfl | rfl | rfl | rfl | rfl | rfl <;> decide
          obtain ⟨isOther, passed⟩ := mirrored.pass_char isRest isLetter.1
          rw [isRest, isOther] at sameHyphen
          have scopedBehind : (rest.dropWhile Pattern.isFlagLetter).head? = some ':' := by
            simpa [isFlag] using isScoped
          by_cases isHyphen : char = '-'
          · subst isHyphen
            simp only [Follows, Settles.bind_iff, Settles.get_iff, isRest, isOther,
              sameHyphen.isSome]
            split
            · simp
            · simp only [Settles.bind_iff, Settles.set_iff]
              exact ih passed scopedBehind sameHyphen.here
          · have sameFlags : updateFlag? joined.flags char otherHyphen.isNone =
                updateFlag? alone.flags char afterHyphen.isNone := by
              rw [mirrored.flags, ← Option.not_isSome, ← Option.not_isSome, sameHyphen.isSome]
            simp only [Follows, Settles.bind_iff, Settles.get_iff, isRest, isOther]
            split
            case h_5 letter behind _ _ _ isLetterRest =>
              obtain ⟨rfl, rfl⟩ := List.cons.inj isLetterRest
              cases isChanged : updateFlag? alone.flags char afterHyphen.isNone with
              | none => simp [isChanged]
              | some changed =>
                have noBlanks := updateFlag?_ignoreBlanks isFlag isChanged
                rw [mirrored.noBlanks] at noBlanks
                simp only [Settles.bind_iff, Settles.set_iff, sameFlags, isChanged]
                exact @ih { setting with flags := changed } _ _ _ _ _
                  (passed.setFlags noBlanks) scopedBehind sameHyphen.tail
            all_goals simp_all
        · obtain rfl : char = ':' := by simpa [isFlag] using isScoped
          obtain ⟨isOther, passed⟩ := mirrored.pass_char isRest rfl
          rw [isRest, isOther] at sameHyphen
          simp only [Follows, Settles.bind_iff, Settles.get_iff, isRest, isOther,
            sameHyphen.eq_some_iff]
          split
          · simp
          · simpa using ⟨setting.flags, passed⟩

end Highlighter.Regex.Reading

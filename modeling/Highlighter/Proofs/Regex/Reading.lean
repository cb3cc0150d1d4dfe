import Highlighter.Proofs.Regex.Matching
import Highlighter.Proofs.Success

/-!
# Steps of reading

What a step of reading ensures, and what the steps that go no deeper do: they leave an end of what
there was, open no group, and refer to open groups only.
-/
namespace Highlighter.Regex
namespace Node

mutual

def references : Node → List Nat
  | .concat nodes => referencesOf nodes
  | .alternation nodes => referencesOf nodes
  | .group _ node => references node
  | .look _ _ node => references node
  | .repetition node _ _ _ => references node
  | .reference number => [number]
  | .atomic node => references node
  | .groupMatched number => [number]
  | .conditional condition whenTrue whenFalse =>
    references condition ++ references whenTrue ++ references whenFalse
  | _ => []

def referencesOf : List Node → List Nat
  | [] => []
  | node :: nodes => references node ++ referencesOf nodes

end

/-- A node has no groups and refers to groups up to a number only. -/
def IsPlain (bound : Nat) (node : Node) : Prop :=
  node.groups = [] ∧ ∀ number ∈ node.references, number ≤ bound

end Node

namespace Reading

variable {α β : Type} {state : ReadState}

variable {action yes no : Reading α} {cause : PatternError} {change : ReadState → ReadState}
  {value : α} {next : α → Reading β} {condition : Prop} {chars : List Char} {closing : Char}
  {relative : Bool}

/-! ## What a step of reading comes to -/

def Settles (excused : PatternError → Prop) (action : Reading α) (state : ReadState)
    (property : α → ReadState → Prop) : Prop :=
  match action.run state with
  | .ok (value, after) => property value after
  | .error cause => excused cause

namespace Settles

variable {excused : PatternError → Prop} {property other : α → ReadState → Prop} {after : ReadState}

theorem of_ok (success : action.run state = .ok (value, after)) :
    Settles excused action state property ↔ property value after := by
  rw [Settles, success]

theorem of_error (fails : action.run state = .error cause) :
    Settles excused action state property ↔ excused cause := by
  rw [Settles, fails]

theorem imp (settles : Settles excused action state property)
    (weaker : ∀ ⦃value : α⦄ ⦃after : ReadState⦄, property value after → other value after) :
    Settles excused action state other := by
  cases result : action.run state with
  | error cause => exact (of_error result).mpr ((of_error result).mp settles)
  | ok found => exact (of_ok result).mpr (weaker ((of_ok result).mp settles))

theorem ensures (settles : Settles excused action state property)
    (success : action.run state = .ok (value, after)) : property value after :=
  (of_ok success).mp settles

@[simp]
theorem pure_iff :
    Settles excused (pure value) state property ↔ property value state :=
  Iff.rfl

@[simp]
theorem bind_iff {property : β → ReadState → Prop} :
    Settles excused (action >>= next) state property ↔
      Settles excused action state fun value after =>
        Settles excused (next value) after property := by
  cases result : action.run state with
  | error cause =>
    have fails : (action >>= next).run state = .error cause := by
      rw [StateT.run_bind, result]
      rfl
    rw [of_error result, of_error fails]
  | ok found =>
    have goesOn : (action >>= next).run state = (next found.1).run found.2 := by
      rw [StateT.run_bind, result]
      rfl
    rw [of_ok result, Settles, Settles, goesOn]

@[simp]
theorem map_iff {property : β → ReadState → Prop} {change : α → β} :
    Settles excused (change <$> action) state property ↔
      Settles excused action state fun value after => property (change value) after := by
  rw [map_eq_pure_bind, bind_iff]
  simp only [pure_iff]

@[simp]
theorem throw_iff :
    Settles excused (throw cause : Reading α) state property ↔ excused cause :=
  Iff.rfl

theorem ite_iff [Decidable condition] :
    Settles excused (if condition then yes else no) state property ↔
      (condition → Settles excused yes state property) ∧
        (¬ condition → Settles excused no state property) := by
  split <;> simp [*]

@[simp]
theorem get_iff {property : ReadState → ReadState → Prop} :
    Settles excused get state property ↔ property state state :=
  Iff.rfl

@[simp]
theorem set_iff {property : PUnit → ReadState → Prop} {next : ReadState} :
    Settles excused (set next) state property ↔ property ⟨⟩ next :=
  Iff.rfl

@[simp]
theorem modify_iff {property : PUnit → ReadState → Prop} :
    Settles excused (modify change) state property ↔ property ⟨⟩ (change state) :=
  Iff.rfl

@[simp]
theorem true_iff : Settles (fun _ => True) action state (fun _ _ => True) ↔ True := by
  unfold Settles
  split <;> rfl

@[simp]
theorem lift_ok_iff :
    Settles excused (liftM (Except.ok value : Except PatternError α)) state property ↔
      property value state :=
  Iff.rfl

@[simp]
theorem lift_error_iff :
    Settles excused (liftM (Except.error cause : Except PatternError α)) state property ↔
      excused cause :=
  Iff.rfl

end Settles

/-- Whatever the cause of a failure, it is excused. -/
abbrev Ensures (action : Reading α) (state : ReadState) (property : α → ReadState → Prop) : Prop :=
  Settles (fun _ => True) action state property

theorem ensures_iff {property : α → ReadState → Prop} :
    Ensures action state property ↔ ∀ ⦃value : α⦄ ⦃after : ReadState⦄,
      action.run state = .ok (value, after) → property value after := by
  refine ⟨fun ensures _ _ => Settles.ensures ensures, fun holds => ?_⟩
  cases result : action.run state with
  | error cause => exact (Settles.of_error result).mpr trivial
  | ok found => exact (Settles.of_ok result).mpr (holds result)

/-! ## Steps that go no deeper -/

/-- A pattern is wrong by itself, not for lack of fuel and not because it is too deep. -/
def IsLocal (cause : PatternError) : Prop :=
  cause ≠ .unreadable ∧ cause ≠ .nestedTooDeep

/-- An end of what there was is left, no group is opened, and what is referred to from here on is
an open group. -/
structure Keeps (state after : ReadState) : Prop where
  rest : after.rest <:+ state.rest
  opened : after.opened = state.opened
  referenced : ∀ number ∈ after.referenced, number ∈ state.referenced ∨ number ≤ state.opened

namespace Keeps

variable {after middle : ReadState}

@[simp]
theorem refl (state : ReadState) : Keeps state state :=
  ⟨List.suffix_rfl, rfl, fun _ => .inl⟩

@[simp]
theorem same_iff {rest : List Char} {flags : Flags} {names : List (List Char × Nat)}
    {numbered : Bool} {referenceBound : Nat} :
    Keeps state
      { rest, flags, opened := state.opened, names, numbered, referenced := state.referenced
        referenceBound } ↔ rest <:+ state.rest :=
  ⟨Keeps.rest, fun isEnd => ⟨isEnd, rfl, fun _ => .inl⟩⟩

theorem trans (first : Keeps state middle) (second : Keeps middle after) : Keeps state after where
  rest := second.rest.trans first.rest
  opened := second.opened.trans first.opened
  referenced := by
    intro number member
    rcases second.referenced number member with isEarlier | isOpen
    · exact first.referenced number isEarlier
    · exact .inr (first.opened ▸ isOpen)

end Keeps

/-- A step goes no deeper: it fails for a cause of its own, or comes to something good. -/
abbrev Proceeds (action : Reading α) (state : ReadState) (good : α → Prop) : Prop :=
  Settles IsLocal action state fun value after => Keeps state after ∧ good value

theorem Proceeds.behind {next : ReadState} {good : α → Prop} (keeps : Keeps state next)
    (proceeds : Proceeds action next good) :
    Settles IsLocal action next fun value after => Keeps state after ∧ good value :=
  proceeds.imp fun _ _ found => ⟨keeps.trans found.1, found.2⟩

theorem afterBlanks_proceeds (blanks : Bool) (gap : Gap) (chars : List Char) :
    (∃ rest, afterBlanks blanks gap chars = .ok rest ∧ rest <:+ chars) ∨
      afterBlanks blanks gap chars = .error .unclosedGroup := by
  fun_induction afterBlanks blanks gap chars
  all_goals first
    | exact .inr rfl
    | exact .inl ⟨_, rfl, List.suffix_rfl⟩
    | rename_i ih
      rcases ih with ⟨rest, isRest, isEnd⟩ | fails
      · refine .inl ⟨rest, isRest, isEnd.trans ?_⟩
        first
          | exact List.suffix_append [_] _
          | exact List.suffix_append [_, _] _
          | exact List.suffix_append [_, _, _] _
      · exact .inr fails

theorem skipBlanks_proceeds (state : ReadState) : Proceeds skipBlanks state fun _ => True := by
  simp only [Proceeds, skipBlanks, Settles.bind_iff, Settles.get_iff]
  rcases afterBlanks_proceeds state.flags.ignoreBlanks .between state.rest with
    ⟨rest, isRest, isEnd⟩ | fails
  · simpa [isRest] using isEnd
  · simp [fails, IsLocal]

theorem accept_proceeds (expected : Char) (state : ReadState) :
    Settles IsLocal (accept expected) state fun accepted after =>
      Keeps state after ∧ (accepted = true → after.rest.length < state.rest.length) := by
  simp only [accept, Settles.bind_iff, Settles.get_iff]
  split
  · rename_i isRest
    split <;> simp [isRest]
  · simp

theorem close_proceeds (state : ReadState) :
    Settles IsLocal close state fun _ after =>
      state.rest = ')' :: after.rest ∧ Keeps state after := by
  simp only [close, accept, Settles.bind_iff, Settles.get_iff]
  cases isRest : state.rest with
  | nil => simp [IsLocal]
  | cons char rest =>
    by_cases isClosing : char = ')'
    · simp [isRest, isClosing]
    · simp [isRest, isClosing, IsLocal]

theorem afterBlanks_suffix {blanks : Bool} {gap : Gap} {rest : List Char}
    (isRest : afterBlanks blanks gap chars = .ok rest) : rest <:+ chars := by
  rcases afterBlanks_proceeds blanks gap chars with ⟨other, isOther, isEnd⟩ | fails
  · cases isRest.symm.trans isOther
    exact isEnd
  · cases isRest.symm.trans fails

/-- What is left behind bounds: they are made up of digits, marks and blanks. -/
structure Skips (blanks : Bool) (left : List Char → List Char → Prop) : Prop where
  refl : ∀ chars, left chars chars
  trans : ∀ {chars between rest}, left chars between → left between rest → left chars rest
  digits : ∀ chars, left chars (chars.dropWhile Char.isDigit)
  mark : ∀ {char rest}, char ∈ [',', '\x7d'] → left (char :: rest) rest
  gap : ∀ {chars rest}, afterBlanks blanks .between chars = .ok rest → left chars rest

theorem skips_suffix (blanks : Bool) : Skips blanks fun chars rest => rest <:+ chars where
  refl _ := List.suffix_rfl
  trans first second := second.trans first
  digits _ := List.dropWhile_suffix _
  mark _ := List.suffix_cons _ _
  gap := afterBlanks_suffix

section Skips

variable {blanks : Bool} {left : List Char → List Char → Prop} {chars : List Char}
  (skips : Skips blanks left) {found : Nat × List Char}

include skips

theorem decimal?_left (isFound : decimal? chars = some found) : left chars found.2 := by
  simp only [decimal?, Option.ite_none_left_eq_some, Option.some.injEq] at isFound
  rw [← isFound.2]
  exact skips.digits chars

theorem leastBound_left (isFound : leastBound chars = .ok found) : left chars found.2 := by
  unfold leastBound at isFound
  split at isFound
  · cases isFound
    exact skips.refl chars
  · cases isNumber : decimal? chars with
    | none => simp [isNumber] at isFound
    | some number =>
      obtain rfl : number = found := by simpa [isNumber] using isFound
      exact decimal?_left skips isNumber

theorem greatestBound_left (chars : List Char) : left chars (greatestBound chars).2 := by
  unfold greatestBound
  cases isNumber : decimal? chars with
  | none => exact skips.refl chars
  | some number => exact decimal?_left skips isNumber

theorem behindBounds_left {rest : List Char} (isRest : behindBounds chars = .ok rest) :
    left chars rest := by
  unfold behindBounds at isRest
  split at isRest
  · cases isRest
    exact skips.mark (by simp)
  · cases isRest

theorem bounds_left {found : Nat × Option Nat × List Char}
    (isFound : bounds blanks chars = .ok found) : left chars found.2.2 := by
  simp only [bounds, Success.bind_eq_ok] at isFound
  obtain ⟨inside, isInside, least, isLeast, behindLeast, isBehind, isFound⟩ := isFound
  have behind := skips.trans (skips.gap isInside)
    (skips.trans (leastBound_left skips isLeast) (skips.gap isBehind))
  split at isFound
  · rename_i isComma
    simp only [Success.bind_eq_ok] at isFound
    obtain ⟨atMost, isAtMost, behindMost, isBehindMost, rest, isRest, isFound⟩ := isFound
    cases isFound
    obtain ⟨others, rfl⟩ := List.head?_eq_some_iff.mp isComma
    have most := skips.trans (skips.gap isAtMost)
      (skips.trans (greatestBound_left skips atMost) (skips.gap isBehindMost))
    exact skips.trans behind (skips.trans (skips.mark (by simp))
      (skips.trans most (behindBounds_left skips isRest)))
  · simp only [Success.bind_eq_ok] at isFound
    obtain ⟨rest, isRest, isFound⟩ := isFound
    cases isFound
    exact skips.trans behind (behindBounds_left skips isRest)

end Skips

theorem quantifier?_proceeds (state : ReadState) :
    Proceeds quantifier? state fun _ => True := by
  simp only [Proceeds, quantifier?, Settles.bind_iff, Settles.get_iff]
  split
  case h_4 inside isRest =>
    split
    · rename_i isBounds
      simpa [isRest] using (bounds_left (skips_suffix _) isBounds).trans (List.suffix_cons _ _)
    · simp
  all_goals simp [*]

/-! ## References -/

theorem referTo_proceeds (number : Nat) (state : ReadState) :
    Proceeds (referTo number) state (· ≤ state.opened) := by
  simp only [Proceeds, referTo, Settles.bind_iff, Settles.get_iff]
  split
  · simp [IsLocal]
  · rename_i isOpen
    have isOpen := Nat.le_of_not_lt isOpen
    simp only [Settles.bind_iff, Settles.set_iff, Settles.pure_iff]
    exact ⟨⟨List.suffix_rfl, rfl, List.forall_mem_cons.mpr ⟨.inr isOpen, fun _ => .inl⟩⟩, isOpen⟩

theorem name?_suffix {found : List Char × List Char}
    (isFound : name? closing relative chars = some found) : found.2 <:+ chars := by
  unfold name? at isFound
  split at isFound
  rename_i sign body isSplit
  have isBody : body <:+ chars := by
    split at isSplit
    · split at isSplit <;> cases isSplit
      · exact List.suffix_cons _ _
      · exact List.suffix_rfl
    · cases isSplit
      exact List.suffix_rfl
  have dropped : body.dropWhile isNameChar <:+ body := List.dropWhile_suffix _
  simp only at isFound
  split at isFound
  · rename_i isRest
    rw [isRest] at dropped
    obtain ⟨-, isFound⟩ := Option.ite_none_right_eq_some.mp isFound
    cases isFound
    exact ((List.suffix_cons _ _).trans dropped).trans isBody
  · cases isFound

theorem namedReference_proceeds (isEnd : chars <:+ state.rest) :
    Proceeds (namedReference closing relative chars) state (· ≤ state.opened) := by
  simp only [Proceeds, namedReference, Settles.bind_iff, Settles.get_iff]
  split
  · simp [IsLocal]
  · rename_i name rest isName
    have refers (number : Nat) := (referTo_proceeds number { state with rest }).behind
      (Keeps.same_iff.mpr ((name?_suffix isName).trans isEnd))
    simp only [Settles.bind_iff, Settles.set_iff]
    split
    · exact refers _
    · split
      · simp [IsLocal]
      · exact Settles.ite_iff.mpr ⟨fun _ => by simp [IsLocal], fun _ => refers _⟩

theorem quotedReference_proceeds (opening closing : Char) (state : ReadState) :
    Proceeds (quotedReference opening closing) state (· ≤ state.opened) := by
  simp only [Proceeds, quotedReference, Settles.bind_iff, Settles.get_iff]
  split
  · rename_i isRest
    split
    · exact namedReference_proceeds (by simp [isRest])
    · simp [IsLocal]
  · simp [IsLocal]

theorem numberedReference_proceeds (state : ReadState) :
    Proceeds numberedReference state (· ≤ state.opened) := by
  simp only [Proceeds, numberedReference, Settles.bind_iff, Settles.get_iff]
  split
  · rename_i number rest isNumber
    split
    · simp only [Settles.bind_iff, Settles.set_iff]
      exact (referTo_proceeds number _).behind
        (Keeps.same_iff.mpr (decimal?_left (skips_suffix true) isNumber))
    · simp [IsLocal]
  · simp [IsLocal]

/-! ## Escapes -/

@[simp]
def Escape.IsPlain (bound : Nat) : Escape → Prop
  | .node inner => inner.IsPlain bound
  | _ => True

theorem charCode_proceeds (count : Nat) (state : ReadState) :
    Proceeds (charCode count) state (Escape.IsPlain state.opened) := by
  have codes (digits : List Char) :
      (∃ char, charOfCode digits = .ok char) ∨
        charOfCode digits = .error .invalidCharacterCode := by
    by_cases isValid : (digits.foldl
        (fun code digit => 16 * code + (hexValue? digit).getD 0) 0).isValidChar
    · exact .inl ⟨_, dif_pos isValid⟩
    · exact .inr (dif_neg isValid)
  simp only [Proceeds, charCode, Settles.bind_iff, Settles.get_iff]
  split
  · rcases codes (state.rest.take count) with ⟨char, isChar⟩ | fails
    · simp [isChar, List.drop_suffix]
    · simp [fails, IsLocal]
  · split
    · rename_i inside isRest
      split
      · rename_i rest isBehind
        have dropped : inside.dropWhile (fun char => (hexValue? char).isSome) <:+ inside :=
          List.dropWhile_suffix _
        rw [isBehind] at dropped
        split
        · simp [IsLocal]
        · rcases codes (inside.takeWhile fun char => (hexValue? char).isSome) with
            ⟨char, isChar⟩ | fails
          · simpa [isChar, isRest] using
              ((List.suffix_cons _ _).trans dropped).trans (List.suffix_cons _ _)
          · simp [fails, IsLocal]
      · simp [IsLocal]
    · simp [IsLocal]

theorem property_proceeds (negated : Bool) (state : ReadState) :
    Proceeds (property negated) state (Escape.IsPlain state.opened) := by
  simp only [Proceeds, property, Settles.bind_iff, Settles.get_iff]
  split
  · rename_i inside isRest
    split
    · rename_i rest isBehind
      have dropped : inside.dropWhile (fun char => char != '\x7d') <:+ inside :=
        List.dropWhile_suffix _
      rw [isBehind] at dropped
      simp only [Settles.bind_iff, Settles.pure_iff]
      split
      · simp [IsLocal]
      · simpa [isRest] using
          ((List.suffix_cons _ _).trans dropped).trans (List.suffix_cons _ _)
    · simp [IsLocal]
  · rename_i isRest
    simp only [Settles.bind_iff, Settles.pure_iff]
    split
    · simp [IsLocal]
    · simp [isRest]
  · simp [IsLocal]

theorem escape_proceeds (inBracket : Bool) (state : ReadState) :
    Proceeds (escape inBracket) state (Escape.IsPlain state.opened) := by
  simp only [Proceeds, escape, Settles.bind_iff, Settles.get_iff]
  split
  · simp [IsLocal]
  · rename_i char rest isRest
    have entered : Keeps state { state with rest } :=
      Keeps.same_iff.mpr (by simp [isRest])
    have refers {number : Nat} {after : ReadState}
        (found : Keeps state after ∧ number ≤ state.opened) :
        Keeps state after ∧ (Escape.node (.reference number)).IsPlain state.opened :=
      ⟨found.1, rfl, List.forall_mem_singleton.mpr found.2⟩
    split
    case h_1 =>
      simp only [Settles.ite_iff, Settles.bind_iff, Settles.set_iff, Settles.pure_iff]
      refine ⟨fun _ => by simp [isRest], fun _ => ?_⟩
      split <;> simp only [Settles.bind_iff, Settles.pure_iff] <;>
        exact ((quotedReference_proceeds _ _ _).behind entered).imp fun _ _ => refers
    case h_16 | h_17 | h_18 =>
      simp only [Settles.bind_iff, Settles.set_iff]
      exact (charCode_proceeds _ _).behind entered
    case h_19 | h_20 =>
      simp only [Settles.bind_iff, Settles.set_iff]
      exact (property_proceeds _ _).behind entered
    case h_30 =>
      simp only [Settles.ite_iff, Settles.bind_iff, Settles.set_iff, Settles.pure_iff,
        Settles.throw_iff]
      refine ⟨fun _ => (numberedReference_proceeds state).imp fun _ _ => refers, fun _ => ⟨?_, ?_⟩⟩
      · simp [IsLocal]
      · simp [isRest]
    all_goals simp [Settles.ite_iff, IsLocal, isRest, Node.IsPlain, Node.groups, Node.references]

theorem bracketTokens_proceeds {fuel : Nat} (depth : Nat) (newestFirst : List BracketToken)
    (enough : state.rest.length < fuel) :
    Proceeds (bracketTokens fuel depth newestFirst) state fun _ => True := by
  induction fuel generalizing depth newestFirst state with
  | zero => omega
  | succ fuel ih =>
    -- What is left behind the first character is read with the fuel that is left.
    have onward {char : Char} {rest : List Char} (isRest : state.rest = char :: rest)
        (depth : Nat) (newestFirst : List BracketToken) {after : ReadState}
        (keeps : Keeps { state with rest } after) :
        Settles IsLocal (bracketTokens fuel depth newestFirst) after fun _ last =>
          Keeps state last ∧ True := by
      have fewer : after.rest.length ≤ rest.length := keeps.rest.length_le
      have entered : Keeps state { state with rest } := Keeps.same_iff.mpr (by simp [isRest])
      rw [isRest, List.length_cons] at enough
      exact (ih depth newestFirst (by omega)).behind (entered.trans keeps)
    simp only [Proceeds, bracketTokens, Settles.bind_iff, Settles.get_iff]
    split
    · simp [IsLocal]
    · rename_i rest isRest
      simp only [Settles.bind_iff, Settles.set_iff]
      refine (escape_proceeds true _).imp fun found after keeps => ?_
      split
      · exact onward isRest _ _ keeps.1
      · exact onward isRest _ _ keeps.1
      · exact onward isRest _ _ keeps.1
      · simp [IsLocal]
    · rename_i rest isRest
      exact onward isRest _ _ (.refl _)
    · rename_i rest isRest
      simp only [Settles.ite_iff, Settles.bind_iff, Settles.set_iff, Settles.pure_iff]
      exact ⟨fun _ => by simp [isRest], fun _ => onward isRest _ _ (.refl _)⟩
    · rename_i char rest _ _ _ isRest
      exact onward isRest _ _ (.refl _)

theorem leadingTokens_suffix (chars : List Char) : (leadingTokens chars).2 <:+ chars := by
  fun_cases leadingTokens chars
  · exact List.suffix_append [_, _] _
  · exact List.suffix_cons _ _
  · exact List.suffix_cons _ _
  · exact List.suffix_rfl

abbrev ReadsPlainly (action : Reading Node) (state : ReadState) : Prop :=
  Proceeds action state (Node.IsPlain state.opened)

theorem bracket_proceeds (state : ReadState) : ReadsPlainly bracket state := by
  simp only [ReadsPlainly, bracket, Settles.bind_iff, Settles.get_iff, Settles.set_iff]
  refine ((bracketTokens_proceeds 1 _ (Nat.lt_succ_self _)).behind
    (Keeps.same_iff.mpr (leadingTokens_suffix state.rest))).imp fun tokens after keeps => ?_
  split
  · simpa [Node.IsPlain, Node.groups, Node.references] using keeps
  · simp [IsLocal]

theorem literal_proceeds (char : Char) (state : ReadState) : ReadsPlainly (literal char) state := by
  simp only [ReadsPlainly, literal, Settles.bind_iff, Settles.get_iff]
  split <;> simp [Node.IsPlain, Node.groups, Node.references]

theorem escapedNode_proceeds (state : ReadState) : ReadsPlainly escapedNode state := by
  simp only [ReadsPlainly, escapedNode, Settles.bind_iff]
  refine (escape_proceeds false state).imp fun found after keeps => ?_
  split
  · rw [← keeps.1.opened]
    exact (literal_proceeds _ after).behind keeps.1
  · simpa [Node.IsPlain, Node.groups, Node.references] using keeps
  · simpa [Node.IsPlain, Node.groups, Node.references] using keeps
  · simpa using keeps

theorem flags_proceeds {fuel : Nat} (whole : Nat) (afterHyphen : Option Nat)
    (enough : state.rest.length < fuel) :
    Proceeds (flags whole fuel afterHyphen) state fun _ => True := by
  induction fuel generalizing afterHyphen state with
  | zero => omega
  | succ fuel ih =>
    simp only [Proceeds, flags, Settles.bind_iff]
    refine (skipBlanks_proceeds state).imp fun _ blank skipped => ?_
    rw [Settles.get_iff]
    have fewer := skipped.1.rest.length_le
    have entered {char : Char} {rest : List Char} (isRest : blank.rest = char :: rest)
        (flags : Flags) : Keeps state { blank with rest, flags } :=
      skipped.1.trans (Keeps.same_iff.mpr (by simp [isRest]))
    have onward {char : Char} {rest : List Char} (isRest : blank.rest = char :: rest)
        (afterHyphen : Option Nat) (flags : Flags) :
        Settles IsLocal (Reading.flags whole fuel afterHyphen) { blank with rest, flags }
          fun _ last => Keeps state last ∧ True := by
      rw [isRest, List.length_cons] at fewer
      exact (ih afterHyphen (by simp only; omega)).behind (entered isRest flags)
    split
    · simp [IsLocal]
    · rename_i rest isRest
      simp only [Settles.ite_iff, Settles.bind_iff, Settles.throw_iff, Settles.set_iff]
      exact ⟨fun _ => by simp [IsLocal], fun _ => onward isRest _ _⟩
    · rename_i rest isRest
      simp [Settles.ite_iff, IsLocal, entered isRest]
    · rename_i rest isRest
      simp [Settles.ite_iff, IsLocal, entered isRest]
    · rename_i letter rest _ _ _ isRest
      split
      · exact onward isRest _ _
      · simp [IsLocal]

end Reading
end Highlighter.Regex

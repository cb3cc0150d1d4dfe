import Highlighter.Proofs.Regex.Mirroring

/-!
# Reading a moved source

A portable source is read as a part of a longer pattern in the same steps as alone: the two
readings stay side by side through groups, alternatives and repetitions.  Only where the source
ends and another alternative follows it, the longer pattern is read on.
-/
namespace Highlighter.Regex.Reading

open Pattern (moved groupsIn portable isPlain Passes)

variable {setting : Setting} {alone joined : ReadState} {excused : PatternError → Prop}

/-! ## What stays the same when groups get other numbers -/

theorem isEmpty_rename (map : Nat → Nat) (node : Node) :
    (node.rename map).isEmpty = node.isEmpty := by
  cases node <;> rfl

theorem isRepeatable_rename (map : Nat → Nat) (node : Node) :
    (node.rename map).isRepeatable = node.isRepeatable := by
  cases node <;> rfl

theorem sequence_rename (map : Nat → Nat) (nodes : List Node) :
    sequence (nodes.map (Node.rename map)) = (sequence nodes).rename map := by
  cases nodes with
  | nil => rfl
  | cons first others =>
    cases others with
    | nil => rfl
    | cons second others =>
      simp [sequence, Node.rename, Node.renameEach_eq_map]

/-! ## A source and its copy -/

/-- A longer pattern is nested deeper than the source, and only as deep if it may not fail for
that. -/
structure Reaches (excused : PatternError → Prop) (depth otherDepth : Nat) : Prop where
  deeper : depth ≤ otherDepth
  excused : excused .nestedTooDeep ∨ otherDepth ≤ depth

theorem Reaches.succ {depth otherDepth : Nat} (reaches : Reaches excused depth otherDepth) :
    Reaches excused (depth + 1) (otherDepth + 1) :=
  ⟨Nat.succ_le_succ reaches.deeper, reaches.excused.imp_right Nat.succ_le_succ⟩

/-- The source goes on, or no other alternative follows it. -/
def Setting.Parts (setting : Setting) (alone : ReadState) : Prop :=
  alone.rest = [] → setting.tail.head? ≠ some '|'

/-- Two readings of a node go side by side unless they get to another alternative behind the
source. -/
abbrev ReadsAlikeInside (setting : Setting) (first second : Reading Node)
    (alone joined : ReadState) : Prop :=
  Follows setting.excused first alone second joined fun node after other otherAfter =>
    setting.Parts after →
      other = setting.copy node ∧ Mirrored setting 0 after otherAfter

/-- What is read in so many steps is read alike in the copy of a source. -/
structure Alike (setting : Setting) (fuel otherFuel depth otherDepth : Nat)
    (alone joined : ReadState) : Prop where
  alternatives : ReadsAlikeInside setting (alternatives fuel depth)
    (alternatives otherFuel otherDepth) alone joined
  otherAlternatives : ∀ newestFirst,
    Follows setting.excused (otherAlternatives fuel depth newestFirst) alone
      (otherAlternatives otherFuel otherDepth (newestFirst.map setting.copy)) joined
      fun nodes after others otherAfter => setting.Parts after →
        others = nodes.map setting.copy ∧ Mirrored setting 0 after otherAfter
  branch : ∀ newestFirst,
    NodeFollows setting (branch fuel depth newestFirst)
      (branch otherFuel otherDepth (newestFirst.map setting.copy)) alone joined
  piece : NodeFollows setting (piece fuel depth) (piece otherFuel otherDepth) alone joined
  atom : NodeFollows setting (atom fuel depth) (atom otherFuel otherDepth) alone joined
  group : ∀ {rest others}, alone.rest = '(' :: rest → joined.rest = '(' :: others →
    NodeFollows setting (group fuel depth) (group otherFuel otherDepth) { alone with rest }
      { joined with rest := others }

def AllAlike (fuel otherFuel : Nat) : Prop :=
  ∀ {setting depth otherDepth alone joined}, Reaches setting.excused depth otherDepth →
    Mirrored setting 0 alone joined →
      Alike setting fuel otherFuel depth otherDepth alone joined

theorem allAlike_zero (otherFuel : Nat) : AllAlike 0 otherFuel := fun _ _ =>
  { alternatives := by rw [Reading.alternatives]; exact .throw (by decide)
    otherAlternatives _ := by rw [Reading.otherAlternatives]; exact .throw (by decide)
    branch _ := by rw [Reading.branch]; exact .throw (by decide)
    piece := by rw [Reading.piece]; exact .throw (by decide)
    atom := by rw [Reading.atom]; exact .throw (by decide)
    group _ _ := by rw [Reading.group]; exact .throw (by decide) }

theorem allAlike_exhausted (fuel : Nat) : AllAlike fuel 0 := fun _ mirrored =>
  have excused := mirrored.unreadable
  { alternatives := by rw [Reading.alternatives]; exact .of_excused rfl excused
    otherAlternatives _ := by rw [Reading.otherAlternatives]; exact .of_excused rfl excused
    branch _ := by rw [Reading.branch]; exact .of_excused rfl excused
    piece := by rw [Reading.piece]; exact .of_excused rfl excused
    atom := by rw [Reading.atom]; exact .of_excused rfl excused
    group _ _ := by rw [Reading.group]; exact .of_excused rfl excused }

theorem Follows.of_not_parts {α : Type} {first second : Reading α}
    {related : α → ReadState → α → ReadState → Prop} (another : ¬ setting.Parts alone)
    (stays : Settles IsLocal first alone fun _ after => after.rest = alone.rest) :
    Follows setting.excused first alone second joined fun value after otherValue otherAfter =>
      setting.Parts after → related value after otherValue otherAfter := by
  have isBar : setting.tail.head? = some '|' := by
    by_contra different
    exact another fun _ => different
  refine .of_local (ensures_iff.mpr fun value after isOk => ?_) stays
  have same := stays.ensures isOk
  refine Settles.excuse (ensures_iff.mpr fun _ _ _ parts => ?_) fun cause _ =>
    setting.lenient isBar cause
  exact absurd (fun isRest => parts (same.trans isRest)) another

/-- Behind a parenthesis one group less is left if it opens one. -/
theorem Mirrored.enter {rest others : List Char} (mirrored : Mirrored setting 0 alone joined)
    (isRest : alone.rest = '(' :: rest) (isOthers : joined.rest = '(' :: others) :
    others = setting.text 0 rest ∧ Pattern.hasPortableOpening rest ∧
      Mirrored { setting with total := setting.total - (Pattern.Token.groupOpening rest).1.toNat } 0
        { alone with rest } { joined with rest := others } := by
  have isPortable := mirrored.isPortable
  have isGroups := mirrored.groups
  have isText := setting.text_of_passes (@Passes.opening setting.offset rest)
  rw [isRest, (@Passes.opening setting.offset rest).groups] at isGroups
  simp only [isRest, portable, Char.reduceEq, reduceIte, Bool.and_eq_true] at isPortable
  rw [mirrored.rest, isRest, isText, List.singleton_append, List.cons.injEq] at isOthers
  refine ⟨isOthers.2.symm, isPortable.1, { mirrored with
    rest := isOthers.2.symm
    isPortable := isPortable.2
    groups := ?_
    admits := mirrored.admits.anti (Nat.add_le_add_left (Nat.sub_le _ _) _) }⟩
  change alone.opened + groupsIn 0 rest = setting.total - _
  omega

section Step

variable {fuel otherFuel depth otherDepth : Nat} (all : AllAlike fuel otherFuel)
  (reaches : Reaches setting.excused depth otherDepth) (mirrored : Mirrored setting 0 alone joined)

include all reaches mirrored

theorem alternatives_alike :
    ReadsAlikeInside setting (alternatives (fuel + 1) depth)
      (alternatives (otherFuel + 1) otherDepth) alone joined := by
  simp only [ReadsAlikeInside, alternatives]
  refine ((all reaches mirrored).branch []).bind ?_
  rintro first after _ otherAfter ⟨rfl, onward⟩
  refine ((all reaches onward).otherAlternatives []).bind ?_
  intro others last otherNodes otherLast related
  by_cases parts : setting.Parts last
  · obtain ⟨rfl, finished⟩ := related parts
    cases others with
    | nil =>
      refine .get_bind ?_
      simpa [finished.noNames] using Follows.pure fun _ => ⟨rfl, finished⟩
    | cons second others =>
      refine .pure fun _ => ⟨?_, finished⟩
      simp [Node.rename, Node.renameEach_eq_map]
  · refine .of_not_parts parts ?_
    cases others with
    | nil => simp [Settles.ite_iff, IsLocal]
    | cons second others => simp

theorem otherAlternatives_alike (newestFirst : List Node) :
    Follows setting.excused (otherAlternatives (fuel + 1) depth newestFirst) alone
      (otherAlternatives (otherFuel + 1) otherDepth (newestFirst.map setting.copy)) joined
      fun nodes after others otherAfter => setting.Parts after →
        others = nodes.map setting.copy ∧ Mirrored setting 0 after otherAfter := by
  simp only [otherAlternatives]
  by_cases parts : setting.Parts alone
  swap
  · refine .of_not_parts parts ?_
    have isRest : alone.rest = [] := by
      by_contra goesOn
      exact parts fun isRest => absurd isRest goesOn
    simp [accept, isRest]
  refine (accept_follows mirrored (show isPlain '|' from rfl) parts).bind ?_
  rintro _ after accepted otherAfter ⟨rfl, onward⟩
  cases accepted with
  | false => exact .pure fun _ => ⟨by simp, onward⟩
  | true =>
    refine ((all reaches onward).branch []).bind ?_
    rintro node last _ otherLast ⟨rfl, finished⟩
    exact (all reaches finished).otherAlternatives (node :: newestFirst)

theorem branch_alike (newestFirst : List Node) :
    NodeFollows setting (branch (fuel + 1) depth newestFirst)
      (branch (otherFuel + 1) otherDepth (newestFirst.map setting.copy)) alone joined := by
  simp only [NodeFollows, branch]
  refine (skipBlanks_follows mirrored).bind ?_
  rintro _ after _ otherAfter ⟨isAfter, isOtherAfter⟩
  rw [isAfter, isOtherAfter]
  have ends : sequence (newestFirst.map setting.copy).reverse =
      setting.copy (sequence newestFirst.reverse) := by
    rw [← List.map_reverse, sequence_rename]
  have goesOn : NodeFollows setting
      (piece fuel depth >>= fun node =>
        branch fuel depth (if node.isEmpty then newestFirst else node :: newestFirst))
      (piece otherFuel otherDepth >>= fun node =>
        branch otherFuel otherDepth
          (if node.isEmpty then newestFirst.map setting.copy
          else node :: newestFirst.map setting.copy)) alone joined := by
    refine (all reaches mirrored).piece.bind ?_
    rintro node last _ otherLast ⟨rfl, finished⟩
    rw [isEmpty_rename]
    split
    · exact (all reaches finished).branch newestFirst
    · exact (all reaches finished).branch (node :: newestFirst)
  cases isRest : alone.rest with
  | nil =>
    have isOther := mirrored.joined_rest_nil isRest
    refine .get_bind ?_
    rcases setting.tail_cases with isTail | ⟨others, isTail⟩ | ⟨others, isTail⟩ <;>
      simpa [isRest, isOther, isTail] using Follows.pure ⟨ends, mirrored⟩
  | cons char rest =>
    obtain ⟨others, isOther⟩ := mirrored.joined_rest_cons isRest
    refine .get_bind ?_
    simp only [isRest, isOther]
    by_cases isEnd : char = '|' ∨ char = ')'
    · rcases isEnd with rfl | rfl <;> exact .pure ⟨ends, mirrored⟩
    · rw [not_or] at isEnd
      simpa [isEnd] using goesOn

theorem piece_alike : NodeFollows setting (piece (fuel + 1) depth)
    (piece (otherFuel + 1) otherDepth) alone joined := by
  simp only [NodeFollows, piece]
  refine (all reaches mirrored).atom.bind ?_
  rintro node after _ otherAfter ⟨rfl, onward⟩
  refine (skipBlanks_follows onward).bind ?_
  rintro _ _ _ _ ⟨rfl, rfl⟩
  refine (quantifier?_follows onward).bind ?_
  rintro _ behind found otherBehind ⟨rfl, quantified⟩
  cases found with
  | none => exact .pure ⟨rfl, quantified⟩
  | some bounds =>
    simp only [isRepeatable_rename]
    cases node.isRepeatable with
    | false => exact .throw (by decide)
    | true =>
      simp only [reduceIte]
      refine (skipBlanks_follows quantified).bind ?_
      rintro _ _ _ _ ⟨rfl, rfl⟩
      refine (accept_follows quantified (show isPlain '?' from rfl) fun _ =>
        setting.head?_tail_ne (by decide)).bind ?_
      rintro _ afterMark reluctant otherAfterMark ⟨rfl, marked⟩
      refine (accept_follows marked (show isPlain '+' from rfl) fun _ =>
        setting.head?_tail_ne (by decide)).bind ?_
      rintro _ last possessive otherLast ⟨rfl, finished⟩
      refine .get_bind (.pure ⟨?_, finished⟩)
      rw [congrArg Flags.swapGreed finished.flags]
      cases possessive <;> rfl

theorem atom_alike :
    NodeFollows setting (atom (fuel + 1) depth) (atom (otherFuel + 1) otherDepth) alone joined := by
  simp only [atom]
  refine .get_bind ?_
  cases isRest : alone.rest with
  | nil =>
    have isOther := mirrored.joined_rest_nil isRest
    rcases setting.tail_cases with isTail | ⟨others, isTail⟩ | ⟨others, isTail⟩ <;>
      simpa only [isOther, isTail] using Follows.pure ⟨rfl, mirrored⟩
  | cons char rest =>
    obtain ⟨others, isOther⟩ := mirrored.joined_rest_cons isRest
    simp only [isOther]
    split
    case h_1 | h_2 | h_3 =>
      obtain ⟨isText, passed⟩ := mirrored.pass_plain isRest (by simp)
      obtain rfl := (List.cons.inj (isOther.symm.trans isText)).2
      refine .set_bind (.pure ⟨?_, passed⟩)
      simp [Node.rename, mirrored.flags]
    case h_4 => exact .set_bind ((all reaches.succ mirrored).group isRest isOther)
    case h_5 =>
      exact .set_bind
        (escapedNode_follows mirrored isRest isOther)
    case h_6 =>
      exact .set_bind (bracket_follows mirrored isRest isOther)
    case h_12 _ _ _ _ noGroup noEscape noBracket _ _ _ _ _ =>
      have isOutside : char ∉ ['\\', '[', '('] := by
        simpa using ⟨noEscape, noBracket, noGroup⟩
      obtain ⟨isText, passed⟩ := mirrored.pass_plain isRest isOutside
      obtain rfl := (List.cons.inj (isOther.symm.trans isText)).2
      exact .set_bind (literal_follows char passed)
    all_goals exact .pure ⟨rfl, mirrored⟩

omit all reaches mirrored in
theorem close_alike {node other : Node} {next onward : Unit → Reading Node}
    {related : Node → ReadState → Node → ReadState → Prop}
    (inside : setting.Parts alone →
      other = setting.copy node ∧ Mirrored setting 0 alone joined)
    (behind : other = setting.copy node → ∀ last otherLast,
      Mirrored setting 0 last otherLast →
        Follows setting.excused (next ⟨⟩) last (onward ⟨⟩) otherLast related) :
    Follows setting.excused (close >>= next) alone (close >>= onward) joined related := by
  by_cases isRest : alone.rest = []
  · have fails : (close >>= next).run alone = .error .unclosedGroup := by
      obtain ⟨rest, _⟩ := alone
      obtain rfl : rest = [] := isRest
      rfl
    exact .of_error fails (by decide)
  · obtain ⟨same, mirrored⟩ := inside fun isEnd => absurd isEnd isRest
    refine (close_follows mirrored).bind ?_
    intro _ last _ otherLast finished
    exact behind same last otherLast finished

theorem enclosed_alike {wrap otherWrap : Node → Node}
    (wraps : ∀ node : Node, otherWrap (setting.copy node) =
      setting.copy (wrap node)) :
    NodeFollows setting
      (do
        let node ← alternatives fuel depth
        close
        return wrap node)
      (do
        let node ← alternatives otherFuel otherDepth
        close
        return otherWrap node)
      alone joined := by
  refine (all reaches mirrored).alternatives.bind fun node after other otherAfter related =>
    close_alike related ?_
  rintro rfl last otherLast finished
  exact .pure ⟨wraps node, finished⟩

theorem marked_alike {text rest : List Char} {wrap : Node → Node}
    (wraps : ∀ node : Node, wrap (setting.copy node) =
      setting.copy (wrap node))
    (isRest : alone.rest = text ++ rest) (isText : ∀ char ∈ text, isPlain char) :
    NodeFollows setting
      (do
        drop text.length
        let node ← alternatives fuel depth
        close
        return wrap node)
      (do
        drop text.length
        let node ← alternatives otherFuel otherDepth
        close
        return wrap node)
      alone joined := by
  obtain ⟨isOther, passed⟩ := mirrored.pass_plains isRest isText
  have dropped : Follows setting.excused (drop text.length) alone (drop text.length) joined
      fun _ after _ otherAfter => Mirrored setting 0 after otherAfter := by
    simpa [Follows, drop, isRest, isOther] using passed
  refine dropped.bind ?_
  intro _ after _ otherAfter onward
  exact enclosed_alike all reaches onward wraps

theorem flagged_alike {whole otherWhole flagFuel otherFlagFuel : Nat} {chars : List Char}
    (isRest : alone.rest = '?' :: chars)
    (isScoped : (chars.dropWhile Pattern.isFlagLetter).head? = some ':') :
    NodeFollows setting
      (do
        let before := (← get).flags
        drop 1
        if ← flags whole flagFuel none then
          let node ← alternatives fuel depth
          close
          modify fun state => { state with flags := before }
          return node
        else
          return .empty)
      (do
        let before := (← get).flags
        drop 1
        if ← flags otherWhole otherFlagFuel none then
          let node ← alternatives otherFuel otherDepth
          close
          modify fun state => { state with flags := before }
          return node
        else
          return .empty)
      alone joined := by
  obtain ⟨isOther, passed⟩ := mirrored.pass_char isRest rfl
  refine Follows.get_bind ?_
  have dropped : Follows setting.excused (drop 1) alone (drop 1) joined fun _ after _ otherAfter =>
      after = { alone with rest := chars } ∧
        otherAfter = { joined with rest := setting.text 0 chars } := by
    simp [Follows, drop, isRest, isOther]
  refine dropped.bind ?_
  rintro _ _ _ _ ⟨rfl, rfl⟩
  refine (flags_follows passed isScoped (.none _ _)).bind ?_
  rintro _ flagged _ otherFlagged ⟨rfl, rfl, changed, onward⟩
  refine (@all { setting with flags := changed } _ _ _ _ reaches onward).alternatives.bind
    fun node after other otherAfter related => close_alike related ?_
  rintro rfl last otherLast finished
  have restored := finished.setFlags mirrored.noBlanks
  refine .modify_bind (.pure ⟨rfl, ?_⟩)
  simpa [mirrored.flags, mirrored.isFlags] using restored

omit mirrored in
theorem captured_alike (isPositive : 0 < setting.total)
    (mirrored : Mirrored { setting with total := setting.total - 1 } 0 alone joined)
    (admits : Admits setting.excused setting.bound (setting.offset + setting.total)) :
    NodeFollows setting
      (do
        let number ← openGroup
        let node ← alternatives fuel depth
        close
        return .group number node)
      (do
        let number ← openGroup
        let node ← alternatives otherFuel otherDepth
        close
        return .group number node)
      alone joined := by
  have opened : Follows setting.excused openGroup alone openGroup joined
      fun number after other otherAfter =>
      other = shiftNumber setting.offset number ∧ Mirrored setting 0 after otherAfter := by
    have isOpened := mirrored.opened
    have isGroups := mirrored.groups
    simp only at isOpened isGroups
    simp only [Follows, openGroup, Settles.bind_iff, Settles.modify_iff, Settles.get_iff,
      Settles.pure_iff]
    refine ⟨?_, { mirrored with groups := ?_, opened := ?_, admits }⟩
    · simp only [shiftNumber, Nat.add_one_ne_zero, reduceIte]
      omega
    · change alone.opened + 1 + groupsIn 0 alone.rest = setting.total
      omega
    · change joined.opened + 1 = alone.opened + 1 + setting.offset
      omega
  refine opened.bind ?_
  rintro number after _ otherAfter ⟨rfl, onward⟩
  exact enclosed_alike all reaches onward fun _ => rfl

theorem group_alike {rest others : List Char} (isRest : alone.rest = '(' :: rest)
    (isOthers : joined.rest = '(' :: others) :
    NodeFollows setting (group (fuel + 1) depth) (group (otherFuel + 1) otherDepth)
      { alone with rest } { joined with rest := others } := by
  obtain ⟨rfl, isOpening, entered⟩ := mirrored.enter isRest isOthers
  simp only [NodeFollows, group]
  by_cases isDeep : 64 ≤ depth
  · have isOtherDeep := Nat.le_trans isDeep reaches.deeper
    simp [Follows, isDeep, isOtherDeep]
  by_cases isOtherDeep : 64 ≤ otherDepth
  · have excuse := reaches.excused.resolve_right fun within =>
      isDeep (Nat.le_trans isOtherDeep within)
    simp only [isOtherDeep, reduceIte]
    exact .of_excused rfl excuse
  simp only [isDeep, isOtherDeep, reduceIte]
  refine (skipBlanks_follows entered).bind ?_
  rintro _ _ _ _ ⟨rfl, rfl⟩
  refine Follows.get_bind ?_
  have opensNone (isClosed : (Pattern.Token.groupOpening rest).1 = false) :
      Mirrored setting 0 { alone with rest } { joined with rest := setting.text 0 rest } := by
    simpa [isClosed] using entered
  have marked (text : List Char) {behind : List Char} {wrap : Node → Node}
      (wraps : ∀ node : Node, wrap (setting.copy node) =
        setting.copy (wrap node))
      (isMarked : rest = text ++ behind) (isText : ∀ char ∈ text, isPlain char)
      (isClosed : (Pattern.Token.groupOpening rest).1 = false) :=
    @marked_alike setting _ _ fuel otherFuel depth otherDepth all reaches (opensNone isClosed) text
      behind wrap wraps isMarked isText
  fun_cases Pattern.hasPortableOpening rest
  case case1 | case2 | case3 => exact marked [_, _] (fun _ => rfl) rfl (by simp [isPlain]) rfl
  case case4 | case5 => exact marked [_, _, _] (fun _ => rfl) rfl (by simp [isPlain]) rfl
  case case6 chars noAhead noDenial noAtomic noBehind noBehindDenial =>
    have isScoped : (chars.dropWhile Pattern.isFlagLetter).head? = some ':' := by
      rw [Pattern.hasPortableOpening] at isOpening
      · simpa using isOpening
      all_goals assumption
    obtain ⟨letter, behind, rfl, isLetter⟩ : ∃ letter behind, chars = letter :: behind ∧
        letter ∈ ['i', 'm', 's', 'U', 'u', '-', ':'] := by
      cases chars with
      | nil => simp at isScoped
      | cons letter behind =>
        refine ⟨letter, behind, rfl, ?_⟩
        by_cases isFlag : Pattern.isFlagLetter letter
        · simp only [Pattern.isFlagLetter, List.contains_eq_mem, decide_eq_true_eq] at isFlag
          simp only [List.mem_cons, List.not_mem_nil, or_false] at isFlag ⊢
          tauto
        · have isColon : letter = ':' := by simpa [isFlag] using isScoped
          simp [isColon]
    simp only [List.mem_cons, List.not_mem_nil, or_false] at isLetter
    rcases isLetter with rfl | rfl | rfl | rfl | rfl | rfl | rfl <;>
      exact flagged_alike all reaches (opensNone rfl) rfl isScoped
  case case7 noMark =>
    have isOpen : (Pattern.Token.groupOpening rest).1 = true := by
      fun_cases Pattern.Token.groupOpening rest
      case case6 => rfl
      all_goals exact absurd rfl (noMark _)
    have isPositive : 0 < setting.total := by
      have isGroups := mirrored.groups
      rw [isRest, (@Passes.opening setting.offset rest).groups, isOpen] at isGroups
      simp only [Bool.toNat_true] at isGroups
      omega
    have numbered : Mirrored { setting with total := setting.total - 1 } 0
        { alone with rest } { joined with rest := setting.text 0 rest } := by
      simpa [isOpen] using entered
    cases rest with
    | nil =>
      simp only [setting.text_nil] at numbered ⊢
      have reads := @captured_alike setting _ _ fuel otherFuel depth otherDepth all reaches
        isPositive numbered mirrored.admits
      rcases setting.tail_cases with isTail | ⟨others, isTail⟩ | ⟨others, isTail⟩ <;>
        rw [isTail] at reads ⊢ <;> exact reads
    | cons char rest =>
      have isOther : char ≠ '?' := fun isMark => noMark rest (by rw [isMark])
      obtain ⟨others, isText⟩ := @Setting.text_cons setting 0 char rest
      simp only [isText] at numbered ⊢
      have reads := @captured_alike setting _ _ fuel otherFuel depth otherDepth all reaches
        isPositive numbered mirrored.admits
      simpa [isOther] using reads

end Step

theorem allAlike (fuel otherFuel : Nat) : AllAlike fuel otherFuel := by
  induction fuel generalizing otherFuel with
  | zero => exact allAlike_zero otherFuel
  | succ fuel all =>
    cases otherFuel with
    | zero => exact allAlike_exhausted (fuel + 1)
    | succ otherFuel =>
      intro setting depth otherDepth alone joined reaches mirrored
      exact {
        alternatives := alternatives_alike (all otherFuel) reaches mirrored
        otherAlternatives := otherAlternatives_alike (all otherFuel) reaches mirrored
        branch := branch_alike (all otherFuel) reaches mirrored
        piece := piece_alike (all otherFuel) reaches mirrored
        atom := atom_alike (all otherFuel) reaches mirrored
        group := group_alike (all otherFuel) reaches mirrored }

end Highlighter.Regex.Reading

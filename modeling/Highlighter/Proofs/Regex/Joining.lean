import Highlighter.Proofs.Regex.Moving
import Highlighter.Proofs.Regex.Nesting
import Mathlib.Data.List.Forall2

/-!
# Reading joined sources

Joined sources are read one after another.  Each of them becomes a group whose content is what
the source is read as alone, with the numbers of its groups moved on.
-/
namespace Highlighter.Regex

/-! ## Outlines -/

namespace Reading

def alternation (first : Node) (others : List Node) : Node :=
  if others.isEmpty then first else .alternation (first :: others)

def ofBranches : List Node → Node
  | [] => .empty
  | first :: others => alternation first others

/-- What a source is read as, its alternatives told apart. -/
structure Outline where
  first : Node
  others : List Node
  referenced : List Nat
  groups : Nat
  deriving Inhabited

namespace Outline

def expression (outline : Outline) : Expression where
  node := alternation outline.first outline.others
  referenced := outline.referenced
  groups := outline.groups

/-- What an expression is read as where it is a group. -/
def captured (expression : Expression) : Outline where
  first := .group 1 (expression.node.rename (shiftNumber 1))
  others := []
  referenced := expression.referenced.map (shiftNumber 1)
  groups := expression.groups + 1

/-- The alternatives, with the numbers that their groups have behind others. -/
def branches (before : Nat) (outline : Outline) : List Node :=
  (outline.first :: outline.others).map (Node.rename (shiftNumber before))

/-- The alternatives of several sources, one after another. -/
def allBranches : (before : Nat) → List Outline → List Node
  | _, [] => []
  | before, outline :: outlines =>
    outline.branches before ++ allBranches (before + outline.groups) outlines

/-- The groups that are referred to in several sources, one after another. -/
def references : (before : Nat) → (earlier : List Nat) → List Outline → List Nat
  | _, earlier, [] => earlier
  | before, earlier, outline :: outlines =>
    references (before + outline.groups)
      (outline.referenced.map (shiftNumber before) ++ earlier) outlines

def width : List Outline → Nat
  | [] => 0
  | outline :: outlines => outline.groups + width outlines

/-- The expression that sources between bars are read as. -/
def united (outlines : List Outline) : Expression where
  node := ofBranches (allBranches 0 outlines)
  referenced := references 0 [] outlines
  groups := width outlines

end Outline

theorem shiftNumber_zero : shiftNumber 0 = fun number => number := by
  funext number
  unfold shiftNumber
  split <;> omega

theorem shiftNumber_shiftNumber (before offset number : Nat) :
    shiftNumber before (shiftNumber offset number) = shiftNumber (before + offset) number := by
  unfold shiftNumber
  split
  · rfl
  · rw [if_neg (by omega)]
    omega

end Reading

variable {excused : PatternError → Prop} {property : Node → ReadState → Prop} {state : ReadState}
  {ignoreCase : Bool} {depth : Nat} {expression : Expression}

namespace Reading

open Pattern (moved groupsIn portable)

variable {fuel whole : Nat} {rest : List Char} {source : List Char}

/-! ## Groups in front of a pattern -/

section Unfold

variable {excused : PatternError → Prop} {state : ReadState} {rest : List Char} {fuel depth : Nat}
  {newestFirst : List Node} {property : Node → ReadState → Prop}

theorem skipBlanks_iff {property : Unit → ReadState → Prop}
    (stays : afterBlanks state.flags.ignoreBlanks .between state.rest = .ok state.rest) :
    Settles excused skipBlanks state property ↔ property () state := by
  simp [skipBlanks, stays]

theorem branch_cons_iff {char : Char} (isRest : state.rest = char :: rest)
    (goesOn : char ≠ '|' ∧ char ≠ ')')
    (stays : afterBlanks state.flags.ignoreBlanks .between state.rest = .ok state.rest) :
    Settles excused (branch (fuel + 1) depth newestFirst) state property ↔
      Settles excused (piece fuel depth) state fun node after =>
        Settles excused
          (branch fuel depth (if node.isEmpty then newestFirst else node :: newestFirst)) after
          property := by
  rw [branch, Settles.bind_iff, skipBlanks_iff stays, Settles.bind_iff, Settles.get_iff, isRest]
  simp [goesOn]

theorem close_iff {property : Unit → ReadState → Prop} (isRest : state.rest = ')' :: rest) :
    Settles excused close state property ↔ property () { state with rest } := by
  simp [close, accept, isRest]

theorem atom_opening_iff (isRest : state.rest = '(' :: rest) :
    Settles excused (atom (fuel + 1) depth) state property ↔
      Settles excused (group fuel (depth + 1)) { state with rest } property := by
  simp only [atom, Settles.bind_iff, Settles.get_iff, isRest, Settles.set_iff]

theorem piece_of_atom
    (reads : Settles excused (atom fuel depth) state fun node after =>
      afterBlanks after.flags.ignoreBlanks .between after.rest = .ok after.rest ∧
        Settles excused quantifier? after fun found last =>
          (found = none → property node last) ∧
            (found.isSome → node.isRepeatable = false ∧ excused .notRepeatable)) :
    Settles excused (piece (fuel + 1) depth) state property := by
  simp only [piece, Settles.bind_iff]
  refine reads.imp fun node after behind => ?_
  rw [skipBlanks_iff behind.1]
  refine behind.2.imp fun found last isFound => ?_
  cases found with
  | none => simpa using isFound.1 rfl
  | some bounds => simp [isFound.2 rfl]

/-- A pattern that begins with a group that is not repeated. -/
theorem branch_opening (unreadable : excused .unreadable) (isRest : state.rest = '(' :: rest)
    (stays : afterBlanks state.flags.ignoreBlanks .between state.rest = .ok state.rest)
    (reads : ∀ fuel, Settles excused (group fuel 1) { state with rest } fun node after =>
      afterBlanks after.flags.ignoreBlanks .between after.rest = .ok after.rest ∧
        Settles excused quantifier? after fun found last =>
          (found = none → ∀ fuel,
            Settles excused (branch fuel 0 (if node.isEmpty then [] else [node])) last property) ∧
            (found.isSome → node.isRepeatable = false ∧ excused .notRepeatable))
    (fuel : Nat) : Settles excused (branch fuel 0 []) state property := by
  rcases fuel with _ | _ | _ | fuel
  · simpa [branch] using unreadable
  · exact (branch_cons_iff isRest (by decide) stays).mpr (by simpa [piece] using unreadable)
  · exact (branch_cons_iff isRest (by decide) stays).mpr (by simpa [piece, atom] using unreadable)
  · refine (branch_cons_iff isRest (by decide) stays).mpr (piece_of_atom ?_)
    refine (atom_opening_iff isRest).mpr ((reads fuel).imp fun node after read => ⟨read.1, ?_⟩)
    exact read.2.imp fun found last isFound => ⟨fun isNone => isFound.1 isNone _, isFound.2⟩

end Unfold

def baseFlags (ignoreCase : Bool) : Flags :=
  { multipleLines := true, ignoreCase }

theorem quantifier?_unchanged (state : ReadState) :
    Ensures quantifier? state fun found after => found = none → after = state := by
  simp only [Ensures, quantifier?, Settles.bind_iff, Settles.get_iff]
  split
  case h_4 => split <;> simp
  all_goals simp

theorem flags_letter_iff {letter : Char} {changed : Flags} {property : Bool → ReadState → Prop}
    (isRest : state.rest = letter :: rest) (isLetter : letter ∈ ['m', 'i'])
    (noBlanks : state.flags.ignoreBlanks = false)
    (isChanged : updateFlag? state.flags letter true = some changed) :
    Settles excused (flags whole (fuel + 1) none) state property ↔
      Settles excused (flags whole fuel none) { state with rest, flags := changed } property := by
  have stays : afterBlanks state.flags.ignoreBlanks .between state.rest = .ok state.rest := by
    simp only [List.mem_cons, List.not_mem_nil, or_false] at isLetter
    rcases isLetter with rfl | rfl <;> simp [isRest, noBlanks, afterBlanks]
  simp only [flags, Settles.bind_iff, skipBlanks_iff stays, Settles.get_iff, isRest]
  simp only [List.mem_cons, List.not_mem_nil, or_false] at isLetter
  rcases isLetter with rfl | rfl <;> simp [isChanged]

theorem flags_close_iff {property : Bool → ReadState → Prop} (isRest : state.rest = ')' :: rest)
    (noBlanks : state.flags.ignoreBlanks = false) (isLonger : rest.length + 1 < whole) :
    Settles excused (flags whole (fuel + 1) none) state property ↔
      property false { state with rest } := by
  have stays : afterBlanks state.flags.ignoreBlanks .between state.rest = .ok state.rest := by
    simp [isRest, noBlanks, afterBlanks]
  simp only [flags, Settles.bind_iff, skipBlanks_iff stays, Settles.get_iff, isRest]
  have different : rest.length + 1 ≠ whole := Nat.ne_of_lt isLonger
  simp [different]

theorem scope_of_flags {chars : List Char} {flagFuel : Nat} (isRest : state.rest = '?' :: chars)
    (reads : Settles excused (flags whole flagFuel none) { state with rest := chars }
      fun isGroup after => (isGroup = false → property .empty after) ∧ (isGroup = true →
        Settles excused (alternatives fuel depth) after fun node last =>
          Settles excused close last fun _ last =>
            property node { last with flags := state.flags })) :
    Settles excused
      (do
        let before := (← get).flags
        drop 1
        if ← flags whole flagFuel none then
          let node ← alternatives fuel depth
          close
          modify fun state => { state with flags := before }
          return node
        else
          return .empty)
      state property := by
  simp only [Settles.bind_iff, Settles.get_iff, drop, Settles.modify_iff, isRest,
    List.drop_succ_cons, List.drop_zero]
  refine reads.imp fun isGroup after holds => ?_
  cases isGroup with
  | false => simpa using holds.1 rfl
  | true => simpa [Settles.bind_iff] using holds.2 rfl

section Flagged

variable {excused : PatternError → Prop} (unreadable : excused .unreadable) {ignoreCase : Bool}
  {source : List Char} {state : ReadState}

include unreadable

theorem group_baseFlags (fuel : Nat)
    (isRest : state.rest = '?' :: 'm' :: ((if ignoreCase then ['i', ')'] else [')']) ++ source))
    (isFlags : state.flags = {}) :
    Settles excused (group fuel 1) state fun node after =>
      node = .empty ∧ after = { state with rest := source, flags := baseFlags ignoreCase } := by
  cases fuel with
  | zero => simpa [group] using unreadable
  | succ fuel =>
    have stays : afterBlanks state.flags.ignoreBlanks .between state.rest = .ok state.rest := by
      simp [isRest, isFlags, afterBlanks]
    simp only [group]
    rw [if_neg (by decide), Settles.bind_iff, skipBlanks_iff stays, Settles.bind_iff,
      Settles.get_iff, isRest]
    refine scope_of_flags isRest ?_
    refine (flags_letter_iff rfl (by simp) (by simp [isFlags]) rfl).mpr ?_
    cases ignoreCase with
    | false =>
      refine (flags_close_iff rfl (by simp [isFlags]) (by simp)).mpr ?_
      simp [isFlags, baseFlags]
    | true =>
      refine (flags_letter_iff rfl (by simp) (by simp [isFlags]) rfl).mpr ?_
      refine (flags_close_iff rfl (by simp [isFlags]) (by simp)).mpr ?_
      simp [isFlags, baseFlags]

theorem branch_behindFlags (fuel : Nat) (noComment : afterBlanks false .between source = .ok source)
    (unquantified : Settles excused quantifier?
      { state with rest := source, flags := baseFlags ignoreCase } fun found after =>
        (found = none → after = { state with rest := source, flags := baseFlags ignoreCase }) ∧
          (found.isSome → excused .notRepeatable)) (isRest : state.rest =
      '(' :: '?' :: 'm' :: ((if ignoreCase then ['i', ')'] else [')']) ++ source))
    (isFlags : state.flags = {}) (behind : ∀ fuel, Settles excused (branch fuel 0 [])
      { state with rest := source, flags := baseFlags ignoreCase } property) :
    Settles excused (branch fuel 0 []) state property := by
  refine branch_opening unreadable isRest (by simp [isRest, isFlags, afterBlanks]) (fun fuel => ?_)
    fuel
  refine (@group_baseFlags _ unreadable ignoreCase source { state with rest := _ } fuel rfl
    isFlags).imp ?_
  rintro _ _ ⟨rfl, rfl⟩
  refine ⟨noComment, unquantified.imp fun found after isFound => ⟨fun isNone fuel => ?_, ?_⟩⟩
  · rw [isFound.1 isNone]
    exact behind fuel
  · exact fun isSome => ⟨rfl, isFound.2 isSome⟩

end Flagged

theorem pattern_toList (source : String) (ignoreCase : Bool) :
    (pattern source ignoreCase).toList =
      '(' :: '?' :: 'm' :: ((if ignoreCase then ['i', ')'] else [')']) ++ source.toList) := by
  cases ignoreCase <;> simp [pattern]

/-! ## A source alone -/

theorem alternatives_of_branch (unreadable : excused .unreadable)
    (reads : ∀ fuel, Settles excused (branch fuel depth []) state fun first middle =>
      Settles excused (otherAlternatives fuel depth []) middle fun others after =>
        (after.names = [] ∨ excused .mixedReferences) ∧
          property (alternation first others) after) :
    Settles excused (alternatives fuel depth) state property := by
  cases fuel with
  | zero => simpa [alternatives] using unreadable
  | succ fuel =>
    simp only [alternatives, Settles.bind_iff]
    refine (reads fuel).imp fun first middle others => others.imp fun nodes after holds => ?_
    obtain ⟨unmixed, holds⟩ := holds
    cases nodes with
    | nil =>
      simp only [Settles.bind_iff, Settles.get_iff, Settles.ite_iff, Settles.throw_iff]
      rcases unmixed with noNames | excuse
      · exact ⟨fun isMixed => by simp [noNames] at isMixed, fun _ => holds⟩
      · exact ⟨fun _ => excuse, fun _ => holds⟩
    | cons second nodes => simpa [alternation] using holds

theorem alternation_rename (map : Nat → Nat) (first : Node) (others : List Node) :
    alternation (first.rename map) (others.map (Node.rename map)) =
      (alternation first others).rename map := by
  cases others with
  | nil => rfl
  | cons second others => simp [alternation, Node.rename, Node.renameEach_eq_map]

def initial (ignoreCase : Bool) (source : List Char) (referenceBound : Nat) : ReadState :=
  { rest := source, flags := baseFlags ignoreCase, referenceBound }

def Outlines (depth : Nat) (ignoreCase : Bool) (source : List Char) (outline : Outline) : Prop :=
  ∃ referenceBound fuel otherFuel first middle others after,
    (branch fuel depth []).run (initial ignoreCase source referenceBound) = .ok (first, middle) ∧
      (otherAlternatives otherFuel depth []).run middle = .ok (others, after) ∧
        after.rest = [] ∧ outline = ⟨first, others, after.referenced, after.opened⟩

def ReadsAs (depth : Nat) (ignoreCase : Bool) (source : List Char) (expression : Expression) :
    Prop :=
  ∃ outline, Outlines depth ignoreCase source outline ∧ expression = outline.expression

theorem readsAs_of_read {source : String} (isPortable : Pattern.isPortable source)
    (isRead : Expression.read (pattern source ignoreCase).toList = .ok expression) :
    ReadsAs 0 ignoreCase source.toList expression := by
  have reads (fuel referenceBound : Nat) : Ensures (alternatives fuel 0)
      { rest := (pattern source ignoreCase).toList, referenceBound } fun node after =>
        after.rest.isEmpty →
          ReadsAs 0 ignoreCase source.toList ⟨node, after.referenced, after.opened⟩ := by
    refine alternatives_of_branch trivial fun fuel => ?_
    refine branch_behindFlags trivial fuel ?_ ?_ (pattern_toList source ignoreCase) rfl ?_
    · exact
        (@afterBlanks_text ⟨0, [], [], 0, {}, 0, fun _ => True, by simp, by simp⟩ _ isPortable).1
    · exact (quantifier?_unchanged _).imp fun _ _ same => ⟨same, fun _ => trivial⟩
    · refine fun behind => ensures_iff.mpr fun first middle isFirst => ?_
      refine ensures_iff.mpr fun others after isOthers => ⟨.inr trivial, fun isEmpty => ?_⟩
      exact ⟨_, ⟨_, _, _, _, _, _, _, isFirst, isOthers, List.isEmpty_iff.mp isEmpty, rfl⟩, rfl⟩
  obtain ⟨⟨node, state⟩, isNode, isEnd⟩ := Success.bind_eq_ok.mp isRead
  simp only at isEnd
  split at isEnd
  · rename_i isEmpty
    cases isEnd
    exact (reads _ _).ensures isNode isEmpty
  · cases isEnd

theorem branch_mark (fuel depth : Nat) (isRest : state.rest = '?' :: rest)
    (noBlanks : state.flags.ignoreBlanks = false) :
    Ensures (branch fuel depth []) state property := by
  have stays : afterBlanks state.flags.ignoreBlanks .between state.rest = .ok state.rest := by
    simp [isRest, noBlanks, afterBlanks]
  have nothing (fuel : Nat) :
      Settles (fun _ => True) (piece fuel depth) state fun _ _ => False := by
    rcases fuel with _ | _ | fuel
    · simp [piece]
    · simp [piece, atom]
    · rw [isRest] at stays
      refine piece_of_atom ?_
      simp [atom, isRest, stays, quantifier?, Node.isRepeatable]
  cases fuel with
  | zero => simp [branch]
  | succ fuel =>
    refine (branch_cons_iff isRest (by decide) stays).mpr ?_
    exact (nothing fuel).imp fun _ _ isFalse => isFalse.elim

theorem ReadsAs.ne_mark (readsAs : ReadsAs depth ignoreCase source expression) (rest : List Char) :
    source ≠ '?' :: rest := by
  obtain ⟨_, ⟨bound, fuel, _, first, middle, _, _, isFirst, -⟩, -⟩ := readsAs
  intro isMark
  have nothing : Ensures (branch fuel depth []) (initial ignoreCase source bound)
      fun _ _ => False :=
    branch_mark fuel depth isMark rfl
  exact nothing.ensures isFirst

/-! ## Sources in a longer pattern -/

/-- A pattern is at an end, or goes on with another alternative or behind a group. -/
abbrev Ends (rest : List Char) : Prop :=
  ∀ char ∈ rest.head?, char = '|' ∨ char = ')'

section End

variable {state : ReadState} (isEnd : Ends state.rest)

include isEnd

theorem rest_of_end : state.rest = [] ∨ ∃ char rest, (char = '|' ∨ char = ')') ∧
    state.rest = char :: rest := by
  cases isRest : state.rest with
  | nil => exact .inl rfl
  | cons char rest => exact .inr ⟨char, rest, isEnd char (by simp [isRest]), rfl⟩

theorem afterBlanks_end :
    afterBlanks state.flags.ignoreBlanks .between state.rest = .ok state.rest := by
  obtain isRest | ⟨char, rest, rfl | rfl, isRest⟩ := rest_of_end isEnd <;>
    simp [isRest, afterBlanks]

theorem quantifier?_end :
    Settles excused quantifier? state fun found after => found = none ∧ after = state := by
  obtain isRest | ⟨char, rest, rfl | rfl, isRest⟩ := rest_of_end isEnd <;>
    simp [isRest, quantifier?]

theorem branch_end (unreadable : excused .unreadable) {newestFirst : List Node}
    (holds : property (sequence newestFirst.reverse) state) :
    Settles excused (branch fuel depth newestFirst) state property := by
  cases fuel with
  | zero => simpa [branch] using unreadable
  | succ fuel =>
    rw [branch, Settles.bind_iff, skipBlanks_iff (afterBlanks_end isEnd), Settles.bind_iff,
      Settles.get_iff]
    obtain isRest | ⟨char, rest, rfl | rfl, isRest⟩ := rest_of_end isEnd <;>
      simpa [isRest] using holds

end End

theorem otherAlternatives_end (unreadable : excused .unreadable)
    (noBar : state.rest.head? ≠ some '|')
    {newestFirst : List Node} {property : List Node → ReadState → Prop}
    (holds : property newestFirst.reverse state) :
    Settles excused (otherAlternatives fuel depth newestFirst) state property := by
  cases fuel with
  | zero => simpa [otherAlternatives] using unreadable
  | succ fuel =>
    cases isRest : state.rest with
    | nil => simpa [otherAlternatives, accept, isRest] using holds
    | cons char rest =>
      have different : char ≠ '|' := by simpa [isRest] using noBar
      simpa [otherAlternatives, accept, isRest, different] using holds

section Enclosed

variable {excused : PatternError → Prop} (unreadable : excused .unreadable) {state : ReadState}
  {content tail : List Char} {property : Node → ReadState → Prop}
  (noBlanks : state.flags.ignoreBlanks = false)

include unreadable noBlanks

theorem group_of_content (noMark : ∀ rest, content ≠ '?' :: rest)
    (stays : afterBlanks false .between content = .ok content)
    (reads : ∀ fuel, Settles excused (alternatives fuel 1)
      { state with rest := content, opened := state.opened + 1 } fun node after =>
        after.rest = ')' :: tail ∧
          property (.group (state.opened + 1) node) { after with rest := tail })
    (fuel : Nat) :
    Settles excused (group fuel 1) { state with rest := content } fun node after =>
      after.rest = tail ∧ property node after := by
  cases fuel with
  | zero => simpa [group] using unreadable
  | succ fuel =>
    simp only [group]
    rw [if_neg (by decide), Settles.bind_iff, skipBlanks_iff (by rwa [noBlanks]),
      Settles.bind_iff, Settles.get_iff]
    have captures : Settles excused
        (do
          let number ← openGroup
          let node ← alternatives fuel 1
          close
          return Node.group number node)
        { state with rest := content } fun node after =>
          after.rest = tail ∧ property node after := by
      simp only [openGroup, Settles.bind_iff, Settles.modify_iff, Settles.get_iff,
        Settles.pure_iff]
      refine (reads fuel).imp ?_
      rintro node after ⟨isRest, holds⟩
      exact (close_iff isRest).mpr ⟨rfl, holds⟩
    split
    case h_11 => exact captures
    all_goals
      rename_i isMark
      exact absurd isMark (noMark _)

theorem branch_of_group (isRest : state.rest = '(' :: content)
    (noComment : afterBlanks false .between state.rest = .ok state.rest) (isTail : Ends tail)
    (reads : ∀ fuel, Settles excused (group fuel 1) { state with rest := content } fun node after =>
      after.rest = tail ∧ property node after) (fuel : Nat) :
    Settles excused (branch fuel 0 []) state property := by
  refine branch_opening unreadable isRest (by rwa [noBlanks]) (fun fuel => ?_) fuel
  refine (reads fuel).imp ?_
  rintro node after ⟨isAfter, holds⟩
  have isEnd : Ends after.rest := by rwa [isAfter]
  refine ⟨afterBlanks_end isEnd, (quantifier?_end isEnd).imp ?_⟩
  rintro _ _ ⟨rfl, rfl⟩
  refine ⟨fun _ fuel => branch_end isEnd unreadable ?_, by simp⟩
  cases node <;> simpa [Node.isEmpty, sequence] using holds

end Enclosed

/-- What is left, and what has been learnt, between two sources of a longer pattern. -/
structure Between (ignoreCase : Bool) (bound : Nat) (rest : List Char) (opened : Nat)
    (referenced : List Nat) (state : ReadState) : Prop where
  rest : state.rest = rest
  flags : state.flags = baseFlags ignoreCase
  opened : state.opened = opened
  noNames : state.names = []
  referenced : state.referenced = referenced
  bound : state.referenceBound = bound

theorem otherAlternatives_continue {setting : Setting} {depth otherDepth : Nat}
    (reaches : Reaches setting.excused depth otherDepth) {nodes : List Node} {after : ReadState}
    {earlier : List Node} {property : List Node → ReadState → Prop}
    (behind : ∀ fuel last, Mirrored setting 0 after last →
      Settles setting.excused (otherAlternatives fuel otherDepth
        ((nodes.map setting.copy).reverse ++ earlier)) last property)
    {fuel : Nat} {alone joined : ReadState} {newestFirst : List Node}
    (isRead : (otherAlternatives fuel depth newestFirst).run alone = .ok (nodes, after))
    (mirrored : Mirrored setting 0 alone joined) (otherFuel : Nat) :
    Settles setting.excused (otherAlternatives otherFuel otherDepth
      (newestFirst.map setting.copy ++ earlier)) joined property := by
  induction fuel generalizing alone joined newestFirst otherFuel with
  | zero =>
    rw [otherAlternatives] at isRead
    cases isRead
  | succ fuel ih =>
    by_cases isBar : alone.rest.head? = some '|'
    · obtain ⟨rest, isRest⟩ := List.head?_eq_some_iff.mp isBar
      have passes : Settles (fun _ => True) (otherAlternatives (fuel + 1) depth newestFirst) alone
          fun values last => ∃ node middle,
            (branch fuel depth []).run { alone with rest } = .ok (node, middle) ∧
              (otherAlternatives fuel depth (node :: newestFirst)).run middle =
                .ok (values, last) := by
        simp only [otherAlternatives, accept, Settles.bind_iff, Settles.get_iff, isRest,
          reduceIte, Settles.modify_iff, Settles.pure_iff]
        exact ensures_iff.mpr fun node middle isNode => ensures_iff.mpr fun values last isLast =>
          ⟨node, middle, isNode, isLast⟩
      obtain ⟨node, middle, isNode, isOthers⟩ := passes.ensures isRead
      obtain ⟨isJoined, onward⟩ := mirrored.pass_plain isRest (by decide)
      cases otherFuel with
      | zero => simpa [otherAlternatives] using mirrored.unreadable
      | succ otherFuel =>
        simp only [otherAlternatives, accept, Settles.bind_iff, Settles.get_iff, isJoined,
          reduceIte, Settles.modify_iff, Settles.pure_iff]
        refine ((allAlike fuel otherFuel reaches onward).branch [] |>.ensures isNode).imp ?_
        rintro _ last ⟨rfl, further⟩
        exact ih isOthers further otherFuel
    · have ends : Settles (fun _ => True) (otherAlternatives (fuel + 1) depth newestFirst) alone
          fun values last => values = newestFirst.reverse ∧ last = alone :=
        otherAlternatives_end trivial isBar ⟨rfl, rfl⟩
      obtain ⟨rfl, rfl⟩ := ends.ensures isRead
      have goesOn := behind otherFuel joined mirrored
      rwa [List.map_reverse, List.reverse_reverse] at goesOn

section Between

variable {excused : PatternError → Prop} {depth otherDepth bound before : Nat} {ignoreCase : Bool}
  {source tail : List Char} {expression : Expression} {referenced : List Nat} {state : ReadState}
  {outline : Outline}

/-- What is read in front of a source, the longer pattern is left with its copy. -/
theorem Between.mirrored (unreadable : excused .unreadable) (isPortable : portable 0 0 source)
    (isTail : Ends tail) (lenient : tail.head? = some '|' → ∀ cause, excused cause)
    (admits : Admits excused bound (before + groupsIn 0 source))
    (between : Between ignoreCase bound (moved before 0 source ++ tail) before referenced state)
    (aloneBound : Nat) :
    Mirrored
      ⟨before, tail, referenced, groupsIn 0 source, baseFlags ignoreCase, bound, excused, isTail,
        lenient⟩ 0
      (initial ignoreCase source aloneBound) state where
  rest := between.rest
  isPortable := isPortable
  groups := Nat.zero_add _
  isFlags := rfl
  flags := between.flags
  noBlanks := rfl
  opened := by simp [between.opened, initial]
  noNames := ⟨rfl, between.noNames⟩
  referenced := by simp [between.referenced, initial]
  bound := between.bound
  unreadable := unreadable
  admits := admits

/-- A text in front of another is read as the alternatives of an outline, whatever is read behind
it. -/
def YieldsAt (excused : PatternError → Prop) (depth : Nat) (ignoreCase : Bool)
    (text tail : List Char) (bound before groups : Nat) (outline : Outline) : Prop :=
  ∀ ⦃referenced : List Nat⦄ ⦃state : ReadState⦄ ⦃earlier : Node → List Node⦄
    ⦃property : Node → List Node → ReadState → Prop⦄,
    Between ignoreCase bound (text ++ tail) before referenced state →
    (∀ fuel last, outline.groups = groups →
      Between ignoreCase bound tail (before + outline.groups)
        (outline.referenced.map (shiftNumber before) ++ referenced) last →
      Settles excused (otherAlternatives fuel depth
        ((outline.others.map (Node.rename (shiftNumber before))).reverse ++
          earlier (outline.first.rename (shiftNumber before)))) last
        (property (outline.first.rename (shiftNumber before)))) →
    ∀ fuel otherFuel, Settles excused (branch fuel depth []) state fun first middle =>
      Settles excused (otherAlternatives otherFuel depth (earlier first)) middle (property first)

theorem yieldsAt_moved (unreadable : excused .unreadable)
    (reaches : Reaches excused depth otherDepth)
    (isPortable : portable 0 0 source) (outlines : Outlines depth ignoreCase source outline)
    (isTail : Ends tail) (lenient : tail.head? = some '|' → ∀ cause, excused cause)
    (admits : Admits excused bound (before + groupsIn 0 source)) :
    YieldsAt excused otherDepth ignoreCase (moved before 0 source) tail bound before
      (groupsIn 0 source) outline := by
  intro referenced state earlier property between behind fuel otherFuel
  obtain ⟨aloneBound, first, second, start, middle, others, after, isFirst, isOthers, isEnd, rfl⟩ :=
    outlines
  have mirrored := between.mirrored unreadable isPortable isTail lenient admits aloneBound
  refine ((allAlike first _ reaches mirrored).branch [] |>.ensures isFirst).imp ?_
  rintro _ joinedMiddle ⟨rfl, onward⟩
  refine @otherAlternatives_continue _ _ _ reaches _ _ (earlier _) _ ?_ _ _ _ [] isOthers onward
    otherFuel
  intro fuel last finished
  exact behind fuel last (by simpa [isEnd] using finished.groups)
    { rest := finished.joined_rest_nil isEnd
      flags := finished.flags.trans finished.isFlags
      opened := finished.opened.trans (Nat.add_comm _ _)
      noNames := finished.noNames.2
      referenced := finished.referenced
      bound := finished.bound }

/-! ## Sources as groups -/

theorem ReadsAs.moved_ne_mark (readsAs : ReadsAs depth ignoreCase source expression)
    (offset : Nat) (tail rest : List Char) :
    moved offset 0 source ++ ')' :: tail ≠ '?' :: rest := by
  intro isMark
  obtain ⟨behind, isSource, -⟩ :=
    Setting.cons_of_text ⟨offset, ')' :: tail, [], 0, {}, 0, fun _ => True, by simp, by simp⟩ isMark
      (by decide)
  exact readsAs.ne_mark behind isSource

theorem ReadsAs.afterBlanks_capture (readsAs : ReadsAs depth ignoreCase source expression)
    (before : Nat) (tail : List Char) :
    afterBlanks false .between (Pattern.capture before source ++ tail) =
      .ok (Pattern.capture before source ++ tail) := by
  refine afterBlanks_of_ne fun others isComment => ?_
  refine readsAs.moved_ne_mark (before + 1) tail ('#' :: others) ?_
  simpa [Pattern.capture_eq] using isComment

/-- A source as a group is read as its content is behind the opening. -/
theorem Between.branch_of_content (unreadable : excused .unreadable)
    (isPortable : portable 0 0 source) (readsAs : ReadsAs depth ignoreCase source expression)
    (isTail : Ends tail)
    (between : Between ignoreCase bound (Pattern.capture before source ++ tail) before referenced
      state) (reads : ∀ inner, Between ignoreCase bound (moved (before + 1) 0 source ++ ')' :: tail)
        (before + 1) referenced inner →
      ∀ fuel, Settles excused (alternatives fuel 1) inner fun node after =>
        after.rest = ')' :: tail ∧ property (.group (before + 1) node) { after with rest := tail })
    (fuel : Nat) : Settles excused (branch fuel 0 []) state property := by
  have noBlanks : state.flags.ignoreBlanks = false := by rw [between.flags]; rfl
  have isRest : state.rest = '(' :: (moved (before + 1) 0 source ++ ')' :: tail) := by
    simpa [Pattern.capture_eq] using between.rest
  have noComment : afterBlanks false .between state.rest = .ok state.rest := by
    rw [between.rest]
    exact readsAs.afterBlanks_capture before tail
  have stays := (@afterBlanks_text
    ⟨before + 1, ')' :: tail, [], 0, {}, 0, fun _ => True, by simp, by simp⟩ _ isPortable).2
  refine branch_of_group unreadable noBlanks isRest noComment isTail
    (group_of_content unreadable noBlanks (readsAs.moved_ne_mark _ _) stays fun fuel => ?_) fuel
  have inner := reads { state with rest := _, opened := state.opened + 1 }
    { between with rest := rfl, opened := congrArg (· + 1) between.opened } fuel
  simpa only [between.opened] using inner

/-- A source that one group makes too deep is not read as one. -/
theorem ReadsAs.deeper (isPortable : portable 0 0 source)
    (readsAs : ReadsAs 0 ignoreCase source expression)
    (between : Between ignoreCase bound (Pattern.capture before source ++ tail) before referenced
      state) (isTail : Ends tail) {found : Node × ReadState}
    (isRead : (branch fuel 0 []).run state = .ok found) :
    ReadsAs 1 ignoreCase source expression := by
  have reaches : Reaches (fun _ => True) 1 1 := ⟨Nat.le_refl 1, .inl trivial⟩
  have fails (tooDeep : ∀ inner, Between ignoreCase bound
      (moved (before + 1) 0 source ++ ')' :: tail) (before + 1) referenced inner →
        ∀ fuel, Settles (fun _ => True) (alternatives fuel 1) inner fun _ _ => False) : False := by
    have nothing : Settles (fun _ => True) (branch fuel 0 []) state fun _ _ => False :=
      between.branch_of_content trivial isPortable readsAs isTail
        (fun inner isInner fuel => (tooDeep inner isInner fuel).imp fun _ _ => False.elim) fuel
    exact nothing.ensures isRead
  obtain ⟨_, ⟨aloneBound, first, second, start, middle, others, last, isStart, isOthers, isEnd,
    rfl⟩, rfl⟩ := readsAs
  have alike {inner : ReadState} (isInner : Between ignoreCase bound
      (moved (before + 1) 0 source ++ ')' :: tail) (before + 1) referenced inner)
      (otherFuel : Nat) :=
    (allAlike first otherFuel reaches (@Between.mirrored (fun _ => True) _ _ _ _ _ _ _ trivial
      isPortable (by simp [Ends]) (by simp) (.inl trivial) isInner aloneBound)).branch []
  rcases (allDeepen first).branch 0 [] isStart with isDeeper | isDeep
  · rcases (allDeepen second).otherAlternatives 0 [] isOthers with isOther | isDeep
    · exact ⟨_, ⟨aloneBound, first, second, start, middle, others, last, isDeeper, isOther, isEnd,
        rfl⟩, rfl⟩
    · refine (fails fun inner isInner fuel => ?_).elim
      refine alternatives_of_branch trivial fun fuel =>
        ((alike isInner fuel).ensures isDeeper).imp ?_
      rintro _ joinedMiddle ⟨rfl, onward⟩
      have alike := (allAlike second fuel reaches onward).otherAlternatives []
      exact ((Settles.of_error isDeep).mp alike rfl).imp fun _ _ => False.elim
  · refine (fails fun inner isInner fuel => ?_).elim
    refine alternatives_of_branch trivial fun fuel => ?_
    exact ((Settles.of_error isDeep).mp (alike isInner fuel) rfl).imp fun _ _ => False.elim

end Between

/-! ## Several sources -/

theorem join_cons (separator part : List Char) (parts : List (List Char)) :
    Text.join separator (part :: parts) = part ++ parts.flatMap (separator ++ ·) := by
  induction parts generalizing part with
  | nil => simp [Text.join]
  | cons next parts ih =>
    rw [Text.join, ih, List.flatMap_cons, List.append_assoc, List.append_assoc]
    simp

/-- A source as it stands in a longer pattern: its text behind a number of groups, and the number
of its groups. -/
structure Piece where
  text : (before : Nat) → List Char
  groups : Nat

namespace Piece

def captured (source : List Char) : Piece where
  text := fun before => Pattern.capture before source
  groups := groupsIn 0 source + 1

def texts : (before : Nat) → List Piece → List (List Char)
  | _, [] => []
  | before, piece :: pieces => piece.text before :: texts (before + piece.groups) pieces

def width : List Piece → Nat
  | [] => 0
  | piece :: pieces => piece.groups + width pieces

theorem ends_texts {tail : List Char} (isTail : ∀ char ∈ tail.head?, char = ')') (before : Nat)
    (pieces : List Piece) : Ends ((texts before pieces).flatMap ('|' :: ·) ++ tail) := by
  cases pieces with
  | nil => exact fun char isHead => .inr (isTail char isHead)
  | cons piece pieces => simp [texts, Ends]

end Piece

def Yields (excused : PatternError → Prop) (depth : Nat) (ignoreCase : Bool) (piece : Piece)
    (outline : Outline) : Prop :=
  ∀ ⦃bound before : Nat⦄ ⦃tail : List Char⦄, Ends tail →
    Admits excused bound (before + piece.groups) →
      YieldsAt excused depth ignoreCase (piece.text before) tail bound before piece.groups outline

theorem yields_captured (unreadable : excused .unreadable) (reaches : Reaches excused depth 1)
    (isPortable : portable 0 0 source) (readsAs : ReadsAs depth ignoreCase source expression) :
    Yields excused 0 ignoreCase (.captured source) (.captured expression) := by
  intro bound before tail isTail admits referenced state earlier property between behind fuel
    otherFuel
  refine between.branch_of_content unreadable isPortable readsAs isTail ?_ fuel
  intro inner isInner fuel
  obtain ⟨outline, outlines, rfl⟩ := readsAs
  refine alternatives_of_branch unreadable fun fuel => ?_
  refine yieldsAt_moved unreadable reaches isPortable outlines (by simp [Ends]) (by simp)
    (admits.anti ?_) isInner (fun fuel last isGroups onward => ?_) fuel fuel
  · simp only [Piece.captured]
    omega
  · refine otherAlternatives_end unreadable (by simp [onward.rest]) ⟨.inl onward.noNames,
      onward.rest, ?_⟩
    have isNumber : shiftNumber before 1 = before + 1 := Nat.add_comm 1 before
    have isNode : (Outline.captured outline.expression).first.rename (shiftNumber before) =
        .group (before + 1) (alternation (outline.first.rename (shiftNumber (before + 1)))
          (outline.others.map (Node.rename (shiftNumber (before + 1))))) := by
      rw [alternation_rename, Outline.captured, Node.rename, Node.rename_rename, isNumber]
      simp only [shiftNumber_shiftNumber]
      rfl
    simp only [List.append_nil, List.reverse_reverse]
    rw [← isNode]
    refine behind otherFuel _ (congrArg (· + 1) isGroups)
      { onward with
        rest := rfl
        opened := ?_
        referenced := ?_ }
    · rw [onward.opened, Outline.captured, Outline.expression]
      simp only
      omega
    · rw [onward.referenced, Outline.captured, List.map_map, Outline.expression]
      simp only [Function.comp_def, shiftNumber_shiftNumber]

section Pieces

variable {excused : PatternError → Prop} {depth bound before : Nat} {ignoreCase : Bool}
  {tail : List Char} {referenced : List Nat} {state : ReadState} {pieces : List Piece}
  {outlines : List Outline}

/-- What is left of a pattern is read as the alternatives that outlines are, one after another. -/
def FollowedBy (excused : PatternError → Prop) (depth : Nat) (ignoreCase : Bool)
    (tail : List Char) (pieces : List Piece) (outlines : List Outline) : Prop :=
  ∀ ⦃bound before : Nat⦄ ⦃referenced : List Nat⦄ ⦃state : ReadState⦄ (newestFirst : List Node)
    (fuel : Nat), Admits excused bound (before + Piece.width pieces) →
    Between ignoreCase bound ((Piece.texts before pieces).flatMap ('|' :: ·) ++ tail) before
      referenced state →
    Settles excused (otherAlternatives fuel depth newestFirst) state fun nodes after =>
      nodes = newestFirst.reverse ++ Outline.allBranches before outlines ∧
        outlines.map Outline.groups = pieces.map Piece.groups ∧
          Between ignoreCase bound tail (before + Outline.width outlines)
            (Outline.references before referenced outlines) after

theorem FollowedBy.branch_cons {piece : Piece} {outline : Outline}
    (isTail : ∀ char ∈ tail.head?, char = ')')
    (yields : Yields excused depth ignoreCase piece outline)
    (followed : FollowedBy excused depth ignoreCase tail pieces outlines)
    (admits : Admits excused bound (before + Piece.width (piece :: pieces)))
    (between : Between ignoreCase bound (piece.text before ++
      ((Piece.texts (before + piece.groups) pieces).flatMap ('|' :: ·) ++ tail)) before referenced
      state) (earlier : Node → List Node) (fuel otherFuel : Nat) :
    Settles excused (branch fuel depth []) state fun first middle =>
      Settles excused (otherAlternatives otherFuel depth (earlier first)) middle
        fun nodes after => ∃ others,
          Outline.allBranches before (outline :: outlines) = first :: others ∧
            nodes = (earlier first).reverse ++ others ∧
              (outline :: outlines).map Outline.groups = (piece :: pieces).map Piece.groups ∧
                Between ignoreCase bound tail (before + Outline.width (outline :: outlines))
                  (Outline.references before referenced (outline :: outlines)) after := by
  rw [Piece.width, ← Nat.add_assoc] at admits
  refine yields (Piece.ends_texts isTail _ pieces) (admits.anti (Nat.le_add_right _ _)) between
    (fun fuel last isGroups onward => ?_) fuel otherFuel
  rw [← isGroups] at onward admits
  refine (followed _ fuel admits onward).imp fun nodes after read => ?_
  obtain ⟨rfl, sameGroups, finished⟩ := read
  refine ⟨_, rfl, ?_, ?_, ?_⟩
  · simp
  · rw [List.map_cons, List.map_cons, isGroups, sameGroups]
  · rwa [Nat.add_assoc] at finished

theorem otherAlternatives_united (unreadable : excused .unreadable)
    (isTail : ∀ char ∈ tail.head?, char = ')')
    (yields : List.Forall₂ (Yields excused depth ignoreCase) pieces outlines) :
    FollowedBy excused depth ignoreCase tail pieces outlines := by
  induction yields with
  | nil =>
    intro bound before referenced state newestFirst fuel _ between
    have noBar : state.rest.head? ≠ some '|' := by
      rw [between.rest]
      intro isBar
      exact absurd (isTail '|' isBar) (by decide)
    refine otherAlternatives_end unreadable noBar ⟨?_, rfl, between⟩
    simp [Outline.allBranches]
  | @cons piece outline pieces outlines yields _ ih =>
    intro bound before referenced state newestFirst fuel admits between
    cases fuel with
    | zero => simpa [otherAlternatives] using unreadable
    | succ fuel =>
      have isRest : state.rest = '|' :: (piece.text before ++
          ((Piece.texts (before + piece.groups) pieces).flatMap ('|' :: ·) ++ tail)) := by
        simpa [Piece.texts] using between.rest
      have onward : Between ignoreCase bound (piece.text before ++
          ((Piece.texts (before + piece.groups) pieces).flatMap ('|' :: ·) ++ tail)) before
          referenced { state with rest := _ } := { between with rest := rfl }
      simp only [otherAlternatives, accept, Settles.bind_iff, Settles.get_iff, isRest, reduceIte,
        Settles.modify_iff, Settles.pure_iff]
      refine (ih.branch_cons isTail yields admits onward (· :: newestFirst) fuel fuel).imp
        fun first middle read => read.imp ?_
      rintro nodes after ⟨others, isBranches, rfl, read⟩
      exact ⟨by simp [isBranches], read⟩

theorem branch_united (unreadable : excused .unreadable)
    (isTail : ∀ char ∈ tail.head?, char = ')') (nonempty : pieces ≠ [])
    (yields : List.Forall₂ (Yields excused depth ignoreCase) pieces outlines)
    (admits : Admits excused bound (before + Piece.width pieces))
    (between : Between ignoreCase bound (Text.join ['|'] (Piece.texts before pieces) ++ tail) before
      referenced state) (fuel otherFuel : Nat) :
    Settles excused (branch fuel depth []) state fun first middle =>
      Settles excused (otherAlternatives otherFuel depth []) middle fun others after =>
        first :: others = Outline.allBranches before outlines ∧
          outlines.map Outline.groups = pieces.map Piece.groups ∧
            Between ignoreCase bound tail (before + Outline.width outlines)
              (Outline.references before referenced outlines) after := by
  cases yields with
  | nil => exact absurd rfl nonempty
  | @cons piece outline pieces outlines yields others =>
    rw [Piece.texts, join_cons, List.append_assoc] at between
    refine ((otherAlternatives_united unreadable isTail others).branch_cons isTail yields admits
      between (fun _ => []) fuel otherFuel).imp fun first middle read => read.imp ?_
    rintro nodes after ⟨others, isBranches, rfl, read⟩
    exact ⟨by simp [isBranches], read⟩

end Pieces

end Reading

/-- The alternation of expressions, each of which is a group. -/
def Expression.join (first : Expression) (others : List Expression) : Expression :=
  Reading.Outline.united ((first :: others).map Reading.Outline.captured)

namespace Reading

open Pattern (groupsIn portable)

variable {expressions : List Expression} {bound : Nat}

theorem texts_captured (before : Nat) (sources : List (List Char)) :
    Piece.texts before (sources.map Piece.captured) = Pattern.captureEach before sources := by
  induction sources generalizing before with
  | nil => rfl
  | cons source sources ih =>
    rw [List.map_cons, Piece.texts, ih, Pattern.captureEach, Piece.captured, Nat.add_assoc before 1,
      Nat.add_comm 1]
    rfl

/-- Sources are portable and are read alone as expressions. -/
abbrev ReadEach (depth : Nat) (ignoreCase : Bool) : List (List Char) → List Expression → Prop :=
  List.Forall₂ fun source expression =>
    portable 0 0 source ∧ ReadsAs depth ignoreCase source expression

theorem ReadEach.yields {sources : List (List Char)} (unreadable : excused .unreadable)
    (reaches : Reaches excused depth 1) (readEach : ReadEach depth ignoreCase sources expressions) :
    List.Forall₂ (Yields excused 0 ignoreCase) (sources.map .captured)
      (expressions.map .captured) := by
  rw [List.forall₂_map_left_iff, List.forall₂_map_right_iff]
  exact readEach.imp fun _ _ reads => yields_captured unreadable reaches reads.1 reads.2

theorem joinCapturing_toList (sources : List String) :
    (Pattern.joinCapturing "|" sources).toList =
      Text.join ['|'] (Piece.texts 0 ((sources.map String.toList).map .captured)) := by
  rw [texts_captured]
  exact String.toList_ofList

theorem countGroups_eq : Pattern.countGroups = groupsIn 0 ∘ String.toList :=
  rfl

def referenceBound (pattern : List Char) : Nat :=
  (pattern.foldl (fun bytes char => bytes + char.utf8Size) 0) / 2

theorem read_of_settles {pattern : List Char} {property : Expression → Prop}
    (reads : ∀ fuel, Settles excused (alternatives fuel 0)
      { rest := pattern, referenceBound := referenceBound pattern } fun node after =>
        after.rest = [] ∧ property ⟨node, after.referenced, after.opened⟩) :
    (∃ expression, Expression.read pattern = .ok expression ∧ property expression) ∨
      ∃ cause, Expression.read pattern = .error cause ∧ excused cause := by
  have settles := reads (6 * pattern.length + 10)
  have isRead : Expression.read pattern =
      ((alternatives (6 * pattern.length + 10) 0).run
        { rest := pattern, referenceBound := referenceBound pattern } >>= fun found =>
          if found.2.rest.isEmpty then
            pure { node := found.1, referenced := found.2.referenced, groups := found.2.opened }
          else throw .unexpectedText) :=
    rfl
  rw [isRead]
  cases result : (alternatives (6 * pattern.length + 10) 0).run
      { rest := pattern, referenceBound := referenceBound pattern } with
  | error cause => exact .inr ⟨cause, rfl, (Settles.of_error result).mp settles⟩
  | ok found =>
    obtain ⟨isEmpty, holds⟩ := (Settles.of_ok result).mp settles
    refine .inl ⟨_, ?_, holds⟩
    rw [Success.ok_bind, isEmpty]
    rfl

theorem alternatives_behindFlags (unreadable : excused .unreadable) {source : String}
    {content : List Char} (isGroup : source.toList = '(' :: content)
    (noComment : afterBlanks false .between source.toList = .ok source.toList)
    (behind : ∀ fuel otherFuel, Settles excused (branch fuel 0 [])
      (initial ignoreCase source.toList bound) fun first middle =>
        Settles excused (otherAlternatives otherFuel 0 []) middle fun others after =>
          (after.names = [] ∨ excused .mixedReferences) ∧
            property (alternation first others) after) (fuel : Nat) :
    Settles excused (alternatives fuel 0)
      { rest := (pattern source ignoreCase).toList, referenceBound := bound } property := by
  refine alternatives_of_branch unreadable fun fuel => ?_
  refine branch_behindFlags unreadable fuel noComment ?_ (pattern_toList _ ignoreCase) rfl ?_
  · simp [isGroup, quantifier?]
  · exact fun other => behind other fuel

theorem read_join_settles (unreadable : excused .unreadable) (reaches : Reaches excused depth 1)
    {first : String} {others : List String}
    (readEach : ReadEach depth ignoreCase ((first :: others).map String.toList)
      (expression :: expressions))
    (admits : Admits excused
      (referenceBound (pattern (Pattern.joinCapturing "|" (first :: others)) ignoreCase).toList)
      (Piece.width (((first :: others).map String.toList).map .captured))) :
    (∃ joined, Expression.read
        (pattern (Pattern.joinCapturing "|" (first :: others)) ignoreCase).toList = .ok joined ∧
      joined = Expression.join expression expressions ∧
        (expression :: expressions).map Expression.groups =
          (first :: others).map Pattern.countGroups) ∨
      ∃ cause, Expression.read
        (pattern (Pattern.joinCapturing "|" (first :: others)) ignoreCase).toList = .error cause ∧
          excused cause := by
  have isSource := joinCapturing_toList (first :: others)
  have isFirst : (Pattern.joinCapturing "|" (first :: others)).toList =
      Pattern.capture 0 first.toList ++ _ :=
    isSource.trans (join_cons _ _ _)
  refine read_of_settles fun fuel => alternatives_behindFlags unreadable isFirst ?_ ?_ fuel
  · rw [isFirst]
    exact (List.forall₂_cons.mp readEach).1.2.afterBlanks_capture 0 _
  · intro fuel otherFuel
    generalize referenceBound _ = bound at admits ⊢
    have between : Between ignoreCase bound (Text.join ['|'] (Piece.texts 0 _) ++ []) 0 []
        (initial ignoreCase (Pattern.joinCapturing "|" (first :: others)).toList bound) :=
      ⟨isSource.trans (List.append_nil _).symm, rfl, rfl, rfl, rfl, rfl⟩
    refine (branch_united unreadable (by simp) (by simp) (readEach.yields unreadable reaches)
      (by rwa [Nat.zero_add]) between fuel otherFuel).imp fun first middle read => read.imp ?_
    rintro others after ⟨isBranches, sameGroups, finished⟩
    refine ⟨.inl finished.noNames, finished.rest, ?_, ?_⟩
    · rw [finished.referenced, finished.opened, Expression.join, Outline.united, ← isBranches,
        Nat.zero_add]
      rfl
    · simpa [Outline.captured, Piece.captured, countGroups_eq, Function.comp_def] using
        congrArg (List.map Nat.pred) sameGroups

end Reading
end Highlighter.Regex

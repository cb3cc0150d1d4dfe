import Highlighter.Proofs.Regex.Reading

/-!
# Reading comes to an end

Every piece that is read shortens what is left, so that reading a pattern never runs out of the
fuel that it is given.  Groups are numbered from one on in the order in which they are opened, no
two alike, and a pattern refers only to groups that have been opened.
-/
namespace Highlighter.Regex

namespace Node

theorem referencesOf_append (first second : List Node) :
    referencesOf (first ++ second) = referencesOf first ++ referencesOf second := by
  induction first with
  | nil => rfl
  | cons node nodes ih => simp only [List.cons_append, referencesOf, ih, List.append_assoc]

end Node

namespace Reading

variable {α : Type} {state : ReadState} {action : Reading α} {property : α → ReadState → Prop}
  {node : Node}

/-! ## Numbers of groups -/

structure Numbered (first last : Nat) (numbers : List Nat) : Prop where
  order : first ≤ last
  different : numbers.Nodup
  bounds : ∀ number ∈ numbers, first < number ∧ number ≤ last

namespace Numbered

variable {first middle last : Nat} {numbers others : List Nat}

theorem nil (order : first ≤ last) : Numbered first last [] where
  order := order
  different := List.nodup_nil
  bounds := by simp

theorem append (left : Numbered first middle numbers) (right : Numbered middle last others) :
    Numbered first last (numbers ++ others) where
  order := Nat.le_trans left.order right.order
  different := by
    refine List.nodup_append.mpr ⟨left.different, right.different, ?_⟩
    intro number member other isOther same
    have before := (left.bounds number member).2
    have behind := (right.bounds other isOther).1
    omega
  bounds := by
    intro number member
    have inOrder := left.order
    have inOrder' := right.order
    rcases List.mem_append.mp member with isFirst | isSecond
    · have bounds := left.bounds number isFirst
      omega
    · have bounds := right.bounds number isSecond
      omega

theorem cons (inner : Numbered (first + 1) last numbers) :
    Numbered first last ((first + 1) :: numbers) where
  order := Nat.le_of_succ_le inner.order
  different := by
    refine List.nodup_cons.mpr ⟨fun member => ?_, inner.different⟩
    have bounds := (inner.bounds _ member).1
    omega
  bounds := by
    have inOrder := inner.order
    refine List.forall_mem_cons.mpr ⟨by omega, fun number member => ?_⟩
    have bounds := inner.bounds number member
    omega

theorem sublist (numbered : Numbered first last numbers) (isPart : others.Sublist numbers) :
    Numbered first last others where
  order := numbered.order
  different := numbered.different.sublist isPart
  bounds := fun number member => numbered.bounds number (isPart.subset member)

end Numbered

/-! ## Parentheses -/

def parentheses (chars : List Char) : Nat :=
  chars.countP fun char => char = '(' || char = ')'

@[simp]
theorem parentheses_cons (char : Char) (chars : List Char) :
    parentheses (char :: chars) =
      parentheses chars + if char = '(' ∨ char = ')' then 1 else 0 := by
  simp [parentheses, List.countP_cons]

theorem parentheses_append (first second : List Char) :
    parentheses (first ++ second) = parentheses first + parentheses second :=
  List.countP_append

theorem parentheses_le {chars others : List Char} (isEnd : chars <:+ others) :
    parentheses chars ≤ parentheses others :=
  isEnd.sublist.countP_le

/-! ## Parts of a pattern -/

/-- What reading a part of a pattern does.  No more is left than there was, and each group has
taken two parentheses, apart from a number of parentheses that were taken before.  Groups are
numbered in turn, and what is referred to are open groups. -/
structure Advances (earlier : Nat) (before after : ReadState) (groups references : List Nat) :
    Prop where
  rest : after.rest.length ≤ before.rest.length
  weight : parentheses after.rest + 2 * after.opened ≤
    parentheses before.rest + 2 * before.opened + earlier
  numbered : Numbered before.opened after.opened groups
  referenced : ∀ number ∈ after.referenced, number ∈ before.referenced ∨ number ≤ after.opened
  within : ∀ number ∈ references, number ≤ after.opened

abbrev Takes (earlier : Nat) (before : ReadState) (node : Node) (after : ReadState) : Prop :=
  Advances earlier before after node.groups node.references

abbrev TakesEach (earlier : Nat) (before : ReadState) (nodes : List Node) (after : ReadState) :
    Prop :=
  Advances earlier before after (Node.groupsOf nodes) (Node.referencesOf nodes)

section Advances

variable {earlier later : Nat} {before middle after : ReadState}
  {groups others references numbers : List Nat}

theorem Keeps.advances (keeps : Keeps before after)
    (within : ∀ number ∈ references, number ≤ before.opened) :
    Advances 0 before after [] references where
  rest := keeps.rest.length_le
  weight := by
    have fewer := parentheses_le keeps.rest
    rw [keeps.opened]
    omega
  numbered := .nil (Nat.le_of_eq keeps.opened.symm)
  referenced := keeps.opened ▸ keeps.referenced
  within := keeps.opened ▸ within

namespace Advances

theorem refl (state : ReadState) : Advances 0 state state [] [] :=
  (Keeps.refl state).advances (by simp)

theorem trans (first : Advances earlier before middle groups references)
    (second : Advances later middle after others numbers) :
    Advances (earlier + later) before after (groups ++ others) (references ++ numbers) where
  rest := Nat.le_trans second.rest first.rest
  weight := by
    have weight := first.weight
    have otherWeight := second.weight
    omega
  numbered := first.numbered.append second.numbered
  referenced := by
    intro number member
    rcases second.referenced number member with isEarlier | isOpen
    · exact (first.referenced number isEarlier).imp_right fun isOpen =>
        Nat.le_trans isOpen second.numbered.order
    · exact .inr isOpen
  within := List.forall_mem_append.mpr
    ⟨fun number member => Nat.le_trans (first.within number member) second.numbered.order,
      second.within⟩

theorem part (whole : Advances earlier before after groups references)
    (isPart : others.Sublist groups) (subset : numbers ⊆ references) (more : earlier ≤ later) :
    Advances later before after others numbers where
  rest := whole.rest
  weight := Nat.le_trans whole.weight (Nat.add_le_add_left more _)
  numbered := whole.numbered.sublist isPart
  referenced := whole.referenced
  within := fun number member => whole.within number (subset member)

theorem more (whole : Advances earlier before after groups references) (more : earlier ≤ later) :
    Advances later before after groups references :=
  whole.part (List.Sublist.refl _) (List.Subset.refl _) more

theorem keep (whole : Advances earlier before middle groups references)
    (keeps : Keeps middle after) : Advances earlier before after groups references := by
  simpa using whole.trans (keeps.advances (List.forall_mem_nil _))

theorem behind (onward : Advances earlier middle after groups references)
    (keeps : Keeps before middle) : Advances earlier before after groups references := by
  simpa using (keeps.advances (List.forall_mem_nil _)).trans onward

end Advances

end Advances

theorem close_takes {before : ReadState} {earlier : Nat} {groups references : List Nat}
    (entered : Advances (earlier + 1) before state groups references) :
    Settles IsLocal close state fun _ after =>
      Advances earlier before after groups references := by
  refine (close_proceeds state).imp ?_
  rintro _ after ⟨isRest, keeps⟩
  have whole := entered.keep keeps
  have weight := entered.weight
  have same := keeps.opened
  rw [isRest, parentheses_cons, if_pos (.inr rfl)] at weight
  exact ⟨whole.rest, by omega, whole.numbered, whole.referenced, whole.within⟩

/-! ## Fuel -/

abbrev EndsWith (fuel need : Nat) (action : Reading α) (state : ReadState)
    (property : α → ReadState → Prop) : Prop :=
  Settles (fun cause => cause = .unreadable → fuel < need) action state property

theorem Settles.excuse {excused others : PatternError → Prop}
    (settles : Settles excused action state property)
    (weaker : ∀ cause, excused cause → others cause) : Settles others action state property := by
  cases result : action.run state with
  | error cause => exact (of_error result).mpr (weaker cause ((of_error result).mp settles))
  | ok found => exact (of_ok result).mpr ((of_ok result).mp settles)

theorem EndsWith.spend {fuel need more others : Nat}
    (ends : EndsWith fuel need action state property) (less : need + more ≤ others + fuel) :
    EndsWith more others action state property :=
  ends.excuse fun _ ran isOut => by
    have short := ran isOut
    omega

theorem Settles.fed {fuel need : Nat} (settles : Settles IsLocal action state property) :
    EndsWith fuel need action state property :=
  settles.excuse fun _ isLocal isOut => absurd isOut isLocal.1

/-- What is read with enough fuel does not run out of it. -/
structure AllRead (fuel : Nat) : Prop where
  alternatives : ∀ depth state,
    EndsWith fuel (6 * state.rest.length + 6) (alternatives fuel depth) state (Takes 0 state)
  otherAlternatives : ∀ depth newestFirst {before state},
    TakesEach 0 before newestFirst.reverse state →
      EndsWith fuel (6 * state.rest.length + 5) (otherAlternatives fuel depth newestFirst) state
        (TakesEach 0 before)
  branch : ∀ depth newestFirst {before state}, TakesEach 0 before newestFirst.reverse state →
    EndsWith fuel (6 * state.rest.length + 5) (branch fuel depth newestFirst) state
      (Takes 0 before)
  piece : ∀ depth {state char rest}, state.rest = char :: rest → char ≠ '|' ∧ char ≠ ')' →
    EndsWith fuel (6 * state.rest.length + 4) (piece fuel depth) state fun node after =>
      Takes 0 state node after ∧ after.rest.length < state.rest.length
  atom : ∀ depth {state char rest}, state.rest = char :: rest → char ≠ '|' ∧ char ≠ ')' →
    EndsWith fuel (6 * state.rest.length + 3) (atom fuel depth) state fun node after =>
      Takes 0 state node after ∧ after.rest.length < state.rest.length ∨
        char ∈ ['?', '*', '+'] ∧ node = .empty ∧ after = state
  group : ∀ depth state,
    EndsWith fuel (6 * state.rest.length + 8) (group fuel depth) state (Takes 1 state)
  conditional : ∀ depth state,
    EndsWith fuel (6 * state.rest.length + 7) (conditional fuel depth) state (Takes 0 state)

theorem sequence_takes {nodes : List Node} {before after : ReadState}
    (each : TakesEach 0 before nodes after) : Takes 0 before (sequence nodes) after := by
  unfold sequence
  split
  · exact each
  · simpa [TakesEach, Node.groupsOf, Node.referencesOf] using each
  · exact each

theorem TakesEach.snoc {newestFirst : List Node} {before middle after : ReadState}
    (each : TakesEach 0 before newestFirst.reverse middle) (takes : Takes 0 middle node after) :
    TakesEach 0 before (node :: newestFirst).reverse after := by
  simpa [TakesEach, Node.groupsOf_append, Node.referencesOf_append, Node.groupsOf,
    Node.referencesOf] using each.trans takes

theorem numbers_of_isEmpty (isEmpty : node.isEmpty) : node.groups = [] ∧ node.references = [] := by
  cases node <;> first | exact ⟨rfl, rfl⟩ | cases isEmpty

theorem branches_numbers (node : Node) :
    (branches node).1.groups ++ (branches node).2.groups = node.groups ∧
      (branches node).1.references ++ (branches node).2.references = node.references := by
  unfold branches
  split <;> simp [Node.groups, Node.groupsOf, Node.references, Node.referencesOf]

theorem asCondition_numbers (node : Node) :
    (asCondition node).groups = node.groups ∧ (asCondition node).references = node.references := by
  unfold asCondition
  split <;> exact ⟨rfl, rfl⟩

section Step

variable {fuel : Nat} (all : AllRead fuel) (depth : Nat) (state : ReadState) {before : ReadState}
  {char : Char} {rest : List Char}

include all

theorem alternatives_takes :
    EndsWith (fuel + 1) (6 * state.rest.length + 6) (alternatives (fuel + 1) depth) state
      (Takes 0 state) := by
  simp only [EndsWith, alternatives, Settles.bind_iff]
  refine ((all.branch depth [] (.refl state)).spend (by omega)).imp fun node middle takes => ?_
  have shorter := takes.rest
  refine ((all.otherAlternatives depth [] (.refl middle)).spend (by omega)).imp ?_
  intro nodes after others
  have whole : Takes 0 state (.alternation (node :: nodes)) after := takes.trans others
  split
  · simp only [Settles.bind_iff, Settles.get_iff]
    split
    · simp
    · simpa [Takes, Node.groups, Node.groupsOf, Node.references, Node.referencesOf] using whole
  · exact whole

theorem otherAlternatives_takes (newestFirst : List Node)
    (each : TakesEach 0 before newestFirst.reverse state) :
    EndsWith (fuel + 1) (6 * state.rest.length + 5) (otherAlternatives (fuel + 1) depth newestFirst)
      state (TakesEach 0 before) := by
  simp only [EndsWith, otherAlternatives, Settles.bind_iff]
  refine (accept_proceeds '|' state).fed.imp ?_
  rintro isAccepted after ⟨keeps, shorter⟩
  have each := each.keep keeps
  split
  · have fewer := shorter ‹_›
    rw [Settles.bind_iff]
    refine ((all.branch depth [] (.refl after)).spend (by omega)).imp fun node middle takes => ?_
    have less := takes.rest
    exact (all.otherAlternatives depth _ (TakesEach.snoc each takes)).spend (by omega)
  · exact each

theorem branch_takes (newestFirst : List Node)
    (each : TakesEach 0 before newestFirst.reverse state) :
    EndsWith (fuel + 1) (6 * state.rest.length + 5) (branch (fuel + 1) depth newestFirst) state
      (Takes 0 before) := by
  simp only [EndsWith, branch, Settles.bind_iff, Settles.get_iff]
  refine (skipBlanks_proceeds state).fed.imp ?_
  rintro _ blank ⟨keeps, -⟩
  have fewer := keeps.rest.length_le
  have each := each.keep keeps
  split
  · exact sequence_takes each
  · exact sequence_takes each
  · exact sequence_takes each
  · rename_i noEnd noBar noClosing
    cases isRest : blank.rest with
    | nil => exact absurd isRest noEnd
    | cons char rest =>
      have goesOn : char ≠ '|' ∧ char ≠ ')' :=
        ⟨fun isBar => noBar rest (by rw [isRest, isBar]),
          fun isClosing => noClosing rest (by rw [isRest, isClosing])⟩
      rw [Settles.bind_iff]
      refine ((all.piece depth isRest goesOn).spend (by omega)).imp ?_
      rintro node after ⟨takes, shorter⟩
      refine (all.branch depth _ ?_).spend (by omega)
      split
      · rename_i isEmpty
        simpa [TakesEach, numbers_of_isEmpty isEmpty] using each.trans takes
      · exact TakesEach.snoc each takes

theorem piece_takes (isRest : state.rest = char :: rest) (goesOn : char ≠ '|' ∧ char ≠ ')') :
    EndsWith (fuel + 1) (6 * state.rest.length + 4) (piece (fuel + 1) depth) state fun node after =>
      Takes 0 state node after ∧ after.rest.length < state.rest.length := by
  simp only [EndsWith, piece, Settles.bind_iff]
  refine ((all.atom depth isRest goesOn).spend (by omega)).imp fun node atomed isNode => ?_
  rcases isNode with ⟨takes, shorter⟩ | ⟨isMark, rfl, rfl⟩
  · have finished {after : ReadState} (keeps : Keeps atomed after) :
        Takes 0 state node after ∧ after.rest.length < state.rest.length :=
      ⟨takes.keep keeps, Nat.lt_of_le_of_lt keeps.rest.length_le shorter⟩
    refine (skipBlanks_proceeds atomed).fed.imp fun _ blank skipped => ?_
    refine (quantifier?_proceeds blank).fed.imp fun found behind quantified => ?_
    have keeps := skipped.1.trans quantified.1
    split
    · exact finished keeps
    · simp only [Settles.ite_iff, Settles.bind_iff, Settles.throw_iff]
      refine ⟨fun _ => ?_, fun _ => by simp⟩
      refine (skipBlanks_proceeds behind).fed.imp fun _ further passed => ?_
      refine (accept_proceeds '?' further).fed.imp fun _ marked isMarked => ?_
      refine (accept_proceeds '+' marked).fed.imp fun _ last isLast => ?_
      simp only [Settles.get_iff, Settles.pure_iff]
      have whole := finished (((keeps.trans passed.1).trans isMarked.1).trans isLast.1)
      split <;> exact whole
  · -- Nothing has been read, and there is nothing for a quantifier to repeat.
    simp only [List.mem_cons, List.not_mem_nil, or_false] at isMark
    rcases isMark with rfl | rfl | rfl <;>
      simp [skipBlanks, afterBlanks, quantifier?, isRest, Node.isRepeatable]

theorem atom_takes (isRest : state.rest = char :: rest) (goesOn : char ≠ '|' ∧ char ≠ ')') :
    EndsWith (fuel + 1) (6 * state.rest.length + 3) (atom (fuel + 1) depth) state fun node after =>
      Takes 0 state node after ∧ after.rest.length < state.rest.length ∨
        char ∈ ['?', '*', '+'] ∧ node = .empty ∧ after = state := by
  have isLength : state.rest.length = rest.length + 1 := by rw [isRest, List.length_cons]
  have isCount : parentheses state.rest =
      parentheses rest + if char = '(' ∨ char = ')' then 1 else 0 := by
    rw [isRest, parentheses_cons]
  have behind {action : Reading Node} {earlier : Nat}
      (ends : EndsWith (fuel + 1) (6 * state.rest.length + 3) action { state with rest }
        (Takes earlier { state with rest }))
      (within : earlier ≤ if char = '(' ∨ char = ')' then 1 else 0) :
      EndsWith (fuel + 1) (6 * state.rest.length + 3)
        (do
          set { state with rest }
          action)
        state fun node after =>
          Takes 0 state node after ∧ after.rest.length < state.rest.length ∨
            char ∈ ['?', '*', '+'] ∧ node = .empty ∧ after = state := by
    rw [EndsWith, Settles.bind_iff, Settles.set_iff]
    refine ends.imp fun node after takes => .inl ?_
    have shorter : after.rest.length ≤ rest.length := takes.rest
    have lighter : parentheses after.rest + 2 * after.opened ≤
        parentheses rest + 2 * state.opened + earlier := takes.weight
    exact ⟨⟨by omega, by omega, takes.numbered, takes.referenced, takes.within⟩, by omega⟩
  have plainly {action : Reading Node} (plain : ReadsPlainly action { state with rest }) :=
    behind (plain.fed.imp fun node after read => by
      simpa [Takes, read.2.1] using read.1.advances read.2.2) (Nat.zero_le _)
  have passed {node : Node} (isPlain : node.IsPlain state.opened) :=
    @plainly (pure node) (Settles.pure_iff.mpr ⟨.refl _, isPlain⟩)
  rw [EndsWith, atom, Settles.bind_iff, Settles.get_iff, isRest]
  simp only
  rw [← isRest]
  split
  · exact passed ⟨rfl, by simp [Node.references]⟩
  · exact passed ⟨rfl, by simp [Node.references]⟩
  · exact passed ⟨rfl, by simp [Node.references]⟩
  · exact behind ((all.group (depth + 1) { state with rest }).spend (by simp only; omega)) (by simp)
  · exact plainly (escapedNode_proceeds _)
  · exact plainly (bracket_proceeds _)
  · simp
  · simp
  · simp
  · exact absurd rfl goesOn.1
  · exact absurd rfl goesOn.2
  · exact plainly (literal_proceeds _ _)

theorem enclosed_takes {wrap : Node → Node} {earlier : Nat} {groups : List Nat}
    (entered : Advances (earlier + 1) before state groups [])
    (isWrapped : ∀ node, (wrap node).groups = groups ++ node.groups ∧
      (wrap node).references = node.references) :
    EndsWith fuel (6 * state.rest.length + 6)
      (do
        let node ← alternatives fuel depth
        close
        return wrap node)
      state (Takes earlier before) := by
  simp only [EndsWith, Settles.bind_iff, Settles.pure_iff]
  refine (all.alternatives depth state).imp fun node inside takes => ?_
  have inside : Advances (earlier + 1) before inside _ _ := entered.trans takes
  simp only [Takes, isWrapped]
  exact (close_takes inside).fed

theorem group_takes :
    EndsWith (fuel + 1) (6 * state.rest.length + 8) (group (fuel + 1) depth) state
      (Takes 1 state) := by
  simp only [EndsWith, group]
  refine Settles.ite_iff.mpr ⟨fun _ => by simp, fun _ => ?_⟩
  rw [Settles.bind_iff]
  refine (skipBlanks_proceeds state).fed.imp ?_
  rintro _ blank ⟨skipped, -⟩
  have fewer := skipped.rest.length_le
  rw [Settles.bind_iff, Settles.get_iff]
  have dropped (count : Nat) : Keeps state { blank with rest := blank.rest.drop count } :=
    skipped.trans (Keeps.same_iff.mpr (List.drop_suffix _ _))
  have marked (count : Nat) {wrap : Node → Node}
      (isWrapped : ∀ node, (wrap node).groups = [] ++ node.groups ∧
        (wrap node).references = node.references) :
      EndsWith (fuel + 1) (6 * state.rest.length + 8)
        (do
          drop count
          let node ← alternatives fuel depth
          close
          return wrap node)
        blank (Takes 1 state) := by
    have shorter := (dropped count).rest.length_le
    rw [EndsWith, Settles.bind_iff, drop, Settles.modify_iff]
    have entered := ((dropped count).advances (List.forall_mem_nil _)).more (Nat.zero_le 2)
    refine (enclosed_takes all depth _ entered isWrapped).spend ?_
    simp only at shorter ⊢
    omega
  have captured {openIt : Reading Nat}
      (opens : Settles IsLocal openIt blank fun number after =>
        number = blank.opened + 1 ∧ after.rest <:+ blank.rest ∧ after.opened = blank.opened + 1 ∧
          after.referenced = blank.referenced) :
      EndsWith (fuel + 1) (6 * state.rest.length + 8)
        (do
          let number ← openIt
          let node ← alternatives fuel depth
          close
          return Node.group number node)
        blank (Takes 1 state) := by
    rw [EndsWith, Settles.bind_iff]
    refine opens.fed.imp ?_
    rintro number after ⟨rfl, isLeft, isOpened, same⟩
    have shorter := isLeft.length_le
    have less := parentheses_le isLeft
    have entered : Advances 2 blank after [blank.opened + 1] [] :=
      ⟨shorter, by omega, .cons (.nil (Nat.le_of_eq isOpened.symm)), by simp +contextual [same],
        by simp⟩
    refine EndsWith.spend (enclosed_takes all depth after (entered.behind skipped) ?_) (by omega)
    exact fun _ => ⟨rfl, rfl⟩
  have named {chars : List Char} (isEnd : chars <:+ blank.rest) :
      Settles IsLocal (openNamedGroup chars) blank fun number after =>
        number = blank.opened + 1 ∧ after.rest <:+ blank.rest ∧ after.opened = blank.opened + 1 ∧
          after.referenced = blank.referenced := by
    simp only [openNamedGroup, openGroup, Settles.bind_iff, Settles.modify_iff, Settles.get_iff,
      Settles.pure_iff]
    split
    · rename_i isName
      simpa using (name?_suffix isName).trans isEnd
    · simp [IsLocal]
  have same (node : Node) : node.groups = [] ++ node.groups ∧ node.references = node.references :=
    ⟨rfl, rfl⟩
  split
  · exact marked 2 same
  · exact marked 2 same
  · exact marked 3 same
  · exact marked 3 same
  · rename_i isRest
    exact captured (named (by rw [isRest]; exact List.suffix_append ['?', '<'] _))
  · rename_i isRest
    exact captured (named (by rw [isRest]; exact List.suffix_append ['?', 'P', '<'] _))
  · rename_i chars isRest
    have isEnd : chars <:+ blank.rest := by
      rw [isRest]
      exact List.suffix_append ['?', 'P', '='] _
    simp only [Settles.bind_iff, Settles.pure_iff]
    refine (namedReference_proceeds isEnd).fed.imp fun number after found => ?_
    have takes := found.1.advances (List.forall_mem_singleton.mpr found.2)
    exact (takes.behind skipped).more (Nat.zero_le 1)
  · exact marked 2 same
  · have shorter := (dropped 2).rest.length_le
    rw [Settles.bind_iff, drop, Settles.modify_iff]
    refine ((all.conditional depth { blank with rest := blank.rest.drop 2 }).spend ?_).imp ?_
    · simp only at shorter ⊢
      omega
    · exact fun _ after takes => (takes.behind (dropped 2)).more (Nat.zero_le 1)
  · rename_i chars _ _ _ _ _ _ _ _ _ isRest
    simp only [Settles.bind_iff, Settles.get_iff, drop, Settles.modify_iff]
    have isDropped : blank.rest.drop 1 = chars := by rw [isRest]; rfl
    refine (flags_proceeds _ _ (by rw [isDropped]; exact Nat.lt_succ_self _)).fed.imp ?_
    rintro scopes flagged ⟨keeps, -⟩
    have keeps := (dropped 1).trans keeps
    have shorter := keeps.rest.length_le
    simp only [Settles.ite_iff, Settles.bind_iff, Settles.modify_iff, Settles.pure_iff]
    refine ⟨fun _ => ?_, fun _ => (keeps.advances (List.forall_mem_nil _)).more (Nat.zero_le 1)⟩
    refine ((all.alternatives depth flagged).spend (by omega)).imp fun node inside takes => ?_
    refine (close_takes ((takes.behind keeps).more (Nat.zero_le 2))).fed.imp ?_
    exact fun _ after closed => closed.keep (Keeps.same_iff.mpr List.suffix_rfl)
  · refine captured ?_
    simp [openGroup]

theorem behindCondition_takes {condition : Node} (takes : Takes 0 before condition state) :
    EndsWith fuel (6 * before.rest.length + 6)
      (do
        close
        let behindCondition := (← get).rest.length
        let body ← alternatives fuel depth
        closeConditional condition behindCondition body)
      state (Takes 0 before) := by
  simp only [EndsWith, Settles.bind_iff, Settles.get_iff]
  refine (close_takes (takes.more (Nat.zero_le 1))).fed.imp fun _ closed takes => ?_
  have shorter := takes.rest
  refine ((all.alternatives depth closed).spend (by omega)).imp fun body inside onward => ?_
  have finished := @close_takes inside before 0 _ _ ((takes.trans onward).more (Nat.zero_le 1))
  have first {after : ReadState} (whole : Advances 0 before after (condition.groups ++ body.groups)
      (condition.references ++ body.references)) : Takes 0 before condition after :=
    whole.part (List.sublist_append_left _ _) (List.subset_append_left _ _) (Nat.le_refl 0)
  simp only [closeConditional, Settles.bind_iff, Settles.get_iff]
  split
  · split
    · simp only [Settles.bind_iff, Settles.pure_iff]
      exact finished.fed.imp fun _ after whole => first whole
    · simp
  · rw [Settles.bind_iff]
    refine finished.fed.imp fun _ after whole => ?_
    split
    · simpa [Takes, asCondition_numbers] using first whole
    · simpa [Takes, Node.groups, Node.references, asCondition_numbers, branches_numbers] using whole

theorem conditional_takes :
    EndsWith (fuel + 1) (6 * state.rest.length + 7) (conditional (fuel + 1) depth) state
      (Takes 0 state) := by
  rw [EndsWith, conditional, Settles.bind_iff, Settles.get_iff]
  have onward {condition : Node} {after : ReadState} (takes : Takes 0 state condition after) :=
    EndsWith.spend (behindCondition_takes all depth after takes)
      (show _ + (fuel + 1) ≤ 6 * state.rest.length + 7 + fuel by omega)
  have byReference {refer : Reading Nat} (refers : Proceeds refer state (· ≤ state.opened)) :
      EndsWith (fuel + 1) (6 * state.rest.length + 7)
        (do
          let number ← refer
          let condition ← pure (Node.reference number)
          close
          let behindCondition := (← get).rest.length
          let body ← alternatives fuel depth
          closeConditional condition behindCondition body)
        state (Takes 0 state) := by
    rw [EndsWith, Settles.bind_iff]
    refine refers.fed.imp fun number after found => onward ?_
    exact found.1.advances (List.forall_mem_singleton.mpr found.2)
  split
  · simp
  · split
    · exact byReference (numberedReference_proceeds _)
    · split
      · exact byReference (quotedReference_proceeds _ _ _)
      · split
        · exact byReference (quotedReference_proceeds _ _ _)
        · rw [Settles.bind_iff]
          refine ((all.alternatives depth state).spend (by omega)).imp ?_
          exact fun condition after takes => onward takes

end Step

theorem allRead (fuel : Nat) : AllRead fuel := by
  induction fuel with
  | zero =>
    constructor <;> intros <;>
      simp [EndsWith, alternatives, otherAlternatives, branch, piece, atom, group, conditional]
  | succ fuel all =>
    exact {
      alternatives := alternatives_takes all
      otherAlternatives := fun depth newestFirst _ state =>
        otherAlternatives_takes all depth state newestFirst
      branch := fun depth newestFirst _ state => branch_takes all depth state newestFirst
      piece := fun depth state _ _ => piece_takes all depth state
      atom := fun depth state _ _ => atom_takes all depth state
      group := group_takes all
      conditional := conditional_takes all }

end Reading

namespace Expression

theorem read_ne_unreadable (pattern : List Char) :
    Expression.read pattern ≠ .error .unreadable := by
  let initial : ReadState :=
    { rest := pattern
      referenceBound := (pattern.foldl (fun bytes char => bytes + char.utf8Size) 0) / 2 }
  have ends := (Reading.allRead (6 * pattern.length + 10)).alternatives 0 initial
  have read : Expression.read pattern =
      ((Reading.alternatives (6 * pattern.length + 10) 0).run initial >>= fun found =>
        if found.2.rest.isEmpty then
          pure { node := found.1, referenced := found.2.referenced, groups := found.2.opened }
        else throw .unexpectedText) :=
    rfl
  intro isOut
  rw [read] at isOut
  cases result : (Reading.alternatives (6 * pattern.length + 10) 0).run initial with
  | error cause =>
    rw [result] at isOut
    have short := (Reading.Settles.of_error result).mp ends (Except.error.inj isOut)
    simp only [initial] at short
    omega
  | ok found =>
    rw [result, Success.ok_bind] at isOut
    split at isOut <;> cases isOut

/-- An expression has the groups that it counts, and refers to no others. -/
structure IsSound (expression : Expression) : Prop where
  groups : ∀ number ∈ expression.node.groups, 0 < number ∧ number ≤ expression.groups
  referenced : ∀ number ∈ expression.referenced, number ≤ expression.groups
  references : ∀ number ∈ expression.node.references, number ≤ expression.groups

variable {pattern : List Char} {expression : Expression}

theorem read_advances (isRead : read pattern = .ok expression) :
    Reading.Numbered 0 expression.groups expression.node.groups ∧ expression.IsSound := by
  obtain ⟨⟨node, state⟩, isNode, isRead⟩ := Success.bind_eq_ok.mp isRead
  have takes := ((Reading.allRead _).alternatives _ _).ensures isNode
  simp only at isRead
  split at isRead
  · cases isRead
    refine ⟨takes.numbered, takes.numbered.bounds, fun number member => ?_, takes.within⟩
    exact (takes.referenced number member).resolve_left (by simp)
  · cases isRead

/-- The groups of a pattern have different numbers, counted from one on. -/
theorem read_numbered (isRead : read pattern = .ok expression) :
    Reading.Numbered 0 expression.groups expression.node.groups :=
  (read_advances isRead).1

theorem read_sound (isRead : read pattern = .ok expression) : expression.IsSound :=
  (read_advances isRead).2

end Expression

end Highlighter.Regex

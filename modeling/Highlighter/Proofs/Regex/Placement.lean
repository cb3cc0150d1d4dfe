import Highlighter.Proofs.Regex.Matching

/-!
# Where groups lie

What a match notes of a group is a stretch behind the place where the match begins, unless
the group stands in a look-behind.  A group that consists of other groups is covered by
them without gaps.
-/
namespace Highlighter.Regex

variable {number slot : Nat} {second first : Effect} {numbers : List Nat} {node : Node}

/-! ## Taking matches apart -/

namespace Effect

/-- An effect is another one up to groups that it forgets and the other one leaves alone. -/
def Covers (effect other : Effect) : Prop :=
  ∀ slot, effect slot = other slot ∨ effect slot = some none ∧ other slot = none

theorem Covers.refl (effect : Effect) : effect.Covers effect :=
  fun _ => .inl rfl

theorem Covers.trans {third : Effect} (left : first.Covers second) (right : second.Covers third) :
    first.Covers third := by
  intro slot
  have := left slot
  have := right slot
  grind

theorem andThen_of_noted (noted : second slot ≠ none) :
    (first.andThen second) slot = second slot := by
  cases isNoted : second slot with
  | none => exact absurd isNoted noted
  | some entry => rw [andThen_apply, isNoted, Option.some_or]

theorem covers_forget (numbers : List Nat) (effect : Effect) :
    ((Effect.forget numbers).andThen effect).Covers effect := by
  intro slot
  rw [andThen_apply, Effect.forget]
  cases effect slot with
  | none => split <;> simp
  | some entry => exact .inl rfl

theorem Covers.followedBy (covers : first.Covers second) (next : Effect) :
    (first.andThen next).Covers (second.andThen next) := by
  intro slot
  rw [andThen_apply, andThen_apply]
  cases next slot with
  | none => exact covers slot
  | some entry => exact .inl rfl

theorem Covers.of_noted (covers : first.Covers second) (noted : second slot ≠ none) :
    first slot = second slot :=
  (covers slot).resolve_right fun forgotten => noted forgotten.2

theorem Covers.noted_iff (covers : first.Covers second) {place : Place} :
    first slot = some (some place) ↔ second slot = some (some place) := by
  have := covers slot
  grind

end Effect

namespace Matches

variable {nodes : List Node} {node : Node} {start stop : Place} {effect : Effect}

theorem ofNil (matched : Matches [] start stop effect) : start = stop ∧ effect = .skip := by
  have stays : start = stop := by
    generalize isNodes : [] = nodes at matched
    induction matched with
    | nil => rfl
    | append _ _ before behind =>
      obtain ⟨isFirst, isSecond⟩ := List.append_eq_nil_iff.mp isNodes.symm
      exact (before isFirst.symm).trans (behind isSecond.symm)
    | forget _ inner => exact inner isNodes
    | _ => cases isNodes
  refine ⟨stays, ?_⟩
  funext slot
  exact matched.unchanged (by simp [Notable, Node.groupsOf, Node.anyKeepsOut])

theorem ofConsCons {next : Node} (matched : Matches (node :: next :: nodes) start stop effect) :
    ∃ middle left right, Matches [node] start middle left ∧
      Matches (next :: nodes) middle stop right ∧ effect.Covers (left.andThen right) := by
  generalize isNodes : node :: next :: nodes = all at matched
  induction matched generalizing next nodes with
  | append isBefore isBehind before behind =>
    rename_i first second start middle stop left right
    cases first with
    | nil =>
      obtain ⟨rfl, rfl⟩ := ofNil isBefore
      rw [Effect.skip_andThen]
      exact behind isNodes
    | cons head tail =>
      cases tail with
      | nil =>
        cases isNodes
        exact ⟨middle, left, right, isBefore, isBehind, .refl _⟩
      | cons other tail =>
        cases isNodes
        obtain ⟨between, one, more, isFirst, others, covers⟩ := before rfl
        refine ⟨between, one, more.andThen right, isFirst, .append others isBehind, ?_⟩
        rw [← Effect.andThen_assoc]
        exact covers.followedBy right
  | forget _ inner =>
    obtain ⟨middle, left, right, isFirst, others, covers⟩ := inner isNodes
    exact ⟨middle, left, right, isFirst, others, (Effect.covers_forget _ _).trans covers⟩
  | _ => cases isNodes

theorem ofCons (matched : Matches (node :: nodes) start stop effect) :
    ∃ middle left right, Matches [node] start middle left ∧ Matches nodes middle stop right ∧
      effect.Covers (left.andThen right) := by
  cases nodes with
  | nil => exact ⟨stop, effect, .skip, matched, .nil, by simpa using .refl effect⟩
  | cons next nodes => exact ofConsCons matched

/-- What the match of a single node comes from, as far as groups go. -/
def Single (start stop : Place) (effect : Effect) : Node → Prop
  | .empty => start = stop ∧ effect.Covers .skip
  | .concat nodes => ∃ inner, Matches nodes start stop inner ∧ effect.Covers inner
  | .group number node => ∃ inner, Matches [node] start stop inner ∧
      effect.Covers ((Effect.write (2 * number) start).andThen
        (inner.andThen (.write (2 * number + 1) stop)))
  | .alternation nodes => ∃ node ∈ nodes, ∃ inner, Matches [node] start stop inner ∧
      effect.Covers inner
  | _ => True

theorem Single.covers {other : Effect} (single : Single start stop other node)
    (covers : effect.Covers other) : Single start stop effect node := by
  cases node with
  | empty => exact ⟨single.1, covers.trans single.2⟩
  | concat nodes =>
    obtain ⟨inner, matched, more⟩ := single
    exact ⟨inner, matched, covers.trans more⟩
  | group number node =>
    obtain ⟨inner, matched, more⟩ := single
    exact ⟨inner, matched, covers.trans more⟩
  | alternation nodes =>
    obtain ⟨node, member, inner, matched, more⟩ := single
    exact ⟨node, member, inner, matched, covers.trans more⟩
  | _ => trivial

theorem single (matched : Matches [node] start stop effect) : Single start stop effect node := by
  generalize isNodes : [node] = nodes at matched
  induction matched with
  | nil => cases isNodes
  | append isBefore isBehind before behind =>
    rcases List.append_eq_singleton_iff.mp isNodes.symm with ⟨rfl, isSecond⟩ | ⟨isFirst, rfl⟩
    · obtain ⟨rfl, rfl⟩ := ofNil isBefore
      rw [Effect.skip_andThen]
      exact behind isSecond.symm
    · obtain ⟨rfl, rfl⟩ := ofNil isBehind
      rw [Effect.andThen_skip]
      exact before isFirst.symm
  | forget _ inner => exact (inner isNodes).covers (Effect.covers_forget _ _)
  | empty =>
    cases isNodes
    exact ⟨rfl, .refl _⟩
  | concat inner _ =>
    cases isNodes
    exact ⟨_, inner, .refl _⟩
  | group inner _ =>
    cases isNodes
    exact ⟨_, inner, .refl _⟩
  | alternation member inner _ =>
    cases isNodes
    exact ⟨_, member, _, inner, .refl _⟩
  | _ =>
    cases isNodes
    trivial

end Matches

/-! ## Groups side by side -/

/-- Groups are noted side by side from a place to another one. -/
def Effect.Tiles (effect : Effect) : Place → List Nat → Place → Prop
  | first, [], last => first = last
  | first, number :: numbers, last =>
    ∃ middle, effect (2 * number) = some (some first) ∧
      effect (2 * number + 1) = some (some middle) ∧ first.Precedes middle ∧
      effect.Tiles middle numbers last

theorem Effect.Tiles.imp {effect other : Effect} {first last : Place}
    (tiles : other.Tiles first numbers last)
    (same : ∀ slot, slot / 2 ∈ numbers → other slot ≠ none → effect slot = other slot) :
    effect.Tiles first numbers last := by
  induction numbers generalizing first with
  | nil => exact tiles
  | cons number numbers ih =>
    obtain ⟨middle, isStart, isStop, order, rest⟩ := tiles
    refine ⟨middle, ?_, ?_, order, ih rest fun slot member =>
      same slot (List.mem_cons_of_mem _ member)⟩
    · have isNumber : 2 * number / 2 = number := by omega
      rw [same _ (by simp [isNumber]) (by simp [isStart]), isStart]
    · have isNumber : (2 * number + 1) / 2 = number := by omega
      rw [same _ (by simp [isNumber]) (by simp [isStop]), isStop]

namespace Node

def items : Node → List Node
  | .empty => []
  | .concat nodes => nodes
  | node => [node]

theorem eq_group (isNumber : node.number? = some number) :
    ∃ body, node = .group number body := by
  cases node <;> cases isNumber
  exact ⟨_, rfl⟩

mutual

/-- Whether a group, wherever it stands in a node, consists of given groups one after
another, and these stand nowhere else. -/
def laidOut (wrapper : Nat) (parts : Option (List Nat)) : Node → Bool
  | .group number node =>
    if number = wrapper then parts.all fun parts => node.items.map number? == parts.map some
    else !(parts.getD []).contains number && laidOut wrapper parts node
  | .concat nodes => allLaidOut wrapper parts nodes
  | .alternation nodes => allLaidOut wrapper parts nodes
  | .look _ _ node => laidOut wrapper parts node
  | .repetition node _ _ _ => laidOut wrapper parts node
  | .atomic node => laidOut wrapper parts node
  | .conditional condition whenTrue whenFalse =>
    laidOut wrapper parts condition && laidOut wrapper parts whenTrue &&
      laidOut wrapper parts whenFalse
  | _ => true

def allLaidOut (wrapper : Nat) (parts : Option (List Nat)) : List Node → Bool
  | [] => true
  | node :: nodes => laidOut wrapper parts node && allLaidOut wrapper parts nodes

end

variable {parts : Option (List Nat)} {wrapper : Nat} {nodes : List Node}

theorem allLaidOut_eq_all :
    allLaidOut wrapper parts nodes = nodes.all (laidOut wrapper parts) := by
  induction nodes with
  | nil => rfl
  | cons node nodes ih => rw [allLaidOut, ih, List.all_cons]

theorem laidOut_inside (isLaidOut : laidOut wrapper parts node)
    (notWrapper : node.number? ≠ some wrapper) :
    allLaidOut wrapper parts node.inside ∧
      ∀ number ∈ parts.getD [], node.number? ≠ some number := by
  cases node with
  | group number node =>
    have different : number ≠ wrapper := fun same => notWrapper (congrArg some same)
    simp only [laidOut, if_neg different, Bool.and_eq_true, Bool.not_eq_true',
      List.contains_eq_mem, decide_eq_false_iff_not] at isLaidOut
    refine ⟨by simpa [inside, allLaidOut] using isLaidOut.2, ?_⟩
    rintro _ isPart ⟨⟩
    exact isLaidOut.1 isPart
  | _ => simp_all [laidOut, inside, allLaidOut, number?]

theorem parts_not_mem (isLaidOut : allLaidOut wrapper parts nodes)
    (noWrapper : wrapper ∉ groupsOf nodes) {number : Nat} (isPart : number ∈ parts.getD []) :
    number ∉ groupsOf nodes := by
  have each (node : Node) :
      laidOut wrapper parts node → wrapper ∉ groups node → number ∉ groups node := by
    induction node using inside_induction with
    | step node ih =>
      intro isLaidOut noWrapper
      rw [groups_eq, List.mem_append, not_or, Option.mem_toList] at noWrapper ⊢
      obtain ⟨areLaidOut, isOther⟩ := laidOut_inside isLaidOut noWrapper.1
      refine ⟨isOther number isPart, ?_⟩
      rw [allLaidOut_eq_all, List.all_eq_true] at areLaidOut
      simp only [groupsOf_eq_flatMap, List.mem_flatMap, not_exists, not_and] at noWrapper ⊢
      exact fun part member => ih part member (areLaidOut part member) (noWrapper.2 part member)
  rw [allLaidOut_eq_all, List.all_eq_true] at isLaidOut
  simp only [groupsOf_eq_flatMap, List.mem_flatMap, not_exists, not_and] at noWrapper ⊢
  exact fun node member => each node (isLaidOut node member) (noWrapper node member)

theorem groupsOf_items (node : Node) : groupsOf node.items = node.groups := by
  cases node <;> simp [items, groupsOf, groups]

end Node

namespace Matches

variable {nodes : List Node} {node : Node} {start stop : Place} {effect : Effect}

theorem not_notable (noGroup : number ∉ Node.groupsOf nodes) (positive : number ≠ 0)
    (isSlot : slot / 2 = number) : ¬ Notable nodes slot := by
  rintro (isGroup | ⟨rfl, -⟩)
  · exact noGroup (isSlot ▸ isGroup)
  · exact positive isSlot.symm

/-- What is noted of a group: where it begins and ends, and what the node inside notes. -/
theorem ofGroup (matched : Matches [.group number node] start stop effect)
    (noGroup : number ∉ node.groups) (positive : number ≠ 0) :
    effect (2 * number) = some (some start) ∧ effect (2 * number + 1) = some (some stop) ∧
      ∃ inner, Matches [node] start stop inner ∧
        ∀ slot, inner slot ≠ none → effect slot = inner slot := by
  obtain ⟨inner, isInner, covers⟩ := matched.single
  have unnoted {slot : Nat} (isSlot : slot / 2 = number) : inner slot = none := by
    refine isInner.unchanged (not_notable ?_ positive isSlot)
    rwa [Node.groupsOf_singleton]
  have startUnnoted := unnoted (show 2 * number / 2 = number by omega)
  have stopUnnoted := unnoted (show (2 * number + 1) / 2 = number by omega)
  refine ⟨?_, ?_, inner, isInner, fun slot noted => ?_⟩
  · rw [covers.noted_iff]
    simp [Effect.write, startUnnoted]
  · rw [covers.noted_iff]
    simp [Effect.write]
  · have notStop : slot ≠ 2 * number + 1 := by
      rintro rfl
      exact noted stopUnnoted
    have isNoted : ((Effect.write (2 * number) start).andThen
        (inner.andThen (.write (2 * number + 1) stop))) slot = inner slot := by
      cases isNoted : inner slot with
      | none => exact absurd isNoted noted
      | some entry => simp [Effect.write, notStop, isNoted]
    rw [covers.of_noted (isNoted ▸ noted), isNoted]

theorem tiles {parts : List Nat} (isParts : nodes.map Node.number? = parts.map some)
    (different : (Node.groupsOf nodes).Nodup) (noZero : 0 ∉ Node.groupsOf nodes)
    (matched : Matches nodes start stop effect) : effect.Tiles start parts stop := by
  induction nodes generalizing parts start effect with
  | nil =>
    obtain rfl : parts = [] := by simpa using isParts.symm
    exact matched.ofNil.1
  | cons node nodes ih =>
    cases parts with
    | nil => cases isParts
    | cons number parts =>
      simp only [List.map_cons, List.cons.injEq] at isParts
      obtain ⟨body, rfl⟩ := Node.eq_group isParts.1
      simp only [Node.groupsOf, Node.groups, List.cons_append, List.nodup_cons,
        List.mem_cons, List.mem_append, List.nodup_append, not_or] at different noZero
      obtain ⟨⟨notInside, notBehind⟩, -, differentBehind, -⟩ := different
      obtain ⟨middle, left, right, first, others, covers⟩ := matched.ofCons
      obtain ⟨isStart, isStop, -⟩ := first.ofGroup notInside (Ne.symm noZero.1)
      have unnoted {slot : Nat} (isSlot : slot / 2 = number) : right slot = none :=
        others.unchanged (not_notable notBehind (Ne.symm noZero.1) isSlot)
      have startUnnoted := unnoted (show 2 * number / 2 = number by omega)
      have stopUnnoted := unnoted (show (2 * number + 1) / 2 = number by omega)
      refine ⟨middle, ?_, ?_, first.precedes, ?_⟩
      · rw [covers.noted_iff]
        simp [startUnnoted, isStart]
      · rw [covers.noted_iff]
        simp [stopUnnoted, isStop]
      · refine (ih isParts.2 differentBehind noZero.2.2 others).imp ?_
        intro slot _ noted
        have isNoted := @Effect.andThen_of_noted slot right left noted
        rw [covers.of_noted (isNoted ▸ noted), isNoted]

end Matches

/-! ## What is noted of a group -/

/-- What can be noted of a group, and of others along with it: nothing, that the group took no
part, or where it lies, so that something holds. -/
inductive Noted (number : Nat) (others : List Nat) (holds : Effect → Place → Place → Prop)
    (effect : Effect) : Prop where
  | untouched (unnoted : ∀ slot, slot / 2 ∈ number :: others → effect slot = none)
  | forgotten (isStart : effect (2 * number) = some none)
      (isStop : effect (2 * number + 1) = some none)
  | placed (first last : Place) (isStart : effect (2 * number) = some (some first))
      (isStop : effect (2 * number + 1) = some (some last)) (isHeld : holds effect first last)

namespace Noted

variable {others : List Nat} {holds : Effect → Place → Place → Prop} {effect : Effect}

theorem isHeld {first last : Place} (noted : Noted number others holds effect)
    (isStart : effect (2 * number) = some (some first))
    (isStop : effect (2 * number + 1) = some (some last)) : holds effect first last := by
  cases noted with
  | untouched unnoted =>
    rw [unnoted _ (by simp)] at isStart
    cases isStart
  | forgotten isForgotten _ => cases isForgotten.symm.trans isStart
  | placed first last isFirst isLast isHeld =>
    cases isFirst.symm.trans isStart
    cases isLast.symm.trans isStop
    exact isHeld

theorem write (other : slot / 2 ∉ number :: others) (place : Place) :
    Noted number others holds (.write slot place) := by
  refine .untouched fun noted member => if_neg ?_
  rintro rfl
  exact other member

theorem forget {groups : List Nat} (along : number ∉ groups → ∀ other ∈ others, other ∉ groups) :
    Noted number others holds (.forget groups) := by
  have stopOf : (2 * number + 1) / 2 = number := by omega
  by_cases member : number ∈ groups
  · exact .forgotten (by simp [Effect.forget, member]) (by simp [Effect.forget, stopOf, member])
  · refine .untouched fun slot noted => if_neg ?_
    rcases List.mem_cons.mp noted with isNumber | isOther
    · rwa [isNumber]
    · exact along member _ isOther

variable (stable : ∀ {effect other : Effect} {first last : Place},
  (∀ slot, slot / 2 ∈ others → effect slot ≠ none → other slot = effect slot) →
    holds effect first last → holds other first last)

include stable

theorem andThen (before : Noted number others holds first)
    (behind : Noted number others holds second) :
    Noted number others holds (first.andThen second) := by
  cases behind with
  | untouched unnoted =>
    have same (slot : Nat) (member : slot / 2 ∈ number :: others) :
        first.andThen second slot = first slot := by
      rw [Effect.andThen_apply, unnoted slot member, Option.none_or]
    have stopOf : (2 * number + 1) / 2 = number := by omega
    have sameStart := same (2 * number) (by simp)
    have sameStop := same (2 * number + 1) (by simp [stopOf])
    cases before with
    | untouched unnotedBefore =>
      exact .untouched fun slot member => (same slot member).trans (unnotedBefore slot member)
    | forgotten isStart isStop =>
      exact .forgotten (sameStart.trans isStart) (sameStop.trans isStop)
    | placed start stop isStart isStop isHeld =>
      exact .placed start stop (sameStart.trans isStart) (sameStop.trans isStop)
        (stable (fun slot member _ => same slot (List.mem_cons_of_mem _ member)) isHeld)
  | forgotten isStart isStop =>
    exact .forgotten (by simp [isStart]) (by simp [isStop])
  | placed start stop isStart isStop isHeld =>
    exact .placed start stop (by simp [isStart]) (by simp [isStop])
      (stable (fun slot _ => Effect.andThen_of_noted) isHeld)

theorem inGroup {other : Nat} (different : other ∉ number :: others)
    (inner : Noted number others holds effect) (start stop : Place) :
    Noted number others holds ((Effect.write (2 * other) start).andThen
      (effect.andThen (.write (2 * other + 1) stop))) := by
  have stopOf : (2 * other + 1) / 2 = other := by omega
  exact (write (by simpa using different) start).andThen stable
    (inner.andThen stable (write (by rwa [stopOf]) stop))

end Noted

namespace Matches

variable {nodes : List Node} {node : Node} {start stop : Place} {effect : Effect}

/-! ## Laid out groups -/

variable {wrapper : Nat} {parts : Option (List Nat)}

/-- A group ends behind its beginning, and its parts lie side by side in it. -/
def Tiled (parts : Option (List Nat)) (effect : Effect) (first last : Place) : Prop :=
  first.Precedes last ∧ ∀ numbers, parts = some numbers → effect.Tiles first numbers last

abbrev Laid (wrapper : Nat) (parts : Option (List Nat)) : Effect → Prop :=
  Noted wrapper (parts.getD []) (Tiled parts)

theorem Tiled.imp {effect other : Effect} {first last : Place}
    (same : ∀ slot, slot / 2 ∈ parts.getD [] → effect slot ≠ none → other slot = effect slot)
    (tiled : Tiled parts effect first last) : Tiled parts other first last := by
  refine ⟨tiled.1, ?_⟩
  rintro numbers rfl
  exact (tiled.2 numbers rfl).imp same

/-- Different groups with numbers from one on, where those that make up another one are
laid out in it. -/
structure Orderly (wrapper : Nat) (parts : Option (List Nat)) (nodes : List Node) : Prop where
  laidOut : Node.allLaidOut wrapper parts nodes
  different : (Node.groupsOf nodes).Nodup
  noZero : 0 ∉ Node.groupsOf nodes

theorem Orderly.append {first second : List Node}
    (orderly : Orderly wrapper parts (first ++ second)) :
    Orderly wrapper parts first ∧ Orderly wrapper parts second := by
  obtain ⟨laidOut, different, noZero⟩ := orderly
  rw [Node.allLaidOut_eq_all, List.all_append, Bool.and_eq_true] at laidOut
  rw [Node.groupsOf_append] at different noZero
  rw [List.mem_append, not_or] at noZero
  obtain ⟨differentFirst, differentSecond, -⟩ := List.nodup_append.mp different
  simp only [← Node.allLaidOut_eq_all] at laidOut
  exact ⟨⟨laidOut.1, differentFirst, noZero.1⟩, ⟨laidOut.2, differentSecond, noZero.2⟩⟩

theorem Orderly.inside (orderly : Orderly wrapper parts [node])
    (notWrapper : node.number? ≠ some wrapper) : Orderly wrapper parts node.inside := by
  obtain ⟨laidOut, different, noZero⟩ := orderly
  rw [Node.allLaidOut, Node.allLaidOut, Bool.and_true] at laidOut
  rw [Node.groupsOf_singleton, Node.groups_eq] at different noZero
  exact ⟨(Node.laidOut_inside laidOut notWrapper).1, (List.nodup_append.mp different).2.1,
    fun isZero => noZero (List.mem_append_right _ isZero)⟩

theorem ofItems (matched : Matches [node] start stop effect) :
    ∃ inner, Matches node.items start stop inner ∧ effect.Covers inner := by
  have single := matched.single
  cases node with
  | empty =>
    obtain ⟨rfl, covers⟩ := single
    exact ⟨.skip, .nil, covers⟩
  | concat nodes => exact single
  | _ => exact ⟨effect, matched, .refl _⟩

theorem laid_group (inner : Matches [node] start stop effect)
    (isLaid : Orderly wrapper parts [node] → Laid wrapper parts effect)
    (orderly : Orderly wrapper parts [.group number node]) :
    Laid wrapper parts ((Effect.write (2 * number) start).andThen
      (effect.andThen (.write (2 * number + 1) stop))) := by
  have laidOut := orderly.laidOut
  by_cases isWrapper : number = wrapper
  · subst isWrapper
    have different := orderly.different
    have noZero := orderly.noZero
    simp only [Node.groupsOf_singleton, Node.groups, List.nodup_cons, List.mem_cons, not_or]
      at different noZero
    simp only [Node.allLaidOut, Node.laidOut, if_true, Bool.and_true] at laidOut
    obtain ⟨isStart, isStop, inside, isInside, same⟩ :=
      (Matches.group inner).ofGroup different.1 (Ne.symm noZero.1)
    refine .placed start stop isStart isStop ⟨inner.precedes, ?_⟩
    rintro numbers rfl
    obtain ⟨items, isItems, covers⟩ := isInside.ofItems
    have isParts : node.items.map Node.number? = numbers.map some := by simpa using laidOut
    refine (isItems.tiles isParts ?_ ?_).imp fun slot _ noted => ?_
    · rw [Node.groupsOf_items]
      exact different.2
    · rw [Node.groupsOf_items]
      exact noZero.2
    · have isNoted := covers.of_noted noted
      rw [same slot (isNoted ▸ noted), isNoted]
  · have notWrapper : (Node.group number node).number? ≠ some wrapper :=
      fun same => isWrapper (Option.some.inj same)
    rw [Node.allLaidOut, Node.allLaidOut, Bool.and_true] at laidOut
    have noPart := (Node.laidOut_inside laidOut notWrapper).2
    refine @Noted.inGroup _ _ (Tiled parts) _ Tiled.imp _ ?_
      (isLaid (orderly.inside notWrapper)) _ _
    simpa [isWrapper] using fun isPart => noPart number isPart rfl

theorem laid (matched : Matches nodes start stop effect) (orderly : Orderly wrapper parts nodes)
    (noZero : 0 ∉ wrapper :: parts.getD []) : Laid wrapper parts effect := by
  refine matched.noting (Orderly wrapper parts) (fun _ _ effect => Laid wrapper parts effect)
    Orderly.append ?_ (.untouched fun _ _ => rfl) (fun _ => .andThen Tiled.imp) ?_
    (fun orderly isInner inner => laid_group isInner inner orderly)
    (fun _ _ orderly _ inner => inner (orderly.inside nofun)) (fun _ => .write noZero _) orderly
  · intro node orderly noNumber _
    exact orderly.inside (by rw [noNumber]; nofun)
  · exact fun orderly => .forget fun noWrapper _ isPart =>
      Node.parts_not_mem orderly.laidOut noWrapper isPart

end Matches

/-! ## Look-behinds -/

namespace Node

mutual

def eachLookBehind (test : Node → Bool) : Node → Bool
  | .look .behind _ node => test node
  | .look .ahead _ node => eachLookBehind test node
  | .concat nodes => eachLookBehindOf test nodes
  | .alternation nodes => eachLookBehindOf test nodes
  | .group _ node => eachLookBehind test node
  | .repetition node _ _ _ => eachLookBehind test node
  | .atomic node => eachLookBehind test node
  | .conditional condition whenTrue whenFalse =>
    eachLookBehind test condition && eachLookBehind test whenTrue &&
      eachLookBehind test whenFalse
  | _ => true

def eachLookBehindOf (test : Node → Bool) : List Node → Bool
  | [] => true
  | node :: nodes => eachLookBehind test node && eachLookBehindOf test nodes

end

variable {test : Node → Bool}

theorem eachLookBehindOf_eq_all (nodes : List Node) :
    eachLookBehindOf test nodes = nodes.all (eachLookBehind test) := by
  induction nodes with
  | nil => rfl
  | cons node nodes ih => rw [eachLookBehindOf, ih, List.all_cons]

theorem eachLookBehind_inside (each : eachLookBehind test node) (noLook : node.isLook = false) :
    eachLookBehindOf test node.inside := by
  cases node <;> simp_all [eachLookBehind, eachLookBehindOf, inside, isLook]

end Node

def Effect.Behind (start : Place) (slot : Nat) (effect : Effect) : Prop :=
  ∀ place, effect slot = some (some place) → start.Precedes place

namespace Effect.Behind

variable {start : Place} {slot : Nat} {first second : Effect}

theorem of_none (unnoted : first slot = none) : Behind start slot first := by
  intro place noted
  rw [unnoted] at noted
  cases noted

theorem andThen (before : Behind start slot first) (behind : Behind start slot second) :
    Behind start slot (first.andThen second) := by
  intro place noted
  rw [andThen_apply] at noted
  rcases Option.or_eq_some_iff.mp noted with isSecond | ⟨-, isFirst⟩
  · exact behind place isSecond
  · exact before place isFirst

theorem earlier {middle : Place} (behind : Behind middle slot first)
    (order : start.Precedes middle) : Behind start slot first :=
  fun place noted => order.trans (behind place noted)

theorem write {other : Nat} {place : Place} (order : start.Precedes place) :
    Behind start slot (.write other place) := by
  intro noted isNoted
  unfold Effect.write at isNoted
  split at isNoted
  · cases isNoted
    exact order
  · cases isNoted

theorem forget (groups : List Nat) : Behind start slot (.forget groups) := by
  intro place noted
  unfold Effect.forget at noted
  split at noted <;> cases noted

end Effect.Behind

namespace Matches

variable {nodes : List Node} {start stop : Place} {effect : Effect}

theorem notedBehind (matched : Matches nodes start stop effect) {test : Node → Bool}
    (excludes : ∀ node, node.groups ⊆ Node.groupsOf nodes → test node → ¬ Notable [node] slot)
    (each : ∀ node ∈ nodes, node.eachLookBehind test) : effect.Behind start slot := by
  refine matched.noting
    (fun part => (∀ node ∈ part, node.eachLookBehind test) ∧
      Node.groupsOf part ⊆ Node.groupsOf nodes)
    (fun start _ effect => effect.Behind start slot) ?_ ?_ (.of_none rfl)
    (fun order before behind => before.andThen (behind.earlier order)) (fun _ => .forget _) ?_ ?_
    (fun _ => .write (.refl _)) ⟨each, List.Subset.refl _⟩
  · rintro first second ⟨each, within⟩
    rw [Node.groupsOf_append, List.append_subset] at within
    exact ⟨⟨fun node member => each node (List.mem_append_left _ member), within.1⟩,
      fun node member => each node (List.mem_append_right _ member), within.2⟩
  · rintro node ⟨each, within⟩ - noLook
    rw [Node.groupsOf_singleton, Node.groups_eq, List.append_subset] at within
    have inside := Node.eachLookBehind_inside (each node (by simp)) noLook
    rw [Node.eachLookBehindOf_eq_all, List.all_eq_true] at inside
    exact ⟨inside, within.2⟩
  · rintro number node start stop effect ⟨each, within⟩ isInner inner
    rw [Node.groupsOf_singleton, Node.groups_eq, List.append_subset] at within
    refine .andThen (.write (.refl _)) (.andThen (inner ⟨?_, within.2⟩) (.write isInner.precedes))
    simpa [Node.eachLookBehind] using each
  · rintro direction node back place start stop effect goesBack ahead ⟨each, within⟩ isInner inner
    rw [Node.groupsOf_singleton] at within
    have isTested := each _ (List.mem_singleton_self _)
    cases direction with
    | ahead =>
      rw [ahead rfl] at goesBack
      cases goesBack
      exact inner ⟨List.forall_mem_singleton.mpr isTested, by rwa [Node.groupsOf_singleton]⟩
    | behind => exact .of_none (isInner.unchanged (excludes node within isTested))

end Matches
end Highlighter.Regex

import Highlighter.Proofs.Places
import Highlighter.Regex

/-!
# What a match consists of

How a regular expression matches a stretch of a text, and what it notes on the way, as a
relation.  It leaves open which of several ways is taken, how often a loop is run and what groups
have matched before, so that every match that a search can find is among those it allows.
-/
namespace Highlighter.Regex

variable {nodes : List Node} {node : Node}

/-! ## Effects on slots -/

/-- What becomes of each slot: it stays as it is, or gets an entry, with or without a
place. -/
abbrev Effect := Nat → Option (Option Place)

namespace Effect

def skip : Effect :=
  fun _ => none

def write (slot : Nat) (place : Place) : Effect :=
  fun other => if other = slot then some (some place) else none

def forget (groups : List Nat) : Effect :=
  fun slot => if slot / 2 ∈ groups then some none else none

def andThen (first second : Effect) : Effect :=
  fun slot => (second slot).or (first slot)

@[simp]
theorem andThen_apply (first second : Effect) (slot : Nat) :
    first.andThen second slot = (second slot).or (first slot) :=
  rfl

@[simp]
theorem skip_apply (slot : Nat) : skip slot = none :=
  rfl

@[simp]
theorem skip_andThen (effect : Effect) : skip.andThen effect = effect := by
  funext slot
  simp

@[simp]
theorem andThen_skip (effect : Effect) : effect.andThen skip = effect := by
  funext slot
  simp

theorem andThen_assoc (first second third : Effect) :
    (first.andThen second).andThen third = first.andThen (second.andThen third) := by
  funext slot
  simp [Option.or_assoc]

end Effect

namespace Slots

def effect (slots : Slots) : Effect :=
  fun slot => (slots.find? fun entry => entry.1 == slot).map Prod.snd

theorem get?_eq_effect (slots : Slots) (slot : Nat) :
    slots.get? slot = (slots.effect slot).join := by
  unfold get? effect
  cases slots.find? fun entry => entry.1 == slot <;> rfl

@[simp]
theorem effect_nil : effect [] = Effect.skip :=
  rfl

@[simp]
theorem effect_cons (slot : Nat) (place : Place) (slots : Slots) :
    effect ((slot, some place) :: slots) = (effect slots).andThen (.write slot place) := by
  funext other
  by_cases same : slot = other
  · simp [effect, Effect.write, same]
  · simp [effect, Effect.write, same, Ne.symm same]

theorem effect_append (first second : Slots) :
    effect (first ++ second) = (effect second).andThen (effect first) := by
  funext slot
  simp only [effect, List.find?_append, Option.map_or, Effect.andThen_apply]

end Slots

/-! ## Groups and marks of nodes -/

namespace Measure

@[simp]
theorem sequence_hard (parts : List Measure) :
    (sequence parts).hard = parts.any Measure.hard :=
  rfl

@[simp]
theorem choice_hard (alternatives : List Measure) :
    (choice alternatives).hard = alternatives.any Measure.hard := by
  cases alternatives <;> rfl

end Measure

namespace Node

mutual

/-- Whether a node moves the beginning of the match. -/
def keepsOut : Node → Bool
  | .keepOut => true
  | .concat nodes => anyKeepsOut nodes
  | .alternation nodes => anyKeepsOut nodes
  | .group _ node => keepsOut node
  | .look _ _ node => keepsOut node
  | .repetition node _ _ _ => keepsOut node
  | .atomic node => keepsOut node
  | .conditional condition whenTrue whenFalse =>
    keepsOut condition || keepsOut whenTrue || keepsOut whenFalse
  | _ => false

/-- Whether one of some nodes moves the beginning of the match. -/
def anyKeepsOut : List Node → Bool
  | [] => false
  | node :: nodes => keepsOut node || anyKeepsOut nodes

end

/-- The nodes that a node is made of. -/
def inside : Node → List Node
  | .concat nodes => nodes
  | .alternation nodes => nodes
  | .group _ node => [node]
  | .look _ _ node => [node]
  | .repetition node _ _ _ => [node]
  | .atomic node => [node]
  | .conditional condition whenTrue whenFalse => [condition, whenTrue, whenFalse]
  | _ => []

def number? : Node → Option Nat
  | .group number _ => some number
  | _ => none

def isLook : Node → Bool
  | .look _ _ _ => true
  | _ => false

/-- What holds of a node if it holds of the nodes inside holds of every node. -/
theorem inside_induction {property : Node → Prop}
    (step : ∀ node, (∀ part ∈ node.inside, property part) → property node) (node : Node) :
    property node := by
  refine step node fun part member => ?_
  have smaller : sizeOf part < sizeOf node := by
    cases node <;> simp only [inside, List.mem_cons, List.not_mem_nil, or_false] at member
    case concat | alternation =>
      have smaller := List.sizeOf_lt_of_mem member
      simp
      omega
    case conditional => rcases member with rfl | rfl | rfl <;> simp <;> omega
    all_goals simp [member] <;> omega
  exact inside_induction step part
termination_by sizeOf node

theorem measures_eq_map (referenced : List Nat) (nodes : List Node) :
    measures referenced nodes = nodes.map (measure referenced) := by
  induction nodes with
  | nil => rfl
  | cons node nodes ih => rw [measures, ih, List.map_cons]

theorem groupsOf_eq_flatMap (nodes : List Node) : groupsOf nodes = nodes.flatMap groups := by
  induction nodes with
  | nil => rfl
  | cons node nodes ih => rw [groupsOf, ih, List.flatMap_cons]

theorem groups_eq (node : Node) : node.groups = node.number?.toList ++ groupsOf node.inside := by
  cases node <;> simp [groups, number?, inside, groupsOf]

theorem groupsOf_append (first second : List Node) :
    groupsOf (first ++ second) = groupsOf first ++ groupsOf second := by
  simp [groupsOf_eq_flatMap]

theorem groupsOf_singleton (node : Node) : groupsOf [node] = groups node := by
  simp [groupsOf]

theorem mem_groupsOf (member : node ∈ nodes) {number : Nat} (isGroup : number ∈ groups node) :
    number ∈ groupsOf nodes := by
  rw [groupsOf_eq_flatMap]
  exact List.mem_flatMap_of_mem member isGroup

theorem anyKeepsOut_eq_any (nodes : List Node) : anyKeepsOut nodes = nodes.any keepsOut := by
  induction nodes with
  | nil => rfl
  | cons node nodes ih => rw [anyKeepsOut, ih, List.any_cons]

theorem anyKeepsOut_append (first second : List Node) :
    anyKeepsOut (first ++ second) = (anyKeepsOut first || anyKeepsOut second) := by
  simp [anyKeepsOut_eq_any]

theorem keepsOut_of_inside (keeps : anyKeepsOut node.inside) : keepsOut node := by
  cases node <;> simp_all [inside, keepsOut, anyKeepsOut, or_assoc]

end Node

/-! ## Matching -/

inductive Matches : List Node → Place → Place → Effect → Prop where
  | nil {place : Place} : Matches [] place place .skip
  | append {first second : List Node} {start middle stop : Place} {left right : Effect}
      (before : Matches first start middle left) (behind : Matches second middle stop right) :
      Matches (first ++ second) start stop (left.andThen right)
  | forget {nodes : List Node} {start stop : Place} {effect : Effect}
      (inner : Matches nodes start stop effect) :
      Matches nodes start stop ((Effect.forget (Node.groupsOf nodes)).andThen effect)
  | empty {place : Place} : Matches [.empty] place place .skip
  | consume {set : CharSet} {start stop : Place} {char : Char}
      (step : start.next? = some (char, stop)) (member : set.contains char) :
      Matches [.consume set] start stop .skip
  | literal {expected : Char} {start stop : Place} {char : Char}
      (step : start.next? = some (char, stop)) (member : (CharSet.single expected).contains char) :
      Matches [.literal expected] start stop .skip
  | check {assertion : Assertion} {place : Place} (holds : assertion.holds place) :
      Matches [.check assertion] place place .skip
  | concat {nodes : List Node} {start stop : Place} {effect : Effect}
      (inner : Matches nodes start stop effect) : Matches [.concat nodes] start stop effect
  | alternation {nodes : List Node} {node : Node} (member : node ∈ nodes)
      {start stop : Place} {effect : Effect} (inner : Matches [node] start stop effect) :
      Matches [.alternation nodes] start stop effect
  | group {number : Nat} {node : Node} {start stop : Place} {effect : Effect}
      (inner : Matches [node] start stop effect) :
      Matches [.group number node] start stop
        ((Effect.write (2 * number) start).andThen
          (effect.andThen (.write (2 * number + 1) stop)))
  | look {direction : Direction} {node : Node} {back : Nat} {place start stop : Place}
      {effect : Effect} (goesBack : place.back? back = some start)
      (ahead : direction = .ahead → back = 0) (inner : Matches [node] start stop effect) :
      Matches [.look direction false node] place place effect
  | denied {direction : Direction} {node : Node} {place : Place} :
      Matches [.look direction true node] place place .skip
  | leave {node : Node} {least : Nat} {most : Option Nat} {greedy : Bool} {place : Place} :
      Matches [.repetition node least most greedy] place place .skip
  | again {node : Node} {least : Nat} {most : Option Nat} {greedy : Bool}
      {start middle stop : Place} {left right : Effect}
      (once : Matches [node] start middle left)
      (more : Matches [.repetition node least most greedy] middle stop right) :
      Matches [.repetition node least most greedy] start stop (left.andThen right)
  | reference {number : Nat} {chars : List Char} {start stop : Place}
      (passed : start.pass? chars = some stop) : Matches [.reference number] start stop .skip
  | atomic {node : Node} {start stop : Place} {effect : Effect}
      (inner : Matches [node] start stop effect) : Matches [.atomic node] start stop effect
  | keepOut {place : Place} : Matches [.keepOut] place place (.write 0 place)
  | searchStart {place : Place} : Matches [.searchStart] place place .skip
  | groupMatched {number : Nat} {place : Place} :
      Matches [.groupMatched number] place place .skip
  | whenTrue {condition yes no : Node} {start middle stop : Place} {left right : Effect}
      (test : Matches [condition] start middle left) (inner : Matches [yes] middle stop right) :
      Matches [.conditional condition yes no] start stop (left.andThen right)
  | whenFalse {condition yes no : Node} {start stop : Place} {effect : Effect}
      (inner : Matches [no] start stop effect) :
      Matches [.conditional condition yes no] start stop effect

namespace Matches

variable {nodes : List Node} {node : Node} {start stop : Place} {effect : Effect}

variable {slot : Nat}

theorem cons {middle : Place} {left right : Effect} (first : Matches [node] start middle left)
    (others : Matches nodes middle stop right) :
    Matches (node :: nodes) start stop (left.andThen right) :=
  .append first others

/-- Matching goes forward. -/
theorem precedes (matched : Matches nodes start stop effect) : start.Precedes stop := by
  induction matched with
  | append _ _ before behind => exact before.trans behind
  | consume step member => exact Place.precedes_next step
  | literal step member => exact Place.precedes_next step
  | again _ _ once more => exact once.trans more
  | reference passed => exact Place.precedes_pass passed
  | whenTrue _ _ test inner => exact test.trans inner
  | forget _ inner => exact inner
  | concat _ inner => exact inner
  | alternation _ _ inner => exact inner
  | group _ inner => exact inner
  | atomic _ inner => exact inner
  | whenFalse _ inner => exact inner
  | _ => exact .refl _

/-- The slots in which nodes can note something: those of their groups, and that of the
beginning of the match if one of them moves it. -/
def Notable (nodes : List Node) (slot : Nat) : Prop :=
  slot / 2 ∈ Node.groupsOf nodes ∨ slot = 0 ∧ Node.anyKeepsOut nodes

theorem notable_append {first second : List Node} :
    Notable (first ++ second) slot ↔ Notable first slot ∨ Notable second slot := by
  simp only [Notable, Node.groupsOf_append, Node.anyKeepsOut_append, List.mem_append,
    Bool.or_eq_true]
  grind

theorem notable_singleton :
    Notable [node] slot ↔ slot / 2 ∈ node.groups ∨ slot = 0 ∧ node.keepsOut := by
  simp only [Notable, Node.groupsOf_singleton, Node.anyKeepsOut, Bool.or_false]

theorem notable_of_inside (notable : Notable node.inside slot) : Notable [node] slot := by
  rw [notable_singleton, Node.groups_eq]
  exact notable.imp (List.mem_append_right _) (And.imp_right Node.keepsOut_of_inside)

/-- What holds of the effects that nodes can have: it holds of those of single steps, and of two
after another.  Along with it goes what holds of the nodes and is handed down to the nodes inside
them, apart from groups and look-arounds. -/
theorem noting (matched : Matches nodes start stop effect) (holds : List Node → Prop)
    (motive : Place → Place → Effect → Prop)
    (append : ∀ {first second}, holds (first ++ second) → holds first ∧ holds second)
    (inside : ∀ {node}, holds [node] → node.number? = none → node.isLook = false →
      holds node.inside)
    (skip : ∀ {start stop}, motive start stop .skip)
    (andThen : ∀ {start middle stop left right}, start.Precedes middle →
      motive start middle left → motive middle stop right → motive start stop (left.andThen right))
    (forget : ∀ {nodes place}, holds nodes → motive place place (.forget (Node.groupsOf nodes)))
    (group : ∀ {number node start stop effect}, holds [.group number node] →
      Matches [node] start stop effect → (holds [node] → motive start stop effect) →
      motive start stop ((Effect.write (2 * number) start).andThen
        (effect.andThen (.write (2 * number + 1) stop))))
    (look : ∀ {direction node back place start stop effect}, place.back? back = some start →
      (direction = .ahead → back = 0) → holds [.look direction false node] →
      Matches [node] start stop effect → (holds [node] → motive start stop effect) →
      motive place place effect)
    (keepOut : ∀ {place}, holds [.keepOut] → motive place place (.write 0 place))
    (isHeld : holds nodes) : motive start stop effect := by
  have ofMem {nodes : List Node} {node : Node} (isHeld : holds nodes) (member : node ∈ nodes) :
      holds [node] := by
    obtain ⟨before, behind, rfl⟩ := List.append_of_mem member
    exact (@append [node] behind (append isHeld).2).1
  induction matched with
  | append isBefore _ before behind =>
    exact andThen isBefore.precedes (before (append isHeld).1) (behind (append isHeld).2)
  | forget _ inner => exact andThen (.refl _) (forget isHeld) (inner isHeld)
  | concat _ inner => exact inner (inside isHeld rfl rfl)
  | alternation member _ inner => exact inner (ofMem (inside isHeld rfl rfl) member)
  | group isInner inner => exact group isHeld isInner inner
  | look goesBack ahead isInner inner => exact look goesBack ahead isHeld isInner inner
  | again isOnce _ once more =>
    exact andThen isOnce.precedes (once (inside isHeld rfl rfl)) (more isHeld)
  | atomic _ inner => exact inner (inside isHeld rfl rfl)
  | keepOut => exact keepOut isHeld
  | whenTrue isTest _ test inner =>
    have held := inside isHeld rfl rfl
    exact andThen isTest.precedes (test (ofMem held (by simp [Node.inside])))
      (inner (ofMem held (by simp [Node.inside])))
  | whenFalse _ inner => exact inner (ofMem (inside isHeld rfl rfl) (by simp [Node.inside]))
  | _ => exact skip

/-- Nothing happens to a slot in which the nodes can note nothing. -/
theorem unchanged (matched : Matches nodes start stop effect) (other : ¬ Notable nodes slot) :
    effect slot = none := by
  have inherited {node : Node} (other : ¬ Notable [node] slot) : ¬ Notable node.inside slot :=
    fun notable => other (notable_of_inside notable)
  refine matched.noting (fun nodes => ¬ Notable nodes slot) (fun _ _ effect => effect slot = none)
    (fun other => by rwa [notable_append, not_or] at other) (fun other _ _ => inherited other)
    rfl ?_ ?_ ?_ (fun _ _ other _ inner => inner (inherited other)) ?_ other
  · intro _ _ _ _ _ _ before behind
    rw [Effect.andThen_apply, behind, before]
    rfl
  · exact fun other => if_neg fun inGroup => other (.inl inGroup)
  · intro number node _ _ _ other _ inner
    have different : slot / 2 ≠ number := fun same =>
      other (notable_singleton.mpr (.inl (by simp [Node.groups, same])))
    have noStart : slot ≠ 2 * number := by omega
    have noStop : slot ≠ 2 * number + 1 := by omega
    simp [inner (inherited other), Effect.write, noStart, noStop]
  · exact fun other => if_neg fun isZero => other (.inr ⟨isZero, rfl⟩)

end Matches
end Highlighter.Regex

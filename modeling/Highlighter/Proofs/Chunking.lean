import Highlighter.Scope.Builder
import Mathlib.Data.List.Chain

/-!
# Trees and the chunks of their text

A tree is built from events.  It does not matter how the text arrives: an empty text or keyword
leaves no trace, and neighbouring texts are as good as one.  In a finished tree no text leaf is
empty and no two of them are neighbours.
-/
namespace Highlighter.Scope

variable {event : Event}

/-- What can happen to a tree under construction. -/
inductive Event where
  | openNode (scope : String)
  | closeNode
  | text (content : String)
  | keyword (content scope : String)
  | attach (tree : Tree) (language : Option String)

namespace Event

/-- Whether an event brings text that is empty. -/
def isVoid : Event → Bool
  | .text content | .keyword content _ => content.isEmpty
  | _ => false

/-- Joins texts that come one after another. -/
def joinTexts : List Event → List Event
  | [] => []
  | .text content :: events =>
    match joinTexts events with
    | .text next :: others => .text (content ++ next) :: others
    | others => .text content :: others
  | event :: events => event :: joinTexts events

/-- The events without those that are void, and with neighbouring texts joined. -/
def normalize (events : List Event) : List Event :=
  joinTexts (events.filter fun event => !event.isVoid)

/-- The tree that an event attaches. -/
def attached? : Event → Option Tree
  | .attach tree _ => some tree
  | _ => none

end Event

namespace Builder

def apply (builder : Builder) : Event → Builder
  | .openNode scope => builder.openNode scope
  | .closeNode => builder.closeNode
  | .text content => builder.addText content
  | .keyword content scope => builder.addKeyword content scope
  | .attach tree language => builder.addTree tree language

/-- What events make of a tree that was empty before. -/
def build (events : List Event) : Builder :=
  events.foldl apply {}

end Builder

/-! ## Chunks -/

theorem OpenNode.pushText_pushText (node : OpenNode) (first second : String) :
    (node.pushText first).pushText second = node.pushText (first ++ second) := by
  by_cases firstEmpty : first = ""
  · simp [pushText, firstEmpty]
  · by_cases secondEmpty : second = ""
    · simp [pushText, secondEmpty]
    · cases isNewest : node.newestFirst with
      | nil => simp [pushText, firstEmpty, secondEmpty, isNewest]
      | cons piece earlier =>
        cases piece <;>
          simp [pushText, firstEmpty, secondEmpty, isNewest, String.append_assoc]

namespace Builder

theorem addText_addText (builder : Builder) (first second : String) :
    (builder.addText first).addText second = builder.addText (first ++ second) := by
  simp only [addText, OpenNode.pushText_pushText]

theorem apply_of_isVoid (void : event.isVoid) (builder : Builder) :
    builder.apply event = builder := by
  cases event with
  | openNode scope => cases void
  | closeNode => cases void
  | attach tree language => cases void
  | text content =>
    change content.isEmpty = true at void
    simp only [apply, addText, OpenNode.pushText, if_pos void]
  | keyword content scope =>
    change content.isEmpty = true at void
    simp only [apply, addKeyword, if_pos void]

theorem foldl_joinTexts (events : List Event) (builder : Builder) :
    (Event.joinTexts events).foldl apply builder = events.foldl apply builder := by
  induction events generalizing builder with
  | nil => rfl
  | cons event events ih =>
    cases event with
    | text content =>
      rw [Event.joinTexts, List.foldl_cons, ← ih]
      split
      · rename_i next others isJoined
        simp only [isJoined, List.foldl_cons, apply, addText_addText]
      · rfl
    | openNode scope => exact ih _
    | closeNode => exact ih _
    | keyword content scope => exact ih _
    | attach tree language => exact ih _

theorem foldl_filter_isVoid (events : List Event) (builder : Builder) :
    (events.filter fun event => !event.isVoid).foldl apply builder =
      events.foldl apply builder := by
  induction events generalizing builder with
  | nil => rfl
  | cons event events ih =>
    cases isVoid : event.isVoid with
    | true =>
      rw [List.filter_cons_of_neg (by simp [isVoid]), ih, List.foldl_cons,
        apply_of_isVoid isVoid]
    | false => rw [List.filter_cons_of_pos (by simp [isVoid]), List.foldl_cons, ih, List.foldl_cons]

theorem build_normalize (events : List Event) : build (Event.normalize events) = build events :=
  (foldl_joinTexts _ {}).trans (foldl_filter_isVoid events {})

end Builder

/-! ## Compact trees -/

/-- Two pieces are not both text. -/
def Piece.Apart : (left right : Piece) → Prop
  | .text _, .text _ => False
  | _, _ => True

mutual

/-- No text leaf is empty, and no two of them are neighbours. -/
def Piece.Compact : Piece → Prop
  | .text content => content ≠ ""
  | .group _ pieces => AllCompact pieces ∧ pieces.IsChain Piece.Apart

def AllCompact : List Piece → Prop
  | [] => True
  | piece :: rest => piece.Compact ∧ AllCompact rest

end

theorem allCompact_iff (pieces : List Piece) :
    AllCompact pieces ↔ ∀ piece ∈ pieces, piece.Compact := by
  induction pieces with
  | nil => simp [AllCompact]
  | cons piece pieces ih => simp [AllCompact, ih]

theorem Piece.Apart.symm {left right : Piece} (apart : left.Apart right) : right.Apart left := by
  cases left <;> cases right <;> exact apart

theorem Piece.apart_group (scope : Option String) (pieces : List Piece) (other : Piece) :
    (Piece.group scope pieces).Apart other := by
  cases other <;> trivial

namespace OpenNode

/-- What has been added to a node is compact. -/
def Compact (node : OpenNode) : Prop :=
  (∀ piece ∈ node.newestFirst, piece.Compact) ∧ node.newestFirst.IsChain Piece.Apart

theorem compact_empty (scope : Option String) : Compact { scope } :=
  ⟨nofun, .nil⟩

variable {node : OpenNode} (compact : node.Compact)

include compact

theorem Compact.close : node.close.Compact := by
  refine ⟨(allCompact_iff _).mpr fun piece member => ?_, ?_⟩
  · exact compact.1 piece (List.mem_reverse.mp member)
  · exact List.isChain_reverse.mpr (compact.2.imp fun _ _ => Piece.Apart.symm)

theorem Compact.push_group {scope : Option String} {pieces : List Piece}
    (isCompact : (Piece.group scope pieces).Compact) :
    (node.push (.group scope pieces)).Compact :=
  ⟨List.forall_mem_cons.mpr ⟨isCompact, compact.1⟩,
    List.isChain_cons.mpr ⟨fun other _ => Piece.apart_group scope pieces other, compact.2⟩⟩

theorem Compact.pushText (content : String) : (node.pushText content).Compact := by
  by_cases empty : content = ""
  · simpa [OpenNode.pushText, empty] using compact
  · obtain ⟨scope, newest⟩ := node
    obtain ⟨each, chain⟩ := compact
    cases newest with
    | nil => simp [OpenNode.pushText, empty, Compact, Piece.Compact]
    | cons piece earlier =>
      obtain ⟨first, others⟩ := List.forall_mem_cons.mp each
      cases piece with
      | text last =>
        have joined : (Piece.text (last ++ content)).Compact := by simp [Piece.Compact, empty]
        have apart := (List.isChain_cons.mp chain).1
        simp only [OpenNode.pushText, empty, String.isEmpty_iff, if_false]
        refine ⟨List.forall_mem_cons.mpr ⟨joined, others⟩, List.isChain_cons.mpr ⟨?_, ?_⟩⟩
        · intro other isOther
          have different := apart other isOther
          cases other with
          | text other => exact different
          | group scope pieces => trivial
        · exact (List.isChain_cons.mp chain).2
      | group label pieces =>
        simp only [OpenNode.pushText, empty, String.isEmpty_iff, if_false]
        refine ⟨List.forall_mem_cons.mpr ⟨empty, each⟩, List.isChain_cons.mpr ⟨?_, chain⟩⟩
        rintro _ ⟨⟩
        trivial

end OpenNode

namespace Builder

/-- Every open node is compact as far as it goes. -/
def Compact (builder : Builder) : Prop :=
  builder.innermost.Compact ∧ ∀ node ∈ builder.enclosing, node.Compact

theorem compact_rootOf {node : OpenNode} {enclosing : List OpenNode} (compact : node.Compact)
    (around : ∀ other ∈ enclosing, other.Compact) : (rootOf node enclosing).Compact := by
  induction enclosing generalizing node with
  | nil => exact compact
  | cons parent outer ih =>
    obtain ⟨first, others⟩ := List.forall_mem_cons.mp around
    exact ih (first.push_group compact.close) others

variable {builder : Builder} (compact : builder.Compact)

include compact

theorem Compact.openNode (scope : String) : (builder.openNode scope).Compact :=
  ⟨OpenNode.compact_empty scope, List.forall_mem_cons.mpr compact⟩

theorem Compact.closeNode : builder.closeNode.Compact := by
  unfold Builder.closeNode
  split
  · exact compact
  · rename_i parent outer isEnclosing
    obtain ⟨inner, around⟩ := compact
    rw [isEnclosing, List.forall_mem_cons] at around
    exact ⟨around.1.push_group inner.close, around.2⟩

theorem Compact.addText (content : String) : (builder.addText content).Compact :=
  ⟨compact.1.pushText content, compact.2⟩

theorem Compact.apply (attached : ∀ tree ∈ event.attached?, tree.toPiece.Compact) :
    (builder.apply event).Compact := by
  cases event with
  | openNode scope => exact compact.openNode scope
  | closeNode => exact compact.closeNode
  | text content => exact compact.addText content
  | keyword content scope =>
    simp only [Builder.apply, addKeyword]
    split
    · exact compact
    · exact ((compact.openNode scope).addText content).closeNode
  | attach tree language => exact ⟨compact.1.push_group (attached tree rfl), compact.2⟩

theorem Compact.foldl {events : List Event}
    (attached : ∀ tree ∈ events.filterMap Event.attached?, tree.toPiece.Compact) :
    (events.foldl Builder.apply builder).Compact := by
  induction events generalizing builder with
  | nil => exact compact
  | cons event events ih =>
    have first : ∀ tree ∈ event.attached?, tree.toPiece.Compact := fun tree isTree =>
      attached tree (List.mem_filterMap.mpr ⟨event, List.mem_cons_self, isTree⟩)
    refine ih (compact.apply first) fun tree member => attached tree ?_
    obtain ⟨other, isOther, isTree⟩ := List.mem_filterMap.mp member
    exact List.mem_filterMap.mpr ⟨other, List.mem_cons_of_mem _ isOther, isTree⟩

theorem Compact.finish : builder.finish.toPiece.Compact :=
  (compact_rootOf compact.1 compact.2).close

end Builder

/-- The tree depends on the events up to chunks only, and is compact if all trees attached to it
are. -/
theorem Builder.finish_of_normalize_eq {first second : List Event}
    (same : Event.normalize first = Event.normalize second) :
    (build first).finish = (build second).finish ∧
      ((∀ tree ∈ first.filterMap Event.attached?, tree.toPiece.Compact) →
        (build first).finish.toPiece.Compact) := by
  refine ⟨?_, fun attached => ?_⟩
  · rw [← build_normalize first, same, build_normalize second]
  · have empty : Compact {} := ⟨OpenNode.compact_empty none, nofun⟩
    exact (empty.foldl attached).finish

/-- A keyword that is empty between two texts, in a node that is closed once too often. -/
def chunked : List Event :=
  [ .openNode "string", .text "a", .keyword "" "subst", .text "", .text "b", .closeNode,
    .closeNode, .attach (Tree.plain "c") none, .text "d" ]

theorem Builder.finish_of_normalize_eq_chunked :
    (build chunked).finish =
        (build
          [ .openNode "string", .text "ab", .closeNode, .closeNode, .attach (Tree.plain "c") none,
            .text "d" ]).finish ∧
      (build chunked).finish.toPiece.Compact := by
  have whole := finish_of_normalize_eq (show Event.normalize chunked =
      Event.normalize
        [ .openNode "string", .text "ab", .closeNode, .closeNode, .attach (Tree.plain "c") none,
          .text "d" ] by
    simp [chunked, Event.normalize, Event.joinTexts, Event.isVoid])
  refine ⟨whole.1, whole.2 ?_⟩
  simp [chunked, Event.attached?, Tree.plain, Tree.toPiece, Piece.Compact, AllCompact]

end Highlighter.Scope

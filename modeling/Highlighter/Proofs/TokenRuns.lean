import Highlighter.Scope.Token
import Mathlib.Data.List.Chain

/-!
# Tokens as runs of characters

The scopes of a character in a tree are the labels of the nodes around it, outermost first.  The
tokens of a tree are the runs of neighbouring characters that have the same scopes.
-/
namespace Highlighter.Scope

mutual

/-- The characters of a piece, each with the labels of the nodes around it in the piece,
outermost first. -/
def Piece.scopedChars : Piece → List (Char × List String)
  | .text content => content.toList.map (·, [])
  | .group scope pieces =>
    (scopedCharsOf pieces).map fun entry => (entry.1, scope.toList ++ entry.2)

def scopedCharsOf : List Piece → List (Char × List String)
  | [] => []
  | piece :: rest => piece.scopedChars ++ scopedCharsOf rest

end

mutual

/-- Whether every text leaf of a piece has characters. -/
def Piece.leavesFilled : Piece → Bool
  | .text content => !content.isEmpty
  | .group _ pieces => allLeavesFilled pieces

def allLeavesFilled : List Piece → Bool
  | [] => true
  | piece :: rest => piece.leavesFilled && allLeavesFilled rest

end

mutual

theorem Piece.chars_scopedChars : (piece : Piece) →
    piece.scopedChars.map Prod.fst = piece.content.toList
  | .text content => by simp [Piece.scopedChars, Piece.content, Function.comp_def]
  | .group scope pieces => by
    rw [Piece.scopedChars, List.map_map, Piece.content, ← chars_scopedCharsOf pieces]
    rfl

theorem chars_scopedCharsOf : (pieces : List Piece) →
    (scopedCharsOf pieces).map Prod.fst = (contents pieces).toList
  | [] => rfl
  | piece :: pieces => by
    rw [scopedCharsOf, List.map_append, piece.chars_scopedChars, chars_scopedCharsOf pieces,
      contents, String.toList_append]

end

namespace Token

/-- The characters of a token with its scopes. -/
def expand (token : Token) : List (Char × List String) :=
  token.text.toList.map (·, token.scopes)

/-- Neighbouring tokens have different scopes. -/
def Distinct (left right : Token) : Prop :=
  left.scopes ≠ right.scopes

/-! ## Leaves -/

mutual

/-- The scopes of leaves are those of their characters, inside what lies around the piece. -/
theorem expand_leaves : (piece : Piece) → (around : List String) →
    (leaves around piece).flatMap expand =
      piece.scopedChars.map fun entry => (entry.1, around ++ entry.2)
  | .text content, around => by simp [leaves, expand, Piece.scopedChars, Function.comp_def]
  | .group none pieces, around => by
    rw [leaves, expand_leavesOf pieces around, Piece.scopedChars, List.map_map]
    rfl
  | .group (some scope) pieces, around => by
    rw [leaves, expand_leavesOf pieces, Piece.scopedChars, List.map_map]
    congr 1
    funext entry
    simp

theorem expand_leavesOf : (pieces : List Piece) → (around : List String) →
    (leavesOf around pieces).flatMap expand =
      (scopedCharsOf pieces).map fun entry => (entry.1, around ++ entry.2)
  | [], _ => rfl
  | piece :: pieces, around => by
    rw [leavesOf, List.flatMap_append, expand_leaves piece, expand_leavesOf pieces, scopedCharsOf,
      List.map_append]

end

mutual

theorem filled_of_leaves : (piece : Piece) → piece.leavesFilled → (around : List String) →
    ∀ token ∈ leaves around piece, token.text ≠ ""
  | .text content, filled, around => by
    simpa [leaves, Piece.leavesFilled] using filled
  | .group none pieces, filled, around => filled_of_leavesOf pieces filled around
  | .group (some scope) pieces, filled, around =>
    filled_of_leavesOf pieces filled (around ++ [scope])

theorem filled_of_leavesOf : (pieces : List Piece) → allLeavesFilled pieces →
    (around : List String) → ∀ token ∈ leavesOf around pieces, token.text ≠ ""
  | [], _, _ => by simp [leavesOf]
  | piece :: pieces, filled, around => by
    obtain ⟨first, others⟩ := Bool.and_eq_true_iff.mp filled
    rw [leavesOf, List.forall_mem_append]
    exact ⟨filled_of_leaves piece first around, filled_of_leavesOf pieces others around⟩

end

/-! ## Joining leaves -/

/-- What joining makes of a token and those behind it. -/
theorem merge_cons (token : Token) (rest : List Token) :
    (∃ next others, merge rest = next :: others ∧ token.scopes = next.scopes ∧
        merge (token :: rest) = { token with text := token.text ++ next.text } :: others) ∨
      (∀ next ∈ (merge rest).head?, Distinct token next) ∧
        merge (token :: rest) = token :: merge rest := by
  rw [merge]
  cases isMerged : merge rest with
  | nil => exact .inr ⟨by simp, rfl⟩
  | cons next others =>
    by_cases same : token.scopes = next.scopes
    · exact .inl ⟨next, others, rfl, same, if_pos same⟩
    · refine .inr ⟨?_, if_neg same⟩
      rintro _ ⟨⟩
      exact same

theorem expand_merge (tokens : List Token) :
    (merge tokens).flatMap expand = tokens.flatMap expand := by
  induction tokens with
  | nil => rfl
  | cons token rest ih =>
    rw [List.flatMap_cons, ← ih]
    obtain ⟨next, others, isMerged, same, joined⟩ | ⟨-, kept⟩ := merge_cons token rest
    · simp [joined, isMerged, expand, same]
    · rw [kept, List.flatMap_cons]

theorem filled_merge {tokens : List Token} (filled : ∀ token ∈ tokens, token.text ≠ "") :
    ∀ token ∈ merge tokens, token.text ≠ "" := by
  induction tokens with
  | nil => simp [merge]
  | cons token rest ih =>
    obtain ⟨first, others⟩ := List.forall_mem_cons.mp filled
    have filledRest := ih others
    obtain ⟨next, behind, isMerged, -, joined⟩ | ⟨-, kept⟩ := merge_cons token rest
    · rw [isMerged] at filledRest
      rw [joined, List.forall_mem_cons]
      exact ⟨by simp [first], (List.forall_mem_cons.mp filledRest).2⟩
    · rw [kept, List.forall_mem_cons]
      exact ⟨first, filledRest⟩

theorem isChain_merge (tokens : List Token) : (merge tokens).IsChain Distinct := by
  induction tokens with
  | nil => exact .nil
  | cons token rest ih =>
    obtain ⟨next, others, isMerged, same, joined⟩ | ⟨differs, kept⟩ := merge_cons token rest
    · rw [isMerged, List.isChain_cons] at ih
      rw [joined, List.isChain_cons]
      refine ⟨fun other isOther => ?_, ih.2⟩
      have different := ih.1 other isOther
      rw [Distinct, ← same] at different
      exact different
    · rw [kept, List.isChain_cons]
      exact ⟨differs, ih⟩

/-! ## Trees -/

/-- The tokens of a tree are its characters with their scopes, in runs that are as long as
possible. -/
theorem ofTree_isRunLength {tree : Tree} (filled : tree.toPiece.leavesFilled) :
    (ofTree tree).flatMap expand = tree.toPiece.scopedChars ∧
      tree.toPiece.scopedChars.map Prod.fst = tree.text.toList ∧
      (∀ token ∈ ofTree tree, token.text ≠ "") ∧ (ofTree tree).IsChain Distinct := by
  refine ⟨?_, tree.toPiece.chars_scopedChars, ?_, isChain_merge _⟩
  · rw [ofTree, expand_merge, expand_leaves]
    simp
  · exact filled_merge (filled_of_leaves tree.toPiece filled [])

/-- Text goes on in the same scopes after a node was closed and opened again. -/
def reopened : Tree where
  pieces :=
    [ .group (some "string") [.text "a", .group none [.text "b"], .group (some "subst") []],
      .group (some "string") [.text "c", .group (some "subst") [.text "d"]], .text "e" ]

theorem ofTree_isRunLength_reopened :
    (ofTree reopened).map expand =
        [ [('a', ["string"]), ('b', ["string"]), ('c', ["string"])],
          [('d', ["string", "subst"])], [('e', [])] ] ∧
      (ofTree reopened).IsChain Distinct :=
  ⟨by decide, (ofTree_isRunLength (show reopened.toPiece.leavesFilled by decide)).2.2.2⟩

end Token
end Highlighter.Scope

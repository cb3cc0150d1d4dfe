import Mathlib.Data.Int.Cast.Lemmas
import Mathlib.Data.Prod.Lex
import Mathlib.Order.Compare

/-!
# The order of relevances

A relevance is a floating-point number.  Numbers that are not undefined have levels in one
linear order: by sign, then by exponent, then by significand.  Comparing the numbers is
comparing their levels, where the two zeros have the same.
-/
namespace Highlighter.Relevance

open Float.Model (UnpackedFloat)

/-- The level of a number: how far from zero on which side, then exponent and
significand. -/
def levelOf : UnpackedFloat → Int ×ₗ Int ×ₗ Int
  | .infinity .negative => toLex (-2, toLex (0, 0))
  | .finite .negative mantissa exponent _ => toLex (-1, toLex (-exponent, -(mantissa : Int)))
  | .finite .positive mantissa exponent _ => toLex (1, toLex (exponent, (mantissa : Int)))
  | .infinity .positive => toLex (2, toLex (0, 0))
  | .zero _ | .notANumber => toLex (0, toLex (0, 0))

def level (relevance : Float) : Int ×ₗ Int ×ₗ Int :=
  levelOf relevance.toModel.unpack

section Magnitudes

variable (firstExponent secondExponent : Int) (firstMantissa secondMantissa : Nat)

theorem magnitude_eq_lt_iff :
    (compare firstExponent secondExponent).then (compare firstMantissa secondMantissa) = .lt ↔
      firstExponent < secondExponent ∨
        firstExponent = secondExponent ∧ firstMantissa < secondMantissa := by
  rw [Ordering.then_eq_lt, compare_lt_iff_lt, compare_eq_iff_eq, compare_lt_iff_lt]

theorem magnitude_eq_gt_iff :
    (compare firstExponent secondExponent).then (compare firstMantissa secondMantissa) = .gt ↔
      secondExponent < firstExponent ∨
        firstExponent = secondExponent ∧ secondMantissa < firstMantissa := by
  rw [Ordering.then_eq_gt, compare_gt_iff_gt, compare_eq_iff_eq, compare_gt_iff_gt]

theorem magnitude_eq_eq_iff :
    (compare firstExponent secondExponent).then (compare firstMantissa secondMantissa) = .eq ↔
      firstExponent = secondExponent ∧ firstMantissa = secondMantissa := by
  rw [Ordering.then_eq_eq, compare_eq_iff_eq, compare_eq_iff_eq]

end Magnitudes

section Unpacked

variable {first second : UnpackedFloat} (firstDefined : first.isNaN = false)
  (secondDefined : second.isNaN = false)

include firstDefined secondDefined

theorem compare_eq_lt_iff :
    first.compare second = some .lt ↔ levelOf first < levelOf second := by
  cases first with
  | notANumber => cases firstDefined
  | infinity firstSign | zero firstSign | finite firstSign =>
    cases second with
    | notANumber => cases secondDefined
    | infinity secondSign | zero secondSign | finite secondSign =>
      cases firstSign <;> cases secondSign <;> dsimp only [UnpackedFloat.compare, levelOf] <;>
        simp [Prod.Lex.toLex_lt_toLex, magnitude_eq_lt_iff, magnitude_eq_gt_iff] <;> rfl

theorem compare_eq_eq_iff :
    first.compare second = some .eq ↔ levelOf first = levelOf second := by
  cases first with
  | notANumber => cases firstDefined
  | infinity firstSign | zero firstSign | finite firstSign =>
    cases second with
    | notANumber => cases secondDefined
    | infinity secondSign | zero secondSign | finite secondSign =>
      cases firstSign <;> cases secondSign <;> dsimp only [UnpackedFloat.compare, levelOf] <;>
        simp [-Ordering.then_eq_eq, magnitude_eq_eq_iff] <;> rfl

end Unpacked

theorem defined_of_beq {first second : Float} (same : (first == second) = true) :
    first.isNaN = false ∧ second.isNaN = false := by
  change (first.toModel.unpack.compare second.toModel.unpack == some .eq) = true at same
  change first.toModel.unpack.isNaN = false ∧ second.toModel.unpack.isNaN = false
  generalize first.toModel.unpack = one at same ⊢
  generalize second.toModel.unpack = other at same ⊢
  cases one with
  | notANumber => cases same
  | infinity oneSign | zero oneSign | finite oneSign =>
    cases other with
    | notANumber => cases oneSign <;> cases same
    | infinity | zero | finite => exact ⟨rfl, rfl⟩

section Defined

variable {first second : Float} (firstDefined : first.isNaN = false)
  (secondDefined : second.isNaN = false)

include firstDefined secondDefined

theorem lt_iff : first < second ↔ level first < level second := by
  rw [level, level, ← compare_eq_lt_iff firstDefined secondDefined]
  change decide (first.toModel < second.toModel) = true ↔ _
  rw [decide_eq_true_eq]
  change (first.toModel.unpack.compare second.toModel.unpack == some .lt) = true ↔ _
  rw [beq_iff_eq]

theorem beq_iff : (first == second) = true ↔ level first = level second := by
  rw [level, level, ← compare_eq_eq_iff firstDefined secondDefined]
  change (first.toModel.unpack.compare second.toModel.unpack == some .eq) = true ↔ _
  rw [beq_iff_eq]

theorem le_iff : first ≤ second ↔ level first ≤ level second := by
  rw [le_iff_lt_or_eq, level, level, ← compare_eq_lt_iff firstDefined secondDefined,
    ← compare_eq_eq_iff firstDefined secondDefined]
  change decide (first.toModel ≤ second.toModel) = true ↔ _
  rw [decide_eq_true_eq]
  change (first.toModel.unpack.compare second.toModel.unpack).any (·.isLE) = true ↔ _
  rcases first.toModel.unpack.compare second.toModel.unpack with _ | _ | _ | _ <;> decide

end Defined

theorem beq_comm {first second : Float} (same : (first == second) = true) :
    (second == first) = true := by
  obtain ⟨firstDefined, secondDefined⟩ := defined_of_beq same
  rw [beq_iff firstDefined secondDefined] at same
  rw [beq_iff secondDefined firstDefined, same]

end Highlighter.Relevance

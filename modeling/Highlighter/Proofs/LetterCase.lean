import Highlighter.Unicode.LetterCase
import Mathlib.Data.Nat.Bitwise

/-!
# Lowercase

What is in lowercase has no capital letters left, so lowercase is its own lowercase.  For the
letters of the table this is seen from sets of code points, written as binary numbers: the
set of the capital letters and the set of their lowercase forms have no member in common.
-/
namespace Highlighter.Unicode

variable {code : Nat} {chars : List Char} {lower char : Char}

/-! ## Sets of code points -/

namespace CaseRun

def members (run : CaseRun) : List Nat :=
  (List.range run.count).map fun index => run.first + index * run.step

theorem mem_members_of_contains {run : CaseRun} (contains : run.contains code = true) :
    code ∈ run.members := by
  simp only [CaseRun.contains, Bool.and_eq_true, decide_eq_true_eq] at contains
  obtain ⟨⟨above, below⟩, aligned⟩ := contains
  have isMultiple := Nat.div_mul_cancel (Nat.dvd_of_mod_eq_zero aligned)
  have inRange : (code - run.first) / run.step < run.count := by
    rw [Nat.div_lt_iff_lt_mul]
    · omega
    · by_contra noStep
      have : run.step = 0 := by omega
      simp only [this, Nat.mul_zero] at below
      omega
  exact List.mem_map.mpr
    ⟨(code - run.first) / run.step, List.mem_range.mpr inRange, by omega⟩

end CaseRun

/-- The number whose binary digits tell the members of a list. -/
def bitsOf : List Nat → Nat
  | [] => 0
  | code :: codes => 2 ^ code ||| bitsOf codes

theorem testBit_bitsOf (codes : List Nat) (code : Nat) :
    (bitsOf codes).testBit code = decide (code ∈ codes) := by
  induction codes with
  | nil => simp [bitsOf]
  | cons first codes ih =>
    rw [bitsOf, Nat.testBit_or, Nat.testBit_two_pow, ih]
    simp [eq_comm]

theorem not_mem_of_land {left right : List Nat} (apart : bitsOf left &&& bitsOf right = 0)
    (member : code ∈ right) : code ∉ left := by
  intro inLeft
  have common : (bitsOf left &&& bitsOf right).testBit code = true := by
    rw [Nat.testBit_and, testBit_bitsOf, testBit_bitsOf]
    simp [inLeft, member]
  rw [apart, Nat.zero_testBit] at common
  cases common

/-! ## The letters of the table -/

/-- The letters with a lowercase of one code point. -/
def capitals : List Nat :=
  loweringRuns.flatMap CaseRun.members

def smalls : List Nat :=
  loweringRuns.flatMap fun run => run.members.map run.other

theorem capitals_apart_smalls : bitsOf capitals &&& bitsOf smalls = 0 := by
  decide +kernel

theorem smalls_valid :
    ∀ code ∈ smalls, code.isValidChar ∧ code ≠ 0x130 := by
  decide +kernel

theorem toLower_of_not_capital (isAscii : code < 128) (notCapital : code ∉ capitals) :
    (Char.ofNat code).toLower = Char.ofNat code := by
  have capitalOf : ∀ index < 26, 65 + index ∈ capitals := by decide +kernel
  have otherwise : ∀ code < 128, (∀ index < 26, 65 + index ≠ code) →
      (Char.ofNat code).toLower = Char.ofNat code := by decide +kernel
  refine otherwise code isAscii ?_
  rintro index inRange rfl
  exact notCapital (capitalOf index inRange)

theorem find?_eq_none_of_not_capital (notCapital : code ∉ capitals) :
    loweringRuns.find? (·.contains code) = none := by
  rw [List.find?_eq_none]
  intro run member contains
  exact notCapital
    (List.mem_flatMap.mpr ⟨run, member, CaseRun.mem_members_of_contains contains⟩)

/-! ## Characters that are their own lowercase -/

/-- A character that is its own lowercase wherever it stands. -/
def IsSmall (char : Char) : Prop :=
  char ≠ 'Σ' ∧ lowercaseChar char = [char]

instance (char : Char) : Decidable (IsSmall char) :=
  inferInstanceAs (Decidable (_ ∧ _))

theorem isSmall_toLower (isAscii : char.toNat < 128) :
    IsSmall char.toLower := by
  have each : ∀ code < 128, IsSmall (Char.ofNat code).toLower := by decide +kernel
  have isChar := each char.toNat isAscii
  rwa [Char.ofNat_toNat] at isChar

theorem isSmall_of_mem_smalls (member : code ∈ smalls) :
    IsSmall (Char.ofNat code) := by
  obtain ⟨isValid, notDotted⟩ := smalls_valid code member
  have notCapital := not_mem_of_land capitals_apart_smalls member
  have toNat_eq : (Char.ofNat code).toNat = code := by
    rw [Char.ofNat, dif_pos isValid]
    rfl
  constructor
  · intro isSigma
    have : code = 0x3a3 := by rw [← toNat_eq, isSigma]; rfl
    exact notCapital (this ▸ by decide +kernel)
  · rw [lowercaseChar, toNat_eq, if_neg notDotted, find?_eq_none_of_not_capital notCapital]
    split
    · rename_i isAscii
      rw [toLower_of_not_capital isAscii notCapital]
    · rfl

theorem isSmall_of_mem_lowercaseChar (notSigma : char ≠ 'Σ') (member : lower ∈ lowercaseChar char) :
    IsSmall lower := by
  rw [lowercaseChar] at member
  split at member
  · rename_i isAscii
    rw [List.mem_singleton.mp member]
    exact isSmall_toLower isAscii
  · rename_i notAscii
    split at member
    · have isLetter : IsSmall 'i' := by decide +kernel
      have isDot : IsSmall (Char.ofNat 0x307) := by decide +kernel
      exact List.forall_mem_cons.mpr ⟨isLetter, List.forall_mem_singleton.mpr isDot⟩ lower member
    · rename_i notDotted
      split at member
      · rename_i run isFound
        rw [List.mem_singleton.mp member]
        refine isSmall_of_mem_smalls (List.mem_flatMap.mpr
          ⟨run, List.mem_of_find?_eq_some isFound, List.mem_map_of_mem ?_⟩)
        have contains := List.find?_some isFound
        exact CaseRun.mem_members_of_contains contains
      · rename_i notFound
        rw [List.mem_singleton.mp member]
        refine ⟨notSigma, ?_⟩
        rw [lowercaseChar, if_neg notAscii, if_neg notDotted, notFound]

/-! ## Texts -/

theorem isSmall_of_mem_lowercaseAfter {before : List Char}
    (member : lower ∈ lowercaseAfter before chars) : IsSmall lower := by
  induction chars generalizing before with
  | nil => cases member
  | cons char rest ih =>
    rw [lowercaseAfter, List.mem_append] at member
    rcases member with isHere | isBehind
    · split at isHere
      · have isFinal : IsSmall 'ς' := by decide +kernel
        have isInner : IsSmall 'σ' := by decide +kernel
        split at isHere
        · exact List.mem_singleton.mp isHere ▸ isFinal
        · exact List.mem_singleton.mp isHere ▸ isInner
      · rename_i notSigma
        exact isSmall_of_mem_lowercaseChar notSigma isHere
    · exact ih isBehind

theorem lowercaseAfter_of_isSmall (areSmall : ∀ char ∈ chars, IsSmall char) (before : List Char) :
    lowercaseAfter before chars = chars := by
  induction chars generalizing before with
  | nil => rfl
  | cons char rest ih =>
    obtain ⟨notSigma, isLower⟩ := areSmall char List.mem_cons_self
    rw [lowercaseAfter, if_neg notSigma, isLower,
      ih (fun other member => areSmall other (List.mem_cons_of_mem _ member))]
    rfl

theorem lowercase_lowercase (text : String) :
    lowercase (lowercase text) = lowercase text := by
  rw [lowercase, lowercase, String.toList_ofList,
    lowercaseAfter_of_isSmall fun char => isSmall_of_mem_lowercaseAfter]

end Highlighter.Unicode

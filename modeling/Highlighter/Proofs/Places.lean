import Highlighter.Text.Place

/-!
# The order of places

A place precedes another one of the same text if characters lead from it to that.  The
stretch between them is then made up of exactly those characters.
-/
namespace Highlighter.Place

variable {last first place following middle : Place} {char : Char}

def bytes : List Char → Nat
  | [] => 0
  | char :: chars => char.utf8Size + bytes chars

theorem bytes_append (first second : List Char) :
    bytes (first ++ second) = bytes first + bytes second := by
  induction first with
  | nil => simp [bytes]
  | cons char chars ih =>
    simp only [List.cons_append, bytes, ih]
    omega

theorem bytes_eq_utf8ByteSize (text : String) : bytes text.toList = text.utf8ByteSize := by
  have ofList (chars : List Char) : bytes chars = (String.ofList chars).utf8ByteSize := by
    induction chars with
    | nil => rfl
    | cons char chars ih =>
      rw [bytes, ih, String.ofList_cons, String.utf8ByteSize_append,
        String.utf8ByteSize_singleton]
  rw [ofList, String.ofList_toList]

theorem eq_nil_of_bytes_eq_zero {chars : List Char} (zero : bytes chars = 0) : chars = [] := by
  cases chars with
  | nil => rfl
  | cons char chars =>
    have positive := char.utf8Size_pos
    rw [bytes] at zero
    omega

theorem takeBytes_bytes_append (chars rest : List Char) :
    takeBytes (bytes chars) (chars ++ rest) = chars := by
  induction chars with
  | nil => cases rest <;> rfl
  | cons char chars ih =>
    have positive := char.utf8Size_pos
    obtain ⟨size, isSize⟩ : ∃ size, bytes (char :: chars) = size + 1 :=
      ⟨bytes (char :: chars) - 1, by simp only [bytes]; omega⟩
    have left : size + 1 - char.utf8Size = bytes chars := by
      rw [← isSize, bytes]
      omega
    rw [isSize, List.cons_append, takeBytes, left, ih]

def advance (place : Place) (chars rest : List Char) : Place where
  before := chars.reverse ++ place.before
  after := rest
  offset := place.offset + bytes chars

/-- Some characters lead from one place to the other. -/
def Precedes (first last : Place) : Prop :=
  ∃ chars rest, first.after = chars ++ rest ∧ last = first.advance chars rest

theorem Precedes.refl (place : Place) : place.Precedes place :=
  ⟨[], place.after, rfl, rfl⟩

theorem Precedes.trans (left : first.Precedes middle) (right : middle.Precedes last) :
    first.Precedes last := by
  obtain ⟨chars, rest, isAfter, rfl⟩ := left
  obtain ⟨others, final, isRest, rfl⟩ := right
  refine ⟨chars ++ others, final, ?_, ?_⟩
  · rw [isAfter, List.append_assoc]
    exact congrArg (chars ++ ·) isRest
  · simp [advance, bytes_append, Nat.add_assoc]

/-- Places one after another, up to the last one. -/
theorem next_induction {motive : Place → Prop}
    (last : ∀ place, place.next? = none → motive place)
    (next : ∀ place char following, place.next? = some (char, following) → motive following →
      motive place)
    (place : Place) : motive place := by
  obtain ⟨before, chars, offset⟩ := place
  induction chars generalizing before offset with
  | nil => exact last _ rfl
  | cons char chars ih => exact next _ char _ rfl (ih _ _)

theorem precedes_next (step : place.next? = some (char, following)) : place.Precedes following := by
  unfold next? at step
  split at step
  · cases step
  · rename_i after isAfter
    cases step
    exact ⟨[char], after, isAfter, by simp [advance, bytes]⟩

theorem offset_lt_of_next (step : place.next? = some (char, following)) :
    place.offset < following.offset := by
  unfold next? at step
  split at step
  · cases step
  · cases step
    exact Nat.lt_add_of_pos_right char.utf8Size_pos

theorem precedes_pass {expected : List Char} (passed : place.pass? expected = some last) :
    place.Precedes last := by
  induction expected generalizing place with
  | nil =>
    cases passed
    exact .refl _
  | cons char expected ih =>
    rw [pass?] at passed
    obtain ⟨⟨found, following⟩, step, passed⟩ := Option.bind_eq_some_iff.mp passed
    split at passed
    · exact (precedes_next step).trans (ih passed)
    · cases passed

/-- The characters from a place to a later one, and then those behind that. -/
theorem upTo_append_after (order : first.Precedes last) :
    first.upTo last ++ last.after = first.after := by
  obtain ⟨chars, rest, isAfter, rfl⟩ := order
  have size : first.offset + bytes chars - first.offset = bytes chars := by omega
  rw [upTo, isAfter, advance, size, takeBytes_bytes_append]

theorem upTo_append_upTo (left : first.Precedes middle) (right : middle.Precedes last) :
    first.upTo middle ++ middle.upTo last = first.upTo last := by
  have whole := upTo_append_after (left.trans right)
  rw [← upTo_append_after left, ← upTo_append_after right, ← List.append_assoc] at whole
  exact (List.append_cancel_right whole).symm

theorem upTo_self (place : Place) : place.upTo place = [] := by
  have whole := upTo_append_after (.refl place)
  exact List.append_left_eq_self.mp whole

theorem Precedes.offset_le (order : first.Precedes last) :
    first.offset ≤ last.offset := by
  obtain ⟨chars, rest, -, rfl⟩ := order
  exact Nat.le_add_right _ _

/-- Of two places that a third one precedes, one precedes the other. -/
theorem Precedes.total {origin : Place} (left : origin.Precedes first)
    (right : origin.Precedes last) (le : first.offset ≤ last.offset) : first.Precedes last := by
  obtain ⟨chars, rest, isAfter, rfl⟩ := left
  obtain ⟨others, final, isAlso, rfl⟩ := right
  rw [isAfter] at isAlso
  simp only [advance] at le
  rcases List.append_eq_append_iff.mp isAlso with ⟨between, rfl, rfl⟩ | ⟨between, rfl, rfl⟩
  · exact ⟨between, final, rfl, by simp [advance, bytes_append, Nat.add_assoc]⟩
  · have nothing : between = [] := by
      rw [bytes_append] at le
      exact eq_nil_of_bytes_eq_zero (by omega)
    subst nothing
    refine ⟨[], rest, rfl, ?_⟩
    simp [advance, bytes]

end Highlighter.Place

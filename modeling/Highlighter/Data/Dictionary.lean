/-!
# Dictionaries

Finite maps whose entries stand in the order of their keys, so that two of them
with the same entries are equal.
-/
namespace Highlighter

/-- A map given by its entries in ascending order of the keys. -/
structure Dictionary (κ : Type) [Ord κ] (α : Type) where
  entries : List (κ × α) := []
  ordered : entries.Pairwise (fun earlier later => compare earlier.1 later.1 = .lt) := by
    exact List.Pairwise.nil

namespace Dictionary

variable {κ α β : Type} [Ord κ]

def empty : Dictionary κ α :=
  {}

instance : Inhabited (Dictionary κ α) :=
  ⟨empty⟩

/-- Inserts an entry in front of the first greater key, in place of one with
the same key. -/
def insertEntry (key : κ) (value : α) : List (κ × α) → List (κ × α)
  | [] => [(key, value)]
  | entry :: entries =>
      match compare key entry.1 with
      | .lt => (key, value) :: entry :: entries
      | .eq => (key, value) :: entries
      | .gt => entry :: insertEntry key value entries

theorem mem_insertEntry {key : κ} {value : α} {entry : κ × α} {entries : List (κ × α)}
    (member : entry ∈ insertEntry key value entries) :
    entry = (key, value) ∨ entry ∈ entries := by
  induction entries with
  | nil =>
      simpa [insertEntry] using member
  | cons head tail inductionHypothesis =>
      rw [insertEntry] at member
      split at member
      · simpa using member
      · simp only [List.mem_cons] at member ⊢
        exact member.imp_right Or.inr
      · simp only [List.mem_cons] at member ⊢
        rcases member with isHead | inTail
        · exact Or.inr (Or.inl isHead)
        · exact (inductionHypothesis inTail).imp_right Or.inr

theorem ordered_insertEntry [Std.TransOrd κ] [Std.LawfulEqOrd κ] (key : κ) (value : α)
    {entries : List (κ × α)}
    (ordered : entries.Pairwise fun earlier later => compare earlier.1 later.1 = .lt) :
    (insertEntry key value entries).Pairwise
      fun earlier later => compare earlier.1 later.1 = .lt := by
  induction entries with
  | nil =>
      simp [insertEntry]
  | cons head tail inductionHypothesis =>
      have behindHead {entry : κ × α} (member : entry ∈ tail) :
          compare head.1 entry.1 = .lt :=
        List.rel_of_pairwise_cons ordered member
      rw [insertEntry]
      split
      · rename_i below
        refine List.Pairwise.cons ?_ ordered
        intro entry member
        rcases List.mem_cons.mp member with isHead | inTail
        · exact isHead ▸ below
        · exact Std.TransCmp.lt_trans below (behindHead inTail)
      · rename_i same
        refine List.Pairwise.cons ?_ ordered.of_cons
        intro entry member
        have equal := Std.LawfulEqCmp.eq_of_compare same
        exact equal ▸ behindHead member
      · rename_i above
        refine List.Pairwise.cons ?_ (inductionHypothesis ordered.of_cons)
        intro entry member
        rcases mem_insertEntry member with isNew | inTail
        · exact isNew ▸ Std.OrientedCmp.lt_of_gt above
        · exact behindHead inTail

def insert [Std.TransOrd κ] [Std.LawfulEqOrd κ] (dictionary : Dictionary κ α) (key : κ)
    (value : α) : Dictionary κ α where
  entries := insertEntry key value dictionary.entries
  ordered := ordered_insertEntry key value dictionary.ordered

/-- The dictionary of some entries, of which the last with a key counts. -/
def ofList [Std.TransOrd κ] [Std.LawfulEqOrd κ] (entries : List (κ × α)) : Dictionary κ α :=
  entries.foldl (fun dictionary entry => dictionary.insert entry.1 entry.2) {}

def get? [BEq κ] (dictionary : Dictionary κ α) (key : κ) : Option α :=
  (dictionary.entries.find? fun entry => entry.1 == key).map Prod.snd

def keys (dictionary : Dictionary κ α) : List κ :=
  dictionary.entries.map Prod.fst

def size (dictionary : Dictionary κ α) : Nat :=
  dictionary.entries.length

def erase [BEq κ] (dictionary : Dictionary κ α) (key : κ) : Dictionary κ α where
  entries := dictionary.entries.filter fun entry => entry.1 != key
  ordered := dictionary.ordered.filter _

def filter (dictionary : Dictionary κ α) (keep : κ → α → Bool) : Dictionary κ α where
  entries := dictionary.entries.filter fun entry => keep entry.1 entry.2
  ordered := dictionary.ordered.filter _

@[ext]
theorem ext {left right : Dictionary κ α} (same : left.entries = right.entries) :
    left = right := by
  cases left
  cases right
  simp_all

instance [DecidableEq κ] [DecidableEq α] : DecidableEq (Dictionary κ α) := fun left right =>
  if same : left.entries = right.entries then
    .isTrue (ext same)
  else
    .isFalse fun equal => same (congrArg entries equal)

end Dictionary
end Highlighter

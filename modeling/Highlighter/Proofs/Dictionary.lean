import Highlighter.Data.Dictionary
import Mathlib.Data.List.Nodup

/-!
# What dictionaries hold

A key has at most one value, and what is put in, taken out or kept concerns the keys that it
should and no others.
-/
namespace Highlighter.Dictionary

variable {κ α : Type} [Ord κ]

variable {dictionary : Dictionary κ α} {key : κ} {value : α}

theorem keys_ordered (dictionary : Dictionary κ α) :
    dictionary.keys.Pairwise fun earlier later => compare earlier later = .lt :=
  List.pairwise_map.mpr dictionary.ordered

@[simp]
theorem get?_empty [BEq κ] (key : κ) : (empty : Dictionary κ α).get? key = none :=
  rfl

theorem insertEntry_last [Std.TransOrd κ] {entries : List (κ × α)}
    (below : ∀ entry ∈ entries, compare entry.1 key = .lt) :
    insertEntry key value entries = entries ++ [(key, value)] := by
  induction entries with
  | nil => rfl
  | cons head tail ih =>
    have above : compare key head.1 = .gt :=
      Std.OrientedCmp.gt_of_lt (below head List.mem_cons_self)
    rw [insertEntry, above, ih fun entry member =>
      below entry (List.mem_cons_of_mem _ member)]
    rfl

variable [Std.LawfulEqOrd κ]

theorem ne_of_below {earlier later : κ} (below : compare earlier later = .lt) :
    earlier ≠ later := by
  rintro rfl
  rw [@Std.ReflCmp.compare_self _ compare] at below
  cases below

theorem entries_inj (dictionary : Dictionary κ α) {first second : κ × α}
    (firstMember : first ∈ dictionary.entries) (secondMember : second ∈ dictionary.entries)
    (sameKey : first.1 = second.1) : first = second :=
  have distinct : dictionary.keys.Nodup := dictionary.keys_ordered.imp ne_of_below
  List.inj_on_of_nodup_map distinct firstMember secondMember sameKey

section Rebuilding

variable [Std.TransOrd κ]

theorem foldl_insert {added : List (κ × α)} (ordered : (dictionary.entries ++ added).Pairwise
      fun earlier later => compare earlier.1 later.1 = .lt) :
    (added.foldl (fun dictionary entry => dictionary.insert entry.1 entry.2) dictionary).entries =
      dictionary.entries ++ added := by
  induction added generalizing dictionary with
  | nil => simp
  | cons entry added ih =>
    have isLast : (dictionary.insert entry.1 entry.2).entries = dictionary.entries ++ [entry] := by
      refine insertEntry_last ?_
      intro earlier member
      exact (List.pairwise_append.mp ordered).2.2 earlier member entry List.mem_cons_self
    rw [List.foldl_cons, ih]
    · simp [isLast]
    · simpa [isLast] using ordered

theorem ofList_entries (dictionary : Dictionary κ α) : ofList dictionary.entries = dictionary :=
  ext (foldl_insert (by simpa using dictionary.ordered))

end Rebuilding

section Lookup

variable [BEq κ] [LawfulBEq κ]

theorem get?_eq_some_iff :
    dictionary.get? key = some value ↔ (key, value) ∈ dictionary.entries := by
  rw [get?, Option.map_eq_some_iff]
  constructor
  · rintro ⟨entry, isFound, rfl⟩
    have isKey : entry.1 = key := by simpa using List.find?_some isFound
    exact isKey ▸ List.mem_of_find?_eq_some isFound
  · intro member
    have found : (dictionary.entries.find? fun entry => entry.1 == key).isSome := by
      rw [List.find?_isSome]
      exact ⟨(key, value), member, beq_self_eq_true key⟩
    obtain ⟨entry, isFound⟩ := Option.isSome_iff_exists.mp found
    have isKey : entry.1 = key := by simpa using List.find?_some isFound
    have same := dictionary.entries_inj (List.mem_of_find?_eq_some isFound) member isKey
    exact ⟨entry, isFound, congrArg Prod.snd same⟩

theorem mem_keys_iff :
    key ∈ dictionary.keys ↔ ∃ value, dictionary.get? key = some value := by
  simp only [keys, List.mem_map, get?_eq_some_iff, Prod.exists, exists_and_right, exists_eq_right]

theorem find?_insertEntry [Std.TransOrd κ] [DecidableEq κ] (key asked : κ) (value : α)
    (entries : List (κ × α)) :
    (insertEntry key value entries).find? (fun entry => entry.1 == asked) =
      if key = asked then some (key, value)
      else entries.find? fun entry => entry.1 == asked := by
  induction entries with
  | nil =>
    by_cases isKey : key = asked <;> simp [insertEntry, isKey]
  | cons head tail ih =>
    rw [insertEntry]
    split
    · by_cases isKey : key = asked <;> simp [List.find?_cons, isKey]
    · rename_i same
      have isHead := Std.LawfulEqCmp.eq_of_compare same
      by_cases isKey : key = asked <;> simp [← isHead, isKey]
    · rename_i above
      rw [List.find?_cons, ih, List.find?_cons]
      by_cases isKey : key = asked
      · have notHead : head.1 ≠ asked :=
          isKey ▸ ne_of_below (Std.OrientedCmp.lt_of_gt above)
        simp [isKey, beq_false_of_ne notHead]
      · simp [isKey]

theorem get?_insert [Std.TransOrd κ] [DecidableEq κ] (dictionary : Dictionary κ α)
    (key asked : κ) (value : α) :
    (dictionary.insert key value).get? asked =
      if key = asked then some value else dictionary.get? asked := by
  rw [get?, insert, find?_insertEntry]
  by_cases isKey : key = asked <;> simp [isKey, get?]

theorem get?_filter (dictionary : Dictionary κ α) (keep : κ → α → Bool) (asked : κ) :
    (dictionary.filter keep).get? asked = (dictionary.get? asked).filter (keep asked) := by
  apply Option.ext
  intro value
  rw [get?_eq_some_iff, Option.filter_eq_some_iff, get?_eq_some_iff]
  exact List.mem_filter

theorem get?_erase [DecidableEq κ] (dictionary : Dictionary κ α) (key asked : κ) :
    (dictionary.erase key).get? asked =
      if asked = key then none else dictionary.get? asked := by
  apply Option.ext
  intro value
  rw [get?_eq_some_iff, erase, List.mem_filter, ← get?_eq_some_iff]
  by_cases isKey : asked = key <;> simp [isKey]

end Lookup
end Highlighter.Dictionary

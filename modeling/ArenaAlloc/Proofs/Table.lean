import ArenaAlloc.Size
import ArenaAlloc.Table
import Mathlib.Data.List.Nodup

/-!
# The names in a table, and sums over it

Setting and erasing keep the names of a table distinct, and then an entry of the table is what is
found for its name. `Table.sum` adds up a number per value; `sum_set` and `sum_erase` say what one
name has to do with it.

A table is a list of pairs in which later entries for the same name are hidden by earlier ones.
Slots of threads and their names are kept in such tables. Where what is in a table has to be
counted, as the memory held by all threads is, hidden entries would count as well; so the invariant
there includes that names are distinct, and the lemmas here keep it.
-/

namespace ArenaAlloc

namespace Table

variable {α : Type} {t : Table α} {name other : String}

/-- What is not found is not named. -/
theorem find?_eq_none_iff : t.find? name = none ↔ name ∉ t.names := by
  induction t with
  | nil => simp [names]
  | cons e rest ih =>
    obtain ⟨k, v⟩ := e
    by_cases hk : k = name
    · simp [find?, names, hk]
    · simpa [find?, names, hk, Ne.symm hk] using ih

/-- Setting a name adds it, if it is not there. -/
theorem mem_names_set {v : α} : other ∈ (t.set name v).names ↔ other = name ∨ other ∈ t.names := by
  by_cases h : other = name
  · subst h
    rw [← not_iff_not, ← find?_eq_none_iff, find?_set_same]
    simp
  · rw [← not_iff_not, ← find?_eq_none_iff, find?_set_other h, find?_eq_none_iff]
    simp [h]

/-- Erasing a name takes out all its entries. -/
theorem mem_names_erase : other ∈ (t.erase name).names ↔ other ≠ name ∧ other ∈ t.names := by
  by_cases h : other = name
  · subst h
    rw [← not_iff_not, ← find?_eq_none_iff, find?_erase_same]
    simp
  · rw [← not_iff_not, ← find?_eq_none_iff, find?_erase_other h, find?_eq_none_iff]
    simp [h]

/-- Setting keeps the names distinct. -/
theorem nodup_names_set (h : t.names.Nodup) (v : α) : (t.set name v).names.Nodup := by
  induction t with
  | nil => exact List.nodup_singleton name
  | cons e rest ih =>
    obtain ⟨k, w⟩ := e
    obtain ⟨hk, hrest⟩ := List.nodup_cons.1 h
    by_cases hname : k = name
    · simp only [set, hname, if_true]
      exact hname ▸ h
    · simp only [set, hname, if_false]
      refine List.nodup_cons.2 ⟨fun hmem => ?_, ih hrest⟩
      exact (mem_names_set.1 hmem).elim hname hk

/-- So does erasing. -/
theorem nodup_names_erase (h : t.names.Nodup) : (t.erase name).names.Nodup := by
  induction t with
  | nil => exact List.nodup_nil
  | cons e rest ih =>
    obtain ⟨k, w⟩ := e
    obtain ⟨hk, hrest⟩ := List.nodup_cons.1 h
    by_cases hname : k = name
    · simp only [erase, hname, if_true]
      exact ih hrest
    · simp only [erase, hname, if_false]
      exact List.nodup_cons.2 ⟨fun hmem => hk (mem_names_erase.1 hmem).2, ih hrest⟩

/-- Where names are distinct, an entry is what is found for its name. -/
theorem mem_iff_find? (h : t.names.Nodup) {v : α} : (name, v) ∈ t ↔ t.find? name = some v := by
  induction t with
  | nil => simp
  | cons e rest ih =>
    obtain ⟨k, w⟩ := e
    obtain ⟨hk, hrest⟩ := List.nodup_cons.1 h
    by_cases hname : k = name
    · subst hname
      have hnot : (k, v) ∉ rest := fun hmem => hk (List.mem_map.2 ⟨_, hmem, rfl⟩)
      simp [find?, hnot, eq_comm]
    · simp [find?, hname, Ne.symm hname, ih hrest]

/-! ## Sums

Stated as sums on both sides, with the share of the name on the side where it is given up. So there
is no subtraction, and the lemma covers names that were not in the table. -/

variable (f : α → Nat)

/-- The sum of `f` over all values. -/
def sum (t : Table α) : Nat := total (t.map fun e => f e.2)

/-- What a name adds to the sum. -/
def share (t : Table α) (name : String) : Nat := ((t.find? name).map f).getD 0

/-- Setting a value replaces the name's share. -/
theorem sum_set (t : Table α) (name : String) (v : α) :
    (t.set name v).sum f + t.share f name = t.sum f + f v := by
  induction t with
  | nil => simp [sum, share, set]
  | cons e rest ih =>
    obtain ⟨k, w⟩ := e
    simp only [sum, share] at ih
    by_cases hk : k = name
    · simp [sum, share, set, find?, hk]
      omega
    · simp [sum, share, set, find?, hk]
      omega

/-- Erasing a name takes its share away. -/
theorem sum_erase (h : t.names.Nodup) (name : String) :
    (t.erase name).sum f + t.share f name = t.sum f := by
  induction t with
  | nil => rfl
  | cons e rest ih =>
    obtain ⟨k, w⟩ := e
    obtain ⟨hk, hrest⟩ := List.nodup_cons.1 h
    have hsum := ih hrest
    by_cases hname : k = name
    · -- The name does not come up again.
      subst hname
      have hnone : find? rest k = none := find?_eq_none_iff.2 hk
      simp [sum, share, erase, find?, hnone] at hsum ⊢
      omega
    · simp [sum, share, erase, find?, hname] at hsum ⊢
      omega

end Table

end ArenaAlloc

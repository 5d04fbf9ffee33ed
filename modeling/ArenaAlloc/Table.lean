/-!
# Tables

What is known by name: at most one value for each, in the order in which the names first came up.

A table is a list of pairs, searched from its front. `set` changes the first entry for a name and
`erase` removes all of them; so a name is found after `set` and not after `erase`, whatever was in
the table. That there is one entry for each name is not part of the type. Where it is needed, for
sums over all entries, it is an invariant (`Proofs.Table`).
-/

namespace ArenaAlloc

abbrev Table (α : Type) := List (String × α)

namespace Table

variable {α : Type}

def find? : Table α → String → Option α
  | [], _ => none
  | (k, v) :: rest, name => if k = name then some v else find? rest name

/-- Give a name a value. A name that has one keeps its place. -/
def set : Table α → String → α → Table α
  | [], name, v => [(name, v)]
  | (k, w) :: rest, name, v => if k = name then (k, v) :: rest else (k, w) :: set rest name v

def erase : Table α → String → Table α
  | [], _ => []
  | (k, v) :: rest, name => if k = name then erase rest name else (k, v) :: erase rest name

def names (t : Table α) : List String := t.map Prod.fst

@[simp] theorem find?_nil (name : String) : find? ([] : Table α) name = none := rfl

@[simp] theorem find?_set_same (t : Table α) (name : String) (v : α) :
    (t.set name v).find? name = some v := by
  induction t with
  | nil => simp [set, find?]
  | cons e rest ih =>
    obtain ⟨k, w⟩ := e
    by_cases h : k = name <;> simp [set, find?, h, ih]

theorem find?_set_other {t : Table α} {name other : String} {v : α} (h : other ≠ name) :
    (t.set name v).find? other = t.find? other := by
  induction t with
  | nil => simp [set, find?, Ne.symm h]
  | cons e rest ih =>
    obtain ⟨k, w⟩ := e
    by_cases hk : k = name
    · subst hk
      simp [set, find?, Ne.symm h]
    · by_cases ho : k = other <;> simp [set, find?, hk, ho, ih, h]

@[simp] theorem find?_erase_same (t : Table α) (name : String) :
    (t.erase name).find? name = none := by
  induction t with
  | nil => rfl
  | cons e rest ih =>
    obtain ⟨k, w⟩ := e
    by_cases h : k = name <;> simp [erase, find?, h, ih]

theorem find?_erase_other {t : Table α} {name other : String} (h : other ≠ name) :
    (t.erase name).find? other = t.find? other := by
  induction t with
  | nil => rfl
  | cons e rest ih =>
    obtain ⟨k, w⟩ := e
    by_cases hk : k = name
    · subst hk
      simp [erase, find?, ih, Ne.symm h]
    · by_cases ho : k = other <;> simp [erase, find?, hk, ho, ih, h]

theorem set_set (t : Table α) (name : String) (v w : α) :
    (t.set name v).set name w = t.set name w := by
  induction t with
  | nil => simp [set]
  | cons e rest ih =>
    obtain ⟨k, u⟩ := e
    by_cases h : k = name <;> simp [set, h, ih]

end Table

end ArenaAlloc

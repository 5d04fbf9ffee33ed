import ArenaAlloc.Proofs.Carving
import Mathlib.Algebra.Group.Nat.Defs
import Mathlib.Data.Nat.Find

/-!
# How an arena grows

The next chunk is as long as multiplying the capacity makes it, or just long enough where that would
pass the ceiling. `Growth.Geometric` says which multiple of the capacity that is without repeating
the loop, and `Growth.target_eq` that the loop finds it; `Chunks.AddsLength` adds the ceiling to it.

What is refused does not depend on the factor. A multiple is never shorter than what is asked for
(`le_of_nextLength`), so a chunk of just that length passes the ceiling only if the multiple does
(`exceeds_mono`); then it is the length that was tried last, and the one that the error names.

## Least powers

The loop multiplies until it has enough, so what it finds is the least power that is enough; "least"
is what makes the answer unique, and `Geometric` is a function written as a relation. The factor is
at least two, by the validation of a configuration, and a capacity is positive. Without either the
loop would not find a power, and the program falls back to what is needed; `ChunkLength` has the
statement with those cases in it.

A product that does not fit a word ends the loop as well, with exactly what is needed. So a program
near the end of its address space grows by what it asks for. That is why `Geometric` has a condition
on the word limit in it, and no bound on `total`.

## The order of refusals

A chunk is refused because the capacity with it would not fit a word, because it would pass the
ceiling, because there are as many chunks as an index can name, or because the supply has nothing
left. The lemmas under "Growing" take the reasons in this order, each with the hypothesis that the
earlier ones did not apply.
-/

namespace ArenaAlloc

namespace Growth

/-- The capacity is multiplied by the factor as often as it takes for `total` more bytes, and
`length` is what that adds. Where the multiple does not fit a word it is `total` itself. -/
def Geometric (capacity factor total length : Nat) : Prop :=
  ∃ k, capacity + total ≤ capacity * factor ^ k ∧
    (∀ j < k, capacity * factor ^ j < capacity + total) ∧
    length = if capacity * factor ^ k < wordLimit then capacity * factor ^ k - capacity else total

variable {factor capacity total : Nat}

/-- Powers of a factor above one pass every bound, so there is a least one that does. -/
theorem exists_least_power (hc : 0 < capacity) (hf : 2 ≤ factor) (needed : Nat) :
    ∃ k, needed ≤ capacity * factor ^ k ∧ ∀ j < k, capacity * factor ^ j < needed := by
  have hsome : ∃ k, needed ≤ capacity * factor ^ k := by
    refine ⟨needed, Nat.le_trans (Nat.le_of_lt (Nat.lt_pow_self hf)) ?_⟩
    exact Nat.le_mul_of_pos_left _ hc
  exact ⟨Nat.find hsome, Nat.find_spec hsome, fun j hj => Nat.not_le.1 (Nat.find_min hsome hj)⟩

/-- **The loop stops at the least power that is enough**, or at what is needed if that power does
not fit a word. -/
theorem target_eq (needed : Nat) (hc : 0 < capacity) (hf : 2 ≤ factor)
    (hlt : capacity < wordLimit) :
    ∃ k, needed ≤ capacity * factor ^ k ∧ (∀ j < k, capacity * factor ^ j < needed) ∧
      target needed factor capacity =
        if capacity * factor ^ k < wordLimit then capacity * factor ^ k else needed := by
  -- By the loop's own recursion: it stops since there is enough, or goes on with the next product.
  fun_induction target needed factor capacity with
  | case2 capacity hle =>
    refine ⟨0, ?_, fun j hj => absurd hj (Nat.not_lt_zero j), ?_⟩
    · simpa using hle
    · simp [hlt]
  | case1 capacity hneeded _ ih =>
    by_cases hfits : capacity * factor < wordLimit
    · have hgrows : capacity < capacity * factor := (Nat.lt_mul_iff_one_lt_right hc).2 hf
      have hnext : next needed factor capacity = capacity * factor := if_pos ⟨hfits, hgrows⟩
      rw [hnext] at ih ⊢
      obtain ⟨k, henough, hleast, htarget⟩ := ih (Nat.lt_trans hc hgrows) hfits
      have hpow : ∀ j, capacity * factor * factor ^ j = capacity * factor ^ (j + 1) := fun j => by
        rw [Nat.mul_assoc, ← Nat.pow_succ']
      simp only [hpow] at henough hleast htarget
      refine ⟨k + 1, henough, fun j hj => ?_, htarget⟩
      cases j with
      | zero => simpa using hneeded
      | succ j => exact hleast j (Nat.lt_of_succ_lt_succ hj)
    · -- The first product is too large already, and so are all later ones.
      have hnext : next needed factor capacity = needed := if_neg fun h => hfits h.1
      have htarget : target needed factor needed = needed := by
        rw [target, dif_neg (Nat.lt_irrefl needed)]
      obtain ⟨k, henough, hleast⟩ := exists_least_power hc hf needed
      refine ⟨k, henough, hleast, ?_⟩
      have hlarge : ¬ capacity * factor ^ k < wordLimit := by
        cases k with
        | zero => exact absurd henough (by simpa using hneeded)
        | succ k =>
          have hle : factor ≤ factor ^ (k + 1) := Nat.le_self_pow (Nat.succ_ne_zero k) factor
          exact Nat.not_lt.2 (Nat.le_trans (Nat.not_lt.1 hfits) (Nat.mul_le_mul_left capacity hle))
      rw [hnext, htarget, if_neg hlarge]

/-- What the loop adds to the capacity is the geometric length. -/
theorem geometric_target (hc : 0 < capacity) (hf : 2 ≤ factor) (hlt : capacity < wordLimit) :
    Geometric capacity factor total (target (capacity + total) factor capacity - capacity) := by
  obtain ⟨k, henough, hleast, htarget⟩ := target_eq (capacity + total) hc hf hlt
  refine ⟨k, henough, hleast, ?_⟩
  rw [htarget]
  split
  · rfl
  · exact Nat.add_sub_cancel_left _ _

end Growth

namespace Chunks

variable {c c' : Chunks} {s s' : Supply} {e : AllocError} {b : Block}
  {i size total length limit : Nat}

/-! ## The ceiling

A length is first tried as the geometric one, and if that passes the ceiling as the least possible
one. So two lengths are compared with the ceiling, and `exceeds_nextLength` says that the outcome of
the second comparison is that of what was asked for. -/

theorem exceeds_eq_true_iff :
    c.exceeds length = true ↔ ∃ limit, c.ceiling = some limit ∧ limit < c.capacity + length := by
  unfold exceeds
  cases c.ceiling <;> simp

/-- More passes the ceiling if less does. -/
theorem exceeds_mono {n m : Nat} (h : n ≤ m) (hn : c.exceeds n = true) : c.exceeds m = true := by
  obtain ⟨limit, hceiling, hlt⟩ := exceeds_eq_true_iff.1 hn
  exact exceeds_eq_true_iff.2 ⟨limit, hceiling, Nat.lt_of_lt_of_le hlt (Nat.add_le_add_left h _)⟩

/-- The chunk added for `total` bytes has `length`: the geometric length if that is within the
ceiling, and just `total` if it is not. -/
def AddsLength (c : Chunks) (total length : Nat) : Prop :=
  ∃ geometric, Growth.Geometric c.capacity c.growthFactor total geometric ∧
    length = if c.exceeds geometric then total else geometric

/-- What `total` more bytes need of the chunks for growth to be a matter of the ceiling alone. -/
structure Growable (c : Chunks) (total : Nat) : Prop where
  sound : c.Sound
  capacity_pos : 0 < c.capacity
  two_le : 2 ≤ c.growthFactor
  aligned : maxAlign ∣ total
  fits : c.capacity + total < wordLimit

namespace Growable

theorem lt (h : c.Growable total) : total < wordLimit :=
  Nat.lt_of_le_of_lt (Nat.le_add_left _ _) h.fits

/-- The length that is tried is the geometric one, or what is asked for if that one passes the
ceiling. -/
theorem exists_geometric (h : c.Growable total) :
    ∃ geometric, Growth.Geometric c.capacity c.growthFactor total geometric ∧ total ≤ geometric ∧
      c.nextLength total = some (if c.exceeds geometric then total else geometric) := by
  have htarget := Growth.le_target (c.capacity + total) c.growthFactor c.capacity
  exact ⟨_, Growth.geometric_target h.capacity_pos h.two_le h.sound.capacity_lt,
    Nat.le_sub_of_add_le' htarget, nextLength_eq h.sound h.aligned h.fits⟩

/-- What is tried is what `AddsLength` describes. -/
theorem addsLength (h : c.Growable total) (hnext : c.nextLength total = some length) :
    c.AddsLength total length := by
  obtain ⟨geometric, hgeometric, -, heq⟩ := h.exists_geometric
  rw [heq] at hnext
  exact ⟨geometric, hgeometric, (Option.some.inj hnext).symm⟩

/-- The length that is tried last passes the ceiling exactly if what is asked for does. -/
theorem exceeds_nextLength (h : c.Growable total) (hnext : c.nextLength total = some length) :
    c.exceeds length = c.exceeds total := by
  obtain ⟨geometric, -, hle, heq⟩ := h.exists_geometric
  rw [heq] at hnext
  cases hnext
  by_cases hpassed : c.exceeds geometric = true
  · rw [if_pos hpassed]
  · have hwithin : ¬ c.exceeds total = true := fun htotal => hpassed (exceeds_mono hle htotal)
    rw [if_neg hpassed, Bool.eq_false_iff.2 hpassed, Bool.eq_false_iff.2 hwithin]

/-- Past the ceiling, no more than what is asked for is tried. -/
theorem nextLength_of_exceeds (h : c.Growable total) (hexceeds : c.exceeds total = true) :
    c.nextLength total = some total := by
  obtain ⟨geometric, -, hle, heq⟩ := h.exists_geometric
  rw [heq, if_pos (exceeds_mono hle hexceeds)]

end Growable

/-! ## Growing -/

/-- No length fits a word. -/
theorem grow_of_nextLength_eq_none (h : c.nextLength total = none) :
    (c.grow s total).result = .error (.sizeOverflow 1 total) := by
  simp only [grow, h]

/-- The ceiling refuses, and the error names the length that was tried last. -/
theorem grow_of_exceeds (hnext : c.nextLength total = some length)
    (hceiling : c.ceiling = some limit) (h : c.exceeds length = true) :
    (c.grow s total).result = .error (.capacityExceeded length c.capacity limit) := by
  simp only [grow, hnext, hceiling, h]

/-- Within the ceiling, it is the number of chunks or the supply that refuses. -/
theorem grow_of_within (hnext : c.nextLength total = some length) (h : c.exceeds length = false) :
    c.grow s total =
      if chunkLimit ≤ c.count then ⟨.error (.outOfMemory 0), (c, s), []⟩
      else match s.obtain length with
        | .error e => ⟨.error e, (c, s), [.growthFailed c.capacity length e]⟩
        | .ok s' =>
          ⟨.ok c.count, (c.added length, s'),
            [.grew c.count length (c.added length).capacity]⟩ := by
  simp only [grow, hnext, h]
  split
  · rename_i hfalse
    cases hfalse
  · rfl

/-- With nothing in the way, the chunk is added behind the others. -/
theorem grow_of_grows (h : c.Grows s total length s') :
    (c.grow s total).result = .ok c.count ∧ (c.grow s total).state = (c.added length, s') := by
  rw [grow_of_within h.next h.within, if_neg (Nat.not_le.2 h.count_lt), h.obtained]
  exact ⟨rfl, rfl⟩

/-! ## Carving

A block comes from the first chunk with room, from the current one on. That chunk becomes the
current one, so chunks before it are not looked at again until a reset, even if they have room for
less. -/

/-- The first chunk with room serves the request, and no supply is asked. -/
theorem carve_of_firstRoom {k : Chunk} (h : c.FirstRoom size i) (hk : c.list[i]? = some k) :
    c.carve s size =
      ⟨.ok ⟨i, k.used⟩, ({ c with list := c.list.set i (k.take size), current := i }, s), []⟩ := by
  obtain ⟨k', hk', hroom⟩ := h.2.1
  rw [hk] at hk'
  cases hk'
  have hat := carveAt_eq_some_iff.2 ⟨k, hk, hroom, rfl, rfl⟩
  simp only [carve, h.roomFor?, Option.bind_some, hat]

section NoRoom

variable (hno : ∀ i, c.current ≤ i → ¬ c.RoomAt size i)

include hno

theorem carve_of_overflow (h : wordLimit ≤ size + headerSize) :
    (c.carve s size).result = .error (.sizeOverflow 1 size) := by
  simp only [carve, roomFor?_of_not_roomAt hno, Option.bind_none, checkedAdd_of_le h]

theorem carve_of_grow_error (h : size + headerSize < wordLimit)
    (hgrow : (c.grow s (size + headerSize)).result = .error e) :
    (c.carve s size).result = .error e := by
  simp only [carve, roomFor?_of_not_roomAt hno, Option.bind_none, checkedAdd_of_lt h,
    Outcome.result_andThen, hgrow]

/-- The block is carved from the front of the chunk that is added. -/
theorem carve_of_grows (h : c.Grows s (size + headerSize) length s') :
    (c.carve s size).result = .ok ⟨c.count, 0⟩ ∧
      (c.carve s size).state =
        ({ c with list := c.list ++ [{ length, used := headerSize + size }], current := c.count },
          s') := by
  have hlt : size + headerSize < wordLimit :=
    Nat.lt_of_le_of_lt (Nat.le_add_left _ _) (lt_of_nextLength h.next)
  have hat := c.carveAt_added (le_of_nextLength h.next)
  obtain ⟨hr, hst⟩ := grow_of_grows h
  simp only [carve, roomFor?_of_not_roomAt hno, Option.bind_none, checkedAdd_of_lt hlt,
    Outcome.result_andThen, Outcome.state_andThen, hr, hst, hat, and_self]

end NoRoom

end Chunks

end ArenaAlloc

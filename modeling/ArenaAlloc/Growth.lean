import ArenaAlloc.Size

/-!
# Geometric growth

How long the next chunk is. The total capacity is multiplied by the growth factor until what that
adds is enough; where a product does not fit a word, or does not grow at all, the sum that is needed
takes its place. The chunk adds the difference, rounded up.

`next` always gives more than the capacity while that is not enough, which is why `target` ends:
what is still missing becomes less. How many rounds there are, and which capacity they end with, is
in `Proofs.ChunkLength`.
-/

namespace ArenaAlloc

namespace Growth

/-- One multiplication of the capacity. A product that no word holds, or that is no larger than
before, is replaced by the capacity that is needed. -/
def next (needed factor capacity : Nat) : Nat :=
  if capacity * factor < wordLimit ∧ capacity < capacity * factor then capacity * factor else needed

/-- A round always adds something, as long as something is missing. -/
theorem lt_next (factor : Nat) {needed capacity : Nat} (h : capacity < needed) :
    capacity < next needed factor capacity := by
  unfold next
  split
  · exact And.right ‹_›
  · exact h

/-- The first capacity from `capacity` on, by repeated multiplication, that reaches `needed`. -/
def target (needed factor capacity : Nat) : Nat :=
  if h : capacity < needed then
    have := lt_next factor h
    target needed factor (next needed factor capacity)
  else capacity
termination_by needed - capacity

/-- The length of the chunk that lets an arena of `capacity` bytes take another `total`. -/
def chunkLength (capacity total factor : Nat) : Option Nat :=
  match checkedAdd capacity total with
  | some needed => alignUp (target needed factor capacity - capacity)
  | none => none

theorem le_target (needed factor capacity : Nat) : needed ≤ target needed factor capacity := by
  fun_induction target needed factor capacity with
  | case1 _ _ _ ih => exact ih
  | case2 _ h => exact Nat.le_of_not_lt h

theorem capacity_le_target (needed factor capacity : Nat) :
    capacity ≤ target needed factor capacity := by
  fun_induction target needed factor capacity with
  | case1 _ _ hlt ih => exact Nat.le_trans (Nat.le_of_lt hlt) ih
  | case2 => exact Nat.le_refl _

end Growth

end ArenaAlloc

import ArenaAlloc.Address

/-!
# Layouts

A header names another block by a number. The chunks of an arena count as if they lay one after
another, in their order; the number is the position of the block's payload, and 0 stands for no
block, since a header comes before every payload. `resolve_reference` says that a number leads back
to the block it was made of, and `reference_append` that a further chunk changes none.

Links are numbers in memory, so they have to be decoded, and that needs the lengths of the chunks.
Since chunks are only added behind the others, a link that was written once keeps its meaning for as
long as the arena lives, and growing need not touch a header.

`Holds` is the condition under which a block can be referred to. A number that is no reference
decodes to something all the same; that such numbers are not met in the free list is an invariant of
the arena and not a matter of this file.
-/

namespace ArenaAlloc

/-- The lengths of an arena's chunks, in order. -/
abbrev Layout := List Nat

namespace Layout

/-- The block's header lies inside its chunk. -/
def Holds (l : Layout) (b : Block) : Prop :=
  ∃ length, l[b.chunk]? = some length ∧ b.start + headerSize ≤ length

/-- The position of a block's header. -/
def position (l : Layout) (b : Block) : Nat := total (l.take b.chunk) + b.start

/-- The block whose header is at a position, counted from the start of chunk number `index`. -/
def blockFrom (index : Nat) : Layout → Nat → Block
  | [], position => ⟨index, position⟩
  | length :: rest, position =>
    if position < length then ⟨index, position⟩ else blockFrom (index + 1) rest (position - length)

def blockAt (l : Layout) (position : Nat) : Block := blockFrom 0 l position

/-- The number that stands for a block, or for none. -/
def reference (l : Layout) : Option Block → Nat
  | none => 0
  | some b => l.position b + headerSize

/-- The block that a number stands for, if it stands for one. -/
def resolve (l : Layout) (n : Nat) : Option Block :=
  if n = 0 then none else some (l.blockAt (n - headerSize))

theorem blockFrom_total_take {l : Layout} {k length start : Nat} (index : Nat)
    (hk : l[k]? = some length) (hs : start < length) :
    blockFrom index l (total (l.take k) + start) = ⟨index + k, start⟩ := by
  induction l generalizing k index with
  | nil => simp at hk
  | cons first rest ih =>
    cases k with
    | zero =>
      simp only [List.getElem?_cons_zero, Option.some.injEq] at hk
      simp [blockFrom, hk, hs]
    | succ k =>
      have hnot : ¬ first + total (rest.take k) + start < first := by omega
      have hsub : first + total (rest.take k) + start - first = total (rest.take k) + start := by
        omega
      rw [List.take_succ_cons, total_cons, blockFrom, if_neg hnot, hsub,
        ih (index + 1) (by simpa using hk)]
      simp only [Block.mk.injEq, and_true]
      omega

theorem blockAt_position {l : Layout} {b : Block} (h : l.Holds b) :
    l.blockAt (l.position b) = b := by
  obtain ⟨length, hk, hs⟩ := h
  have hlt : b.start < length := by
    simp only [headerSize] at hs
    omega
  have hb : blockFrom 0 l (total (l.take b.chunk) + b.start) = ⟨0 + b.chunk, b.start⟩ :=
    blockFrom_total_take 0 hk hlt
  rw [Nat.zero_add] at hb
  exact hb

theorem reference_ne_zero (l : Layout) (b : Block) : l.reference (some b) ≠ 0 := by
  simp [reference, headerSize]

/-- **A reference leads back to its block.** -/
theorem resolve_reference {l : Layout} {b : Block} (h : l.Holds b) :
    l.resolve (l.reference (some b)) = some b := by
  rw [resolve, if_neg (l.reference_ne_zero b), reference, Nat.add_sub_cancel, blockAt_position h]

theorem total_take_le (l : Layout) (k : Nat) : total (l.take k) ≤ total l := by
  have := congrArg total (List.take_append_drop k l)
  rw [total_append] at this
  omega

theorem reference_le_total {l : Layout} {b : Block} (h : l.Holds b) :
    l.reference (some b) ≤ total l := by
  obtain ⟨length, hk, hs⟩ := h
  have hle := total_take_le l (b.chunk + 1)
  rw [List.take_add_one, hk, total_append] at hle
  simp only [Option.toList_some, total_cons, total_nil, Nat.add_zero] at hle
  show total (l.take b.chunk) + b.start + headerSize ≤ total l
  omega

/-- Further chunks do not change what stands for a block. -/
theorem reference_append {l : Layout} {b : Block} (more : Layout) (h : l.Holds b) :
    (l ++ more).reference (some b) = l.reference (some b) := by
  obtain ⟨length, hk, -⟩ := h
  have hlt : b.chunk < l.length := (List.getElem?_eq_some_iff.1 hk).1
  simp [reference, position, List.take_append_of_le_length (Nat.le_of_lt hlt)]

theorem Holds.append {l : Layout} {b : Block} (h : l.Holds b) (more : Layout) :
    (l ++ more).Holds b := by
  obtain ⟨length, hk, hs⟩ := h
  have hlt : b.chunk < l.length := (List.getElem?_eq_some_iff.1 hk).1
  exact ⟨length, by rw [List.getElem?_append_left hlt]; exact hk, hs⟩

end Layout

end ArenaAlloc

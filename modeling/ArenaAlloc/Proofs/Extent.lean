import ArenaAlloc.Memory.Lemmas

/-!
# Extents and spans

A `Span` is a run of bytes in one chunk; an `Extent` is a block with its payload size, whose span is
its header and payload. `coverage` counts the spans of a list that hold a given byte, so that "these
spans tile that region" is one equation per byte. The equation survives every change that moves,
splits or merges spans, because the count does.

Extents come in address order. `Before` is that order for extents that share no byte, `Clear` for
extents that do not even touch.

Everything the allocator does to space is here as a change of a list of spans: carving a block adds
one at the bump offset, freeing moves one from the blocks in use to the free list, merging replaces
two by one, truncating drops the end of one. None of these is an equation of lists, since the order
and the number of spans change, but each is an equation of `coverage` at every byte. So the
invariant that the carved part of a chunk is tiled is kept by adding up counts, and never by saying
which span of the new list came from which of the old.

## Two spans for one block

The header is part of an extent's span, so extents that are disjoint have disjoint headers as well
(`Apart.headerApart`). That is the fact under every store the allocator makes: it writes into the
header of one block and the proof needs that no other block's header changed. The converse fails,
and is not needed: a header that a merge has swallowed lies inside the extent that swallowed it, and
is still a header that a second free can reach.
-/

namespace ArenaAlloc

/-- A run of bytes in one chunk. -/
structure Span where
  start : Address
  length : Nat
deriving DecidableEq, Repr

/-- Whether the byte at `a` lies in the span. -/
def Span.covers (s : Span) (a : Address) : Bool := decide (a.InRange s.start s.length)

/-- How many of the spans hold the byte at `a`. -/
def coverage (spans : List Span) (a : Address) : Nat := spans.countP (·.covers a)

/-- A block with its payload size. -/
structure Extent where
  block : Block
  size : Nat
deriving DecidableEq, Repr

namespace Extent

/-- The offset one past the payload. -/
def stop (e : Extent) : Nat := e.block.start + headerSize + e.size

/-- Header and payload. -/
def span (e : Extent) : Span := ⟨e.block.headerByte 0, headerSize + e.size⟩

/-- What is lost of an extent when its block shrinks to `size` bytes. -/
def tail (e : Extent) (size : Nat) : List Span :=
  if size < e.size then [⟨e.block.headerByte (headerSize + size), e.size - size⟩] else []

/-- The order of the free list; an entry ends no later than the next one starts. -/
def Before (e f : Extent) : Prop :=
  e.block.chunk < f.block.chunk ∨ e.block.chunk = f.block.chunk ∧ e.stop ≤ f.block.start

/-- `Before`, with at least a byte between the two where they share a chunk. -/
def Clear (e f : Extent) : Prop :=
  e.block.chunk < f.block.chunk ∨ e.block.chunk = f.block.chunk ∧ e.stop < f.block.start

/-- The two share no byte: one comes before the other. -/
def Apart (e f : Extent) : Prop := e.Before f ∨ f.Before e

def Beside (e : Extent) (es : List Extent) : Prop := ∀ f ∈ es, e.Apart f

def overlaps (e f : Extent) : Bool :=
  e.block.chunk == f.block.chunk && e.block.start < f.stop && f.block.start < e.stop

def Within (r e : Extent) : Prop :=
  r.block.chunk = e.block.chunk ∧ e.block.start ≤ r.block.start ∧ r.stop ≤ e.stop

def Aligned (e : Extent) : Prop := maxAlign ∣ e.block.start ∧ maxAlign ∣ e.size

end Extent

namespace Block

def HeaderApart (b c : Block) : Prop :=
  (b.headerByte 0).Apart headerSize (c.headerByte 0) headerSize

theorem headerApart_iff {b c : Block} :
    b.HeaderApart c ↔
      b.chunk ≠ c.chunk ∨ b.start + headerSize ≤ c.start ∨ c.start + headerSize ≤ b.start := by
  simp [HeaderApart, Address.Apart, headerByte]

theorem HeaderApart.symm {b c : Block} (h : b.HeaderApart c) : c.HeaderApart b := by
  rw [headerApart_iff] at h ⊢
  rcases h with h | h | h
  · exact .inl (Ne.symm h)
  · exact .inr (.inr h)
  · exact .inr (.inl h)

end Block

/-! ## Counting

`coverage` is `List.countP`, and its lemmas are the library's lemmas about counting under the names
that the proofs about space use. The one that goes the other way is `pairwise_of_coverage_le_one`:
from a bound on counts to a statement about any two spans. -/

theorem Span.covers_iff {s : Span} {a : Address} :
    s.covers a = true ↔
      a.chunk = s.start.chunk ∧ s.start.offset ≤ a.offset ∧ a.offset < s.start.offset + s.length :=
  decide_eq_true_iff

@[simp] theorem coverage_nil (a : Address) : coverage [] a = 0 := rfl

theorem coverage_cons (s : Span) (spans : List Span) (a : Address) :
    coverage (s :: spans) a = coverage spans a + if s.covers a then 1 else 0 :=
  List.countP_cons

theorem coverage_append (spans more : List Span) (a : Address) :
    coverage (spans ++ more) a = coverage spans a + coverage more a :=
  List.countP_append

theorem coverage_perm {spans spans' : List Span} (h : spans.Perm spans') (a : Address) :
    coverage spans a = coverage spans' a :=
  h.countP_eq _

theorem coverage_pos_iff {spans : List Span} {a : Address} :
    0 < coverage spans a ↔ ∃ s ∈ spans, s.covers a = true :=
  List.countP_pos_iff

/-- Where no byte is counted twice, no two spans share one. -/
theorem pairwise_of_coverage_le_one {spans : List Span} (h : ∀ a, coverage spans a ≤ 1) :
    spans.Pairwise fun s t => ∀ a, ¬ (s.covers a = true ∧ t.covers a = true) := by
  induction spans with
  | nil => exact .nil
  | cons s rest ih =>
    refine List.pairwise_cons.2 ⟨?_, ih fun a => ?_⟩
    · rintro t ht a ⟨hs, hta⟩
      -- A byte of `s` that is also in a later span is counted at least twice.
      have hrest : 0 < coverage rest a := coverage_pos_iff.2 ⟨t, ht, hta⟩
      have hone := h a
      rw [coverage_cons, if_pos hs] at hone
      omega
    · have hone := h a
      rw [coverage_cons] at hone
      omega

namespace Extent

variable {e f g : Extent} {es fs : List Extent}

/-- The bytes of an extent, by chunk and offset: this is how `omega` sees a span. -/
theorem covers_span {a : Address} :
    e.span.covers a = true ↔
      a.chunk = e.block.chunk ∧ e.block.start ≤ a.offset ∧ a.offset < e.stop := by
  simp only [Span.covers_iff, span, Block.headerByte, stop, Nat.add_zero, Nat.add_assoc]

/-- No extent is empty, since it has a header. The order relations are irreflexive because of this.
-/
theorem start_lt_stop (e : Extent) : e.block.start + headerSize ≤ e.stop := Nat.le_add_right _ _

/-- Extents that share no byte are in order, one way or the other. -/
theorem apart_of_disjoint (h : ∀ a, ¬ (e.span.covers a = true ∧ f.span.covers a = true)) :
    e.Apart f := by
  refine Classical.byContradiction fun hno => ?_
  simp only [Apart, Before, not_or, not_and] at hno
  have he := e.start_lt_stop
  have hf := f.start_lt_stop
  simp only [headerSize] at he hf
  have hc : e.block.chunk = f.block.chunk := by omega
  -- The later of the two starts lies in both.
  exact h ⟨e.block.chunk, max e.block.start f.block.start⟩
    ⟨covers_span.2 ⟨rfl, Nat.le_max_left _ _, Nat.max_lt.2 ⟨by omega, by omega⟩⟩,
      covers_span.2 ⟨hc, Nat.le_max_right _ _, Nat.max_lt.2 ⟨by omega, by omega⟩⟩⟩

theorem overlaps_iff :
    e.overlaps f = true ↔
      e.block.chunk = f.block.chunk ∧ e.block.start < f.stop ∧ f.block.start < e.stop := by
  simp [overlaps, and_assoc]

theorem Within.overlaps (h : e.Within f) : e.overlaps f = true := by
  obtain ⟨hc, hstart, hstop⟩ := h
  have he := e.start_lt_stop
  have hf := f.start_lt_stop
  simp only [headerSize] at he hf
  refine overlaps_iff.2 ⟨hc, ?_, ?_⟩ <;> omega

/-! ## Order

Three relations of increasing strength: `Apart` (no common byte, in either order), `Before` (and the
first comes first) and `Clear` (and a byte lies between). Only `Before` and `Clear` chain, and
`Before.trans_clear` mixes them, which is what merging needs: an entry is inserted `Before` entries
that are already `Clear` of each other. -/

theorem Clear.before (h : e.Clear f) : e.Before f := by
  rcases h with h | ⟨h, hs⟩
  · exact .inl h
  · exact .inr ⟨h, Nat.le_of_lt hs⟩

theorem Before.trans_clear (h : e.Before f) (h' : f.Clear g) : e.Clear g := by
  have hf := f.start_lt_stop
  simp only [Before, Clear] at *
  omega

/-- What is before has its header out of the way: a store into one leaves the other as it is. -/
theorem Before.headerApart (h : e.Before f) : e.block.HeaderApart f.block := by
  have he := e.start_lt_stop
  rw [Block.headerApart_iff]
  rcases h with h | ⟨-, h⟩
  · exact .inl (Nat.ne_of_lt h)
  · exact .inr (.inl (Nat.le_trans he h))

theorem Before.block_ne (h : e.Before f) : e.block ≠ f.block := by
  have he := e.start_lt_stop
  simp only [Before, headerSize] at *
  intro hb
  rw [hb] at h he
  omega

theorem Apart.symm (h : e.Apart f) : f.Apart e := Or.symm h

instance : Std.Symm Apart := ⟨fun _ _ => Apart.symm⟩

theorem Apart.headerApart (h : e.Apart f) : e.block.HeaderApart f.block :=
  h.elim Before.headerApart fun h => h.headerApart.symm

theorem Apart.block_ne (h : e.Apart f) : e.block ≠ f.block :=
  h.elim Before.block_ne fun h => h.block_ne.symm

/-- Two blocks of the free list are the same, or a store into the header of one spares the other. A
header is never half of another one. -/
theorem eq_or_headerApart {es : List Extent} (h : es.Pairwise Before) (he : e ∈ es)
    (hf : f ∈ es) : e.block = f.block ∨ e.block.HeaderApart f.block := by
  -- On the list, since the order is a relation between a head and its tail: both blocks are the
  -- head, one of them is, or the statement is about the tail.
  induction es with
  | nil => simp at he
  | cons g rest ih =>
    obtain ⟨hg, hrest⟩ := List.pairwise_cons.1 h
    rcases List.mem_cons.1 he with rfl | he'
    · rcases List.mem_cons.1 hf with rfl | hf'
      · exact .inl rfl
      · exact .inr (hg f hf').headerApart
    · rcases List.mem_cons.1 hf with rfl | hf'
      · exact .inr (hg e he').headerApart.symm
      · exact ih hrest he' hf'

end Extent

end ArenaAlloc

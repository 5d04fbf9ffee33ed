import ArenaAlloc.Proofs.CarvedRegion
import Mathlib.Algebra.BigOperators.Group.Finset.Piecewise
import Mathlib.Order.Interval.Finset.Nat

/-!
# How many bytes are carved

The spans of a session tile what its arena has carved, so their lengths add up to the number of
bytes carved (`Tiles.total_length`). The proof counts the pairs of a byte and a span that holds it
in two ways: each span holds as many bytes as it is long (`sum_coverage`), and each carved byte is
in one span.

This is where the statement about single bytes becomes one about numbers. `Tiles` says of each byte
how often it is covered; the theorem wanted is that the statistics' number of bytes used is a sum of
sizes. Between the two lies a double count over a finite grid of bytes, as many chunks as there are,
each as long as all bytes used: large enough to hold every span, and its size does not matter
otherwise.

The sums are over `Finset.range` and not over lists of addresses, so that the library's lemmas on
exchanging and restricting sums do the work. `Invariant.used_eq` is the one statement that other
files use.
-/

namespace ArenaAlloc

open Finset

/-- A sum does not depend on the order. -/
theorem total_perm {ns ks : List Nat} (h : ns.Perm ks) : total ns = total ks := h.foldr_op_eq

namespace Span

variable {p : Span} {chunks bytes : Nat}

/-- A span holds as many bytes of its chunk as it is long. -/
theorem sum_covers_offset (hend : p.start.offset + p.length ≤ bytes) :
    ∑ j ∈ range bytes, (if p.covers ⟨p.start.chunk, j⟩ then 1 else 0) = p.length := by
  have hheld : (range bytes).filter (fun j => p.covers ⟨p.start.chunk, j⟩) =
      Ico p.start.offset (p.start.offset + p.length) := by
    ext j
    simp only [mem_filter, mem_range, mem_Ico, covers_iff, true_and]
    omega
  rw [← card_filter, hheld, Nat.card_Ico, Nat.add_sub_cancel_left]

/-- Counted over all chunks, too: the span lies in one of them. -/
theorem sum_covers (hchunk : p.start.chunk < chunks)
    (hend : p.start.offset + p.length ≤ bytes) :
    ∑ i ∈ range chunks, ∑ j ∈ range bytes, (if p.covers ⟨i, j⟩ then 1 else 0) = p.length := by
  rw [sum_eq_single_of_mem p.start.chunk (mem_range.2 hchunk), sum_covers_offset hend]
  intro i _ hne
  refine sum_eq_zero fun j _ => if_neg fun hcov => hne (covers_iff.1 hcov).1

end Span

/-- **Counted byte by byte, spans come to the sum of their lengths**, wherever they overlap. -/
theorem sum_coverage {spans : List Span} {chunks bytes : Nat}
    (h : ∀ p ∈ spans, p.start.chunk < chunks ∧ p.start.offset + p.length ≤ bytes) :
    ∑ i ∈ range chunks, ∑ j ∈ range bytes, coverage spans ⟨i, j⟩ =
      total (spans.map Span.length) := by
  induction spans with
  | nil => simp
  | cons p spans ih =>
    obtain ⟨⟨hchunk, hend⟩, hrest⟩ := List.forall_mem_cons.1 h
    simp only [coverage_cons, sum_add_distrib, ih hrest, Span.sum_covers hchunk hend,
      List.map_cons, total_cons]
    exact Nat.add_comm _ _

namespace Chunks

variable {c : Chunks}

/-- A sum over indices is the sum over the list. -/
theorem sum_used (ks : List Chunk) :
    ∑ i ∈ range ks.length, (ks[i]?.map Chunk.used).getD 0 = total (ks.map Chunk.used) := by
  induction ks with
  | nil => rfl
  | cons k ks ih =>
    rw [List.length_cons, sum_range_succ', List.map_cons, total_cons, ← ih]
    exact Nat.add_comm _ _

theorem sum_usedAt (c : Chunks) : ∑ i ∈ range c.count, c.usedAt i = c.used := sum_used c.list

/-- No chunk has more carved than all have together. -/
theorem usedAt_le_used (c : Chunks) (i : Nat) : c.usedAt i ≤ c.used := by
  cases hk : c.list[i]? with
  | none => simp [usedAt, hk]
  | some k =>
    rw [usedAt_of_getElem? hk]
    exact le_total (List.mem_map_of_mem (List.mem_of_getElem? hk))

end Chunks

/-- As many bytes lie below a bound as the bound says. -/
theorem sum_below {n bytes : Nat} (h : n ≤ bytes) :
    ∑ j ∈ range bytes, (if j < n then 1 else 0) = n := by
  have hbelow : (range bytes).filter (fun j => j < n) = range n := by
    ext j
    simp only [mem_filter, mem_range]
    omega
  rw [← card_filter, hbelow, card_range]

/-- **The lengths of the tiles add up to what is carved.** -/
theorem Tiles.total_length {spans : List Span} {c : Chunks} (h : Tiles spans c)
    (hpos : ∀ p ∈ spans, 0 < p.length) : total (spans.map Span.length) = c.used := by
  have hwithin : ∀ p ∈ spans, p.start.chunk < c.count ∧ p.start.offset + p.length ≤ c.used := by
    intro p hp
    have hstop := h.stop_le hp (hpos p hp)
    refine ⟨Nat.lt_of_not_le fun hge => ?_, Nat.le_trans hstop (c.usedAt_le_used _)⟩
    rw [Chunks.usedAt_of_count_le hge] at hstop
    have hlong := hpos p hp
    omega
  -- Lengths to bytes, bytes to carved bytes chunk by chunk, and chunks to their sum.
  calc total (spans.map Span.length)
      = ∑ i ∈ range c.count, ∑ j ∈ range c.used, coverage spans ⟨i, j⟩ :=
        (sum_coverage hwithin).symm
    _ = ∑ i ∈ range c.count, ∑ j ∈ range c.used, (if j < c.usedAt i then 1 else 0) := by
        simp only [h _]
    _ = ∑ i ∈ range c.count, c.usedAt i :=
        sum_congr rfl fun i _ => sum_below (c.usedAt_le_used i)
    _ = c.used := c.sum_usedAt

namespace Session

variable {s : Session} {t : Tiling}

/-- **What is carved** is in the blocks in use and the entries, headers included, and in the tails.
-/
theorem Invariant.used_eq (h : s.Invariant t) :
    s.arena.chunks.used =
      total (s.ledger.live.map fun b => headerSize + s.arena.heap.memory.blockSize b) +
      total (s.arena.freeList.map fun b => headerSize + s.arena.heap.memory.blockSize b) +
      total (s.ledger.tails.map Span.length) := by
  have hspans : s.spans.map Span.length =
      (s.ledger.live.map fun b => headerSize + s.arena.heap.memory.blockSize b) ++
      (s.arena.freeList.map fun b => headerSize + s.arena.heap.memory.blockSize b) ++
      s.ledger.tails.map Span.length := by
    simp only [spans, blocks, List.map_append, List.map_map]
    rfl
  rw [← h.sound.tiles.total_length fun p hp => h.length_pos hp,
    total_perm (h.perm_spans.map Span.length), hspans, total_append, total_append]

end Session

end ArenaAlloc

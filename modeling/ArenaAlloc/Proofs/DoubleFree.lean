import ArenaAlloc.Proofs.Effect

/-!
# Freeing a block again

`free` goes by a mark in the block's header. As long as the header is left alone, the mark stays and
a second `free` changes nothing. But a freed block may be merged into a neighbour and handed out
again as a part of it; its header is then payload, and its owner may store anything there.
`free_again_iff` says when a second `free` changes nothing: exactly when no even byte was stored in
place of the mark. `free_again_changes` is a run that stores one, by a zero fill.

All three theorems are about `Tolerates`, the wider contract, or can be used under it: freeing a
block again is what it tolerates beyond `Respects`. The state is any that a program can bring about
while it does so, and `b` any block that it was ever handed and does not hold now.

In one direction there is nothing to do: a header with its mark is left alone. In the other the mark
is gone, and the free must change something, whatever the rest of the header says. The size there
may be any number by now, so `Lists.insert` does not apply, and the proof looks at the mark alone:
after the insertion it is set (`Heap.isFreed_insert`), and before it was not.
-/

namespace ArenaAlloc

namespace Session

variable {s : Session} {t : Tiling} {b : Block}

/-- Freeing a block that is not in use and whose mark is gone marks it. -/
theorem Invariant.isFreed_free (h : s.Invariant t) (hb : b ∈ s.ledger.issued)
    (hmark : s.arena.heap.memory.isFreed b = false) :
    (s.arena.free (some b.payload)).state.heap.memory.isFreed b = true := by
  have hapart : ∀ e ∈ t.free, e.block.HeaderApart b := by
    intro e he
    -- No entry is at `b`, since entries are marked; all other blocks ever handed out have headers
    -- apart.
    refine (h.apart e.block (h.issued e (Tiling.mem_of_free he)) b hb).resolve_left fun heq => ?_
    have hfreed := h.sound.lists.segment.isFreed_of_mem he
    rw [heq, hmark] at hfreed
    cases hfreed
  have hinsert := Heap.isFreed_insert h.sound.lists hapart
  rw [Arena.free, Block.ofPayload_payload, Arena.giveBlock, hmark]
  exact hinsert

/-- **When freeing a block again changes nothing**: exactly when no even byte was stored where the
block has its mark. -/
theorem free_again_iff (h : Reachable Tolerates s) (hb : b ∈ s.ledger.issued)
    (hlive : b ∉ s.ledger.live) :
    (s.arena.free (some b.payload)).state = s.arena ↔
      ∀ v, s.ledger.stored (b.headerByte 20) = some v → v.toNat % 2 = 1 := by
  obtain ⟨t, ht⟩ := h.valid_of_tolerates
  have hmark := ht.isFreed_iff hb hlive
  constructor
  · intro hsame
    refine hmark.1 ?_
    -- Were the mark gone, the second free would set it.
    cases hfreed : s.arena.heap.memory.isFreed b with
    | true => rfl
    | false =>
      have hset := ht.isFreed_free hb hfreed
      rw [hsame, hfreed] at hset
      cases hset
  · intro hstands
    have hfreed := hmark.2 hstands
    rw [Arena.free, Block.ofPayload_payload]
    exact Arena.giveBlock_of_isFreed hfreed

/-- The owner of the merged block stores ones everywhere, and the mark stands. -/
theorem free_again_iff_of_run :
    let s := (ofLength 512).run [.allocate .unlimited 16, .allocate .unlimited 16,
      .allocate .unlimited 16, .free (some ⟨0, 0⟩), .free (some ⟨0, 48⟩), .allocate .unlimited 64,
      .write ⟨0, 0⟩ 0 64 fun _ => 1, .free (some ⟨0, 48⟩)]
    (s.arena.free (some (Block.mk 0 48).payload)).state = s.arena := by
  intro s
  have hstands : s.MarkStands ⟨0, 48⟩ := by decide +kernel
  have hreach : Reachable Tolerates s :=
    (Reachable.ofLength Tolerates (by decide) (by decide) (by decide)).run (by decide +kernel)
  exact (free_again_iff hreach (by decide +kernel) (by decide +kernel)).2 hstands

/-- Two neighbours are freed, and a zero fill of the block they make clears the mark of the second.
Freeing that one again puts it on the free list, in the middle of a block in use. -/
theorem free_again_changes :
    ∃ s b, Reachable Respects s ∧ b ∈ s.ledger.issued ∧ b ∉ s.ledger.live ∧
      s.arena.freeList = [] ∧ (s.arena.free (some b.payload)).state.freeList = [b] := by
  refine ⟨(ofLength 512).run [.allocate .unlimited 16, .allocate .unlimited 16,
    .allocate .unlimited 16, .free (some ⟨0, 0⟩), .free (some ⟨0, 48⟩),
    .zeroAllocate .unlimited 64 1], ⟨0, 48⟩, ?_, ?_⟩
  · exact (Reachable.ofLength Respects (by decide) (by decide) (by decide)).run (by decide +kernel)
  · decide +kernel

end Session

end ArenaAlloc

import ArenaAlloc.Proofs.Effect

/-!
# The carved bytes of an arena

As long as its callers keep to the contract, every byte that an arena has carved belongs to exactly
one of three kinds of spans: a block in use, an entry of the free list, or a tail that shrinking cut
off. None is lost and none is counted twice, whatever order the calls come in.

The count is over `s.spans`, which is read off the session: the blocks in use from the ledger, the
entries from the arena's own free list, and the tails from the ledger. The invariant speaks of a
`Tiling`, which is a ghost: lists of extents that nobody stores. `Invariant.perm_spans` says that
the two have the same spans, and from there on the theorem is a reading of `Arena.Sound`.

What needs more than the reading is that payloads in use are apart. Their spans are, since a byte is
counted once, and an extent's payload is a part of its span (`payload_apart`); the rest is to go
from the extents of the tiling to the blocks of the ledger and the sizes in their headers.
-/

namespace ArenaAlloc

namespace Session

variable {s : Session} {t : Tiling} {e : Extent} {b : Block}

namespace Invariant

/-- No span of the tiling is empty: an extent has its header, and a tail is only entered if it has
bytes. -/
theorem length_pos (h : s.Invariant t) {p : Span} (hp : p ∈ t.spans) : 0 < p.length := by
  rcases List.mem_append.1 hp with hp | hp
  · obtain ⟨e, -, rfl⟩ := List.mem_map.1 hp
    exact Nat.lt_of_lt_of_le (by decide) (Nat.le_add_right headerSize e.size)
  · exact (h.sound.tails p hp).1

/-- A span of the tiling lies in the carved part of one chunk. -/
theorem exists_chunk (h : s.Invariant t) {p : Span} (hp : p ∈ t.spans) :
    ∃ k, s.arena.chunks.list[p.start.chunk]? = some k ∧ p.start.offset + p.length ≤ k.used := by
  have hpos := h.length_pos hp
  have hle := h.sound.tiles.stop_le hp hpos
  obtain ⟨k, hk, hused⟩ := Chunks.Sound.exists_of_usedAt_pos
    (Nat.lt_of_lt_of_le (Nat.add_pos_right p.start.offset hpos) hle)
  exact ⟨k, hk, hused ▸ hle⟩

/-- A header is two alignment steps long, so an extent's span is aligned where its payload is. -/
theorem aligned_span (h : s.Invariant t) {p : Span} (hp : p ∈ t.spans) :
    maxAlign ∣ p.start.offset ∧ maxAlign ∣ p.length := by
  rcases List.mem_append.1 hp with hp | hp
  · obtain ⟨e, he, rfl⟩ := List.mem_map.1 hp
    obtain ⟨hstart, hsize⟩ := h.sound.aligned e he
    exact ⟨hstart, Nat.dvd_add ⟨2, rfl⟩ hsize⟩
  · exact (h.sound.tails p hp).2

/-- Extents that are apart have payloads that are apart. -/
theorem payload_apart {f : Extent} (h : e.Apart f) :
    e.block.payload.Apart e.size f.block.payload f.size := by
  have he := e.start_lt_stop
  have hf := f.start_lt_stop
  simp only [Extent.Apart, Extent.Before, Extent.stop, Address.Apart, Block.payload] at *
  omega

/-- No block is handed out twice, and no two that are in use share a byte of payload. -/
theorem pairwise_live (h : s.Invariant t) :
    s.ledger.live.Nodup ∧ s.ledger.live.Pairwise fun b c =>
      b.payload.Apart (s.extent b).size c.payload (s.extent c).size := by
  have hpair := (List.pairwise_append.1 h.sound.pairwise_apart).1
  constructor
  · refine h.live.nodup_iff.1 ?_
    exact List.pairwise_map.2 (hpair.imp Extent.Apart.block_ne)
  · -- Being apart is symmetric, so it does not matter that the ledger has the blocks in another
    -- order.
    refine (h.live.pairwise_iff fun hbc => ?_).1 (List.pairwise_map.2 ?_)
    · simp only [Address.Apart] at hbc ⊢
      omega
    · refine hpair.imp_of_mem fun he hf hapart => ?_
      rw [h.extent_eq (Tiling.mem_of_live he), h.extent_eq (Tiling.mem_of_live hf)]
      exact payload_apart hapart

/-- A payload in use is aligned and inside what its chunk has carved. -/
theorem live_payload (h : s.Invariant t) (hb : b ∈ s.ledger.live) :
    maxAlign ∣ b.payload.offset ∧ ∃ k, s.arena.chunks.list[b.chunk]? = some k ∧
      b.payload.offset + (s.extent b).size ≤ k.used := by
  obtain ⟨e, he, rfl⟩ := h.exists_live hb
  have hee := Tiling.mem_of_live he
  rw [h.extent_eq hee]
  refine ⟨Nat.dvd_add (h.sound.aligned e hee).1 ⟨2, rfl⟩, ?_⟩
  obtain ⟨k, hk, hle⟩ := h.exists_chunk (List.mem_append_left _ (List.mem_map_of_mem hee))
  refine ⟨k, hk, ?_⟩
  simpa only [Extent.span, Block.headerByte, Block.payload, Nat.add_zero, Nat.add_assoc] using hle

end Invariant

/-- **The spans of a session tile what its arena has carved.** Every carved byte is in exactly one
span; each span lies in the carved part of one chunk; starts and lengths are multiples of the
alignment; and the payloads in use are aligned, inside their chunks and apart from each other. -/
theorem carved_region_tiled (h : Reachable Respects s) :
    (∀ a : Address, coverage s.spans a =
      if a.offset < s.arena.chunks.usedAt a.chunk then 1 else 0) ∧
    (∀ p ∈ s.spans, ∃ k, s.arena.chunks.list[p.start.chunk]? = some k ∧
      p.start.offset + p.length ≤ k.used) ∧
    (∀ p ∈ s.spans, maxAlign ∣ p.start.offset ∧ maxAlign ∣ p.length) ∧
    (∀ b ∈ s.blocks, maxAlign ∣ s.arena.heap.memory.blockSize b) ∧
    (∀ k ∈ s.arena.chunks.list, k.used ≤ k.length ∧ maxAlign ∣ k.used ∧ maxAlign ∣ k.length) ∧
    (∀ b ∈ s.ledger.live, maxAlign ∣ b.payload.offset ∧
      ∃ k, s.arena.chunks.list[b.chunk]? = some k ∧
        b.payload.offset + s.arena.heap.memory.blockSize b ≤ k.used) ∧
    s.ledger.live.Nodup ∧
    s.ledger.live.Pairwise fun b c =>
      b.payload.Apart (s.arena.heap.memory.blockSize b) c.payload
        (s.arena.heap.memory.blockSize c) := by
  obtain ⟨t, ht⟩ := h.valid
  have hperm := ht.perm_spans
  refine ⟨ht.sound.tiles.perm hperm, ?_, ?_, ?_, ?_, ?_, ht.pairwise_live⟩
  · intro p hp
    exact ht.exists_chunk (hperm.mem_iff.2 hp)
  · intro p hp
    exact ht.aligned_span (hperm.mem_iff.2 hp)
  · intro b hb
    obtain ⟨e, he, rfl⟩ := ht.exists_block hb
    rw [ht.sound.blockSize_eq he]
    exact (ht.sound.aligned e he).2
  · intro k hk
    exact ⟨ht.sound.chunks.used_le k hk, ht.sound.chunks.aligned k hk⟩
  · intro b hb
    exact ht.live_payload hb

/-- A block shrunk, one freed and one in use. -/
theorem carved_region_tiled_of_run :
    let s := (ofLength 256).run [.allocate .unlimited 40, .allocate .unlimited 16,
      .reallocate .unlimited (some ⟨0, 0⟩) 10, .allocate .unlimited 0, .free (some ⟨0, 80⟩)]
    s.spans = [⟨⟨0, 128⟩, 32⟩, ⟨⟨0, 0⟩, 48⟩, ⟨⟨0, 80⟩, 48⟩, ⟨⟨0, 48⟩, 32⟩] ∧
      ∀ a : Address, coverage s.spans a =
        if a.offset < s.arena.chunks.usedAt a.chunk then 1 else 0 :=
  ⟨by decide +kernel, (carved_region_tiled
    ((Reachable.ofLength Respects (by decide) (by decide) (by decide)).run
      (by decide +kernel))).1⟩

end Session

end ArenaAlloc

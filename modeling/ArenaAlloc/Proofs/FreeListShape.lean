import ArenaAlloc.Proofs.Effect

/-!
# The free list at any time

Whatever calls have been made within the contract, the links of the free list end after finitely
many blocks, so every walk of it ends; its entries come in the order of chunks and addresses, and no
two of them touch. The list is bounded where it is defined, by the bytes of the chunks;
`Memory.Links` says that the bound is never what ends it.

`Links` is an inductive predicate, so a proof of it is a finite chain; there is no proof of it for a
list that runs in a circle. It mentions no extents, no headers and no bound. `Segment.links` gets it
from the invariant, where the same links are known to visit the entries in order.

That a freed block lies in exactly one entry has two parts. It lies in one because merging loses no
byte: the ledger's `retired` keeps the extents that were freed, and the invariant says that each is
within an entry. And it lies in no second one because entries are apart (`Apart.not_within`).
-/

namespace ArenaAlloc

namespace Memory

/-- The links lead from `first` through the blocks of the list and then nowhere. -/
inductive Links (m : Memory) (l : Layout) : Option Block → List Block → Prop
  | nil : Links m l none []
  | cons {b : Block} {bs : List Block} (rest : Links m l (m.next? l b) bs) :
      Links m l (some b) (b :: bs)

/-- Forget what the headers say, and a segment to the end of the list is a chain of links. -/
theorem Segment.links {m : Memory} {l : Layout} {first : Option Block} {es : List Extent}
    (h : m.Segment l first es none) (hh : ∀ e ∈ es, l.Holds e.block) :
    m.Links l first (es.map Extent.block) := by
  induction es generalizing first with
  | nil =>
    rw [h.first_eq]
    exact .nil
  | cons e es ih =>
    have hes : ∀ f ∈ es, l.Holds f.block := fun f hf => hh f (List.mem_cons_of_mem _ hf)
    have hnext := h.next?_eq hes
    cases h with
    | cons head rest =>
      have hlinks := ih rest hes
      rw [rest.first_eq, ← hnext] at hlinks
      exact .cons hlinks

end Memory

namespace Extent

variable {e f r : Extent}

/-- An extent is not empty, so it cannot be a part of two that share no byte. -/
theorem Apart.not_within (h : e.Apart f) (he : r.Within e) : ¬ r.Within f := by
  intro hf
  have hr := r.start_lt_stop
  simp only [Apart, Before, Within, headerSize] at *
  omega

end Extent

namespace Session

variable {s : Session} {t : Tiling} {r : Extent}

namespace Invariant

/-- Every walk of the free list ends, and visits `freeList`. -/
theorem links (h : s.Invariant t) :
    s.arena.heap.memory.Links s.arena.layout s.arena.heap.head s.arena.freeList := by
  rw [h.freeList_eq]
  exact h.sound.lists.segment.links h.sound.lists.holds

/-- The entry that a freed block has become a part of. -/
theorem existsUnique_entry (h : s.Invariant t) (hr : r ∈ s.ledger.retired) :
    ∃! b, b ∈ s.arena.freeList ∧ r.Within (s.extent b) := by
  obtain ⟨-, ⟨f, hf, hrf⟩, -⟩ := h.retired r hr
  rw [h.freeList_eq]
  refine ⟨f.block, ⟨List.mem_map_of_mem hf, ?_⟩, ?_⟩
  · rw [h.extent_eq (Tiling.mem_of_free hf)]
    exact hrf
  · rintro b ⟨hb, hrb⟩
    obtain ⟨g, hg, rfl⟩ := List.mem_map.1 hb
    rw [h.extent_eq (Tiling.mem_of_free hg)] at hrb
    rcases h.sound.eq_or_apart (Tiling.mem_of_free hf) (Tiling.mem_of_free hg) with rfl | hapart
    · rfl
    · exact absurd hrb (hapart.not_within hrf)

end Invariant

/-- **The free list of a session is what it should be.** Its links end; its entries are in strict
order, marked free, tagged with their chunks, and none ends where another starts; the blocks in use
are not marked and not on it; and each block that was freed and of which no byte was handed out
again lies inside exactly one entry. -/
theorem freeList_sorted_and_coalesced (h : Reachable Respects s) :
    s.arena.heap.memory.Links s.arena.layout s.arena.heap.head s.arena.freeList ∧
    (s.arena.freeList.Pairwise fun b c =>
      b.chunk < c.chunk ∨ b.chunk = c.chunk ∧ b.start < c.start) ∧
    (∀ b ∈ s.arena.freeList, s.arena.heap.memory.isFreed b = true ∧
      s.arena.heap.memory.tag b = b.chunk) ∧
    (∀ b ∈ s.arena.freeList, ∀ c ∈ s.arena.freeList,
      ¬ (b.chunk = c.chunk ∧ s.arena.heap.memory.blockEnd b = c.start)) ∧
    (∀ b ∈ s.ledger.live, s.arena.heap.memory.isFreed b = false ∧ b ∉ s.arena.freeList) ∧
    ∀ r ∈ s.ledger.retired, ∃! b, b ∈ s.arena.freeList ∧ r.Within (s.extent b) := by
  obtain ⟨t, ht⟩ := h.valid
  have hlists := ht.sound.lists
  refine ⟨ht.links, ?_, ?_, ?_, ?_, ?_⟩
  · rw [ht.freeList_eq]
    exact List.pairwise_map.2 (hlists.ordered.imp Extent.Before.precedes)
  · rw [ht.freeList_eq]
    intro b hb
    obtain ⟨f, hf, rfl⟩ := List.mem_map.1 hb
    exact ⟨hlists.segment.isFreed_of_mem hf, hlists.segment.tag_of_mem hf⟩
  · rw [ht.freeList_eq]
    rintro b hb c hc ⟨hchunk, hend⟩
    obtain ⟨f, hf, rfl⟩ := List.mem_map.1 hb
    obtain ⟨g, hg, rfl⟩ := List.mem_map.1 hc
    rw [Memory.blockEnd, ht.sound.blockSize_eq (Tiling.mem_of_free hf)] at hend
    have hapart := Extent.not_adjoins_of_pairwise ht.sound.clear hf hg
    rw [Extent.adjoins_iff.2 ⟨hchunk, hend⟩] at hapart
    cases hapart
  · intro b hb
    obtain ⟨e, he, rfl⟩ := ht.exists_live hb
    refine ⟨ht.sound.isFreed_of_live he, fun hmem => ?_⟩
    rw [ht.freeList_eq] at hmem
    obtain ⟨f, hf, heq⟩ := List.mem_map.1 hmem
    exact (ht.sound.apart_of_live_of_free he hf).block_ne heq.symm
  · intro r hr
    exact ht.existsUnique_entry hr

/-- Three neighbours freed, the one in the middle last: one entry holds all three. -/
theorem freeList_sorted_and_coalesced_of_run :
    let s := (ofLength 512).run [.allocate .unlimited 16, .allocate .unlimited 16,
      .allocate .unlimited 16, .allocate .unlimited 16, .free (some ⟨0, 96⟩), .free (some ⟨0, 0⟩),
      .free (some ⟨0, 48⟩), .free (some ⟨0, 96⟩)]
    s.arena.freeList = [⟨0, 0⟩] ∧ s.ledger.retired.length = 3 ∧
      ∀ r ∈ s.ledger.retired, ∃! b, b ∈ s.arena.freeList ∧ r.Within (s.extent b) := by
  intro s
  obtain ⟨-, -, -, -, -, hentry⟩ := freeList_sorted_and_coalesced (s := s)
    ((Reachable.ofLength Respects (by decide) (by decide) (by decide)).run (by decide +kernel))
  exact ⟨by decide +kernel, by decide +kernel, hentry⟩

end Session

end ArenaAlloc

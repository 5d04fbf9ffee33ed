import ArenaAlloc.Proofs.Carrying
import ArenaAlloc.Proofs.Occupancy

/-!
# Freeing everything

A list of extents none of which touches another is determined by the bytes that it holds
(`Extent.eq_of_holds_iff`). So once no block is in use and no tail was cut off, the entries can only
be the carved parts of the chunks, one entry for each: `Chunks.fronts`. It does not matter how the
blocks came about, in what order they were freed, or what was merged on the way.

Tails are what stands against it. They are cut off where a reallocation lowers the recorded size of
its block and are not found again before the next reset, so `Conserves` keeps to calls that do not.

## How the proof goes

Nothing is followed through the frees. The invariant says that at any time the spans of blocks,
entries and tails tile what is carved; when there are no blocks and no tails, the entries alone do.
They do not touch, so they are determined by their bytes, and the carved part of each chunk, as one
extent, is such a list too. Hence they are equal.

That blocks are gone is part of the hypothesis in one form of the statement, and is shown in the
other: freeing the blocks in use, in any order, keeps to the contract and leaves none.

What remains of the work is about tails. They are in the ledger only where a call shrank a block in
place, and `tails_run` says that a run without such calls has none, if it started with none.
-/

namespace ArenaAlloc

/-! ## One entry for each chunk

`fronts` is written as a function of the bump offsets, so that the theorem's conclusion does not
mention blocks or frees at all. -/

namespace Chunks

/-- All that was carved from chunk `i`, as one extent. -/
def front? (c : Chunks) (i : Nat) : Option Extent :=
  if c.usedAt i = 0 then none else some ⟨⟨i, 0⟩, c.usedAt i - headerSize⟩

/-- For each chunk from which anything was carved, all of it as one extent. -/
def fronts (c : Chunks) : List Extent := (List.range c.count).filterMap c.front?

variable {c : Chunks} {e : Extent} {i : Nat}

theorem front?_eq_some :
    c.front? i = some e ↔ c.usedAt i ≠ 0 ∧ e = ⟨⟨i, 0⟩, c.usedAt i - headerSize⟩ := by
  unfold front?
  split
  · simp_all
  · simp_all [eq_comm]

/-- One for each chunk, so no two are in the same. -/
theorem pairwise_clear_fronts (c : Chunks) : c.fronts.Pairwise Extent.Clear := by
  refine List.Pairwise.filterMap _ (fun i j hij e he f hf => .inl ?_) List.pairwise_lt_range
  rw [(front?_eq_some.1 he).2, (front?_eq_some.1 hf).2]
  exact hij

/-- The fronts hold what is carved, as soon as no chunk has less carved than a header. -/
theorem holds_fronts (hmin : ∀ i, c.usedAt i ≠ 0 → headerSize ≤ c.usedAt i) (a : Address) :
    Extent.Holds c.fronts a ↔ a.offset < c.usedAt a.chunk := by
  have hstop : ∀ i, c.usedAt i ≠ 0 →
      Extent.stop ⟨⟨i, 0⟩, c.usedAt i - headerSize⟩ = c.usedAt i := by
    intro i hi
    have hle := hmin i hi
    simp only [Extent.stop]
    omega
  constructor
  · rintro ⟨e, he, hcov⟩
    obtain ⟨i, -, hi⟩ := List.mem_filterMap.1 he
    obtain ⟨hused, rfl⟩ := front?_eq_some.1 hi
    obtain ⟨hchunk, -, hlt⟩ := Extent.covers_span.1 hcov
    rw [hstop i hused] at hlt
    rw [hchunk]
    exact hlt
  · intro hlt
    have hused : c.usedAt a.chunk ≠ 0 := Nat.ne_of_gt (Nat.zero_lt_of_lt hlt)
    have hcount : a.chunk < c.count := Nat.lt_of_not_le fun hge =>
      hused (usedAt_of_count_le hge)
    refine ⟨_, List.mem_filterMap.2 ⟨a.chunk, List.mem_range.2 hcount,
      front?_eq_some.2 ⟨hused, rfl⟩⟩, ?_⟩
    refine Extent.covers_span.2 ⟨rfl, Nat.zero_le _, ?_⟩
    rw [hstop _ hused]
    exact hlt

/-- **If only extents that do not touch tile the carved bytes**, there is one for each chunk. -/
theorem eq_fronts_of_tiles {es : List Extent} (hclear : es.Pairwise Extent.Clear)
    (h : Tiles (es.map Extent.span) c) : es = c.fronts := by
  have hholds : ∀ a, Extent.Holds es a ↔ a.offset < c.usedAt a.chunk := by
    intro a
    have hcount := h a
    rw [Extent.holds_iff_coverage, hcount]
    split <;> simp_all
  refine Extent.eq_of_holds_iff hclear c.pairwise_clear_fronts fun a => ?_
  refine (hholds a).trans (holds_fronts (fun i hi => ?_) a).symm
  -- The first byte of the chunk is in an extent, and that has a header.
  obtain ⟨e, he, hcov⟩ := (hholds ⟨i, 0⟩).2 (Nat.pos_of_ne_zero hi)
  have hstop := h.extent_stop_le (List.mem_map_of_mem he)
  have hlong := e.start_lt_stop
  have hchunk : i = e.block.chunk := (Extent.covers_span.1 hcov).1
  rw [hchunk]
  omega

end Chunks

namespace Session

variable {s : Session} {t : Tiling} {c : Call} {cs : List Call}

/-! ## Calls that lose nothing

Lowering a size is decided by what is observed: the block is in use after the call, at the same
place, with a smaller size in its header. A reallocation to the same size, or one that moves, is
none. -/

/-- The call is a reallocation that lowers the recorded size of a block, which stays in use. -/
def Shrinks (s : Session) : Call → Prop
  | .reallocate g (some b) size =>
    b ∈ (s.step (.reallocate g (some b) size)).ledger.live ∧
      (s.step (.reallocate g (some b) size)).arena.heap.memory.blockSize b <
        s.arena.heap.memory.blockSize b
  | _ => False

/-- The call is tolerated and lowers no recorded size. -/
def Conserves (s : Session) (c : Call) : Prop := s.Tolerates c ∧ ¬ s.Shrinks c

instance (s : Session) (c : Call) : Decidable (s.Shrinks c) :=
  match c with
  | .reallocate _ (some _) _ => inferInstanceAs (Decidable (_ ∧ _))
  | .reallocate _ none _ | .allocate .. | .zeroAllocate .. | .free _ | .reset | .write .. =>
    inferInstanceAs (Decidable False)

instance (s : Session) (c : Call) : Decidable (s.Conserves c) :=
  inferInstanceAs (Decidable (_ ∧ _))

/-- Handing out a block cuts nothing off. -/
theorem tails_grant (s : Session) (o : Outcome (Arena × Supply) (Except AllocError Address)) :
    (s.grant o).ledger.tails = s.ledger.tails := by
  unfold grant
  split <;> rfl

theorem tails_reallocate {b : Block} {g : Supply} {size : Nat} (h : s.Invariant t)
    (hb : b ∈ s.ledger.live) (hshrinks : ¬ s.Shrinks (.reallocate g (some b) size)) :
    (s.step (.reallocate g (some b) size)).ledger.tails = s.ledger.tails := by
  obtain ⟨old, hold, rfl⟩ := h.exists_live hb
  rcases reallocate_cases h hold g size with ⟨err, hr⟩ | ⟨n, halign, ⟨hle, hstep⟩ |
    ⟨-, e, t', f, -, -, hstep⟩⟩
  · rw [step_reallocate_of_error hr]
  · have hafter := ShrinksInPlace.of_fits h hold hle (dvd_of_alignUp halign)
    have hsize := congrArg Header.size hafter.header
    rw [Memory.size_header, ← hstep] at hsize
    have hsame : ¬ n < old.size := by
      intro hlt
      refine hshrinks ⟨?_, ?_⟩
      · rw [hstep]
        exact hb
      · rw [hsize, h.sound.blockSize_eq (Tiling.mem_of_live hold)]
        exact hlt
    rw [hstep]
    show old.tail n ++ s.ledger.tails = s.ledger.tails
    rw [Extent.tail, if_neg hsame, List.nil_append]
  · rw [hstep]
    rfl

/-- **Nothing is cut off** where no recorded size is lowered. -/
theorem tails_step (h : s.Invariant t) (hc : s.Conserves c) (htails : s.ledger.tails = []) :
    (s.step c).ledger.tails = [] := by
  obtain ⟨hc, hshrinks⟩ := hc
  cases c with
  | allocate g size => exact (tails_grant s _).trans htails
  | zeroAllocate g count size =>
    simp only [step, zeroAllocate]
    cases (s.arena.zeroAllocate g count size).result <;> exact htails
  | reallocate g p size =>
    cases p with
    | none => exact (tails_grant s _).trans htails
    | some b => exact (tails_reallocate h (hc b rfl) hshrinks).trans htails
  | free p =>
    cases p with
    | none => exact htails
    | some b =>
      simp only [step, free]
      split <;> exact htails
  | reset => rfl
  | write b offset n f => exact htails

theorem tails_run (h : Reachable Tolerates s) (hkeeps : Keeps Conserves s cs)
    (htails : s.ledger.tails = []) :
    Reachable Tolerates (s.run cs) ∧ (s.run cs).ledger.tails = [] := by
  induction cs generalizing s with
  | nil => exact ⟨h, htails⟩
  | cons c cs ih =>
    obtain ⟨hc, hkeeps⟩ := hkeeps
    obtain ⟨t, ht⟩ := h.valid_of_tolerates
    exact ih (h.step hc.1) hkeeps (tails_step ht hc htails)

/-! ## When nothing is in use -/

/-- Everything carved is on the free list, as one entry for each chunk, and can be had again. -/
structure Recovered (s : Session) : Prop where
  entries : s.entries = s.arena.chunks.fronts
  allocate : ∀ g size n, alignUp size = some n → (∃ e ∈ s.arena.chunks.fronts, n ≤ e.size) →
    ∃ e ∈ s.arena.chunks.fronts, n ≤ e.size ∧
      (s.arena.allocate g size).result = .ok e.block.payload ∧
      (s.arena.allocate g size).state.1.chunks = s.arena.chunks ∧
      (s.arena.allocate g size).state.2 = g

theorem Invariant.nodup_live (h : s.Invariant t) : t.live.Nodup :=
  (List.pairwise_append.1 h.sound.pairwise_apart).1.imp fun hapart heq =>
    hapart.block_ne (congrArg Extent.block heq)

theorem Invariant.recovered (h : s.Invariant t) (hlive : t.live = []) (htails : t.tails = []) :
    s.Recovered := by
  have htiles := h.sound.tiles
  rw [Tiling.spans, Tiling.extents, hlive, htails, List.nil_append, List.append_nil] at htiles
  have hentries := Chunks.eq_fronts_of_tiles h.sound.clear htiles
  have hmem : ∀ {b : Block}, b ∈ s.arena.freeList → s.extent b ∈ s.arena.chunks.fronts := by
    intro b hb
    rw [← hentries, ← h.entries_eq]
    exact List.mem_map_of_mem hb
  refine ⟨h.entries_eq.trans hentries, fun g size n halign hlarge => ?_⟩
  obtain ⟨e, he, hle⟩ := hlarge
  rw [← hentries] at he
  have hsome : ∃ d ∈ s.arena.freeList, n ≤ s.arena.heap.memory.blockSize d := by
    refine ⟨e.block, ?_, ?_⟩
    · rw [h.freeList_eq]
      exact List.mem_map_of_mem he
    · rw [h.sound.blockSize_eq (Tiling.mem_of_free he)]
      exact hle
  obtain ⟨b, ⟨hb, hfits, -⟩, hrecycles⟩ := h.sound.exists_firstFit halign g hsome
  exact ⟨s.extent b, hmem hb, hfits, hrecycles.result, hrecycles.chunks, hrecycles.supply⟩

/-- **All blocks in use are freed**, in any order. -/
theorem Invariant.recovered_frees (h : s.Invariant t) (htails : t.tails = []) {bs : List Block}
    (hperm : bs.Perm s.ledger.live) :
    Keeps Respects s (Session.frees bs) ∧ (s.run (Session.frees bs)).ledger.live = [] ∧
      (s.run (Session.frees bs)).arena.chunks = s.arena.chunks ∧
      (s.run (Session.frees bs)).Recovered := by
  have hmem : ∀ e ∈ bs.map s.extent, e ∈ t.live := by
    intro e he
    obtain ⟨b, hb, rfl⟩ := List.mem_map.1 he
    exact h.extent_mem_live (hperm.mem_iff.1 hb)
  have hblocks : (bs.map s.extent).map Extent.block = bs := by
    have hid : Extent.block ∘ s.extent = id := rfl
    rw [List.map_map, hid, List.map_id]
  have hnodup : (bs.map s.extent).Nodup := by
    refine .of_map Extent.block ?_
    rw [hblocks]
    exact hperm.nodup_iff.2 h.pairwise_live.1
  obtain ⟨hkeeps, hafter, -, hchunks⟩ := h.frees hmem hnodup
  rw [hblocks] at hkeeps hafter hchunks
  rw [Tiling.takeBackAll_eq] at hafter
  have hdiff : t.live.diff (bs.map s.extent) = [] := by
    refine List.eq_nil_iff_forall_not_mem.2 fun e he => ?_
    obtain ⟨he, hnot⟩ := (h.nodup_live.mem_sdiff_iff).1 he
    have hlive : e.block ∈ s.ledger.live := h.live.mem_iff.1 (List.mem_map_of_mem he)
    refine hnot (List.mem_map.2 ⟨e.block, hperm.mem_iff.2 hlive, ?_⟩)
    exact h.extent_eq (Tiling.mem_of_live he)
  refine ⟨hkeeps, ?_, hchunks, hafter.recovered hdiff htails⟩
  have hlive := hafter.live
  rw [hdiff] at hlive
  exact hlive.nil_eq.symm

/-- **Freeing everything recovers everything.** Since the arena was new or reset, let no recorded
size have been lowered. Then the bytes carved are those of the blocks in use and of the entries,
with their headers. Once no block is in use any more, the free list has one entry for each chunk
from which anything was carved: it starts at the front of the chunk and ends where carving goes on.
That is so whatever the order in which the last blocks are freed; and a request that one of these
entries is large enough for is granted, and changes nothing about the chunks. -/
theorem freeing_recovers_all {start : Session} (h : Reachable Tolerates start)
    (hblank : start.Blank) (hkeeps : Keeps Conserves start cs) :
    let s := start.run cs
    s.arena.stats.used =
      total (s.ledger.live.map fun b => headerSize + s.arena.heap.memory.blockSize b) +
      total (s.arena.freeList.map fun b => headerSize + s.arena.heap.memory.blockSize b) ∧
    (s.ledger.live = [] → s.Recovered) ∧
    ∀ bs : List Block, bs.Perm s.ledger.live →
      Keeps Respects s (frees bs) ∧ (s.run (frees bs)).ledger.live = [] ∧
        (s.run (frees bs)).arena.chunks = s.arena.chunks ∧ (s.run (frees bs)).Recovered := by
  intro s
  have hnone : start.ledger.tails = [] := by rw [hblank.ledger]
  obtain ⟨hreach, htails⟩ := tails_run h hkeeps hnone
  obtain ⟨t, ht⟩ := hreach.valid_of_tolerates
  have htails' : t.tails = [] := ht.tails.trans htails
  refine ⟨?_, fun hlive => ?_, fun bs hperm => ht.recovered_frees htails' hperm⟩
  · have hused := ht.used_eq
    rw [htails, List.map_nil, total_nil, Nat.add_zero] at hused
    exact hused
  · refine ht.recovered ?_ htails'
    have hperm := ht.live
    rw [hlive] at hperm
    exact List.map_eq_nil_iff.1 (List.perm_nil.1 hperm)

/-- Two chunks, an empty block, a block handed out larger than asked for and one that has moved.
They are freed out of order, and the whole of the first chunk is had again in one piece. -/
theorem freeing_recovers_all_of_run :
    let start := ofLength 256
    let cs : List Call := [.allocate .unlimited 40, .allocate .unlimited 0, .free (some ⟨0, 0⟩),
      .allocate .unlimited 10, .allocate .unlimited 64,
      .reallocate .unlimited (some ⟨0, 0⟩) 60]
    let s := start.run cs
    let last := s.run (frees [⟨0, 112⟩, ⟨1, 0⟩, ⟨0, 80⟩])
    s.arena.stats.used = total [96, 96, 32] + total [80] ∧
      last.entries = [⟨⟨0, 0⟩, 176⟩, ⟨⟨1, 0⟩, 64⟩] ∧
      ∃ e ∈ last.arena.chunks.fronts, 160 ≤ e.size ∧
        (last.arena.allocate .unlimited 150).result = .ok e.block.payload := by
  intro start cs s last
  have hreach : Reachable Tolerates start :=
    Reachable.ofLength _ (by decide) (by decide) (by decide)
  have hkeeps : Keeps Conserves start cs := by decide +kernel
  have hperm : [⟨0, 112⟩, ⟨1, 0⟩, ⟨0, 80⟩].Perm (start.run cs).ledger.live := by decide +kernel
  obtain ⟨hused, -, hany⟩ := freeing_recovers_all hreach ⟨rfl, rfl⟩ hkeeps
  have hrecovered : last.Recovered := (hany _ hperm).2.2.2
  have hsome : ∃ e ∈ last.arena.chunks.fronts, 160 ≤ e.size := by decide +kernel
  obtain ⟨e, he, hle, hresult, -⟩ := hrecovered.allocate .unlimited 150 160 (by decide) hsome
  exact ⟨hused.trans (by decide +kernel), hrecovered.entries.trans (by decide +kernel), e, he, hle,
    hresult⟩

end Session

end ArenaAlloc

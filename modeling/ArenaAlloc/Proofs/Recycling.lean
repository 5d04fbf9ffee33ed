import ArenaAlloc.Proofs.Reallocation

/-!
# Recycling

An entry that is handed out whole and given back at once goes back to where it was, since nothing on
a coalesced list touches it. The other way round, a block that is freed is there for the next
request that it is large enough for; but it may have become part of an entry that starts before it,
and entries before it may be large enough as well. `recycling_round_trips` says when the block
itself is handed out again.

## The two directions

They are not mirror images. Taking an entry and giving it back is exact: an entry that was taken is
apart from all others and touches none, so placing it puts it back where it was
(`Extent.place_middle`). Freeing a block and asking for it again is not: the block may have become
the tail of an entry, whose block the next request is then answered with; or it starts an entry, but
an earlier one is large enough. `Reuses` says what holds in any case, the chunks and the supply are
left alone and the answer is no later than the block, and gives the two conditions under which the
answer is the block itself.

What is asked for is at most the recorded size, which covers what was asked for at first.
-/

namespace ArenaAlloc

namespace Arena

variable {a : Arena} {t : Tiling} {b : Block} {g : Supply} {size : Nat}

/-- A request that is answered with an entry takes it off the list, and the chunks stay. -/
theorem Sound.takeBlock_of_listed (h : a.Sound t) (hb : b ∈ a.freeList)
    (hr : (a.takeBlock g size).result = .ok b) :
    ∃ pre e post, t.free = pre ++ e :: post ∧ b = e.block ∧
      (a.takeBlock g size).state.1.chunks = a.chunks ∧
      a.Taken t e (a.takeBlock g size).state.1
        { t with live := e :: t.live, free := pre ++ post } := by
  cases halign : alignUp size with
  | none =>
    simp only [takeBlock, halign] at hr
    cases hr
  | some n =>
    -- A search that finds something is the case in question; otherwise the block would be carved.
    cases hfit : a.heap.firstFit? a.layout n with
    | some found =>
      obtain ⟨pre, e, post, hfree, hpre, hlarge, -⟩ := h.lists.firstFit?_eq_some hfit
      have htake := h.takeBlock_of_fit halign hfree hpre hlarge g
      rw [htake] at hr ⊢
      cases hr
      exact ⟨pre, e, post, hfree, rfl, rfl, h.recycle hfree⟩
    | none =>
      -- A block that is carved starts behind every entry of its chunk.
      have hall := h.lists.firstFit?_eq_none hfit
      have hcarve := (h.result_takeBlock_of_no_fit halign hall g).symm.trans hr
      have hcarved := h.chunks.carved (dvd_of_alignUp halign) hcarve rfl
      rw [h.freeList_eq] at hb
      obtain ⟨f, hf, rfl⟩ := List.mem_map.1 hb
      have hheader := h.header_le (Tiling.mem_of_free hf)
      rw [← hcarved.start] at hheader
      exact absurd hheader (Nat.not_le.2 (Nat.lt_add_of_pos_right (by decide)))

end Arena

namespace Session

variable {s : Session} {t : Tiling} {b : Block} {e : Extent} {g : Supply} {n size : Nat}

/-- **An entry is taken and given back.** -/
theorem Invariant.entries_of_recycled (h : s.Invariant t) (hb : b ∈ s.arena.freeList)
    (hr : (s.arena.allocate g size).result = .ok b.payload) :
    (s.run [.allocate g size, .free (some b)]).entries = s.entries ∧
      (s.run [.allocate g size, .free (some b)]).arena.chunks = s.arena.chunks := by
  have htake : (s.arena.takeBlock g size).result = .ok b := by
    rw [Arena.allocate, Outcome.result_map] at hr
    cases htaken : (s.arena.takeBlock g size).result with
    | error err =>
      rw [htaken] at hr
      cases hr
    | ok c =>
      rw [htaken] at hr
      rw [Block.payload_injective (Except.ok.inj hr)]
  obtain ⟨pre, e, post, hfree, rfl, hchunks, ht⟩ := h.sound.takeBlock_of_listed hb htake
  have hafter := (allocate_of_taken h htake ht).freed List.mem_cons_self
  have hclear := h.sound.clear
  rw [hfree] at hclear
  constructor
  · rw [h.entries_eq, hfree]
    exact hafter.entries_eq.trans (Extent.place_middle hclear)
  · exact (chunks_run_allocate_free s g size _).trans hchunks

/-- The block is handed out again, or one that comes before it. -/
structure Reuses (s s' : Session) (g : Supply) (b q : Block) (n size : Nat) : Prop where
  result : (s'.arena.allocate g size).result = .ok q.payload
  chunks : (s'.arena.allocate g size).state.1.chunks = s.arena.chunks
  supply : (s'.arena.allocate g size).state.2 = g
  not_after : q = b ∨ q.chunk < b.chunk ∨ q.chunk = b.chunk ∧ q.start < b.start
  same : b ∈ s'.arena.freeList →
    (∀ c ∈ s'.arena.freeList, c.chunk < b.chunk ∨ c.chunk = b.chunk ∧ c.start < b.start →
      s'.arena.heap.memory.blockSize c < n) → q = b

/-- **A block is freed and asked for.** -/
theorem Invariant.reuses_freed (h : s.Invariant t) (he : e ∈ t.live)
    (halign : alignUp size = some n)
    (hle : n ≤ e.size) (g : Supply) :
    ∃ q, s.Reuses (s.step (.free (some e.block))) g e.block q n size := by
  have hafter := h.freed he
  have hchunks : (s.step (.free (some e.block))).arena.chunks = s.arena.chunks := chunks_free s _
  generalize s.step (.free (some e.block)) = s' at hafter hchunks ⊢
  have hbeside : e.Beside t.free := fun f hf => h.sound.apart_of_live_of_free he hf
  -- The entry that the block is in is large enough for the request.
  have hlarge : ∀ k ∈ e.place t.free, e.Within k →
      k.block ∈ s'.arena.freeList ∧ n ≤ s'.arena.heap.memory.blockSize k.block := by
    intro k hk hek
    rw [hafter.freeList_eq, hafter.sound.blockSize_eq (Tiling.mem_of_free hk)]
    exact ⟨List.mem_map_of_mem hk, Nat.le_trans hle hek.size_le⟩
  obtain ⟨k, hk, hek⟩ := Extent.exists_within_place (List.mem_cons_self (a := e) (l := t.free))
  obtain ⟨hlisted, hfits⟩ := hlarge k hk hek
  obtain ⟨q, ⟨hq, hqfits, hfirst⟩, hrecycles⟩ :=
    hafter.sound.exists_firstFit halign g ⟨k.block, hlisted, hfits⟩
  refine ⟨q, hrecycles.result, hrecycles.chunks.trans hchunks, hrecycles.supply, ?_, ?_⟩
  · -- The entry that the block went into starts no later than the block, and the search stops there
    -- at the latest.
    obtain ⟨hchunk, hstart, -⟩ := hek
    have hqk := hfirst k.block hlisted hfits
    obtain ⟨⟨chunk, start⟩, size⟩ := e
    obtain ⟨qchunk, qstart⟩ := q
    obtain ⟨⟨kchunk, kstart⟩, ksize⟩ := k
    simp only [Block.mk.injEq] at hqk hchunk hstart ⊢
    omega
  · intro hmem hbefore
    rw [hafter.freeList_eq] at hmem
    -- Now the block starts an entry, and it is that one the search finds.
    obtain ⟨f, hf, hfe⟩ := List.mem_map.1 hmem
    obtain ⟨hflisted, hffits⟩ := hlarge f hf
      (Extent.within_of_block_eq h.sound.clear hbeside hf hfe)
    rcases hfirst f.block hflisted hffits with heq | hbehind
    · rw [← heq, hfe]
    · rw [hfe] at hbehind
      exact absurd hqfits (Nat.not_le.2 (hbefore q hq hbehind))

/-- A block that is freed starts an entry exactly if it was not merged into one before it. -/
theorem Invariant.listed_iff (h : s.Invariant t) (he : e ∈ t.live) :
    e.block ∈ (s.step (.free (some e.block))).arena.freeList ↔
      ∀ c ∈ s.arena.freeList,
        ¬ (c.chunk = e.block.chunk ∧ s.arena.heap.memory.blockEnd c = e.block.start) := by
  have hafter := h.freed he
  have hbeside : e.Beside t.free := fun f hf => h.sound.apart_of_live_of_free he hf
  rw [hafter.freeList_eq, h.freeList_eq, List.forall_mem_map]
  refine (Extent.block_mem_place_iff h.sound.clear hbeside).trans (forall₂_congr fun f hf => ?_)
  rw [Memory.blockEnd, h.sound.blockSize_eq (Tiling.mem_of_free hf), Bool.eq_false_iff, Ne,
    Extent.adjoins_iff]
  rfl

/-- **Recycling round trips.** A request that is answered with an entry, and a free of it at once,
leave the free list and the chunks as they were. A block in use that is freed, and then a request
for no more than its recorded size, change nothing about the chunks: the request is answered with
the block or with one before it, and with the block itself if it was not merged into an entry before
it and no entry before it is large enough. -/
theorem recycling_round_trips (h : Reachable Tolerates s) (g : Supply) (size : Nat) :
    (∀ b ∈ s.arena.freeList, (s.arena.allocate g size).result = .ok b.payload →
      let s' := s.run [.allocate g size, .free (some b)]
      s'.entries = s.entries ∧ s'.arena.chunks = s.arena.chunks) ∧
    ∀ b ∈ s.ledger.live, ∀ n, alignUp size = some n → n ≤ s.arena.heap.memory.blockSize b →
      let s' := s.step (.free (some b))
      (b ∈ s'.arena.freeList ↔ ∀ c ∈ s.arena.freeList,
        ¬ (c.chunk = b.chunk ∧ s.arena.heap.memory.blockEnd c = b.start)) ∧
      ∃ q, s.Reuses s' g b q n size := by
  obtain ⟨t, ht⟩ := h.valid_of_tolerates
  refine ⟨fun b hb hr => ht.entries_of_recycled hb hr, fun b hb n halign hle => ?_⟩
  obtain ⟨e, he, rfl⟩ := ht.exists_live hb
  rw [ht.sound.blockSize_eq (Tiling.mem_of_live he)] at hle
  exact ⟨ht.listed_iff he, ht.reuses_freed he halign hle g⟩

/-- The entry before is too small for the block that is freed, so that block is handed out again. -/
theorem recycling_round_trips_of_run :
    let s := (ofLength 192).run [.allocate .unlimited 16, .allocate .unlimited 0,
      .allocate .unlimited 40, .free (some ⟨0, 0⟩)]
    (s.run [.allocate .unlimited 10, .free (some ⟨0, 0⟩)]).entries = s.entries ∧
      s.Reuses (s.step (.free (some ⟨0, 80⟩))) .unlimited ⟨0, 80⟩ ⟨0, 80⟩ 48 40 := by
  intro s
  have hreach : Reachable Tolerates s :=
    (Reachable.ofLength _ (by decide) (by decide) (by decide)).run (by decide +kernel)
  obtain ⟨hfirst, -⟩ := recycling_round_trips hreach .unlimited 10
  obtain ⟨-, hsecond⟩ := recycling_round_trips hreach .unlimited 40
  have hlive : ⟨0, 80⟩ ∈ s.ledger.live := by decide +kernel
  obtain ⟨hlisted, q, hq⟩ := hsecond ⟨0, 80⟩ hlive 48 (by decide) (by decide +kernel)
  have hsame : q = ⟨0, 80⟩ := hq.same (hlisted.2 (by decide +kernel)) (by decide +kernel)
  rw [hsame] at hq
  have hentry : ⟨0, 0⟩ ∈ s.arena.freeList := by decide +kernel
  obtain ⟨hback, -⟩ := hfirst ⟨0, 0⟩ hentry (by decide +kernel)
  exact ⟨hback, hq⟩

end Session

end ArenaAlloc

import ArenaAlloc.Proofs.Effect

/-!
# Where the chunks lie does not matter

A block is a place in a chunk here, and the free list compares places: `Memory.comesBefore` and
`Memory.adjoins` look at the chunks that the two blocks are in, next to the tags of their headers.
An allocator on a real machine has no such test. It compares tags, and behind equal tags it compares
addresses. Where the chunks lie in the address space is up to the system, so the one behind another
may well start at the very byte where that one ends, and a later one may lie below an earlier one.

This module makes the comparison in that way. `bases` says for each chunk at which address it
starts, and `Comparison.byAddress` compares by tags and addresses. Nothing is assumed of `bases`,
not even that the chunks do not overlap: as long as each header is tagged with the chunk that it
lies in, equal tags mean equal chunks, and behind these the base drops out on both sides
(`byAddress_faithful`).

So what has to be shown is that every header an insertion reads is tagged with its own chunk. For
the block itself and for the entries that is a part of soundness; but an insertion also reads
headers after it has stored into some, when it merges. `Lists.insertBy_eq` follows it through its
stages, each of which has the list in a known form again (`Lists.linked`, `Lists.mergeBehind`).

The free list is inserted into in two places, when a block is freed and when one was moved.
`Session.giveBlockAt_eq` covers both, in every session that tolerated calls lead to. The order of
two blocks plays no part elsewhere. -/

namespace ArenaAlloc

/-! ## Comparing by address -/

namespace Memory

/-- Whether `b` comes before `c` by tag and then by address, when chunk `i` starts at `bases i`. -/
def comesBeforeAt (bases : Nat → Nat) (m : Memory) (b c : Block) : Bool :=
  m.tag b < m.tag c ||
    m.tag b == m.tag c && decide (bases b.chunk + b.start < bases c.chunk + c.start)

/-- Whether `b` and `next` have the same tag and `next` starts at the address where `b` ends. -/
def adjoinsAt (bases : Nat → Nat) (m : Memory) (b next : Block) : Bool :=
  m.tag b == m.tag next && bases b.chunk + m.blockEnd b == bases next.chunk + next.start

end Memory

namespace Comparison

def byAddress (bases : Nat → Nat) : Comparison :=
  ⟨Memory.comesBeforeAt bases, Memory.adjoinsAt bases⟩

/-- Blocks that are tagged with the chunks they lie in compare as their places do. -/
def Faithful (o : Comparison) : Prop :=
  ∀ (m : Memory) (b c : Block), m.tag b = b.chunk → m.tag c = c.chunk →
    o.comesBefore m b c = m.comesBefore b c ∧ o.adjoins m b c = m.adjoins b c

/-- **Addresses compare as places do**, wherever the chunks lie. -/
theorem byAddress_faithful (bases : Nat → Nat) : (byAddress bases).Faithful := by
  intro m b c hb hc
  by_cases hchunk : b.chunk = c.chunk
  · -- Both addresses have the same base.
    simp only [byAddress, Memory.comesBeforeAt, Memory.adjoinsAt, Memory.comesBefore,
      Memory.adjoins, hb, hc, hchunk, Nat.add_lt_add_iff_left, BEq.rfl, Bool.true_and,
      Nat.lt_irrefl, decide_false, Bool.false_or]
    refine ⟨trivial, ?_⟩
    rw [Bool.eq_iff_iff, beq_iff_eq, beq_iff_eq]
    omega
  · -- The tags are not the same, and the addresses are not looked at.
    have htag : (b.chunk == c.chunk) = false := beq_false_of_ne hchunk
    simp only [byAddress, Memory.comesBeforeAt, Memory.adjoinsAt, Memory.comesBefore,
      Memory.adjoins, hb, hc, htag, Bool.false_and, and_self]

end Comparison

/-! ## Insertion -/

/-- A walk looks at the blocks of the chain and at no others. -/
theorem Memory.seek_congr {m : Memory} {l : Layout} {p q : Block → Bool} {reach : Nat}
    {before first : Option Block} (h : ∀ b ∈ m.chain l reach first, p b = q b) :
    m.seek l p reach before first = m.seek l q reach before first := by
  have hwhile := takeWhile_dropWhile_congr (p := (!p ·)) (q := (!q ·)) fun b hb =>
    congrArg Bool.not (h b hb)
  rw [seek_eq, seek_eq, hwhile.1, hwhile.2]

namespace Heap

variable {o : Comparison} {h : Heap} {l : Layout} {b : Block} {e f : Extent}
  {es pre post : List Extent}

namespace Lists

theorem mergeIfAdjoining_eq (ho : o.Faithful) (hl : h.Lists l es) (he : e ∈ es) (hf : f ∈ es) :
    h.mergeIfAdjoining o e.block f.block = h.mergeIfAdjoining .byPlace e.block f.block := by
  have hadjoins := (ho h.memory e.block f.block (hl.segment.tag_of_mem he)
    (hl.segment.tag_of_mem hf)).2
  rw [Heap.mergeIfAdjoining, hadjoins, Heap.mergeIfAdjoining, Comparison.adjoins_byPlace]

/-- The two merges. Behind the first one `e` may have grown, but it is where it was, and so is its
tag. -/
theorem merges_eq (ho : o.Faithful) (hl : h.Lists l (pre ++ e :: post))
    (hstop : ∀ f ∈ post, f.stop < wordLimit) :
    (h.mergeBehind o e.block (post.head?.map Extent.block)).mergeBefore o e.block
        (pre.getLast?.map Extent.block) =
      (h.mergeBehind .byPlace e.block (post.head?.map Extent.block)).mergeBefore .byPlace e.block
        (pre.getLast?.map Extent.block) := by
  have hbehind : h.mergeBehind o e.block (post.head?.map Extent.block) =
      h.mergeBehind .byPlace e.block (post.head?.map Extent.block) := by
    cases post with
    | nil => simp only [List.head?_nil, Option.map_none, mergeBehind_none]
    | cons f post => exact hl.mergeIfAdjoining_eq ho (by simp) (by simp)
  obtain ⟨hgrown, -⟩ := hl.mergeBehind hstop
  obtain ⟨grown, rest, hjoin, hblock, -⟩ := Extent.exists_join_eq e post
  rw [hjoin] at hgrown
  rw [hbehind]
  generalize h.mergeBehind .byPlace e.block (post.head?.map Extent.block) = merged at hgrown ⊢
  rcases List.eq_nil_or_concat' pre with rfl | ⟨init, p, rfl⟩
  · simp only [List.getLast?_nil, Option.map_none, mergeBefore_none]
  · have hmerge := hgrown.mergeIfAdjoining_eq (e := p) (f := grown) ho (by simp) (by simp)
    rw [hblock] at hmerge
    rw [List.getLast?_concat]
    exact hmerge

/-- **An insertion comes to the same** by any faithful comparison. -/
theorem insertBy_eq {size link : Nat} {freed : Bool} (ho : o.Faithful) (hl : h.Lists l es)
    (htotal : total l < wordLimit) (hb : h.memory.header b = ⟨size, link, b.chunk, freed⟩)
    (hholds : l.Holds b) (hbeside : Extent.Beside ⟨b, size⟩ es)
    (hstop : ∀ f ∈ es, f.stop < wordLimit) : h.insertBy o l b = h.insert l b := by
  obtain ⟨pre, post, rfl, -, hseek, hplaced, -⟩ := hl.linked htotal hb hholds hbeside
  -- The walk is over marked memory, in which no tag has changed.
  have hmark : h.memory.AgreesBut (h.memory.setFreed b true) [b] :=
    .setFreed true List.mem_cons_self
  have hmarked : Lists { h with memory := h.memory.setFreed b true } l (pre ++ post) :=
    hl.of_header_eq fun f hf => hmark.header_eq (List.forall_mem_singleton.2
      ((hbeside f hf).elim (fun hbf => hbf.headerApart.symm) Extent.Before.headerApart))
  have htag : (h.memory.setFreed b true).tag b = b.chunk := by
    rw [← Memory.tag_header, Memory.header_setFreed, hb]
  have hwalk : (h.memory.setFreed b true).seek l (o.comesBefore (h.memory.setFreed b true) b)
      (total l) none h.head = (pre.getLast?.map Extent.block, post.head?.map Extent.block) := by
    rw [← hseek]
    refine Memory.seek_congr fun c hc => ?_
    rw [hmarked.chain_eq] at hc
    obtain ⟨f, hf, rfl⟩ := List.mem_map.1 hc
    exact (ho _ b f.block htag (hmarked.segment.tag_of_mem hf)).1
  rw [insert_eq hseek]
  simp only [insertBy, hwalk]
  exact hplaced.merges_eq (e := ⟨b, size⟩) ho fun f hf => hstop f (List.mem_append_right _ hf)

end Lists

end Heap

/-! ## The two places -/

namespace Arena

/-- `giveBlock` with the free list compared by tags and addresses. -/
def giveBlockAt (bases : Nat → Nat) (a : Arena) (b : Block) : Outcome Arena Unit :=
  if a.heap.memory.isFreed b then ⟨(), a, [.alreadyFreed b.payload]⟩
  else ⟨(), { a with heap := a.heap.insertBy (.byAddress bases) a.layout b }, []⟩

theorem Sound.giveBlockAt_eq {a : Arena} {t : Tiling} {e : Extent} (h : a.Sound t) (he : e ∈ t.live)
    (bases : Nat → Nat) : a.giveBlockAt bases e.block = a.giveBlock e.block := by
  have hbeside : e.Beside t.free := fun f hf => h.apart_of_live_of_free he hf
  have hinsert := h.lists.insertBy_eq (Comparison.byAddress_faithful bases) h.total_lt
    (h.header e he) (h.holds (Tiling.mem_of_live he)) hbeside
    fun f hf => h.stop_lt (Tiling.mem_of_free hf)
  rw [giveBlockAt, Arena.giveBlock, hinsert]

end Arena

namespace Session

variable {s : Session} {b target : Block}

/-- **Giving a block back is independent of where the chunks lie.** It is for every block whose free
is tolerated, also one that is free already, and for a block that was moved, in the arena as it is
when its payload has been copied. -/
theorem giveBlockAt_eq (h : Reachable Tolerates s) (bases : Nat → Nat) :
    (s.Tolerates (.free (some b)) → s.arena.giveBlockAt bases b = s.arena.giveBlock b) ∧
    ∀ supply n, b ∈ s.ledger.live → s.arena.heap.memory.blockSize b < n →
      (s.arena.takeBlock supply n).result = .ok target →
      let copied := (s.arena.takeBlock supply n).state.1.copyPayload b target
      copied.giveBlockAt bases b = copied.giveBlock b := by
  obtain ⟨t, ht⟩ := h.valid_of_tolerates
  refine ⟨fun hc => ?freed, fun supply n hlive hgrows hr => ?moved⟩
  case freed =>
    by_cases hlive : b ∈ s.ledger.live
    · obtain ⟨e, he, rfl⟩ := ht.exists_live hlive
      exact ht.sound.giveBlockAt_eq he bases
    · -- It is marked, so nothing is inserted.
      have hfreed := ht.isFreed_of_tolerates hc hlive
      rw [Arena.giveBlockAt, Arena.giveBlock, if_pos hfreed, if_pos hfreed]
  case moved =>
    obtain ⟨old, hold, rfl⟩ := ht.exists_live hlive
    rw [ht.sound.blockSize_eq (Tiling.mem_of_live hold)] at hgrows
    rcases ht.sound.takeBlock_cases supply n with ⟨err, hrefused, -⟩ | ⟨e, t', htaken, hle, hsound⟩
    · rw [hrefused] at hr
      cases hr
    · rw [htaken] at hr
      cases hr
      have hfits : old.size ≤ e.size := Nat.le_of_lt (Nat.lt_of_lt_of_le hgrows hle)
      obtain ⟨hcopied, hold⟩ := sound_copyPayload hsound hold hfits
      exact hcopied.giveBlockAt_eq hold bases

end Session

end ArenaAlloc

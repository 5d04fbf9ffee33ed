import ArenaAlloc.Arena.Access
import ArenaAlloc.Proofs.Carving
import ArenaAlloc.Proofs.Insertion
import Mathlib.Data.List.Pairwise

/-!
# Sound arenas

A `Tiling` divides the carved bytes of an arena up into blocks in use, entries of the free list, and
the tails that shrinking left behind. `Arena.Sound` says that the arena's bytes bear it out: the
headers say what the extents say, the links lead through the free ones in order, and the spans tile
the carved part of every chunk.

Each step of the arena moves from one tiling to the next.

* Taking a block moves an entry over or adds an extent (`takeBlock_cases`).
* Giving one back places it among the entries (`giveBlock`).
* Shrinking one cuts a tail off (`shrinkBlock`).
* A store into a payload moves nothing (`store`).

The tiling is a ghost: no operation computes it, and it cannot be read off the bytes. A tail has no
header, and the header of an absorbed block still lies in the payload of the entry that absorbed it,
where it looks like any other. What is a block and what is only left of one depends on what went on
before, so the theorems carry the tiling along as an argument and say how each step changes it.

Every proof about a step has the same shape. One lemma says which headers the step stores into (an
`AgreesBut`); all other headers are apart from those, since tiles are apart, and so they read as
before; and the count of each byte is compared before and after. The clauses of `Sound` are proved
by name, one case for each, so that a new clause adds a case to each step and changes no other.
-/

namespace ArenaAlloc

/-! ## Tilings of an arena

Blocks in use and entries both have headers and are called extents; tails are bare spans. The order
of the live ones is of no importance, and permutations of them occur wherever one is singled out.
The order of the free ones is the order of the list. -/

/-- A division of the carved bytes of an arena. -/
structure Tiling where
  live : List Extent := []
  free : List Extent := []
  tails : List Span := []

namespace Tiling

/-- Everything that has a header. -/
def extents (t : Tiling) : List Extent := t.live ++ t.free

def spans (t : Tiling) : List Span := t.extents.map Extent.span ++ t.tails

theorem mem_of_live {t : Tiling} {e : Extent} (he : e ∈ t.live) : e ∈ t.extents :=
  List.mem_append_left _ he

theorem mem_of_free {t : Tiling} {e : Extent} (he : e ∈ t.free) : e ∈ t.extents :=
  List.mem_append_right _ he

/-- The headers that taking or giving back a block stores into belong to the tiling. -/
theorem mem_blocks {t : Tiling} {e : Extent} (he : e ∈ t.extents) :
    ∀ b ∈ e.block :: t.free.map Extent.block, b ∈ t.extents.map Extent.block := by
  refine List.forall_mem_cons.2 ⟨List.mem_map_of_mem he, fun b hb => ?_⟩
  obtain ⟨f, hf, rfl⟩ := List.mem_map.1 hb
  exact List.mem_map_of_mem (mem_of_free hf)

end Tiling

namespace Arena

/-! Tags, links and marks are not clauses of their own: they are part of what a header says, and
`header_eq` reads them off. That entries are `clear` of one another, which means that no two adjoin,
is what the merging of an insertion keeps up. -/

/-- The bytes of the arena are divided up as `t` says. -/
structure Sound (a : Arena) (t : Tiling) : Prop where
  chunks : a.chunks.Sound
  lists : a.heap.Lists a.layout t.free
  clear : t.free.Pairwise Extent.Clear
  header : ∀ e ∈ t.live, a.heap.memory.header e.block = ⟨e.size, 0, e.block.chunk, false⟩
  aligned : ∀ e ∈ t.extents, e.Aligned
  tails : ∀ s ∈ t.tails, 0 < s.length ∧ maxAlign ∣ s.start.offset ∧ maxAlign ∣ s.length
  tiles : Tiles t.spans a.chunks

variable {a : Arena} {t : Tiling} {s : Supply} {b : Block} {e f : Extent} {n size : Nat}

namespace Sound

/-! What soundness says about one extent, and about two of them. -/

theorem total_lt (h : a.Sound t) : total a.layout < wordLimit := h.chunks.capacity_lt

/-- Two tiles share no byte, and blocks are tiles. -/
theorem pairwise_apart (h : a.Sound t) : t.extents.Pairwise Extent.Apart :=
  Tiles.pairwise_apart h.tiles

theorem eq_or_apart (h : a.Sound t) (he : e ∈ t.extents) (hf : f ∈ t.extents) :
    e = f ∨ e.Apart f := by
  by_cases hef : e = f
  · exact .inl hef
  · exact .inr (h.pairwise_apart.forall he hf hef)

theorem apart_of_live_of_free (h : a.Sound t) (he : e ∈ t.live) (hf : f ∈ t.free) : e.Apart f :=
  (List.pairwise_append.1 h.pairwise_apart).2.2 e he f hf

/-- One block in use is apart from the others and from the entries. -/
theorem apart_of_perm (h : a.Sound t) {rest : List Extent} (hlive : t.live.Perm (e :: rest))
    (hf : f ∈ rest ++ t.free) : f.Apart e := by
  have hperm : t.extents.Perm (e :: (rest ++ t.free)) := hlive.append_right _
  have hpair := (List.Perm.pairwise_iff (fun h => h.symm) hperm).1 h.pairwise_apart
  exact ((List.pairwise_cons.1 hpair).1 f hf).symm

/-- A block ends where carving goes on, or before. -/
theorem stop_le (h : a.Sound t) (he : e ∈ t.extents) :
    e.stop ≤ a.chunks.usedAt e.block.chunk :=
  h.tiles.extent_stop_le (List.mem_append_left _ (List.mem_map_of_mem he))

theorem header_le (h : a.Sound t) (he : e ∈ t.extents) :
    e.block.start + headerSize ≤ a.chunks.usedAt e.block.chunk :=
  Nat.le_trans e.start_lt_stop (h.stop_le he)

/-- The end of a block fits a word. The capacity does, and no block reaches beyond its chunk. -/
theorem stop_lt (h : a.Sound t) (he : e ∈ t.extents) : e.stop < wordLimit :=
  Nat.lt_of_le_of_lt (h.stop_le he) h.chunks.usedAt_lt

theorem size_lt (h : a.Sound t) (he : e ∈ t.extents) : e.size < wordLimit :=
  Nat.lt_of_le_of_lt (Nat.le_add_left _ _) (h.stop_lt he)

theorem holds (h : a.Sound t) (he : e ∈ t.extents) : a.layout.Holds e.block :=
  h.chunks.holds (h.header_le he)

/-- Every header says what the extent says, and which chunk it lies in. -/
theorem header_eq (h : a.Sound t) (he : e ∈ t.extents) :
    ∃ link freed, a.heap.memory.header e.block = ⟨e.size, link, e.block.chunk, freed⟩ := by
  rcases List.mem_append.1 he with he | he
  · exact ⟨_, _, h.header e he⟩
  · obtain ⟨link, hh⟩ := h.lists.segment.header_of_mem he
    exact ⟨link, true, hh⟩

theorem blockSize_eq (h : a.Sound t) (he : e ∈ t.extents) :
    a.heap.memory.blockSize e.block = e.size := by
  obtain ⟨link, freed, hh⟩ := h.header_eq he
  rw [← Memory.size_header, hh]

theorem extent_eq (h : a.Sound t) (he : e ∈ t.extents) : a.heap.memory.extent e.block = e := by
  rw [Memory.extent, h.blockSize_eq he]

theorem isFreed_of_live (h : a.Sound t) (he : e ∈ t.live) :
    a.heap.memory.isFreed e.block = false := by
  rw [← Memory.freed_header, h.header e he]

theorem freeList_eq (h : a.Sound t) : a.freeList = t.free.map Extent.block := h.lists.freeList_eq

/-- **A payload has no header in it**, neither the block's own nor that of another. This is what
lets a caller store into a payload without harm to the bookkeeping, and the bookkeeping go on
without harm to what was stored. -/
theorem not_inHeader_of_payload (h : a.Sound t) (he : e ∈ t.extents) (hf : f ∈ t.extents)
    {x : Address} (hx : x.InRange e.block.payload e.size) : ¬ x.InHeader f.block := by
  rcases h.eq_or_apart he hf with rfl | hapart
  · exact hx.not_inHeader
  · -- The other block lies as a whole before this one or behind it.
    rw [Address.inHeader_iff]
    simp only [Address.InRange, Block.payload] at hx
    have hfs := f.start_lt_stop
    simp only [Extent.Apart, Extent.Before, Extent.stop, headerSize] at *
    omega

/-- Stores into headers leave payloads alone. -/
theorem byte_payload (h : a.Sound t) (he : e ∈ t.extents) {m m' : Memory} {bs : List Block}
    (hagree : m.AgreesBut m' bs) (hbs : ∀ b ∈ bs, b ∈ t.extents.map Extent.block) {x : Address}
    (hx : x.InRange e.block.payload e.size) : m'.byte x = m.byte x := by
  refine hagree x fun b hb => ?_
  obtain ⟨f, hf, rfl⟩ := List.mem_map.1 (hbs b hb)
  exact h.not_inHeader_of_payload he hf hx

end Sound

/-! ## New arenas and resets

Both have nothing carved, and the empty tiling is the only one that fits. What the bytes are is of
no account then: a new arena has whatever was in its chunks before, and an arena that was reset
still has every header it ever had. -/

theorem create_eq_ok {config : Config} (h : (create config s).result = .ok a) :
    config.fault? = none ∧
      ∃ c s', Chunks.create config s = .ok (c, s') ∧
        a = { chunks := c, heap := { memory := s.contents } } := by
  unfold create at h
  split at h
  · cases h
  · rename_i hvalid
    split at h
    · cases h
    · rename_i c s' hchunks
      cases h
      exact ⟨Config.validate_eq_ok_iff.1 hvalid, c, s', hchunks, rfl⟩

/-- **A new arena is sound**, whatever its memory holds. -/
theorem sound_create {config : Config} (h : (create config s).result = .ok a) : a.Sound {} := by
  obtain ⟨-, c, s', hchunks, rfl⟩ := create_eq_ok h
  obtain ⟨hsound, hused⟩ := Chunks.sound_create hchunks
  exact ⟨hsound, Heap.lists_nil _ _, .nil, by simp, by simp [Tiling.extents], by simp,
    Tiles.of_usedAt_eq_zero hused⟩

/-- A reset needs its chunks to be sound and nothing else, so it would repair an arena whose headers
were overwritten. -/
theorem sound_reset (h : a.chunks.Sound) : a.reset.state.Sound {} := by
  refine ⟨Chunks.sound_rewind h, Heap.lists_nil _ _, .nil, by simp, ?_, by simp, ?_⟩
  · simp [Tiling.extents]
  · exact Tiles.of_usedAt_eq_zero (Chunks.usedAt_rewind _)

/-! ## Stores into payloads

Callers, zero fills and copies all store into payloads of blocks in use, and this one lemma covers
them. -/

/-- **A store into the payload of a block in use moves nothing.** -/
theorem Sound.store (h : a.Sound t) (he : e ∈ t.live) {p : Address} {n : Nat} {g : Nat → UInt8}
    (hp : ∀ x : Address, x.InRange p n → x.InRange e.block.payload e.size) :
    (a.write p n g).Sound t := by
  -- No header has a byte in the payload, so all of them read as before, and the clauses are about
  -- nothing else.
  have hkeep : ∀ f ∈ t.extents, ∀ x : Address, x.InHeader f.block →
      (a.heap.memory.write p n g).byte x = a.heap.memory.byte x := by
    intro f hf x hx
    refine Memory.byte_write_of_not_inRange fun hr => ?_
    exact h.not_inHeader_of_payload (Tiling.mem_of_live he) hf (hp x hr) hx
  refine ⟨h.chunks, h.lists.of_header_eq fun f hf => ?_, h.clear, fun f hf => ?_, h.aligned,
    h.tails, h.tiles⟩
  · exact Memory.header_congr (hkeep f (Tiling.mem_of_free hf))
  · rw [← h.header f hf]
    exact Memory.header_congr (hkeep f (Tiling.mem_of_live hf))

/-! ## Taking a block

A request is served in one of two ways, and what follows from it hardly ever depends on which.
`Taken` says what they have in common: the block is in use afterwards, everything that was in use
still is, and only its own header and those of entries were stored into. -/

/-- What handing out the block of `e` makes of the arena and its tiling: it was an entry, or it is
carved where carving went on. -/
structure Taken (a : Arena) (t : Tiling) (e : Extent) (a' : Arena) (t' : Tiling) : Prop where
  sound : a'.Sound t'
  live : t'.live = e :: t.live
  tails : t'.tails = t.tails
  origin : t.free.Perm (e :: t'.free) ∨
    t'.free = t.free ∧ e.block.start = a.chunks.usedAt e.block.chunk
  used_le : ∀ i, a.chunks.usedAt i ≤ a'.chunks.usedAt i
  agrees : a.heap.memory.AgreesBut a'.heap.memory (e.block :: t.free.map Extent.block)

namespace Taken

variable {a' : Arena} {t' : Tiling}

/-- Whatever has a header afterwards had one before, or is the block that was handed out. -/
theorem mem_extents (h : a.Taken t e a' t') (hf : f ∈ t'.extents) : f = e ∨ f ∈ t.extents := by
  rcases List.mem_append.1 hf with hf | hf
  · rw [h.live] at hf
    rcases List.mem_cons.1 hf with rfl | hf
    · exact .inl rfl
    · exact .inr (Tiling.mem_of_live hf)
  · rcases h.origin with hperm | ⟨heq, -⟩
    · exact .inr (Tiling.mem_of_free (hperm.mem_iff.2 (List.mem_cons_of_mem _ hf)))
    · exact .inr (Tiling.mem_of_free (heq ▸ hf))

theorem eq_or_mem_free (h : a.Taken t e a' t') (hf : f ∈ t.free) : f = e ∨ f ∈ t'.free := by
  rcases h.origin with hperm | ⟨heq, -⟩
  · exact List.mem_cons.1 (hperm.mem_iff.1 hf)
  · exact .inr (heq ▸ hf)

/-- The block handed out is in use. -/
theorem mem_live (h : a.Taken t e a' t') : e ∈ t'.live := h.live ▸ List.mem_cons_self

theorem mem_live_of_mem (h : a.Taken t e a' t') (hf : f ∈ t.live) : f ∈ t'.live :=
  h.live ▸ List.mem_cons_of_mem e hf

/-- No size changes when a block is handed out. -/
theorem blockSize_eq (h : a.Taken t e a' t') (hf : f ∈ t.extents) :
    a'.heap.memory.blockSize f.block = f.size := by
  refine h.sound.blockSize_eq ?_
  rcases List.mem_append.1 hf with hf | hf
  · exact Tiling.mem_of_live (h.mem_live_of_mem hf)
  · rcases h.eq_or_mem_free hf with rfl | hf
    · exact Tiling.mem_of_live h.mem_live
    · exact Tiling.mem_of_free hf

/-- It is apart from every block that was in use before. -/
theorem apart (h : a.Taken t e a' t') (hf : f ∈ t.live) : e.Apart f := by
  have hpair := h.sound.pairwise_apart
  rw [Tiling.extents, h.live] at hpair
  exact (List.pairwise_cons.1 hpair).1 f (List.mem_append_left _ hf)

/-- A carved byte outside all headers is not in the header of the block handed out either. -/
theorem not_inHeader (h : a.Taken t e a' t') {x : Address}
    (hused : x.offset < a.chunks.usedAt x.chunk) (hx : ∀ f ∈ t.extents, ¬ x.InHeader f.block) :
    ¬ x.InHeader e.block := by
  rcases h.origin with hperm | ⟨-, hstart⟩
  · -- A recycled block had its header before.
    exact hx e (Tiling.mem_of_free (hperm.mem_iff.2 List.mem_cons_self))
  · -- A carved one has it where nothing was carved.
    intro hin
    obtain ⟨hc, hle, -⟩ := Address.inHeader_iff.1 hin
    rw [hstart, ← hc] at hle
    exact Nat.not_lt.2 hle hused

/-- Carved bytes outside all headers stay as they are when a block is handed out. -/
theorem byte_of_not_inHeader (h : a.Taken t e a' t') {x : Address}
    (hused : x.offset < a.chunks.usedAt x.chunk) (hx : ∀ f ∈ t.extents, ¬ x.InHeader f.block) :
    a'.heap.memory.byte x = a.heap.memory.byte x := by
  refine h.agrees x fun b hb => ?_
  rcases List.mem_cons.1 hb with rfl | hb
  · exact h.not_inHeader hused hx
  · obtain ⟨f, hf, rfl⟩ := List.mem_map.1 hb
    exact hx f (Tiling.mem_of_free hf)

theorem byte_payload (h : a.Taken t e a' t') (hf : f ∈ t.live) {x : Address}
    (hx : x.InRange f.block.payload f.size) : a'.heap.memory.byte x = a.heap.memory.byte x := by
  refine h.sound.byte_payload (Tiling.mem_of_live (h.mem_live_of_mem hf)) h.agrees ?_ hx
  intro b hb
  rcases List.mem_cons.1 hb with rfl | hb
  · exact List.mem_map_of_mem (Tiling.mem_of_live h.mem_live)
  · obtain ⟨g, hg, rfl⟩ := List.mem_map.1 hb
    rcases h.eq_or_mem_free hg with rfl | hg
    · exact List.mem_map_of_mem (Tiling.mem_of_live h.mem_live)
    · exact List.mem_map_of_mem (Tiling.mem_of_free hg)

end Taken

/-- An entry handed out whole. -/
theorem Sound.recycle (h : a.Sound t) {pre post : List Extent} (hfree : t.free = pre ++ e :: post) :
    a.Taken t e { a with heap := a.heap.unlink a.layout (pre.getLast?.map Extent.block) e.block }
      { t with live := e :: t.live, free := pre ++ post } := by
  have hlists := h.lists
  rw [hfree] at hlists
  obtain ⟨hlists', hheader, hagree⟩ := hlists.unlink h.total_lt
  rw [← hfree] at hagree
  generalize a.heap.unlink a.layout (pre.getLast?.map Extent.block) e.block = heap
    at hlists' hheader hagree ⊢
  -- The extents are the same ones, with one moved from the free to those in use, so the tiling
  -- counts no byte in another way.
  have hperm : t.extents.Perm ((e :: t.live) ++ (pre ++ post)) := by
    rw [Tiling.extents, hfree]
    exact (List.perm_middle.append_left t.live).trans List.perm_middle
  have hsub : (pre ++ post).Sublist t.free := by
    rw [hfree]
    exact List.Sublist.append_left (List.sublist_cons_self _ _) _
  refine
    { sound :=
        { chunks := h.chunks, lists := hlists', clear := h.clear.sublist hsub, header := ?header,
          aligned := ?aligned, tails := h.tails, tiles := ?tiles }
      live := rfl, tails := rfl, origin := .inl ?origin, used_le := fun _ => Nat.le_refl _
      agrees := hagree.mono fun b hb => List.mem_cons_of_mem _ hb }
  case header =>
    intro f hf
    rcases List.mem_cons.1 hf with rfl | hf
    · exact hheader
    · rw [← h.header f hf]
      refine hagree.header_eq fun b hb => ?_
      obtain ⟨g, hg, rfl⟩ := List.mem_map.1 hb
      exact (h.apart_of_live_of_free hf hg).headerApart
  case aligned =>
    intro f hf
    exact h.aligned f (hperm.mem_iff.2 hf)
  case tiles =>
    exact h.tiles.perm ((hperm.map _).append_right _)
  case origin =>
    rw [hfree]
    exact List.perm_middle

/-- A block carved from fresh bytes. -/
theorem Sound.carve (h : a.Sound t) {c : Chunks} (hc : a.chunks.Carved b size c)
    (hsize : maxAlign ∣ size) :
    a.Taken t ⟨b, size⟩ { chunks := c, heap := a.heap.carve b size }
      { t with live := ⟨b, size⟩ :: t.live } := by
  have htiles := h.tiles.carved hc
  have hagree : a.heap.memory.AgreesBut (a.heap.memory.writeHeader b size) [b] :=
    .writeHeader size List.mem_cons_self
  -- The new block is a tile like any other, and tiles are apart.
  have hapart : ∀ f ∈ t.extents, ∀ d ∈ [b], f.block.HeaderApart d := by
    intro f hf
    have hall : Tiles ((⟨b, size⟩ :: t.extents).map Extent.span ++ t.tails) c := htiles
    exact List.forall_mem_singleton.2
      ((List.pairwise_cons.1 hall.pairwise_apart).1 f hf).symm.headerApart
  have hend := hc.usedAt b.chunk
  rw [if_pos rfl] at hend
  have hlt : size < wordLimit :=
    Nat.lt_of_le_of_lt (hend ▸ Nat.le_add_left size _) hc.sound.usedAt_lt
  have hchunk : b.chunk < chunkLimit := hc.sound.chunk_lt (by simp only [hend, headerSize]; omega)
  obtain ⟨more, hlayout⟩ := hc.layout
  refine
    { sound :=
        { chunks := hc.sound, lists := ?lists, clear := h.clear, header := ?header,
          aligned := ?aligned, tails := h.tails, tiles := htiles }
      live := rfl, tails := rfl, origin := .inr ⟨rfl, hc.start⟩, used_le := ?used_le
      agrees := hagree.mono (List.forall_mem_singleton.2 List.mem_cons_self) }
  case lists =>
    -- Another chunk may have been added. What the links stand for does not change when the layout
    -- grows at its end.
    have hlists := h.lists.append_layout more
    rw [layout, ← hlayout] at hlists
    exact hlists.of_header_eq fun f hf => hagree.header_eq (hapart f (Tiling.mem_of_free hf))
  case header =>
    intro f hf
    rcases List.mem_cons.1 hf with rfl | hf
    · exact Memory.header_writeHeader hlt hchunk
    · rw [← h.header f hf]
      exact hagree.header_eq (hapart f (Tiling.mem_of_live hf))
  case aligned =>
    intro f hf
    rcases List.mem_cons.1 hf with rfl | hf
    · exact ⟨hc.start ▸ h.chunks.dvd_usedAt, hsize⟩
    · exact h.aligned f hf
  case used_le =>
    intro i
    show a.chunks.usedAt i ≤ c.usedAt i
    rw [hc.usedAt]
    split
    · rename_i hi
      rw [hi, ← hc.start]
      omega
    · exact Nat.le_refl _

/-- **A request is served by an entry or by a carved block, or it changes nothing.** -/
theorem Sound.takeBlock_cases (h : a.Sound t) (s : Supply) (size : Nat) :
    (∃ err, (a.takeBlock s size).result = .error err ∧ (a.takeBlock s size).state.1 = a) ∨
      ∃ e t', (a.takeBlock s size).result = .ok e.block ∧ size ≤ e.size ∧
        a.Taken t e (a.takeBlock s size).state.1 t' := by
  unfold takeBlock
  split
  · exact .inl ⟨_, rfl, rfl⟩
  · rename_i aligned halign
    have hle := le_of_alignUp halign
    split
    · rename_i before b hfit
      obtain ⟨pre, e, post, hfree, -, hsize, rfl, rfl⟩ := h.lists.firstFit?_eq_some hfit
      exact .inr ⟨e, _, rfl, Nat.le_trans hle hsize, h.recycle hfree⟩
    · -- No entry is large enough, so it is up to the chunks.
      have hdvd := dvd_of_alignUp halign
      rcases h.chunks.carve_cases hdvd s with ⟨err, hr, hst⟩ | ⟨b, c, s', hr, hst, hc⟩
      · refine .inl ⟨err, ?_, ?_⟩
        · simp only [Outcome.result_andThen, hr]
        · simp only [Outcome.state_andThen, hr, hst]
      · simp only [Outcome.result_andThen, Outcome.state_andThen, hr, hst]
        exact .inr ⟨⟨b, aligned⟩, _, rfl, hle, h.carve hc hdvd⟩

/-! ## Giving a block back

The block is moved from those in use to the free ones and merged with its neighbours there, so the
number of extents may fall by one or two while the bytes stay covered as they were: a merged entry
covers both blocks and the header between them. -/

/-- **A block given back is placed among the entries**, and every entry keeps its mark. -/
theorem Sound.giveBlock (h : a.Sound t) {rest : List Extent} (hlive : t.live.Perm (e :: rest)) :
    let a' := (a.giveBlock e.block).state
    a'.Sound { t with live := rest, free := e.place t.free } ∧ a'.chunks = a.chunks ∧
      a.heap.memory.AgreesBut a'.heap.memory (e.block :: t.free.map Extent.block) ∧
      ∀ c ∈ e.block :: t.free.map Extent.block, a'.heap.memory.isFreed c = true := by
  have he : e ∈ t.live := hlive.mem_iff.2 List.mem_cons_self
  have hee := Tiling.mem_of_live he
  have hmem : ∀ f ∈ e :: t.free, f ∈ t.extents := List.forall_mem_cons.2
    ⟨hee, fun f hf => Tiling.mem_of_free hf⟩
  have hbeside : e.Beside t.free := fun f hf => h.apart_of_live_of_free he hf
  obtain ⟨hlists, hagree, hmarks⟩ := h.lists.insert h.total_lt (h.header e he) (h.holds hee) hbeside
    h.clear fun f hf => h.stop_lt (hmem f hf)
  have hgive : (a.giveBlock e.block).state = { a with heap := a.heap.insert a.layout e.block } := by
    rw [Arena.giveBlock, h.isFreed_of_live he]
    rfl
  rw [hgive]
  have hperm : t.extents.Perm (e :: (rest ++ t.free)) := hlive.append_right _
  refine ⟨
    { chunks := h.chunks, lists := hlists, clear := Extent.pairwise_clear_place h.clear hbeside,
      header := ?header, aligned := ?aligned, tails := h.tails, tiles := ?tiles },
    rfl, hagree, hmarks⟩
  case header =>
    intro f hf
    have hfl : f ∈ t.live := hlive.mem_iff.2 (List.mem_cons_of_mem _ hf)
    rw [← h.header f hfl]
    refine hagree.header_eq fun b hb => ?_
    rcases List.mem_cons.1 hb with rfl | hb
    · exact (h.apart_of_perm hlive (List.mem_append_left _ hf)).headerApart
    · obtain ⟨g, hg, rfl⟩ := List.mem_map.1 hb
      exact (h.apart_of_live_of_free hfl hg).headerApart
  case aligned =>
    intro f hf
    rcases List.mem_append.1 hf with hf | hf
    · exact h.aligned f (Tiling.mem_of_live (hlive.mem_iff.2 (List.mem_cons_of_mem _ hf)))
    · exact Extent.aligned_place (fun g hg => h.aligned g (hmem g hg)) f hf
  case tiles =>
    refine h.tiles.congr fun x => ?_
    -- Placing an extent keeps the count of every byte, merges included.
    have hcount := coverage_perm ((hperm.map Extent.span).append_right t.tails) x
    have hplace := Extent.coverage_place e t.free x
    simp only [Tiling.spans, Tiling.extents, List.map_append, List.map_cons, List.cons_append,
      coverage_append, coverage_cons] at hcount hplace ⊢
    omega

/-- A block that is marked free is not given back a second time. -/
theorem giveBlock_of_isFreed (h : a.heap.memory.isFreed b = true) :
    (a.giveBlock b).state = a := by
  rw [Arena.giveBlock, if_pos h]

end Arena

/-! ## Shrinking

A block that shrinks keeps its place and its header. The bytes cut off belong to nobody until the
next reset; the tiling has to name them all the same, or the carved part would have holes in it. -/

/-- A block is what is kept of it and its tail, counted byte by byte. -/
theorem Extent.coverage_tail {e : Extent} {size : Nat} (h : size ≤ e.size) (x : Address) :
    coverage (Extent.span ⟨e.block, size⟩ :: e.tail size) x = coverage [e.span] x := by
  have hkept : (Extent.span ⟨e.block, size⟩).covers x = true ↔
      x.chunk = e.block.chunk ∧ e.block.start ≤ x.offset ∧
        x.offset < e.block.start + headerSize + size := Extent.covers_span
  have hall : e.span.covers x = true ↔
      x.chunk = e.block.chunk ∧ e.block.start ≤ x.offset ∧
        x.offset < e.block.start + headerSize + e.size := Extent.covers_span
  rw [Extent.tail]
  split
  · have hlost : Span.covers ⟨e.block.headerByte (headerSize + size), e.size - size⟩ x = true ↔
        x.chunk = e.block.chunk ∧ e.block.start + headerSize + size ≤ x.offset ∧
          x.offset < e.block.start + headerSize + e.size := by
      rw [Span.covers_iff]
      simp only [Block.headerByte]
      omega
    simp only [coverage_cons, coverage_nil, hkept, hlost, hall]
    split <;> split <;> split <;> omega
  · -- Nothing is cut off, and there is no tail.
    have heq : size = e.size := by omega
    rw [heq]

namespace Arena

variable {a : Arena} {t : Tiling} {e : Extent} {s : Supply} {n size : Nat}

/-- A block that is large enough stays where it is. -/
theorem Sound.reallocate_of_le (h : a.Sound t) (he : e ∈ t.live) (halign : alignUp size = some n)
    (hle : n ≤ e.size) :
    a.reallocate s (some e.block.payload) size =
      ⟨.ok e.block.payload, (a.shrinkBlock e.block n, s), []⟩ := by
  have hsize := h.blockSize_eq (Tiling.mem_of_live he)
  simp only [reallocate, halign, Block.ofPayload_payload, hsize, if_pos hle]

/-- **A block shrunk in place** leaves a tail behind. -/
theorem Sound.shrinkBlock (h : a.Sound t) {rest : List Extent} (hlive : t.live.Perm (e :: rest))
    (hsize : size ≤ e.size) (hdvd : maxAlign ∣ size) :
    (a.shrinkBlock e.block size).Sound
      { t with live := ⟨e.block, size⟩ :: rest, tails := e.tail size ++ t.tails } := by
  have he : e ∈ t.live := hlive.mem_iff.2 List.mem_cons_self
  have hrest : ∀ f ∈ rest, f ∈ t.live := fun f hf => hlive.mem_iff.2 (List.mem_cons_of_mem _ hf)
  have hperm : t.extents.Perm (e :: (rest ++ t.free)) := hlive.append_right _
  have hagree : a.heap.memory.AgreesBut (a.heap.memory.setBlockSize e.block size) [e.block] :=
    .setBlockSize size List.mem_cons_self
  have hapart : ∀ f ∈ rest ++ t.free, ∀ b ∈ [e.block], f.block.HeaderApart b := fun f hf =>
    List.forall_mem_singleton.2 (h.apart_of_perm hlive hf).headerApart
  have hlt : size < wordLimit := Nat.lt_of_le_of_lt hsize (h.size_lt (Tiling.mem_of_live he))
  refine
    { chunks := h.chunks, lists := ?lists, clear := h.clear, header := ?header,
      aligned := ?aligned, tails := ?tails, tiles := ?tiles }
  case lists =>
    exact h.lists.of_header_eq fun f hf =>
      hagree.header_eq (hapart f (List.mem_append_right _ hf))
  case header =>
    intro f hf
    rcases List.mem_cons.1 hf with rfl | hf
    · exact (Memory.header_setBlockSize hlt).trans (by rw [h.header e he])
    · rw [← h.header f (hrest f hf)]
      exact hagree.header_eq (hapart f (List.mem_append_left _ hf))
  case aligned =>
    intro f hf
    rcases List.mem_cons.1 hf with rfl | hf
    · exact ⟨(h.aligned e (Tiling.mem_of_live he)).1, hdvd⟩
    · exact h.aligned f (hperm.mem_iff.2 (List.mem_cons_of_mem _ hf))
  case tails =>
    intro s hs
    rcases List.mem_append.1 hs with hs | hs
    · -- The tail that is new starts behind the payload that is left, and is not empty.
      obtain ⟨hstart, hes⟩ := h.aligned e (Tiling.mem_of_live he)
      rw [Extent.tail] at hs
      split at hs
      · rename_i hlt
        rw [List.mem_singleton.1 hs]
        exact ⟨Nat.sub_pos_of_lt hlt, Nat.dvd_add hstart (Nat.dvd_add ⟨2, rfl⟩ hdvd),
          Nat.dvd_sub hes hdvd⟩
      · cases hs
    · exact h.tails s hs
  case tiles =>
    refine h.tiles.congr fun x => ?_
    have hcount := coverage_perm ((hperm.map Extent.span).append_right t.tails) x
    have htail := Extent.coverage_tail hsize x
    simp only [Tiling.spans, Tiling.extents, List.map_append, List.map_cons, List.cons_append,
      coverage_append, coverage_cons, coverage_nil] at hcount htail ⊢
    omega

end Arena

end ArenaAlloc

import ArenaAlloc.Proofs.Session
import ArenaAlloc.Proofs.Soundness

/-!
# What every session keeps

`Session.Invariant` ties the ledger to a tiling of the arena, and each of the arena's steps keeps it
together with the entry that the ledger makes for it: `Invariant.handOut`, `takeBack`, `shrink` and
`store`. A call is a few of these in a row.

The tiling of a sound arena says what its bytes are now. The ledger remembers more, and the clauses
that go beyond the tiling are about that:

* `issued`, `apart` and `carved` are about every block handed out since the last reset, also those
  that were absorbed since. Their headers are apart from one another, and all of them lie in the
  carved part. This is what makes it meaningful to free such a block again.
* `retired` are the blocks given back of which nothing was handed out again. Each lies within an
  entry, and nobody stored anything into its header.
* `stored`: a stored byte still has the value that was stored, since it lies in no header that the
  arena writes to.
* `marked`: a block that is not in use keeps its mark until somebody stores a byte there.

The last one is the delicate one. An absorbed block has no header that the arena knows of, and its
mark survives because nothing the arena does touches that byte; a caller to whom the bytes were
handed out again is free to store into it, and then the mark is whatever was stored (`isFreed_iff`).
-/

namespace ArenaAlloc

namespace Tiling

/-- The block of `e` is given back. -/
def takeBack (t : Tiling) (e : Extent) : Tiling :=
  { t with live := t.live.erase e, free := e.place t.free }

/-- The block of `e` shrinks to `size` bytes. -/
def shrink (t : Tiling) (e : Extent) (size : Nat) : Tiling :=
  { t with live := ⟨e.block, size⟩ :: t.live.erase e, tails := e.tail size ++ t.tails }

end Tiling

namespace Session

/-- The ledger agrees with the arena, whose bytes are divided up as `t` says. -/
structure Invariant (s : Session) (t : Tiling) : Prop where
  sound : s.arena.Sound t
  live : (t.live.map Extent.block).Perm s.ledger.live
  tails : t.tails = s.ledger.tails
  issued : ∀ e ∈ t.extents, e.block ∈ s.ledger.issued
  retired : ∀ r ∈ s.ledger.retired, r.block ∈ s.ledger.issued ∧ (∃ f ∈ t.free, r.Within f) ∧
    ∀ x : Address, x.InHeader r.block → s.ledger.stored x = none
  apart : ∀ b ∈ s.ledger.issued, ∀ c ∈ s.ledger.issued, b = c ∨ b.HeaderApart c
  carved : ∀ b ∈ s.ledger.issued, b.start + headerSize ≤ s.arena.chunks.usedAt b.chunk
  stored : ∀ x v, s.ledger.stored x = some v → s.arena.heap.memory.byte x = v ∧
    x.offset < s.arena.chunks.usedAt x.chunk ∧ ∀ e ∈ t.extents, ¬ x.InHeader e.block
  marked : ∀ b ∈ s.ledger.issued, b ∉ s.ledger.live →
    s.ledger.stored (b.headerByte 20) = none → s.arena.heap.memory.isFreed b = true

/-- There is a tiling that the session agrees with. -/
def Valid (s : Session) : Prop := ∃ t, s.Invariant t

variable {a a' : Arena} {l : Ledger} {t t' : Tiling} {e : Extent} {s : Session}

namespace Invariant

/-! ## What the ledger shows

A session shows blocks, free list and spans without mentioning a tiling. Here they are identified
with those of the tiling, up to order, so that theorems can be stated about a session alone. -/

/-- What the ledger has as in use is a live extent of the tiling. -/
theorem exists_live (h : s.Invariant t) {b : Block} (hb : b ∈ s.ledger.live) :
    ∃ e ∈ t.live, e.block = b :=
  List.mem_map.1 (h.live.mem_iff.2 hb)

theorem freeList_eq (h : s.Invariant t) : s.arena.freeList = t.free.map Extent.block :=
  h.sound.freeList_eq

theorem extent_eq (h : s.Invariant t) (he : e ∈ t.extents) : s.extent e.block = e :=
  h.sound.extent_eq he

/-- The blocks that a session shows are those of its tiling. -/
theorem perm_blocks (h : s.Invariant t) : (t.extents.map Extent.block).Perm s.blocks := by
  rw [blocks, h.freeList_eq, Tiling.extents, List.map_append]
  exact h.live.append_right _

theorem exists_block (h : s.Invariant t) {b : Block} (hb : b ∈ s.blocks) :
    ∃ e ∈ t.extents, e.block = b :=
  List.mem_map.1 (h.perm_blocks.mem_iff.2 hb)

/-- The spans that a session shows are those of its tiling. -/
theorem perm_spans (h : s.Invariant t) : t.spans.Perm s.spans := by
  have hspans : t.extents.map Extent.span =
      (t.extents.map Extent.block).map fun b => (s.extent b).span := by
    rw [List.map_map]
    refine List.map_congr_left fun e he => ?_
    show e.span = (s.extent e.block).span
    rw [h.extent_eq he]
  rw [Tiling.spans, spans, hspans, h.tails]
  exact (h.perm_blocks.map _).append_right _

end Invariant

/-! ## One step of the arena at a time

Each of the four theorems takes the invariant to the next tiling and to the ledger with one more
entry. They go clause by clause. The stored bytes and the marks are about bytes, and there the
argument is always that the step stores into headers of the tiling only; the other clauses are about
lists. -/

namespace Invariant

/-- Headers of the tiling are headers of blocks that were handed out. -/
theorem issued_of_mem (h : s.Invariant t) {b : Block} (hb : b ∈ t.extents.map Extent.block) :
    b ∈ s.ledger.issued := by
  obtain ⟨e, he, rfl⟩ := List.mem_map.1 hb
  exact h.issued e he

/-- Stores into headers of the tiling leave what was stored. -/
theorem byte_of_stored (h : s.Invariant t) {m : Memory} {bs : List Block}
    (hagree : s.arena.heap.memory.AgreesBut m bs) (hbs : ∀ b ∈ bs, b ∈ t.extents.map Extent.block)
    {x : Address} {v : UInt8} (hx : s.ledger.stored x = some v) : m.byte x = v := by
  obtain ⟨hbyte, -, hout⟩ := h.stored x v hx
  refine (hagree x fun b hb => ?_).trans hbyte
  obtain ⟨e, he, rfl⟩ := List.mem_map.1 (hbs b hb)
  exact hout e he

/-- Stores into headers of the tiling leave the mark of every other block that was handed out. -/
theorem isFreed_of_issued (h : s.Invariant t) {m : Memory} {bs : List Block}
    (hagree : s.arena.heap.memory.AgreesBut m bs) (hbs : ∀ b ∈ bs, b ∈ t.extents.map Extent.block)
    {b : Block} (hb : b ∈ s.ledger.issued) (hnot : b ∉ bs) :
    m.isFreed b = s.arena.heap.memory.isFreed b := by
  refine congrArg Header.freed (hagree.header_eq fun c hc => ?_)
  exact (h.apart b hb c (h.issued_of_mem (hbs c hc))).resolve_left fun heq => hnot (heq ▸ hc)

/-- The header of a block handed out is that of an earlier one or apart from it. A recycled block is
an entry, so it was handed out before; a carved one starts where nothing was carved. -/
theorem headerApart_of_taken (h : Invariant ⟨a, l⟩ t) (ht : a.Taken t e a' t') {c : Block}
    (hc : c ∈ l.issued) : e.block = c ∨ e.block.HeaderApart c := by
  rcases ht.origin with hperm | ⟨-, hstart⟩
  · have he : e ∈ t.free := hperm.mem_iff.2 List.mem_cons_self
    exact h.apart e.block (h.issued e (Tiling.mem_of_free he)) c hc
  · have hcarved : c.start + headerSize ≤ a.chunks.usedAt c.chunk := h.carved c hc
    refine .inr (Block.headerApart_iff.2 ?_)
    by_cases hchunk : e.block.chunk = c.chunk
    · rw [hstart, hchunk]
      exact .inr (.inr hcarved)
    · exact .inl hchunk

/-- Handing a block out leaves the mark of every other one. -/
theorem isFreed_of_taken (h : Invariant ⟨a, l⟩ t) (ht : a.Taken t e a' t') {b : Block}
    (hb : b ∈ l.issued) (hne : b ≠ e.block) (hmark : a.heap.memory.isFreed b = true) :
    a'.heap.memory.isFreed b = true := by
  by_cases hfree : b ∈ t.free.map Extent.block
  · -- The list is relinked through the headers of entries, but those are marked anyway.
    obtain ⟨f, hf, rfl⟩ := List.mem_map.1 hfree
    rcases ht.eq_or_mem_free hf with rfl | hf
    · exact absurd rfl hne
    · exact ht.sound.lists.segment.isFreed_of_mem hf
  · have hheader : a'.heap.memory.header b = a.heap.memory.header b := by
      refine ht.agrees.header_eq fun c hc => ?_
      rcases List.mem_cons.1 hc with rfl | hc
      · exact ((h.headerApart_of_taken ht hb).resolve_left (Ne.symm hne)).symm
      · obtain ⟨f, hf, rfl⟩ := List.mem_map.1 hc
        have hfi : f.block ∈ l.issued := h.issued f (Tiling.mem_of_free hf)
        exact (h.apart b hb f.block hfi).resolve_left fun heq =>
          hfree (heq ▸ List.mem_map_of_mem hf)
    exact (congrArg Header.freed hheader).trans hmark

/-- **Handing a block out** keeps the invariant, if the ledger enters it. -/
theorem handOut (h : Invariant ⟨a, l⟩ t) (ht : a.Taken t e a' t') :
    Invariant ⟨a', l.handOut e⟩ t' := by
  have hissued : ∀ f ∈ t.extents, f.block ∈ l.issued := h.issued
  refine
    { sound := ht.sound, live := ?live, tails := ?tails, issued := ?issued, retired := ?retired,
      apart := ?apart, carved := ?carved, stored := ?stored, marked := ?marked }
  case live =>
    rw [ht.live]
    exact h.live.cons e.block
  case tails =>
    rw [ht.tails]
    exact h.tails
  case issued =>
    intro f hf
    rcases ht.mem_extents hf with rfl | hf
    · exact List.mem_cons_self
    · exact List.mem_cons_of_mem _ (hissued f hf)
  case retired =>
    intro r hr
    obtain ⟨hr, hclear⟩ := List.mem_filter.1 hr
    -- What overlaps the new block is no longer retired, and the ledger has dropped it.
    obtain ⟨hri, ⟨f, hf, hrf⟩, hrs⟩ := h.retired r hr
    refine ⟨List.mem_cons_of_mem _ hri, ?_, hrs⟩
    rcases ht.eq_or_mem_free hf with rfl | hf'
    · -- A retired block inside the entry handed out would overlap it.
      rw [hrf.overlaps] at hclear
      cases hclear
    · exact ⟨f, hf', hrf⟩
  case apart =>
    intro b hb c hc
    rcases List.mem_cons.1 hb with rfl | hb
    · rcases List.mem_cons.1 hc with rfl | hc
      · exact .inl rfl
      · exact h.headerApart_of_taken ht hc
    · rcases List.mem_cons.1 hc with rfl | hc
      · exact (h.headerApart_of_taken ht hb).imp Eq.symm Block.HeaderApart.symm
      · exact h.apart b hb c hc
  case carved =>
    intro b hb
    rcases List.mem_cons.1 hb with rfl | hb
    · exact ht.sound.header_le (Tiling.mem_of_live ht.mem_live)
    · exact Nat.le_trans (h.carved b hb) (ht.used_le b.chunk)
  case stored =>
    intro x v hx
    obtain ⟨hbyte, hused, hout⟩ := h.stored x v hx
    refine ⟨(ht.byte_of_not_inHeader hused hout).trans hbyte,
      Nat.lt_of_lt_of_le hused (ht.used_le _), fun f hf => ?_⟩
    rcases ht.mem_extents hf with rfl | hf
    · exact ht.not_inHeader hused hout
    · exact hout f hf
  case marked =>
    intro b hb hlive hnone
    -- The block itself is in use now, so the clause is about the others.
    have hne : b ≠ e.block := fun heq => hlive (heq ▸ List.mem_cons_self)
    replace hlive : b ∉ l.live := fun hmem => hlive (List.mem_cons_of_mem _ hmem)
    have hbi : b ∈ l.issued := (List.mem_cons.1 hb).resolve_left hne
    exact h.isFreed_of_taken ht hbi hne (h.marked b hbi hlive hnone)

/-- **Giving a block back** keeps the invariant, if the ledger enters it. -/
theorem takeBack (h : Invariant ⟨a, l⟩ t) (he : e ∈ t.live) :
    Invariant ⟨(a.giveBlock e.block).state, l.takeBack e⟩ (t.takeBack e) := by
  have hperm : t.live.Perm (e :: t.live.erase e) := List.perm_cons_erase he
  have hee : e ∈ t.extents := Tiling.mem_of_live he
  have hissued : ∀ f ∈ t.extents, f.block ∈ l.issued := h.issued
  obtain ⟨hsound, hchunks, hagree, hmarks⟩ := h.sound.giveBlock hperm
  have hbs := Tiling.mem_blocks hee
  -- Merging makes no headers: each extent afterwards starts where one started before.
  have hstarts : ∀ f ∈ t.live.erase e ++ e.place t.free, ∃ g ∈ t.extents, g.block = f.block := by
    intro f hf
    rcases List.mem_append.1 hf with hf | hf
    · exact ⟨f, Tiling.mem_of_live (List.mem_of_mem_erase hf), rfl⟩
    · rcases List.mem_cons.1 (Extent.block_mem_place hf) with heq | hmem
      · exact ⟨e, hee, heq.symm⟩
      · obtain ⟨g, hg, hgf⟩ := List.mem_map.1 hmem
        exact ⟨g, Tiling.mem_of_free hg, hgf⟩
  refine
    { sound := hsound, live := ?live, tails := h.tails, issued := ?issued, retired := ?retired,
      apart := h.apart, carved := ?carved, stored := ?stored, marked := ?marked }
  case live =>
    have hblocks := (hperm.map Extent.block).symm.trans h.live
    have herase := hblocks.erase e.block
    rwa [List.map_cons, List.erase_cons_head] at herase
  case issued =>
    intro f hf
    obtain ⟨g, hg, hgf⟩ := hstarts f hf
    exact hgf ▸ hissued g hg
  case retired =>
    intro r hr
    rcases List.mem_cons.1 hr with rfl | hr
    · -- Nobody stored into the header of a block in use, so the new retired one starts out clean.
      refine ⟨hissued r hee, Extent.exists_within_place List.mem_cons_self, fun x hx => ?_⟩
      cases hx' : l.stored x with
      | none => exact hx'
      | some v => exact absurd hx ((h.stored x v hx').2.2 r hee)
    · obtain ⟨hri, ⟨f, hf, hrf⟩, hrs⟩ := h.retired r hr
      -- The entry may have been absorbed, together with what was within it.
      obtain ⟨g, hg, hfg⟩ := Extent.exists_within_place (List.mem_cons_of_mem e hf)
      exact ⟨hri, ⟨g, hg, hrf.trans hfg⟩, hrs⟩
  case carved =>
    intro b hb
    rw [hchunks]
    exact h.carved b hb
  case stored =>
    intro x v hx
    obtain ⟨-, hused, hout⟩ := h.stored x v hx
    rw [hchunks]
    refine ⟨h.byte_of_stored hagree hbs hx, hused, fun f hf => ?_⟩
    obtain ⟨g, hg, hgf⟩ := hstarts f hf
    exact hgf ▸ hout g hg
  case marked =>
    intro b hb hlive hnone
    by_cases hmem : b ∈ e.block :: t.free.map Extent.block
    · exact hmarks b hmem
    · have hne : b ≠ e.block := fun heq => hmem (heq ▸ List.mem_cons_self)
      have hlive' : b ∉ l.live := fun hb' => hlive ((List.mem_erase_of_ne hne).2 hb')
      exact (h.isFreed_of_issued hagree hbs hb hmem).trans (h.marked b hb hlive' hnone)

/-- **Shrinking a block** keeps the invariant, if the ledger enters the tail. -/
theorem shrink (h : Invariant ⟨a, l⟩ t) (he : e ∈ t.live) {size : Nat} (hsize : size ≤ e.size)
    (hdvd : maxAlign ∣ size) :
    Invariant ⟨a.shrinkBlock e.block size, l.shrink e size⟩ (t.shrink e size) := by
  have hperm : t.live.Perm (e :: t.live.erase e) := List.perm_cons_erase he
  have hee : e ∈ t.extents := Tiling.mem_of_live he
  have hagree : a.heap.memory.AgreesBut (a.heap.memory.setBlockSize e.block size) [e.block] :=
    .setBlockSize size List.mem_cons_self
  have hbs : ∀ b ∈ [e.block], b ∈ t.extents.map Extent.block :=
    List.forall_mem_singleton.2 (List.mem_map_of_mem hee)
  have hstarts : ∀ f ∈ (⟨e.block, size⟩ :: t.live.erase e) ++ t.free,
      ∃ g ∈ t.extents, g.block = f.block := by
    intro f hf
    rcases List.mem_append.1 hf with hf | hf
    · rcases List.mem_cons.1 hf with rfl | hf
      · exact ⟨e, hee, rfl⟩
      · exact ⟨f, Tiling.mem_of_live (List.mem_of_mem_erase hf), rfl⟩
    · exact ⟨f, Tiling.mem_of_free hf, rfl⟩
  refine
    { sound := h.sound.shrinkBlock hperm hsize hdvd, live := ?live, tails := ?tails,
      issued := ?issued, retired := h.retired, apart := h.apart, carved := h.carved,
      stored := ?stored, marked := ?marked }
  case live =>
    exact (hperm.map Extent.block).symm.trans h.live
  case tails =>
    exact congrArg (e.tail size ++ ·) h.tails
  case issued =>
    intro f hf
    obtain ⟨g, hg, hgf⟩ := hstarts f hf
    have hgi : g.block ∈ l.issued := h.issued g hg
    exact hgf ▸ hgi
  case stored =>
    intro x v hx
    obtain ⟨-, hused, hout⟩ := h.stored x v hx
    refine ⟨h.byte_of_stored hagree hbs hx, hused, fun f hf => ?_⟩
    obtain ⟨g, hg, hgf⟩ := hstarts f hf
    exact hgf ▸ hout g hg
  case marked =>
    intro b hb hlive hnone
    have helive : e.block ∈ l.live := h.live.mem_iff.1 (List.mem_map_of_mem he)
    -- Only the header of a block in use is stored into.
    have hne : b ∉ [e.block] := fun hmem => hlive (List.mem_singleton.1 hmem ▸ helive)
    exact (h.isFreed_of_issued hagree hbs hb hne).trans (h.marked b hb hlive hnone)

/-- **Storing into the payload of a block in use** keeps the invariant, if the ledger enters what is
stored. -/
theorem store (h : Invariant ⟨a, l⟩ t) (he : e ∈ t.live) {p : Address} {n : Nat}
    {f : Nat → UInt8} (hp : ∀ x : Address, x.InRange p n → x.InRange e.block.payload e.size) :
    Invariant ⟨a.write p n f, l.store p n f⟩ t := by
  have hee : e ∈ t.extents := Tiling.mem_of_live he
  refine
    { sound := h.sound.store he hp, live := h.live, tails := h.tails, issued := h.issued,
      retired := ?retired, apart := h.apart, carved := h.carved, stored := ?stored,
      marked := ?marked }
  case retired =>
    intro r hr
    obtain ⟨hri, ⟨g, hg, hrg⟩, hrs⟩ := h.retired r hr
    refine ⟨hri, ⟨g, hg, hrg⟩, fun x hx => ?_⟩
    have hout : ¬ x.InRange p n := by
      intro hin
      have hpay := hp x hin
      have hapart := h.sound.apart_of_live_of_free he hg
      have hhead := Address.inHeader_iff.1 hx
      have hrs := r.start_lt_stop
      -- A retired block lies within an entry, and an entry shares no byte with a payload in use.
      obtain ⟨hrc, hrl, hru⟩ := hrg
      simp only [Address.InRange, Block.payload, Extent.Apart, Extent.Before, Extent.stop] at *
      omega
    show (if x.InRange p n then _ else l.stored x) = none
    rw [if_neg hout]
    exact hrs x hx
  case stored =>
    intro x v hx
    change (if x.InRange p n then _ else l.stored x) = some v at hx
    show (a.heap.memory.write p n f).byte x = v ∧ _
    split at hx
    · -- The byte is one of those stored just now.
      rename_i hin
      refine ⟨(Memory.byte_write_of_inRange hin).trans (Option.some.inj hx), ?_, fun g hg => ?_⟩
      · have hpay := hp x hin
        have hstop := h.sound.stop_le hee
        simp only [Address.InRange, Block.payload, Extent.stop] at hpay hstop
        show x.offset < a.chunks.usedAt x.chunk
        rw [hpay.1]
        exact Nat.lt_of_lt_of_le hpay.2.2 hstop
      · exact h.sound.not_inHeader_of_payload hee hg (hp x hin)
    · rename_i hout
      obtain ⟨hbyte, hused, hx'⟩ := h.stored x v hx
      exact ⟨(Memory.byte_write_of_not_inRange hout).trans hbyte, hused, hx'⟩
  case marked =>
    intro b hb hlive hnone
    change (if (b.headerByte 20).InRange p n then _ else l.stored (b.headerByte 20)) = none at hnone
    split at hnone
    · -- A byte was stored where the mark is, and then the clause says nothing.
      cases hnone
    · rename_i hout
      exact (Memory.isFreed_write hout).trans (h.marked b hb hlive hnone)

/-- **A block that is not in use is marked free exactly if its mark stands.** -/
theorem isFreed_iff (h : s.Invariant t) {b : Block} (hb : b ∈ s.ledger.issued)
    (hlive : b ∉ s.ledger.live) : s.arena.heap.memory.isFreed b = true ↔ s.MarkStands b := by
  cases hstored : s.ledger.stored (b.headerByte 20) with
  | none =>
    refine iff_of_true (h.marked b hb hlive hstored) fun v hv => ?_
    rw [hstored] at hv
    cases hv
  | some v =>
    -- A byte was stored where the mark is, and it is still there: its lowest bit decides.
    have hbyte := (h.stored _ v hstored).1
    simp only [Memory.isFreed, hbyte, MarkStands, hstored, beq_iff_eq]
    constructor
    · intro hodd w hw
      exact Option.some.inj hw ▸ hodd
    · intro hodd
      exact hodd v rfl

/-- A block that may be freed again is marked, so that the arena ignores it. -/
theorem isFreed_of_tolerates (h : s.Invariant t) {b : Block} (hc : s.Tolerates (.free (some b)))
    (hlive : b ∉ s.ledger.live) : s.arena.heap.memory.isFreed b = true := by
  obtain ⟨hissued, hstands⟩ := (hc b rfl).resolve_left hlive
  exact (h.isFreed_iff hissued hlive).2 hstands

end Invariant

end Session

end ArenaAlloc

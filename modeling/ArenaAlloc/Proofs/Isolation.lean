import ArenaAlloc.Proofs.Effect

/-!
# Isolation

The headers lie among the payloads, and the free list runs through them. Still the arena and its
callers keep out of each other's way: no call changes a payload in use but the caller's own store
(`Effect.byte_payload`), and no store of a caller changes a header (`byte_header_write`). So what is
read from a payload is what was last stored there.

The first half is by cases on `Effect`, the list of what a call can have done. In each case the
stores are named: into headers of blocks of the tiling (`AgreesBut`), or into the payload of one
block, the one that was just taken. A payload in use is outside all headers, and outside every other
payload.

The second half needs the contract, and is the only place where the contract is about bytes: a
caller stores inside a payload that it holds. Headers of blocks in use and of entries are outside
payloads in use. A header that a merge has swallowed is not covered, and cannot be, since it may lie
inside a payload in use.
-/

namespace ArenaAlloc

/-- The bytes that a call stores for its caller. -/
def Call.Writes : Call → Address → Prop
  | .write b offset n _, x => x.InRange (b.payload.plus offset) n
  | _, _ => False

namespace Arena

variable {a : Arena} {t : Tiling} {e f : Extent}

/-- A byte of one payload is no byte of another. -/
theorem not_inRange_of_apart (h : e.Apart f) {x : Address}
    (hx : x.InRange f.block.payload f.size) : ¬ x.InRange e.block.payload e.size := by
  intro hxe
  simp only [Extent.Apart, Extent.Before, Extent.stop, Address.InRange, Block.payload] at *
  omega

/-- Taking a block back stores into headers only. -/
theorem Sound.byte_payload_giveBlock (h : a.Sound t) (he : e ∈ t.live) (hf : f ∈ t.live)
    {x : Address} (hx : x.InRange f.block.payload f.size) :
    (a.giveBlock e.block).state.heap.memory.byte x = a.heap.memory.byte x := by
  obtain ⟨-, -, hagree, -⟩ := h.giveBlock (List.perm_cons_erase he)
  exact h.byte_payload (Tiling.mem_of_live hf) hagree (Tiling.mem_blocks (Tiling.mem_of_live he)) hx

/-- A store into the block that was just taken spares the payloads that were in use before. -/
theorem Taken.byte_payload_write {a' : Arena} {t' : Tiling} (h : a.Taken t e a' t')
    (hf : f ∈ t.live) {n : Nat} (hn : n ≤ e.size) (g : Nat → UInt8) {x : Address}
    (hx : x.InRange f.block.payload f.size) :
    (a'.write e.block.payload n g).heap.memory.byte x = a.heap.memory.byte x := by
  have hout : ¬ x.InRange e.block.payload n := fun hin =>
    not_inRange_of_apart (h.apart hf) hx (hin.mono hn)
  exact (Memory.byte_write_of_not_inRange hout).trans (h.byte_payload hf hx)

end Arena

namespace Session

variable {s s' : Session} {t : Tiling} {c : Call} {b d : Block} {f : Extent} {x : Address}

/-- **No effect changes a payload in use**, except where the caller stores. -/
theorem Effect.byte_payload (h : s.Invariant t) (he : Effect s t c s') (hf : f ∈ t.live)
    (hx : x.InRange f.block.payload f.size) (hw : ¬ c.Writes x) :
    s'.arena.heap.memory.byte x = s.arena.heap.memory.byte x := by
  -- One case for each thing that a call can do. All of them store into headers, except for
  -- `zeroed`, `moved` and `written`.
  cases he with
  | refused => rfl
  | handedOut taken => exact taken.byte_payload hf hx
  | zeroed taken => exact taken.byte_payload_write hf (Nat.le_refl _) _ hx
  | @shrunk _ e size mem le dvd =>
    have hagree : s.arena.heap.memory.AgreesBut (s.arena.heap.memory.setBlockSize e.block size)
        [e.block] := .setBlockSize size List.mem_cons_self
    have hmem : e.block ∈ t.extents.map Extent.block := List.mem_map_of_mem (Tiling.mem_of_live mem)
    exact h.sound.byte_payload (Tiling.mem_of_live hf) hagree (List.forall_mem_singleton.2 hmem) hx
  | @moved _ old e a' t' g mem taken le copied =>
    -- Three steps: take the new block, copy into it, give the old one back. Read from the last to
    -- the first, since each is framed in the state before it.
    have hstore := taken.sound.store (p := e.block.payload) (n := old.size) (g := g) taken.mem_live
      fun y hy => hy.mono le
    have hgive := hstore.byte_payload_giveBlock (taken.mem_live_of_mem mem)
      (taken.mem_live_of_mem hf) hx
    dsimp only
    rw [hgive]
    exact taken.byte_payload_write hf le g hx
  | takenBack mem => exact h.sound.byte_payload_giveBlock mem hf hx
  | written mem le => exact Memory.byte_write_of_not_inRange hw
  | reset => rfl

/-- **A caller's store changes no header**, of a block in use or of an entry. -/
theorem byte_header_write (h : s.Invariant t) {offset n : Nat} {g : Nat → UInt8}
    (hc : s.Respects (.write b offset n g)) (hd : d ∈ s.blocks) (hx : x.InHeader d) :
    (s.write b offset n g).arena.heap.memory.byte x = s.arena.heap.memory.byte x := by
  obtain ⟨hlive, hn⟩ := hc
  obtain ⟨e, he, rfl⟩ := h.exists_live hlive
  obtain ⟨k, hk, rfl⟩ := h.exists_block hd
  rw [h.sound.blockSize_eq (Tiling.mem_of_live he)] at hn
  refine Memory.byte_write_of_not_inRange fun hin => ?_
  have hpay := range_of_written hn x hin
  exact h.sound.not_inHeader_of_payload (Tiling.mem_of_live he) hk hpay hx

/-- **Callers and arena keep out of each other's bytes.** A call leaves alone the payload of every
block that is in use before and after it, except for the bytes that the caller stores; a caller's
store leaves alone the headers of the blocks in use and of the entries; and a payload in use holds
what the caller, a zero fill or a copy last stored in it. -/
theorem payloads_and_headers_isolated (h : Reachable Respects s) :
    (∀ c, s.Respects c → ∀ b ∈ s.ledger.live, b ∈ (s.step c).ledger.live → ∀ x : Address,
      x.InRange b.payload (s.arena.heap.memory.blockSize b) → ¬ c.Writes x →
        (s.step c).arena.heap.memory.byte x = s.arena.heap.memory.byte x) ∧
    (∀ b offset n g, s.Respects (.write b offset n g) → ∀ d ∈ s.blocks, ∀ x : Address,
      x.InHeader d → (s.step (.write b offset n g)).arena.heap.memory.byte x =
        s.arena.heap.memory.byte x) ∧
    ∀ b ∈ s.ledger.live, ∀ x : Address,
      x.InRange b.payload (s.arena.heap.memory.blockSize b) → ∀ v, s.ledger.stored x = some v →
        s.arena.heap.memory.byte x = v := by
  obtain ⟨t, ht⟩ := h.valid
  refine ⟨?_, ?_, ?_⟩
  · intro c hc b hb _ x hx hw
    obtain ⟨e, he, rfl⟩ := ht.exists_live hb
    rw [ht.sound.blockSize_eq (Tiling.mem_of_live he)] at hx
    exact (effect_step ht (ht.tolerates hc)).byte_payload ht he hx hw
  · intro b offset n g hc d hd x hx
    exact byte_header_write ht hc hd hx
  · intro b _ x _ v hv
    exact (ht.stored x v hv).1

/-- What was stored in one block is read there, before and after its neighbour is freed. -/
theorem payloads_and_headers_isolated_of_run :
    let s := (ofLength 256).run [.allocate .unlimited 16, .allocate .unlimited 16,
      .write ⟨0, 0⟩ 0 16 fun _ => 7]
    ∀ x : Address, x.InRange (Block.mk 0 0).payload 16 →
      s.arena.heap.memory.byte x = 7 ∧
        (s.step (.free (some ⟨0, 48⟩))).arena.heap.memory.byte x = 7 := by
  intro s x hx
  obtain ⟨hcalls, -, hread⟩ := payloads_and_headers_isolated (s := s)
    ((Reachable.ofLength Respects (by decide) (by decide) (by decide)).run (by decide +kernel))
  have hlive : ⟨0, 0⟩ ∈ s.ledger.live := by decide +kernel
  have hsize : s.arena.heap.memory.blockSize ⟨0, 0⟩ = 16 := by decide +kernel
  have hseven := hread ⟨0, 0⟩ hlive x (hsize.symm ▸ hx) 7 (if_pos hx)
  refine ⟨hseven, ?_⟩
  rw [hcalls (.free (some ⟨0, 48⟩)) (by decide +kernel) ⟨0, 0⟩ hlive (by decide +kernel) x
    (hsize.symm ▸ hx) not_false]
  exact hseven

end Session

end ArenaAlloc

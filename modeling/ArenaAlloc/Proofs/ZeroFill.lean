import ArenaAlloc.Proofs.Isolation
import ArenaAlloc.Proofs.Placement

/-!
# Zero fills

An allocation of zeros takes the same block as a plain one of `count * size` bytes and stores a zero
in every byte of it. Blocks are handed out whole, so that may be far more than was asked for, and it
may hold what its last owner left there, or headers that were merged away. The fill reaches as far
as the size that the header records, which is as far as the extent of the block: it clears all of
that and meets no other header or payload (`zero_fill_exact`).

`ZeroFills` compares two outcomes in the same state, that of a plain request for as many bytes and
that of the request for zeros. Everything that is not a byte of the payload is equal, so whatever is
known of plain requests, where the block comes from, what is refused, what becomes of the free list,
is known of requests for zeros and is not said again.

How far the fill must reach is a question of its own. The caller asked for `count * size` bytes and
got a block that may be longer; clearing only what was asked for would leave the rest as the last
owner left it. `zero` is about the recorded size, and that no header is met on the way is `headers`.
-/

namespace ArenaAlloc

namespace Arena

variable {a : Arena} {t : Tiling} {e f : Extent} {p : Address} {n : Nat} {g : Nat → UInt8}

/-- A store into the payload of a block in use leaves every header. -/
theorem Sound.header_write (h : a.Sound t) (he : e ∈ t.live)
    (hp : ∀ x : Address, x.InRange p n → x.InRange e.block.payload e.size) (hf : f ∈ t.extents) :
    (a.write p n g).heap.memory.header f.block = a.heap.memory.header f.block := by
  refine Memory.header_congr fun x hx => Memory.byte_write_of_not_inRange fun hin => ?_
  exact h.not_inHeader_of_payload (Tiling.mem_of_live he) hf (hp x hin) hx

/-- A store into the payload of a block in use leaves the free list. -/
theorem Sound.freeList_write (h : a.Sound t) (he : e ∈ t.live)
    (hp : ∀ x : Address, x.InRange p n → x.InRange e.block.payload e.size) :
    (a.write p n g).freeList = a.freeList := by
  rw [h.freeList_eq, (h.store he hp).freeList_eq]

/-- The product is checked before anything is taken. -/
theorem zeroAllocate_of_overflow {s : Supply} {count size : Nat} (h : wordLimit ≤ count * size) :
    (a.zeroAllocate s count size).result = .error (.sizeOverflow count size) ∧
      (a.zeroAllocate s count size).state = (a, s) := by
  have hmul : checkedMul count size = none := if_neg (Nat.not_lt.2 h)
  simp only [zeroAllocate, hmul, and_self]

/-- The answer is that of a plain request for so many bytes. -/
theorem result_zeroAllocate {s : Supply} {count size : Nat} (h : checkedMul count size = some n) :
    (a.zeroAllocate s count size).result = (a.allocate s n).result := by
  simp only [zeroAllocate, allocate, h, Outcome.result_andThen, Outcome.result_map]
  cases (a.takeBlock s n).result <;> rfl

end Arena

namespace Session

/-- What a session's arena made of a plain request, `plain`, and of one for zeros, `zeros`, differs
by zeros in the payload that both answer with. -/
structure ZeroFills (s : Session)
    (plain zeros : Outcome (Arena × Supply) (Except AllocError Address)) : Prop where
  result : zeros.result = plain.result
  supply : zeros.state.2 = plain.state.2
  chunks : zeros.state.1.chunks = plain.state.1.chunks
  freeList : zeros.state.1.freeList = plain.state.1.freeList
  headers : ∀ b ∈ (s.grant plain).blocks,
    zeros.state.1.heap.memory.header b = plain.state.1.heap.memory.header b
  zero : ∀ p, zeros.result = .ok p → ∀ x : Address,
    x.InRange p (zeros.state.1.heap.memory.blockSize (.ofPayload p)) →
      zeros.state.1.heap.memory.byte x = 0
  outside : ∀ x : Address, (∀ p, zeros.result = .ok p →
    ¬ x.InRange p (zeros.state.1.heap.memory.blockSize (.ofPayload p))) →
      zeros.state.1.heap.memory.byte x = plain.state.1.heap.memory.byte x
  payloads : ∀ b ∈ s.ledger.live, ∀ x : Address,
    x.InRange b.payload (s.arena.heap.memory.blockSize b) →
      zeros.state.1.heap.memory.byte x = s.arena.heap.memory.byte x
  unchanged : ∀ e, zeros.result = .error e → zeros.state.1 = s.arena

variable {s : Session} {t : Tiling} {supply : Supply} {count size n : Nat}

/-- A request for zeros that is refused is refused as the plain one is. -/
theorem ZeroFills.of_error {e : AllocError} (hmul : checkedMul count size = some n)
    (hr : (s.arena.takeBlock supply n).result = .error e) :
    s.ZeroFills (s.arena.allocate supply n) (s.arena.zeroAllocate supply count size) := by
  have hplain := Arena.result_allocate hr
  have hzeros := (Arena.result_zeroAllocate (s := supply) hmul).trans hplain
  have hst := Arena.allocate_of_error hplain
  have hst' := Arena.zeroAllocate_of_error hzeros
  exact
    { result := hzeros.trans hplain.symm
      supply := by rw [hst, hst']
      chunks := by rw [hst, hst']
      freeList := by rw [hst, hst']
      headers := fun b _ => by rw [hst, hst']
      zero := fun p hp => by rw [hzeros] at hp; cases hp
      outside := fun x _ => by rw [hst, hst']
      payloads := fun b _ x _ => by rw [hst']
      unchanged := fun _ _ => by rw [hst'] }

/-- A request for zeros that is granted is the plain one with a store behind it. -/
theorem ZeroFills.of_taken {e : Extent} {t' : Tiling} (h : s.Invariant t)
    (hmul : checkedMul count size = some n)
    (hr : (s.arena.takeBlock supply n).result = .ok e.block)
    (ht : s.arena.Taken t e (s.arena.takeBlock supply n).state.1 t') :
    s.ZeroFills (s.arena.allocate supply n) (s.arena.zeroAllocate supply count size) := by
  have hplain : (s.arena.allocate supply n).result = .ok e.block.payload :=
    Arena.result_allocate hr
  have hzeros := (Arena.result_zeroAllocate (s := supply) hmul).trans hplain
  have harena : (s.arena.zeroAllocate supply count size).state.1 =
      (s.arena.takeBlock supply n).state.1.write e.block.payload e.size fun _ => 0 := by
    have hstep := arena_step s (.zeroAllocate supply count size)
    rw [step, zeroAllocate_of_taken hmul hr ht] at hstep
    exact hstep.symm
  have hsize : (s.arena.zeroAllocate supply count size).state.1.heap.memory.blockSize
      (.ofPayload e.block.payload) = e.size := by
    rw [harena, Block.ofPayload_payload]
    exact (ht.sound.store ht.mem_live fun x hx => hx).blockSize_eq (Tiling.mem_of_live ht.mem_live)
  -- Each field is a fact about one store into the payload of the block that was taken: it reads
  -- back inside, and frames headers, list and the other payloads outside.
  refine
    { result := hzeros.trans hplain.symm, supply := s.arena.supply_zeroAllocate supply hmul
      chunks := s.arena.chunks_zeroAllocate supply hmul, freeList := ?freeList
      headers := ?headers, zero := ?zero, outside := ?outside, payloads := ?payloads
      unchanged := ?unchanged }
  case freeList =>
    rw [harena]
    exact ht.sound.freeList_write ht.mem_live fun x hx => hx
  case headers =>
    intro b hb
    rw [grant_of_taken hr ht] at hb
    obtain ⟨f, hf, rfl⟩ := (h.handOut ht).exists_block hb
    rw [harena]
    exact ht.sound.header_write ht.mem_live (fun x hx => hx) hf
  case zero =>
    intro p hp x hx
    rw [hzeros] at hp
    cases hp
    rw [hsize] at hx
    rw [harena]
    exact Memory.byte_write_of_inRange hx
  case outside =>
    intro x hx
    have hout := hx _ hzeros
    rw [hsize] at hout
    rw [harena]
    exact Memory.byte_write_of_not_inRange hout
  case payloads =>
    intro b hb x hx
    obtain ⟨f, hf, rfl⟩ := h.exists_live hb
    rw [h.sound.blockSize_eq (Tiling.mem_of_live hf)] at hx
    rw [harena]
    exact ht.byte_payload_write hf (Nat.le_refl _) _ hx
  case unchanged =>
    intro err herr
    rw [hzeros] at herr
    cases herr

/-- **A request for zeros** whose product of count and size does not fit a word is refused and
changes nothing. Any other is answered as a plain request for so many bytes, with the same chunks,
free list and headers; every byte of the recorded payload is zero, and every byte outside it is what
the plain request leaves there. -/
theorem zero_fill_exact (h : Reachable Tolerates s) (supply : Supply) (count size : Nat) :
    (wordLimit ≤ count * size →
      (s.arena.zeroAllocate supply count size).result = .error (.sizeOverflow count size) ∧
        (s.arena.zeroAllocate supply count size).state = (s.arena, supply)) ∧
    (count * size < wordLimit →
      s.ZeroFills (s.arena.allocate supply (count * size))
        (s.arena.zeroAllocate supply count size)) := by
  obtain ⟨t, ht⟩ := h.valid_of_tolerates
  refine ⟨Arena.zeroAllocate_of_overflow, fun hlt => ?_⟩
  have hmul : checkedMul count size = some (count * size) := if_pos hlt
  rcases ht.sound.takeBlock_cases supply (count * size) with ⟨e, hr, -⟩ | ⟨e, t', hr, -, htaken⟩
  · exact .of_error hmul hr
  · exact .of_taken ht hmul hr htaken

/-- Sixteen zeros are asked for, and a block is recycled for them that is longer and was full: it is
all zeros, and the block behind it keeps what it holds. -/
theorem zero_fill_exact_of_run :
    let s := (ofLength 256).run [.allocate .unlimited 40, .allocate .unlimited 16,
      .write ⟨0, 0⟩ 0 48 fun _ => 7, .write ⟨0, 80⟩ 0 16 fun _ => 9, .free (some ⟨0, 0⟩)]
    let z := s.arena.zeroAllocate .unlimited 4 4
    z.result = .ok (Block.mk 0 0).payload ∧
      (∀ x : Address, x.InRange (Block.mk 0 0).payload 48 → z.state.1.heap.memory.byte x = 0) ∧
      ∀ x : Address, x.InRange (Block.mk 0 80).payload 16 →
        z.state.1.heap.memory.byte x = s.arena.heap.memory.byte x := by
  intro s z
  have hreach : Reachable Tolerates s :=
    (Reachable.ofLength _ (by decide) (by decide) (by decide)).run (by decide +kernel)
  obtain ⟨-, hzeros⟩ := zero_fill_exact hreach .unlimited 4 4
  have hfills : s.ZeroFills (s.arena.allocate .unlimited (4 * 4)) z := hzeros (by decide)
  have hresult : z.result = .ok (Block.mk 0 0).payload := by decide +kernel
  have hsize : z.state.1.heap.memory.blockSize (.ofPayload (Block.mk 0 0).payload) = 48 := by
    decide +kernel
  have hguard : s.arena.heap.memory.blockSize ⟨0, 80⟩ = 16 := by decide +kernel
  refine ⟨hresult, fun x hx => ?_, fun x hx => ?_⟩
  · refine hfills.zero _ hresult x ?_
    rw [hsize]
    exact hx
  · refine hfills.payloads ⟨0, 80⟩ (by decide +kernel) x ?_
    rw [hguard]
    exact hx

end Session

end ArenaAlloc

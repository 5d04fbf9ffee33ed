import ArenaAlloc.Proofs.FreeOrder
import ArenaAlloc.Proofs.ZeroFill

/-!
# Reallocation

A block whose recorded size covers the new one stays where it is, and only that size changes
(`ShrinksInPlace`). Any other moves: it is in use until its payload has been copied, so the block it
moves to is the one that a plain allocation would get, and what it leaves behind is what that
allocation and a free of the old block would (`Moves`). `reallocate_cases` says which it is.

The size that decides is the recorded one, which may be more than was asked for when the block was
handed out, or less than the block once had.

## Two comparisons

`ShrinksInPlace` compares the states before and after, field by field and byte by byte: the size in
the header, and nothing else. `Moves` compares with two states at once. What belongs to the caller,
the payloads, is compared with the state before the call. What belongs to the arena, the free list
and the chunks, is compared with the state after an allocation of the new size followed by a free of
the old block, because that is what the code does, with a copy in between that the arena does not
see.

The order of the two matters. The block is not free yet when the new one is looked for, so it cannot
move to where it was or overlap it, even if its own bytes and the free ones behind it would be
enough (`Moves.apart`).
-/

namespace ArenaAlloc

namespace Arena

variable {a : Arena} {b : Block} {g : Supply} {size n : Nat}

/-- A block that must grow is moved exactly if a plain allocation of the new size is granted. -/
theorem result_reallocate (halign : alignUp size = some n)
    (hgrows : a.heap.memory.blockSize b < n) :
    (a.reallocate g (some b.payload) size).result = (a.allocate g n).result := by
  simp only [reallocate, allocate, halign, Block.ofPayload_payload, if_neg (Nat.not_le.2 hgrows),
    Outcome.result_andThen, Outcome.result_map]
  cases (a.takeBlock g n).result <;> rfl

end Arena

namespace Session

/-- From `s` to `s'` only the recorded size of the block changed, and it is `n`. -/
structure ShrinksInPlace (s s' : Session) (b : Block) (n : Nat) : Prop where
  header : s'.arena.heap.memory.header b = { s.arena.heap.memory.header b with size := n }
  headers : ∀ c ∈ s.blocks, c ≠ b →
    s'.arena.heap.memory.header c = s.arena.heap.memory.header c
  payloads : ∀ c ∈ s.blocks, ∀ x : Address,
    x.InRange c.payload (s.arena.heap.memory.blockSize c) →
      s'.arena.heap.memory.byte x = s.arena.heap.memory.byte x
  outside : ∀ x : Address, ¬ x.InRange (b.headerByte 0) 8 →
    s'.arena.heap.memory.byte x = s.arena.heap.memory.byte x
  live : s'.ledger.live = s.ledger.live
  freeList : s'.arena.freeList = s.arena.freeList
  chunks : s'.arena.chunks = s.arena.chunks

/-- From `s` to `s'` the block `b` moved to `q`, which has `n` bytes or more: its payload is there,
and all else is as if `n` bytes had been allocated and `b` freed. -/
structure Moves (s s' : Session) (supply : Supply) (b q : Block) (n : Nat) : Prop where
  fresh : q ∉ s.ledger.live
  le : n ≤ s'.arena.heap.memory.blockSize q
  apart : ∀ c ∈ s.ledger.live, (s'.extent q).Apart (s.extent c)
  copied : ∀ i < s.arena.heap.memory.blockSize b,
    s'.arena.heap.memory.byte (q.payload.plus i) = s.arena.heap.memory.byte (b.payload.plus i)
  payloads : ∀ c ∈ s.ledger.live, ∀ x : Address,
    x.InRange c.payload (s.arena.heap.memory.blockSize c) →
      s'.arena.heap.memory.byte x = s.arena.heap.memory.byte x
  live : s'.ledger.live = q :: s.ledger.live.erase b
  chunks : s'.arena.chunks = (s.run [.allocate supply n, .free (some b)]).arena.chunks
  entries : s'.entries = (s.run [.allocate supply n, .free (some b)]).entries
  placed : s'.entries = (s.extent b).place (s.step (.allocate supply n)).entries
  freed : ∃ e ∈ s'.entries, (s.extent b).Within e

variable {s : Session} {t t' : Tiling} {e old : Extent} {supply : Supply} {size n : Nat}

/-- **A reallocation** is refused, stays in place or moves, by what the header of the block records.
-/
theorem reallocate_cases (h : s.Invariant t) (hold : old ∈ t.live) (supply : Supply) (size : Nat) :
    (∃ err, (s.arena.reallocate supply (some old.block.payload) size).result = .error err) ∨
    ∃ n, alignUp size = some n ∧
      ((n ≤ old.size ∧ s.step (.reallocate supply (some old.block) size) =
        ⟨s.arena.shrinkBlock old.block n, s.ledger.shrink old n⟩) ∨
      (old.size < n ∧ ∃ e t' f, n ≤ e.size ∧
        s.arena.Taken t e (s.arena.takeBlock supply n).state.1 t' ∧
        s.step (.reallocate supply (some old.block) size) =
          ⟨(((s.arena.takeBlock supply n).state.1.write e.block.payload old.size f).giveBlock
              old.block).state,
            ((s.ledger.handOut e).store e.block.payload old.size f).takeBack old⟩)) := by
  cases halign : alignUp size with
  | none =>
    refine .inl ⟨.sizeOverflow 1 size, ?_⟩
    simp only [Arena.reallocate, halign]
  | some n =>
    rcases Nat.lt_or_ge old.size n with hgrows | hfits
    · rcases h.sound.takeBlock_cases supply n with ⟨err, hr, -⟩ | ⟨e, t', hr, hle, ht⟩
      · refine .inl ⟨err, ?_⟩
        rw [← h.sound.blockSize_eq (Tiling.mem_of_live hold)] at hgrows
        rw [Arena.result_reallocate halign hgrows, Arena.result_allocate hr]
        rfl
      · obtain ⟨f, -, hstep⟩ := reallocate_of_taken h.sound hold halign hgrows hr hle ht
        exact .inr ⟨n, rfl, .inr ⟨hgrows, e, t', f, hle, ht, hstep⟩⟩
    · exact .inr ⟨n, rfl, .inl ⟨hfits, reallocate_of_fits h.sound hold halign hfits⟩⟩

/-- What an allocation leaves is a session with the block in use. -/
theorem allocate_of_taken (h : s.Invariant t)
    (hr : (s.arena.takeBlock supply n).result = .ok e.block)
    (ht : s.arena.Taken t e (s.arena.takeBlock supply n).state.1 t') :
    (s.step (.allocate supply n)).Invariant t' := by
  rw [step, grant_of_taken hr ht]
  exact h.handOut ht

/-- A free after an allocation does not show in the chunks. -/
theorem chunks_run_allocate_free (s : Session) (supply : Supply) (n : Nat) (p : Option Block) :
    (s.run [.allocate supply n, .free p]).arena.chunks =
      (s.arena.takeBlock supply n).state.1.chunks := by
  refine (chunks_free (s.step (.allocate supply n)) p).trans ?_
  rw [arena_step]
  rfl

/-! ## In place

A lowered size is a store of eight bytes into the block's header. -/

/-- Every field is the frame of that store. -/
theorem ShrinksInPlace.of_fits (h : s.Invariant t) (hold : old ∈ t.live) (hle : n ≤ old.size)
    (hdvd : maxAlign ∣ n) :
    s.ShrinksInPlace ⟨s.arena.shrinkBlock old.block n, s.ledger.shrink old n⟩ old.block n := by
  have hee := Tiling.mem_of_live hold
  have hlt : n < wordLimit := Nat.lt_of_le_of_lt hle (h.sound.size_lt hee)
  have hagree : s.arena.heap.memory.AgreesBut (s.arena.heap.memory.setBlockSize old.block n)
      [old.block] := .setBlockSize n List.mem_cons_self
  have hbs : ∀ b ∈ [old.block], b ∈ t.extents.map Extent.block :=
    List.forall_mem_singleton.2 (List.mem_map_of_mem hee)
  refine
    { header := Memory.header_setBlockSize hlt, headers := ?headers, payloads := ?payloads
      outside := fun x hx => Memory.byte_write_of_not_inRange hx, live := rfl
      freeList := ?freeList, chunks := rfl }
  case headers =>
    intro c hc hne
    obtain ⟨f, hf, rfl⟩ := h.exists_block hc
    refine hagree.header_eq (List.forall_mem_singleton.2 ?_)
    exact ((h.sound.eq_or_apart hf hee).resolve_left fun heq => hne (heq ▸ rfl)).headerApart
  case payloads =>
    intro c hc x hx
    obtain ⟨f, hf, rfl⟩ := h.exists_block hc
    rw [h.sound.blockSize_eq hf] at hx
    exact h.sound.byte_payload hf hagree hbs hx
  case freeList =>
    have hafter := Invariant.shrink h hold hle hdvd
    exact hafter.freeList_eq.trans h.freeList_eq.symm

/-! ## To another block

The state after a move is written out as the three stores it consists of, and `hs'` names it: fields
about bytes unfold it again, fields about the free list and the blocks use that it is a session with
a known tiling. -/

/-- The block was taken, its first bytes copied, and the old one given back. -/
theorem Moves.of_taken {f : Nat → UInt8} (h : s.Invariant t) (hold : old ∈ t.live)
    (hgrows : old.size < n) (hr : (s.arena.takeBlock supply n).result = .ok e.block)
    (hle : n ≤ e.size) (ht : s.arena.Taken t e (s.arena.takeBlock supply n).state.1 t')
    (hf : ∀ i < old.size, f i = s.arena.heap.memory.byte (old.block.payload.plus i)) :
    s.Moves ⟨(((s.arena.takeBlock supply n).state.1.write e.block.payload old.size f).giveBlock
        old.block).state,
      ((s.ledger.handOut e).store e.block.payload old.size f).takeBack old⟩
      supply old.block e.block n := by
  have he : e ∈ t'.live := ht.mem_live
  have hold' : old ∈ t'.live := ht.mem_live_of_mem hold
  have hsize := h.sound.blockSize_eq (Tiling.mem_of_live hold)
  have hge : old.size ≤ e.size := Nat.le_of_lt (Nat.lt_of_lt_of_le hgrows hle)
  have hapart : e.Apart old := ht.apart hold
  -- The new block stays in use when the old one is given back, since it is another.
  have hkept : e ∈ t'.live.erase old :=
    (List.mem_erase_of_ne fun heq => hapart.block_ne (congrArg _ heq)).2 he
  -- The copy is a store, which no tiling shows, so both ways go through the same tilings.
  have hgranted := allocate_of_taken h hr ht
  have hother := hgranted.freed hold'
  have hstored := ht.sound.store (g := f) he fun x hx => hx.mono hge
  have hstore := (h.handOut ht).store (n := old.size) (f := f) he fun x hx => hx.mono hge
  have hafter := hstore.takeBack hold'
  generalize hs' : (Session.mk _ _ : Session) = s' at hafter ⊢
  have hextent : s'.extent e.block = e := hafter.extent_eq (Tiling.mem_of_live hkept)
  refine
    { fresh := ?fresh, le := ?le, apart := ?apart, copied := ?copied, payloads := ?payloads
      live := ?live, chunks := ?chunks, entries := hafter.entries_eq.trans hother.entries_eq.symm
      placed := ?placed, freed := ?freed }
  case fresh =>
    intro hmem
    obtain ⟨g, hg, heq⟩ := h.exists_live hmem
    exact (ht.apart hg).block_ne heq.symm
  case le =>
    rw [hafter.sound.blockSize_eq (Tiling.mem_of_live hkept)]
    exact hle
  case apart =>
    intro c hc
    obtain ⟨g, hg, rfl⟩ := h.exists_live hc
    rw [hextent, h.extent_eq (Tiling.mem_of_live hg)]
    exact ht.apart hg
  case copied =>
    intro i hi
    rw [hsize] at hi
    have hrange : (e.block.payload.plus i).InRange e.block.payload old.size :=
      ⟨rfl, Nat.le_add_right _ _, Nat.add_lt_add_left hi _⟩
    have hgiven := hstored.byte_payload_giveBlock hold' he (hrange.mono hge)
    have hwritten : ((s.arena.takeBlock supply n).state.1.write e.block.payload old.size
        f).heap.memory.byte (e.block.payload.plus i) = f i := by
      refine (Memory.byte_write_of_inRange hrange).trans ?_
      rw [Address.plus, Nat.add_sub_cancel_left]
    rw [← hs', hgiven, hwritten]
    exact hf i hi
  case payloads =>
    intro c hc x hx
    obtain ⟨g, hg, rfl⟩ := h.exists_live hc
    rw [h.sound.blockSize_eq (Tiling.mem_of_live hg)] at hx
    rw [← hs']
    exact (Effect.moved (c := .reset) hold ht hge hf).byte_payload h hg hx not_false
  case live =>
    rw [← hs']
    exact List.erase_cons_tail (by simpa using hapart.block_ne)
  case chunks =>
    rw [← hs', chunks_run_allocate_free]
    simp only [Arena.chunks_giveBlock, Arena.chunks_write]
  case placed =>
    rw [hafter.entries_eq, hgranted.entries_eq, h.extent_eq (Tiling.mem_of_live hold)]
    rfl
  case freed =>
    rw [hafter.entries_eq, h.extent_eq (Tiling.mem_of_live hold)]
    exact Extent.exists_within_place List.mem_cons_self

/-! ## Which it is

The code compares the rounded size with the size in the header. That is the extent's size, so the
cases of `reallocate_cases` are cases on the header as well. -/

/-- The recorded size covers the new one. -/
theorem Invariant.reallocate_of_covered (h : s.Invariant t) (hold : old ∈ t.live)
    (halign : alignUp size = some n) (hle : n ≤ s.arena.heap.memory.blockSize old.block) :
    (s.arena.reallocate supply (some old.block.payload) size).result = .ok old.block.payload ∧
      (s.arena.reallocate supply (some old.block.payload) size).state.2 = supply ∧
      s.ShrinksInPlace (s.step (.reallocate supply (some old.block) size)) old.block n := by
  rw [h.sound.blockSize_eq (Tiling.mem_of_live hold)] at hle
  have hstays := h.sound.reallocate_of_le (s := supply) hold halign hle
  refine ⟨congrArg Outcome.result hstays, by rw [hstays], ?_⟩
  rw [step, reallocate_of_fits h.sound hold halign hle]
  exact .of_fits h hold hle (dvd_of_alignUp halign)

/-- It does not, and the answer is that of an allocation. -/
theorem Invariant.reallocate_of_grows (h : s.Invariant t) (hold : old ∈ t.live)
    (halign : alignUp size = some n) (hgrows : s.arena.heap.memory.blockSize old.block < n) :
    (s.arena.reallocate supply (some old.block.payload) size).result =
        (s.arena.allocate supply n).result ∧
      (s.arena.reallocate supply (some old.block.payload) size).state.2 =
        (s.arena.allocate supply n).state.2 ∧
      ∀ p, (s.arena.reallocate supply (some old.block.payload) size).result = .ok p →
        ∃ q : Block, p = q.payload ∧
          s.Moves (s.step (.reallocate supply (some old.block) size)) supply old.block q n := by
  have hresult := Arena.result_reallocate (g := supply) halign hgrows
  refine ⟨hresult, s.arena.supply_reallocate supply halign ?_, fun p hp => ?_⟩
  · rw [Block.ofPayload_payload]
    exact hgrows
  · rw [h.sound.blockSize_eq (Tiling.mem_of_live hold)] at hgrows
    rcases h.sound.takeBlock_cases supply n with ⟨err, hr, -⟩ | ⟨e, t', hr, hle, ht⟩
    · rw [hresult, Arena.result_allocate hr] at hp
      cases hp
    · rw [hresult, Arena.result_allocate hr] at hp
      cases hp
      obtain ⟨f, hf, hstep⟩ := reallocate_of_taken h.sound hold halign hgrows hr hle ht
      refine ⟨e.block, rfl, ?_⟩
      rw [step, hstep]
      exact .of_taken h hold hgrows hr hle ht hf

end Session

end ArenaAlloc

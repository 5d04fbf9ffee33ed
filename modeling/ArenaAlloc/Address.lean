import ArenaAlloc.Size

/-!
# Addresses and blocks

An arena's bytes lie in chunks, so an `Address` is a chunk's index and an offset from that chunk's
start. A `Block` is known by where its header starts; its payload follows the header.

An address has two numbers and not one, because where the chunks lie is up to whoever grants them.
All that an arena may rely on is the order of bytes within a chunk. Where addresses are compared
across chunks, as the free list does, an assumption on where the chunks lie comes in; it is in
`Memory.comesBefore`, and `Proofs.ChunkBases` is about any other.
-/

namespace ArenaAlloc

/-- A byte's place: the index of a chunk and an offset from its start. -/
structure Address where
  chunk : Nat
  offset : Nat
deriving DecidableEq, Repr, Inhabited

def Address.plus (a : Address) (n : Nat) : Address :=
  { a with offset := a.offset + n }

/-- A block, known by the chunk it lies in and the offset of its header. -/
structure Block where
  chunk : Nat
  start : Nat
deriving DecidableEq, Repr, Inhabited

namespace Block

def headerByte (b : Block) (i : Nat) : Address := ⟨b.chunk, b.start + i⟩

/-- Where the payload starts: this is the pointer that callers hold. -/
def payload (b : Block) : Address := ⟨b.chunk, b.start + headerSize⟩

def ofPayload (a : Address) : Block := ⟨a.chunk, a.offset - headerSize⟩

@[simp] theorem ofPayload_payload (b : Block) : ofPayload b.payload = b := by
  simp [ofPayload, payload]

/-- A payload belongs to one block. -/
theorem payload_injective {b c : Block} (h : b.payload = c.payload) : b = c := by
  simpa using congrArg ofPayload h

end Block

end ArenaAlloc

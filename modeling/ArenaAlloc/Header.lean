import ArenaAlloc.Memory.Lemmas

/-!
# Block headers

Every block starts with a header of `headerSize` bytes in the same memory as the payloads. It holds

| bytes | field |
|---|---|
| 0 to 7 | `blockSize`: the recorded payload size |
| 8 to 15 | `link`: the number that stands for the next free block, 0 for none |
| 16 to 19 | `tag`: the index of the chunk that the block was carved from |
| 20 | `isFreed`: whether the block is on the free list |

and nothing in the others. Fields are read and written one at a time, so a change of one leaves the
bytes of the others as they are. That matters for a header that has become part of a payload: what
its fields read is what its bytes hold by then.
-/

namespace ArenaAlloc

namespace Memory

/-! ## Fields -/

def blockSize (m : Memory) (b : Block) : Nat := m.number (b.headerByte 0) 8

def setBlockSize (m : Memory) (b : Block) (size : Nat) : Memory :=
  m.setNumber (b.headerByte 0) 8 size

/-- The number that stands for the block that follows on the free list. -/
def link (m : Memory) (b : Block) : Nat := m.number (b.headerByte 8) 8

def setLink (m : Memory) (b : Block) (n : Nat) : Memory := m.setNumber (b.headerByte 8) 8 n

/-- The index of the chunk that the block was carved from, as its header has it. -/
def tag (m : Memory) (b : Block) : Nat := m.number (b.headerByte 16) 4

def setTag (m : Memory) (b : Block) (chunk : Nat) : Memory :=
  m.setNumber (b.headerByte 16) 4 chunk

/-- Whether the block is marked free: the lowest bit of the mark counts. -/
def isFreed (m : Memory) (b : Block) : Bool := (m.byte (b.headerByte 20)).toNat % 2 == 1

def setFreed (m : Memory) (b : Block) (freed : Bool) : Memory :=
  m.write (b.headerByte 20) 1 fun _ => if freed then 1 else 0

/-- Write the header of a block that is carved now: in use, followed by none. -/
def writeHeader (m : Memory) (b : Block) (size : Nat) : Memory :=
  (((m.setBlockSize b size).setLink b 0).setTag b b.chunk).setFreed b false

/-! ## What the fields say together

Two blocks are compared by the tags of their headers and, behind equal tags, by where they are. On a
machine that is a comparison of absolute addresses, and nothing but the tag keeps apart two chunks
that the system has put one behind the other. An `Address` here has its chunk in it, and the tests
below look at that, so they would keep apart such blocks even if their tags were wrong. The
difference shows only where a header is tagged with another chunk than the one that it lies in;
`Comparison.byAddress` is the comparison of addresses, for chunks that may lie anywhere, and
`Session.giveBlockAt_eq` says that no run that keeps to the contract can tell the two apart. -/

def blockEnd (m : Memory) (b : Block) : Nat := b.start + headerSize + m.blockSize b

/-- Whether `next` has the tag of `b` and starts where `b` ends. That the chunks are the same stands
for the bases of two addresses being the same. -/
def adjoins (m : Memory) (b next : Block) : Bool :=
  m.tag b == m.tag next && b.chunk == next.chunk && m.blockEnd b == next.start

/-- Whether `b` comes before `c` in the order of the free list: by the chunk in the header, then by
address. Among addresses the one in the earlier chunk stands for the lower one. -/
def comesBefore (m : Memory) (b c : Block) : Bool :=
  m.tag b < m.tag c ||
    m.tag b == m.tag c && (b.chunk < c.chunk || b.chunk == c.chunk && b.start < c.start)

/-! ## A field that was written reads back -/

theorem blockSize_setBlockSize {m : Memory} {b : Block} {size : Nat} (h : size < wordLimit) :
    (m.setBlockSize b size).blockSize b = size :=
  number_setNumber_of_lt h

theorem tag_setTag {m : Memory} {b : Block} {chunk : Nat} (h : chunk < chunkLimit) :
    (m.setTag b chunk).tag b = chunk :=
  number_setNumber_of_lt h

@[simp] theorem isFreed_setFreed (m : Memory) (b : Block) (freed : Bool) :
    (m.setFreed b freed).isFreed b = freed := by
  have hr : (b.headerByte 20).InRange (b.headerByte 20) 1 :=
    ⟨rfl, Nat.le_refl _, Nat.lt_succ_self _⟩
  rw [isFreed, setFreed, byte_write_of_inRange hr]
  cases freed <;> rfl

theorem link_setLink {m : Memory} {b : Block} {n : Nat} (h : n < wordLimit) :
    (m.setLink b n).link b = n :=
  number_setNumber_of_lt h

end Memory

end ArenaAlloc

import ArenaAlloc.Arena.Basic

/-!
# What callers do with their bytes

Callers read and write payloads on their own, without the arena's help. These functions are that
access; it is possible anywhere inside a chunk, and the arena's bookkeeping is only safe from it as
long as callers keep to the payloads they hold.

An access outside every chunk would be one to memory that is not the arena's. So a script asks
`inBounds` first, and answers that the range is out of reach. An access in a chunk, but outside the
payloads that the caller holds, is within what can be expressed, and what becomes of the arena then
is up to the headers that were hit; theorems about runs have the contract of `Proofs.Session` to
exclude it.
-/

namespace ArenaAlloc

namespace Arena

/-- Whether the `n` bytes from `a` on lie inside one chunk. -/
def inBounds (a : Arena) (p : Address) (n : Nat) : Bool :=
  match a.chunks.list[p.chunk]? with
  | some chunk => decide (p.offset + n ≤ chunk.length)
  | none => false

/-- Set the `n` bytes from `p` on, byte number `i` to `f i`. -/
def write (a : Arena) (p : Address) (n : Nat) (f : Nat → UInt8) : Arena :=
  { a with heap := { a.heap with memory := a.heap.memory.write p n f } }

def read (a : Arena) (p : Address) (n : Nat) : ByteArray := a.heap.memory.read p n

@[simp] theorem chunks_write (a : Arena) (p : Address) (n : Nat) (f : Nat → UInt8) :
    (a.write p n f).chunks = a.chunks := rfl

end Arena

end ArenaAlloc

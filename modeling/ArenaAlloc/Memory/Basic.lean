import ArenaAlloc.Address
import ArenaAlloc.Memory.Bank

/-!
# Memory

The memory of an arena is one bank per chunk. It is read through `byte`, a total function of the
address, and changed through `write` alone: header fields, zero fills, copies and what callers
store all go through it. `byte_write` therefore says all there is to say about a change of memory,
and every other lemma about one follows from it.

Two memories with the same bytes may have different banks, because one stores a gap that the other
leaves out. So equality of memories is never decided. It is used where the same operations were made
from the same memory; elsewhere memories are compared byte by byte.
-/

namespace ArenaAlloc

/-- The bytes of an arena, one bank per chunk, in the order of the chunks. -/
structure Memory where
  banks : Array Bank := #[]
deriving Inhabited

namespace Memory

def empty : Memory := {}

/-- The bank of a chunk. A chunk in which nothing was written may have none; its bytes are zero. -/
@[inline] def bank (m : Memory) (chunk : Nat) : Bank := m.banks.getD chunk ByteArray.empty

def byte (m : Memory) (a : Address) : UInt8 := (m.bank a.chunk).byte a.offset

/-- The banks, with empty ones appended until there is one for `chunk`. -/
def banksUpTo (m : Memory) (chunk : Nat) : Array Bank :=
  m.banks ++ Array.replicate (chunk + 1 - m.banks.size) ByteArray.empty

/-- Set the `n` bytes from `a` on, byte number `i` to `f i`. -/
def write (m : Memory) (a : Address) (n : Nat) (f : Nat → UInt8) : Memory :=
  { banks := (m.banksUpTo a.chunk).modify a.chunk fun bank => Bank.fill bank a.offset f n }

def read (m : Memory) (a : Address) (n : Nat) : ByteArray := (m.bank a.chunk).read a.offset n

/-- Copy `n` bytes from `source` to `target`. The bytes are read before any is written, so the two
ranges may overlap. -/
def copy (m : Memory) (source target : Address) (n : Nat) : Memory :=
  let bytes := m.read source n
  m.write target n fun i => Bank.byte bytes i

def zero (m : Memory) (a : Address) (n : Nat) : Memory :=
  m.write a n fun _ => 0

/-- The number held in the `k` bytes from `a` on, low byte first. -/
def number (m : Memory) (a : Address) (k : Nat) : Nat := (m.bank a.chunk).number a.offset k

/-- One more than the largest number that `k` bytes hold. -/
def byteLimit : Nat → Nat
  | 0 => 1
  | k + 1 => 256 * byteLimit k

def setNumber (m : Memory) (a : Address) (k n : Nat) : Memory :=
  m.write a k fun i => UInt8.ofNat (n / byteLimit i)

end Memory

end ArenaAlloc

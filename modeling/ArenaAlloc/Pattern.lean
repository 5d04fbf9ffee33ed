import ArenaAlloc.Memory.Bank

/-!
# Byte patterns and digests

A pattern is a sequence of bytes that a seed determines. Filling a payload with it and verifying it
later shows whether the bytes were kept. `digest` is a 64-bit summary of bytes for the same purpose
(the FNV-1a hash).

Every byte of a pattern depends on its number, and on the seed through a multiplication and a shift.
So a block that was overlaid by another's pattern, or has its own shifted, does not verify except by
chance. What is proved about patterns does not depend on that: verifying is equality with what was
stored.
-/

namespace ArenaAlloc

namespace Pattern

/-- Byte `i` of the pattern of a seed. The arithmetic wraps around at 64 bits. -/
def byte (seed : UInt64) (i : Nat) : UInt8 :=
  let mixed := seed * 0x9E3779B97F4A7C15 + UInt64.ofNat i
  (mixed ^^^ (mixed >>> 29)).toUInt8

/-- The pattern's bytes from number `i` on, appended to `acc`. -/
def bytesOnto (seed : UInt64) (acc : ByteArray) (i : Nat) : Nat → ByteArray
  | 0 => acc
  | n + 1 => bytesOnto seed (acc.push (byte seed i)) (i + 1) n

def bytes (seed : UInt64) (n : Nat) : ByteArray :=
  bytesOnto seed (ByteArray.emptyWithCapacity n) 0 n

def verify (seed : UInt64) (b : ByteArray) : Bool :=
  Bank.agrees b (byte seed)

end Pattern

/-- The FNV-1a hash of bytes. -/
def digest (b : ByteArray) : UInt64 :=
  b.foldl (fun h v => (h ^^^ v.toUInt64) * 0x100000001b3) 0xcbf29ce484222325

end ArenaAlloc

import ArenaAlloc.Arena.Access
import ArenaAlloc.Pattern
import ArenaAlloc.Script.Answer

/-!
# Steps on the bytes behind a pointer

A caller uses the memory that it was given, and a script has steps for that: they store bytes, read
them and check them against a pattern. Where there is no pointer, or the range reaches past the end
of a chunk, the step is answered and nothing is done, so no script can touch memory that is not the
arena's.
-/

namespace ArenaAlloc

namespace Script

/-- What a step does with a range of bytes. -/
inductive Action where
  | fill (value : UInt8) (count : Nat)
  | store (bytes : ByteArray)
  /-- Store the first `count` bytes of a pattern. -/
  | pattern (seed : UInt64) (count : Nat)
  /-- Ask whether `count` bytes are those of a pattern. -/
  | verify (seed : UInt64) (count : Nat)
  | read (count : Nat)
  | hash (count : Nat)

def Action.count : Action → Nat
  | fill _ count | pattern _ count | verify _ count | read count | hash count => count
  | store bytes => bytes.size

def Action.run (a : Arena) (p : Address) : Action → Arena × Answer
  | fill value count => (a.write p count fun _ => value, .done)
  | store bytes => (a.write p bytes.size (Bank.byte bytes), .done)
  | pattern seed count => (a.write p count (Pattern.byte seed), .done)
  | verify seed count => (a, .truth (Pattern.verify seed (a.read p count)))
  | read count => (a, .bytes (a.read p count))
  | hash count => (a, .digest (ArenaAlloc.digest (a.read p count)))

/-- A step on the bytes from `offset` on behind a pointer. -/
structure Access where
  offset : Nat
  action : Action

/-- Carry out the step, if there is a pointer and the range lies inside its chunk. -/
def Access.run (x : Access) (pointer : Option Address) (a : Arena) : Arena × Answer :=
  match pointer with
  | none => (a, .unbound)
  | some p =>
    if a.inBounds (p.plus x.offset) x.action.count then x.action.run a (p.plus x.offset)
    else (a, .outOfRange)

end Script

end ArenaAlloc

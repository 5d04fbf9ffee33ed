import ArenaAlloc.Size
import ArenaAlloc.Text.Record

/-!
# Statistics

A snapshot of an arena's bookkeeping: its chunks in numbers, and its free blocks in list order.
Addresses are of whatever type the reader knows them by.

An arena has its free blocks by `Address`, and a report to a user has plain numbers; so the type of
addresses is a parameter. Counts that follow from the list of free blocks are functions of it and
not fields, as they could otherwise disagree with it.
-/

namespace ArenaAlloc

structure FreeBlock (α : Type) where
  address : α
  size : Nat
deriving DecidableEq, Repr

/-- An arena's bookkeeping at one moment. -/
structure Stats (α : Type) where
  chunkCount : Nat := 0
  capacity : Nat := 0
  /-- The bytes carved, headers included, since the arena was created or last reset. -/
  used : Nat := 0
  freeBlocks : List (FreeBlock α) := []
deriving DecidableEq, Repr

namespace Stats

variable {α : Type}

def empty : Stats α := {}

def freeBlockCount (s : Stats α) : Nat := s.freeBlocks.length

def freeBytes (s : Stats α) : Nat := total (s.freeBlocks.map FreeBlock.size)

end Stats

def FreeBlock.describe (b : FreeBlock Nat) : String :=
  Text.record "FreeBlock" [("address", toString b.address), ("size", toString b.size)]

def Stats.describe (s : Stats Nat) : String :=
  Text.record "ArenaStats"
    [("chunk_count", toString s.chunkCount), ("capacity", toString s.capacity),
      ("used", toString s.used), ("free_blocks", Text.list (s.freeBlocks.map FreeBlock.describe))]

end ArenaAlloc

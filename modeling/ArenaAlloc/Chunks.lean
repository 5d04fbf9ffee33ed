import ArenaAlloc.Config
import ArenaAlloc.Growth
import ArenaAlloc.Layout
import ArenaAlloc.Outcome
import ArenaAlloc.Supply

/-!
# Chunks

An arena's bytes come in chunks, carved from the front. Blocks are carved from the current chunk;
when it has no room the next later one that has becomes current, and only when none has is a chunk
added. Chunks never move and are never given up before the arena is: a reset only starts the carving
again at the front of the first one.

Nothing here reads or writes a byte. Which chunk a block is carved from, whether one is added and
how long it is depends on lengths alone, and so can be proved with numbers alone. Refusals come in a
fixed order: a size that no word holds, a capacity past the ceiling, too many chunks, and no memory.
The index of a chunk has 32 bits in a header, and this is the one limit on their number.

After a reset later chunks are there with nothing carved from them. Carving goes on in the first
one, and comes to the others when those before have no room; until the next reset it does not go
back to one that was passed. -/

namespace ArenaAlloc

/-- A piece of the supply's memory, carved from the front. -/
structure Chunk where
  length : Nat
  used : Nat := 0
deriving DecidableEq, Repr, Inhabited

namespace Chunk

/-- Whether a header and a payload of `size` bytes still fit. -/
def hasRoom (c : Chunk) (size : Nat) : Bool := c.used + headerSize + size ≤ c.length

def take (c : Chunk) (size : Nat) : Chunk := { c with used := c.used + headerSize + size }

def rewind (c : Chunk) : Chunk := { c with used := 0 }

/-- Whether a payload can start at `offset`: behind a first header, and no later than the end of
what is carved. An empty payload may start there. -/
def holdsPayload (c : Chunk) (offset : Nat) : Bool :=
  headerSize ≤ offset && offset ≤ c.used

end Chunk

/-- The chunks of an arena and the rule by which it grows. -/
structure Chunks where
  list : List Chunk
  /-- The index of the chunk that is being carved. -/
  current : Nat := 0
  growthFactor : Nat
  ceiling : Option Nat
deriving DecidableEq, Repr, Inhabited

namespace Chunks

def count (c : Chunks) : Nat := c.list.length

def layout (c : Chunks) : Layout := c.list.map Chunk.length

def capacity (c : Chunks) : Nat := total c.layout

def used (c : Chunks) : Nat := total (c.list.map Chunk.used)

def holdsPayload (c : Chunks) (a : Address) : Bool :=
  match c.list[a.chunk]? with
  | some chunk => chunk.holdsPayload a.offset
  | none => false

def rewind (c : Chunks) : Chunks := { c with list := c.list.map Chunk.rewind, current := 0 }

/-- A first chunk of the configured length, rounded up. -/
def create (config : Config) (s : Supply) : Except AllocError (Chunks × Supply) :=
  match alignUp config.initialCapacity with
  | none => .error (.sizeOverflow 1 config.initialCapacity)
  | some length =>
    match s.obtain length with
    | .error e => .error e
    | .ok s' =>
      .ok ({ list := [{ length }], growthFactor := config.growthFactor,
             ceiling := config.maxCapacity }, s')

/-- The first chunk, from the current one on, that has room. -/
def roomFor? (c : Chunks) (size : Nat) : Option Nat :=
  ((c.list.drop c.current).findIdx? (·.hasRoom size)).map (· + c.current)

/-- Carve from chunk `index`, which becomes the current one: the block, and the chunks after. -/
def carveAt (c : Chunks) (index size : Nat) : Option (Block × Chunks) :=
  match c.list[index]? with
  | some chunk =>
    if chunk.hasRoom size then
      some (⟨index, chunk.used⟩,
        { c with list := c.list.set index (chunk.take size), current := index })
    else none
  | none => none

/-! ## Growth -/

def exceeds (c : Chunks) (n : Nat) : Bool :=
  match c.ceiling with
  | some limit => decide (limit < c.capacity + n)
  | none => false

/-- The length of the chunk to add for a header and payload of `total` bytes: the geometric length,
or just the bytes needed when that would pass the ceiling. -/
def nextLength (c : Chunks) (total : Nat) : Option Nat :=
  match Growth.chunkLength c.capacity total c.growthFactor with
  | none => none
  | some length => if c.exceeds length then alignUp total else some length

/-- Add a chunk that can hold a header and payload of `total` bytes, and make it current. -/
def grow (c : Chunks) (s : Supply) (total : Nat) :
    Outcome (Chunks × Supply) (Except AllocError Nat) :=
  match c.nextLength total with
  | none => ⟨.error (.sizeOverflow 1 total), (c, s), []⟩
  | some length =>
    match c.ceiling, c.exceeds length with
    | some limit, true =>
      ⟨.error (.capacityExceeded length c.capacity limit), (c, s),
        [.growthRefused c.capacity length limit]⟩
    -- Within the ceiling, or without one.
    | _, _ =>
      -- The index of a chunk has to fit the headers of its blocks.
      if chunkLimit ≤ c.count then ⟨.error (.outOfMemory 0), (c, s), []⟩
      else match s.obtain length with
        | .error e => ⟨.error e, (c, s), [.growthFailed c.capacity length e]⟩
        | .ok s' =>
          let grown := { c with list := c.list ++ [{ length }], current := c.count }
          ⟨.ok c.count, (grown, s'), [.grew c.count length grown.capacity]⟩

/-- Carve a header and a payload of `size` bytes, a multiple of the alignment, growing if no chunk
has room. -/
def carve (c : Chunks) (s : Supply) (size : Nat) :
    Outcome (Chunks × Supply) (Except AllocError Block) :=
  match (c.roomFor? size).bind (c.carveAt · size) with
  | some (b, c') => ⟨.ok b, (c', s), []⟩
  | none =>
    match checkedAdd size headerSize with
    | none => ⟨.error (.sizeOverflow 1 size), (c, s), []⟩
    | some total =>
      (c.grow s total).andThen fun grown after =>
        match grown with
        | .error e => ⟨.error e, after, []⟩
        | .ok index =>
          match after.1.carveAt index size with
          | some (b, c') => ⟨.ok b, (c', after.2), []⟩
          | none => ⟨.error (.outOfMemory total), after, []⟩

end Chunks

end ArenaAlloc

import ArenaAlloc.Chunks
import ArenaAlloc.Heap
import ArenaAlloc.Stats

/-!
# Arenas

An arena hands out blocks of memory and takes them back. A request is rounded up; the first free
block that is large enough serves it, whole; otherwise a block is carved from the chunks, which grow
if they must. Freed blocks go to the free list, where neighbours merge. A reset forgets every block
at once and keeps the chunks.

Operations that may need a chunk also take the supply and leave it as it then is. Pointers are the
addresses of payloads; `free` and `reallocate` rely on being given pointers that this arena returned
since its last reset.

The bookkeeping is in two parts that do not overlap. `Chunks` has the lengths and how much of each
is carved, and is kept outside the memory. `Heap` is the memory and the first block of the free
list, so everything that is known of a block, whether in use or free, is in the bytes of its header.
What links of the list stand for depends on the lengths of the chunks, and so operations on the heap
take the layout.

Every operation has an `Outcome`: what it answers, the state after it, and what it logs. An
operation that fails has a state too, and that nothing has changed in it is a theorem
(`Proofs.Refusal`) and not built into the type.
-/

namespace ArenaAlloc

/-- An arena: its chunks, and its bytes with the free list threaded through them. -/
structure Arena where
  chunks : Chunks
  heap : Heap := {}
deriving Inhabited

namespace Arena

/-- The lengths of the chunks, which say what the links of the free list stand for. -/
def layout (a : Arena) : Layout := a.chunks.layout

def freeList (a : Arena) : List Block := a.heap.freeList a.layout

def capacity (a : Arena) : Nat := a.chunks.capacity

/-- Whether an address lies in the carved part of a chunk. That does not make it a payload. -/
def owns (a : Arena) (p : Address) : Bool := a.chunks.holdsPayload p

def stats (a : Arena) : Stats Address where
  chunkCount := a.chunks.count
  capacity := a.chunks.capacity
  used := a.chunks.used
  freeBlocks := a.freeList.map fun b => ⟨b.payload, a.heap.memory.blockSize b⟩

def describe (a : Arena) : String :=
  Text.record "Arena"
    [("chunks", toString a.chunks.count), ("capacity", toString a.chunks.capacity),
      ("used", toString a.chunks.used)]

/-! ## Creation and release -/

/-- A new arena, with one chunk and nothing carved from it. Its bytes are what the supply has in
them; they are never read as a header before a block is carved there. -/
def create (config : Config) (s : Supply) : Outcome Supply (Except AllocError Arena) :=
  match config.validate with
  | .error e => ⟨.error e, s, []⟩
  | .ok () =>
    match Chunks.create config s with
    | .error e => ⟨.error e, s, []⟩
    | .ok (chunks, s') =>
      ⟨.ok { chunks, heap := { memory := s.contents } }, s', [.created chunks.capacity]⟩

/-- Give all chunks back to the supply. The answer is their number and their bytes. -/
def release (a : Arena) (s : Supply) : Outcome Supply (Nat × Nat) :=
  ⟨(a.chunks.count, a.capacity), s.giveBack a.capacity, [.released a.chunks.count a.capacity]⟩

/-! ## Blocks -/

/-- A block in use whose payload has at least `size` bytes. -/
def takeBlock (a : Arena) (s : Supply) (size : Nat) :
    Outcome (Arena × Supply) (Except AllocError Block) :=
  match alignUp size with
  | none => ⟨.error (.sizeOverflow 1 size), (a, s), []⟩
  | some aligned =>
    match a.heap.firstFit? a.layout aligned with
    | some (before, b) => ⟨.ok b, ({ a with heap := a.heap.unlink a.layout before b }, s), []⟩
    | none =>
      (a.chunks.carve s aligned).andThen fun carved after =>
        match carved with
        | .error e => ⟨.error e, ({ a with chunks := after.1 }, after.2), []⟩
        | .ok b => ⟨.ok b, ({ chunks := after.1, heap := a.heap.carve b aligned }, after.2), []⟩

/-- Put a block on the free list, unless it is marked free already. A second free is no error: it is
left without effect, and the warning is there to help finding it. The model is of a build with debug
assertions. One without them is as silent about a second free as it is without effect, and that is
the only event that depends on how the program was built. -/
def giveBlock (a : Arena) (b : Block) : Outcome Arena Unit :=
  if a.heap.memory.isFreed b then ⟨(), a, [.alreadyFreed b.payload]⟩
  else ⟨(), { a with heap := a.heap.insert a.layout b }, []⟩

def zeroPayload (a : Arena) (b : Block) : Arena :=
  let memory := a.heap.memory.zero b.payload (a.heap.memory.blockSize b)
  { a with heap := { a.heap with memory } }

/-- Copy the payload of `source` to the front of the payload of `target`. -/
def copyPayload (a : Arena) (source target : Block) : Arena :=
  let memory := a.heap.memory.copy source.payload target.payload (a.heap.memory.blockSize source)
  { a with heap := { a.heap with memory } }

/-- Record a smaller size for a block. What lies behind it is lost until the next reset. -/
def shrinkBlock (a : Arena) (b : Block) (size : Nat) : Arena :=
  { a with heap := { a.heap with memory := a.heap.memory.setBlockSize b size } }

/-! ## Operations -/

/-- A pointer to `size` bytes, not initialised. A request for no bytes has a block of its own. -/
def allocate (a : Arena) (s : Supply) (size : Nat) :
    Outcome (Arena × Supply) (Except AllocError Address) :=
  (a.takeBlock s size).map fun taken => taken.map Block.payload

/-- A pointer to `count * size` bytes that are zero, as is the rest of the block. -/
def zeroAllocate (a : Arena) (s : Supply) (count size : Nat) :
    Outcome (Arena × Supply) (Except AllocError Address) :=
  match checkedMul count size with
  | none => ⟨.error (.sizeOverflow count size), (a, s), []⟩
  | some total =>
    (a.takeBlock s total).andThen fun taken after =>
      match taken with
      | .error e => ⟨.error e, after, []⟩
      | .ok b => ⟨.ok b.payload, (after.1.zeroPayload b, after.2), []⟩

/-- Change the size of a block. One that fits the block's recorded size is recorded in its place and
the pointer stays. Otherwise the payload moves to another block and this one is freed; if there is
no other block, nothing changes. Without a pointer this is `allocate`. -/
def reallocate (a : Arena) (s : Supply) (p : Option Address) (size : Nat) :
    Outcome (Arena × Supply) (Except AllocError Address) :=
  match p with
  | none => a.allocate s size
  | some p =>
    match alignUp size with
    | none => ⟨.error (.sizeOverflow 1 size), (a, s), []⟩
    | some aligned =>
      let b := Block.ofPayload p
      if aligned ≤ a.heap.memory.blockSize b then ⟨.ok p, (a.shrinkBlock b aligned, s), []⟩
      else
        -- The old block is freed last, so the new one never lies in it.
        (a.takeBlock s aligned).andThen fun taken after =>
          match taken with
          | .error e => ⟨.error e, after, []⟩
          | .ok target =>
            ((after.1.copyPayload b target).giveBlock b).map (fun _ => .ok target.payload)
              |>.mapState (·, after.2)

/-- Free a block. A block that is free already is left alone, and so is everything when there is no
pointer. -/
def free (a : Arena) (p : Option Address) : Outcome Arena Unit :=
  match p with
  | none => ⟨(), a, []⟩
  | some p => a.giveBlock (Block.ofPayload p)

/-- Forget every block and start again at the front of the first chunk. No byte changes. -/
def reset (a : Arena) : Outcome Arena Unit :=
  ⟨(), { chunks := a.chunks.rewind, heap := a.heap.clear },
    [.reset a.chunks.used a.chunks.capacity]⟩

/-! ## The same without reasons

For callers that only ask whether there is a pointer. -/

def allocate? (a : Arena) (s : Supply) (size : Nat) : Outcome (Arena × Supply) (Option Address) :=
  (a.allocate s size).map Except.toOption

def zeroAllocate? (a : Arena) (s : Supply) (count size : Nat) :
    Outcome (Arena × Supply) (Option Address) :=
  (a.zeroAllocate s count size).map Except.toOption

def reallocate? (a : Arena) (s : Supply) (p : Option Address) (size : Nat) :
    Outcome (Arena × Supply) (Option Address) :=
  (a.reallocate s p size).map Except.toOption

end Arena

end ArenaAlloc

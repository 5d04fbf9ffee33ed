import ArenaAlloc.Header
import ArenaAlloc.Layout

/-!
# The heap: memory with a free list threaded through it

Free blocks are linked through the headers that lie in front of their payloads, so the list needs no
memory of its own: a heap is the bytes and the list's first block. The list is ordered by chunk and
address, and neighbours that adjoin are merged when a block is inserted. A request takes the first
block that is large enough, whole.

What a link stands for depends on the layout of the chunks, so the operations that follow or make
links take it. A list is followed for as many steps as the chunks have bytes: each listed block has
a header of its own among them, so no list is longer. -/

namespace ArenaAlloc

/-- An arena's bytes and the first block of its free list. -/
structure Heap where
  memory : Memory := Memory.empty
  head : Option Block := none
deriving Inhabited

namespace Memory

def next? (m : Memory) (l : Layout) (b : Block) : Option Block := l.resolve (m.link b)

/-- The blocks from `first` on along the links, at most `reach` of them. -/
def chain (m : Memory) (l : Layout) : Nat → Option Block → List Block
  | 0, _ => []
  | _ + 1, none => []
  | reach + 1, some b => b :: chain m l reach (m.next? l b)

@[simp] theorem chain_zero (m : Memory) (l : Layout) (first : Option Block) :
    m.chain l 0 first = [] := rfl

@[simp] theorem chain_none (m : Memory) (l : Layout) (reach : Nat) : m.chain l reach none = [] := by
  cases reach <;> rfl

@[simp] theorem chain_succ_some (m : Memory) (l : Layout) (reach : Nat) (b : Block) :
    m.chain l (reach + 1) (some b) = b :: m.chain l reach (m.next? l b) := rfl

/-- Follow the links from `first` on, at most `reach` of them, to the first block that `p` accepts.
The answer is the block before that one, which is `before` when it is `first`, and the block itself.
-/
@[specialize] def seek (m : Memory) (l : Layout) (p : Block → Bool) :
    Nat → Option Block → Option Block → Option Block × Option Block
  | 0, before, _ => (before, none)
  | _ + 1, before, none => (before, none)
  | reach + 1, before, some b =>
    if p b then (before, some b) else seek m l p reach (some b) (m.next? l b)

/-- **Seeking splits the chain** where `p` first holds. -/
theorem seek_eq (m : Memory) (l : Layout) (p : Block → Bool) (reach : Nat)
    (before first : Option Block) :
    m.seek l p reach before first =
      (((m.chain l reach first).takeWhile (!p ·)).getLast?.or before,
        ((m.chain l reach first).dropWhile (!p ·)).head?) := by
  induction reach generalizing before first with
  | zero => simp [seek]
  | succ reach ih =>
    cases first with
    | none => simp [seek]
    | some b =>
      by_cases hp : p b = true
      · simp [seek, hp]
      · simp only [seek, hp, chain_succ_some, ih]
        simp [hp, List.getLast?_cons]

end Memory

/-- How the free list compares blocks: whether one comes before another, and whether the second
adjoins the first. Both look at the headers. -/
structure Comparison where
  comesBefore : Memory → Block → Block → Bool
  adjoins : Memory → Block → Block → Bool

/-- Comparing blocks by where they are in the chunks. -/
def Comparison.byPlace : Comparison := ⟨Memory.comesBefore, Memory.adjoins⟩

@[simp] theorem Comparison.comesBefore_byPlace : byPlace.comesBefore = Memory.comesBefore := by
  rw [byPlace]

@[simp] theorem Comparison.adjoins_byPlace : byPlace.adjoins = Memory.adjoins := by
  rw [byPlace]

namespace Heap

def freeList (h : Heap) (l : Layout) : List Block := h.memory.chain l (total l) h.head

/-- Let `next` follow `before`, or be the first of the list when nothing is before it. -/
def relink (h : Heap) (l : Layout) (before next : Option Block) : Heap :=
  match before with
  | some b => { h with memory := h.memory.setLink b (l.reference next) }
  | none => { h with head := next }

/-- The first free block whose size is at least `size`, and the block before it on the list. -/
def firstFit? (h : Heap) (l : Layout) (size : Nat) : Option (Option Block × Block) :=
  match h.memory.seek l (fun b => size ≤ h.memory.blockSize b) (total l) none h.head with
  | (before, some b) => some (before, b)
  | (_, none) => none

/-- Take `b`, which follows `before`, off the list and mark it in use. It keeps its size: it is
handed out whole. -/
def unlink (h : Heap) (l : Layout) (before : Option Block) (b : Block) : Heap :=
  let skipped := h.relink l before (h.memory.next? l b)
  { skipped with memory := (skipped.memory.setFreed b false).setLink b 0 }

/-- Extend `b` over the header and payload of `next`, and let it be followed by what follows
`next`. -/
def absorb (h : Heap) (b next : Block) : Heap :=
  let size := h.memory.blockSize b + headerSize + h.memory.blockSize next
  let grown := h.memory.setBlockSize b size
  { h with memory := grown.setLink b (grown.link next) }

/-! ## Insertion

In three stages: the block is linked in, merged with the neighbour behind it, and then merged with
the one before it. -/

/-- Link `b` in between two blocks of the list, or at an end of it. -/
def linkBetween (h : Heap) (l : Layout) (before : Option Block) (b : Block)
    (after : Option Block) : Heap :=
  let linked := h.relink l before (some b)
  { linked with memory := linked.memory.setLink b (l.reference after) }

def mergeIfAdjoining (h : Heap) (o : Comparison) (b next : Block) : Heap :=
  if o.adjoins h.memory b next then h.absorb b next else h

/-- Merge `b` with the block behind it, if there is one and it adjoins. -/
def mergeBehind (h : Heap) (o : Comparison) (b : Block) : Option Block → Heap
  | some next => h.mergeIfAdjoining o b next
  | none => h

/-- Merge the block before `b` with it, if there is one and it adjoins. -/
def mergeBefore (h : Heap) (o : Comparison) (b : Block) : Option Block → Heap
  | some previous => h.mergeIfAdjoining o previous b
  | none => h

@[simp] theorem mergeBehind_none (h : Heap) (o : Comparison) (b : Block) :
    h.mergeBehind o b none = h := rfl

@[simp] theorem mergeBefore_none (h : Heap) (o : Comparison) (b : Block) :
    h.mergeBefore o b none = h := rfl

/-- Mark a block free and put it on the list at its place, merged with the neighbour behind it and
then with the one before it, where these adjoin. -/
def insertBy (h : Heap) (o : Comparison) (l : Layout) (b : Block) : Heap :=
  let marked := { h with memory := h.memory.setFreed b true }
  -- An entry at the block's own address counts as before it.
  let (before, after) :=
    marked.memory.seek l (o.comesBefore marked.memory b) (total l) none marked.head
  let placed := marked.linkBetween l before b after
  -- The neighbour behind goes first: what is merged with the one before then includes it.
  (placed.mergeBehind o b after).mergeBefore o b before

def insert (h : Heap) (l : Layout) (b : Block) : Heap := h.insertBy .byPlace l b

/-! ## Carving and forgetting -/

/-- Forget the list. The blocks themselves stay as they are. -/
def clear (h : Heap) : Heap := { h with head := none }

def carve (h : Heap) (b : Block) (size : Nat) : Heap :=
  { h with memory := h.memory.writeHeader b size }

end Heap

end ArenaAlloc

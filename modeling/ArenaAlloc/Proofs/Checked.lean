import ArenaAlloc.Proofs.Refusal

/-!
# Operations with their checks

On its way an operation adds sizes up without asking whether a word holds the sum, and it relies on
conditions that it could assert but never handles. Each such place is a `Check`, with the numbers or
the bytes that it is about.

`Checked` is a value together with the checks that were met on the way to it, in order. The
operations are written once more in it, each `…Checked` beside the plain one that it goes with: what
is computed without a guard is computed by `Checked.sum` and `Checked.difference`, and
`Checked.assert` stands where something is taken for granted. Sums that are guarded (`checkedAdd`,
`checkedMul`, `alignUp`, and the comparisons in `Chunk.hasRoom` and `Chunks.exceeds`) have no check,
for there the operation itself sees to it that nothing goes wrong.

That the two agree is the content of the `value_…Checked` lemmas, up to `Call.value_performChecked`:
with the checks left out, a call with checks *is* the call, in every arena and whatever the call. So
the checks of a call are read off the computation that gives its result, and none of them can be
about numbers that the call does not compute. What the lemmas cannot say is that no place was
forgotten. The list is for comparing that by eye.

* `sum`: the capacity before and after growing, both totals of a reset, the end of a block that is
  compared with the next one of its chunk, and the size of two blocks that are merged.
* `difference`: what growing adds to the capacity.
* `aligned`: a size that is carved, a chunk that is asked for, and a size recorded in merging and
  shrinking.
* `owned`: a pointer that is freed or reallocated.
* `unmarked`: a block that is reallocated, and one that is put on the free list.
* `copied`: the payload of a block that is moved.

`Proofs.Checks` shows that all of them pass where a caller keeps to the contract.
-/

namespace ArenaAlloc

/-- A place where an operation takes something for granted. -/
inductive Check where
  /-- Sizes are added up. -/
  | sum (ns : List Nat)
  /-- `k` is subtracted from `n`. -/
  | difference (n k : Nat)
  /-- A size is taken to be a multiple of the alignment. -/
  | aligned (n : Nat)
  /-- A pointer is taken to be the arena's own. -/
  | owned (c : Chunks) (p : Address)
  /-- A block is taken to be in use. -/
  | unmarked (m : Memory) (b : Block)
  /-- `n` bytes are copied from the payload of one block to that of another. -/
  | copied (m : Memory) (source target : Block) (n : Nat)

namespace Check

def Passes : Check → Prop
  | sum ns => total ns < wordLimit
  | difference n k => k ≤ n
  | aligned n => maxAlign ∣ n
  | owned c p => c.holdsPayload p = true
  | unmarked m b => m.isFreed b = false
  | copied m source target n =>
    n ≤ m.blockSize source ∧ n ≤ m.blockSize target ∧ source ≠ target

instance (k : Check) : Decidable k.Passes :=
  match k with
  | sum ns => inferInstanceAs (Decidable (total ns < wordLimit))
  | difference n k => inferInstanceAs (Decidable (k ≤ n))
  | aligned n => inferInstanceAs (Decidable (maxAlign ∣ n))
  | owned c p => inferInstanceAs (Decidable (c.holdsPayload p = true))
  | unmarked m b => inferInstanceAs (Decidable (m.isFreed b = false))
  | copied _ _ _ _ => inferInstanceAs (Decidable (_ ∧ _ ∧ _))

end Check

/-! ## Values with checks -/

/-- A value and the checks that were met on the way to it, in order. -/
structure Checked (α : Type) where
  value : α
  checks : List Check

namespace Checked

instance : Monad Checked where
  pure a := ⟨a, []⟩
  bind x f := ⟨(f x.value).value, x.checks ++ (f x.value).checks⟩

def assert (k : Check) : Checked Unit := ⟨(), [k]⟩

/-- Add sizes up in words. -/
def sum (ns : List Nat) : Checked Nat := ⟨total ns, [.sum ns]⟩

/-- Subtract `k` from `n` in words. -/
def difference (n k : Nat) : Checked Nat := ⟨n - k, [.difference n k]⟩

variable {α β σ τ ρ κ : Type}

/-- `Outcome.andThen`, for operations with checks. -/
def andThen (x : Checked (Outcome σ ρ)) (next : ρ → σ → Checked (Outcome τ κ)) :
    Checked (Outcome τ κ) := do
  let o ← x
  let o' ← next o.result o.state
  return ⟨o'.result, o'.state, o.events ++ o'.events⟩

/-- All checks on the way pass. -/
def Passes (x : Checked α) : Prop := ∀ k ∈ x.checks, k.Passes

/-- What a program comes to that stops at the first check that does not pass. -/
def guarded (x : Checked α) : Option α :=
  if ∀ k ∈ x.checks, k.Passes then some x.value else none

@[simp] theorem value_pure (a : α) : (pure a : Checked α).value = a := rfl

@[simp] theorem value_bind (x : Checked α) (f : α → Checked β) :
    (x >>= f).value = (f x.value).value := rfl

@[simp] theorem value_sum (ns : List Nat) : (sum ns).value = total ns := rfl

@[simp] theorem value_andThen (x : Checked (Outcome σ ρ)) (next : ρ → σ → Checked (Outcome τ κ)) :
    (x.andThen next).value = x.value.andThen fun result state => (next result state).value := rfl

@[simp] theorem passes_pure (a : α) : (pure a : Checked α).Passes := List.forall_mem_nil _

theorem passes_bind {x : Checked α} {f : α → Checked β} :
    (x >>= f).Passes ↔ x.Passes ∧ (f x.value).Passes := List.forall_mem_append

theorem passes_assert {k : Check} : (assert k).Passes ↔ k.Passes := List.forall_mem_singleton

theorem passes_sum {ns : List Nat} : (sum ns).Passes ↔ total ns < wordLimit :=
  List.forall_mem_singleton

theorem passes_difference {n k : Nat} : (difference n k).Passes ↔ k ≤ n :=
  List.forall_mem_singleton

theorem passes_andThen {x : Checked (Outcome σ ρ)} {next : ρ → σ → Checked (Outcome τ κ)} :
    (x.andThen next).Passes ↔ x.Passes ∧ (next x.value.result x.value.state).Passes := by
  simp only [andThen, passes_bind, passes_pure, and_true]

theorem guarded_of_passes {x : Checked α} (h : x.Passes) : x.guarded = some x.value := if_pos h

end Checked

/-! ## Chunks -/

namespace Growth

def chunkLengthChecked (capacity total factor : Nat) : Checked (Option Nat) :=
  match checkedAdd capacity total with
  | some needed => do
    let added ← Checked.difference (target needed factor capacity) capacity
    return alignUp added
  | none => return none

theorem value_chunkLengthChecked (capacity total factor : Nat) :
    (chunkLengthChecked capacity total factor).value = chunkLength capacity total factor := by
  unfold chunkLengthChecked chunkLength
  cases checkedAdd capacity total <;> rfl

end Growth

namespace Chunks

def nextLengthChecked (c : Chunks) (total : Nat) : Checked (Option Nat) := do
  let capacity ← Checked.sum c.layout
  match ← Growth.chunkLengthChecked capacity total c.growthFactor with
  | none => return none
  | some length => return if c.exceeds length then alignUp total else some length

theorem value_nextLengthChecked (c : Chunks) (n : Nat) :
    (c.nextLengthChecked n).value = c.nextLength n := by
  unfold nextLengthChecked nextLength
  simp only [Checked.value_bind, Checked.value_sum, Growth.value_chunkLengthChecked]
  rw [capacity]
  cases Growth.chunkLength (total c.layout) n c.growthFactor <;> rfl

def growChecked (c : Chunks) (s : Supply) (total : Nat) :
    Checked (Outcome (Chunks × Supply) (Except AllocError Nat)) := do
  match ← c.nextLengthChecked total with
  | none => return ⟨.error (.sizeOverflow 1 total), (c, s), []⟩
  | some length =>
    match c.ceiling, c.exceeds length with
    | some limit, true =>
      return ⟨.error (.capacityExceeded length c.capacity limit), (c, s),
        [.growthRefused c.capacity length limit]⟩
    | _, _ =>
      if chunkLimit ≤ c.count then return ⟨.error (.outOfMemory 0), (c, s), []⟩
      else do
        Checked.assert (.aligned length)
        match s.obtain length with
        | .error e => return ⟨.error e, (c, s), [.growthFailed c.capacity length e]⟩
        | .ok s' => do
          let grown := { c with list := c.list ++ [{ length }], current := c.count }
          -- Only the log asks for this sum, and only where logging is on.
          let capacity ← Checked.sum grown.layout
          return ⟨.ok c.count, (grown, s'), [.grew c.count length capacity]⟩

theorem value_growChecked (c : Chunks) (s : Supply) (n : Nat) :
    (c.growChecked s n).value = c.grow s n := by
  unfold growChecked grow
  simp only [Checked.value_bind, value_nextLengthChecked]
  cases c.nextLength n with
  | none => rfl
  | some length =>
    dsimp only
    -- What comes after the test of the ceiling is the same without one and where it is kept.
    cases c.ceiling <;> cases c.exceeds length
    case some.true => rfl
    all_goals
      dsimp only
      split
      · rfl
      · cases s.obtain length <;> rfl

def carveChecked (c : Chunks) (s : Supply) (size : Nat) :
    Checked (Outcome (Chunks × Supply) (Except AllocError Block)) := do
  Checked.assert (.aligned size)
  match (c.roomFor? size).bind (c.carveAt · size) with
  | some (b, c') => return ⟨.ok b, (c', s), []⟩
  | none =>
    match checkedAdd size headerSize with
    | none => return ⟨.error (.sizeOverflow 1 size), (c, s), []⟩
    | some total =>
      (c.growChecked s total).andThen fun grown after =>
        match grown with
        | .error e => return ⟨.error e, after, []⟩
        | .ok index => do
          Checked.assert (.aligned size)
          match after.1.carveAt index size with
          | some (b, c') => return ⟨.ok b, (c', after.2), []⟩
          | none => return ⟨.error (.outOfMemory total), after, []⟩

theorem value_carveChecked (c : Chunks) (s : Supply) (size : Nat) :
    (c.carveChecked s size).value = c.carve s size := by
  unfold carveChecked carve
  simp only [Checked.value_bind]
  cases (c.roomFor? size).bind (c.carveAt · size) with
  | some found => rfl
  | none =>
    cases checkedAdd size headerSize with
    | none => rfl
    | some n =>
      simp only [Checked.value_andThen, value_growChecked]
      congr
      funext grown after
      cases grown with
      | error e => rfl
      | ok index =>
        simp only [Checked.value_bind]
        cases after.1.carveAt index size <;> rfl

end Chunks

/-! ## The free list -/

/-- Where the first block ends is worked out only when the tags are the same. -/
def Memory.adjoinsChecked (m : Memory) (b next : Block) : Checked Bool :=
  if m.tag b = m.tag next then do
    let stop ← Checked.sum [b.start, headerSize, m.blockSize b]
    return b.chunk == next.chunk && stop == next.start
  else return false

theorem Memory.value_adjoinsChecked (m : Memory) (b next : Block) :
    (m.adjoinsChecked b next).value = m.adjoins b next := by
  unfold adjoinsChecked adjoins
  split
  · rename_i htag
    have hstop : total [b.start, headerSize, m.blockSize b] = m.blockEnd b := by
      simp only [total_cons, total_nil, blockEnd, Nat.add_zero, Nat.add_assoc]
    simp only [Checked.value_bind, Checked.value_sum, Checked.value_pure, hstop, htag, BEq.rfl,
      Bool.true_and]
  · rename_i htag
    simp only [Checked.value_pure, beq_false_of_ne htag, Bool.false_and]

namespace Heap

def mergeChecked (h : Heap) (b next : Block) : Checked Heap := do
  if ← h.memory.adjoinsChecked b next then
    let size ← Checked.sum [h.memory.blockSize b, headerSize, h.memory.blockSize next]
    Checked.assert (.aligned size)
    let grown := h.memory.setBlockSize b size
    return { h with memory := grown.setLink b (grown.link next) }
  else return h

theorem value_mergeChecked (h : Heap) (b next : Block) :
    (h.mergeChecked b next).value = h.mergeIfAdjoining .byPlace b next := by
  have hsize : total [h.memory.blockSize b, headerSize, h.memory.blockSize next] =
      h.memory.blockSize b + headerSize + h.memory.blockSize next := by
    simp only [total_cons, total_nil, Nat.add_zero, Nat.add_assoc]
  unfold mergeChecked mergeIfAdjoining absorb
  simp only [Checked.value_bind, Memory.value_adjoinsChecked, Comparison.adjoins_byPlace]
  split
  · simp only [Checked.value_bind, Checked.value_sum, Checked.value_pure, hsize]
  · rfl

def mergeBehindChecked (h : Heap) (b : Block) : Option Block → Checked Heap
  | some next => h.mergeChecked b next
  | none => return h

def mergeBeforeChecked (h : Heap) (b : Block) : Option Block → Checked Heap
  | some previous => h.mergeChecked previous b
  | none => return h

theorem value_mergeBehindChecked (h : Heap) (b : Block) (after : Option Block) :
    (h.mergeBehindChecked b after).value = h.mergeBehind .byPlace b after := by
  cases after with
  | none => rfl
  | some next => exact h.value_mergeChecked b next

theorem value_mergeBeforeChecked (h : Heap) (b : Block) (before : Option Block) :
    (h.mergeBeforeChecked b before).value = h.mergeBefore .byPlace b before := by
  cases before with
  | none => rfl
  | some previous => exact h.value_mergeChecked previous b

def insertChecked (h : Heap) (l : Layout) (b : Block) : Checked Heap := do
  Checked.assert (.unmarked h.memory b)
  let marked := { h with memory := h.memory.setFreed b true }
  let (before, after) :=
    marked.memory.seek l (marked.memory.comesBefore b) (total l) none marked.head
  let merged ← (marked.linkBetween l before b after).mergeBehindChecked b after
  merged.mergeBeforeChecked b before

theorem value_insertChecked (h : Heap) (l : Layout) (b : Block) :
    (h.insertChecked l b).value = h.insert l b := by
  simp only [insertChecked, insert, insertBy, Comparison.comesBefore_byPlace, Checked.value_bind,
    value_mergeBehindChecked, value_mergeBeforeChecked]

end Heap

/-! ## The arena -/

namespace Arena

def takeBlockChecked (a : Arena) (s : Supply) (size : Nat) :
    Checked (Outcome (Arena × Supply) (Except AllocError Block)) :=
  match alignUp size with
  | none => return ⟨.error (.sizeOverflow 1 size), (a, s), []⟩
  | some aligned =>
    match a.heap.firstFit? a.layout aligned with
    | some (before, b) =>
      return ⟨.ok b, ({ a with heap := a.heap.unlink a.layout before b }, s), []⟩
    | none =>
      (a.chunks.carveChecked s aligned).andThen fun carved after =>
        match carved with
        | .error e => return ⟨.error e, ({ a with chunks := after.1 }, after.2), []⟩
        | .ok b =>
          return ⟨.ok b, ({ chunks := after.1, heap := a.heap.carve b aligned }, after.2), []⟩

theorem value_takeBlockChecked (a : Arena) (s : Supply) (size : Nat) :
    (a.takeBlockChecked s size).value = a.takeBlock s size := by
  unfold takeBlockChecked takeBlock
  cases alignUp size with
  | none => rfl
  | some n =>
    dsimp only
    cases a.heap.firstFit? a.layout n with
    | some found => rfl
    | none =>
      simp only [Checked.value_andThen, Chunks.value_carveChecked]
      congr
      funext carved after
      cases carved <;> rfl

def giveBlockChecked (a : Arena) (b : Block) : Checked (Outcome Arena Unit) :=
  if a.heap.memory.isFreed b then return ⟨(), a, [.alreadyFreed b.payload]⟩
  else do
    let heap ← a.heap.insertChecked a.layout b
    return ⟨(), { a with heap }, []⟩

theorem value_giveBlockChecked (a : Arena) (b : Block) :
    (a.giveBlockChecked b).value = a.giveBlock b := by
  unfold giveBlockChecked giveBlock
  split
  · rfl
  · simp only [Checked.value_bind, Heap.value_insertChecked, Checked.value_pure]

def allocateChecked (a : Arena) (s : Supply) (size : Nat) :
    Checked (Outcome (Arena × Supply) (Except AllocError Address)) := do
  let o ← a.takeBlockChecked s size
  return o.map fun taken => taken.map Block.payload

theorem value_allocateChecked (a : Arena) (s : Supply) (size : Nat) :
    (a.allocateChecked s size).value = a.allocate s size := by
  simp only [allocateChecked, allocate, Checked.value_bind, value_takeBlockChecked,
    Checked.value_pure]

def zeroAllocateChecked (a : Arena) (s : Supply) (count size : Nat) :
    Checked (Outcome (Arena × Supply) (Except AllocError Address)) :=
  match checkedMul count size with
  | none => return ⟨.error (.sizeOverflow count size), (a, s), []⟩
  | some total =>
    (a.takeBlockChecked s total).andThen fun taken after =>
      match taken with
      | .error e => return ⟨.error e, after, []⟩
      | .ok b => return ⟨.ok b.payload, (after.1.zeroPayload b, after.2), []⟩

theorem value_zeroAllocateChecked (a : Arena) (s : Supply) (count size : Nat) :
    (a.zeroAllocateChecked s count size).value = a.zeroAllocate s count size := by
  unfold zeroAllocateChecked zeroAllocate
  cases checkedMul count size with
  | none => rfl
  | some n =>
    simp only [Checked.value_andThen, value_takeBlockChecked]
    congr
    funext taken after
    cases taken <;> rfl

/-- The second half of a reallocation: the payload of `b` moves to a block of `n` bytes. -/
def moveChecked (a : Arena) (s : Supply) (b : Block) (n : Nat) :
    Checked (Outcome (Arena × Supply) (Except AllocError Address)) :=
  (a.takeBlockChecked s n).andThen fun taken after =>
    match taken with
    | .error e => return ⟨.error e, after, []⟩
    | .ok target => do
      let memory := after.1.heap.memory
      Checked.assert (.copied memory b target (memory.blockSize b))
      let given ← (after.1.copyPayload b target).giveBlockChecked b
      return (given.map fun _ => .ok target.payload).mapState (·, after.2)

def reallocateChecked (a : Arena) (s : Supply) (p : Option Address) (size : Nat) :
    Checked (Outcome (Arena × Supply) (Except AllocError Address)) :=
  match p with
  | none => a.allocateChecked s size
  | some p => do
    Checked.assert (.owned a.chunks p)
    match alignUp size with
    | none => return ⟨.error (.sizeOverflow 1 size), (a, s), []⟩
    | some aligned => do
      let b := Block.ofPayload p
      Checked.assert (.unmarked a.heap.memory b)
      if aligned ≤ a.heap.memory.blockSize b then do
        Checked.assert (.aligned aligned)
        return ⟨.ok p, (a.shrinkBlock b aligned, s), []⟩
      else a.moveChecked s b aligned

theorem value_reallocateChecked (a : Arena) (s : Supply) (p : Option Address) (size : Nat) :
    (a.reallocateChecked s p size).value = a.reallocate s p size := by
  unfold reallocateChecked reallocate moveChecked
  cases p with
  | none => exact a.value_allocateChecked s size
  | some p =>
    simp only [Checked.value_bind]
    cases alignUp size with
    | none => rfl
    | some n =>
      simp only [Checked.value_bind]
      split
      · rfl
      · simp only [Checked.value_andThen, value_takeBlockChecked]
        congr
        funext taken after
        cases taken with
        | error e => rfl
        | ok target =>
          simp only [Checked.value_bind, value_giveBlockChecked, Checked.value_pure]

def freeChecked (a : Arena) (p : Option Address) : Checked (Outcome Arena Unit) :=
  match p with
  | none => return ⟨(), a, []⟩
  | some p => do
    Checked.assert (.owned a.chunks p)
    a.giveBlockChecked (Block.ofPayload p)

theorem value_freeChecked (a : Arena) (p : Option Address) :
    (a.freeChecked p).value = a.free p := by
  cases p with
  | none => rfl
  | some p => exact a.value_giveBlockChecked (Block.ofPayload p)

/-- As in growing, it is for the log that the sizes are added up. -/
def resetChecked (a : Arena) : Checked (Outcome Arena Unit) := do
  let used ← Checked.sum (a.chunks.list.map Chunk.used)
  let capacity ← Checked.sum a.layout
  return ⟨(), { chunks := a.chunks.rewind, heap := a.heap.clear }, [.reset used capacity]⟩

theorem value_resetChecked (a : Arena) : a.resetChecked.value = a.reset := rfl

end Arena

/-! ## Calls -/

namespace Call

/-- A call with the checks on its way. What a caller stores on its own has none. -/
def performChecked (c : Call) (a : Arena) :
    Checked (Outcome (Arena × Option Supply) (Except AllocError (Option Address))) :=
  match c with
  | .allocate s size => return ofRequest (← a.allocateChecked s size)
  | .zeroAllocate s count size => return ofRequest (← a.zeroAllocateChecked s count size)
  | .reallocate s p size => return ofRequest (← a.reallocateChecked s (p.map Block.payload) size)
  | .free p => return ⟨.ok none, ((← a.freeChecked (p.map Block.payload)).state, none), []⟩
  | .reset => return ⟨.ok none, ((← a.resetChecked).state, none), []⟩
  | .write b offset n f => return (Call.write b offset n f).perform a

/-- **Without its checks a call with checks is the call.** -/
theorem value_performChecked (c : Call) (a : Arena) : (c.performChecked a).value = c.perform a := by
  cases c with
  | allocate s size =>
    simp only [performChecked, perform, Checked.value_bind, Arena.value_allocateChecked,
      Checked.value_pure]
  | zeroAllocate s count size =>
    simp only [performChecked, perform, Checked.value_bind, Arena.value_zeroAllocateChecked,
      Checked.value_pure]
  | reallocate s p size =>
    simp only [performChecked, perform, Checked.value_bind, Arena.value_reallocateChecked,
      Checked.value_pure]
  | free p =>
    simp only [performChecked, perform, Checked.value_bind, Arena.value_freeChecked,
      Checked.value_pure]
  | reset => rfl
  | write b offset n f => rfl

/-- Everything that the call takes for granted on its way. -/
def checks (c : Call) (a : Arena) : List Check := (c.performChecked a).checks

end Call

end ArenaAlloc

import ArenaAlloc.Arena.Access
import ArenaAlloc.Proofs.Header

/-!
# Sessions

A `Session` is an arena together with a `Ledger` of what went on between it and its caller since the
last reset. The arena knows nothing of the ledger; the ledger is what a caller could keep, and it is
there to say which calls keep to the contract and what the arena owes in return.

`Respects` is the contract: whatever is reallocated or written to is in use, and whatever is freed
is in use or was freed before and no byte of it was handed out again. `Tolerates` also lets a block
be freed again that was handed out again as a part of another, as long as nobody stored an even byte
where its mark is.

Every call comes with a supply of its own, so that a chunk may be refused in any of them.

The ledger has what a contract has to mention and the arena does not record: which blocks were
handed out and not given back, and which given-back blocks are still as they were. It has no
addresses that the caller did not get; it is fed with the arena's answers and with the sizes that
blocks have. What was last stored at an address is kept too, since whether a mark can be trusted
depends on it.

Two contracts are used. Most results are about every run that `Respects` or even `Tolerates` allows,
and those about a caller who frees twice are about what is in `Tolerates` and not in `Respects`.
Both are decidable, so that runs on given calls can be checked by evaluation. `Reachable` and
`Keeps` take the contract as a parameter, so that what depends on neither is stated once.
-/

namespace ArenaAlloc

/-! ## The ledger -/

/-- What went on between an arena and its caller since the last reset. -/
structure Ledger where
  /-- Every block that was handed out. -/
  issued : List Block := []
  /-- The blocks in use. -/
  live : List Block := []
  /-- The blocks given back of which no byte was handed out again, with the sizes they had. -/
  retired : List Extent := []
  /-- What shrinking cut off. -/
  tails : List Span := []
  /-- What the caller, a zero fill or a copy last stored at an address. -/
  stored : Address → Option UInt8 := fun _ => none

namespace Ledger

def handOut (l : Ledger) (e : Extent) : Ledger :=
  { l with
    issued := e.block :: l.issued
    live := e.block :: l.live
    retired := l.retired.filter fun r => !r.overlaps e }

def takeBack (l : Ledger) (e : Extent) : Ledger :=
  { l with live := l.live.erase e.block, retired := e :: l.retired }

/-- The block of the extent shrinks to `size` bytes. -/
def shrink (l : Ledger) (e : Extent) (size : Nat) : Ledger :=
  { l with tails := e.tail size ++ l.tails }

def store (l : Ledger) (p : Address) (n : Nat) (f : Nat → UInt8) : Ledger :=
  { l with stored := fun x => if x.InRange p n then some (f (x.offset - p.offset)) else l.stored x }

theorem store_congr (l : Ledger) (p : Address) {n : Nat} {f g : Nat → UInt8}
    (h : ∀ i < n, f i = g i) : l.store p n f = l.store p n g := by
  rw [store, store]
  congr
  funext x
  split
  · rename_i hx
    rw [h _ (Nat.sub_lt_left_of_lt_add hx.2.1 hx.2.2)]
  · rfl

end Ledger

/-! ## Calls and sessions

Each call changes the arena by the operation and the ledger by what came of it. A failed request
changes no ledger, since nothing was handed out; a reallocation is a shrinking if the pointer stays,
and otherwise a request, a copy and a free. -/

/-- What a caller can do with an arena. -/
inductive Call where
  | allocate (supply : Supply) (size : Nat)
  | zeroAllocate (supply : Supply) (count size : Nat)
  | reallocate (supply : Supply) (p : Option Block) (size : Nat)
  | free (p : Option Block)
  | reset
  /-- The caller sets `n` bytes of a payload, from its byte number `offset` on. -/
  | write (b : Block) (offset n : Nat) (f : Nat → UInt8)

structure Session where
  arena : Arena
  ledger : Ledger := {}

namespace Session

/-- A block with the size that its header records. -/
def extent (s : Session) (b : Block) : Extent := s.arena.heap.memory.extent b

/-- The blocks in use and those on the free list. -/
def blocks (s : Session) : List Block := s.ledger.live ++ s.arena.freeList

/-- Header and payload of each of these, and what shrinking cut off. -/
def spans (s : Session) : List Span :=
  s.blocks.map (fun b => (s.extent b).span) ++ s.ledger.tails

/-- The session after a call that asked for a block and nothing else. -/
def grant (s : Session) (o : Outcome (Arena × Supply) (Except AllocError Address)) : Session :=
  match o.result with
  | .error _ => { s with arena := o.state.1 }
  | .ok p => ⟨o.state.1, s.ledger.handOut (o.state.1.heap.memory.extent (.ofPayload p))⟩

/-- The session after `zeroAllocate`. The zeros count as stored. -/
def zeroAllocate (s : Session) (supply : Supply) (count size : Nat) : Session :=
  let o := s.arena.zeroAllocate supply count size
  match o.result with
  | .error _ => { s with arena := o.state.1 }
  | .ok p =>
    let e := o.state.1.heap.memory.extent (.ofPayload p)
    ⟨o.state.1, (s.ledger.handOut e).store p e.size fun _ => 0⟩

/-- The session after `reallocate` of a block. If the pointer stays, the block shrank. Otherwise the
bytes of its payload count as stored in the new one. -/
def reallocate (s : Session) (supply : Supply) (b : Block) (size : Nat) : Session :=
  let o := s.arena.reallocate supply (some b.payload) size
  match o.result with
  | .error _ => { s with arena := o.state.1 }
  | .ok p =>
    let e := o.state.1.heap.memory.extent (.ofPayload p)
    let old := s.extent b
    if p = b.payload then ⟨o.state.1, s.ledger.shrink old e.size⟩
    else
      let moved := (s.ledger.handOut e).store p old.size fun i =>
        s.arena.heap.memory.byte (b.payload.plus i)
      ⟨o.state.1, moved.takeBack old⟩

/-- The session after `free`. A block that is not in use was freed before. -/
def free (s : Session) (p : Option Block) : Session :=
  ⟨(s.arena.free (p.map Block.payload)).state,
    match p with
    | some b => if b ∈ s.ledger.live then s.ledger.takeBack (s.extent b) else s.ledger
    | none => s.ledger⟩

def write (s : Session) (b : Block) (offset n : Nat) (f : Nat → UInt8) : Session :=
  ⟨s.arena.write (b.payload.plus offset) n f, s.ledger.store (b.payload.plus offset) n f⟩

def step (s : Session) : Call → Session
  | .allocate supply size => s.grant (s.arena.allocate supply size)
  | .zeroAllocate supply count size => s.zeroAllocate supply count size
  | .reallocate supply none size => s.grant (s.arena.reallocate supply none size)
  | .reallocate supply (some b) size => s.reallocate supply b size
  | .free p => s.free p
  | .reset => { arena := s.arena.reset.state }
  | .write b offset n f => s.write b offset n f

/-! ## Contracts

What a caller has to do, and what it may do in addition. Requests and resets are always allowed.
Where a block has to be in use, that is looked up in the ledger, and not in the arena: a contract
that asked the arena would be met by a mistake of the arena. -/

/-- The call keeps to the contract. -/
def Respects (s : Session) : Call → Prop
  | .reallocate _ p _ => ∀ b ∈ p, b ∈ s.ledger.live
  | .free p => ∀ b ∈ p, b ∈ s.ledger.live ∨ b ∈ s.ledger.retired.map Extent.block
  | .write b offset n _ => b ∈ s.ledger.live ∧ offset + n ≤ s.arena.heap.memory.blockSize b
  | .allocate .. | .zeroAllocate .. | .reset => True

/-- No even byte was stored where the block has its mark. -/
def MarkStands (s : Session) (b : Block) : Prop :=
  ∀ v ∈ s.ledger.stored (b.headerByte 20), v.toNat % 2 = 1

/-- The call keeps to the contract, or frees a block again whose mark stands. -/
def Tolerates (s : Session) : Call → Prop
  | .free p => ∀ b ∈ p, b ∈ s.ledger.live ∨ b ∈ s.ledger.issued ∧ s.MarkStands b
  | c => s.Respects c

instance (s : Session) (b : Block) : Decidable (s.MarkStands b) :=
  inferInstanceAs (Decidable (∀ v ∈ s.ledger.stored (b.headerByte 20), _))

instance (s : Session) (c : Call) : Decidable (s.Respects c) :=
  match c with
  | .reallocate _ p _ => inferInstanceAs (Decidable (∀ b ∈ p, b ∈ s.ledger.live))
  | .free p => inferInstanceAs (Decidable (∀ b ∈ p, _ ∨ _))
  | .write _ _ _ _ => inferInstanceAs (Decidable (_ ∧ _))
  | .allocate .. | .zeroAllocate .. | .reset => inferInstanceAs (Decidable True)

instance (s : Session) (c : Call) : Decidable (s.Tolerates c) :=
  match c with
  | .free p => inferInstanceAs (Decidable (∀ b ∈ p, _ ∨ _ ∧ s.MarkStands b))
  | .reallocate x p n => inferInstanceAs (Decidable (s.Respects (.reallocate x p n)))
  | .write b k n f => inferInstanceAs (Decidable (s.Respects (.write b k n f)))
  | .allocate .. | .zeroAllocate .. | .reset => inferInstanceAs (Decidable True)

/-- The sessions that calls within a contract lead to, from a new arena of any accepted
configuration on. -/
inductive Reachable (contract : Session → Call → Prop) : Session → Prop
  | new (config : Config) (supply : Supply) {a : Arena}
      (h : (Arena.create config supply).result = .ok a) : Reachable contract { arena := a }
  | step {s : Session} {c : Call} (h : Reachable contract s) (hc : contract s c) :
      Reachable contract (s.step c)

/-- A session with a new arena of one chunk, without a ceiling. -/
def ofLength (length : Nat) : Session :=
  { arena := { chunks := { list := [{ length }], growthFactor := 2, ceiling := none } } }

theorem Reachable.ofLength (contract : Session → Call → Prop) {length : Nat}
    (hmin : headerSize ≤ length) (hmax : length ≤ requestLimit) (hdvd : maxAlign ∣ length) :
    Reachable contract (ofLength length) := by
  have hword : length + (maxAlign - 1) < wordLimit :=
    Nat.lt_of_le_of_lt (Nat.add_le_add_right hmax _) (by decide)
  have halign : alignUp length = some length :=
    alignUp_eq_some.2 ⟨hword, Nat.le_refl _, Nat.lt_add_of_pos_right (by decide),
      Nat.mod_eq_zero_of_dvd hdvd⟩
  have hvalid : Config.validate { initialCapacity := length } = .ok () := by
    refine Config.validate_eq_ok_iff.2
      (Config.fault?_eq_none_iff.2 ⟨hmin, hword, Nat.le_refl 2, ?_⟩)
    intro limit hlimit
    cases hlimit
  have hobtain : Supply.unlimited.obtain length = .ok { Supply.unlimited with held := length } := by
    have hne : length ≠ 0 := Nat.ne_of_gt (Nat.lt_of_lt_of_le (by decide) hmin)
    simp [Supply.obtain, Supply.grants, Supply.unlimited, halign, hne, hmax]
  refine .new { initialCapacity := length } .unlimited ?_
  simp only [Arena.create, hvalid, Chunks.create, halign, hobtain]
  rfl

/-! ## Runs

Calls one after another from a given session. `Keeps` asks of each call that it is allowed where it
is made, so it speaks of all sessions on the way. -/

/-- The session after calls one after the other. -/
def run (s : Session) (cs : List Call) : Session := cs.foldl step s

/-- Each of the calls keeps to the contract where it is made. -/
def Keeps (contract : Session → Call → Prop) : Session → List Call → Prop
  | _, [] => True
  | s, c :: cs => contract s c ∧ Keeps contract (s.step c) cs

instance decidableKeeps (contract : Session → Call → Prop) [∀ s c, Decidable (contract s c)] :
    ∀ s cs, Decidable (Keeps contract s cs)
  | _, [] => inferInstanceAs (Decidable True)
  | s, c :: cs =>
    have := decidableKeeps contract (s.step c) cs
    inferInstanceAs (Decidable (contract s c ∧ Keeps contract (s.step c) cs))

theorem Reachable.run {contract : Session → Call → Prop} {s : Session} (h : Reachable contract s)
    {cs : List Call} (hk : Keeps contract s cs) : Reachable contract (s.run cs) := by
  induction cs generalizing s with
  | nil => exact h
  | cons c cs ih => exact ih (h.step hk.1) hk.2

end Session

end ArenaAlloc

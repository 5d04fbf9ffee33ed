import ArenaAlloc.Pattern
import ArenaAlloc.Proofs.Reallocation

/-!
# Payloads carried along

A caller that keeps reallocating a block holds a different block after every move, and what it
stored at the front is carried along: `Session.follow` is the block that the caller holds after a
call, and `Carries` says that its first bytes are those of the block before. Any number of calls
carry as many bytes as every reallocation on the way asked for (`carries_run`), whatever else is
allocated, freed and written in between.

## What a caller may do in between

`Spares` lists what would spoil the bytes, and everything else is allowed: freeing the block itself,
a reset, a store of the caller into these bytes, or a reallocation to fewer. Other blocks may be
allocated, reallocated, freed and written at will. The prefix has a fixed length `k` over the whole
run; a caller that shrinks the block on the way to less than that has given up the rest.

## Following a block

The caller's block is not a constant of the run: a reallocation that is granted answers with another
pointer, and the next call that is about "the block" must use that one. `follow` is this step and
`followed` its iteration; both are read off the answers. `Carries` relates the bytes of the block
then with those of the block now, and it is transitive (`Carries.trans`), so a run is an induction
on the calls with one call as its step.

One call falls into two cases: the call is about another block, and then the block stays and no
store reaches it; or it is a reallocation of the block itself, and then it stays in place or moves,
by the two cases of `Proofs.Reallocation`.
-/

namespace ArenaAlloc

/-! ## Calls about another block

That the block stays in use, with its size, follows from the invariant alone for every operation: an
extent of the tiling is only taken out by a call that names it. -/

namespace Call

/-- The call neither reallocates the block nor ends its use. -/
def Leaves (b : Block) : Call → Prop
  | .reallocate _ p _ | .free p => p ≠ some b
  | .reset => False
  | .allocate .. | .zeroAllocate .. | .write .. => True

/-- The call keeps the block in use and stores nothing in its first `k` bytes. It may reallocate it,
but not to fewer bytes than these. -/
def Spares (b : Block) (k : Nat) : Call → Prop
  | .reallocate _ p size => p = some b → ∀ n ∈ alignUp size, k ≤ n
  | .free p => p ≠ some b
  | .reset => False
  | .write d offset _ _ => d = b → k ≤ offset
  | .allocate .. | .zeroAllocate .. => True

instance (b : Block) (k : Nat) (c : Call) : Decidable (c.Spares b k) :=
  match c with
  | .reallocate _ p size =>
    inferInstanceAs (Decidable (p = some b → ∀ n ∈ alignUp size, k ≤ n))
  | .free p => inferInstanceAs (Decidable (p ≠ some b))
  | .reset => inferInstanceAs (Decidable False)
  | .write d offset _ _ => inferInstanceAs (Decidable (d = b → k ≤ offset))
  | .allocate .. | .zeroAllocate .. => inferInstanceAs (Decidable True)

end Call

namespace Session

variable {s s' s'' : Session} {t t' : Tiling} {b d q : Block} {c : Call} {e f old : Extent}
  {k n size : Nat} {g : Supply}

theorem step_reallocate_of_error {err : AllocError}
    (hr : (s.arena.reallocate g (some b.payload) size).result = .error err) :
    s.step (.reallocate g (some b) size) = s := by
  refine step_of_error (e := err) ?_
  show Except.map some (s.arena.reallocate g (some b.payload) size).result = _
  rw [hr]
  rfl

/-- A call whose block is refused changes nothing. -/
theorem step_of_takes {err : AllocError} (hc : c.Takes s.arena g n)
    (hr : (s.arena.takeBlock g n).result = .error err) : s.step c = s := by
  refine step_of_error (e := err) ?_
  rw [hc.result, hr]
  rfl

namespace Invariant

/-- A block that is handed out is another one. -/
theorem keeps_allocate (h : s.Invariant t) (hf : f ∈ t.live) (g : Supply) (n : Nat) :
    ∃ t', (s.step (.allocate g n)).Invariant t' ∧ f ∈ t'.live := by
  rcases h.sound.takeBlock_cases g n with ⟨err, hr, -⟩ | ⟨e, t', hr, -, ht⟩
  · rw [step_of_takes (Call.takes_allocate _ g n) hr]
    exact ⟨t, h, hf⟩
  · exact ⟨t', allocate_of_taken h hr ht, ht.mem_live_of_mem hf⟩

theorem keeps_zeroAllocate (h : s.Invariant t) (hf : f ∈ t.live) (g : Supply) (count size : Nat) :
    ∃ t', (s.step (.zeroAllocate g count size)).Invariant t' ∧ f ∈ t'.live := by
  cases hmul : checkedMul count size with
  | none =>
    have hsame : s.step (.zeroAllocate g count size) = s := by
      simp only [step, zeroAllocate, Arena.zeroAllocate, hmul]
    rw [hsame]
    exact ⟨t, h, hf⟩
  | some n =>
    rcases h.sound.takeBlock_cases g n with ⟨err, hr, -⟩ | ⟨e, t', hr, -, ht⟩
    · rw [step_of_takes (Call.takes_zeroAllocate hmul) hr]
      exact ⟨t, h, hf⟩
    · refine ⟨t', ?_, ht.mem_live_of_mem hf⟩
      rw [step, zeroAllocate_of_taken hmul hr ht]
      exact (h.handOut ht).store ht.mem_live fun x hx => hx

/-- Reallocating another block shortens that one, or gives that one back. -/
theorem keeps_reallocate (h : s.Invariant t) (hf : f ∈ t.live) (hold : old ∈ t.live)
    (hne : f ≠ old) (g : Supply) (size : Nat) :
    ∃ t', (s.step (.reallocate g (some old.block) size)).Invariant t' ∧ f ∈ t'.live := by
  -- In each of the cases the live list loses `old` and may gain another.
  have hmem : ∀ {es : List Extent}, f ∈ es → f ∈ es.erase old := fun hes =>
    (List.mem_erase_of_ne hne).2 hes
  rcases reallocate_cases h hold g size with ⟨err, hr⟩ | ⟨n, halign, ⟨hle, hstep⟩ |
    ⟨hgrows, e, t', f', hle, ht, hstep⟩⟩
  · rw [step_reallocate_of_error hr]
    exact ⟨t, h, hf⟩
  · rw [hstep]
    exact ⟨_, Invariant.shrink h hold hle (dvd_of_alignUp halign),
      List.mem_cons_of_mem _ (hmem hf)⟩
  · rw [hstep]
    have hge : old.size ≤ e.size := Nat.le_of_lt (Nat.lt_of_lt_of_le hgrows hle)
    have hstore := (h.handOut ht).store (n := old.size) (f := f') ht.mem_live
      fun x hx => hx.mono hge
    exact ⟨_, hstore.takeBack (ht.mem_live_of_mem hold), hmem (ht.mem_live_of_mem hf)⟩

/-- Freeing another block gives that one back. -/
theorem keeps_free (h : s.Invariant t) (hf : f ∈ t.live) {p : Option Block}
    (hc : s.Tolerates (.free p)) (hne : p ≠ some f.block) :
    ∃ t', (s.step (.free p)).Invariant t' ∧ f ∈ t'.live := by
  cases p with
  | none => exact ⟨t, h, hf⟩
  | some d =>
    by_cases hlive : d ∈ s.ledger.live
    · obtain ⟨old, hold, rfl⟩ := h.exists_live hlive
      have hne' : f ≠ old := fun heq => hne (heq ▸ rfl)
      exact ⟨_, h.freed hold, (List.mem_erase_of_ne hne').2 hf⟩
    · rw [step, free_of_not_live h hc hlive]
      exact ⟨t, h, hf⟩

/-- **A block that a call leaves** stays in use, as long as it was. -/
theorem keeps_live (h : s.Invariant t) (hc : s.Tolerates c) (hf : f ∈ t.live)
    (hleaves : c.Leaves f.block) : ∃ t', (s.step c).Invariant t' ∧ f ∈ t'.live := by
  cases c with
  | allocate g n => exact h.keeps_allocate hf g n
  | zeroAllocate g count size => exact h.keeps_zeroAllocate hf g count size
  | reallocate g p size =>
    cases p with
    | none => exact h.keeps_allocate hf g size
    | some d =>
      obtain ⟨old, hold, rfl⟩ := h.exists_live (hc d rfl)
      exact h.keeps_reallocate hf hold (fun heq => hleaves (heq ▸ rfl)) g size
  | free p => exact h.keeps_free hf hc hleaves
  | reset => exact hleaves.elim
  | write d offset n g =>
    obtain ⟨hd, hn⟩ := hc
    obtain ⟨e, he, rfl⟩ := h.exists_live hd
    rw [h.sound.blockSize_eq (Tiling.mem_of_live he)] at hn
    exact ⟨t, Invariant.store h he (range_of_written hn), hf⟩

end Invariant

/-! ## One call -/

/-- The block that a caller holds after a call if it held `b` before. A reallocation of it that is
granted answers with the place. -/
def follow (s : Session) (b : Block) : Call → Block
  | .reallocate supply (some d) size =>
    if d = b then
      match (s.arena.reallocate supply (some b.payload) size).result with
      | .ok p => .ofPayload p
      | .error _ => b
    else b
  | _ => b

/-- The block `q` is in use in `s'`, and its first `k` bytes are those of `b` in `s`. -/
structure Carries (s s' : Session) (b q : Block) (k : Nat) : Prop where
  live : q ∈ s'.ledger.live
  le : k ≤ s'.arena.heap.memory.blockSize q
  bytes : ∀ i < k,
    s'.arena.heap.memory.byte (q.payload.plus i) = s.arena.heap.memory.byte (b.payload.plus i)

namespace Carries

theorem refl (hb : b ∈ s.ledger.live) (hk : k ≤ s.arena.heap.memory.blockSize b) :
    s.Carries s b b k := ⟨hb, hk, fun _ _ => rfl⟩

theorem trans (h : s.Carries s' b d k) (h' : s'.Carries s'' d q k) : s.Carries s'' b q k :=
  ⟨h'.live, h'.le, fun i hi => (h'.bytes i hi).trans (h.bytes i hi)⟩

end Carries

/-- A call about another block leaves the caller with the block it has. -/
theorem follow_of_leaves (hc : c.Leaves b) : s.follow b c = b := by
  cases c with
  | reallocate g p size =>
    cases p with
    | none => rfl
    | some d => exact if_neg fun heq => hc (congrArg some heq)
  | allocate g n => rfl
  | zeroAllocate g count size => rfl
  | free p => rfl
  | reset => rfl
  | write d offset n g => rfl

/-- A reallocation that is granted answers with the block that the caller holds next. -/
theorem follow_reallocate {p : Address}
    (hr : (s.arena.reallocate g (some b.payload) size).result = .ok p) :
    s.follow b (.reallocate g (some b) size) = .ofPayload p := by
  simp only [follow, if_true, hr]

/-- The first bytes of a payload are in it. -/
theorem inRange_plus (hk : k ≤ f.size) {i : Nat} (hi : i < k) :
    (f.block.payload.plus i).InRange f.block.payload f.size :=
  ⟨rfl, Nat.le_add_right _ _, Nat.add_lt_add_left (Nat.lt_of_lt_of_le hi hk) _⟩

/-- A store beside the first `k` bytes of a payload sets none of them. -/
theorem not_writes_of_spares (h : s.Invariant t) (hc : s.Tolerates c) (hf : f ∈ t.live)
    (hspares : c.Spares f.block k) (hk : k ≤ f.size) {i : Nat} (hi : i < k) :
    ¬ c.Writes (f.block.payload.plus i) := by
  cases c with
  | write d offset n g =>
    intro hin
    obtain ⟨hd, hn⟩ := hc
    obtain ⟨e, he, rfl⟩ := h.exists_live hd
    rw [h.sound.blockSize_eq (Tiling.mem_of_live he)] at hn
    rcases h.sound.eq_or_apart (Tiling.mem_of_live he) (Tiling.mem_of_live hf) with rfl | hapart
    · have hbehind : k ≤ offset := hspares rfl
      have hle := hin.2.1
      simp only [Address.plus] at hle
      omega
    · exact Arena.not_inRange_of_apart hapart (inRange_plus hk hi) (range_of_written hn _ hin)
  | allocate g n => exact not_false
  | zeroAllocate g count size => exact not_false
  | reallocate g p size => exact not_false
  | free p => exact not_false
  | reset => exact not_false

/-- A call about another block carries the bytes by leaving them where they are. -/
theorem carries_of_leaves (h : s.Invariant t) (hc : s.Tolerates c) (hf : f ∈ t.live)
    (hk : k ≤ f.size) (hspares : c.Spares f.block k) (hleaves : c.Leaves f.block) :
    s.Carries (s.step c) f.block f.block k := by
  obtain ⟨t', ht', hf'⟩ := h.keeps_live hc hf hleaves
  refine ⟨ht'.live.mem_iff.1 (List.mem_map_of_mem hf'), ?_, fun i hi => ?_⟩
  · rw [ht'.sound.blockSize_eq (Tiling.mem_of_live hf')]
    exact hk
  · exact (effect_step h hc).byte_payload h hf (inRange_plus hk hi)
      (not_writes_of_spares h hc hf hspares hk hi)

/-- In place, the bytes are where they were. -/
theorem ShrinksInPlace.carries (h : s.ShrinksInPlace s' b n) (hb : b ∈ s.ledger.live)
    (hk : k ≤ n) : s.Carries s' b b k := by
  refine ⟨h.live ▸ hb, ?_, fun i _ => h.outside _ fun hin => ?_⟩
  · have hnew := congrArg Header.size h.header
    rw [Memory.size_header] at hnew
    exact hnew ▸ hk
  · -- The payload starts behind the size in the header.
    simp only [Address.InRange, Address.plus, Block.payload, Block.headerByte, headerSize] at hin
    omega

/-- After a move, they were copied. -/
theorem Moves.carries (h : s.Moves s' g b q n) (hk : k ≤ s.arena.heap.memory.blockSize b)
    (hkn : k ≤ n) : s.Carries s' b q k :=
  ⟨h.live ▸ List.mem_cons_self, Nat.le_trans hkn h.le,
    fun i hi => h.copied i (Nat.lt_of_lt_of_le hi hk)⟩

/-- The block itself is reallocated. -/
theorem carries_reallocate (h : s.Invariant t) (hf : f ∈ t.live)
    (hk : k ≤ s.arena.heap.memory.blockSize f.block) (hspares : ∀ n ∈ alignUp size, k ≤ n) :
    s.Carries (s.step (.reallocate g (some f.block) size)) f.block
      (s.follow f.block (.reallocate g (some f.block) size)) k := by
  have hlive : f.block ∈ s.ledger.live := h.live.mem_iff.1 (List.mem_map_of_mem hf)
  -- Refused, it stays; granted, it is in place or has moved, by its recorded size.
  cases hr : (s.arena.reallocate g (some f.block.payload) size).result with
  | error err =>
    have hstays : s.follow f.block (.reallocate g (some f.block) size) = f.block := by
      simp only [follow, if_true, hr]
    rw [hstays, step_reallocate_of_error hr]
    exact .refl hlive hk
  | ok p =>
    rw [follow_reallocate hr]
    cases halign : alignUp size with
    | none =>
      simp only [Arena.reallocate, halign] at hr
      cases hr
    | some n =>
      rcases Nat.lt_or_ge (s.arena.heap.memory.blockSize f.block) n with hgrows | hle
      · obtain ⟨-, -, hmoves⟩ := h.reallocate_of_grows hf halign hgrows
        obtain ⟨q, rfl, hmoved⟩ := hmoves p hr
        rw [Block.ofPayload_payload]
        exact hmoved.carries hk (hspares n halign)
      · obtain ⟨hstays, -, hshrunk⟩ := h.reallocate_of_covered hf halign hle
        rw [hr] at hstays
        cases hstays
        rw [Block.ofPayload_payload]
        exact hshrunk.carries hlive (hspares n halign)

/-- **A call carries the bytes that it spares** to where the block is after it. -/
theorem carries_step (h : s.Invariant t) (hc : s.Tolerates c) (hb : b ∈ s.ledger.live)
    (hk : k ≤ s.arena.heap.memory.blockSize b) (hspares : c.Spares b k) :
    s.Carries (s.step c) b (s.follow b c) k := by
  obtain ⟨f, hf, rfl⟩ := h.exists_live hb
  have hother : c.Leaves f.block → s.Carries (s.step c) f.block (s.follow f.block c) k := by
    intro hleaves
    rw [h.sound.blockSize_eq (Tiling.mem_of_live hf)] at hk
    rw [follow_of_leaves hleaves]
    exact carries_of_leaves h hc hf hk hspares hleaves
  cases c with
  | reallocate g p size =>
    by_cases hp : p = some f.block
    · subst hp
      exact carries_reallocate h hf hk (hspares rfl)
    · exact hother hp
  | allocate g n => exact hother trivial
  | zeroAllocate g count size => exact hother trivial
  | free p => exact hother hspares
  | reset => exact hspares.elim
  | write d offset n g => exact hother trivial

/-! ## Runs

`Spares` at a run is about the block that the caller holds by then, so it is defined along with the
run, and decided along with it. -/

/-- The block that a caller holds after the calls if it held `b` before. -/
def followed : Session → Block → List Call → Block
  | _, b, [] => b
  | s, b, c :: cs => followed (s.step c) (s.follow b c) cs

/-- Each of the calls spares the block that the caller holds by then. -/
def Spares (k : Nat) : Session → Block → List Call → Prop
  | _, _, [] => True
  | s, b, c :: cs => c.Spares b k ∧ Spares k (s.step c) (s.follow b c) cs

instance decidableSpares (k : Nat) : ∀ s b cs, Decidable (Spares k s b cs)
  | _, _, [] => inferInstanceAs (Decidable True)
  | s, b, c :: cs =>
    have := decidableSpares k (s.step c) (s.follow b c) cs
    inferInstanceAs (Decidable (c.Spares b k ∧ Spares k (s.step c) (s.follow b c) cs))

/-- By induction on the calls, with `Carries.trans`: each step starts from the block that the last
one ended with. -/
theorem carries_run {cs : List Call} (h : Reachable Tolerates s) (hkeeps : Keeps Tolerates s cs)
    (hb : b ∈ s.ledger.live) (hk : k ≤ s.arena.heap.memory.blockSize b)
    (hspares : Spares k s b cs) : s.Carries (s.run cs) b (s.followed b cs) k := by
  induction cs generalizing s b with
  | nil => exact .refl hb hk
  | cons c cs ih =>
    obtain ⟨hc, hkeeps⟩ := hkeeps
    obtain ⟨hfirst, hrest⟩ := hspares
    obtain ⟨t, ht⟩ := h.valid_of_tolerates
    have hstep := carries_step ht hc hb hk hfirst
    exact hstep.trans (ih (h.step hc) hkeeps hstep.live hstep.le hrest)

/-! ## Patterns

The workload's own check of a payload: a pattern that depends on a seed and the position of the
byte, read back at the end. -/

/-- The check reads the payload and compares every byte. -/
theorem verify_read_iff {a : Arena} {p : Address} {seed : UInt64} :
    Pattern.verify seed (a.read p k) = true ↔
      ∀ i < k, a.heap.memory.byte (p.plus i) = Pattern.byte seed i := by
  rw [Pattern.verify, Bank.agrees_iff, Arena.read, Memory.size_read]
  refine forall₂_congr fun i hi => ?_
  rw [Memory.byte_read hi]

/-- A pattern stored at the front of a block is read there. -/
theorem byte_fill {a : Arena} {b : Block} {len i : Nat} (f : Nat → UInt8) (hi : i < len) :
    (a.write (b.payload.plus 0) len f).heap.memory.byte (b.payload.plus i) = f i := by
  have hin : (b.payload.plus i).InRange (b.payload.plus 0) len :=
    ⟨rfl, Nat.le_add_right _ _, Nat.add_lt_add_left hi _⟩
  have hoffset : (b.payload.plus i).offset - (b.payload.plus 0).offset = i :=
    Nat.add_sub_cancel_left _ _
  rw [Arena.write, Memory.byte_write_of_inRange hin, hoffset]

/-- **What is stored at the front of a block** is where the block is, after any calls that spare it.
-/
theorem carries_fill {f : Nat → UInt8} {len : Nat} {cs : List Call} (h : Reachable Tolerates s)
    (hb : b ∈ s.ledger.live) (hlen : len ≤ s.arena.heap.memory.blockSize b) (hk : k ≤ len)
    (hkeeps : Keeps Tolerates (s.step (.write b 0 len f)) cs)
    (hspares : Spares k (s.step (.write b 0 len f)) b cs) :
    let filled := s.step (.write b 0 len f)
    let q := filled.followed b cs
    q ∈ (filled.run cs).ledger.live ∧ k ≤ (filled.run cs).arena.heap.memory.blockSize q ∧
      ∀ i < k, (filled.run cs).arena.heap.memory.byte (q.payload.plus i) = f i := by
  obtain ⟨t, ht⟩ := h.valid_of_tolerates
  have hwrite : s.Tolerates (.write b 0 len f) := by
    refine ⟨hb, ?_⟩
    rw [Nat.zero_add]
    exact hlen
  have hsame : (s.step (.write b 0 len f)).arena.heap.memory.blockSize b =
      s.arena.heap.memory.blockSize b := by
    obtain ⟨e, he, rfl⟩ := ht.exists_live hb
    obtain ⟨t', ht', he'⟩ := ht.keeps_live hwrite he trivial
    rw [ht'.sound.blockSize_eq (Tiling.mem_of_live he'),
      ht.sound.blockSize_eq (Tiling.mem_of_live he)]
  have hle : k ≤ (s.step (.write b 0 len f)).arena.heap.memory.blockSize b := by
    rw [hsame]
    exact Nat.le_trans hk hlen
  have hcarries := carries_run (h.step hwrite) hkeeps hb hle hspares
  refine ⟨hcarries.live, hcarries.le, fun i hi => ?_⟩
  rw [hcarries.bytes i hi]
  exact byte_fill f (Nat.lt_of_lt_of_le hi hk)

/-- **Reallocation, for every block in use and every size.** If the recorded size covers the new
one, rounded up, the pointer stays and only that size changes; otherwise the call answers as a plain
allocation would, and if it is granted the payload is in a block of its own and all else is as after
that allocation and a free of the old block. Without a pointer it is a plain allocation. So a
pattern stored at the front of a block is still there after any calls in which the block is
reallocated and all else goes on, as far as every size that was asked for reaches. -/
theorem reallocation_exact (h : Reachable Tolerates s) :
    (∀ g size, s.arena.reallocate g none size = s.arena.allocate g size ∧
      s.step (.reallocate g none size) = s.step (.allocate g size)) ∧
    (∀ b ∈ s.ledger.live, ∀ g size n, alignUp size = some n →
      let o := s.arena.reallocate g (some b.payload) size
      let s' := s.step (.reallocate g (some b) size)
      (n ≤ s.arena.heap.memory.blockSize b →
        o.result = .ok b.payload ∧ o.state.2 = g ∧ s.ShrinksInPlace s' b n) ∧
      (s.arena.heap.memory.blockSize b < n →
        o.result = (s.arena.allocate g n).result ∧
          o.state.2 = (s.arena.allocate g n).state.2 ∧
          ∀ p, o.result = .ok p → ∃ q : Block, p = q.payload ∧ s.Moves s' g b q n)) ∧
    ∀ b ∈ s.ledger.live, ∀ seed len k cs, len ≤ s.arena.heap.memory.blockSize b → k ≤ len →
      let filled := s.step (.write b 0 len (Pattern.byte seed))
      Keeps Tolerates filled cs → Spares k filled b cs →
        let q := filled.followed b cs
        let last := filled.run cs
        q ∈ last.ledger.live ∧ k ≤ last.arena.heap.memory.blockSize q ∧
          Pattern.verify seed (last.arena.read q.payload k) = true := by
  obtain ⟨t, ht⟩ := h.valid_of_tolerates
  refine ⟨fun g size => ⟨rfl, rfl⟩, ?_, ?_⟩
  · intro b hb g size n halign o s'
    obtain ⟨old, hold, rfl⟩ := ht.exists_live hb
    exact ⟨ht.reallocate_of_covered hold halign, ht.reallocate_of_grows hold halign⟩
  · intro b hb seed len k cs hlen hk filled hkeeps hspares
    obtain ⟨hlive, hle, hbytes⟩ := carries_fill h hb hlen hk hkeeps hspares
    exact ⟨hlive, hle, verify_read_iff.2 hbytes⟩

/-- A block of 48 bytes shrinks to 32, and would move to have 112. In a run it does one after the
other, and moves once more. -/
theorem reallocation_exact_of_run :
    let s := (ofLength 512).run [.allocate .unlimited 40, .allocate .unlimited 16]
    let filled := s.step (.write ⟨0, 0⟩ 0 40 (Pattern.byte 7))
    let cs : List Call := [.reallocate .unlimited (some ⟨0, 0⟩) 20, .free (some ⟨0, 80⟩),
      .reallocate .unlimited (some ⟨0, 0⟩) 100, .write ⟨0, 128⟩ 32 8 fun _ => 1,
      .reallocate .unlimited (some ⟨0, 128⟩) 300]
    s.ShrinksInPlace (s.step (.reallocate .unlimited (some ⟨0, 0⟩) 20)) ⟨0, 0⟩ 32 ∧
      s.Moves (s.step (.reallocate .unlimited (some ⟨0, 0⟩) 100)) .unlimited ⟨0, 0⟩ ⟨0, 128⟩ 112 ∧
      filled.followed ⟨0, 0⟩ cs = ⟨1, 0⟩ ∧
      Pattern.verify 7 ((filled.run cs).arena.read (Block.mk 1 0).payload 32) = true := by
  intro s filled cs
  have hreach : Reachable Tolerates s :=
    (Reachable.ofLength _ (by decide) (by decide) (by decide)).run (by decide +kernel)
  obtain ⟨-, hone, hmany⟩ := reallocation_exact hreach
  have hlive : ⟨0, 0⟩ ∈ s.ledger.live := by decide +kernel
  have hwhere : filled.followed ⟨0, 0⟩ cs = ⟨1, 0⟩ := by decide +kernel
  obtain ⟨hfits, -⟩ := hone ⟨0, 0⟩ hlive .unlimited 20 32 rfl
  obtain ⟨-, hgrows⟩ := hone ⟨0, 0⟩ hlive .unlimited 100 112 rfl
  obtain ⟨-, -, hmoves⟩ := hgrows (by decide +kernel)
  obtain ⟨q, hq, hmoves⟩ := hmoves (Block.mk 0 128).payload (by decide +kernel)
  obtain ⟨-, -, hverify⟩ := hmany ⟨0, 0⟩ hlive 7 40 32 cs (by decide +kernel) (by decide)
    (by decide +kernel) (by decide +kernel)
  refine ⟨(hfits (by decide +kernel)).2.2, Block.payload_injective hq ▸ hmoves, hwhere, ?_⟩
  rw [hwhere] at hverify
  exact hverify

end Session

end ArenaAlloc

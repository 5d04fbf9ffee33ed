import ArenaAlloc.Proofs.Checks
import ArenaAlloc.Proofs.Occupancy
import ArenaAlloc.Proofs.PowerLaw

/-!
# Nothing wraps around, no assertion fails

The sizes of an arena's parts are bounded by one another: what is free is carved, what is carved is
within the capacity, and the capacity fits a word, since growth asks before it adds. So no sum of
them wraps around, also in the middle of a call (`nothing_wraps`). Nor does a call come upon a
condition that it relies on and that does not hold, or to an error that is only there in case it
does not (`assertions_hold`).

## What is checked, and where

The conditions are collected by the operations themselves. `Call.checks` runs a call with every
addition, subtraction and assertion on its way recorded, as a value with the operands as they are at
that point; `Proofs.Checked` has these operations, with the theorem that they do what the plain ones
do, and `Proofs.Checks` that under the invariant every recorded check passes. Here the checks are
sorted by what they mean: sums and differences for `nothing_wraps`, the assertions for
`assertions_hold`.

So the theorems cover the middle of a call as well. A free has marked and linked its block before it
compares ends of blocks, and the sum for such an end is taken in the memory as it is by then.

## Branches that are never taken

An operation also has error paths for conditions that its own code has just established. Those are
shown to be dead, one by one: a chunk that was added has room for the block it was added for, no
chunk of zero bytes is asked for, and an accepted configuration is refused by the supply alone.
-/

namespace ArenaAlloc

/-! ## Arithmetic

The statistics add up sizes and counts of free blocks. With headers, they come to what is carved for
them, and that is a part of all that is carved. -/

/-- A constant summand comes as often as there are members. -/
theorem total_map_add_left {α : Type} (n : Nat) (f : α → Nat) (xs : List α) :
    total (xs.map fun x => n + f x) = total (xs.map f) + n * xs.length := by
  induction xs with
  | nil => rfl
  | cons x xs ih =>
    simp only [List.map_cons, total_cons, ih, List.length_cons, Nat.mul_succ]
    omega

namespace Session

variable {s : Session} {t : Tiling} {c : Call}

/-- What is on the free list is carved, headers included. -/
theorem Invariant.freeBytes_le (h : s.Invariant t) :
    s.arena.stats.freeBytes + headerSize * s.arena.stats.freeBlockCount ≤ s.arena.stats.used := by
  have hbytes : s.arena.stats.freeBytes =
      total (s.arena.freeList.map s.arena.heap.memory.blockSize) := by
    simp only [Stats.freeBytes, Arena.stats, List.map_map]
    rfl
  have hcount : s.arena.stats.freeBlockCount = s.arena.freeList.length := by
    simp only [Stats.freeBlockCount, Arena.stats, List.length_map]
  show _ ≤ s.arena.chunks.used
  rw [hbytes, hcount, ← total_map_add_left, h.used_eq]
  omega

/-- **No sum wraps around.** In every session the bytes on the free list, with their headers, are at
most those carved, those at most the capacity, and the capacity fits a word; so does the end of
every block. On the way of a call no sum is too large for a word and no difference negative. -/
theorem nothing_wraps (h : Reachable Tolerates s) :
    let stats := s.arena.stats
    stats.freeBytes + headerSize * stats.freeBlockCount ≤ stats.used ∧
      stats.used ≤ stats.capacity ∧ stats.capacity < wordLimit ∧
      (∀ b ∈ s.blocks, s.arena.heap.memory.blockEnd b < wordLimit) ∧
      ∀ c, s.Tolerates c →
        (∀ ns, .sum ns ∈ c.checks s.arena → total ns < wordLimit) ∧
          ∀ n k, .difference n k ∈ c.checks s.arena → k ≤ n := by
  obtain ⟨t, ht⟩ := h.valid_of_tolerates
  have hchunks := ht.sound.chunks
  -- Each of the bounds is a bound by the next: free within carved, carved within the capacity, and
  -- the capacity within a word.
  refine ⟨ht.freeBytes_le, hchunks.used_le_capacity, hchunks.capacity_lt, fun b hb => ?_,
    fun c hc => ⟨fun ns hsum => ?_, fun n k hdifference => ?_⟩⟩
  · obtain ⟨e, he, rfl⟩ := ht.exists_block hb
    rw [Memory.blockEnd, ht.sound.blockSize_eq he]
    exact ht.sound.stop_lt he
  · exact checks_pass ht hc _ hsum
  · exact checks_pass ht hc _ hdifference

/-- Growth by the factor, then one that is cut down because the factor would take the capacity past
what a word holds. -/
theorem nothing_wraps_near_limit :
    let s := (ofLength 64).run [.allocate .unlimited (2 ^ 62), .allocate .unlimited (2 ^ 63 - 48),
      .free (some ⟨1, 0⟩)]
    s.arena.layout = [64, 2 ^ 63 - 64, 2 ^ 63 - 16] ∧ s.arena.stats.freeBytes = 2 ^ 62 ∧
      s.arena.stats.freeBytes + headerSize * s.arena.stats.freeBlockCount ≤ s.arena.stats.used ∧
      s.arena.stats.used ≤ s.arena.stats.capacity ∧
      ∀ ns, .sum ns ∈ (Call.allocate .unlimited (2 ^ 63)).checks s.arena →
        total ns < wordLimit := by
  intro s
  have hreach : Reachable Tolerates s :=
    (Reachable.ofLength Tolerates (by decide) (by decide) (by decide)).run (by decide +kernel)
  obtain ⟨hfree, hused, -, -, hchecks⟩ := nothing_wraps hreach
  refine ⟨by decide +kernel, by decide +kernel, hfree, hused, ?_⟩
  exact (hchecks (.allocate .unlimited (2 ^ 63)) trivial).1

end Session

/-! ## Branches that are never taken

Each of these has an error in the code that names it. The first is the only one that needs growth:
the length that was added is at least what was asked for. -/

namespace Chunks

variable {c : Chunks} {s : Supply} {size i : Nat}

/-- A chunk that was added for a payload has room for it. -/
theorem carveAt_of_grow (h : (c.grow s (size + headerSize)).result = .ok i) :
    ∃ b c', (c.grow s (size + headerSize)).state.1.carveAt i size = some (b, c') := by
  rcases c.grow_cases s (size + headerSize) with ⟨e, hr, -⟩ | ⟨length, s', hgrows, hr, hst⟩
  · rw [hr] at h
    cases h
  · rw [hr] at h
    cases h
    rw [hst]
    exact ⟨_, _, c.carveAt_added (le_of_nextLength hgrows.next)⟩

/-- A reset leaves nothing carved. -/
theorem used_rewind (c : Chunks) : c.rewind.used = 0 := by
  rw [← sum_usedAt]
  exact Finset.sum_eq_zero fun i _ => c.usedAt_rewind i

/-- Where nothing is carved, no address is the arena's own. -/
theorem holdsPayload_of_used_eq_zero (h : c.used = 0) (p : Address) : c.holdsPayload p = false := by
  have hzero : c.usedAt p.chunk = 0 := Nat.le_zero.1 (h ▸ c.usedAt_le_used p.chunk)
  cases hk : c.list[p.chunk]? with
  | none => simp only [holdsPayload, hk]
  | some k =>
    rw [usedAt_of_getElem? hk] at hzero
    simp only [holdsPayload, hk, Chunk.holdsPayload, hzero]
    rw [Bool.and_eq_false_iff, decide_eq_false_iff_not, decide_eq_false_iff_not]
    simp only [headerSize]
    omega

end Chunks

/-- An accepted configuration leaves the supply as the only reason to refuse an arena. -/
theorem Arena.create_error {config : Config} (hvalid : config.validate = .ok ()) (g : Supply) :
    ∃ first, alignUp config.initialCapacity = some first ∧ 0 < first ∧ maxAlign ∣ first ∧
      ∀ e, (Arena.create config g).result = .error e → e = .outOfMemory first := by
  obtain ⟨hmin, hfits, -, -⟩ := Config.fault?_eq_none_iff.1 (Config.validate_eq_ok_iff.1 hvalid)
  cases halign : alignUp config.initialCapacity with
  | none => exact absurd (alignUp_eq_none.1 halign) (Nat.not_le.2 hfits)
  | some first =>
    have hpos : 0 < first :=
      Nat.lt_of_lt_of_le (by decide) (Nat.le_trans hmin (le_of_alignUp halign))
    refine ⟨first, rfl, hpos, dvd_of_alignUp halign, fun e h => ?_⟩
    simp only [Arena.create, hvalid, Chunks.create, halign] at h
    cases hobtain : g.obtain first with
    | error e' =>
      rw [hobtain] at h
      cases h
      exact Supply.obtain_eq_error hobtain hpos
    | ok g' =>
      rw [hobtain] at h
      cases h

/-- No call asks for a chunk without bytes. -/
theorem Call.perform_ne_invalidConfig (c : Call) (a : Arena) (reason : String) :
    (c.perform a).result ≠ .error (.invalidConfig reason) := by
  intro h
  rcases Call.error_cases h with ⟨count, size, heq⟩ | ⟨n, g, -, -, hgrow⟩
  · cases heq
  · rcases Chunks.grow_error_cases (Nat.add_pos_right n (by decide)) hgrow with
      heq | ⟨length, limit, heq⟩ | ⟨-, heq⟩ | ⟨length, -, heq⟩
    all_goals cases heq

namespace Session

variable {s : Session} {t : Tiling} {c : Call}

/-! ## Assertions

One field for each kind of assertion, so that a reader can find what is asserted of a pointer
without looking through the operations. -/

/-- What holds on the way of a call wherever the code asserts something. -/
structure Asserts (s : Session) (c : Call) : Prop where
  /-- Every size that is carved, recorded in a header or asked of the supply. -/
  aligned : ∀ n, .aligned n ∈ c.checks s.arena → maxAlign ∣ n
  /-- The pointer that is freed or reallocated. -/
  owned : ∀ k p, .owned k p ∈ c.checks s.arena → k.holdsPayload p = true
  /-- The block that is reallocated, and every block that is put on the free list. -/
  unmarked : ∀ m b, .unmarked m b ∈ c.checks s.arena → m.isFreed b = false
  copied : ∀ m source target n, .copied m source target n ∈ c.checks s.arena →
    n ≤ m.blockSize source ∧ n ≤ m.blockSize target ∧ source ≠ target

theorem Invariant.asserts (h : s.Invariant t) (hc : s.Tolerates c) : s.Asserts c :=
  { aligned := fun _ hk => checks_pass h hc _ hk
    owned := fun _ _ hk => checks_pass h hc _ hk
    unmarked := fun _ _ hk => checks_pass h hc _ hk
    copied := fun _ _ _ _ hk => checks_pass h hc _ hk }

/-! ## What an arena owns

A pointer is looked up by its chunk and its offset below what is carved. It stays the arena's own as
long as nothing is rewound, whether its block is in use, on the free list, or was absorbed. -/

theorem Effect.used_eq_zero {s' : Session} (he : Effect s t c s') (h : s.Invariant t)
    (hs : s.ledger.issued = [] → s.arena.chunks.used = 0) :
    s'.ledger.issued = [] → s'.arena.chunks.used = 0 := by
  intro hissued
  have hnone : ∀ e ∈ t.live, s.ledger.issued ≠ [] := fun e he =>
    List.ne_nil_of_mem (h.issued e (Tiling.mem_of_live he))
  -- Only what hands out a block carves, and then the ledger has entered one.
  cases he with
  | refused => exact hs hissued
  | handedOut taken => cases hissued
  | zeroed taken => cases hissued
  | shrunk mem le dvd => exact absurd hissued (hnone _ mem)
  | moved mem taken le copied => cases hissued
  | takenBack mem => exact absurd hissued (hnone _ mem)
  | written mem le => exact absurd hissued (hnone _ mem)
  | reset => exact s.arena.chunks.used_rewind

/-- Nothing is carved before the first block is handed out. -/
theorem Reachable.used_eq_zero (h : Reachable Tolerates s) :
    s.ledger.issued = [] → s.arena.chunks.used = 0 := by
  induction h with
  | new config supply hnew =>
    obtain ⟨-, _, supply', hchunks, rfl⟩ := Arena.create_eq_ok hnew
    obtain ⟨first, -, -, rfl⟩ := Chunks.create_eq_ok hchunks
    exact fun _ => rfl
  | step h hc ih =>
    obtain ⟨t, ht⟩ := h.valid_of_tolerates
    exact (effect_step ht hc).used_eq_zero ht ih

theorem owns_eq_false_iff (h : Reachable Tolerates s) :
    (∀ p, s.arena.owns p = false) ↔ s.arena.chunks.used = 0 := by
  constructor
  · intro hnone
    obtain ⟨t, ht⟩ := h.valid_of_tolerates
    -- If anything had been handed out since the last reset, its pointer would be the arena's own.
    refine h.used_eq_zero (List.eq_nil_iff_forall_not_mem.2 fun b hb => ?_)
    have howned := ht.owns hb
    rw [hnone] at howned
    cases howned
  · exact Chunks.holdsPayload_of_used_eq_zero

/-- **No assertion fails, and no branch is taken that is there in case one would.** An accepted
configuration is refused an arena by the supply alone. In every run that keeps to the contract, each
pointer handed out since the last reset is the arena's own, whatever became of its block; each call
finds what it asserts; it asks for no chunk without bytes, and carves from a chunk that it added. An
arena owns no address exactly while nothing is carved, and nothing is after a reset. -/
theorem assertions_hold {config : Config} (hvalid : config.validate = .ok ()) (g : Supply) :
    (∃ first, alignUp config.initialCapacity = some first ∧ 0 < first ∧ maxAlign ∣ first ∧
      ∀ e, (Arena.create config g).result = .error e → e = .outOfMemory first) ∧
    ∀ a cs, (Arena.create config g).result = .ok a → Keeps Tolerates { arena := a } cs →
      let s := run { arena := a } cs
      (∀ b ∈ s.ledger.issued, s.arena.owns b.payload = true) ∧
      (∀ c, s.Tolerates c → s.Asserts c) ∧
      (∀ c : Call, ∀ reason, (c.perform s.arena).result ≠ .error (.invalidConfig reason)) ∧
      (∀ f n i, (s.arena.chunks.grow f (n + headerSize)).result = .ok i →
        ∃ b k, (s.arena.chunks.grow f (n + headerSize)).state.1.carveAt i n = some (b, k)) ∧
      ((∀ p, s.arena.owns p = false) ↔ s.arena.chunks.used = 0) ∧
      (s.step .reset).arena.chunks.used = 0 := by
  refine ⟨Arena.create_error hvalid g, fun a cs hnew hkeeps => ?_⟩
  intro s
  have hreach : Reachable Tolerates s := (Reachable.new config g hnew).run hkeeps
  obtain ⟨t, ht⟩ := hreach.valid_of_tolerates
  exact ⟨fun b hb => ht.owns hb, fun c hc => ht.asserts hc,
    fun c reason => c.perform_ne_invalidConfig s.arena reason,
    fun f n i hgrow => Chunks.carveAt_of_grow hgrow, owns_eq_false_iff hreach,
    s.arena.chunks.used_rewind⟩

/-- The second block has no bytes and ends where its chunk does, and it was absorbed when both were
freed. Its pointer is the arena's own all the same. -/
theorem assertions_hold_of_run :
    ∃ a, (Arena.create { initialCapacity := 90 } .unlimited).result = .ok a ∧
      let s := run { arena := a } [.allocate .unlimited 32, .allocate .unlimited 0,
        .free (some ⟨0, 0⟩), .free (some ⟨0, 64⟩)]
      s.arena.layout = [96] ∧ s.arena.freeList = [⟨0, 0⟩] ∧ s.arena.owns ⟨0, 96⟩ = true ∧
        s.Asserts (.free (some ⟨0, 64⟩)) ∧ (s.step .reset).arena.chunks.used = 0 := by
  have hnew : (Arena.create { initialCapacity := 90 } .unlimited).result =
      .ok { chunks := ⟨[{ length := 96 }], 0, 2, none⟩ } := rfl
  refine ⟨_, hnew, ?_⟩
  intro s
  have hvalid : Config.validate { initialCapacity := 90 } = .ok () := rfl
  obtain ⟨-, hruns⟩ := assertions_hold hvalid .unlimited
  obtain ⟨howns, hasserts, -, -, -, hreset⟩ := hruns _ [.allocate .unlimited 32,
    .allocate .unlimited 0, .free (some ⟨0, 0⟩), .free (some ⟨0, 64⟩)] hnew (by decide +kernel)
  refine ⟨by decide +kernel, by decide +kernel, howns ⟨0, 64⟩ (by decide +kernel), ?_, hreset⟩
  exact hasserts _ (by decide +kernel)

end Session

end ArenaAlloc

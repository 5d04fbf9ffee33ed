import ArenaAlloc.Proofs.Invariant

/-!
# What calls come to

`Effect` lists what a call can do to a session, in the steps that the invariant speaks of: a call
that is refused does nothing, and the others hand a block out, take one back, shrink one, or store
into one. `effect_step` says that a tolerated call does one of these, and nothing that follows looks
into the calls again. The invariant holds of every session that is reached (`Reachable.valid`).

The list has fewer kinds of effect than there are kinds of calls, and that is its use. `allocate`,
`zeroAllocate` and `reallocate` can each be refused and can each hand a block out, and freeing a
block a second time does what a refused call does. A property of sessions is proved by one case for
each effect, whichever calls lead there.

The calls are peeled apart in the order in which they are built. First the calls that succeed, each
under the assumption that its request was granted; then each call with all its ends; then
`effect_step`, which puts them together. The session of a `moved` effect is the longest: a block is
handed out, the payload is copied, and the old block is given back, in this order, so that the old
one is in use until the new one has its bytes.
-/

namespace ArenaAlloc

namespace Session

/-- What a call can do to a session. The tiling `t` is the one from before the call. -/
inductive Effect (s : Session) (t : Tiling) : Call → Session → Prop
  | refused {c : Call} : Effect s t c s
  | handedOut {c : Call} {e : Extent} {a' : Arena} {t' : Tiling}
      (taken : s.arena.Taken t e a' t') : Effect s t c ⟨a', s.ledger.handOut e⟩
  | zeroed {c : Call} {e : Extent} {a' : Arena} {t' : Tiling} (taken : s.arena.Taken t e a' t') :
      Effect s t c ⟨a'.write e.block.payload e.size fun _ => 0,
        (s.ledger.handOut e).store e.block.payload e.size fun _ => 0⟩
  | shrunk {c : Call} {e : Extent} {size : Nat} (mem : e ∈ t.live) (le : size ≤ e.size)
      (dvd : maxAlign ∣ size) :
      Effect s t c ⟨s.arena.shrinkBlock e.block size, s.ledger.shrink e size⟩
  | moved {c : Call} {old e : Extent} {a' : Arena} {t' : Tiling} {f : Nat → UInt8}
      (mem : old ∈ t.live) (taken : s.arena.Taken t e a' t') (le : old.size ≤ e.size)
      (copied : ∀ i < old.size, f i = s.arena.heap.memory.byte (old.block.payload.plus i)) :
      Effect s t c ⟨((a'.write e.block.payload old.size f).giveBlock old.block).state,
        ((s.ledger.handOut e).store e.block.payload old.size f).takeBack old⟩
  | takenBack {c : Call} {e : Extent} (mem : e ∈ t.live) :
      Effect s t c ⟨(s.arena.giveBlock e.block).state, s.ledger.takeBack e⟩
  | written {e : Extent} {offset n : Nat} {f : Nat → UInt8} (mem : e ∈ t.live)
      (le : offset + n ≤ e.size) :
      Effect s t (.write e.block offset n f) (s.write e.block offset n f)
  | reset : Effect s t .reset { arena := s.arena.reset.state }

variable {s : Session} {t : Tiling} {c : Call} {e : Extent} {b : Block}

/-! ## Calls that succeed

What the session makes of a call is written out as far as it goes, under the assumption that
`takeBlock` came to a block. The ledger enters sizes as the headers have them after the call, so
each of these has to look up what the header of the new block says. -/

section Taken

variable {supply : Supply} {count size n : Nat} {t' : Tiling}

/-- A request that was granted, without more. -/
theorem grant_of_taken (hr : (s.arena.takeBlock supply size).result = .ok e.block)
    (ht : s.arena.Taken t e (s.arena.takeBlock supply size).state.1 t') :
    s.grant (s.arena.allocate supply size) =
      ⟨(s.arena.takeBlock supply size).state.1, s.ledger.handOut e⟩ := by
  -- What the ledger enters is the extent that was taken.
  have hextent := ht.sound.extent_eq (Tiling.mem_of_live ht.mem_live)
  simp only [grant, Arena.allocate, Outcome.result_map, Outcome.state_map, hr, Except.map,
    Block.ofPayload_payload, hextent]

/-- Zeros are stored over the recorded size, which may be more than what was asked for. -/
theorem zeroAllocate_of_taken (hmul : checkedMul count size = some n)
    (hr : (s.arena.takeBlock supply n).result = .ok e.block)
    (ht : s.arena.Taken t e (s.arena.takeBlock supply n).state.1 t') :
    s.zeroAllocate supply count size =
      ⟨(s.arena.takeBlock supply n).state.1.write e.block.payload e.size fun _ => 0,
        (s.ledger.handOut e).store e.block.payload e.size fun _ => 0⟩ := by
  have he : e ∈ t'.live := ht.mem_live
  have hsize := ht.sound.blockSize_eq (Tiling.mem_of_live he)
  have hstore := ht.sound.store (g := fun _ => 0) he fun x hx => hx
  have hextent := hstore.extent_eq (Tiling.mem_of_live he)
  have hzero : (s.arena.takeBlock supply n).state.1.zeroPayload e.block =
      (s.arena.takeBlock supply n).state.1.write e.block.payload e.size fun _ => 0 := by
    rw [Arena.zeroPayload, hsize]
    rfl
  simp only [zeroAllocate, Arena.zeroAllocate, hmul, Outcome.result_andThen,
    Outcome.state_andThen, hr, Block.ofPayload_payload, hzero, hextent]

/-- A copy is a store of the bytes that are copied, and they are those from before. -/
theorem copyPayload_eq {a a' : Arena} {old : Extent} (ht : a.Taken t e a' t')
    (hold : old ∈ t.live) :
    ∃ f, a'.copyPayload old.block e.block = a'.write e.block.payload old.size f ∧
      ∀ i < old.size, f i = a.heap.memory.byte (old.block.payload.plus i) := by
  have hold' : old ∈ t'.extents := Tiling.mem_of_live (ht.mem_live_of_mem hold)
  have hsize := ht.sound.blockSize_eq hold'
  refine ⟨fun i => Bank.byte (a'.heap.memory.read old.block.payload old.size) i, ?_, fun i hi => ?_⟩
  · rw [Arena.copyPayload, hsize]
    rfl
  · -- The old payload was not touched when the new block was taken.
    refine (Memory.byte_read hi).trans (ht.byte_payload hold ?_)
    exact ⟨rfl, Nat.le_add_right _ _, Nat.add_lt_add_left hi _⟩

/-- The arena in the middle of a reallocation is sound, and has the old block still in use. -/
theorem sound_copyPayload {a a' : Arena} {old : Extent} (ht : a.Taken t e a' t')
    (hold : old ∈ t.live) (hle : old.size ≤ e.size) :
    (a'.copyPayload old.block e.block).Sound t' ∧ old ∈ t'.live := by
  obtain ⟨f, hcopy, -⟩ := copyPayload_eq ht hold
  rw [hcopy]
  exact ⟨ht.sound.store ht.mem_live fun x hx => hx.mono hle, ht.mem_live_of_mem hold⟩

/-- A block that is large enough shrinks in place, and its tail is entered. -/
theorem reallocate_of_fits (h : s.arena.Sound t) (he : e ∈ t.live) (halign : alignUp size = some n)
    (hfits : n ≤ e.size) :
    s.reallocate supply e.block size =
      ⟨s.arena.shrinkBlock e.block n, s.ledger.shrink e n⟩ := by
  have hextent : s.extent e.block = e := h.extent_eq (Tiling.mem_of_live he)
  have hshrunk := h.shrinkBlock (List.perm_cons_erase he) hfits (dvd_of_alignUp halign)
  have hnew := hshrunk.extent_eq (Tiling.mem_of_live List.mem_cons_self)
  simp only [reallocate, h.reallocate_of_le he halign hfits, Block.ofPayload_payload, hextent,
    if_true, hnew]

/-- The old block is in use until the new one holds its bytes. -/
theorem reallocate_of_taken {old : Extent} (h : s.arena.Sound t) (hold : old ∈ t.live)
    (halign : alignUp size = some n) (hgrows : old.size < n)
    (hr : (s.arena.takeBlock supply n).result = .ok e.block) (hle : n ≤ e.size)
    (ht : s.arena.Taken t e (s.arena.takeBlock supply n).state.1 t') :
    ∃ f, (∀ i < old.size, f i = s.arena.heap.memory.byte (old.block.payload.plus i)) ∧
      s.reallocate supply old.block size =
        ⟨(((s.arena.takeBlock supply n).state.1.write e.block.payload old.size f).giveBlock
            old.block).state,
          ((s.ledger.handOut e).store e.block.payload old.size f).takeBack old⟩ := by
  have hsize := h.blockSize_eq (Tiling.mem_of_live hold)
  have hextent : s.extent old.block = old := h.extent_eq (Tiling.mem_of_live hold)
  have he : e ∈ t'.live := ht.mem_live
  have hold' : old ∈ t'.live := ht.mem_live_of_mem hold
  have hge : old.size ≤ e.size := Nat.le_of_lt (Nat.lt_of_lt_of_le hgrows hle)
  have hapart : e.Apart old := ht.apart hold
  -- Two blocks, so two pointers: the session sees that the payload moved.
  have hne : e.block.payload ≠ old.block.payload := fun heq =>
    hapart.block_ne (Block.payload_injective heq)
  obtain ⟨f, hcopy, hf⟩ := copyPayload_eq ht hold
  have hstore := ht.sound.store (g := f) he fun x hx => hx.mono hge
  -- Giving the old block back does not change the new one, which is still in use.
  obtain ⟨hgiven, -⟩ := hstore.giveBlock (List.perm_cons_erase hold')
  have hkept : e ∈ t'.live.erase old :=
    (List.mem_erase_of_ne fun heq => hapart.block_ne (congrArg _ heq)).2 he
  have hnew := hgiven.extent_eq (Tiling.mem_of_live hkept)
  refine ⟨f, hf, ?_⟩
  simp only [reallocate, Arena.reallocate, halign, Block.ofPayload_payload, hsize, hextent,
    if_neg (Nat.not_le.2 hgrows), Outcome.result_andThen, Outcome.state_andThen, hr,
    Outcome.result_mapState, Outcome.state_mapState, Outcome.result_map, Outcome.state_map,
    hcopy, hnew, if_neg hne]
  rw [← Ledger.store_congr _ _ hf]

end Taken

/-- Freeing a block in use gives it back. -/
theorem free_of_live (h : s.Invariant t) (he : e ∈ t.live) :
    s.free (some e.block) = ⟨(s.arena.giveBlock e.block).state, s.ledger.takeBack e⟩ := by
  have hlive : e.block ∈ s.ledger.live := h.live.mem_iff.1 (List.mem_map_of_mem he)
  have hextent : s.extent e.block = e := h.sound.extent_eq (Tiling.mem_of_live he)
  simp only [free, Option.map_some, Arena.free, Block.ofPayload_payload, if_pos hlive, hextent]

/-- The step lemma for freeing, for those who free one block after another. -/
theorem Invariant.freed (h : s.Invariant t) (he : e ∈ t.live) :
    (s.step (.free (some e.block))).Invariant (t.takeBack e) := by
  rw [step, free_of_live h he]
  exact Invariant.takeBack h he

/-- Freeing a block again whose mark stands does nothing at all. -/
theorem free_of_not_live (h : s.Invariant t) (hc : s.Tolerates (.free (some b)))
    (hlive : b ∉ s.ledger.live) : s.free (some b) = s := by
  simp only [free, Option.map_some, Arena.free, Block.ofPayload_payload, if_neg hlive,
    Arena.giveBlock_of_isFreed (h.isFreed_of_tolerates hc hlive)]

/-! ## The calls one by one

Each call is followed to all its ends. Which call the effect is entered for makes no difference,
except that stores and resets are effects of their own. -/

theorem effect_allocate (h : s.arena.Sound t) (supply : Supply) (size : Nat) :
    Effect s t c (s.grant (s.arena.allocate supply size)) := by
  rcases h.takeBlock_cases supply size with ⟨err, hr, hst⟩ | ⟨e, t', hr, -, ht⟩
  · simp only [grant, Arena.allocate, Outcome.result_map, Outcome.state_map, hr, hst, Except.map]
    exact .refused
  · rw [grant_of_taken hr ht]
    exact .handedOut ht

theorem effect_zeroAllocate (h : s.arena.Sound t) (supply : Supply) (count size : Nat) :
    Effect s t c (s.zeroAllocate supply count size) := by
  cases hmul : checkedMul count size with
  | none =>
    simp only [zeroAllocate, Arena.zeroAllocate, hmul]
    exact .refused
  | some total =>
    rcases h.takeBlock_cases supply total with ⟨err, hr, hst⟩ | ⟨e, t', hr, -, ht⟩
    · simp only [zeroAllocate, Arena.zeroAllocate, hmul, Outcome.result_andThen,
        Outcome.state_andThen, hr, hst]
      exact .refused
    · rw [zeroAllocate_of_taken hmul hr ht]
      exact .zeroed ht

theorem effect_reallocate (h : s.Invariant t) (supply : Supply) (size : Nat)
    (hb : b ∈ s.ledger.live) : Effect s t c (s.reallocate supply b size) := by
  obtain ⟨old, hold, rfl⟩ := h.exists_live hb
  have hsize := h.sound.blockSize_eq (Tiling.mem_of_live hold)
  cases halign : alignUp size with
  | none =>
    simp only [reallocate, Arena.reallocate, halign]
    exact .refused
  | some aligned =>
    by_cases hfits : aligned ≤ old.size
    · rw [reallocate_of_fits h.sound hold halign hfits]
      exact .shrunk hold hfits (dvd_of_alignUp halign)
    · rcases h.sound.takeBlock_cases supply aligned with ⟨err, hr, hst⟩ | ⟨e, t', hr, hle, ht⟩
      · simp only [reallocate, Arena.reallocate, halign, Block.ofPayload_payload, hsize,
          if_neg hfits, Outcome.result_andThen, Outcome.state_andThen, hr, hst]
        exact .refused
      · have hgrows := Nat.not_le.1 hfits
        obtain ⟨f, hf, heq⟩ := reallocate_of_taken h.sound hold halign hgrows hr hle ht
        rw [heq]
        exact .moved hold ht (Nat.le_of_lt (Nat.lt_of_lt_of_le hgrows hle)) hf

theorem effect_free (h : s.Invariant t) {p : Option Block} (hc : s.Tolerates (.free p)) :
    Effect s t c (s.free p) := by
  cases p with
  | none => exact .refused
  | some b =>
    by_cases hlive : b ∈ s.ledger.live
    · obtain ⟨e, he, rfl⟩ := h.exists_live hlive
      rw [free_of_live h he]
      exact .takenBack he
    · -- A second free that is tolerated finds the mark standing.
      rw [free_of_not_live h hc hlive]
      exact .refused

theorem effect_write (h : s.Invariant t) {offset n : Nat} {f : Nat → UInt8}
    (hb : b ∈ s.ledger.live) (hn : offset + n ≤ s.arena.heap.memory.blockSize b) :
    Effect s t (.write b offset n f) (s.write b offset n f) := by
  obtain ⟨e, he, rfl⟩ := h.exists_live hb
  rw [h.sound.blockSize_eq (Tiling.mem_of_live he)] at hn
  exact .written he hn

/-- **A tolerated call does one of the things listed.** -/
theorem effect_step (h : s.Invariant t) (hc : s.Tolerates c) : Effect s t c (s.step c) := by
  cases c with
  | allocate supply size => exact effect_allocate h.sound supply size
  | zeroAllocate supply count size => exact effect_zeroAllocate h.sound supply count size
  | reallocate supply p size =>
    cases p with
    | none => exact effect_allocate h.sound supply size
    | some b => exact effect_reallocate h supply size (hc b rfl)
  | free p => exact effect_free h hc
  | reset => exact .reset
  | write b offset n f => exact effect_write h hc.1 hc.2

/-! ## The invariant in every session

The step lemma is `Effect.valid` and the run lemma `Reachable.valid_of_tolerates`, by induction on
how the session was reached. A reset begins again with the empty tiling, as a new arena does. -/

/-- What a caller writes within the recorded size is within the payload. -/
theorem range_of_written {e : Extent} {offset n : Nat} (h : offset + n ≤ e.size) (x : Address)
    (hx : x.InRange (e.block.payload.plus offset) n) : x.InRange e.block.payload e.size := by
  simp only [Address.InRange, Address.plus] at *
  omega

/-- Without blocks there is nothing for a ledger to say. -/
theorem invariant_of_sound {a : Arena} (h : a.Sound {}) : Invariant { arena := a } {} := by
  refine ⟨h, .nil, rfl, ?_, ?_, ?_, ?_, ?_, ?_⟩
  all_goals simp [Tiling.extents]

/-- **Every effect keeps the invariant.** -/
theorem Effect.valid {s' : Session} (h : s.Invariant t) (he : Effect s t c s') : s'.Valid := by
  cases he with
  | refused => exact ⟨t, h⟩
  | handedOut taken => exact ⟨_, h.handOut taken⟩
  | zeroed taken =>
    exact ⟨_, (h.handOut taken).store taken.mem_live fun x hx => hx⟩
  | shrunk mem le dvd => exact ⟨_, Invariant.shrink h mem le dvd⟩
  | @moved _ old e a' t' f mem taken le copied =>
    -- Handing out, storing and taking back, one after the other: the three steps of which a move
    -- consists.
    have hstore := (h.handOut taken).store (p := e.block.payload) (n := old.size) (f := f)
      taken.mem_live fun x hx => hx.mono le
    exact ⟨_, hstore.takeBack (taken.mem_live_of_mem mem)⟩
  | takenBack mem => exact ⟨_, Invariant.takeBack h mem⟩
  | written mem le => exact ⟨t, Invariant.store h mem (range_of_written le)⟩
  | reset => exact ⟨{}, invariant_of_sound (Arena.sound_reset h.sound.chunks)⟩

/-- **What keeps to the contract is tolerated**: a block whose bytes were not handed out again has a
mark that stands. -/
theorem Invariant.tolerates (h : s.Invariant t) (hc : s.Respects c) : s.Tolerates c := by
  cases c with
  | free p =>
    intro b hb
    rcases hc b hb with hlive | hret
    · exact .inl hlive
    · obtain ⟨r, hr, rfl⟩ := List.mem_map.1 hret
      obtain ⟨hissued, -, hnone⟩ := h.retired r hr
      refine .inr ⟨hissued, fun v hv => ?_⟩
      rw [hnone _ (Address.inHeader_headerByte r.block (by decide))] at hv
      cases hv
  | allocate _ _ => exact hc
  | zeroAllocate _ _ _ => exact hc
  | reallocate _ _ _ => exact hc
  | reset => exact hc
  | write _ _ _ _ => exact hc

namespace Reachable

/-- **The invariant holds of every session that is reached.** -/
theorem valid_of_tolerates (h : Reachable Tolerates s) : s.Valid := by
  induction h with
  | new _ _ hnew => exact ⟨{}, invariant_of_sound (Arena.sound_create hnew)⟩
  | step _ hc ih =>
    obtain ⟨t, ht⟩ := ih
    exact (effect_step ht hc).valid ht

/-- Calls that keep to the contract lead nowhere that tolerated calls do not. -/
theorem tolerates (h : Reachable Respects s) : Reachable Tolerates s := by
  induction h with
  | new config supply hnew => exact .new config supply hnew
  | step _ hc ih =>
    obtain ⟨t, ht⟩ := ih.valid_of_tolerates
    exact ih.step (ht.tolerates hc)

theorem valid (h : Reachable Respects s) : s.Valid := h.tolerates.valid_of_tolerates

end Reachable

end Session

end ArenaAlloc

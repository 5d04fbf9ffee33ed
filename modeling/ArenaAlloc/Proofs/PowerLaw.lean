import ArenaAlloc.Proofs.Replay
import Mathlib.Data.Nat.Log

/-!
# Growth over a whole life

Without a ceiling each chunk that is added takes the capacity to a multiple of what it was, by a
power of the growth factor with a positive exponent. The rounding of lengths never shows, since the
capacity and what is asked for are multiples of the alignment. So the capacity is always the first
chunk's length times a power whose exponent is at least the number of chunks added
(`Chunks.PowerOf`), and as the capacity fits a word there are few chunks.

## At least, not exactly

One growth may multiply more than once, when the request is long. So the exponent is not the number
of chunks but a bound on it, and the bound is what is wanted: it makes the number of chunks
logarithmic in the capacity. The capacity is at most a word, so there are at most 64 chunks, and the
index of a chunk is never what runs out.

## Overflow

The one way out is a product that no word holds: the chunk is then just long enough.
`Session.Overgrows` names the calls that come to it, and `capacity_is_power` is about the runs
without any. The condition is about the call and the state before it, and `not_overgrows_of_lt`
shows it from a bound on the capacity and the size, so it can be checked of a run.

The first half of the file finds the calls that add a chunk. Every operation asks the chunks through
`takeBlock`, for a size that is a function of the call and the state (`Call.demand?`), and
`layout_cases` and `error_cases` are what that comes to: a call adds one chunk or none, and if it is
refused then for a size or because the chunks cannot grow.
-/

namespace ArenaAlloc

namespace Growth

/-- Multiplying the capacity until there is room for `total` more bytes takes a product that no word
holds. -/
def Overflows (capacity factor total : Nat) : Prop :=
  ∃ k, capacity * factor ^ k < capacity + total ∧ wordLimit ≤ capacity * factor ^ (k + 1)

variable {capacity factor total length : Nat}

/-- A geometric length takes the capacity to a higher power, unless a product overflows. -/
theorem Geometric.exists_power (h : Geometric capacity factor total length)
    (hno : ¬ Overflows capacity factor total) (hpos : 0 < total) :
    ∃ k, 0 < k ∧ capacity + length = capacity * factor ^ k := by
  obtain ⟨k, henough, hleast, hlength⟩ := h
  cases k with
  | zero =>
    simp only [Nat.pow_zero, Nat.mul_one] at henough
    omega
  | succ k =>
    have hfits : capacity * factor ^ (k + 1) < wordLimit := by
      refine Nat.lt_of_not_le fun hlarge => hno ⟨k, ?_, hlarge⟩
      exact hleast k (Nat.lt_succ_self k)
    rw [if_pos hfits] at hlength
    refine ⟨k + 1, Nat.succ_pos k, ?_⟩
    omega

/-- No product overflows while what is needed, times the factor, fits a word. -/
theorem Overflows.le_mul (h : Overflows capacity factor total) :
    wordLimit ≤ (capacity + total) * factor := by
  obtain ⟨k, hsmall, hlarge⟩ := h
  calc wordLimit
      ≤ capacity * factor ^ k * factor := by rwa [Nat.mul_assoc, ← Nat.pow_succ]
    _ ≤ (capacity + total) * factor := Nat.mul_le_mul_right factor (Nat.le_of_lt hsmall)

end Growth

/-! ## Where a call adds a chunk

The converse of the lemmas on growing: there a refusal was derived from what the chunks are, here it
is given and the reason is found. -/

namespace Chunks

variable {c : Chunks} {s : Supply} {e : AllocError} {size : Nat}

/-- Carving is refused because the header no longer fits a word, or because growing is. -/
theorem carve_error_cases (h : (c.carve s size).result = .error e) :
    e = .sizeOverflow 1 size ∨
      (∀ i, c.current ≤ i → ¬ c.RoomAt size i) ∧
        (c.grow s (size + headerSize)).result = .error e := by
  cases hroom : c.roomFor? size with
  | some i =>
    have hfirst := FirstRoom.of_roomFor? hroom
    obtain ⟨k, hk, -⟩ := hfirst.2.1
    rw [carve_of_firstRoom hfirst hk] at h
    cases h
  | none =>
    have hno := not_roomAt_of_roomFor? hroom
    rcases Nat.lt_or_ge (size + headerSize) wordLimit with hlt | hge
    · rcases grow_cases c s (size + headerSize) with ⟨e', hgrow, -⟩ | ⟨length, s', hgrows, -, -⟩
      · rw [carve_of_grow_error hno hlt hgrow] at h
        cases h
        exact .inr ⟨hno, hgrow⟩
      · rw [(carve_of_grows hno hgrows).1] at h
        cases h
    · rw [carve_of_overflow hno hge] at h
      cases h
      exact .inl rfl

/-- Why growing is refused. A chunk of no bytes is named only where there are too many chunks. -/
theorem grow_error_cases {total : Nat} (hpos : 0 < total)
    (h : (c.grow s total).result = .error e) :
    e = .sizeOverflow 1 total ∨ (∃ length limit, e = .capacityExceeded length c.capacity limit) ∨
      (chunkLimit ≤ c.count ∧ e = .outOfMemory 0) ∨
      ∃ length, 0 < length ∧ e = .outOfMemory length := by
  cases hnext : c.nextLength total with
  | none =>
    rw [grow_of_nextLength_eq_none hnext] at h
    cases h
    exact .inl rfl
  | some length =>
    cases hexceeds : c.exceeds length with
    | true =>
      obtain ⟨limit, hceiling, -⟩ := exceeds_eq_true_iff.1 hexceeds
      rw [grow_of_exceeds hnext hceiling hexceeds] at h
      cases h
      exact .inr (.inl ⟨length, limit, rfl⟩)
    | false =>
      rw [grow_of_within hnext hexceeds] at h
      split at h
      · cases h
        exact .inr (.inr (.inl ⟨‹_›, rfl⟩))
      · have hlength := Nat.lt_of_lt_of_le hpos (le_of_nextLength hnext)
        cases hobtain : s.obtain length with
        | error e' =>
          rw [hobtain] at h
          cases h
          exact .inr (.inr (.inr ⟨length, hlength, Supply.obtain_eq_error hobtain hlength⟩))
        | ok s' =>
          rw [hobtain] at h
          cases h

end Chunks

namespace Arena

variable {a : Arena} {g : Supply} {e : AllocError} {size n : Nat}

/-- There is a length for every chunk. -/
theorem length_layout (a : Arena) : a.layout.length = a.chunks.count := List.length_map _

/-- A block is taken without a new chunk, or from one that is added for it. -/
theorem layout_takeBlock_cases (a : Arena) (g : Supply) (halign : alignUp size = some n) :
    (a.takeBlock g size).state.1.layout = a.layout ∨
      ∃ length g', a.chunks.Grows g (n + headerSize) length g' ∧
        (a.takeBlock g size).state.1.layout = a.layout ++ [length] := by
  simp only [takeBlock, halign]
  cases a.heap.firstFit? a.layout n with
  | some found => exact .inl (congrArg Chunks.layout rfl)
  | none =>
    simp only [Outcome.state_andThen]
    rcases Chunks.carve_cases a.chunks g n with ⟨e, hr, hst⟩ | ⟨b, c, g', hr, hst, hfrom⟩
    · simp only [hr, hst, true_or]
    · simp only [hr, hst]
      rcases hfrom with ⟨i, -, hat, -⟩ | ⟨length, -, hgrows, hat⟩
      · exact .inl (Chunks.layout_carveAt hat)
      · refine .inr ⟨length, g', hgrows, ?_⟩
        exact (Chunks.layout_carveAt hat).trans (a.chunks.layout_added length)

/-- Taking a block is refused by the chunks, or before they are asked. -/
theorem takeBlock_error_cases (halign : alignUp size = some n)
    (h : (a.takeBlock g size).result = .error e) :
    e = .sizeOverflow 1 n ∨
      (∀ i, a.chunks.current ≤ i → ¬ a.chunks.RoomAt n i) ∧
        (a.chunks.grow g (n + headerSize)).result = .error e := by
  simp only [takeBlock, halign] at h
  cases hfit : a.heap.firstFit? a.layout n with
  | some found =>
    rw [hfit] at h
    cases h
  | none =>
    simp only [hfit, Outcome.result_andThen] at h
    refine Chunks.carve_error_cases ?_
    cases hcarve : (a.chunks.carve g n).result with
    | error e' =>
      rw [hcarve] at h
      cases h
      rfl
    | ok b =>
      rw [hcarve] at h
      cases h

end Arena

namespace Call

variable {a : Arena} {c : Call} {e : AllocError} {n : Nat}

/-- The payload size, rounded up, of the block that a call needs from the arena. A block that is
large enough already needs no other. -/
def demand? (c : Call) (a : Arena) : Option Nat :=
  match c with
  | .reallocate _ (some b) size => (alignUp size).filter (a.heap.memory.blockSize b < ·)
  | c => c.asks

/-- A call that needs a block takes one of that size. -/
theorem takes_of_demand? (h : c.demand? a = some n) :
    alignUp n = some n ∧ ∃ g, c.Takes a g n := by
  have hasks : c.asks = some n → alignUp n = some n ∧ ∃ g, c.Takes a g n := by
    intro hasks
    obtain ⟨halign, g, htakes⟩ := takes_of_asks hasks
    exact ⟨halign, g, htakes a⟩
  cases c with
  | reallocate g p size =>
    cases p with
    | none => exact hasks h
    | some b =>
      obtain ⟨halign, hgrows⟩ := Option.filter_eq_some_iff.1 h
      exact ⟨alignUp_alignUp halign, g, takes_reallocate halign (of_decide_eq_true hgrows)⟩
  | allocate g size => exact hasks h
  | zeroAllocate g count size => exact hasks h
  | free p => cases h
  | reset => cases h
  | write b offset n f => cases h

/-- A call that needs no block adds no chunk, and if it is refused then for its size. -/
theorem of_demand?_eq_none (h : c.demand? a = none) :
    (c.perform a).state.1.layout = a.layout ∧
      ∀ e, (c.perform a).result = .error e → ∃ count size, e = .sizeOverflow count size := by
  have hrefused : ∀ (g : Supply) (size : Nat), alignUp size = none →
      a.allocate g size = ⟨.error (.sizeOverflow 1 size), (a, g), []⟩ := by
    intro g size halign
    simp only [Arena.allocate, Arena.takeBlock, halign]
    rfl
  cases c with
  | allocate g size =>
    simp only [perform, hrefused g size h]
    exact ⟨rfl, fun e he => ⟨1, size, by cases he; rfl⟩⟩
  | zeroAllocate g count size =>
    simp only [demand?, asks, Option.bind_eq_none_iff] at h
    cases hmul : checkedMul count size with
    | none =>
      simp only [perform, Arena.zeroAllocate, hmul]
      exact ⟨rfl, fun e he => ⟨count, size, by cases he; rfl⟩⟩
    | some total =>
      simp only [perform, Arena.zeroAllocate, Arena.takeBlock, hmul, h total hmul]
      exact ⟨rfl, fun e he => ⟨1, total, by cases he; rfl⟩⟩
  | reallocate g p size =>
    cases p with
    | none =>
      simp only [perform, Option.map_none, Arena.reallocate, hrefused g size h]
      exact ⟨rfl, fun e he => ⟨1, size, by cases he; rfl⟩⟩
    | some b =>
      simp only [demand?, Option.filter_eq_none_iff, decide_eq_true_eq, Nat.not_lt] at h
      cases halign : alignUp size with
      | none =>
        simp only [perform, Option.map_some, Arena.reallocate, halign]
        exact ⟨rfl, fun e he => ⟨1, size, by cases he; rfl⟩⟩
      | some n =>
        simp only [perform, Option.map_some, Arena.reallocate, halign, Block.ofPayload_payload,
          if_pos (h n halign)]
        exact ⟨rfl, fun e he => by cases he⟩
  | free p =>
    refine ⟨?_, fun e he => by cases he⟩
    cases p with
    | none => rfl
    | some b => exact congrArg Chunks.layout (a.chunks_giveBlock _)
  | reset => exact ⟨a.chunks.layout_rewind, fun e he => by cases he⟩
  | write b offset n f => exact ⟨rfl, fun e he => by cases he⟩

/-- **What a call can do to the chunks**: leave them as many as they are, or add one for the block
that it needs. -/
theorem layout_cases (c : Call) (a : Arena) :
    (c.perform a).state.1.layout = a.layout ∨
      ∃ n g length g', c.demand? a = some n ∧ maxAlign ∣ n ∧
        a.chunks.Grows g (n + headerSize) length g' ∧
        (c.perform a).state.1.layout = a.layout ++ [length] := by
  cases hdemand : c.demand? a with
  | none => exact .inl (of_demand?_eq_none hdemand).1
  | some n =>
    obtain ⟨halign, g, htakes⟩ := takes_of_demand? hdemand
    rw [htakes.layout]
    -- The call's layout is that of `takeBlock`, whichever operation it is.
    rcases a.layout_takeBlock_cases g halign with hsame | ⟨length, g', hgrows, hmore⟩
    · exact .inl hsame
    · exact .inr ⟨n, g, length, g', rfl, dvd_of_alignUp halign, hgrows, hmore⟩

/-- **Why a call is refused**: for a size, or because the chunks cannot grow. -/
theorem error_cases (h : (c.perform a).result = .error e) :
    (∃ count size, e = .sizeOverflow count size) ∨
      ∃ n g, c.demand? a = some n ∧ (∀ i, a.chunks.current ≤ i → ¬ a.chunks.RoomAt n i) ∧
        (a.chunks.grow g (n + headerSize)).result = .error e := by
  cases hdemand : c.demand? a with
  | none => exact .inl ((of_demand?_eq_none hdemand).2 e h)
  | some n =>
    obtain ⟨halign, g, htakes⟩ := takes_of_demand? hdemand
    have htaken : (a.takeBlock g n).result = .error e := by
      have hresult := htakes.result.symm.trans h
      cases htake : (a.takeBlock g n).result with
      | error e' =>
        rw [htake] at hresult
        cases hresult
        rfl
      | ok b =>
        rw [htake] at hresult
        cases hresult
    rcases Arena.takeBlock_error_cases halign htaken with rfl | ⟨hno, hgrow⟩
    · exact .inl ⟨1, n, rfl⟩
    · exact .inr ⟨n, g, rfl, hno, hgrow⟩

end Call

/-! ## The power

`PowerOf` holds of a new arena with exponent 0 and one chunk. A step adds a chunk, and a positive
number to the exponent, or changes neither. -/

namespace Chunks

variable {c c' : Chunks} {first factor total length : Nat}

/-- There is no ceiling, and the capacity is that of the first chunk times a power of the factor,
with an exponent no less than the number of chunks that were added. -/
structure PowerOf (c : Chunks) (first factor : Nat) : Prop where
  growthFactor : c.growthFactor = factor
  ceiling : c.ceiling = none
  exists_power : ∃ k, c.count ≤ k + 1 ∧ c.capacity = first * factor ^ k

/-- A chunk added without overflow takes the capacity to a higher power. -/
theorem Growable.exists_power (h : c.Growable total) (hceiling : c.ceiling = none)
    (hnext : c.nextLength total = some length) (hpos : 0 < total)
    (hno : ¬ Growth.Overflows c.capacity c.growthFactor total) :
    ∃ k, 0 < k ∧ c.capacity + length = c.capacity * c.growthFactor ^ k := by
  obtain ⟨geometric, hgeometric, hlength⟩ := h.addsLength hnext
  have hwithin : c.exceeds geometric = false := by
    simp only [exceeds, hceiling]
  rw [hwithin] at hlength
  cases hlength
  exact hgeometric.exists_power hno hpos

/-- A new arena has one chunk, and the exponent is zero. -/
theorem powerOf_create {config : Config} {s s' : Supply} (hvalid : config.fault? = none)
    (hceiling : config.maxCapacity = none) (h : create config s = .ok (c, s')) :
    ∃ first, alignUp config.initialCapacity = some first ∧ 0 < first ∧ first ≤ c.capacity ∧
      c.PowerOf first config.growthFactor := by
  obtain ⟨first, halign, -, rfl⟩ := create_eq_ok h
  have hmin := (Config.fault?_eq_none_iff.1 hvalid).1
  refine ⟨first, halign, ?_, Nat.le_refl _, rfl, hceiling, 0, Nat.le_refl 1, ?_⟩
  · exact Nat.lt_of_lt_of_le (by decide) (Nat.le_trans hmin (le_of_alignUp halign))
  · rw [Nat.pow_zero, Nat.mul_one]
    rfl

/-- A chunk more, and an exponent that is higher by one at least. -/
theorem PowerOf.grows (h : c.PowerOf first factor) (hext : c.Extends c')
    (hgrowable : c.Growable total) (hnext : c.nextLength total = some length) (hpos : 0 < total)
    (hno : ¬ Growth.Overflows c.capacity c.growthFactor total)
    (hlayout : c'.layout = c.layout ++ [length]) : c'.PowerOf first factor := by
  obtain ⟨k, hk, hcapacity⟩ := h.exists_power
  obtain ⟨j, hj, hgrown⟩ := hgrowable.exists_power h.ceiling hnext hpos hno
  refine ⟨hext.growthFactor.trans h.growthFactor, hext.ceiling.trans h.ceiling, k + j, ?_, ?_⟩
  · rw [← length_layout, hlayout, List.length_append, length_layout, List.length_singleton]
    omega
  · calc c'.capacity
        = c.capacity + length := by rw [capacity, hlayout, total_append]; rfl
      _ = first * factor ^ k * factor ^ j := by rw [hgrown, hcapacity, h.growthFactor]
      _ = first * factor ^ (k + j) := by rw [Nat.mul_assoc, ← Nat.pow_add]

/-- **As the capacity fits a word, there are few chunks.** -/
theorem PowerOf.count_le (h : c.PowerOf first factor) (hfactor : 2 ≤ factor)
    (hfirst : 0 < first) (hlt : c.capacity < wordLimit) :
    c.count ≤ 1 + Nat.log factor (wordLimit / first) ∧
      c.count ≤ 1 + Nat.log factor (c.capacity / first) ∧ c.count < chunkLimit := by
  obtain ⟨k, hk, hcapacity⟩ := h.exists_power
  have hpower : factor ^ k = c.capacity / first := by
    rw [hcapacity, Nat.mul_div_cancel_left _ hfirst]
  have hle : factor ^ k ≤ wordLimit / first := by
    rw [hpower]
    exact Nat.div_le_div_right (Nat.le_of_lt hlt)
  have hlog : k ≤ Nat.log factor (wordLimit / first) := Nat.le_log_of_pow_le hfactor hle
  have hlog' : k ≤ Nat.log factor (c.capacity / first) :=
    Nat.le_log_of_pow_le hfactor (Nat.le_of_eq hpower)
  -- The factor is two at least, so the exponent is below the number of bits in a word.
  have hsmall : 2 ^ k < 2 ^ 64 := calc
    2 ^ k ≤ factor ^ k := Nat.pow_le_pow_left hfactor k
    _ ≤ first * factor ^ k := Nat.le_mul_of_pos_left _ hfirst
    _ < 2 ^ 64 := hcapacity ▸ hlt
  have hexponent : k < 64 := (Nat.pow_lt_pow_iff_right (Nat.lt_succ_self 1)).1 hsmall
  refine ⟨by omega, by omega, ?_⟩
  simp only [chunkLimit]
  omega

end Chunks

namespace Session

variable {s : Session} {c : Call} {cs : List Call} {first factor : Nat}

/-- The call adds a chunk for which multiplying the capacity took a product that no word holds. -/
def Overgrows (s : Session) (c : Call) : Prop :=
  s.arena.chunks.count < (s.step c).arena.chunks.count ∧
    ∃ n, c.demand? s.arena = some n ∧
      Growth.Overflows s.arena.capacity s.arena.chunks.growthFactor (n + headerSize)

/-- A call does not overgrow while the sum of capacity and demand has room for one more
multiplication. -/
theorem not_overgrows_of_lt (h : ∀ n ∈ c.demand? s.arena,
    (s.arena.capacity + (n + headerSize)) * s.arena.chunks.growthFactor < wordLimit) :
    ¬ s.Overgrows c := by
  rintro ⟨-, n, hdemand, hover⟩
  exact Nat.not_lt.2 hover.le_mul (h n hdemand)

/-- **A call that does not overgrow keeps the power.** -/
theorem powerOf_step (hsound : s.arena.chunks.Sound) (hcapacity : 0 < s.arena.capacity)
    (hfactor : 2 ≤ factor) (h : s.arena.chunks.PowerOf first factor) (hno : ¬ s.Overgrows c) :
    (s.step c).arena.chunks.PowerOf first factor := by
  have hext := s.extends_step c
  have hcases := c.layout_cases s.arena
  rw [← arena_step] at hcases
  -- No chunk was added, or one was, for what the call demanded.
  rcases hcases with hsame | ⟨n, g, length, g', hdemand, hdvd, hgrows, hmore⟩
  · obtain ⟨k, hk, hpower⟩ := h.exists_power
    refine ⟨hext.growthFactor.trans h.growthFactor, hext.ceiling.trans h.ceiling, k, ?_, ?_⟩
    · rw [← Arena.length_layout, hsame, Arena.length_layout]
      exact hk
    · rw [← hpower]
      exact congrArg total hsame
  · have hgrowable : s.arena.chunks.Growable (n + headerSize) :=
      ⟨hsound, hcapacity, h.growthFactor ▸ hfactor, Nat.dvd_add hdvd ⟨2, rfl⟩,
        Chunks.lt_of_nextLength hgrows.next⟩
    have hcount : s.arena.chunks.count < (s.step c).arena.chunks.count := by
      rw [← Arena.length_layout, ← Arena.length_layout, hmore, List.length_append]
      exact Nat.lt_succ_self _
    refine h.grows hext hgrowable hgrows.next (Nat.add_pos_right n (by decide)) ?_ hmore
    intro hover
    exact hno ⟨hcount, n, hdemand, hover⟩

theorem powerOf_run (hsound : s.arena.chunks.Sound) (hcapacity : 0 < s.arena.capacity)
    (hfactor : 2 ≤ factor) (h : s.arena.chunks.PowerOf first factor)
    (hkeeps : Keeps (fun s c => ¬ s.Overgrows c) s cs) :
    (s.run cs).arena.chunks.PowerOf first factor := by
  induction cs generalizing s with
  | nil => exact h
  | cons c cs ih =>
    obtain ⟨hno, hkeeps⟩ := hkeeps
    have hext := s.extends_step c
    -- The capacity stays positive, since chunks are only added.
    have hgrown : s.arena.capacity ≤ (s.step c).arena.capacity := by
      obtain ⟨more, hmore⟩ := hext.layout
      show total _ ≤ total _
      rw [← hmore, total_append]
      exact Nat.le_add_right _ _
    exact ih (hext.sound hsound) (Nat.lt_of_lt_of_le hcapacity hgrown)
      (powerOf_step hsound hcapacity hfactor h hno) hkeeps

variable {config : Config} {supply : Supply} {a : Arena}

/-- **The capacity is a power law.** In a run without a ceiling and without overflow in a growth,
the capacity is the configured one, rounded up, times a power of the growth factor, and each chunk
that was added has raised the exponent. So the number of chunks is at most logarithmic, in the words
there are and in the capacity reached, and no call is refused because chunks could no longer be told
apart. -/
theorem capacity_is_power (hnew : (Arena.create config supply).result = .ok a)
    (hceiling : config.maxCapacity = none)
    (hkeeps : Keeps (fun s c => ¬ s.Overgrows c) { arena := a } cs) :
    ∃ first k, alignUp config.initialCapacity = some first ∧
      let s := run { arena := a } cs
      s.arena.capacity = first * config.growthFactor ^ k ∧ s.arena.chunks.count ≤ k + 1 ∧
        s.arena.chunks.count ≤ 1 + Nat.log config.growthFactor (wordLimit / first) ∧
        s.arena.chunks.count ≤ 1 + Nat.log config.growthFactor (s.arena.capacity / first) ∧
        s.arena.chunks.count < chunkLimit ∧
        ∀ c : Call, (c.perform s.arena).result ≠ .error (.outOfMemory 0) := by
  have hext := extends_run { arena := a } cs
  obtain ⟨hvalid, c, supply', hchunks, rfl⟩ := Arena.create_eq_ok hnew
  have hsound := (Chunks.sound_create hchunks).1
  have hfactor := (Config.fault?_eq_none_iff.1 hvalid).2.2.1
  obtain ⟨first, halign, hpos, hle, hpower⟩ := Chunks.powerOf_create hvalid hceiling hchunks
  have hrun := powerOf_run (s := ⟨⟨c, ⟨supply.contents, none⟩⟩, {}⟩) hsound
    (Nat.lt_of_lt_of_le hpos hle) hfactor hpower hkeeps
  obtain ⟨k, hk, hcapacity⟩ := hrun.exists_power
  obtain ⟨hlog, hlog', hcount⟩ := hrun.count_le hfactor hpos (hext.sound hsound).capacity_lt
  refine ⟨first, k, halign, hcapacity, hk, hlog, hlog', hcount, fun c hrefused => ?_⟩
  rcases Call.error_cases hrefused with ⟨count, size, heq⟩ | ⟨n, g, -, -, hgrow⟩
  · cases heq
  · rcases Chunks.grow_error_cases (Nat.add_pos_right n (by decide)) hgrow with
      heq | ⟨length, limit, heq⟩ | ⟨hle, -⟩ | ⟨length, hlength, heq⟩
    · cases heq
    · cases heq
    · exact Nat.not_lt.2 hle hcount
    · cases heq
      exact Nat.lt_irrefl 0 hlength

/-- Two chunks are added. The first takes two multiplications, the second comes after a reset and
skips what the first one added. -/
theorem capacity_is_power_of_run :
    ∃ a, (Arena.create { initialCapacity := 50, growthFactor := 3 } .unlimited).result = .ok a ∧
      let s := run { arena := a } [.allocate .unlimited 16, .zeroAllocate .unlimited 2 100, .reset,
        .allocate (.limited 0) 2000, .allocate .unlimited 600]
      s.arena.layout = [64, 512, 1152] ∧
        ∃ k, s.arena.capacity = 64 * 3 ^ k ∧ s.arena.chunks.count ≤ k + 1 ∧
          ∀ c : Call, (c.perform s.arena).result ≠ .error (.outOfMemory 0) := by
  have hnew : (Arena.create { initialCapacity := 50, growthFactor := 3 } .unlimited).result =
      .ok { chunks := ⟨[{ length := 64 }], 0, 3, none⟩ } := rfl
  refine ⟨_, hnew, by decide +kernel, ?_⟩
  have hkeeps : Keeps (fun s c => ¬ s.Overgrows c)
      { arena := { chunks := ⟨[{ length := 64 }], 0, 3, none⟩ } }
      [.allocate .unlimited 16, .zeroAllocate .unlimited 2 100, .reset,
        .allocate (.limited 0) 2000, .allocate .unlimited 600] :=
    ⟨not_overgrows_of_lt (by decide +kernel), not_overgrows_of_lt (by decide +kernel),
      not_overgrows_of_lt (by decide +kernel), not_overgrows_of_lt (by decide +kernel),
      not_overgrows_of_lt (by decide +kernel), trivial⟩
  obtain ⟨first, k, halign, hcapacity, hcount, -, -, -, hrefused⟩ :=
    capacity_is_power hnew rfl hkeeps
  have hfirst : first = 64 := Option.some.inj halign.symm
  rw [hfirst] at hcapacity
  exact ⟨k, hcapacity, hcount, hrefused⟩

end Session

end ArenaAlloc

import ArenaAlloc.Proofs.Refusal
import ArenaAlloc.Proofs.Soundness

/-!
# The ceiling

`Chunks.Extends` says what becomes of an arena's chunks whatever its callers do: the rule of growth
stays, chunks are only added, behind those that are there, and none that passes the ceiling. Every
call extends the chunks in this sense (`extends_step`), so every run does.

The first chunk is not added but there from the start. What is compared with the ceiling is the
length that was configured, and the chunk has it rounded up; so the first chunk alone can pass a
ceiling that is not a multiple of the alignment, by less than one alignment step. An arena that
starts so never grows, and no other arena passes its ceiling (`capacity_le_ceiling_iff`).

## What has to be followed

`capacity` counts whole chunks, so carving and rewinding do not change it; only adding a chunk does.
`Extends` therefore follows the list of lengths, the *layout*: it is a prefix of the later one, and
where the two differ the later capacity is within the ceiling. The disjunction `within` is what
makes the relation transitive. It says "nothing was added, or the last time something was added it
was within the ceiling", and not "the capacity is within the ceiling", which the first chunk may
violate.

The ledger and the contract do not occur. `extends_step` holds of every call in every state, also of
one that is undefined behaviour for a caller to make, because no call decides about a chunk by what
is in memory.
-/

namespace ArenaAlloc

namespace Chunks

/-- What any number of calls makes of the chunks. -/
structure Extends (c c' : Chunks) : Prop where
  growthFactor : c'.growthFactor = c.growthFactor
  ceiling : c'.ceiling = c.ceiling
  layout : c.layout <+: c'.layout
  within : c'.layout = c.layout ∨ ∀ limit, c.ceiling = some limit → c'.capacity ≤ limit
  sound : c.Sound → c'.Sound

variable {c c' c'' : Chunks} {s s' : Supply} {b : Block} {i size length : Nat}

namespace Extends

/-- Nothing happened. -/
theorem refl (c : Chunks) : c.Extends c := ⟨rfl, rfl, List.prefix_rfl, .inl rfl, id⟩

theorem trans (h : c.Extends c') (h' : c'.Extends c'') : c.Extends c'' := by
  refine ⟨h'.growthFactor.trans h.growthFactor, h'.ceiling.trans h.ceiling,
    h.layout.trans h'.layout, ?_, fun hs => h'.sound (h.sound hs)⟩
  -- If the second step added nothing, what the first left is still there.
  rcases h'.within with hsame | hwithin
  · -- The capacity is a sum over the layout, so it stays where the layout does.
    rw [capacity, hsame]
    exact h.within
  · rw [h.ceiling] at hwithin
    exact .inr hwithin

/-- Where only what is carved changes. -/
theorem of_layout (hfactor : c'.growthFactor = c.growthFactor) (hceiling : c'.ceiling = c.ceiling)
    (hlayout : c'.layout = c.layout) (hsound : c.Sound → c'.Sound) : c.Extends c' :=
  ⟨hfactor, hceiling, hlayout ▸ List.prefix_rfl, .inl hlayout, hsound⟩

/-- Carving moves the bump offset of one chunk. -/
theorem of_carveAt (hsize : maxAlign ∣ size) (h : c.carveAt i size = some (b, c')) :
    c.Extends c' := by
  have hlayout := layout_carveAt h
  have hsound : c.Sound → c'.Sound := fun hs => (carveAt_eq_some hs hsize h).sound
  obtain ⟨k, -, -, -, rfl⟩ := carveAt_eq_some_iff.1 h
  exact of_layout rfl rfl hlayout hsound

/-- A reset sets the bump offsets to zero and keeps the chunks. -/
theorem of_rewind (c : Chunks) : c.Extends c.rewind :=
  of_layout rfl rfl (layout_rewind c) sound_rewind

end Extends

/-- The capacity is a sum, so a chunk adds its length. -/
theorem capacity_added (c : Chunks) (length : Nat) :
    (c.added length).capacity = c.capacity + length := by
  rw [capacity, layout_added, total_append]
  rfl

/-- A chunk is only added within the ceiling. -/
theorem Grows.extends {total : Nat} (h : c.Grows s total length s') (ht : maxAlign ∣ total) :
    c.Extends (c.added length) := by
  refine ⟨rfl, rfl, ?_, .inr fun limit hlimit => ?_, fun hs => h.sound hs ht⟩
  · rw [layout_added]
    exact List.prefix_append _ _
  · -- `exceeds` was computed before the chunk was added, for the length that was then added.
    have hwithin := h.within
    simp only [exceeds, hlimit, decide_eq_false_iff_not, Nat.not_lt] at hwithin
    rw [capacity_added]
    exact hwithin

/-- A block is carved from a chunk that is there, or from one that was added within the ceiling. -/
theorem extends_carve (c : Chunks) (s : Supply) (hsize : maxAlign ∣ size) :
    c.Extends (c.carve s size).state.1 := by
  rcases carve_cases c s size with ⟨e, -, hst⟩ | ⟨b, c', s', -, hst, hfrom⟩
  · rw [hst]
    exact .refl c
  · rw [hst]
    rcases hfrom with ⟨i, -, hat, -⟩ | ⟨length, -, hgrows, hat⟩
    · exact .of_carveAt hsize hat
    · exact (hgrows.extends (Nat.dvd_add hsize ⟨2, rfl⟩)).trans (.of_carveAt hsize hat)

end Chunks

namespace Arena

/-- A block is taken back without a look at the chunks. -/
theorem chunks_giveBlock (a : Arena) (b : Block) : (a.giveBlock b).state.chunks = a.chunks := by
  unfold giveBlock
  split <;> rfl

/-- Only a request that the free list does not serve can add a chunk. -/
theorem extends_takeBlock (a : Arena) (s : Supply) (size : Nat) :
    a.chunks.Extends (a.takeBlock s size).state.1.chunks := by
  unfold takeBlock
  cases halign : alignUp size with
  | none => exact .refl _
  | some aligned =>
    have hcarve := a.chunks.extends_carve s (dvd_of_alignUp halign)
    dsimp only
    cases a.heap.firstFit? a.layout aligned with
    | some found => exact .refl _
    | none =>
      simp only [Outcome.state_andThen]
      cases (a.chunks.carve s aligned).result <;> exact hcarve

theorem extends_allocate (a : Arena) (s : Supply) (size : Nat) :
    a.chunks.Extends (a.allocate s size).state.1.chunks := a.extends_takeBlock s size

/-- The rest of what the other requests do is not about the chunks. -/
theorem chunks_zeroAllocate {count size n : Nat} (a : Arena) (s : Supply)
    (h : checkedMul count size = some n) :
    (a.zeroAllocate s count size).state.1.chunks = (a.takeBlock s n).state.1.chunks := by
  simp only [zeroAllocate, h, Outcome.state_andThen]
  generalize a.takeBlock s n = o
  cases o.result <;> rfl

theorem chunks_reallocate {p : Address} {size n : Nat} (a : Arena) (s : Supply)
    (halign : alignUp size = some n)
    (hgrows : a.heap.memory.blockSize (Block.ofPayload p) < n) :
    (a.reallocate s (some p) size).state.1.chunks = (a.takeBlock s n).state.1.chunks := by
  simp only [reallocate, halign, if_neg (Nat.not_le.2 hgrows), Outcome.state_andThen]
  generalize a.takeBlock s n = o
  cases o.result with
  | error e => rfl
  | ok target =>
    simp only [Outcome.state_mapState, Outcome.state_map, chunks_giveBlock]
    rfl

/-- Nor is it about the supply. -/
theorem supply_zeroAllocate {count size n : Nat} (a : Arena) (s : Supply)
    (h : checkedMul count size = some n) :
    (a.zeroAllocate s count size).state.2 = (a.takeBlock s n).state.2 := by
  simp only [zeroAllocate, h, Outcome.state_andThen]
  generalize a.takeBlock s n = o
  cases o.result <;> rfl

theorem supply_reallocate {p : Address} {size n : Nat} (a : Arena) (s : Supply)
    (halign : alignUp size = some n)
    (hgrows : a.heap.memory.blockSize (Block.ofPayload p) < n) :
    (a.reallocate s (some p) size).state.2 = (a.takeBlock s n).state.2 := by
  simp only [reallocate, halign, if_neg (Nat.not_le.2 hgrows), Outcome.state_andThen]
  generalize a.takeBlock s n = o
  cases o.result with
  | error e => rfl
  | ok target => simp only [Outcome.state_mapState]

theorem extends_zeroAllocate (a : Arena) (s : Supply) (count size : Nat) :
    a.chunks.Extends (a.zeroAllocate s count size).state.1.chunks := by
  cases hmul : checkedMul count size with
  | none =>
    simp only [zeroAllocate, hmul]
    exact .refl _
  | some n =>
    rw [a.chunks_zeroAllocate s hmul]
    exact a.extends_takeBlock s n

theorem extends_reallocate (a : Arena) (s : Supply) (p : Option Address) (size : Nat) :
    a.chunks.Extends (a.reallocate s p size).state.1.chunks := by
  cases p with
  | none => exact a.extends_allocate s size
  | some p =>
    cases halign : alignUp size with
    | none =>
      simp only [reallocate, halign]
      exact .refl _
    | some n =>
      by_cases hfits : n ≤ a.heap.memory.blockSize (Block.ofPayload p)
      · simp only [reallocate, halign, if_pos hfits]
        exact .refl _
      · rw [a.chunks_reallocate s halign (Nat.not_le.1 hfits)]
        exact a.extends_takeBlock s n

end Arena

theorem Call.extends_perform (c : Call) (a : Arena) :
    a.chunks.Extends (c.perform a).state.1.chunks := by
  cases c with
  | allocate s size => exact a.extends_allocate s size
  | zeroAllocate s count size => exact a.extends_zeroAllocate s count size
  | reallocate s p size => exact a.extends_reallocate s (p.map Block.payload) size
  | free p =>
    cases p with
    | none => exact .refl _
    | some b =>
      simp only [perform, Option.map_some, Arena.free, Arena.chunks_giveBlock]
      exact .refl _
  | reset => exact .of_rewind a.chunks
  | write b offset n f => exact .refl _

namespace Session

theorem chunks_free (s : Session) (p : Option Block) :
    (s.free p).arena.chunks = s.arena.chunks := by
  cases p with
  | none => rfl
  | some b => exact Arena.chunks_giveBlock _ _

/-- **Every call extends the chunks**, whether or not it keeps to the contract. -/
theorem extends_step (s : Session) (c : Call) :
    s.arena.chunks.Extends (s.step c).arena.chunks := by
  rw [arena_step]
  exact c.extends_perform s.arena

/-- By induction on the calls: the relation is reflexive and transitive. -/
theorem extends_run (s : Session) (cs : List Call) :
    s.arena.chunks.Extends (s.run cs).arena.chunks := by
  induction cs generalizing s with
  | nil => exact .refl _
  | cons c cs ih => exact (s.extends_step c).trans (ih (s.step c))

variable {config : Config} {supply : Supply} {a : Arena} {limit : Nat}

/-- **When the ceiling holds**: in every state that calls lead to, the capacity is within the
ceiling exactly if the first chunk is, whose length is the configured one rounded up. If it is not,
it stays the only chunk. Either way the ceiling is passed by less than one alignment step. -/
theorem capacity_le_ceiling_iff (hnew : (Arena.create config supply).result = .ok a)
    (hlimit : config.maxCapacity = some limit) (cs : List Call) :
    ∃ first, alignUp config.initialCapacity = some first ∧
      let c := (run { arena := a } cs).arena.chunks
      (c.capacity ≤ limit ↔ first ≤ limit) ∧ (limit < first → c.layout = [first]) ∧
        c.capacity < limit + maxAlign := by
  obtain ⟨hvalid, _, supply', hchunks, rfl⟩ := Arena.create_eq_ok hnew
  obtain ⟨first, halign, -, rfl⟩ := Chunks.create_eq_ok hchunks
  have hlow : config.initialCapacity ≤ limit :=
    (Config.fault?_eq_none_iff.1 hvalid).2.2.2 limit hlimit
  have hnear : first < limit + maxAlign :=
    Nat.lt_of_lt_of_le (alignUp_eq_some.1 halign).2.2.1 (Nat.add_le_add_right hlow _)
  have hpos : limit < limit + maxAlign := Nat.lt_add_of_pos_right (by decide)
  refine ⟨first, halign, ?_⟩
  intro c
  have hext : Chunks.Extends _ c := extends_run _ cs
  clear_value c
  rcases hext.within with hsame | hwithin
  · -- The first chunk is the only one, with or without a ceiling above it.
    have hone : c.layout = [first] := hsame
    have hcap : c.capacity = first := by rw [Chunks.capacity, hone]; rfl
    rw [hcap]
    exact ⟨Iff.rfl, fun _ => hone, hnear⟩
  · -- A chunk was added within the ceiling, and the first one counts towards it.
    have hcap : c.capacity ≤ limit := hwithin limit hlimit
    have hmem : first ∈ c.layout := hext.layout.subset (List.mem_singleton_self first)
    have hfirst : first ≤ limit := Nat.le_trans (le_total hmem) hcap
    exact ⟨iff_of_true hcap hfirst, fun hlt => absurd hfirst (Nat.not_le.2 hlt),
      Nat.lt_of_le_of_lt hcap hpos⟩

/-- Doubling would pass this ceiling, so the second chunk is as long as it must be, and the third
request is refused. -/
theorem capacity_le_ceiling_iff_of_run :
    ∃ a, (Arena.create { initialCapacity := 64, maxCapacity := some 200 } .unlimited).result =
        .ok a ∧
      let c := (run { arena := a } [.allocate .unlimited 16, .allocate .unlimited 40,
        .allocate .unlimited 64]).arena.chunks
      c.layout = [64, 80] ∧ c.capacity ≤ 200 := by
  have hnew : (Arena.create { initialCapacity := 64, maxCapacity := some 200 } .unlimited).result =
      .ok { chunks := ⟨[{ length := 64 }], 0, 2, some 200⟩ } := rfl
  obtain ⟨first, halign, hiff, -, -⟩ := capacity_le_ceiling_iff hnew rfl
    [.allocate .unlimited 16, .allocate .unlimited 40, .allocate .unlimited 64]
  have hfirst : first = 64 := Option.some.inj halign.symm
  exact ⟨_, hnew, by decide +kernel, hiff.2 (by rw [hfirst]; decide)⟩

/-- A ceiling of 40 bytes is no lower than the 40 bytes configured, but the first chunk has 48. -/
theorem capacity_exceeds_ceiling :
    ∃ config a, config.validate = .ok () ∧ config.maxCapacity = some 40 ∧
      (Arena.create config .unlimited).result = .ok a ∧ a.capacity = 48 :=
  ⟨{ initialCapacity := 40, maxCapacity := some 40 },
    { chunks := ⟨[{ length := 48 }], 0, 2, some 40⟩ }, rfl, rfl, rfl, rfl⟩

end Session

end ArenaAlloc

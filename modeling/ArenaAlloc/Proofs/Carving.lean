import ArenaAlloc.Chunks
import ArenaAlloc.Proofs.Extent

/-!
# Carving keeps a tiling

An arena's bytes are carved from the front of its chunks, and this module is about that alone: no
block is freed here, and no header is read. It goes from a single length up to whole requests.

* The length of the next chunk is a multiple of the alignment and enough for what is asked for
  (`nextLength_eq`, `dvd_of_nextLength`).
* `Chunks.Sound` is what holds of an arena's chunks at any time, and `Chunks.Carved` what carving a
  block changes about them.
* `grow_cases` and `carve_cases` are the inversions of the two operations. Each says everything that
  can happen, guards included, so that no later proof unfolds `grow` or `carve` again.
  `Sound.carve_cases` is the one most readers want: it has the two ends of a request.

The carved part of a chunk is everything below the offset where carving goes on. `Tiles` says that
spans make up exactly these parts, one equation for each byte, and `Tiles.carved` that a block
carved is one more tile. Counting bytes was chosen over a list of disjointness and inclusion facts
because it is one statement: that two tiles are apart, that none reaches beyond the carved part and
that nothing is left over in between are all read off the same equation, and a change of the tiles
is checked by adding and subtracting.
-/

namespace ArenaAlloc

/-! ## Growth

What multiplying the capacity comes to stays below a word's limit and stays a multiple of whatever
divides both ends. Both facts are inductions over the multiplication itself: a step keeps the
property because a product that no word holds is replaced by the number that is needed. -/

namespace Growth

/-- A product that does not fit is not taken, so one multiplication fits a word if the need does. -/
theorem next_lt {needed factor capacity : Nat} (h : needed < wordLimit) :
    next needed factor capacity < wordLimit := by
  unfold next
  split
  · exact And.left ‹_›
  · exact h

/-- **The geometric target fits a word**, without a bound on the factor. -/
theorem target_lt (factor : Nat) {needed capacity : Nat} (hn : needed < wordLimit)
    (hc : capacity < wordLimit) : target needed factor capacity < wordLimit := by
  fun_induction target needed factor capacity with
  | case1 _ _ _ ih => exact ih (next_lt hn)
  | case2 => exact hc

theorem dvd_next {d needed factor capacity : Nat} (hn : d ∣ needed) (hc : d ∣ capacity) :
    d ∣ next needed factor capacity := by
  unfold next
  split
  · exact Nat.dvd_mul_right_of_dvd hc factor
  · exact hn

/-- What divides the capacity and the need divides the target: each step is a multiple of the one
before, or the need itself. -/
theorem dvd_target {d needed factor capacity : Nat} (hn : d ∣ needed) (hc : d ∣ capacity) :
    d ∣ target needed factor capacity := by
  fun_induction target needed factor capacity with
  | case1 _ _ _ ih => exact ih (dvd_next hn hc)
  | case2 => exact hc

end Growth

/-! ## Rounding up

A length that is a multiple of the alignment already is not changed by rounding, and the lengths of
chunks are sums and differences of such. So on the chunks of an arena `alignUp` is the identity
where it does not fail, which is what `chunkLength_eq` needs. -/

theorem dvd_of_alignUp {n r : Nat} (h : alignUp n = some r) : maxAlign ∣ r :=
  Nat.dvd_of_mod_eq_zero (alignUp_eq_some.1 h).2.2.2

theorem le_of_alignUp {n r : Nat} (h : alignUp n = some r) : n ≤ r := (alignUp_eq_some.1 h).2.1

/-- A multiple of the alignment is its own next multiple. -/
theorem alignUp_of_dvd {n : Nat} (hn : maxAlign ∣ n) (h : n < wordLimit) : alignUp n = some n := by
  refine alignUp_eq_some.2 ⟨?_, Nat.le_refl n, Nat.lt_add_of_pos_right (by decide),
    Nat.mod_eq_zero_of_dvd hn⟩
  simp only [maxAlign, wordLimit] at *
  omega

/-- Rounding twice is rounding once. -/
theorem alignUp_alignUp {n r : Nat} (h : alignUp n = some r) : alignUp r = some r := by
  obtain ⟨hfits, -, hlt, -⟩ := alignUp_eq_some.1 h
  refine alignUp_of_dvd (dvd_of_alignUp h) (Nat.lt_of_le_of_lt (Nat.le_of_lt_succ ?_) hfits)
  exact hlt

namespace Growth

variable {capacity total factor length : Nat}

/-- There is no length when the capacity that is needed does not fit a word. -/
theorem chunkLength_of_overflow (h : wordLimit ≤ capacity + total) (factor : Nat) :
    chunkLength capacity total factor = none := by
  simp only [chunkLength, checkedAdd_of_le h]

theorem chunkLength_of_fits (h : capacity + total < wordLimit) (factor : Nat) :
    chunkLength capacity total factor =
      alignUp (target (capacity + total) factor capacity - capacity) := by
  simp only [chunkLength, checkedAdd_of_lt h]

/-- A length is enough for what is asked for. -/
theorem le_of_chunkLength (h : chunkLength capacity total factor = some length) :
    total ≤ length := by
  -- Where the sum overflows there is no length to speak of.
  rcases Nat.lt_or_ge (capacity + total) wordLimit with hfits | hover
  · rw [chunkLength_of_fits hfits] at h
    have henough := le_target (capacity + total) factor capacity
    exact Nat.le_trans (Nat.le_sub_of_add_le' henough) (le_of_alignUp h)
  · rw [chunkLength_of_overflow hover] at h
    cases h

theorem dvd_of_chunkLength (h : chunkLength capacity total factor = some length) :
    maxAlign ∣ length := by
  rcases Nat.lt_or_ge (capacity + total) wordLimit with hfits | hover
  · rw [chunkLength_of_fits hfits] at h
    exact dvd_of_alignUp h
  · rw [chunkLength_of_overflow hover] at h
    cases h

/-- Between multiples of the alignment nothing is rounded. -/
theorem chunkLength_eq (factor : Nat) (hc : maxAlign ∣ capacity) (ht : maxAlign ∣ total)
    (h : capacity + total < wordLimit) :
    chunkLength capacity total factor =
      some (target (capacity + total) factor capacity - capacity) := by
  have hcap : capacity < wordLimit := Nat.lt_of_le_of_lt (Nat.le_add_right _ _) h
  have htarget : target (capacity + total) factor capacity < wordLimit := target_lt factor h hcap
  have hdvd : maxAlign ∣ target (capacity + total) factor capacity :=
    dvd_target (Nat.dvd_add hc ht) hc
  rw [chunkLength_of_fits h]
  -- Target and capacity are both multiples, so their difference is, and rounding it does nothing.
  exact alignUp_of_dvd (Nat.dvd_sub hdvd hc) (Nat.lt_of_le_of_lt (Nat.sub_le _ _) htarget)

end Growth

namespace Chunks

/-! ## The chunks of an arena

`Sound` has five clauses. That the current chunk exists makes the search for room start somewhere;
that the index of every chunk fits a header makes tags tell chunks apart; that what is used is
within the length, and aligned, is what a carved block needs; and the bound on the capacity keeps
sums of lengths within a word. None of them mentions a block. -/

/-- The bytes carved from chunk `i`. -/
def usedAt (c : Chunks) (i : Nat) : Nat := (c.list[i]?.map Chunk.used).getD 0

/-- What holds of an arena's chunks at any time. -/
structure Sound (c : Chunks) : Prop where
  current_lt : c.current < c.count
  count_le : c.count ≤ chunkLimit
  used_le : ∀ k ∈ c.list, k.used ≤ k.length
  aligned : ∀ k ∈ c.list, maxAlign ∣ k.used ∧ maxAlign ∣ k.length
  capacity_lt : c.capacity < wordLimit

variable {c c' : Chunks} {s s' : Supply} {b : Block} {i size total length : Nat}

theorem layout_getElem? : c.layout[i]? = c.list[i]?.map Chunk.length := List.getElem?_map

theorem length_layout (c : Chunks) : c.layout.length = c.count := List.length_map _

theorem length_le_capacity {k : Chunk} (h : k ∈ c.list) : k.length ≤ c.capacity :=
  le_total (List.mem_map_of_mem h)

theorem usedAt_of_getElem? {k : Chunk} (h : c.list[i]? = some k) : c.usedAt i = k.used := by
  rw [usedAt, h]
  rfl

/-- Nothing is carved from a chunk that there is not. -/
theorem usedAt_of_count_le (h : c.count ≤ i) : c.usedAt i = 0 := by
  rw [usedAt, List.getElem?_eq_none h]
  rfl

namespace Sound

/-- A chunk from which something was carved is there. -/
theorem exists_of_usedAt_pos (h : 0 < c.usedAt i) :
    ∃ k, c.list[i]? = some k ∧ c.usedAt i = k.used := by
  cases hk : c.list[i]? with
  | none => simp [usedAt, hk] at h
  | some k => exact ⟨k, rfl, usedAt_of_getElem? hk⟩

theorem usedAt_lt (hs : c.Sound) : c.usedAt i < wordLimit := by
  rcases Nat.eq_zero_or_pos (c.usedAt i) with h | h
  · rw [h]
    decide
  · obtain ⟨k, hk, hu⟩ := exists_of_usedAt_pos h
    have hm := List.mem_of_getElem? hk
    rw [hu]
    exact Nat.lt_of_le_of_lt (Nat.le_trans (hs.used_le k hm) (length_le_capacity hm))
      hs.capacity_lt

theorem dvd_usedAt (hs : c.Sound) : maxAlign ∣ c.usedAt i := by
  rcases Nat.eq_zero_or_pos (c.usedAt i) with h | h
  · rw [h]
    exact Nat.dvd_zero _
  · obtain ⟨k, hk, hu⟩ := exists_of_usedAt_pos h
    rw [hu]
    exact (hs.aligned k (List.mem_of_getElem? hk)).1

theorem chunk_lt (hs : c.Sound) (h : 0 < c.usedAt i) : i < chunkLimit := by
  obtain ⟨k, hk, -⟩ := exists_of_usedAt_pos h
  exact Nat.lt_of_lt_of_le (List.getElem?_eq_some_iff.1 hk).1 hs.count_le

theorem dvd_capacity (hs : c.Sound) : maxAlign ∣ c.capacity := by
  refine dvd_total fun n hn => ?_
  obtain ⟨k, hk, rfl⟩ := List.mem_map.1 hn
  exact (hs.aligned k hk).2

end Sound

/-- A block whose header ends in the carved part has its header inside the chunk. -/
theorem Sound.holds (hs : c.Sound) (h : b.start + headerSize ≤ c.usedAt b.chunk) :
    c.layout.Holds b := by
  obtain ⟨k, hk, hu⟩ := Sound.exists_of_usedAt_pos (c := c) (i := b.chunk) (by
    simp only [headerSize] at h
    omega)
  refine ⟨k.length, ?_, ?_⟩
  · rw [layout_getElem?, hk]
    rfl
  · rw [hu] at h
    exact Nat.le_trans h (hs.used_le k (List.mem_of_getElem? hk))

/-- The chunks of a new arena: one, of the configured length rounded up, and granted by the supply.
-/
theorem create_eq_ok {config : Config} (h : create config s = .ok (c, s')) :
    ∃ first, alignUp config.initialCapacity = some first ∧ s.obtain first = .ok s' ∧
      c = { list := [{ length := first }], growthFactor := config.growthFactor,
            ceiling := config.maxCapacity } := by
  unfold create at h
  split at h
  · cases h
  · rename_i first halign
    split at h
    · cases h
    · rename_i hobtain
      cases h
      exact ⟨first, halign, hobtain, rfl⟩

/-- **New chunks are sound**, and nothing is carved from them. -/
theorem sound_create {config : Config} {s' : Supply} (h : create config s = .ok (c, s')) :
    c.Sound ∧ ∀ i, c.usedAt i = 0 := by
  obtain ⟨first, halign, hobtain, rfl⟩ := create_eq_ok h
  obtain ⟨-, -, -, hle, -⟩ := Supply.obtain_eq_ok hobtain
  refine ⟨⟨Nat.zero_lt_one, ?_, ?_, ?_, ?_⟩, ?_⟩
  · show 1 ≤ chunkLimit
    decide
  · simp
  · simpa using dvd_of_alignUp halign
  · -- A request that was granted is within what can be asked for, which is less than a word holds.
    have hlt : first < wordLimit := Nat.lt_of_le_of_lt hle (by decide)
    simpa [capacity, layout] using hlt
  · intro i
    cases i <;> simp [usedAt]

/-! ## Carving

`Carved` says where the block lies and how far every chunk is carved afterwards. That it does not
say which chunk was carved from, or whether one was added, is on purpose: a tiling only depends on
the offsets, and the layout only ever grows at its end. -/

/-- What carving `b` with `size` payload bytes makes of the chunks. -/
structure Carved (c : Chunks) (b : Block) (size : Nat) (c' : Chunks) : Prop where
  sound : c'.Sound
  layout : ∃ more, c'.layout = c.layout ++ more
  start : b.start = c.usedAt b.chunk
  usedAt : ∀ i, c'.usedAt i = if i = b.chunk then b.start + headerSize + size else c.usedAt i

/-- Carving from a given chunk succeeds exactly where there is room, and this is what it then gives.
-/
theorem carveAt_eq_some_iff :
    c.carveAt i size = some (b, c') ↔
      ∃ k, c.list[i]? = some k ∧ k.used + headerSize + size ≤ k.length ∧ b = ⟨i, k.used⟩ ∧
        c' = { c with list := c.list.set i (k.take size), current := i } := by
  unfold carveAt
  cases hk : c.list[i]? with
  | none => simp
  | some k =>
    by_cases hroom : k.used + headerSize + size ≤ k.length
    · simp [Chunk.hasRoom, hroom, eq_comm]
    · simp [Chunk.hasRoom, hroom]

/-- Carving takes nothing from a chunk's length. -/
theorem map_length_set_take {k : Chunk} (hk : c.list[i]? = some k) (size : Nat) :
    (c.list.set i (k.take size)).map Chunk.length = c.layout := by
  obtain ⟨hlt, rfl⟩ := List.getElem?_eq_some_iff.1 hk
  have hlt' : i < (c.list.map Chunk.length).length := by
    rw [List.length_map]
    exact hlt
  have hself : (c.list[i].take size).length = (c.list.map Chunk.length)[i] := by
    rw [List.getElem_map]
    rfl
  rw [List.map_set, hself, List.set_getElem_self]
  rfl

/-- The layout says what links stand for, so it matters that carving from a chunk that is there
keeps it. -/
theorem layout_carveAt (h : c.carveAt i size = some (b, c')) : c'.layout = c.layout := by
  obtain ⟨k, hk, -, -, rfl⟩ := carveAt_eq_some_iff.1 h
  exact map_length_set_take hk size

/-- **What `carveAt` returns is carved**, from sound chunks and for an aligned size. -/
theorem carveAt_eq_some (hs : c.Sound) (hsize : maxAlign ∣ size)
    (h : c.carveAt i size = some (b, c')) : c.Carved b size c' := by
  have hlayout := layout_carveAt h
  obtain ⟨k, hk, hroom, rfl, rfl⟩ := carveAt_eq_some_iff.1 h
  have hlt : i < c.list.length := (List.getElem?_eq_some_iff.1 hk).1
  have hmem := List.mem_of_getElem? hk
  -- The list has one new chunk in it, and everything else is as it was.
  have hset : ∀ x ∈ c.list.set i (k.take size), x ∈ c.list ∨ x = k.take size := fun x hx =>
    List.mem_or_eq_of_mem_set hx
  refine ⟨⟨?_, ?_, ?_, ?_, ?_⟩, ⟨[], ?_⟩, ?_, ?_⟩
  · simpa [count] using hlt
  · simpa [count] using hs.count_le
  · intro x hx
    rcases hset x hx with hx | rfl
    · exact hs.used_le x hx
    · exact hroom
  · intro x hx
    rcases hset x hx with hx | rfl
    · exact hs.aligned x hx
    · obtain ⟨h1, h2⟩ := hs.aligned k hmem
      exact ⟨Nat.dvd_add (Nat.dvd_add h1 ⟨2, rfl⟩) hsize, h2⟩
  · rw [capacity, hlayout]
    exact hs.capacity_lt
  · rw [List.append_nil]
    exact hlayout
  · exact (usedAt_of_getElem? hk).symm
  · intro j
    -- Only the chunk that was carved from has another offset.
    by_cases hj : j = i
    · subst hj
      simp [Chunks.usedAt, hlt, Chunk.take]
    · simp [Chunks.usedAt, List.getElem?_set_ne (Ne.symm hj), hj]

/-! ## The next chunk

Two lengths come into question: the geometric one, and where that would pass the ceiling the one
that just suffices. In both cases the new capacity fits a word. For the geometric length this is not
a matter of a check: the sum that is checked is that of the capacity and the need, and the length
may be far larger. It fits because the target does. -/

/-- The chunk that growth adds is long enough. -/
theorem le_of_nextLength (h : c.nextLength total = some length) : total ≤ length := by
  unfold nextLength at h
  cases hgeo : Growth.chunkLength c.capacity total c.growthFactor with
  | none => simp [hgeo] at h
  | some geometric =>
    simp only [hgeo] at h
    split at h
    · exact le_of_alignUp h
    · cases h
      exact Growth.le_of_chunkLength hgeo

/-- Where not even the need fits a word, the arena cannot grow. -/
theorem nextLength_eq_none (h : wordLimit ≤ c.capacity + total) : c.nextLength total = none := by
  simp only [nextLength, Growth.chunkLength_of_overflow h]

theorem lt_of_nextLength (h : c.nextLength total = some length) :
    c.capacity + total < wordLimit := by
  refine Nat.lt_of_not_le fun hge => ?_
  rw [nextLength_eq_none hge] at h
  cases h

/-- **The length of the next chunk**: what multiplying the capacity comes to, or just what is needed
where that would pass the ceiling. Both are aligned, so no rounding shows. -/
theorem nextLength_eq (hs : c.Sound) (ht : maxAlign ∣ total)
    (hlt : c.capacity + total < wordLimit) :
    c.nextLength total =
      some (if c.exceeds (Growth.target (c.capacity + total) c.growthFactor c.capacity - c.capacity)
        then total
        else Growth.target (c.capacity + total) c.growthFactor c.capacity - c.capacity) := by
  have hgeo := Growth.chunkLength_eq c.growthFactor hs.dvd_capacity ht hlt
  have htotal := alignUp_of_dvd ht (Nat.lt_of_le_of_lt (Nat.le_add_left _ _) hlt)
  simp only [nextLength, hgeo, htotal]
  split <;> rfl

/-- It is aligned, and no longer than a word can count. -/
theorem dvd_of_nextLength (hs : c.Sound) (ht : maxAlign ∣ total)
    (h : c.nextLength total = some length) :
    maxAlign ∣ length ∧ c.capacity + length < wordLimit := by
  have hlt := lt_of_nextLength h
  rw [nextLength_eq hs ht hlt] at h
  cases h
  split
  · exact ⟨ht, hlt⟩
  · -- The capacity that the chunk leads to is the target, which is a number that some word holds.
    have hdvd : maxAlign ∣ Growth.target (c.capacity + total) c.growthFactor c.capacity :=
      Growth.dvd_target (Nat.dvd_add hs.dvd_capacity ht) hs.dvd_capacity
    have htarget := Growth.target_lt c.growthFactor hlt hs.capacity_lt
    have hle := Growth.capacity_le_target (c.capacity + total) c.growthFactor c.capacity
    refine ⟨Nat.dvd_sub hdvd hs.dvd_capacity, ?_⟩
    omega

/-- The chunks with one more of `length` bytes, which is carved next. -/
def added (c : Chunks) (length : Nat) : Chunks :=
  { c with list := c.list ++ [{ length }], current := c.count }

theorem layout_added (c : Chunks) (length : Nat) : (c.added length).layout = c.layout ++ [length] :=
  List.map_append

theorem count_added (c : Chunks) (length : Nat) : (c.added length).count = c.count + 1 :=
  List.length_append

theorem getElem?_added (c : Chunks) (length : Nat) :
    (c.added length).list[c.count]? = some { length } := List.getElem?_concat_length

/-- A block is carved from the front of the chunk that was added. -/
theorem carveAt_added (c : Chunks) (h : size + headerSize ≤ length) :
    (c.added length).carveAt c.count size = some (⟨c.count, 0⟩,
      { c with
        list := c.list ++ [{ length, used := headerSize + size }], current := c.count }) := by
  have hroom : 0 + headerSize + size ≤ length := by omega
  -- Setting the last element of a list to which it was just appended.
  have hset : (c.list ++ [Chunk.mk length 0]).set c.count ((Chunk.mk length 0).take size) =
      c.list ++ [{ length, used := headerSize + size }] := by
    rw [count, List.set_append_right _ _ (Nat.le_refl _), Nat.sub_self, List.set_cons_zero,
      Chunk.take, Nat.zero_add]
  refine carveAt_eq_some_iff.2 ⟨_, c.getElem?_added length, hroom, rfl, ?_⟩
  simp only [added, hset]

/-- A chunk that was added is not carved yet, which is what one that is not there counts as, too. -/
theorem usedAt_added (c : Chunks) (length : Nat) : (c.added length).usedAt i = c.usedAt i := by
  -- An index before the new chunk, that of the new chunk, or one beyond it.
  rcases Nat.lt_trichotomy i c.count with h | rfl | h
  · rw [usedAt, usedAt, added, List.getElem?_append_left h]
  · rw [usedAt_of_getElem? (c.getElem?_added length), usedAt_of_count_le (Nat.le_refl _)]
  · rw [usedAt_of_count_le (Nat.le_of_lt h), usedAt_of_count_le]
    rw [count_added]
    exact h

/-- Adding a chunk keeps chunks sound if its index, its length and the new capacity allow it. -/
theorem sound_added (hs : c.Sound) (hcount : c.count < chunkLimit)
    (hdvd : maxAlign ∣ length) (hcap : c.capacity + length < wordLimit) :
    (c.added length).Sound := by
  refine ⟨?_, ?_, ?_, ?_, ?_⟩
  · rw [count_added]
    exact Nat.lt_succ_self _
  · rw [count_added]
    exact hcount
  · intro k hk
    rcases List.mem_append.1 hk with hk | hk
    · -- The chunks that were there.
      exact hs.used_le k hk
    · rw [List.mem_singleton.1 hk]
      exact Nat.zero_le _
  · intro k hk
    rcases List.mem_append.1 hk with hk | hk
    · exact hs.aligned k hk
    · rw [List.mem_singleton.1 hk]
      exact ⟨Nat.dvd_zero _, hdvd⟩
  · rw [capacity, layout_added, total_append]
    exact hcap

/-- Carving from a chunk that was added counts as carving from the chunks without it. -/
theorem Carved.of_added (h : (c.added length).Carved b size c') :
    c.Carved b size c' := by
  obtain ⟨hsound, ⟨more, hlayout⟩, hstart, hused⟩ := h
  refine ⟨hsound, ⟨length :: more, ?_⟩, ?_, fun i => ?_⟩
  · rw [hlayout, layout_added, List.append_assoc]
    rfl
  · rw [hstart, usedAt_added]
  · rw [hused, usedAt_added]

/-! ## What growing and carving come to

Both operations either fail and leave chunks and supply as they were, or succeed in one of few ways.
The reasons of a failure play no part here; they are told apart where a statement is about them. -/

/-- Growing for `total` bytes adds a chunk of `length` bytes: it is within the ceiling, its index
can be told apart, and the supply grants it and is then `s'`. -/
structure Grows (c : Chunks) (s : Supply) (total length : Nat) (s' : Supply) : Prop where
  next : c.nextLength total = some length
  within : c.exceeds length = false
  count_lt : c.count < chunkLimit
  obtained : s.obtain length = .ok s'

theorem Grows.sound (h : c.Grows s total length s') (hs : c.Sound) (ht : maxAlign ∣ total) :
    (c.added length).Sound := by
  obtain ⟨hdvd, hcap⟩ := dvd_of_nextLength hs ht h.next
  exact sound_added hs h.count_lt hdvd hcap

/-- **Growth adds one chunk, or changes nothing.** -/
theorem grow_cases (c : Chunks) (s : Supply) (total : Nat) :
    (∃ e, (c.grow s total).result = .error e ∧ (c.grow s total).state = (c, s)) ∨
      ∃ length s', c.Grows s total length s' ∧ (c.grow s total).result = .ok c.count ∧
        (c.grow s total).state = (c.added length, s') := by
  unfold grow
  split
  · exact .inl ⟨_, rfl, rfl⟩
  · rename_i length hnext
    split
    · exact .inl ⟨_, rfl, rfl⟩
    · rename_i hceiling
      have hwithin : c.exceeds length = false := by
        cases hexceeds : c.exceeds length with
        | false => rfl
        | true =>
          -- Only a ceiling can be passed, and one that is passed is the case before.
          cases hc : c.ceiling with
          | none => simp [exceeds, hc] at hexceeds
          | some limit => exact absurd hexceeds (hceiling limit hc)
      split
      · exact .inl ⟨_, rfl, rfl⟩
      · rename_i hcount
        split
        · exact .inl ⟨_, rfl, rfl⟩
        · rename_i s' hobtain
          exact .inr ⟨length, s', ⟨hnext, hwithin, Nat.not_le.1 hcount, hobtain⟩, rfl, rfl⟩

/-- Chunk `i` has room for a header and a payload of `size` bytes. -/
def RoomAt (c : Chunks) (size i : Nat) : Prop :=
  ∃ k, c.list[i]? = some k ∧ k.used + headerSize + size ≤ k.length

/-- Chunk `i` is the first one with room, from the current one on. -/
def FirstRoom (c : Chunks) (size i : Nat) : Prop :=
  c.current ≤ i ∧ c.RoomAt size i ∧ ∀ j, c.current ≤ j → j < i → ¬ c.RoomAt size j

theorem roomAt_iff : c.RoomAt size i ↔ ∃ k, c.list[i]? = some k ∧ k.hasRoom size = true := by
  simp only [RoomAt, Chunk.hasRoom, decide_eq_true_eq]

/-- The search finds the first chunk with room. It looks at the list from the current chunk on, so
indices are shifted by that much. -/
theorem FirstRoom.of_roomFor? (h : c.roomFor? size = some i) : c.FirstRoom size i := by
  obtain ⟨n, hn, rfl⟩ := Option.map_eq_some_iff.1 h
  obtain ⟨hlt, hroom, hfirst⟩ := List.findIdx?_eq_some_iff_getElem.1 hn
  rw [Nat.add_comm]
  refine ⟨Nat.le_add_right _ _, roomAt_iff.2 ⟨_, ?_, hroom⟩, fun j hle hj hat => ?_⟩
  · rw [← List.getElem?_drop]
    exact List.getElem?_eq_getElem hlt
  · obtain ⟨k, hk, hkroom⟩ := roomAt_iff.1 hat
    obtain ⟨m, rfl⟩ := Nat.exists_eq_add_of_le hle
    have hm : m < n := Nat.lt_of_add_lt_add_left hj
    have hmk : (c.list.drop c.current)[m]? = some k := by
      rw [List.getElem?_drop]
      exact hk
    -- An earlier chunk with room would have been found instead.
    refine hfirst m hm ?_
    rw [(List.getElem?_eq_some_iff.1 hmk).2]
    exact hkroom

/-- If the search finds nothing there is no room from the current chunk on. -/
theorem not_roomAt_of_roomFor? (h : c.roomFor? size = none) :
    ∀ i, c.current ≤ i → ¬ c.RoomAt size i := by
  intro i hle hat
  obtain ⟨k, hk, hroom⟩ := roomAt_iff.1 hat
  obtain ⟨m, rfl⟩ := Nat.exists_eq_add_of_le hle
  have hmem : k ∈ c.list.drop c.current := by
    refine List.mem_of_getElem? (i := m) ?_
    rw [List.getElem?_drop]
    exact hk
  have hnone := List.findIdx?_eq_none_iff.1 (Option.map_eq_none_iff.1 h) k hmem
  rw [hroom] at hnone
  cases hnone

/-- Only one chunk is the first with room. -/
theorem FirstRoom.eq {j : Nat} (h : c.FirstRoom size i) (h' : c.FirstRoom size j) : i = j := by
  rcases Nat.lt_trichotomy i j with hlt | heq | hlt
  · exact absurd h.2.1 (h'.2.2 i h.1 hlt)
  · exact heq
  · exact absurd h'.2.1 (h.2.2 j h'.1 hlt)

theorem FirstRoom.roomFor? (h : c.FirstRoom size i) : c.roomFor? size = some i := by
  cases hroom : c.roomFor? size with
  | none => exact absurd h.2.1 (not_roomAt_of_roomFor? hroom i h.1)
  | some j => rw [h.eq (.of_roomFor? hroom)]

theorem roomFor?_of_not_roomAt (h : ∀ i, c.current ≤ i → ¬ c.RoomAt size i) :
    c.roomFor? size = none := by
  cases hroom : c.roomFor? size with
  | none => rfl
  | some i =>
    have hfirst := FirstRoom.of_roomFor? hroom
    exact absurd hfirst.2.1 (h i hfirst.1)

/-- **A block is carved from the first chunk with room, or from one that is added because there is
none; or else nothing changes.** -/
theorem carve_cases (c : Chunks) (s : Supply) (size : Nat) :
    (∃ e, (c.carve s size).result = .error e ∧ (c.carve s size).state = (c, s)) ∨
      ∃ b c' s', (c.carve s size).result = .ok b ∧ (c.carve s size).state = (c', s') ∧
        ((∃ i, c.FirstRoom size i ∧ c.carveAt i size = some (b, c') ∧ s' = s) ∨
          ∃ length, (∀ i, c.current ≤ i → ¬ c.RoomAt size i) ∧
            c.Grows s (size + headerSize) length s' ∧
            (c.added length).carveAt c.count size = some (b, c')) := by
  unfold carve
  cases hroom : c.roomFor? size with
  | some i =>
    have hfirst := FirstRoom.of_roomFor? hroom
    obtain ⟨k, hk, hkroom⟩ := hfirst.2.1
    have hat := carveAt_eq_some_iff.2 ⟨k, hk, hkroom, rfl, rfl⟩
    simp only [Option.bind_some, hat]
    exact .inr ⟨_, _, s, rfl, rfl, .inl ⟨i, hfirst, hat, rfl⟩⟩
  | none =>
    simp only [Option.bind_none]
    cases htotal : checkedAdd size headerSize with
    | none => exact .inl ⟨_, rfl, rfl⟩
    | some total =>
      obtain ⟨rfl, -⟩ := checkedAdd_eq_some.1 htotal
      rcases grow_cases c s (size + headerSize) with ⟨e, hr, hst⟩ | ⟨length, s', hgrows, hr, hst⟩
      · refine .inl ⟨e, ?_, ?_⟩
        · simp only [Outcome.result_andThen, hr]
        · simp only [Outcome.state_andThen, hr, hst]
      · -- The chunk was made long enough, so carving from it cannot fail.
        have hat := c.carveAt_added (le_of_nextLength hgrows.next)
        simp only [Outcome.result_andThen, Outcome.state_andThen, hr, hst, hat]
        exact .inr ⟨_, _, s', rfl, rfl,
          .inr ⟨length, not_roomAt_of_roomFor? hroom, hgrows, hat⟩⟩

/-- **Sound chunks stay so**: a block is carved behind what was carved before, or nothing changes.
-/
theorem Sound.carve_cases (hs : c.Sound) (hsize : maxAlign ∣ size) (s : Supply) :
    (∃ e, (c.carve s size).result = .error e ∧ (c.carve s size).state = (c, s)) ∨
      ∃ b c' s', (c.carve s size).result = .ok b ∧ (c.carve s size).state = (c', s') ∧
        c.Carved b size c' := by
  rcases Chunks.carve_cases c s size with hfail | ⟨b, c', s', hr, hst, hfrom⟩
  · exact .inl hfail
  · refine .inr ⟨b, c', s', hr, hst, ?_⟩
    rcases hfrom with ⟨i, -, hat, -⟩ | ⟨length, -, hgrows, hat⟩
    · exact carveAt_eq_some hs hsize hat
    · -- A chunk was added for a header and the payload, and carved from right away.
      have hadded := hgrows.sound hs (Nat.dvd_add hsize ⟨2, rfl⟩)
      exact (carveAt_eq_some hadded hsize hat).of_added

/-- The same for a request of which it is known that it was granted. -/
theorem Sound.carved (hs : c.Sound) (hsize : maxAlign ∣ size)
    (hr : (c.carve s size).result = .ok b) (hst : (c.carve s size).state = (c', s')) :
    c.Carved b size c' := by
  rcases hs.carve_cases hsize s with ⟨e, he, -⟩ | ⟨b₁, c₁, s₁, hr₁, hst₁, hcarved⟩
  · rw [hr] at he
    cases he
  · rw [hr] at hr₁
    rw [hst] at hst₁
    cases hr₁
    cases hst₁
    exact hcarved

/-! ## Rewinding

A reset changes offsets and nothing else: lengths, and with them the layout and the capacity, stay.
-/

theorem layout_rewind (c : Chunks) : c.rewind.layout = c.layout := by
  simp only [layout, rewind, List.map_map]
  rfl

theorem usedAt_rewind (c : Chunks) (i : Nat) : c.rewind.usedAt i = 0 := by
  simp only [usedAt, rewind, List.getElem?_map]
  cases c.list[i]? <;> rfl

theorem sound_rewind (hs : c.Sound) : c.rewind.Sound := by
  refine ⟨?_, ?_, ?_, ?_, ?_⟩
  · simpa [count, rewind] using Nat.zero_lt_of_lt hs.current_lt
  · simpa [count, rewind] using hs.count_le
  · intro k hk
    obtain ⟨k', -, rfl⟩ := List.mem_map.1 hk
    exact Nat.zero_le _
  · intro k hk
    obtain ⟨k', hk', rfl⟩ := List.mem_map.1 hk
    exact ⟨Nat.dvd_zero _, (hs.aligned k' hk').2⟩
  · rw [capacity, layout_rewind]
    exact hs.capacity_lt

end Chunks

/-! ## Tilings

The invariant of an arena says that its blocks and the tails that shrinking cut off tile the carved
part. The lemmas here are what can be done with a tiling without knowing what its tiles are. -/

/-- The spans make up exactly the carved part of every chunk, and share no byte. -/
def Tiles (spans : List Span) (c : Chunks) : Prop :=
  ∀ a : Address, coverage spans a = if a.offset < c.usedAt a.chunk then 1 else 0

namespace Tiles

variable {c c' : Chunks} {b : Block} {size : Nat} {spans spans' : List Span}

theorem perm (h : Tiles spans c) (hp : spans.Perm spans') : Tiles spans' c := fun a => by
  rw [← coverage_perm hp]
  exact h a

/-- A tiling only depends on how often each byte is counted. -/
theorem congr (h : Tiles spans c) (hc : ∀ a, coverage spans' a = coverage spans a) :
    Tiles spans' c := fun a => (hc a).trans (h a)

theorem of_usedAt_eq_zero (h : ∀ i, c.usedAt i = 0) : Tiles [] c := fun a => by
  rw [h, coverage_nil, if_neg (Nat.not_lt_zero _)]

/-- **A block carved is one more tile.** -/
theorem carved (h : Tiles spans c) (hc : c.Carved b size c') :
    Tiles (Extent.span ⟨b, size⟩ :: spans) c' := by
  intro a
  rw [coverage_cons, h a, hc.usedAt]
  have hspan : (Extent.span ⟨b, size⟩).covers a = true ↔
      a.chunk = b.chunk ∧ b.start ≤ a.offset ∧ a.offset < b.start + headerSize + size :=
    Extent.covers_span
  have hstart := hc.start
  -- Bytes of other chunks are covered as before. In the block's own chunk a byte lies below the
  -- block, in it, or above it.
  by_cases hchunk : a.chunk = b.chunk
  · rw [if_pos hchunk, hchunk, ← hstart]
    by_cases hbelow : a.offset < b.start
    · rw [if_pos hbelow, if_neg fun hcov => Nat.not_le.2 hbelow (hspan.1 hcov).2.1,
        if_pos (by omega)]
    · by_cases habove : a.offset < b.start + headerSize + size
      · rw [if_neg hbelow, if_pos (hspan.2 ⟨hchunk, Nat.not_lt.1 hbelow, habove⟩), if_pos habove]
      · rw [if_neg hbelow, if_neg fun hcov => habove (hspan.1 hcov).2.2, if_neg habove]
  · rw [if_neg hchunk, if_neg fun hcov => hchunk (hspan.1 hcov).1, Nat.add_zero]

theorem coverage_le_one (h : Tiles spans c) (a : Address) : coverage spans a ≤ 1 := by
  rw [h a]
  split <;> omega

/-- A span that has a byte lies below the offset where carving goes on. -/
theorem stop_le (h : Tiles spans c) {s : Span} (hs : s ∈ spans) (hpos : 0 < s.length) :
    s.start.offset + s.length ≤ c.usedAt s.start.chunk := by
  have hcov : s.covers ⟨s.start.chunk, s.start.offset + s.length - 1⟩ = true :=
    Span.covers_iff.2 ⟨rfl, by simp only; omega, by simp only; omega⟩
  -- The last byte of the span is covered, and no byte at or above the offset is.
  have hone := h ⟨s.start.chunk, s.start.offset + s.length - 1⟩
  have hcount := coverage_pos_iff.2 ⟨s, hs, hcov⟩
  rw [hone] at hcount
  split at hcount
  · rename_i hlt
    exact Nat.le_of_pred_lt hlt
  · cases hcount

/-- A block ends within the carved part of its chunk. -/
theorem extent_stop_le (h : Tiles spans c) {e : Extent} (he : e.span ∈ spans) :
    e.stop ≤ c.usedAt e.block.chunk := by
  have hle := h.stop_le he (Nat.lt_of_lt_of_le (by decide) (Nat.le_add_right headerSize e.size))
  simpa only [Extent.stop, Extent.span, Block.headerByte, Nat.add_zero, Nat.add_assoc] using hle

/-- Tiles are apart, as no byte is covered twice. -/
theorem pairwise_apart {es : List Extent} {rest : List Span}
    (h : Tiles (es.map Extent.span ++ rest) c) : es.Pairwise Extent.Apart := by
  have hpair := (List.pairwise_append.1 (pairwise_of_coverage_le_one h.coverage_le_one)).1
  exact (List.pairwise_map.1 hpair).imp Extent.apart_of_disjoint

end Tiles

end ArenaAlloc

import ArenaAlloc.Proofs.Ceiling
import ArenaAlloc.Proofs.Effect
import ArenaAlloc.Proofs.Growing

/-!
# Where a block comes from

A request is rounded up. The first entry of the free list that is large enough serves it, whole;
else the first chunk with room, from the current one on; else the chunk that is added for it; else
it is refused. `allocation_exact` says for every state and size which of these it is, with what
result, and what else changes.

What holds of the chunks however they were come by is `Extends`, from those of a new arena on: they
have bytes at all, and the factor is at least two (`Reachable.growable`).

## The shape of the statement

`allocation_exact` is a decision table written as a conjunction of implications. Their premises
exclude each other and leave nothing out, and each conclusion gives the whole outcome: the result,
the free list, the sizes recorded in the headers, the chunks and the supply. `Recycles`, `Carves`
and `Refuses` are these outcomes, as structures with one field for each thing that could have
changed, and `GrowthOutcome` is the part of the table below "no chunk has room".

The premises are about the session as it can be observed: entries of the free list and the sizes in
their headers, bump offsets and lengths of chunks. The tiling, which the invariant needs, is only
used in the proofs.

The state is any that can be reached while the wider contract `Tolerates` is kept, so blocks may
have been freed twice before. What is not covered is a state that a caller has spoilt, by a store
outside its payloads: nothing can be said of what a walk over such headers finds.
-/

namespace ArenaAlloc

/-- A supply refuses a chunk of any length but zero by naming the length. -/
theorem Supply.obtain_eq_error {s : Supply} {n : Nat} {e : AllocError} (h : s.obtain n = .error e)
    (hn : 0 < n) : e = .outOfMemory n := by
  rw [obtain, if_neg (Nat.ne_of_gt hn)] at h
  split at h
  · cases h
  · exact (Except.error.inj h).symm

namespace Arena

/-! ## The outcomes

Three ways for a request to end, each a structure, so that the table below can name them. -/

/-- The first of the entries with at least `n` bytes, by chunk and address. -/
def FirstFit (a : Arena) (n : Nat) (b : Block) : Prop :=
  b ∈ a.freeList ∧ n ≤ a.heap.memory.blockSize b ∧
    ∀ c ∈ a.freeList, n ≤ a.heap.memory.blockSize c →
      c = b ∨ b.chunk < c.chunk ∨ b.chunk = c.chunk ∧ b.start < c.start

/-- The request is refused, and nothing changes. -/
def Refuses (a : Arena) (s : Supply) (size : Nat) (e : AllocError) : Prop :=
  (a.allocate s size).result = .error e ∧ (a.allocate s size).state = (a, s)

/-- The request is served with the entry `b`, whole. -/
structure Recycles (a : Arena) (s : Supply) (size : Nat) (b : Block) : Prop where
  result : (a.allocate s size).result = .ok b.payload
  freeList : (a.allocate s size).state.1.freeList = a.freeList.erase b
  sizes : ∀ c ∈ a.freeList,
    (a.allocate s size).state.1.heap.memory.blockSize c = a.heap.memory.blockSize c
  chunks : (a.allocate s size).state.1.chunks = a.chunks
  supply : (a.allocate s size).state.2 = s

/-- The request is served with `b`, a block of `n` bytes that is carved and leaves the chunks `c`
and the supply `s'`. -/
structure Carves (a : Arena) (s : Supply) (size n : Nat) (b : Block) (c : Chunks) (s' : Supply) :
    Prop where
  result : (a.allocate s size).result = .ok b.payload
  blockSize : (a.allocate s size).state.1.heap.memory.blockSize b = n
  freeList : (a.allocate s size).state.1.freeList = a.freeList
  sizes : ∀ d ∈ a.freeList,
    (a.allocate s size).state.1.heap.memory.blockSize d = a.heap.memory.blockSize d
  chunks : (a.allocate s size).state.1.chunks = c
  supply : (a.allocate s size).state.2 = s'

variable {a : Arena} {t : Tiling} {s s' : Supply} {e : Extent} {err : AllocError} {b : Block}
  {c : Chunks} {pre post : List Extent} {size n i length limit : Nat}

/-- An allocation does to the arena what taking a block does; the rest is the address. -/
theorem state_allocate (a : Arena) (s : Supply) (size : Nat) :
    (a.allocate s size).state = (a.takeBlock s size).state := rfl

/-- And it answers with the block's payload. -/
theorem result_allocate {r : Except AllocError Block} (h : (a.takeBlock s size).result = r) :
    (a.allocate s size).result = r.map Block.payload := by
  simp only [allocate, Outcome.result_map, h]

theorem Refuses.of_takeBlock (h : (a.takeBlock s size).result = .error err) :
    a.Refuses s size err :=
  ⟨result_allocate h, allocate_of_error (result_allocate h)⟩

/-- Handing a block out leaves the sizes of the entries. -/
theorem Taken.blockSize_of_mem_freeList {a' : Arena} {t' : Tiling} (ht : a.Taken t e a' t')
    (h : a.Sound t) (hb : b ∈ a.freeList) :
    a'.heap.memory.blockSize b = a.heap.memory.blockSize b := by
  rw [h.freeList_eq] at hb
  obtain ⟨f, hf, rfl⟩ := List.mem_map.1 hb
  rw [h.blockSize_eq (Tiling.mem_of_free hf), ht.blockSize_eq (Tiling.mem_of_free hf)]

/-- A size that cannot be rounded up is refused before anything is looked at. -/
theorem refuses_of_alignUp (h : alignUp size = none) :
    a.Refuses s size (.sizeOverflow 1 size) := by
  refine .of_takeBlock ?_
  simp only [takeBlock, h]

namespace Sound

/-! ## From the free list

The list is searched in its order, which is that of addresses, so "the first in the list" and "the
first by address" are the same entry. -/

theorem takeBlock_of_fit (h : a.Sound t) (halign : alignUp size = some n)
    (hfree : t.free = pre ++ e :: post) (hpre : ∀ f ∈ pre, f.size < n) (hfit : n ≤ e.size)
    (s : Supply) :
    a.takeBlock s size =
      ⟨.ok e.block, ({ a with
        heap := a.heap.unlink a.layout (pre.getLast?.map Extent.block) e.block }, s), []⟩ := by
  have hlists := h.lists
  rw [hfree] at hlists
  simp only [takeBlock, halign, hlists.firstFit?_of_fit hpre hfit]

/-- The entry that is taken leaves a gap, and the others stay as they are. -/
theorem recycles (h : a.Sound t) (halign : alignUp size = some n)
    (hfree : t.free = pre ++ e :: post) (hpre : ∀ f ∈ pre, f.size < n) (hfit : n ≤ e.size)
    (s : Supply) : a.Recycles s size e.block := by
  have htake := h.takeBlock_of_fit halign hfree hpre hfit s
  have htaken := h.recycle hfree
  have hstate := (a.state_allocate s size).trans (congrArg Outcome.state htake)
  -- No earlier entry is the same block, so erasing takes out this one.
  have hnot : e.block ∉ pre.map Extent.block := by
    intro hmem
    obtain ⟨f, hf, heq⟩ := List.mem_map.1 hmem
    have hordered := h.lists.ordered
    rw [hfree] at hordered
    have hbefore := (List.pairwise_append.1 hordered).2.2 f hf e List.mem_cons_self
    exact hbefore.block_ne heq
  refine
    { result := result_allocate (congrArg Outcome.result htake), freeList := ?freeList,
      sizes := ?sizes, chunks := by rw [hstate], supply := by rw [hstate] }
  case freeList =>
    rw [hstate, htaken.sound.freeList_eq, h.freeList_eq, hfree, List.map_append, List.map_append,
      List.map_cons, List.erase_append_right _ hnot, List.erase_cons_head]
  case sizes =>
    intro d hd
    rw [hstate]
    exact htaken.blockSize_of_mem_freeList h hd

/-- The first entry of the list that is large enough is the least by address, since the list is in
address order. -/
theorem firstFit (h : a.Sound t) (hfree : t.free = pre ++ e :: post)
    (hpre : ∀ f ∈ pre, f.size < n) (hfit : n ≤ e.size) : a.FirstFit n e.block := by
  have hsize : ∀ f ∈ t.free, a.heap.memory.blockSize f.block = f.size := fun f hf =>
    h.blockSize_eq (Tiling.mem_of_free hf)
  have hmem : e ∈ t.free := by rw [hfree]; simp
  rw [FirstFit, h.freeList_eq, hsize e hmem]
  refine ⟨List.mem_map_of_mem hmem, hfit, fun d hd hlarge => ?_⟩
  obtain ⟨f, hf, rfl⟩ := List.mem_map.1 hd
  rw [hsize f hf] at hlarge
  have hordered := h.lists.ordered
  rw [hfree] at hf hordered
  -- An entry before it was skipped, so it is too small; those behind it come later by address.
  rcases List.mem_append.1 hf with hf | hf
  · exact absurd hlarge (Nat.not_le.2 (hpre f hf))
  · rcases List.mem_cons.1 hf with rfl | hf
    · exact .inl rfl
    · have hrest := (List.pairwise_append.1 hordered).2.1
      exact .inr ((List.pairwise_cons.1 hrest).1 f hf).precedes

/-- If any entry is large enough, one is found, and it is the first. -/
theorem exists_firstFit (h : a.Sound t) (halign : alignUp size = some n) (s : Supply)
    (hsome : ∃ d ∈ a.freeList, n ≤ a.heap.memory.blockSize d) :
    ∃ b, a.FirstFit n b ∧ a.Recycles s size b := by
  cases hfound : a.heap.firstFit? a.layout n with
  | none =>
    obtain ⟨d, hd, hlarge⟩ := hsome
    rw [h.freeList_eq] at hd
    obtain ⟨f, hf, rfl⟩ := List.mem_map.1 hd
    rw [h.blockSize_eq (Tiling.mem_of_free hf)] at hlarge
    exact absurd hlarge (Nat.not_le.2 (h.lists.firstFit?_eq_none hfound f hf))
  | some found =>
    obtain ⟨pre, e, post, hfree, hpre, hfit, -⟩ := h.lists.firstFit?_eq_some hfound
    exact ⟨e.block, h.firstFit hfree hpre hfit, h.recycles halign hfree hpre hfit s⟩

/-! ## From the chunks

With no entry large enough, the result of a request is the result of carving. An entry that is too
small is skipped and stays, with its size. -/

theorem result_takeBlock_of_no_fit (h : a.Sound t) (halign : alignUp size = some n)
    (hall : ∀ f ∈ t.free, f.size < n) (s : Supply) :
    (a.takeBlock s size).result = (a.chunks.carve s n).result := by
  have hfit : a.heap.firstFit? a.layout n = none := h.lists.firstFit?_of_no_fit hall
  simp only [takeBlock, halign, hfit, Outcome.result_andThen]
  cases (a.chunks.carve s n).result <;> rfl

/-- What the chunks refuse is refused. -/
theorem refuses (h : a.Sound t) (halign : alignUp size = some n)
    (hall : ∀ f ∈ t.free, f.size < n) (hcarve : (a.chunks.carve s n).result = .error err) :
    a.Refuses s size err :=
  .of_takeBlock ((h.result_takeBlock_of_no_fit halign hall s).trans hcarve)

theorem takeBlock_of_carve (h : a.Sound t) (halign : alignUp size = some n)
    (hall : ∀ f ∈ t.free, f.size < n) (hr : (a.chunks.carve s n).result = .ok b)
    (hst : (a.chunks.carve s n).state = (c, s')) :
    (a.takeBlock s size).result = .ok b ∧
      (a.takeBlock s size).state = ({ chunks := c, heap := a.heap.carve b n }, s') ∧
      a.Taken t ⟨b, n⟩ { chunks := c, heap := a.heap.carve b n }
        { t with live := ⟨b, n⟩ :: t.live } := by
  have hdvd := dvd_of_alignUp halign
  have hfit : a.heap.firstFit? a.layout n = none := h.lists.firstFit?_of_no_fit hall
  refine ⟨(h.result_takeBlock_of_no_fit halign hall s).trans hr, ?_,
    h.carve (h.chunks.carved hdvd hr hst) hdvd⟩
  simp only [takeBlock, halign, hfit, Outcome.state_andThen, hr, hst]

/-- What the chunks carve is handed out, and the free list stays as it is. -/
theorem carves (h : a.Sound t) (halign : alignUp size = some n)
    (hall : ∀ f ∈ t.free, f.size < n) (hr : (a.chunks.carve s n).result = .ok b)
    (hst : (a.chunks.carve s n).state = (c, s')) : a.Carves s size n b c s' := by
  obtain ⟨hresult, htake, htaken⟩ := h.takeBlock_of_carve halign hall hr hst
  have hstate := (a.state_allocate s size).trans htake
  refine
    { result := result_allocate hresult, blockSize := ?blockSize, freeList := ?freeList,
      sizes := ?sizes, chunks := by rw [hstate], supply := by rw [hstate] }
  case blockSize =>
    have hsize := htaken.sound.blockSize_eq (Tiling.mem_of_live htaken.mem_live)
    rw [hstate]
    exact hsize
  case freeList =>
    rw [hstate]
    exact htaken.sound.freeList_eq.trans h.freeList_eq.symm
  case sizes =>
    intro d hd
    rw [hstate]
    exact htaken.blockSize_of_mem_freeList h hd

end Sound

/-! ## From a new chunk

Under these hypotheses no entry is large enough and no chunk has room, which is what is left of the
table. They are shared by all lemmas of the section, in the order in which the growth of the chunks
checks its conditions. -/

/-- What a request comes to that is `n` bytes when rounded up, if no chunk has room for them. -/
structure GrowthOutcome (a : Arena) (s : Supply) (size n : Nat) : Prop where
  header : wordLimit ≤ n + headerSize → a.Refuses s size (.sizeOverflow 1 n)
  capacity : n + headerSize < wordLimit → wordLimit ≤ a.capacity + (n + headerSize) →
    a.Refuses s size (.sizeOverflow 1 (n + headerSize))
  ceiling : a.capacity + (n + headerSize) < wordLimit → ∀ limit, a.chunks.ceiling = some limit →
    ((a.allocate s size).result = .error (.capacityExceeded (n + headerSize) a.capacity limit) ↔
      limit < a.capacity + (n + headerSize))
  count : a.capacity + (n + headerSize) < wordLimit → a.chunks.exceeds (n + headerSize) = false →
    chunkLimit ≤ a.chunks.count → a.Refuses s size (.outOfMemory 0)
  chunk : a.capacity + (n + headerSize) < wordLimit → a.chunks.exceeds (n + headerSize) = false →
    a.chunks.count < chunkLimit → ∃ length, a.chunks.AddsLength (n + headerSize) length ∧
      n + headerSize ≤ length ∧ a.chunks.exceeds length = false ∧
      (∀ e, s.obtain length = .error e → e = .outOfMemory length ∧ a.Refuses s size e) ∧
      ∀ s', s.obtain length = .ok s' → a.Carves s size n ⟨a.chunks.count, 0⟩
        { a.chunks with
          list := a.chunks.list ++ [{ length, used := headerSize + n }]
          current := a.chunks.count } s'
  unchanged : ∀ e, (a.allocate s size).result = .error e → (a.allocate s size).state = (a, s)

section NoRoom

variable (h : a.Sound t) (halign : alignUp size = some n) (hall : ∀ f ∈ t.free, f.size < n)
  (hno : ∀ i, a.chunks.current ≤ i → ¬ a.chunks.RoomAt n i)

include h halign hall hno

/-- What growing refuses is refused. -/
theorem refuses_of_grow (hlt : n + headerSize < wordLimit)
    (hgrow : (a.chunks.grow s (n + headerSize)).result = .error err) : a.Refuses s size err :=
  h.refuses halign hall (Chunks.carve_of_grow_error hno hlt hgrow)

variable (hg : a.chunks.Growable (n + headerSize))

include hg

/-- The chunk index in a header has 32 bits, and no more chunks are added than it can name. -/
theorem refuses_of_count (hwithin : a.chunks.exceeds (n + headerSize) = false)
    (hcount : chunkLimit ≤ a.chunks.count) : a.Refuses s size (.outOfMemory 0) := by
  obtain ⟨_, -, -, hnext⟩ := hg.exists_geometric
  rw [← hg.exceeds_nextLength hnext] at hwithin
  refine refuses_of_grow h halign hall hno hg.lt ?_
  rw [Chunks.grow_of_within hnext hwithin, if_pos hcount]

/-- The ceiling is compared with what the request needs at least. -/
theorem refuses_of_exceeds (hceiling : a.chunks.ceiling = some limit)
    (hlimit : limit < a.capacity + (n + headerSize)) :
    a.Refuses s size (.capacityExceeded (n + headerSize) a.capacity limit) := by
  have hexceeds := Chunks.exceeds_eq_true_iff.2 ⟨limit, hceiling, hlimit⟩
  have hnext := hg.nextLength_of_exceeds hexceeds
  exact refuses_of_grow h halign hall hno hg.lt (Chunks.grow_of_exceeds hnext hceiling hexceeds)

/-- With room below the ceiling and a chunk index to give, it is the supply that decides. -/
theorem carves_of_grow (hwithin : a.chunks.exceeds (n + headerSize) = false)
    (hcount : a.chunks.count < chunkLimit) :
    ∃ length, a.chunks.AddsLength (n + headerSize) length ∧
      n + headerSize ≤ length ∧ a.chunks.exceeds length = false ∧
      (∀ e, s.obtain length = .error e → e = .outOfMemory length ∧ a.Refuses s size e) ∧
      ∀ s', s.obtain length = .ok s' → a.Carves s size n ⟨a.chunks.count, 0⟩
        { a.chunks with
          list := a.chunks.list ++ [{ length, used := headerSize + n }]
          current := a.chunks.count } s' := by
  obtain ⟨geometric, -, -, hnext⟩ := hg.exists_geometric
  -- From here on only that this is the length that is tried.
  generalize (if a.chunks.exceeds geometric then n + headerSize else geometric) = length at hnext
  rw [← hg.exceeds_nextLength hnext] at hwithin
  have hle := Chunks.le_of_nextLength hnext
  refine ⟨length, hg.addsLength hnext, hle, hwithin, fun e hobtain => ?_, fun s' hobtain => ?_⟩
  · have hpos : 0 < length := Nat.lt_of_lt_of_le (Nat.add_pos_right n (by decide)) hle
    refine ⟨Supply.obtain_eq_error hobtain hpos, refuses_of_grow h halign hall hno hg.lt ?_⟩
    rw [Chunks.grow_of_within hnext hwithin, if_neg (Nat.not_le.2 hcount), hobtain]
  · obtain ⟨hr, hst⟩ := Chunks.carve_of_grows hno ⟨hnext, hwithin, hcount, hobtain⟩
    exact h.carves halign hall hr hst

/-- Whether the ceiling refuses a request depends on neither the factor nor the supply. -/
theorem capacityExceeded_iff (hceiling : a.chunks.ceiling = some limit) :
    (a.allocate s size).result = .error (.capacityExceeded (n + headerSize) a.capacity limit) ↔
      limit < a.capacity + (n + headerSize) := by
  constructor
  · intro hresult
    -- Within the ceiling the request is granted, or the number of chunks or the supply refuses it.
    refine Nat.lt_of_not_le fun hle => ?_
    have hwithin : a.chunks.exceeds (n + headerSize) = false := by
      simp only [Chunks.exceeds, hceiling, decide_eq_false_iff_not, Nat.not_lt]
      exact hle
    rcases Nat.lt_or_ge a.chunks.count chunkLimit with hcount | hcount
    · obtain ⟨length, -, -, -, herror, hok⟩ :=
        carves_of_grow (s := s) h halign hall hno hg hwithin hcount
      cases hobtain : s.obtain length with
      | error e =>
        obtain ⟨rfl, hrefused, -⟩ := herror e hobtain
        rw [hresult] at hrefused
        cases hrefused
      | ok s' =>
        have hcarved := (hok s' hobtain).result
        rw [hresult] at hcarved
        cases hcarved
    · have hrefused := (refuses_of_count (s := s) h halign hall hno hg hwithin hcount).1
      rw [hresult] at hrefused
      cases hrefused
  · intro hlimit
    exact (refuses_of_exceeds h halign hall hno hg hceiling hlimit).1

end NoRoom

end Arena

namespace Session

variable {s : Session}

namespace Reachable

variable {contract : Session → Call → Prop}

/-- The chunks of every session go back to those of a new arena. -/
theorem extends_new (h : Reachable contract s) :
    ∃ config supply a, (Arena.create config supply).result = .ok a ∧
      a.chunks.Extends s.arena.chunks := by
  induction h with
  | new config supply hnew => exact ⟨config, supply, _, hnew, .refl _⟩
  | step _ _ ih =>
    obtain ⟨config, supply, a, hnew, hext⟩ := ih
    exact ⟨config, supply, a, hnew, hext.trans (extends_step _ _)⟩

/-- An arena whose configuration was accepted has a first chunk of some bytes and a factor of two or
more, and no call takes either away. -/
theorem growable (h : Reachable contract s) {total : Nat} (hdvd : maxAlign ∣ total)
    (hlt : s.arena.capacity + total < wordLimit) : s.arena.chunks.Growable total := by
  obtain ⟨config, supply, a, hnew, hext⟩ := h.extends_new
  obtain ⟨hvalid, _, supply', hchunks, rfl⟩ := Arena.create_eq_ok hnew
  have hsound := (Chunks.sound_create hchunks).1
  obtain ⟨first, halign, -, rfl⟩ := Chunks.create_eq_ok hchunks
  obtain ⟨hmin, -, hfactor, -⟩ := Config.fault?_eq_none_iff.1 hvalid
  refine ⟨hext.sound hsound, ?_, ?_, hdvd, hlt⟩
  · -- The first chunk is still there, and the capacity is the sum over all.
    have hfirst : first ≤ s.arena.chunks.capacity :=
      le_total (hext.layout.subset (List.mem_singleton_self first))
    have hrounded := Nat.le_trans hmin (le_of_alignUp halign)
    exact Nat.lt_of_lt_of_le (by decide) (Nat.le_trans hrounded hfirst)
  · rw [hext.growthFactor]
    exact hfactor

end Reachable

/-- **What a request comes to**, in every state and for every size. -/
theorem allocation_exact (h : Reachable Tolerates s) (supply : Supply) (size : Nat) :
    let a := s.arena
    let c := a.chunks
    (alignUp size = none → a.Refuses supply size (.sizeOverflow 1 size)) ∧
    ∀ n, alignUp size = some n →
      ((∃ d ∈ a.freeList, n ≤ a.heap.memory.blockSize d) →
        ∃ b, a.FirstFit n b ∧ a.Recycles supply size b) ∧
      ((∀ d ∈ a.freeList, a.heap.memory.blockSize d < n) →
        (∀ i k, c.FirstRoom n i → c.list[i]? = some k →
          a.Carves supply size n ⟨i, k.used⟩
            { c with list := c.list.set i (k.take n), current := i } supply) ∧
        ((∀ i, c.current ≤ i → ¬ c.RoomAt n i) → a.GrowthOutcome supply size n)) := by
  obtain ⟨t, ht⟩ := h.valid_of_tolerates
  have hsound := ht.sound
  intro a c
  refine ⟨Arena.refuses_of_alignUp, fun n halign => ⟨hsound.exists_firstFit halign supply, ?_⟩⟩
  intro hsmall
  have hall : ∀ f ∈ t.free, f.size < n := by
    intro f hf
    rw [← hsound.blockSize_eq (Tiling.mem_of_free hf)]
    refine hsmall f.block ?_
    rw [hsound.freeList_eq]
    exact List.mem_map_of_mem hf
  refine ⟨fun i k hfirst hk => ?_, fun hno => ?_⟩
  · have hcarve := Chunks.carve_of_firstRoom (s := supply) hfirst hk
    exact hsound.carves halign hall (congrArg Outcome.result hcarve) (congrArg Outcome.state hcarve)
  · have hdvd : maxAlign ∣ n + headerSize := Nat.dvd_add (dvd_of_alignUp halign) ⟨2, rfl⟩
    exact
      { header := fun hge => hsound.refuses halign hall (Chunks.carve_of_overflow hno hge)
        capacity := fun hlt hge => Arena.refuses_of_grow hsound halign hall hno hlt
          (Chunks.grow_of_nextLength_eq_none (Chunks.nextLength_eq_none hge))
        ceiling := fun hlt limit hceiling =>
          Arena.capacityExceeded_iff hsound halign hall hno (h.growable hdvd hlt) hceiling
        count := fun hlt hwithin hcount =>
          Arena.refuses_of_count hsound halign hall hno (h.growable hdvd hlt) hwithin hcount
        chunk := fun hlt hwithin hcount =>
          Arena.carves_of_grow hsound halign hall hno (h.growable hdvd hlt) hwithin hcount
        unchanged := fun e => Arena.allocate_of_error }

/-- The second chunk is just as long as it must be, and for a third there is no room below the
ceiling. -/
theorem allocation_exact_of_run :
    ∃ a, (Arena.create { initialCapacity := 4096, maxCapacity := some 12288 } .unlimited).result =
        .ok a ∧
      let s := run { arena := a } [.allocate .unlimited 4000, .allocate .unlimited 6000]
      s.arena.chunks.layout = [4096, 6032] ∧
        (s.arena.allocate .unlimited 4096).result =
          .error (.capacityExceeded 4128 10128 12288) := by
  have hnew : (Arena.create { initialCapacity := 4096, maxCapacity := some 12288 }
      .unlimited).result = .ok { chunks := ⟨[{ length := 4096 }], 0, 2, some 12288⟩ } := rfl
  refine ⟨_, hnew, ?_⟩
  intro s
  have hreach : Reachable Tolerates s := (Reachable.new _ _ hnew).run ⟨trivial, trivial, trivial⟩
  obtain ⟨-, hrounded⟩ := allocation_exact hreach .unlimited 4096
  obtain ⟨-, hchunks⟩ := hrounded 4096 rfl
  obtain ⟨-, hgrows⟩ := hchunks (by decide +kernel)
  have hout := hgrows (Chunks.not_roomAt_of_roomFor? (by decide +kernel))
  have hcapacity : s.arena.capacity = 10128 := by decide +kernel
  have hceiling := hout.ceiling (by rw [hcapacity]; decide) 12288 (by decide +kernel)
  rw [hcapacity] at hceiling
  exact ⟨by decide +kernel, hceiling.2 (by decide)⟩

end Session

end ArenaAlloc

import ArenaAlloc.Workload
import ArenaAlloc.Proofs.Replay

/-!
# Workloads run in place

A workload counts beforehand what an arena will spend on it, and asks for a first chunk of that many
bytes. So its blocks lie one behind another in that chunk (`placed`), and none is ever added.

Freed blocks that are every other one never touch, because a block in use lies in between, so the
free list is just these, in order. When their sizes are asked for again, in the same order, the
first entry is always the one that the size belongs to: it fits, and those before it are taken
already.

Both halves are inductions over the list of sizes, with the arena as it is in between. The first one
keeps that the free list is empty and that all is in one chunk, so each block is carved right behind
the one before (`allocateAll_placed`). The second one keeps that the free list is what is left of
the blocks whose sizes are still to come, so each of these finds its block first
(`allocateAll_listed`). Nowhere is the supply asked for anything, and so it may be any supply.

The sizes enter only by what they are rounded up to. A generated size is less than 2 ^ 31 + 1, so it
can be rounded up, whatever the state that it was made from (`sizeAt_le`).
-/

namespace ArenaAlloc

namespace Workload

/-! ## The mix

Sizes come from a linear congruential generator, and all that is used of it is that they come from
the upper bits of some state. So what is said here holds for every seed, and it would for another
generator of such sizes. -/

theorem sizeAt_bounds {max : Nat} (hmax : 1 ≤ max) (state : UInt64) :
    1 ≤ sizeAt max state ∧ sizeAt max state ≤ max := by
  have hspan : ∀ bits span : Nat, 1 ≤ span → span ≤ max → 1 + bits % span ≤ max := by
    intro bits span hpos hle
    have hlt := Nat.mod_lt bits hpos
    omega
  refine ⟨Nat.le_add_right _ _, ?_⟩
  simp only [sizeAt]
  split
  · exact hspan _ _ hmax (Nat.le_refl max)
  · exact hspan _ _ (Nat.le_max_right _ _) (Nat.max_le.2 ⟨Nat.div_le_self max 8, hmax⟩)

/-- A size comes from the upper bits of a state, so it is far from what a word holds. -/
theorem sizeAt_le (max : Nat) (state : UInt64) : sizeAt max state ≤ 2 ^ 31 := by
  have hbits : (state >>> 33).toNat < 2 ^ 31 := by
    rw [UInt64.toNat_shiftRight]
    have hlt := state.toNat_lt
    show state.toNat >>> 33 < _
    rw [Nat.shiftRight_eq_div_pow]
    omega
  have hmod := Nat.mod_le ((state >>> 33).toNat / 4)
    (if (state >>> 33).toNat % 4 = 0 then max else Nat.max (max / 8) 1)
  simp only [sizeAt]
  omega

theorem length_sizesFrom (max : Nat) (state : UInt64) (n : Nat) :
    (sizesFrom max state n).length = n := by
  induction n generalizing state with
  | zero => rfl
  | succ n ih => rw [sizesFrom, List.length_cons, ih]

/-- Every size of a mix was made from some state. -/
theorem exists_state {max n size : Nat} {state : UInt64} (h : size ∈ sizesFrom max state n) :
    ∃ state, size = sizeAt max state := by
  induction n generalizing state with
  | zero => cases h
  | succ n ih =>
    rcases List.mem_cons.1 h with rfl | h
    · exact ⟨_, rfl⟩
    · exact ih h

/-- The payload sizes, rounded up. -/
def payloads (w : Workload) : List Nat := w.sizes.map fun size => (alignUp size).getD size

/-- Every size of a mix can be rounded up. -/
theorem map_alignUp (n max : Nat) (seed : UInt64) :
    (generate n max seed).sizes.map alignUp = (generate n max seed).payloads.map some := by
  rw [payloads, List.map_map]
  refine List.map_congr_left fun size hsize => ?_
  obtain ⟨state, rfl⟩ := exists_state hsize
  have hle := sizeAt_le (Nat.max max 1) state
  cases halign : alignUp (sizeAt (Nat.max max 1) state) with
  | some r => simp only [Function.comp_apply, halign, Option.getD_some]
  | none =>
    have hlarge := alignUp_eq_none.1 halign
    simp only [wordLimit, maxAlign] at hlarge
    omega

theorem footprint_eq (n max : Nat) (seed : UInt64) :
    (generate n max seed).footprint =
      total ((generate n max seed).payloads.map (headerSize + ·)) := by
  rw [payloads, List.map_map]
  rfl

/-! ## Every other element

Of the blocks, of their pointers and of the sizes every other one is taken. These lemmas say that it
makes no difference whether that is done before or after one list is mapped to another. -/

section EveryOther

variable {α β : Type}

theorem everyOther_map (f : α → β) : ∀ xs, everyOther (xs.map f) = (everyOther xs).map f
  | [] => rfl
  | [_] => rfl
  | x :: _ :: rest => congrArg (f x :: ·) (everyOther_map f rest)

theorem length_everyOther : ∀ xs : List α, (everyOther xs).length = (xs.length + 1) / 2
  | [] => by simp only [everyOther, List.length_nil]
  | [_] => by simp only [everyOther, List.length_singleton]
  | _ :: _ :: rest => by
    simp only [everyOther, List.length_cons, length_everyOther rest]
    omega

theorem everyOther_sublist : ∀ xs : List α, (everyOther xs).Sublist xs
  | [] => .slnil
  | [_] => .refl _
  | x :: y :: rest => ((everyOther_sublist rest).cons y).cons_cons x

end EveryOther

/-! ## Blocks one behind another

`placed` is where the blocks of a mix are. Two of them that are neighbours in the list touch, and
two that are not have a header at least between them, so every other one of them has none that it
touches. -/

/-- Blocks with these payload sizes, one behind another from `offset` on. -/
def placed (offset : Nat) : List Nat → List Extent
  | [] => []
  | n :: ns => ⟨⟨0, offset⟩, n⟩ :: placed (offset + headerSize + n) ns

theorem map_size_placed (offset : Nat) (ns : List Nat) :
    (placed offset ns).map Extent.size = ns := by
  induction ns generalizing offset with
  | nil => rfl
  | cons n ns ih => rw [placed, List.map_cons, ih]

theorem map_some_size_placed (offset : Nat) (ns : List Nat) :
    (placed offset ns).map (some ·.size) = ns.map some := calc
  (placed offset ns).map (some ·.size) = ((placed offset ns).map Extent.size).map some :=
    List.map_map.symm
  _ = ns.map some := by rw [map_size_placed]

/-- Each block lies behind all those before it. -/
theorem getElem?_placed (offset : Nat) (ns : List Nat) (i : Nat) :
    (placed offset ns)[i]? =
      ns[i]?.map fun n => ⟨⟨0, offset + total ((ns.take i).map (headerSize + ·))⟩, n⟩ := by
  induction ns generalizing offset i with
  | nil => rfl
  | cons n ns ih =>
    cases i with
    | zero => rfl
    | succ i =>
      rw [placed, List.getElem?_cons_succ, ih, List.getElem?_cons_succ, List.take_succ_cons,
        List.map_cons, total_cons]
      simp only [Nat.add_assoc]

theorem clear_of_mem_placed {offset : Nat} {e f : Extent} {ns : List Nat}
    (he : e.block.chunk = 0) (hstop : e.stop < offset) (hf : f ∈ placed offset ns) :
    e.Clear f := by
  induction ns generalizing offset with
  | nil => cases hf
  | cons m ns ih =>
    rcases List.mem_cons.1 hf with rfl | hf
    · exact .inr ⟨he, hstop⟩
    · exact ih (Nat.lt_of_lt_of_le hstop (by omega)) hf

/-- With a block in between no two of them touch. -/
theorem clear_everyOther_placed : ∀ (offset : Nat) (ns : List Nat),
    (everyOther (placed offset ns)).Pairwise Extent.Clear
  | _, [] => .nil
  | _, [_] => List.pairwise_singleton _ _
  | offset, n :: m :: ns => by
    refine List.pairwise_cons.2 ⟨fun f hf => ?_, clear_everyOther_placed _ ns⟩
    refine clear_of_mem_placed rfl ?_ ((everyOther_sublist _).subset hf)
    simp only [Extent.stop, headerSize]
    omega

/-! ## Step by step

The lemmas are about any arena of one chunk that is sound, and any part of a mix; the run puts them
together. -/

section Steps

variable {a a' : Arena} {t : Tiling} {g g' : Supply} {b : Block} {es post rest : List Extent}
  {sizes ns : List Nat} {size n length used : Nat}

/-- All the arena has is one chunk. -/
def OneChunk (a : Arena) (length used : Nat) : Prop :=
  a.chunks.list = [{ length, used }] ∧ a.chunks.current = 0

theorem OneChunk.layout (h : OneChunk a length used) : a.layout = [length] := by
  show a.chunks.list.map Chunk.length = _
  rw [h.1]
  rfl

/-- All statistics of such an arena, read off its bookkeeping. -/
theorem OneChunk.stats (h : OneChunk a length used) (hs : a.Sound t) :
    a.stats = { chunkCount := 1, capacity := length, used,
                freeBlocks := t.free.map fun e => ⟨e.block.payload, e.size⟩ } := by
  have hfree := Session.Retraces.stats_eq hs
  have hcount : a.stats.chunkCount = 1 := congrArg List.length h.1
  have hcapacity : a.stats.capacity = length := congrArg total h.layout
  have hused : a.stats.used = used := by
    show total (a.chunks.list.map Chunk.used) = used
    rw [h.1]
    rfl
  cases hstats : a.stats with
  | mk count capacity used' free =>
    rw [hstats] at hfree hcount hcapacity hused
    simp only at hfree hcount hcapacity hused
    rw [hfree, hcount, hcapacity, hused]

theorem OneChunk.of_create {config : Config} (hnew : (Arena.create config g).result = .ok a) :
    ∃ length, alignUp config.initialCapacity = some length ∧ OneChunk a length 0 := by
  obtain ⟨-, c, g', hchunks, rfl⟩ := Arena.create_eq_ok hnew
  obtain ⟨length, halign, -, rfl⟩ := Chunks.create_eq_ok hchunks
  exact ⟨length, halign, rfl, rfl⟩

theorem OneChunk.reset (h : OneChunk a length used) : OneChunk a.reset.state length 0 := by
  refine ⟨?_, rfl⟩
  show a.chunks.list.map Chunk.rewind = _
  rw [h.1]
  rfl

theorem allocateAll_cons (hr : (a.takeBlock g size).result = .ok b)
    (hst : (a.takeBlock g size).state = (a', g')) :
    allocateAll a g (size :: sizes) =
      ((allocateAll a' g' sizes).1, some b.payload :: (allocateAll a' g' sizes).2) := by
  simp only [allocateAll, Arena.allocate?, Arena.allocate, Outcome.result_map, Outcome.state_map,
    hr, hst]
  rfl

/-- With nothing on the free list a block is carved where carving goes on. -/
theorem takeBlock_of_room (h : a.Sound t) (hone : OneChunk a length used) (hfree : t.free = [])
    (halign : alignUp size = some n) (hroom : used + headerSize + n ≤ length) :
    (a.takeBlock g size).result = .ok ⟨0, used⟩ ∧
      ∃ a', (a.takeBlock g size).state = (a', g) ∧ OneChunk a' length (used + headerSize + n) ∧
        a'.Sound { t with live := ⟨⟨0, used⟩, n⟩ :: t.live } := by
  obtain ⟨hlist, hcurrent⟩ := hone
  have hk : a.chunks.list[0]? = some ⟨length, used⟩ := by
    rw [hlist]
    rfl
  have hfirst : a.chunks.FirstRoom n 0 :=
    ⟨Nat.le_of_eq hcurrent, ⟨_, hk, hroom⟩, fun j _ hj => absurd hj (Nat.not_lt_zero j)⟩
  have hcarve := Chunks.carve_of_firstRoom (s := g) hfirst hk
  have hnone : ∀ f ∈ t.free, f.size < n := by
    rw [hfree]
    exact fun f hf => nomatch hf
  obtain ⟨hr, hst, ht⟩ := h.takeBlock_of_carve halign hnone (congrArg Outcome.result hcarve)
    (congrArg Outcome.state hcarve)
  refine ⟨hr, _, hst, ⟨?_, rfl⟩, ht.sound⟩
  show a.chunks.list.set 0 _ = _
  rw [hlist]
  rfl

/-- **The mix is carved one block behind another**, as far as the chunk has room. -/
theorem allocateAll_placed (h : a.Sound t) (hone : OneChunk a length used) (hfree : t.free = [])
    (halign : sizes.map alignUp = ns.map some)
    (hroom : used + total (ns.map (headerSize + ·)) ≤ length) :
    let o := allocateAll a g sizes
    o.2 = (placed used ns).map (some ·.block.payload) ∧ o.1.2 = g ∧
      OneChunk o.1.1 length (used + total (ns.map (headerSize + ·))) ∧
      ∃ t', o.1.1.Sound t' ∧ t'.free = [] ∧ t'.live.Perm (placed used ns ++ t.live) := by
  -- On the payloads that are still to be placed; the arena has carved all of those before.
  induction ns generalizing a t used sizes with
  | nil =>
    rw [List.map_eq_nil_iff.1 halign]
    exact ⟨rfl, rfl, hone, t, h, hfree, .refl _⟩
  | cons n ns ih =>
    obtain ⟨size, rest, rfl, hsize, hrest⟩ := List.map_eq_cons_iff.1 halign
    rw [List.map_cons, total_cons] at hroom
    have hnext : used + headerSize + n + total (ns.map (headerSize + ·)) ≤ length := by omega
    obtain ⟨hr, a₁, hst, hone₁, h₁⟩ := takeBlock_of_room (g := g) h hone hfree hsize (by omega)
    obtain ⟨hpointers, hsupply, hone', t', h', hfree', hlive⟩ := ih h₁ hone₁ hfree hrest hnext
    rw [allocateAll_cons hr hst]
    refine ⟨?_, hsupply, ?_, t', h', hfree', hlive.trans List.perm_middle⟩
    · rw [hpointers]
      rfl
    · rw [List.map_cons, total_cons, ← Nat.add_assoc, ← Nat.add_assoc]
      exact hone'

theorem chunks_freeAll (a : Arena) (pointers : List (Option Address)) :
    (freeAll a pointers).chunks = a.chunks := by
  induction pointers generalizing a with
  | nil => rfl
  | cons p pointers ih =>
    refine (ih _).trans ?_
    cases p with
    | none => rfl
    | some q => exact a.chunks_giveBlock _

/-- **Blocks that do not touch are listed as they are**, one behind the other. -/
theorem sound_freeAll (h : a.Sound t) (hlive : t.live.Perm (es ++ rest))
    (hclear : (t.free ++ es).Pairwise Extent.Clear) :
    ∃ t', (freeAll a (es.map (some ·.block.payload))).Sound t' ∧ t'.free = t.free ++ es := by
  -- On the blocks that are still to be freed; those before are listed and in order.
  induction es generalizing a t with
  | nil => exact ⟨t, h, (List.append_nil _).symm⟩
  | cons e es ih =>
    have hsub : (t.free ++ e :: []).Sublist (t.free ++ e :: es) :=
      ((List.nil_sublist es).cons_cons e).append_left _
    have hplace := Extent.place_middle (hclear.sublist hsub)
    rw [List.append_nil] at hplace
    obtain ⟨hgiven, -⟩ := h.giveBlock hlive
    rw [hplace] at hgiven
    rw [List.append_cons] at hclear
    obtain ⟨t', h', hfree⟩ := ih hgiven (.refl _) hclear
    have hstep : (a.free (some e.block.payload)).state = (a.giveBlock e.block).state := by
      rw [Arena.free, Block.ofPayload_payload]
    refine ⟨t', ?_, hfree.trans (List.append_cons _ _ _).symm⟩
    show (freeAll (a.free (some e.block.payload)).state _).Sound t'
    rw [hstep]
    exact h'

/-- **Sizes asked for in the order of the list meet their entries**: the first one always fits. -/
theorem allocateAll_listed (h : a.Sound t) (hfree : t.free = es ++ post)
    (halign : sizes.map alignUp = es.map (some ·.size)) :
    let o := allocateAll a g sizes
    o.2 = es.map (some ·.block.payload) ∧ o.1.1.chunks = a.chunks ∧
      ∃ t', o.1.1.Sound t' ∧ t'.free = post := by
  induction es generalizing a t sizes with
  | nil =>
    rw [List.map_eq_nil_iff.1 halign]
    exact ⟨rfl, rfl, t, h, hfree⟩
  | cons e es ih =>
    obtain ⟨size, rest, rfl, hsize, hrest⟩ := List.map_eq_cons_iff.1 halign
    have hfirst : t.free = [] ++ e :: (es ++ post) := hfree
    -- The first entry is as long as what is asked for, and first fit looks no further.
    have htake := h.takeBlock_of_fit hsize hfirst (fun f hf => nomatch hf) (Nat.le_refl e.size) g
    obtain ⟨hpointers, hchunks, ht⟩ := ih (h.recycle hfirst).sound rfl hrest
    rw [allocateAll_cons (congrArg Outcome.result htake) (congrArg Outcome.state htake)]
    refine ⟨?_, hchunks, ht⟩
    rw [hpointers]
    rfl

end Steps

/-! ## The run

The four states of `Workload.churn` are named, so that each can be spoken of: the arena is filled,
thinned, refilled and reset. `ChurnsInPlace` says what each of them has, and which blocks the mix
got. -/

section Run

variable {w : Workload} {a : Arena} {g supply : Supply} {ns : List Nat} {n max length : Nat}
  {seed : UInt64}

/-- The arena and the supply after the mix was allocated, and the pointers. -/
def filled (w : Workload) (a : Arena) (g : Supply) : (Arena × Supply) × List (Option Address) :=
  allocateAll a g w.sizes

/-- The arena after every other block was freed. -/
def thinned (w : Workload) (a : Arena) (g : Supply) : Arena :=
  freeAll (w.filled a g).1.1 (everyOther (w.filled a g).2)

/-- The arena and the supply after the sizes of those were allocated again, and the pointers. -/
def refilled (w : Workload) (a : Arena) (g : Supply) : (Arena × Supply) × List (Option Address) :=
  allocateAll (w.thinned a g) (w.filled a g).1.2 (everyOther w.sizes)

theorem churn_eq (w : Workload) (a : Arena) (g : Supply) :
    w.churn a g = [(w.filled a g).1.1.stats, (w.thinned a g).stats, (w.refilled a g).1.1.stats,
      (w.refilled a g).1.1.reset.state.stats] := rfl

/-- The statistics of an arena with one chunk of `length` bytes that holds the mix. -/
def full (w : Workload) (length : Nat) : Stats Address :=
  { chunkCount := 1, capacity := length, used := w.footprint }

/-- The run goes through in one chunk of `length` bytes, with these blocks for the mix. -/
structure ChurnsInPlace (w : Workload) (a : Arena) (g : Supply) (length : Nat)
    (blocks : List (FreeBlock Address)) : Prop where
  sizes : w.sizes.map alignUp = blocks.map (some ·.size)
  address : ∀ i (b : FreeBlock Address), blocks[i]? = some b →
    b.address = ⟨0, headerSize + total ((blocks.take i).map (headerSize + ·.size))⟩
  filled : (w.filled a g).2 = blocks.map (some ·.address)
  refilled : (w.refilled a g).2 = (everyOther blocks).map (some ·.address)
  stats : w.churn a g = [w.full length, { w.full length with freeBlocks := everyOther blocks },
    w.full length, { w.full length with used := 0 }]
  /-- No chunk is added by any of the steps. -/
  layout : ∀ k, (allocateAll a g (w.sizes.take k)).1.1.layout = [length] ∧
    (freeAll (w.filled a g).1.1 ((everyOther (w.filled a g).2).take k)).layout = [length] ∧
    (allocateAll (w.thinned a g) (w.filled a g).1.2
      ((everyOther w.sizes).take k)).1.1.layout = [length]

/-- The block of the statistics that stands for an extent. -/
def shown (e : Extent) : FreeBlock Address := ⟨e.block.payload, e.size⟩

section OneChunk

variable (h : a.Sound {}) (hone : OneChunk a length 0) (halign : w.sizes.map alignUp = ns.map some)
  (hfootprint : w.footprint = total (ns.map (headerSize + ·))) (hfits : w.footprint ≤ length)

include h hone halign hfootprint hfits

/-- The mix is allocated block behind block. -/
theorem filled_placed :
    (w.filled a g).2 = (placed 0 ns).map (some ·.block.payload) ∧
      OneChunk (w.filled a g).1.1 length w.footprint ∧
      ∃ t, (w.filled a g).1.1.Sound t ∧ t.free = [] ∧ t.live.Perm (placed 0 ns) := by
  have hroom : 0 + total (ns.map (headerSize + ·)) ≤ length := by omega
  obtain ⟨hpointers, -, hone', t, ht, hfree, hlive⟩ :=
    allocateAll_placed (g := g) h hone rfl halign hroom
  rw [Nat.zero_add, ← hfootprint] at hone'
  rw [List.append_nil] at hlive
  exact ⟨hpointers, hone', t, ht, hfree, hlive⟩

/-- The blocks that are freed are the free list. -/
theorem thinned_listed :
    OneChunk (w.thinned a g) length w.footprint ∧
      ∃ t, (w.thinned a g).Sound t ∧ t.free = everyOther (placed 0 ns) := by
  obtain ⟨hpointers, hone', t, ht, hfree, hlive⟩ :=
    filled_placed (g := g) h hone halign hfootprint hfits
  have hclear : (t.free ++ everyOther (placed 0 ns)).Pairwise Extent.Clear := by
    rw [hfree]
    exact clear_everyOther_placed 0 ns
  obtain ⟨others, hothers⟩ := (everyOther_sublist (placed 0 ns)).exists_perm_append
  obtain ⟨t', ht', hfree'⟩ := sound_freeAll ht (hlive.trans hothers) hclear
  rw [thinned, hpointers, everyOther_map]
  refine ⟨?_, t', ht', ?_⟩
  · rw [OneChunk, chunks_freeAll]
    exact hone'
  · rw [hfree', hfree, List.nil_append]

/-- The sizes of the blocks that were freed are allocated again where they were. -/
theorem refilled_listed :
    (w.refilled a g).2 = (everyOther (placed 0 ns)).map (some ·.block.payload) ∧
      OneChunk (w.refilled a g).1.1 length w.footprint ∧
      (∃ t, (w.refilled a g).1.1.Sound t ∧ t.free = []) ∧
      ∀ k, (allocateAll (w.thinned a g) (w.filled a g).1.2
        ((everyOther w.sizes).take k)).1.1.layout = [length] := by
  obtain ⟨hone', t, ht, hfree⟩ := thinned_listed (g := g) h hone halign hfootprint hfits
  have haligned : (everyOther w.sizes).map alignUp =
      (everyOther (placed 0 ns)).map (some ·.size) := by
    rw [← everyOther_map, ← everyOther_map, halign, map_some_size_placed]
  obtain ⟨hpointers, hchunks, hsound⟩ := allocateAll_listed (g := (w.filled a g).1.2) ht
    (hfree.trans (List.append_nil _).symm) haligned
  refine ⟨hpointers, ?_, hsound, fun k => ?_⟩
  · rw [OneChunk, refilled, hchunks]
    exact hone'
  · have hparted := hfree.trans (List.take_append_drop k (everyOther (placed 0 ns))).symm
    obtain ⟨-, hkept, -⟩ := allocateAll_listed (g := (w.filled a g).1.2) ht hparted
      (by rw [List.map_take, haligned, List.map_take])
    rw [Arena.layout, hkept]
    exact hone'.layout

/-- **A mix that fits in the first chunk churns in place.** -/
theorem churnsInPlace : w.ChurnsInPlace a g length ((placed 0 ns).map shown) := by
  obtain ⟨hpointers, hone₁, t₁, h₁, hfree₁, -⟩ :=
    filled_placed (g := g) h hone halign hfootprint hfits
  obtain ⟨hone₂, t₂, h₂, hfree₂⟩ := thinned_listed (g := g) h hone halign hfootprint hfits
  obtain ⟨hagain, hone₃, ⟨t₃, h₃, hfree₃⟩, hkept⟩ :=
    refilled_listed (g := g) h hone halign hfootprint hfits
  refine
    { sizes := ?sizes, address := ?address, filled := ?filled, refilled := ?refilled,
      stats := ?stats, layout := fun k => ⟨?carved, ?given, hkept k⟩ }
  case sizes =>
    rw [List.map_map]
    exact halign.trans (map_some_size_placed 0 ns).symm
  case address =>
    intro i b hb
    have hcosts : ((placed 0 ns).map shown).map (headerSize + ·.size) =
        ns.map (headerSize + ·) := calc
      ((placed 0 ns).map shown).map (headerSize + ·.size) =
          ((placed 0 ns).map Extent.size).map (headerSize + ·) := by
        rw [List.map_map, List.map_map]
        rfl
      _ = ns.map (headerSize + ·) := by rw [map_size_placed]
    have htaken : (((placed 0 ns).map shown).take i).map (headerSize + ·.size) =
        (ns.take i).map (headerSize + ·) := by
      rw [List.map_take, hcosts, List.map_take]
    rw [List.getElem?_map, getElem?_placed, Option.map_map] at hb
    obtain ⟨n, -, rfl⟩ := Option.map_eq_some_iff.1 hb
    rw [htaken]
    simp only [Function.comp_apply, shown, Block.payload, Nat.zero_add, Nat.add_comm]
  case filled =>
    rw [List.map_map]
    exact hpointers
  case refilled =>
    rw [everyOther_map, List.map_map]
    exact hagain
  case stats =>
    rw [churn_eq, hone₁.stats h₁, hone₂.stats h₂, hone₃.stats h₃,
      hone₃.reset.stats (Arena.sound_reset h₃.chunks), hfree₁, hfree₂, hfree₃, everyOther_map]
    rfl
  case carved =>
    have hle := Layout.total_take_le (ns.map (headerSize + ·)) k
    rw [← List.map_take] at hle
    have hroom : 0 + total ((ns.take k).map (headerSize + ·)) ≤ length := by omega
    obtain ⟨-, -, hone', -⟩ := allocateAll_placed (g := g) h hone rfl
      (by rw [List.map_take, halign, List.map_take]) hroom
    exact hone'.layout
  case given =>
    rw [Arena.layout, chunks_freeAll]
    exact hone₁.layout

end OneChunk

/-- **Workloads fit and churn in place.** A mix has as many sizes as were asked for, each within the
range. An arena of the mix's own configuration allocates it block behind block, frees every other
one to a list of just these, and allocates their sizes again where they were, all in the first
chunk, whatever the supply would grant. -/
theorem generated_churns_in_place
    (hnew : (Arena.create (generate n max seed).config supply).result = .ok a) (g : Supply) :
    let w := generate n max seed
    w.sizes.length = n ∧ (∀ size ∈ w.sizes, 1 ≤ size ∧ size ≤ Nat.max max 1) ∧
      ∃ length blocks, alignUp w.config.initialCapacity = some length ∧
        w.ChurnsInPlace a g length blocks ∧ (everyOther blocks).length = (n + 1) / 2 ∧
        (w.thinned a g).stats.freeBytes = total ((everyOther blocks).map FreeBlock.size) := by
  have hlength : (generate n max seed).sizes.length = n := length_sizesFrom _ seed n
  obtain ⟨length, halign, hone⟩ := OneChunk.of_create hnew
  -- The configuration asks for the footprint at least.
  have hfits : (generate n max seed).footprint ≤ length :=
    Nat.le_trans (Nat.le_max_left _ _) (le_of_alignUp halign)
  have hchurns := churnsInPlace (g := g) (Arena.sound_create hnew) hone (map_alignUp n max seed)
    (footprint_eq n max seed) hfits
  refine ⟨hlength, fun size hsize => ?_, length, _, halign, hchurns, ?_, ?_⟩
  · obtain ⟨state, rfl⟩ := exists_state hsize
    exact sizeAt_bounds (Nat.le_max_right max 1) state
  · have hmapped := congrArg List.length hchurns.sizes
    rw [List.length_map, List.length_map, hlength] at hmapped
    rw [length_everyOther, ← hmapped]
  · have hstats := hchurns.stats
    rw [churn_eq] at hstats
    obtain ⟨-, hthinned⟩ := List.cons_eq_cons.1 hstats
    rw [(List.cons_eq_cons.1 hthinned).1]
    rfl

/-- Five requests, after the first of which no supply grants anything. -/
theorem generated_churns_in_place_of_mix :
    ∃ a, (Arena.create (generate 5 100 7).config .unlimited).result = .ok a ∧
      ∃ length blocks, (generate 5 100 7).ChurnsInPlace a (.limited 0) length blocks ∧
        (everyOther blocks).length = 3 := by
  have hnew : (Arena.create (generate 5 100 7).config .unlimited).result =
      .ok { chunks := ⟨[{ length := 5242880 }], 0, 2, none⟩ } := by
    have hconfig : (generate 5 100 7).config = { initialCapacity := 5242880 } := by decide +kernel
    rw [hconfig]
    rfl
  obtain ⟨-, -, length, blocks, -, hchurns, hcount, -⟩ :=
    generated_churns_in_place hnew (.limited 0)
  exact ⟨_, hnew, length, blocks, hchurns, hcount⟩

end Run

end Workload

end ArenaAlloc

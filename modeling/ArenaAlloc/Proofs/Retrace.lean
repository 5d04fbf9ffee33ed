import ArenaAlloc.Proofs.Placement

/-!
# Carving the same chunks again

An arena that was never reset always carves its last chunk, and when that has no room it adds one.
One that was reset finds the chunks that were added then: it skips the chunk that is full, as the
first arena did, and the next one is as long as the one that was added. `Chunks.Retraces` says that
two lists of chunks are alike in this way, and `Retraces.carve` that they stay so: whatever the
first arena carves the second carves too, at the same place, without a new chunk.

`takeBlock_retraces` is the same for arenas with one tiling, where an entry may serve the request.

## Two lists of chunks

The relation is between different points of two lives. The first list is that of an arena at some
moment before its first reset: its last chunk is the current one, and all chunks before were
skipped. The second is the list after a reset, with the current chunk somewhere in the middle and
empty ones behind it. `Retraces` asks that the two agree up to the current chunk, and that what the
second has beyond it was not used yet.

That the next chunk of the second is as long as the one that the first adds cannot be seen from the
two lists. It is true because it *is* that chunk: the second list came from a longer life of the
first arena. `Retraces.carve` takes it as a hypothesis, in the form that the layout of the first
list after the step is a prefix of the layout of the second.

The supplies of the two are unrelated. The second needs none, which is half of what the replay of a
script is about.
-/

namespace ArenaAlloc

/-- Chunks of which nothing is carved use nothing. -/
theorem total_eq_zero {ns : List Nat} (h : ∀ n ∈ ns, n = 0) : total ns = 0 := by
  induction ns with
  | nil => rfl
  | cons n ns ih =>
    rw [total_cons, h n List.mem_cons_self, ih fun k hk => h k (List.mem_cons_of_mem n hk)]

namespace Chunks

/-- `c` carves its last chunk; `c'` carves the same one, with the same chunks before it, and has
perhaps more behind it that are still empty. -/
structure Retraces (c c' : Chunks) : Prop where
  last : c.current + 1 = c.count
  current : c'.current = c.current
  list : ∃ rest, c'.list = c.list ++ rest ∧ ∀ k ∈ rest, k.used = 0

variable {c c' d : Chunks} {s : Supply} {b : Block} {i size length : Nat}

namespace Retraces

/-- Where the first list has a chunk, the second has the same. -/
theorem getElem? (h : c.Retraces c') (hi : i < c.count) : c'.list[i]? = c.list[i]? := by
  obtain ⟨rest, hlist, -⟩ := h.list
  rw [hlist, List.getElem?_append_left hi]

/-- Both use the same number of bytes. -/
theorem used_eq (h : c.Retraces c') : c'.used = c.used := by
  obtain ⟨rest, hlist, hzero⟩ := h.list
  have hrest : total (rest.map Chunk.used) = 0 := by
    refine total_eq_zero fun n hn => ?_
    obtain ⟨k, hk, rfl⟩ := List.mem_map.1 hn
    exact hzero k hk
  rw [Chunks.used, Chunks.used, hlist, List.map_append, total_append, hrest, Nat.add_zero]

/-- The chunk with room is the same, unless the first list has to grow. -/
theorem firstRoom (h : c.Retraces c') (hfirst : c.FirstRoom size i) : c'.FirstRoom size i := by
  obtain ⟨hle, ⟨k, hk, hroom⟩, hbefore⟩ := hfirst
  have hi : i < c.count := (List.getElem?_eq_some_iff.1 hk).1
  refine ⟨h.current ▸ hle, ⟨k, (h.getElem? hi).trans hk, hroom⟩, fun j hj hji hat => ?_⟩
  obtain ⟨k', hk', hroom'⟩ := hat
  rw [h.getElem? (Nat.lt_trans hji hi)] at hk'
  exact hbefore j (h.current ▸ hj) hji ⟨k', hk', hroom'⟩

/-- What the first list adds, the second has already. -/
theorem added (h : c.Retraces c') (hlayout : c.layout ++ [length] <+: c'.layout) :
    (c.added length).Retraces { c' with current := c.count } := by
  obtain ⟨rest, hlist, hzero⟩ := h.list
  rw [layout, layout, hlist, List.map_append, List.prefix_append_right_inj] at hlayout
  cases rest with
  | nil => cases List.prefix_nil.1 hlayout
  | cons k rest =>
    obtain ⟨hlength, -⟩ := List.cons_prefix_cons.1 hlayout
    -- Same length, by the layouts; not used, by the relation.
    have hk : k = { length } := by
      obtain ⟨klength, kused⟩ := k
      cases hlength
      cases hzero _ List.mem_cons_self
      rfl
    subst hk
    have hempty : ∀ k ∈ rest, k.used = 0 := fun k hk => hzero k (List.mem_cons_of_mem _ hk)
    refine ⟨(c.count_added length).symm, rfl, rest, ?_, hempty⟩
    simp only [Chunks.added, hlist, List.append_assoc, List.singleton_append]

/-- A single chunk that is empty, and what any calls made of it, rewound. -/
theorem of_extends {first factor : Nat} {ceiling : Option Nat}
    (h : Extends ⟨[{ length := first }], 0, factor, ceiling⟩ d) :
    Retraces ⟨[{ length := first }], 0, factor, ceiling⟩ d.rewind := by
  -- The first chunk is still at the front, since chunks are only added behind.
  obtain ⟨more, hmore⟩ := h.layout
  cases hlist : d.list with
  | nil =>
    rw [layout, layout, hlist] at hmore
    cases hmore
  | cons k rest =>
    rw [layout, layout, hlist] at hmore
    obtain ⟨rfl, -⟩ := List.cons_eq_cons.1 hmore
    refine ⟨rfl, rfl, rest.map Chunk.rewind, ?_, fun k hk => ?_⟩
    · rw [Chunks.rewind, hlist]
      rfl
    · obtain ⟨_, -, rfl⟩ := List.mem_map.1 hk
      rfl

/-- Carving from the current chunk of the one is carving from that of the other. -/
theorem set (h : c.Retraces c') (k : Chunk) :
    Retraces { c with list := c.list.set c.current k, current := c.current }
      { c' with list := c'.list.set c.current k, current := c.current } := by
  obtain ⟨rest, hlist, hzero⟩ := h.list
  have hlt : c.current < c.list.length := by
    have hlast := h.last
    simp only [count] at hlast
    omega
  refine ⟨?_, rfl, rest, ?_, hzero⟩
  · simpa only [count, List.length_set] using h.last
  · rw [hlist, List.set_append_left _ _ hlt]

/-- **What the first list carves, the second carves at the same place**, and is as long as before.
-/
theorem carve (h : c.Retraces c') (hr : (c.carve s size).result = .ok b)
    (hfits : (c.carve s size).state.1.layout <+: c'.layout) (s' : Supply) :
    ∃ d, c'.carve s' size = ⟨.ok b, (d, s'), []⟩ ∧ (c.carve s size).state.1.Retraces d ∧
      d.layout = c'.layout := by
  rcases carve_cases c s size with ⟨e, he, -⟩ | ⟨b', d, s₁, hr', hst, hfrom⟩
  · rw [hr] at he
    cases he
  · rw [hr] at hr'
    cases hr'
    rw [hst] at hfits ⊢
    rcases hfrom with ⟨i, hfirst, hat, -⟩ | ⟨length, hno, hgrows, hat⟩
    · -- Only the last chunk is left to the first list, so that is where there is room.
      obtain ⟨k, hk, -, rfl, rfl⟩ := carveAt_eq_some_iff.1 hat
      have hlt : i < c.count := (List.getElem?_eq_some_iff.1 hk).1
      have hi : i = c.current := by
        have hlast := h.last
        have hle := hfirst.1
        omega
      have hk' : c'.list[i]? = some k := (h.getElem? hlt).trans hk
      refine ⟨_, carve_of_firstRoom (h.firstRoom hfirst) hk', ?_, map_length_set_take hk' size⟩
      subst hi
      exact h.set (k.take size)
    · -- The chunk that was added for the first list is the next one of the second.
      rw [layout_carveAt hat, layout_added] at hfits
      have hadded := h.added hfits
      obtain ⟨k, hk, hroom, rfl, rfl⟩ := carveAt_eq_some_iff.1 hat
      have hk' : c'.list[c.count]? = some k := by
        refine (hadded.getElem? ?_).trans hk
        rw [count_added]
        exact Nat.lt_succ_self _
      -- The chunks before have no room in either list, and this one has, since the first carved it.
      have hfirst : c'.FirstRoom size c.count := by
        refine ⟨?_, ⟨k, hk', hroom⟩, fun j hj hlt hat => ?_⟩
        · rw [h.current, ← h.last]
          exact Nat.le_succ _
        · obtain ⟨kj, hkj, hroomj⟩ := hat
          rw [h.getElem? hlt] at hkj
          exact hno j (h.current ▸ hj) ⟨kj, hkj, hroomj⟩
      exact ⟨_, carve_of_firstRoom hfirst hk', hadded.set (k.take size),
        map_length_set_take hk' size⟩

end Retraces

end Chunks

namespace Arena

variable {a a' : Arena} {t : Tiling} {g g' : Supply} {size : Nat} {b : Block}

/-- Both arenas hand out the block of `e`, and both go on with the tiling `t'`. -/
structure Retaken (a a' : Arena) (t : Tiling) (g g' : Supply) (size : Nat) (e : Extent)
    (t' : Tiling) : Prop where
  result : (a.takeBlock g size).result = .ok e.block
  result' : (a'.takeBlock g' size).result = .ok e.block
  le : size ≤ e.size
  taken : a.Taken t e (a.takeBlock g size).state.1 t'
  taken' : a'.Taken t e (a'.takeBlock g' size).state.1 t'
  chunks : (a.takeBlock g size).state.1.chunks.Retraces (a'.takeBlock g' size).state.1.chunks
  layout : (a'.takeBlock g' size).state.1.layout = a'.layout

/-- An entry that serves the first arena serves the second. -/
theorem Retaken.of_fit {n : Nat} {pre post : List Extent} {e : Extent} (h : a.Sound t)
    (h' : a'.Sound t) (hc : a.chunks.Retraces a'.chunks) (halign : alignUp size = some n)
    (hfree : t.free = pre ++ e :: post) (hpre : ∀ f ∈ pre, f.size < n) (hlarge : n ≤ e.size) :
    a.Retaken a' t g g' size e { t with live := e :: t.live, free := pre ++ post } := by
  have htake := h.takeBlock_of_fit halign hfree hpre hlarge g
  have htake' := h'.takeBlock_of_fit halign hfree hpre hlarge g'
  refine
    { result := by rw [htake], result' := by rw [htake'],
      le := Nat.le_trans (le_of_alignUp halign) hlarge,
      taken := ?taken, taken' := ?taken', chunks := ?chunks, layout := ?layout }
  case taken =>
    rw [htake]
    exact h.recycle hfree
  case taken' =>
    rw [htake']
    exact h'.recycle hfree
  case chunks =>
    rw [htake, htake']
    exact hc
  case layout =>
    rw [htake']
    show a'.chunks.layout = a'.layout
    rfl

/-- A block that the first arena carves the second carves too, if it has the chunk for it. -/
theorem Retaken.of_carve {n : Nat} {c : Chunks} {s : Supply} (h : a.Sound t) (h' : a'.Sound t)
    (hc : a.chunks.Retraces a'.chunks) (halign : alignUp size = some n)
    (hall : ∀ f ∈ t.free, f.size < n) (hcr : (a.chunks.carve g n).result = .ok b)
    (hcst : (a.chunks.carve g n).state = (c, s)) (hfits : c.layout <+: a'.layout) (g' : Supply) :
    a.Retaken a' t g g' size ⟨b, n⟩ { t with live := ⟨b, n⟩ :: t.live } := by
  obtain ⟨hres, hst, htaken⟩ := h.takeBlock_of_carve halign hall hcr hcst
  have hcfits : (a.chunks.carve g n).state.1.layout <+: a'.chunks.layout := by
    rw [hcst]
    exact hfits
  obtain ⟨d, hcarve, hretraces, hlayout⟩ := hc.carve hcr hcfits g'
  obtain ⟨hres', hst', htaken'⟩ := h'.takeBlock_of_carve halign hall
    (congrArg Outcome.result hcarve) (congrArg Outcome.state hcarve)
  refine
    { result := hres, result' := hres', le := le_of_alignUp halign,
      taken := ?taken, taken' := ?taken', chunks := ?chunks, layout := ?layout }
  case taken =>
    rw [hst]
    exact htaken
  case taken' =>
    rw [hst']
    exact htaken'
  case chunks =>
    rw [hcst] at hretraces
    rw [hst, hst']
    exact hretraces
  case layout =>
    rw [hst']
    exact hlayout

/-- **What the first arena hands out, the second hands out too.** -/
theorem takeBlock_retraces (h : a.Sound t) (h' : a'.Sound t) (hc : a.chunks.Retraces a'.chunks)
    (hr : (a.takeBlock g size).result = .ok b)
    (hfits : (a.takeBlock g size).state.1.layout <+: a'.layout) (g' : Supply) :
    ∃ e t', b = e.block ∧ a.Retaken a' t g g' size e t' := by
  cases halign : alignUp size with
  | none =>
    simp only [takeBlock, halign] at hr
    cases hr
  | some n =>
    cases hfit : a.heap.firstFit? a.layout n with
    | some found =>
      obtain ⟨pre, e, post, hfree, hpre, hlarge, -⟩ := h.lists.firstFit?_eq_some hfit
      rw [h.takeBlock_of_fit halign hfree hpre hlarge g] at hr
      cases hr
      exact ⟨e, _, rfl, .of_fit h h' hc halign hfree hpre hlarge⟩
    | none =>
      -- The free list is one for both, so the second is left to its chunks as well.
      have hall := h.lists.firstFit?_eq_none hfit
      have hbase := h.result_takeBlock_of_no_fit halign hall g
      rcases Chunks.carve_cases a.chunks g n with ⟨err, herr, -⟩ | ⟨b', c, s₁, hcr, hcst, -⟩
      · rw [hbase, herr] at hr
        cases hr
      · obtain ⟨hres, hst, -⟩ := h.takeBlock_of_carve halign hall hcr hcst
        rw [hres] at hr
        cases hr
        rw [hst] at hfits
        exact ⟨⟨b, n⟩, _, rfl, .of_carve h h' hc halign hall hcr hcst hfits g'⟩

/-- Where nothing is carved, the first block is at the front of the first chunk with room. -/
theorem takeBlock_iff_firstRoom {i n : Nat} (h : a.Sound {}) (hempty : ∀ j, a.chunks.usedAt j = 0)
    (halign : alignUp n = some n) (hi : i < a.chunks.count) (g : Supply) :
    (a.takeBlock g n).result = .ok ⟨i, 0⟩ ↔ a.chunks.FirstRoom n i := by
  rw [h.result_takeBlock_of_no_fit halign (by simp)]
  constructor
  · intro hr
    rcases Chunks.carve_cases a.chunks g n with ⟨err, herr, -⟩ | ⟨b, c, s, hok, -, hfrom⟩
    · rw [herr] at hr
      cases hr
    · rw [hok] at hr
      cases hr
      rcases hfrom with ⟨j, hfirst, hat, -⟩ | ⟨length, -, -, hat⟩
      · obtain ⟨k, -, -, hb, -⟩ := Chunks.carveAt_eq_some_iff.1 hat
        have hij : i = j := congrArg Block.chunk hb
        rw [hij]
        exact hfirst
      · obtain ⟨k, -, -, hb, -⟩ := Chunks.carveAt_eq_some_iff.1 hat
        have hcount : i = a.chunks.count := congrArg Block.chunk hb
        exact absurd hi (hcount ▸ Nat.lt_irrefl _)
  · intro hfirst
    obtain ⟨k, hk, -⟩ := hfirst.2.1
    have hused : k.used = 0 := (Chunks.usedAt_of_getElem? hk).symm.trans (hempty i)
    rw [Chunks.carve_of_firstRoom hfirst hk, hused]

end Arena

end ArenaAlloc

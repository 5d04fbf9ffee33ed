import ArenaAlloc.Proofs.Checked
import ArenaAlloc.Proofs.Effect

/-!
# What calls take for granted holds

Every check that a call meets on its way passes, in every session and for every call that is
tolerated (`checks_pass`). A program that stopped at the first check that does not would therefore
run through and come to the same (`guarded_performChecked`): whether sums are tested and assertions
compiled in makes no difference to a caller who keeps to the contract.

The proof is put together from one lemma for each operation, in the order of the definitions, each
with what that operation has to be given. Chunks need nothing but their own soundness and a size
that is a multiple of the alignment. Merging is about two blocks that follow one another on the
list; what it needs to know of them is that both are aligned and end within a word
(`Extent.Regular`), and merging keeps that, so that it holds of the second merge as well, where one
of the two blocks is the result of the first. An arena needs its tiling, which says that the block
at hand is apart from all others. -/

namespace ArenaAlloc

theorem total_map_le {α : Type} {f g : α → Nat} {xs : List α} (h : ∀ x ∈ xs, f x ≤ g x) :
    total (xs.map f) ≤ total (xs.map g) := by
  induction xs with
  | nil => exact Nat.le_refl 0
  | cons x xs ih =>
    obtain ⟨hx, hxs⟩ := List.forall_mem_cons.1 h
    exact Nat.add_le_add hx (ih hxs)

/-! ## Chunks -/

theorem Growth.passes_chunkLengthChecked (capacity n factor : Nat) :
    (chunkLengthChecked capacity n factor).Passes := by
  unfold chunkLengthChecked
  split
  · exact Checked.passes_bind.2
      ⟨Checked.passes_difference.2 (capacity_le_target _ _ _), Checked.passes_pure _⟩
  · exact Checked.passes_pure _

namespace Chunks

variable {c : Chunks} {n size : Nat}

theorem Sound.used_le_capacity (hs : c.Sound) : c.used ≤ c.capacity := total_map_le hs.used_le

theorem Sound.nextLengthChecked (hs : c.Sound) (n : Nat) : (c.nextLengthChecked n).Passes := by
  refine Checked.passes_bind.2 ⟨Checked.passes_sum.2 hs.capacity_lt, Checked.passes_bind.2
    ⟨Growth.passes_chunkLengthChecked _ _ _, ?_⟩⟩
  split <;> exact Checked.passes_pure _

theorem Sound.growChecked (hs : c.Sound) (hn : maxAlign ∣ n) (s : Supply) :
    (c.growChecked s n).Passes := by
  refine Checked.passes_bind.2 ⟨hs.nextLengthChecked n, ?_⟩
  rw [value_nextLengthChecked]
  split
  · exact Checked.passes_pure _
  · rename_i length hnext
    obtain ⟨hdvd, hcapacity⟩ := dvd_of_nextLength hs hn hnext
    split
    · exact Checked.passes_pure _
    · split
      · exact Checked.passes_pure _
      · rename_i hcount
        refine Checked.passes_bind.2 ⟨Checked.passes_assert.2 hdvd, ?_⟩
        split
        · exact Checked.passes_pure _
        · have hgrown := sound_added hs (Nat.not_le.1 hcount) hdvd hcapacity
          exact Checked.passes_bind.2
            ⟨Checked.passes_sum.2 hgrown.capacity_lt, Checked.passes_pure _⟩

theorem Sound.carveChecked (hs : c.Sound) (hsize : maxAlign ∣ size) (s : Supply) :
    (c.carveChecked s size).Passes := by
  refine Checked.passes_bind.2 ⟨Checked.passes_assert.2 hsize, ?_⟩
  split
  · exact Checked.passes_pure _
  · split
    · exact Checked.passes_pure _
    · rename_i total hadd
      obtain ⟨rfl, -⟩ := checkedAdd_eq_some.1 hadd
      refine Checked.passes_andThen.2 ⟨hs.growChecked (Nat.dvd_add hsize ⟨2, rfl⟩) s, ?_⟩
      split
      · exact Checked.passes_pure _
      · refine Checked.passes_bind.2 ⟨Checked.passes_assert.2 hsize, ?_⟩
        split <;> exact Checked.passes_pure _

end Chunks

/-! ## The free list -/

namespace Extent

variable {e f : Extent}

/-- Aligned, with an end that fits a word. -/
def Regular (e : Extent) : Prop := e.Aligned ∧ e.stop < wordLimit

theorem Regular.size_lt (h : e.Regular) : e.size < wordLimit :=
  Nat.lt_of_le_of_lt (Nat.le_add_left _ _) h.2

theorem Regular.merge (he : e.Regular) (hf : f.Regular) (hadj : e.adjoins f = true) :
    (e.merge f).Regular :=
  ⟨he.1.merge hf.1, stop_merge hadj ▸ hf.2⟩

end Extent

namespace Heap

variable {h : Heap} {l : Layout} {b : Block} {e f : Extent} {es pre post : List Extent}

namespace Lists

theorem adjoinsChecked (hl : h.Lists l es) (he : e ∈ es) (hstop : e.stop < wordLimit) :
    (h.memory.adjoinsChecked e.block f.block).Passes := by
  unfold Memory.adjoinsChecked
  split
  · refine Checked.passes_bind.2 ⟨Checked.passes_sum.2 ?_, Checked.passes_pure _⟩
    rw [hl.segment.blockSize_of_mem he]
    simp only [Extent.stop] at hstop
    simp only [total_cons, total_nil]
    omega
  · exact Checked.passes_pure _

theorem mergeChecked (hl : h.Lists l es) (he : e ∈ es) (hf : f ∈ es) (hre : e.Regular)
    (hrf : f.Regular) : (h.mergeChecked e.block f.block).Passes := by
  refine Checked.passes_bind.2 ⟨hl.adjoinsChecked he hre.2, ?_⟩
  rw [Memory.value_adjoinsChecked, hl.memory_adjoins he hf]
  split
  · rename_i hadj
    have hsize : total [h.memory.blockSize e.block, headerSize, h.memory.blockSize f.block] =
        (e.merge f).size := by
      rw [hl.segment.blockSize_of_mem he, hl.segment.blockSize_of_mem hf]
      simp only [total_cons, total_nil, Extent.merge, Nat.add_zero, Nat.add_assoc]
    have hmerged := hre.merge hrf hadj
    refine Checked.passes_bind.2 ⟨Checked.passes_sum.2 ?_, Checked.passes_bind.2
      ⟨Checked.passes_assert.2 ?_, Checked.passes_pure _⟩⟩
    · rw [hsize]
      exact hmerged.size_lt
    · show maxAlign ∣ total _
      rw [hsize]
      exact hmerged.1.2
  · exact Checked.passes_pure _

theorem mergeBehindChecked (hl : h.Lists l (pre ++ e :: post))
    (hregular : ∀ f ∈ e :: post, f.Regular) :
    (h.mergeBehindChecked e.block (post.head?.map Extent.block)).Passes := by
  obtain ⟨he, hpost⟩ := List.forall_mem_cons.1 hregular
  cases post with
  | nil => exact Checked.passes_pure _
  | cons f post =>
    exact hl.mergeChecked (e := e) (f := f) (by simp) (by simp) he (hpost f List.mem_cons_self)

theorem mergeBeforeChecked (hl : h.Lists l (pre ++ e :: post))
    (hregular : ∀ f ∈ pre ++ e :: post, f.Regular) :
    (h.mergeBeforeChecked e.block (pre.getLast?.map Extent.block)).Passes := by
  rcases List.eq_nil_or_concat' pre with rfl | ⟨init, p, rfl⟩
  · exact Checked.passes_pure _
  · rw [List.getLast?_concat]
    exact hl.mergeChecked (e := p) (f := e) (by simp) (by simp) (hregular p (by simp))
      (hregular e (by simp))

theorem insertChecked {size link : Nat} (hl : h.Lists l es) (htotal : total l < wordLimit)
    (hb : h.memory.header b = ⟨size, link, b.chunk, false⟩) (hholds : l.Holds b)
    (hbeside : Extent.Beside ⟨b, size⟩ es)
    (hes : ∀ f ∈ (⟨b, size⟩ : Extent) :: es, f.Regular) : (h.insertChecked l b).Passes := by
  obtain ⟨pre, post, rfl, -, hseek, hplaced, -⟩ := hl.linked htotal hb hholds hbeside
  obtain ⟨he, hes⟩ := List.forall_mem_cons.1 hes
  obtain ⟨hpre, hpost⟩ := List.forall_mem_append.1 hes
  have hunmarked : h.memory.isFreed b = false := by
    rw [← Memory.freed_header, hb]
  simp only [Heap.insertChecked, hseek]
  generalize Heap.linkBetween _ l _ b _ = placed at hplaced ⊢
  refine Checked.passes_bind.2 ⟨Checked.passes_assert.2 hunmarked, Checked.passes_bind.2
    ⟨hplaced.mergeBehindChecked (List.forall_mem_cons.2 ⟨he, hpost⟩), ?_⟩⟩
  -- The block before is merged with what the first merge has made of `b`.
  rw [value_mergeBehindChecked]
  obtain ⟨hbehind, -⟩ := hplaced.mergeBehind fun f hf => (hpost f hf).2
  have hjoined : ∀ g ∈ Extent.join ⟨b, size⟩ post, g.Regular :=
    Extent.forall_join (fun e f he hf hadj => he.merge hf hadj) he hpost
  obtain ⟨grown, rest, hjoin, hgrown, -⟩ := Extent.exists_join_eq ⟨b, size⟩ post
  rw [hjoin] at hbehind hjoined
  have hpasses := hbehind.mergeBeforeChecked (List.forall_mem_append.2 ⟨hpre, hjoined⟩)
  rw [hgrown] at hpasses
  exact hpasses

end Lists

end Heap

/-! ## The arena -/

namespace Arena

variable {a : Arena} {t : Tiling} {s : Supply} {e old : Extent} {n : Nat}

namespace Sound

theorem takeBlockChecked (h : a.Sound t) (s : Supply) (size : Nat) :
    (a.takeBlockChecked s size).Passes := by
  unfold Arena.takeBlockChecked
  split
  · exact Checked.passes_pure _
  · rename_i n halign
    split
    · exact Checked.passes_pure _
    · refine Checked.passes_andThen.2 ⟨h.chunks.carveChecked (dvd_of_alignUp halign) s, ?_⟩
      split <;> exact Checked.passes_pure _

theorem allocateChecked (h : a.Sound t) (s : Supply) (size : Nat) :
    (a.allocateChecked s size).Passes :=
  Checked.passes_bind.2 ⟨h.takeBlockChecked s size, Checked.passes_pure _⟩

theorem zeroAllocateChecked (h : a.Sound t) (s : Supply) (count size : Nat) :
    (a.zeroAllocateChecked s count size).Passes := by
  unfold Arena.zeroAllocateChecked
  split
  · exact Checked.passes_pure _
  · refine Checked.passes_andThen.2 ⟨h.takeBlockChecked s _, ?_⟩
    split <;> exact Checked.passes_pure _

theorem giveBlockChecked (h : a.Sound t) (he : e ∈ t.live) :
    (a.giveBlockChecked e.block).Passes := by
  have hbeside : e.Beside t.free := fun f hf => h.apart_of_live_of_free he hf
  have hmem : ∀ f ∈ e :: t.free, f ∈ t.extents := List.forall_mem_cons.2
    ⟨Tiling.mem_of_live he, fun f hf => Tiling.mem_of_free hf⟩
  have hinsert : (a.heap.insertChecked a.layout e.block).Passes :=
    h.lists.insertChecked h.total_lt (h.header e he) (h.holds (Tiling.mem_of_live he)) hbeside
      fun f hf => ⟨h.aligned f (hmem f hf), h.stop_lt (hmem f hf)⟩
  unfold Arena.giveBlockChecked
  split
  · exact Checked.passes_pure _
  · exact Checked.passes_bind.2 ⟨hinsert, Checked.passes_pure _⟩

theorem moveChecked (h : a.Sound t) (hold : old ∈ t.live) (hgrows : old.size < n) (s : Supply) :
    (a.moveChecked s old.block n).Passes := by
  refine Checked.passes_andThen.2 ⟨h.takeBlockChecked s n, ?_⟩
  rw [value_takeBlockChecked]
  rcases h.takeBlock_cases s n with ⟨err, hr, -⟩ | ⟨e, t', hr, hle, ht⟩
  · rw [hr]
    exact Checked.passes_pure _
  · have hsize := ht.blockSize_eq (Tiling.mem_of_live hold)
    have hfits : old.size ≤ e.size := Nat.le_of_lt (Nat.lt_of_lt_of_le hgrows hle)
    obtain ⟨hcopied, hlive⟩ := Session.sound_copyPayload ht hold hfits
    rw [hr]
    refine Checked.passes_bind.2 ⟨Checked.passes_assert.2 ⟨Nat.le_refl _, ?_, ?_⟩,
      Checked.passes_bind.2 ⟨?_, Checked.passes_pure _⟩⟩
    · rw [hsize, ht.sound.blockSize_eq (Tiling.mem_of_live ht.mem_live)]
      exact hfits
    · exact (ht.apart hold).symm.block_ne
    · exact hcopied.giveBlockChecked hlive

theorem reallocateChecked (h : a.Sound t) (hold : old ∈ t.live)
    (howned : a.owns old.block.payload = true) (s : Supply) (size : Nat) :
    (a.reallocateChecked s (some old.block.payload) size).Passes := by
  refine Checked.passes_bind.2 ⟨Checked.passes_assert.2 howned, ?_⟩
  split
  · exact Checked.passes_pure _
  · rename_i n halign
    simp only [Block.ofPayload_payload]
    refine Checked.passes_bind.2 ⟨Checked.passes_assert.2 (h.isFreed_of_live hold), ?_⟩
    rw [h.blockSize_eq (Tiling.mem_of_live hold)]
    split
    · exact Checked.passes_bind.2
        ⟨Checked.passes_assert.2 (dvd_of_alignUp halign), Checked.passes_pure _⟩
    · rename_i hfits
      exact h.moveChecked hold (Nat.not_le.1 hfits) s

theorem resetChecked (h : a.Sound t) : a.resetChecked.Passes :=
  have hused := Nat.lt_of_le_of_lt h.chunks.used_le_capacity h.chunks.capacity_lt
  Checked.passes_bind.2 ⟨Checked.passes_sum.2 hused, Checked.passes_bind.2
    ⟨Checked.passes_sum.2 h.total_lt, Checked.passes_pure _⟩⟩

end Sound

end Arena

/-! ## Calls -/

namespace Session

variable {s : Session} {t : Tiling} {c : Call} {b : Block}

/-- **A pointer stays the arena's own** until the next reset, whatever became of its block. -/
theorem Invariant.owns (h : s.Invariant t) (hb : b ∈ s.ledger.issued) :
    s.arena.owns b.payload = true := by
  have hcarved := h.carved b hb
  obtain ⟨k, hk, hused⟩ := Chunks.Sound.exists_of_usedAt_pos (c := s.arena.chunks) (i := b.chunk)
    (Nat.lt_of_lt_of_le (Nat.add_pos_right _ (by decide)) hcarved)
  rw [hused] at hcarved
  simp only [Arena.owns, Chunks.holdsPayload, Block.payload, hk, Chunk.holdsPayload,
    Bool.and_eq_true]
  exact ⟨decide_eq_true (Nat.le_add_left _ _), decide_eq_true hcarved⟩

/-- Freeing passes its checks whether the block is in use or was freed before. -/
theorem Invariant.freeChecked (h : s.Invariant t) (hc : s.Tolerates (.free (some b))) :
    (s.arena.freeChecked (some b.payload)).Passes := by
  have howned : s.arena.owns b.payload = true := by
    rcases hc b rfl with hlive | ⟨hissued, -⟩
    · obtain ⟨e, he, rfl⟩ := h.exists_live hlive
      exact h.owns (h.issued e (Tiling.mem_of_live he))
    · exact h.owns hissued
  refine Checked.passes_bind.2 ⟨Checked.passes_assert.2 howned, ?_⟩
  rw [Block.ofPayload_payload]
  by_cases hlive : b ∈ s.ledger.live
  · obtain ⟨e, he, rfl⟩ := h.exists_live hlive
    exact h.sound.giveBlockChecked he
  · -- The mark stands, so nothing is inserted.
    rw [Arena.giveBlockChecked, if_pos (h.isFreed_of_tolerates hc hlive)]
    exact Checked.passes_pure _

/-- **All checks pass**, whatever call is made, as long as it is tolerated. -/
theorem passes_performChecked (h : s.Invariant t) (hc : s.Tolerates c) :
    (c.performChecked s.arena).Passes := by
  cases c with
  | allocate g size =>
    exact Checked.passes_bind.2 ⟨h.sound.allocateChecked g size, Checked.passes_pure _⟩
  | zeroAllocate g count size =>
    exact Checked.passes_bind.2 ⟨h.sound.zeroAllocateChecked g count size, Checked.passes_pure _⟩
  | reallocate g p size =>
    refine Checked.passes_bind.2 ⟨?_, Checked.passes_pure _⟩
    cases p with
    | none => exact h.sound.allocateChecked g size
    | some b =>
      obtain ⟨e, he, rfl⟩ := h.exists_live (hc b rfl)
      exact h.sound.reallocateChecked he (h.owns (h.issued e (Tiling.mem_of_live he))) g size
  | free p =>
    refine Checked.passes_bind.2 ⟨?_, Checked.passes_pure _⟩
    cases p with
    | none => exact Checked.passes_pure _
    | some b => exact h.freeChecked hc
  | reset => exact Checked.passes_bind.2 ⟨h.sound.resetChecked, Checked.passes_pure _⟩
  | write b offset n f => exact Checked.passes_pure _

theorem checks_pass (h : s.Invariant t) (hc : s.Tolerates c) :
    ∀ k ∈ c.checks s.arena, k.Passes := passes_performChecked h hc

/-- **With its checks a call comes to what it comes to without**, in every session that tolerated
calls lead to. -/
theorem guarded_performChecked (h : Reachable Tolerates s) (hc : s.Tolerates c) :
    (c.performChecked s.arena).guarded = some (c.perform s.arena) := by
  obtain ⟨t, ht⟩ := h.valid_of_tolerates
  rw [Checked.guarded_of_passes (passes_performChecked ht hc), c.value_performChecked]

/-- A block that was freed before fails a check of `reallocate`. -/
example : let s := (ofLength 96).run [.allocate .unlimited 8, .free (some ⟨0, 0⟩)]
    ¬ ∀ k ∈ (Call.reallocate .unlimited (some ⟨0, 0⟩) 8).checks s.arena, k.Passes := by
  decide +kernel

end Session

end ArenaAlloc

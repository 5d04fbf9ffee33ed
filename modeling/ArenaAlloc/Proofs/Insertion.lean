import ArenaAlloc.Proofs.FreeList

/-!
# Insertion into the free list

A freed block is marked, linked in between the entries before it and the entries behind it, and
merged with its neighbours on both sides. `Lists.insert` says that this is `Extent.place`, and the
file goes through the stages of `Heap.insert` in their order:

1. the walk parts the list at the place of the block (`Lists.linked`, with `seek_comesBefore`);
2. the block is linked in there (`Lists.linkBetween`);
3. it absorbs the entry behind it where the two touch (`Lists.mergeBehind`);
4. the entry before it absorbs the result where those touch (`Lists.mergeBefore`); 5. the two merges
   together coalesce the list (`Lists.coalesce`).

## What a stage lemma says

Each lemma has two halves. The first is `Lists`: the list after the stage, as plain extents. The
second is `AgreesBut`: the headers the stage stored into. The second half is needed by everybody who
is not the free list. The blocks in use must keep their headers, and a header that is no entry any
more, because a merge has absorbed it, must keep its mark: a second free of that block finds it by
this mark and does nothing.

The stages are followed on headers and never on bytes. `AgreesBut` turns a store into "every header
apart from this one is as it was", and the order of the list says which headers are apart.
-/

namespace ArenaAlloc

namespace Heap

variable {h : Heap} {l : Layout} {b : Block} {e f : Extent} {es pre post : List Extent}

/-! ## The stages of an insertion -/

/-- An insertion as the composition of its stages, once it is known where the walk stops. -/
theorem insert_eq {before after : Option Block}
    (hseek : (h.memory.setFreed b true).seek l ((h.memory.setFreed b true).comesBefore b) (total l)
      none h.head = (before, after)) :
    h.insert l b =
      ((({ h with memory := h.memory.setFreed b true } : Heap).linkBetween l before b
        after).mergeBehind .byPlace b after).mergeBefore .byPlace b before := by
  simp only [insert, insertBy, Comparison.comesBefore_byPlace, hseek]

/-! ## What each stage does to the list

`post.head?` and `pre.getLast?` are the neighbours that the walk found, as optional blocks. Either
may be missing, and the stage then does nothing on that side. -/

namespace Lists

/-- The test on two headers is the test on the two extents, since the headers say what the extents
say. -/
theorem memory_adjoins (hl : h.Lists l es) (he : e ∈ es) (hf : f ∈ es) :
    h.memory.adjoins e.block f.block = e.adjoins f := by
  simp only [Memory.adjoins, hl.segment.tag_of_mem he, hl.segment.tag_of_mem hf, Memory.blockEnd,
    hl.segment.blockSize_of_mem he, Extent.adjoins, Extent.stop, Bool.and_self]

/-- Absorbing an entry merges two neighbours. The header of the absorbed one is not touched: it
keeps its size, its link and its mark inside the payload of the other. -/
theorem absorb (hl : h.Lists l (pre ++ e :: f :: post)) (hadj : e.adjoins f = true)
    (hstop : f.stop < wordLimit) :
    let h' := h.absorb e.block f.block
    h'.Lists l (pre ++ e.merge f :: post) ∧ h.memory.AgreesBut h'.memory [e.block] := by
  have he : e ∈ pre ++ e :: f :: post := by simp
  have hf : f ∈ pre ++ e :: f :: post := by simp
  obtain ⟨mid, hpre, hsuf⟩ := hl.segment.split
  have hfe : f.block.HeaderApart e.block := hl.apart_of_mem_post List.mem_cons_self
  have hsize : h.memory.blockSize e.block + headerSize + h.memory.blockSize f.block =
      (e.merge f).size := by
    rw [hl.segment.blockSize_of_mem he, hl.segment.blockSize_of_mem hf]
    rfl
  -- The merged size is stored in one word, which holds because the end of `f` fits into one.
  have hlt : (e.merge f).size < wordLimit := by
    have hs := (Extent.adjoins_iff.1 hadj).2
    simp only [Extent.stop, Extent.merge] at *
    omega
  cases hsuf with
  | cons head rest =>
    cases rest with
    | @cons _ _ next _ headf rest =>
      have hgrown : h.memory.AgreesBut (h.memory.setBlockSize e.block (e.merge f).size)
          [e.block] := .setBlockSize _ List.mem_cons_self
      -- The link of `f` is read after the size of `e` was stored, which leaves it alone.
      have hlink : (h.memory.setBlockSize e.block (e.merge f).size).link f.block =
          l.reference next := by
        rw [← Memory.link_header, hgrown.header_eq (List.forall_mem_singleton.2 hfe), headf]
      have hn : l.reference next < wordLimit := hlink ▸ Memory.link_lt _ _
      have hdone : h.memory.AgreesBut
          ((h.memory.setBlockSize e.block (e.merge f).size).setLink e.block (l.reference next))
          [e.block] := hgrown.trans (.setLink _ List.mem_cons_self)
      have hhead : ((h.memory.setBlockSize e.block (e.merge f).size).setLink e.block
          (l.reference next)).header e.block =
            ⟨(e.merge f).size, l.reference next, e.block.chunk, true⟩ := by
        rw [Memory.header_setLink hn, Memory.header_setBlockSize hlt, head]
      simp only [Heap.absorb, hsize, hlink]
      refine ⟨⟨?_, ?_, ?_⟩, hdone⟩
      · have hpre' := hpre.of_agreesBut hdone fun g hg =>
          List.forall_mem_singleton.2 (hl.apart_of_mem_pre hg)
        have hpost' := rest.of_agreesBut hdone fun g hg =>
          List.forall_mem_singleton.2 (hl.apart_of_mem_post (List.mem_cons_of_mem _ hg))
        exact hpre'.append (.cons (e := e.merge f) hhead hpost')
      · intro g hg
        rcases List.mem_append.1 hg with hg | hg
        · exact hl.holds g (List.mem_append_left _ hg)
        rcases List.mem_cons.1 hg with rfl | hg
        · exact hl.holds e he
        · exact hl.holds g (by simp [hg])
      · obtain ⟨h1, h2, h3⟩ := List.pairwise_append.1 hl.ordered
        have hj := Extent.pairwise_before_join h2
        rw [Extent.join, if_pos hadj] at hj
        refine List.pairwise_append.2 ⟨h1, hj, fun g hg k hk => ?_⟩
        rcases List.mem_cons.1 hk with rfl | hk
        · exact h3 g hg e List.mem_cons_self
        · exact h3 g hg k (List.mem_cons_of_mem _ (List.mem_cons_of_mem _ hk))

/-- One merge, taken or not, is one `join`. -/
theorem mergeIfAdjoining (hl : h.Lists l (pre ++ e :: f :: post)) (hstop : f.stop < wordLimit) :
    let h' := h.mergeIfAdjoining .byPlace e.block f.block
    h'.Lists l (pre ++ e.join (f :: post)) ∧ h.memory.AgreesBut h'.memory [e.block] := by
  have hm := hl.memory_adjoins (e := e) (f := f) (by simp) (by simp)
  rw [Heap.mergeIfAdjoining, Comparison.adjoins_byPlace, hm, Extent.join]
  by_cases hadj : e.adjoins f = true
  · rw [if_pos hadj, if_pos hadj]
    exact hl.absorb hadj hstop
  · rw [if_neg hadj, if_neg hadj]
    exact ⟨hl, Memory.AgreesBut.refl _ _⟩

/-- The block absorbs the entry behind it. -/
theorem mergeBehind (hl : h.Lists l (pre ++ e :: post)) (hstop : ∀ f ∈ post, f.stop < wordLimit) :
    let h' := h.mergeBehind .byPlace e.block (post.head?.map Extent.block)
    h'.Lists l (pre ++ e.join post) ∧ h.memory.AgreesBut h'.memory [e.block] := by
  cases post with
  | nil => exact ⟨hl, Memory.AgreesBut.refl _ _⟩
  | cons f post => exact hl.mergeIfAdjoining (hstop f List.mem_cons_self)

/-- The entry before the block absorbs it. The entries further before do not touch that one, so the
whole fold over them is this single step. -/
theorem mergeBefore (hl : h.Lists l (pre ++ e :: post)) (hclear : pre.Pairwise Extent.Clear)
    (hstop : e.stop < wordLimit) :
    let h' := h.mergeBefore .byPlace e.block (pre.getLast?.map Extent.block)
    h'.Lists l (pre.foldr Extent.join (e :: post)) ∧
      ∃ bs, (∀ b ∈ bs, b ∈ pre.map Extent.block ∧ h'.memory.isFreed b = true) ∧
        h.memory.AgreesBut h'.memory bs := by
  rcases List.eq_nil_or_concat' pre with rfl | ⟨init, p, rfl⟩
  · exact ⟨hl, [], by simp, Memory.AgreesBut.refl _ _⟩
  · -- The last entry before the block is split off; it is the one that may absorb.
    rw [List.append_assoc] at hl
    obtain ⟨hlists, hagree⟩ := hl.mergeIfAdjoining hstop
    have hhead : (p.join (e :: post)).head?.map Extent.block = some p.block :=
      Extent.head?_join p _
    rw [List.getLast?_concat, Option.map_some, Heap.mergeBefore, List.foldr_append,
      List.foldr_cons, List.foldr_nil, Extent.foldr_join_of_clear hclear hhead]
    generalize h.mergeIfAdjoining .byPlace p.block e.block = merged at hlists hagree ⊢
    refine ⟨hlists, [p.block], List.forall_mem_singleton.2 ?_, hagree⟩
    -- The entry that was stored into is on the list afterwards, so it is marked.
    obtain ⟨g, hg, hgp⟩ := Option.map_eq_some_iff.1 hhead
    refine ⟨by simp, ?_⟩
    rw [← hgp]
    exact hlists.segment.isFreed_of_mem (List.mem_append_right _ (List.mem_of_head? hg))

/-- Linking in puts an entry between two parts of the list, without merging. The only headers stored
into are the block's own and that of the last entry before it. -/
theorem linkBetween {size link : Nat} (hl : h.Lists l (pre ++ post)) (htotal : total l < wordLimit)
    (hb : h.memory.header b = ⟨size, link, b.chunk, true⟩) (hholds : l.Holds b)
    (ho : (pre ++ ⟨b, size⟩ :: post).Pairwise Extent.Before) :
    let h' := h.linkBetween l (pre.getLast?.map Extent.block) b (post.head?.map Extent.block)
    h'.Lists l (pre ++ ⟨b, size⟩ :: post) ∧
      h.memory.AgreesBut h'.memory (b :: pre.map Extent.block) := by
  obtain ⟨mid, hpre, hsuf⟩ := hl.segment.split
  obtain ⟨hopre, hosuf, hcross⟩ := List.pairwise_append.1 ho
  have hapre : ∀ f ∈ pre, f.block.HeaderApart b := fun f hf =>
    (hcross f hf _ List.mem_cons_self).headerApart
  have hapost : ∀ f ∈ post, f.block.HeaderApart b := fun f hf =>
    ((List.pairwise_cons.1 hosuf).1 f hf).headerApart.symm
  have hnb : l.reference (some b) < wordLimit :=
    Layout.reference_lt htotal fun c hc => Option.some.inj hc ▸ hholds
  have hnp := Layout.reference_head?_lt htotal fun f hf => hl.holds f (List.mem_append_right pre hf)
  -- First the links of `pre` are bent to the block, or the head of the list is.
  obtain ⟨hpre', hagree⟩ := segment_relink hpre hopre hnb
  simp only [Heap.linkBetween]
  generalize h.relink l (pre.getLast?.map Extent.block) (some b) = linked at hpre' hagree ⊢
  have hset : linked.memory.AgreesBut
      (linked.memory.setLink b (l.reference (post.head?.map Extent.block))) [b] :=
    .setLink _ List.mem_cons_self
  have hhead : linked.memory.header b = ⟨size, link, b.chunk, true⟩ := by
    rw [← hb]
    refine hagree.header_eq fun c hc => ?_
    obtain ⟨f, hf, rfl⟩ := List.mem_map.1 hc
    exact (hapre f hf).symm
  have hpost : linked.memory.Segment l (post.head?.map Extent.block) post none :=
    hsuf.of_before hagree fun g hg f hf => hcross g hg f (List.mem_cons_of_mem _ hf)
  refine ⟨⟨?_, ?_, ho⟩, ?_⟩
  · have hpre'' := hpre'.of_agreesBut hset fun f hf => List.forall_mem_singleton.2 (hapre f hf)
    have hpost' := hpost.of_agreesBut hset fun f hf => List.forall_mem_singleton.2 (hapost f hf)
    refine hpre''.append (.cons (e := ⟨b, size⟩) ?_ hpost')
    rw [Memory.header_setLink hnp, hhead]
  · intro f hf
    rcases List.mem_append.1 hf with hf | hf
    · exact hl.holds f (List.mem_append_left _ hf)
    rcases List.mem_cons.1 hf with rfl | hf
    · exact hholds
    · exact hl.holds f (List.mem_append_right _ hf)
  · exact (hagree.mono fun c hc => List.mem_cons_of_mem _ hc).trans
      (hset.mono (List.forall_mem_singleton.2 List.mem_cons_self))

/-- **The two merges coalesce the list.** They change no header but that of `e` and those before it,
and no mark, also where an entry is absorbed. -/
theorem coalesce (hl : h.Lists l (pre ++ e :: post)) (hpre : pre.Pairwise Extent.Clear)
    (hpost : post.Pairwise Extent.Clear) (hstop : ∀ f ∈ e :: post, f.stop < wordLimit) :
    let h' := (h.mergeBehind .byPlace e.block (post.head?.map Extent.block)).mergeBefore .byPlace
      e.block (pre.getLast?.map Extent.block)
    h'.Lists l (Extent.coalesce (pre ++ e :: post)) ∧
      h.memory.AgreesBut h'.memory (e.block :: pre.map Extent.block) ∧
      ∀ c ∈ (pre ++ e :: post).map Extent.block, h'.memory.isFreed c = true := by
  obtain ⟨hbehind, hgrown⟩ := hl.mergeBehind fun f hf => hstop f (List.mem_cons_of_mem _ hf)
  generalize h.mergeBehind .byPlace e.block (post.head?.map Extent.block) = merged
    at hbehind hgrown ⊢
  -- The second merge sees an entry at the same block, grown or not, and its end is still a word.
  obtain ⟨grown, rest, hjoin, hblock, hgs⟩ := Extent.exists_join_eq e post
  have hgrownStop : grown.stop < wordLimit := by
    rcases hgs with hgs | ⟨f, hf, hgs⟩
    · rw [hgs]
      exact hstop e List.mem_cons_self
    · rw [hgs]
      exact hstop f (List.mem_cons_of_mem _ hf)
  -- Behind the block nothing touches, so the fold over `post` is the identity and one `join`
  -- remains.
  have hcoalesce : Extent.coalesce (pre ++ e :: post) = pre.foldr Extent.join (grown :: rest) := by
    have hkept : post.foldr Extent.join [] = post := Extent.coalesce_of_clear hpost
    rw [Extent.coalesce, List.foldr_append, List.foldr_cons, hkept, hjoin]
  rw [hjoin] at hbehind
  obtain ⟨hbefore, bs, hbs, hdone⟩ := hbehind.mergeBefore hpre hgrownStop
  rw [hblock] at hbefore hbs hdone
  rw [hcoalesce]
  dsimp only
  generalize merged.mergeBefore .byPlace e.block (pre.getLast?.map Extent.block) = done
    at hbefore hbs hdone ⊢
  -- Every header that either merge stores into is marked, and the others are left alone.
  have hpairs : ∀ c ∈ (pre ++ e :: post).map Extent.block,
      ∀ d ∈ (pre ++ e :: post).map Extent.block, c = d ∨ c.HeaderApart d := by
    intro c hc d hd
    obtain ⟨f, hf, rfl⟩ := List.mem_map.1 hc
    obtain ⟨g, hg, rfl⟩ := List.mem_map.1 hd
    exact Extent.eq_or_headerApart hl.ordered hf hg
  have hmem : e.block ∈ (pre ++ e :: post).map Extent.block := List.mem_map_of_mem (by simp)
  have hown : merged.memory.isFreed e.block = true :=
    hblock ▸ hbehind.segment.isFreed_of_mem (List.mem_append_right _ List.mem_cons_self)
  have hmarked : ∀ c ∈ (pre ++ e :: post).map Extent.block, merged.memory.isFreed c = true := by
    refine hgrown.isFreed_of_mem (List.forall_mem_singleton.2 hown) (fun c hc => ?_) fun c hc =>
      List.forall_mem_singleton.2 (hpairs c hc e.block hmem)
    obtain ⟨f, hf, rfl⟩ := List.mem_map.1 hc
    exact hl.segment.isFreed_of_mem hf
  refine ⟨hbefore, ?_, ?_⟩
  · exact (hgrown.mono (List.forall_mem_singleton.2 List.mem_cons_self)).trans
      (hdone.mono fun c hc => List.mem_cons_of_mem _ (hbs c hc).1)
  · refine hdone.isFreed_of_mem (fun c hc => (hbs c hc).2) hmarked fun c hc d hd => ?_
    refine hpairs c hc d ?_
    rw [List.map_append]
    exact List.mem_append_left _ (hbs d hd).1

/-- The walk of an insertion parts the list at the place of the block. -/
theorem seek_comesBefore (hl : h.Lists l es) (size : Nat) (hb : h.memory.tag b = b.chunk) :
    h.memory.seek l (h.memory.comesBefore b) (total l) none h.head =
      ((es.takeWhile fun f => ¬ Extent.Precedes ⟨b, size⟩ f).getLast?.map Extent.block,
        (es.dropWhile fun f => ¬ Extent.Precedes ⟨b, size⟩ f).head?.map Extent.block) := by
  refine hl.seek_eq fun f hf => ?_
  simp only [Memory.comesBefore, hb, hl.segment.tag_of_mem hf, Extent.Precedes, Bool.or_eq_true,
    Bool.and_eq_true, decide_eq_true_eq, beq_iff_eq]
  omega

/-- The walk parts the list where the extent belongs, and there the block is linked in. -/
theorem linked {size link : Nat} {freed : Bool} (hl : h.Lists l es) (htotal : total l < wordLimit)
    (hb : h.memory.header b = ⟨size, link, b.chunk, freed⟩) (hholds : l.Holds b)
    (hbeside : Extent.Beside ⟨b, size⟩ es) :
    ∃ pre post, es = pre ++ post ∧
      es.orderedInsert Extent.Precedes ⟨b, size⟩ = pre ++ ⟨b, size⟩ :: post ∧
      (h.memory.setFreed b true).seek l ((h.memory.setFreed b true).comesBefore b) (total l) none
        h.head = (pre.getLast?.map Extent.block, post.head?.map Extent.block) ∧
      let placed := ({ h with memory := h.memory.setFreed b true } : Heap).linkBetween l
        (pre.getLast?.map Extent.block) b (post.head?.map Extent.block)
      placed.Lists l (pre ++ ⟨b, size⟩ :: post) ∧
        h.memory.AgreesBut placed.memory (b :: pre.map Extent.block) := by
  have hmark : h.memory.AgreesBut (h.memory.setFreed b true) [b] :=
    .setFreed true List.mem_cons_self
  have hapart : ∀ f ∈ es, f.block.HeaderApart b := fun f hf =>
    (hbeside f hf).elim (fun hbf => hbf.headerApart.symm) Extent.Before.headerApart
  have hmarked : Lists { h with memory := h.memory.setFreed b true } l es :=
    hl.of_header_eq fun f hf => hmark.header_eq (List.forall_mem_singleton.2 (hapart f hf))
  have hbm : (h.memory.setFreed b true).header b = ⟨size, link, b.chunk, true⟩ := by
    rw [Memory.header_setFreed, hb]
  have hseek := hmarked.seek_comesBefore size (by rw [← Memory.tag_header, hbm])
  have hparts := List.takeWhile_append_dropWhile
    (p := fun f => ¬ Extent.Precedes ⟨b, size⟩ f) (l := es)
  have hinserted := List.orderedInsert_eq_take_drop Extent.Precedes ⟨b, size⟩ es
  -- `takeWhile` and `dropWhile` are the two sides of the library's `orderedInsert`.
  have ho := Extent.pairwise_before_orderedInsert hl.ordered hbeside
  rw [hinserted] at ho
  refine ⟨_, _, hparts.symm, hinserted, hseek, ?_⟩
  generalize es.takeWhile (fun f => ¬ Extent.Precedes ⟨b, size⟩ f) = pre at hparts ho ⊢
  generalize es.dropWhile (fun f => ¬ Extent.Precedes ⟨b, size⟩ f) = post at hparts ho ⊢
  subst hparts
  obtain ⟨hplaced, hlink⟩ := hmarked.linkBetween htotal hbm hholds ho
  exact ⟨hplaced, (hmark.mono (List.forall_mem_singleton.2 List.mem_cons_self)).trans hlink⟩

/-- **Inserting a block places its extent**, and marks the block. No header changes but its own and
those of the entries, which keep their marks, also where they are absorbed. -/
theorem insert {size link : Nat} {freed : Bool} (hl : h.Lists l es) (htotal : total l < wordLimit)
    (hb : h.memory.header b = ⟨size, link, b.chunk, freed⟩) (hholds : l.Holds b)
    (hbeside : Extent.Beside ⟨b, size⟩ es) (hclear : es.Pairwise Extent.Clear)
    (hstop : ∀ f ∈ (⟨b, size⟩ : Extent) :: es, f.stop < wordLimit) :
    let h' := h.insert l b
    h'.Lists l (Extent.place ⟨b, size⟩ es) ∧
      h.memory.AgreesBut h'.memory (b :: es.map Extent.block) ∧
      ∀ c ∈ b :: es.map Extent.block, h'.memory.isFreed c = true := by
  obtain ⟨pre, post, rfl, hinserted, hseek, hplaced, hlink⟩ :=
    hl.linked htotal hb hholds hbeside
  rw [insert_eq hseek, Extent.place, hinserted]
  obtain ⟨hcpre, hcpost, -⟩ := List.pairwise_append.1 hclear
  generalize Heap.linkBetween _ l _ b _ = placed at hplaced hlink ⊢
  obtain ⟨hdone, hmerged, hfreed⟩ := hplaced.coalesce hcpre hcpost fun f hf => by
    refine hstop f ?_
    rw [List.mem_cons] at hf ⊢
    exact hf.imp_right (List.mem_append_right _)
  refine ⟨hdone, ?_, fun c hc => hfreed c ?_⟩
  · have hsub : ∀ c ∈ b :: pre.map Extent.block, c ∈ b :: (pre ++ post).map Extent.block := by
      rw [List.map_append]
      exact List.cons_subset_cons b (List.subset_append_left _ _)
    exact (hlink.mono hsub).trans (hmerged.mono hsub)
  · rw [List.map_append, List.map_cons]
    rw [List.map_append] at hc
    exact List.perm_middle.mem_iff.2 hc

end Lists

/-! ## The mark of an inserted block

`isFreed_insert` asks for less than `Lists.insert`: the size in the block's header may be anything,
and the block may lie inside other extents, as long as its header is none of theirs. A caller who
frees a pointer whose header was overwritten is in that position. -/

/-- A link is not a mark. -/
theorem isFreed_relink {before next : Option Block}
    (hb : ∀ c ∈ before, b = c ∨ b.HeaderApart c) :
    (h.relink l before next).memory.isFreed b = h.memory.isFreed b := by
  cases before with
  | none => rfl
  | some c => exact Memory.isFreed_setLink (hb c rfl) _

/-- Merging stores sizes and links, so it keeps the marks. -/
theorem isFreed_mergeIfAdjoining {c d : Block} (hc : b = c ∨ b.HeaderApart c) :
    (h.mergeIfAdjoining .byPlace c d).memory.isFreed b = h.memory.isFreed b := by
  rw [mergeIfAdjoining]
  split
  · exact (Memory.isFreed_setLink hc _).trans (Memory.isFreed_setBlockSize hc _)
  · rfl

/-- **Inserting a block marks it**, whatever its header held. -/
theorem isFreed_insert (hl : h.Lists l es) (hb : ∀ e ∈ es, e.block.HeaderApart b) :
    (h.insert l b).memory.isFreed b = true := by
  have hmark : h.memory.AgreesBut (h.memory.setFreed b true) [b] :=
    .setFreed true List.mem_cons_self
  have hmarked : Lists { h with memory := h.memory.setFreed b true } l es :=
    hl.of_header_eq fun e he => hmark.header_eq (List.forall_mem_singleton.2 (hb e he))
  cases hseek : (h.memory.setFreed b true).seek l ((h.memory.setFreed b true).comesBefore b)
    (total l) none h.head with
  | mk before after =>
    -- The block before is an entry, so its header is not the one of `b`.
    have hbefore : ∀ c ∈ before, b = c ∨ b.HeaderApart c := by
      intro c hc
      have hchain := hmarked.chain_eq
      rw [Memory.seek_eq, hchain, Option.or_none] at hseek
      have hlast := List.mem_of_getLast? ((congrArg Prod.fst hseek).trans hc)
      obtain ⟨e, he, rfl⟩ := List.mem_map.1 (List.takeWhile_subset _ hlast)
      exact .inr (hb e he).symm
    have hlinked : (({ h with memory := h.memory.setFreed b true } : Heap).linkBetween l before b
        after).memory.isFreed b = true := by
      refine (Memory.isFreed_setLink (.inl rfl) _).trans ((isFreed_relink hbefore).trans ?_)
      exact Memory.isFreed_setFreed _ _ _
    rw [insert_eq hseek]
    generalize ({ h with memory := h.memory.setFreed b true } : Heap).linkBetween l before b after =
      linked at hlinked ⊢
    have hbehind : (linked.mergeBehind .byPlace b after).memory.isFreed b = true := by
      cases after with
      | none => exact hlinked
      | some d => exact (isFreed_mergeIfAdjoining (.inl rfl)).trans hlinked
    cases before with
    | none => exact hbehind
    | some c => exact (isFreed_mergeIfAdjoining (hbefore c rfl)).trans hbehind

end Heap

end ArenaAlloc

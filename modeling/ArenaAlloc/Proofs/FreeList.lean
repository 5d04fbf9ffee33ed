import ArenaAlloc.Heap
import ArenaAlloc.Proofs.Header
import ArenaAlloc.Proofs.Coalesce
import Mathlib.Data.List.TakeWhile

/-!
# The free list in memory

`Memory.Segment` says that links lead from one block through a list of extents to another, each with
a header that says what its extent says; `Heap.Lists` is the case of the whole free list. Under it
the bounded walks of `Heap` are walks of that list (`Lists.chain_eq`, `Lists.seek_eq`), and the two
operations that change the list change the extents as they should: `Lists.unlink` drops one,
`Lists.insert` places one.

The walks of the allocator have no bound in sight; those of `Heap` stop after as many steps as the
chunks have bytes, so that they are total functions of any memory. That the bound is never reached
is a fact about lists that are in order: entries in address order have different positions, and
there are no more positions than bytes (`Layout.length_le_total`).

`Segment` is an inductive predicate and not a function from memory to a list. Links are words, and
from a word alone one cannot tell whether it leads to a block; the predicate says that it does, and
with what header. Its lemmas are inductions on the links as they are followed. A segment depends on
the headers of its own blocks only (`Segment.congr`), so a store anywhere else leaves it, and this
is all the framing that insertion and unlinking need.
-/

namespace ArenaAlloc

/-! ## Room for the list

A link is the reference of a block, a number below the total length of the chunks, and `0` for the
end. That it fits into its word, and that it leads back to the block, are facts about the layout
alone. -/

namespace Layout

variable {l : Layout} {b c : Block}

theorem total_take_mono {j k : Nat} (h : j ≤ k) : total (l.take j) ≤ total (l.take k) := by
  have hle := total_take_le (l.take k) j
  rwa [List.take_take, Nat.min_eq_left h] at hle

theorem position_lt_of_precedes {e f : Extent} (hb : l.Holds e.block) (h : e.Precedes f) :
    l.position e.block < l.position f.block := by
  obtain ⟨length, hk, hs⟩ := hb
  rcases h with h | ⟨hc, h⟩
  · have hle : total (l.take (e.block.chunk + 1)) ≤ total (l.take f.block.chunk) :=
      total_take_mono h
    rw [List.take_add_one, hk, total_append] at hle
    simp only [Option.toList_some, total_cons, total_nil, Nat.add_zero, headerSize] at hle hs
    simp only [position]
    omega
  · simp only [position, hc]
    omega

theorem position_lt_total (h : l.Holds b) : l.position b < total l := by
  have hr := reference_le_total h
  simp only [reference, headerSize] at hr
  omega

/-- Entries in address order are no more than the chunks have bytes. -/
theorem length_le_total {es : List Extent} (ho : es.Pairwise Extent.Before)
    (hh : ∀ e ∈ es, l.Holds e.block) : es.length ≤ total l := by
  have hlow : ∀ k, k ≤ total l → (∀ e ∈ es, k ≤ l.position e.block) → es.length + k ≤ total l := by
    -- With `k` as a lower bound on all positions: the head's position is at least `k`, and the
    -- positions of the tail are above the head's.
    induction es with
    | nil => intro k hk _; simpa using hk
    | cons e es ih =>
      intro k _ hlow
      obtain ⟨he, hes⟩ := List.pairwise_cons.1 ho
      have hpos := position_lt_total (hh e List.mem_cons_self)
      have hrest := ih hes (fun f hf => hh f (List.mem_cons_of_mem _ hf)) (l.position e.block + 1)
        hpos fun f hf => position_lt_of_precedes (hh e List.mem_cons_self) (he f hf).precedes
      have hk := hlow e List.mem_cons_self
      rw [List.length_cons]
      omega
  simpa using hlow 0 (Nat.zero_le _) fun _ _ => Nat.zero_le _

theorem reference_lt {o : Option Block} (hl : total l < wordLimit) (h : ∀ b ∈ o, l.Holds b) :
    l.reference o < wordLimit := by
  cases o with
  | none => exact Nat.zero_lt_of_lt hl
  | some b => exact Nat.lt_of_le_of_lt (reference_le_total (h b rfl)) hl

theorem reference_head?_lt {es : List Extent} (hl : total l < wordLimit)
    (h : ∀ e ∈ es, l.Holds e.block) : l.reference (es.head?.map Extent.block) < wordLimit := by
  refine reference_lt hl fun b hb => ?_
  obtain ⟨e, he, rfl⟩ := Option.map_eq_some_iff.1 hb
  exact h e (List.mem_of_head? he)

theorem resolve_reference_of_holds {o : Option Block} (h : ∀ b ∈ o, l.Holds b) :
    l.resolve (l.reference o) = o := by
  cases o with
  | none => rfl
  | some b => exact resolve_reference (h b rfl)

end Layout

/-! ## Segments

Segments are glued together (`append`) and cut (`split`) as their lists are. The stages of an
insertion work on a list that has been cut in two at the place of the block. -/

namespace Memory

/-- From `first` on, the links lead through the blocks of `es`, each free and as long as its extent
says, and on to `after`. -/
inductive Segment (m : Memory) (l : Layout) : Option Block → List Extent → Option Block → Prop
  | nil (first : Option Block) : Segment m l first [] first
  | cons {e : Extent} {es : List Extent} {next after : Option Block}
      (head : m.header e.block = ⟨e.size, l.reference next, e.block.chunk, true⟩)
      (rest : Segment m l next es after) : Segment m l (some e.block) (e :: es) after

namespace Segment

variable {m m' : Memory} {l : Layout} {a b c : Option Block} {e f : Extent} {es fs : List Extent}

/-- Segments are glued at the block where the one ends and the other starts. -/
theorem append (h : m.Segment l a es b) (h' : m.Segment l b fs c) :
    m.Segment l a (es ++ fs) c := by
  induction h with
  | nil => exact h'
  | cons head _ ih => exact .cons head (ih h')

/-- A segment over two lists passes some block in between. -/
theorem split (h : m.Segment l a (es ++ fs) c) :
    ∃ b, m.Segment l a es b ∧ m.Segment l b fs c := by
  induction es generalizing a with
  | nil => exact ⟨a, .nil a, h⟩
  | cons e es ih =>
    cases h with
    | cons head rest =>
      obtain ⟨b, h1, h2⟩ := ih rest
      exact ⟨b, .cons head h1, h2⟩

/-- A segment to the end of the list starts at its first extent. -/
theorem first_eq (h : m.Segment l a es none) : a = es.head?.map Extent.block := by
  cases h with
  | nil => rfl
  | cons _ _ => rfl

/-- An entry's header says its size and its chunk, and that it is free. -/
theorem header_of_mem (h : m.Segment l a es b) (he : e ∈ es) :
    ∃ link, m.header e.block = ⟨e.size, link, e.block.chunk, true⟩ := by
  induction h with
  | nil => simp at he
  | cons head _ ih =>
    rcases List.mem_cons.1 he with rfl | he
    · exact ⟨_, head⟩
    · exact ih he

theorem blockSize_of_mem (h : m.Segment l a es b) (he : e ∈ es) :
    m.blockSize e.block = e.size := by
  obtain ⟨link, hh⟩ := h.header_of_mem he
  rw [← size_header, hh]

theorem tag_of_mem (h : m.Segment l a es b) (he : e ∈ es) : m.tag e.block = e.block.chunk := by
  obtain ⟨link, hh⟩ := h.header_of_mem he
  rw [← tag_header, hh]

theorem isFreed_of_mem (h : m.Segment l a es b) (he : e ∈ es) : m.isFreed e.block = true := by
  obtain ⟨link, hh⟩ := h.header_of_mem he
  rw [← freed_header, hh]

/-- A segment depends on the headers of its blocks alone. -/
theorem congr (h : m.Segment l a es b) (hh : ∀ e ∈ es, m'.header e.block = m.header e.block) :
    m'.Segment l a es b := by
  induction h with
  | nil => exact .nil _
  | cons head _ ih =>
    refine .cons ?_ (ih fun f hf => hh f (List.mem_cons_of_mem _ hf))
    rw [hh _ List.mem_cons_self, head]

theorem of_agreesBut {bs : List Block} (h : m.Segment l a es b) (hm : m.AgreesBut m' bs)
    (ha : ∀ e ∈ es, ∀ b ∈ bs, e.block.HeaderApart b) : m'.Segment l a es b :=
  h.congr fun e he => hm.header_eq (ha e he)

/-- A segment stays when the memory changes in the headers of extents that come before it. -/
theorem of_before (h : m.Segment l a es none) (hm : m.AgreesBut m' (fs.map Extent.block))
    (ho : ∀ f ∈ fs, ∀ e ∈ es, f.Before e) : m'.Segment l (es.head?.map Extent.block) es none := by
  rw [← h.first_eq]
  refine h.of_agreesBut hm fun e he b hb => ?_
  obtain ⟨f, hf, rfl⟩ := List.mem_map.1 hb
  exact (ho f hf e he).headerApart.symm

/-- Adding a chunk changes no reference that leads to an older chunk, so the links still say the
same. -/
theorem append_layout (h : m.Segment l a es none) (hh : ∀ e ∈ es, l.Holds e.block)
    (more : Layout) : m.Segment (l ++ more) a es none := by
  generalize hb : (none : Option Block) = after at h
  induction h with
  | nil => exact .nil _
  | @cons e es next after head rest ih =>
    have hes : ∀ f ∈ es, l.Holds f.block := fun f hf => hh f (List.mem_cons_of_mem _ hf)
    subst hb
    refine .cons ?_ (ih hes rfl)
    rw [head]
    -- The link that is read off `head` is that of the next entry, which lies in an old chunk, or
    -- `0`.
    cases es with
    | nil => cases rest; rfl
    | cons f es =>
      cases rest
      rw [Layout.reference_append more (hes f List.mem_cons_self)]

/-- The link of an entry leads to the one behind it. -/
theorem next?_eq (h : m.Segment l a (e :: es) none) (hh : ∀ f ∈ es, l.Holds f.block) :
    m.next? l e.block = es.head?.map Extent.block := by
  cases h with
  | cons head rest =>
    rw [next?, ← link_header, head, ← rest.first_eq]
    refine Layout.resolve_reference_of_holds fun b hb => ?_
    rw [rest.first_eq] at hb
    obtain ⟨f, hf, rfl⟩ := Option.map_eq_some_iff.1 hb
    exact hh f (List.mem_of_head? hf)

/-- **Following the links visits the blocks of the segment**, if it may take enough steps. -/
theorem chain_eq (h : m.Segment l a es none) (hh : ∀ e ∈ es, l.Holds e.block) {reach : Nat}
    (hr : es.length ≤ reach) : m.chain l reach a = es.map Extent.block := by
  -- On the entries; each takes one step of the bound.
  induction es generalizing a reach with
  | nil =>
    rw [h.first_eq]
    exact chain_none m l reach
  | cons e es ih =>
    have hes : ∀ f ∈ es, l.Holds f.block := fun f hf => hh f (List.mem_cons_of_mem _ hf)
    have hnext := h.next?_eq hes
    cases h with
    | cons head rest =>
      cases reach with
      | zero => simp at hr
      | succ reach =>
        rw [chain_succ_some, hnext, ← rest.first_eq, List.map_cons,
          ih rest hes (by simpa using hr)]

end Segment

end Memory

/-! ## The list of a heap

`Lists h l es` has three parts: the links lead through `es`, the blocks lie in chunks, and they are
in address order. That entries do not touch is not among them. It holds between operations but not
between the stages of an insertion, so it is a separate hypothesis where it is needed. -/

theorem takeWhile_dropWhile_congr {α : Type} {p q : α → Bool} {xs : List α}
    (h : ∀ x ∈ xs, p x = q x) :
    xs.takeWhile p = xs.takeWhile q ∧ xs.dropWhile p = xs.dropWhile q := by
  induction xs with
  | nil => exact ⟨rfl, rfl⟩
  | cons x xs ih =>
    have hx := h x List.mem_cons_self
    obtain ⟨h1, h2⟩ := ih fun y hy => h y (List.mem_cons_of_mem _ hy)
    rw [List.takeWhile_cons, List.takeWhile_cons, List.dropWhile_cons, List.dropWhile_cons, hx,
      h1, h2]
    exact ⟨rfl, rfl⟩

namespace Heap

/-- The free list of the heap holds the extents `es`, in address order. -/
structure Lists (h : Heap) (l : Layout) (es : List Extent) : Prop where
  segment : h.memory.Segment l h.head es none
  holds : ∀ e ∈ es, l.Holds e.block
  ordered : es.Pairwise Extent.Before

variable {h : Heap} {l : Layout} {b : Block} {e f : Extent} {es pre post : List Extent}

theorem lists_nil (m : Memory) (l : Layout) : Lists ⟨m, none⟩ l [] := by
  refine ⟨.nil none, ?_, .nil⟩
  simp

namespace Lists

/-- The walk from the head visits the list, within its bound. -/
theorem chain_eq (hl : h.Lists l es) :
    h.memory.chain l (total l) h.head = es.map Extent.block :=
  hl.segment.chain_eq hl.holds (Layout.length_le_total hl.ordered hl.holds)

theorem freeList_eq (hl : h.Lists l es) : h.freeList l = es.map Extent.block := hl.chain_eq

/-- **A walk of the list stops at the first entry that is accepted**, or at the end. -/
theorem seek_eq (hl : h.Lists l es) {p : Block → Bool} {q : Extent → Prop} [DecidablePred q]
    (hq : ∀ e ∈ es, p e.block = true ↔ q e) :
    h.memory.seek l p (total l) none h.head =
      ((es.takeWhile fun e => ¬ q e).getLast?.map Extent.block,
        (es.dropWhile fun e => ¬ q e).head?.map Extent.block) := by
  have hpq : ∀ e ∈ es, (!p e.block) = decide (¬ q e) := by
    intro e he
    rw [Bool.eq_iff_iff, Bool.not_eq_true', ← Bool.not_eq_true, hq e he, decide_eq_true_iff]
  have hwhile := takeWhile_dropWhile_congr hpq
  rw [Memory.seek_eq, hl.chain_eq, List.takeWhile_map, List.dropWhile_map, List.getLast?_map,
    List.head?_map, Option.or_none]
  exact congrArg₂ Prod.mk (congrArg _ (congrArg _ hwhile.1)) (congrArg _ (congrArg _ hwhile.2))

theorem apart_of_mem_pre (hl : h.Lists l (pre ++ e :: post)) (hf : f ∈ pre) :
    f.block.HeaderApart e.block :=
  ((List.pairwise_append.1 hl.ordered).2.2 f hf e List.mem_cons_self).headerApart

theorem apart_of_mem_post (hl : h.Lists l (pre ++ e :: post)) (hf : f ∈ post) :
    f.block.HeaderApart e.block :=
  ((List.pairwise_cons.1 (List.pairwise_append.1 hl.ordered).2.1).1 f hf).headerApart.symm

theorem apart_of_mem (hl : h.Lists l (pre ++ e :: post)) (hf : f ∈ pre ++ post) :
    f.block.HeaderApart e.block :=
  (List.mem_append.1 hf).elim hl.apart_of_mem_pre hl.apart_of_mem_post

/-- A new chunk leaves the free list as it is. -/
theorem append_layout (hl : h.Lists l es) (more : Layout) : h.Lists (l ++ more) es :=
  ⟨hl.segment.append_layout hl.holds more, fun e he => (hl.holds e he).append more, hl.ordered⟩

/-- A memory with the same headers at the entries has the same free list. -/
theorem of_header_eq (hl : h.Lists l es) {m : Memory}
    (hh : ∀ e ∈ es, m.header e.block = h.memory.header e.block) :
    Lists { h with memory := m } l es :=
  ⟨hl.segment.congr hh, hl.holds, hl.ordered⟩

end Lists

/-- **Relinking bends a segment to a new end.** -/
theorem segment_relink {mid next : Option Block} (hs : h.memory.Segment l h.head pre mid)
    (ho : pre.Pairwise Extent.Before) (hn : l.reference next < wordLimit) :
    let h' := h.relink l (pre.getLast?.map Extent.block) next
    h'.memory.Segment l h'.head pre next ∧ h.memory.AgreesBut h'.memory (pre.map Extent.block) := by
  rcases List.eq_nil_or_concat' pre with rfl | ⟨init, p, rfl⟩
  · exact ⟨.nil next, Memory.AgreesBut.refl _ _⟩
  · obtain ⟨_, hinit, hlast⟩ := hs.split
    have hapart : ∀ e ∈ init, ∀ b ∈ [p.block], e.block.HeaderApart b := fun e he =>
      List.forall_mem_singleton.2
        ((List.pairwise_append.1 ho).2.2 e he p List.mem_cons_self).headerApart
    simp only [List.getLast?_concat, Option.map_some, relink]
    cases hlast with
    | cons head rest =>
      refine ⟨(hinit.of_agreesBut (.setLink _ List.mem_cons_self) hapart).append
        (.cons ?_ (.nil next)), ?_⟩
      · rw [Memory.header_setLink hn, head]
      · exact Memory.AgreesBut.setLink _ (List.mem_map_of_mem (by simp))

/-- **Unlinking takes one entry off the list** and leaves a header that is in use. -/
theorem Lists.unlink (hl : h.Lists l (pre ++ e :: post)) (htotal : total l < wordLimit) :
    let h' := h.unlink l (pre.getLast?.map Extent.block) e.block
    h'.Lists l (pre ++ post) ∧
      h'.memory.header e.block = ⟨e.size, 0, e.block.chunk, false⟩ ∧
      h.memory.AgreesBut h'.memory ((pre ++ e :: post).map Extent.block) := by
  obtain ⟨mid, hpre, hsuf⟩ := hl.segment.split
  have ho := List.pairwise_append.1 hl.ordered
  have hholds : ∀ f ∈ pre ++ post, l.Holds f.block := by
    intro f hf
    refine hl.holds f ?_
    rw [List.mem_append] at hf ⊢
    exact hf.imp_right (List.mem_cons_of_mem e)
  have hpost : ∀ f ∈ post, l.Holds f.block := fun f hf => hholds f (List.mem_append_right _ hf)
  have hnext := hsuf.next?_eq hpost
  obtain ⟨hpre', hagree⟩ := segment_relink hpre ho.1 (Layout.reference_head?_lt htotal hpost)
  simp only [Heap.unlink, hnext]
  -- The relinking writes into the entries before `e`, the rest into `e` alone.
  generalize h.relink l (pre.getLast?.map Extent.block) (post.head?.map Extent.block) = skipped
    at hpre' hagree ⊢
  cases hsuf with
  | @cons _ _ next _ head rest =>
    have hdone : skipped.memory.AgreesBut
        ((skipped.memory.setFreed e.block false).setLink e.block 0) [e.block] :=
      (Memory.AgreesBut.setFreed false List.mem_cons_self).trans (.setLink 0 List.mem_cons_self)
    -- Those entries come before `post`, so the rest of the list is as it was.
    have hrest : skipped.memory.Segment l (post.head?.map Extent.block) post none :=
      rest.of_before hagree fun g hg f hf => ho.2.2 g hg f (List.mem_cons_of_mem _ hf)
    have hhead : skipped.memory.header e.block =
        ⟨e.size, l.reference next, e.block.chunk, true⟩ := by
      rw [← head]
      refine hagree.header_eq fun b hb => ?_
      obtain ⟨g, hg, rfl⟩ := List.mem_map.1 hb
      exact (hl.apart_of_mem_pre hg).symm
    refine ⟨⟨?_, hholds, ?_⟩, ?_, ?_⟩
    · exact (hpre'.append hrest).of_agreesBut hdone fun f hf =>
        List.forall_mem_singleton.2 (hl.apart_of_mem hf)
    · exact hl.ordered.sublist (List.Sublist.append_left (List.sublist_cons_self _ _) _)
    · rw [Memory.header_setLink (by decide), Memory.header_setFreed, hhead]
    · refine (hagree.mono fun b hb => ?_).trans (hdone.mono (List.forall_mem_singleton.2 ?_))
      · rw [List.map_append]
        exact List.mem_append_left _ hb
      · exact List.mem_map_of_mem (by simp)

/-! ## Searching

`seek_eq` turned the walk into `takeWhile` and `dropWhile`. So a search that succeeds has skipped
entries that were all too small, and one that fails has found every entry too small; both directions
are stated, because an allocation is described by what it finds and predicted by what there is. -/

namespace Lists

theorem fits_iff (hl : h.Lists l es) {size : Nat} (he : e ∈ es) :
    decide (size ≤ h.memory.blockSize e.block) = true ↔ size ≤ e.size := by
  rw [decide_eq_true_iff, hl.segment.blockSize_of_mem he]

/-- **The search finds the first entry that is large enough.** -/
theorem firstFit?_eq_some (hl : h.Lists l es) {size : Nat} {before : Option Block}
    (hfit : h.firstFit? l size = some (before, b)) :
    ∃ pre e post, es = pre ++ e :: post ∧ (∀ f ∈ pre, f.size < size) ∧ size ≤ e.size ∧
      e.block = b ∧ pre.getLast?.map Extent.block = before := by
  rw [firstFit?, hl.seek_eq fun e he => hl.fits_iff he] at hfit
  have hparts := List.takeWhile_append_dropWhile (p := fun e : Extent => ¬ size ≤ e.size) (l := es)
  have hpre : ∀ f ∈ es.takeWhile fun e => ¬ size ≤ e.size, f.size < size := by
    intro f hf
    have hp := List.all_eq_true.1 (List.all_takeWhile (l := es)) f hf
    exact Nat.not_le.1 (of_decide_eq_true hp)
  have hhead := List.head?_dropWhile_not (fun e : Extent => ¬ size ≤ e.size) es
  cases hdrop : es.dropWhile fun e => ¬ size ≤ e.size with
  | nil =>
    rw [hdrop] at hfit
    cases hfit
  | cons e post =>
    rw [hdrop] at hfit hparts hhead
    simp only [List.head?_cons, Option.map_some, Option.some.injEq, Prod.mk.injEq] at hfit
    refine ⟨_, e, post, hparts.symm, hpre, ?_, hfit.2, hfit.1⟩
    simpa using hhead

/-- A search that finds nothing has found every entry too small. -/
theorem firstFit?_eq_none (hl : h.Lists l es) {size : Nat} (hfit : h.firstFit? l size = none) :
    ∀ e ∈ es, e.size < size := by
  rw [firstFit?, hl.seek_eq fun e he => hl.fits_iff he] at hfit
  intro e he
  refine Nat.not_le.1 fun hle => ?_
  cases hdrop : es.dropWhile fun e => ¬ size ≤ e.size with
  | nil =>
    have hall := List.dropWhile_eq_nil_iff.1 hdrop e he
    exact of_decide_eq_true hall hle
  | cons f post =>
    rw [hdrop] at hfit
    cases hfit

/-- Which entry the search finds is determined by the list alone. -/
theorem firstFit?_of_fit (hl : h.Lists l (pre ++ e :: post)) {size : Nat}
    (hpre : ∀ f ∈ pre, f.size < size) (hfit : size ≤ e.size) :
    h.firstFit? l size = some (pre.getLast?.map Extent.block, e.block) := by
  have hskip : ∀ f ∈ pre, decide (¬ size ≤ f.size) = true := fun f hf =>
    decide_eq_true (Nat.not_le.2 (hpre f hf))
  have hstop : decide (¬ size ≤ e.size) = false := decide_eq_false (not_not.2 hfit)
  rw [firstFit?, hl.seek_eq fun f hf => hl.fits_iff hf, List.takeWhile_append_of_pos hskip,
    List.dropWhile_append_of_pos hskip, List.takeWhile_cons_of_neg (by rw [hstop]; decide),
    List.dropWhile_cons_of_neg (by rw [hstop]; decide), List.append_nil]
  rfl

/-- If every entry is too small, the search finds nothing. -/
theorem firstFit?_of_no_fit (hl : h.Lists l es) {size : Nat} (hall : ∀ f ∈ es, f.size < size) :
    h.firstFit? l size = none := by
  cases hfit : h.firstFit? l size with
  | none => rfl
  | some found =>
    obtain ⟨pre, e, post, rfl, -, hle, -⟩ := hl.firstFit?_eq_some hfit
    exact absurd hle (Nat.not_le.2 (hall e (by simp)))

end Lists

end Heap

end ArenaAlloc

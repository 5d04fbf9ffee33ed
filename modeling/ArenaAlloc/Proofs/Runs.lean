import ArenaAlloc.Proofs.Coalesce
import Mathlib.Data.List.SplitBy

/-!
# Maximal runs

Which list of entries comes of placing extents one after another does not depend on the order in
which they come. It is `maximalRuns`: all the extents sorted by address, split wherever one does not
adjoin the next, and each run made one extent.

The step is `place_coalesce`: an extent may as well be put among the entries before any of them are
merged. So the merging can wait until all extents are there (`foldl_place_coalesce`), and by then
they are sorted, in whatever order they came.

The list that results is described without the order, and that is the use of it: two orders of
freeing the same blocks have the same free list, because both have the list of maximal runs of the
same set (`maximalRuns_congr`). `Proofs.FreeOrder` rests on that.

`List.splitBy` is the library's splitting of a list wherever a relation between neighbours fails, so
the definition of a run is not one of this development. What has to be shown is that joining from
the right, as `coalesce` does, makes one extent of each part and keeps the parts apart.
-/

namespace ArenaAlloc

namespace Extent

/-- The extents `e :: run`, each of which adjoins the next, as one. -/
def hull (e : Extent) (run : List Extent) : Extent :=
  ⟨e.block, (run.getLastD e).stop - (e.block.start + headerSize)⟩

def hull? : List Extent → Option Extent
  | [] => none
  | e :: run => some (hull e run)

/-- The extents in address order, with every longest run of them that adjoin made one extent: it has
the block of the first and stops where the last does. -/
def maximalRuns (es : List Extent) : List Extent :=
  ((es.insertionSort Precedes).splitBy adjoins).filterMap hull?

variable {e f g : Extent} {es fs run : List Extent}

/-! ## Runs are what merging leaves

`hull` is what a run becomes: the block of its first extent, and the bytes up to the stop of its
last. On the way a run is joined from its end to its front, and each step extends the hull by one
extent at the front (`merge_hull`). -/

theorem hull_nil (e : Extent) : hull e [] = e := by
  cases e
  simp only [hull, List.getLastD_nil, stop, Nat.add_sub_cancel_left]

theorem le_stop_getLastD (h : (e :: run).IsChain fun f g => f.adjoins g = true) :
    e.block.start + headerSize ≤ (run.getLastD e).stop := by
  induction run generalizing e with
  | nil => exact e.start_lt_stop
  | cons f run ih =>
    obtain ⟨hadj, hrest⟩ := List.isChain_cons_cons.1 h
    have hef := (adjoins_iff.1 hadj).2
    have he := e.start_lt_stop
    have hf := ih hrest
    rw [List.getLastD_cons]
    omega

/-- Merging an extent with the hull of what comes behind it makes the hull of all. -/
theorem merge_hull (hadj : e.adjoins f = true)
    (h : (f :: run).IsChain fun f g => f.adjoins g = true) :
    e.merge (hull f run) = hull e (f :: run) := by
  have hle := le_stop_getLastD h
  have hs := (adjoins_iff.1 hadj).2
  simp only [merge, hull, List.getLastD_cons, mk.injEq, true_and]
  simp only [stop] at hs
  omega

theorem join_of_adjoins (h : e.adjoins f = true) (es : List Extent) :
    join e (f :: es) = e.merge f :: es := if_pos h

theorem join_of_not_adjoins (h : ∀ f ∈ es.head?, e.adjoins f = false) : join e es = e :: es := by
  cases es with
  | nil => rfl
  | cons f es =>
    rw [join, h f rfl]
    rfl

/-- Joining a run to what it does not touch makes it one extent. -/
theorem foldr_join_of_isChain (h : (e :: run).IsChain fun f g => f.adjoins g = true)
    (hlast : ∀ f ∈ es.head?, (run.getLastD e).adjoins f = false) :
    (e :: run).foldr join es = hull e run :: es := by
  -- On the run, whose hull grows at the front; what is behind it stays as it is.
  induction run generalizing e with
  | nil =>
    rw [List.foldr_cons, List.foldr_nil, hull_nil]
    exact join_of_not_adjoins hlast
  | cons f run ih =>
    obtain ⟨hadj, hrest⟩ := List.isChain_cons_cons.1 h
    rw [List.getLastD_cons] at hlast
    have hadj' : e.adjoins (hull f run) = true := hadj
    rw [List.foldr_cons, ih hrest hlast, join_of_adjoins hadj', merge_hull hadj hrest]

/-- **Coalescing makes one extent of every run.** -/
theorem coalesce_flatten {runs : List (List Extent)} (hne : [] ∉ runs)
    (hchain : ∀ r ∈ runs, r.IsChain fun f g => f.adjoins g = true)
    (hgap : runs.IsChain fun r r' => ∃ hr hr', (r.getLast hr).adjoins (r'.head hr') = false) :
    coalesce runs.flatten = runs.filterMap hull? := by
  induction runs with
  | nil => rfl
  | cons r runs ih =>
    cases r with
    | nil => exact absurd List.mem_cons_self hne
    | cons e run =>
      have hrest := ih (fun hmem => hne (List.mem_cons_of_mem _ hmem))
        (fun r hr => hchain r (List.mem_cons_of_mem _ hr)) hgap.tail
      rw [coalesce] at hrest
      rw [coalesce, List.flatten_cons, List.foldr_append, hrest, List.filterMap_cons]
      refine foldr_join_of_isChain (hchain _ List.mem_cons_self) ?_
      cases runs with
      | nil => simp
      | cons r' runs =>
        cases r' with
        | nil => exact absurd (List.mem_cons_of_mem _ List.mem_cons_self) hne
        | cons f run' =>
          obtain ⟨⟨_, _, hnot⟩, -⟩ := List.isChain_cons_cons.1 hgap
          rw [List.getLast_eq_getLastD] at hnot
          rintro _ ⟨⟩
          exact hnot

theorem coalesce_eq_filterMap (es : List Extent) :
    coalesce es = (es.splitBy adjoins).filterMap hull? := by
  have h := coalesce_flatten (List.nil_notMem_splitBy adjoins es)
    (fun _ => List.isChain_of_mem_splitBy) (List.isChain_getLast_head_splitBy adjoins es)
  rwa [List.flatten_splitBy] at h

/-! ## Placing before merging

Placing an extent is inserting it and merging. If the entries were merged before, what has to be
shown is that merging once, after the extent was inserted, has the same result. There are two cases:
the extent comes first, or it comes after the first entry, which may be merged with what follows or
not (`place_join`). -/

/-- Three extents may be merged from either side. -/
theorem merge_merge (e f g : Extent) : (e.merge f).merge g = e.merge (f.merge g) := by
  simp only [merge, mk.injEq, true_and]
  omega

theorem join_join_of_adjoins (h : e.adjoins f = true) (es : List Extent) :
    join e (join f es) = join (e.merge f) es := by
  have hsame : ∀ g, (e.merge f).adjoins g = f.adjoins g := by
    intro g
    simp only [adjoins, stop_merge h]
    rw [show (e.merge f).block.chunk = f.block.chunk from (adjoins_iff.1 h).1]
  cases es with
  | nil => exact join_of_adjoins h []
  | cons g es =>
    rw [join, join, hsame g]
    split
    · have h' : e.adjoins (f.merge g) = true := h
      rw [join_of_adjoins h', merge_merge]
    · exact join_of_adjoins h _

/-- What is beside all extents is beside what they are merged to. -/
theorem beside_coalesce (h : e.Beside es) : e.Beside (coalesce es) := by
  refine forall_coalesce (fun f g hf hg hadj => ?_) h
  have hstop := stop_merge hadj
  obtain ⟨hc, hs⟩ := adjoins_iff.1 hadj
  have he := e.start_lt_stop
  simp only [Apart, Before, hstop, headerSize] at *
  simp only [merge]
  omega

theorem place_cons_of_not_precedes (h : ¬ e.Precedes f) (es : List Extent) :
    place e (f :: es) = join f (place e es) := by
  rw [place, List.orderedInsert, if_neg h]
  rfl

/-- Placing an extent behind `f` has nothing to do with what `f` is merged with. -/
theorem place_join (hfe : f.Before e) (hb : e.Beside es) :
    place e (join f es) = join f (place e es) := by
  have hf : ¬ e.Precedes f := fun hp => by
    have hp' := hfe.precedes
    simp only [Precedes] at hp hp'
    omega
  cases es with
  | nil => exact place_cons_of_not_precedes hf []
  | cons g es =>
    rw [join]
    split
    · rename_i hadj
      -- No room is left between `f` and `g`, so `e` comes after both.
      have hg : ¬ e.Precedes g := fun hp => by
        have heg := hb.before_of_precedes List.mem_cons_self hp
        have he := e.start_lt_stop
        have hs := adjoins_iff.1 hadj
        simp only [Before, headerSize] at hfe heg he
        omega
      have hfg : ¬ e.Precedes (f.merge g) := hf
      rw [place_cons_of_not_precedes hfg, place_cons_of_not_precedes hg,
        join_join_of_adjoins hadj]
    · exact place_cons_of_not_precedes hf _

/-- **An extent may be placed before the entries are merged.** -/
theorem place_coalesce (h : es.Pairwise Before) (hb : e.Beside es) :
    place e (coalesce es) = coalesce (es.orderedInsert Precedes e) := by
  induction es with
  | nil => rfl
  | cons f rest ih =>
    have hrest := (List.pairwise_cons.1 h).2
    have hbr : e.Beside rest := fun k hk => hb k (List.mem_cons_of_mem _ hk)
    rw [List.orderedInsert]
    split
    · rename_i hp
      have hclear := pairwise_clear_coalesce h
      obtain ⟨g, more, hjoin, hblock, -⟩ := exists_join_eq f (coalesce rest)
      have hg : e.Precedes g := by simpa only [Precedes, hblock] using hp
      have hcons : coalesce (f :: rest) = g :: more := hjoin
      rw [hcons] at hclear
      have hkept := coalesce_of_clear hclear
      calc place e (coalesce (f :: rest))
          = coalesce (e :: g :: more) := by rw [hcons, place, List.orderedInsert, if_pos hg]
        _ = join e (coalesce (g :: more)) := rfl
        _ = join e (coalesce (f :: rest)) := by rw [hkept, hcons]
    · rename_i hp
      have hfe := hb.before_of_not_precedes List.mem_cons_self hp
      calc place e (join f (coalesce rest))
          = join f (place e (coalesce rest)) := place_join hfe (beside_coalesce hbr)
        _ = join f (coalesce (rest.orderedInsert Precedes e)) := by rw [ih hrest hbr]

/-! ## Any order

Extents that are apart have one order by address, so sorting them is the same for every permutation.
-/

theorem pairwise_before_insertionSort (h : es.Pairwise Apart) :
    (es.insertionSort Precedes).Pairwise Before := by
  induction es with
  | nil => exact .nil
  | cons e es ih =>
    obtain ⟨he, hes⟩ := List.pairwise_cons.1 h
    refine pairwise_before_orderedInsert (ih hes) fun f hf => ?_
    exact he f ((List.perm_insertionSort Precedes es).mem_iff.1 hf)

/-- Apart extents are sorted in one way. -/
theorem insertionSort_congr (h : es.Pairwise Apart) (hp : es.Perm fs) :
    es.insertionSort Precedes = fs.insertionSort Precedes := by
  have h' : fs.Pairwise Apart := (List.Perm.pairwise_iff Apart.symm hp).1 h
  refine eq_of_perm_of_before (pairwise_before_insertionSort h)
    (pairwise_before_insertionSort h') ?_
  exact (List.perm_insertionSort _ es).trans (hp.trans (List.perm_insertionSort _ fs).symm)

theorem foldl_place_coalesce (h : es.Pairwise Before) (ha : (es ++ fs).Pairwise Apart) :
    fs.foldl (fun entries e => place e entries) (coalesce es) = maximalRuns (es ++ fs) := by
  -- On the extents that are still to be placed; the entries are those before, merged.
  induction fs generalizing es with
  | nil =>
    rw [List.append_nil, maximalRuns, List.foldl_nil, coalesce_eq_filterMap,
      (h.imp Before.precedes).insertionSort_eq]
  | cons e fs ih =>
    have hperm : (es ++ e :: fs).Perm (es.orderedInsert Precedes e ++ fs) :=
      List.perm_middle.trans ((List.perm_orderedInsert Precedes e es).symm.append_right fs)
    have hb : e.Beside es := fun f hf =>
      ((List.pairwise_append.1 ha).2.2 f hf e List.mem_cons_self).symm
    have ha' := (List.Perm.pairwise_iff Apart.symm hperm).1 ha
    rw [List.foldl_cons, place_coalesce h hb, ih (pairwise_before_orderedInsert h hb) ha',
      maximalRuns, maximalRuns, insertionSort_congr ha hperm]

/-- **Placing extents one after another makes maximal runs of the extents there are.** -/
theorem foldl_place (h : es.Pairwise Clear) (ha : (es ++ fs).Pairwise Apart) :
    fs.foldl (fun entries e => place e entries) es = maximalRuns (es ++ fs) := by
  have hplaced := foldl_place_coalesce (h.imp Clear.before) ha
  rwa [coalesce_of_clear h] at hplaced

theorem maximalRuns_congr (h : es.Pairwise Apart) (hp : es.Perm fs) :
    maximalRuns es = maximalRuns fs := by
  rw [maximalRuns, maximalRuns, insertionSort_congr h hp]

end Extent

end ArenaAlloc

import ArenaAlloc.Proofs.Extent
import Mathlib.Data.List.Sort

/-!
# The free list as plain data

Nothing here reads memory. A list of extents in address order stands for the free list, and the
question of this file is what inserting an extent into such a list does, so that the file about
links and headers (`Insertion`) only has to show that memory does the same.

* `coalesce` merges every two neighbours that touch; `place` puts an extent at its place in the
  order and coalesces.
* Merging loses no byte and counts none twice: `coverage_place`.
* It leaves no two entries that touch: `pairwise_clear_place`.
* It covers whatever was covered by one of the old entries: `exists_within_place`.
* A list of entries that do not touch is the only one with its bytes: `eq_of_holds_iff`.

## Why the whole list is coalesced

The allocator merges at most twice for an insertion: the new entry with the one behind it, and the
one before it with the result. `place` instead folds over the whole list. Under the invariant that
the old list is already coalesced the two agree (`foldr_join_of_clear`, `coalesce_of_clear`), and
the fold is the definition to reason about: its lemmas are inductions with one step (`join`), they
need no case analysis on where the new entry went, and the order in which entries are placed does
not show in the result.

## Why bytes determine the list

`eq_of_holds_iff` is the reason that the order of frees does not matter. A free list whose entries
do not touch is the decomposition of its set of bytes into maximal runs. So two histories that leave
the same bytes free leave the same list, entry for entry, without any argument that commutes two
insertions.
-/

namespace ArenaAlloc

namespace Extent

/-- Whether `f` starts at the byte where `e` ends. -/
def adjoins (e f : Extent) : Bool :=
  e.block.chunk == f.block.chunk && e.stop == f.block.start

/-- `e` grown over the header and payload of `f`. -/
def merge (e f : Extent) : Extent := ⟨e.block, e.size + headerSize + f.size⟩

/-- Put `e` in front of a list, merged with the first of it where they touch. -/
def join (e : Extent) : List Extent → List Extent
  | [] => [e]
  | f :: rest => if e.adjoins f then e.merge f :: rest else e :: f :: rest

/-- The same bytes, with every two neighbours merged that touch. -/
def coalesce (es : List Extent) : List Extent := es.foldr join []

/-- The order of the free list on addresses alone. -/
def Precedes (e f : Extent) : Prop :=
  e.block.chunk < f.block.chunk ∨
    e.block.chunk = f.block.chunk ∧ e.block.start < f.block.start

instance : DecidableRel Precedes :=
  fun e f => inferInstanceAs (Decidable (e.block.chunk < f.block.chunk ∨ _))

/-- The list with `e` at its place in the order, merged with the neighbours that it touches. -/
def place (e : Extent) (es : List Extent) : List Extent := coalesce (es.orderedInsert Precedes e)

variable {e f g : Extent} {es fs : List Extent} {a : Address}

/-! ## Merging

Each fact about `coalesce` is one about `join` and an induction. `join` looks at the head of a list
only, so its lemmas are two cases each: the head touches, or it does not. -/

theorem adjoins_iff :
    e.adjoins f = true ↔ e.block.chunk = f.block.chunk ∧ e.stop = f.block.start := by
  simp [adjoins]

/-- A merged extent ends where the second of the two ended. -/
theorem stop_merge (h : e.adjoins f = true) : (e.merge f).stop = f.stop := by
  have hs := (adjoins_iff.1 h).2
  simp only [stop, merge] at *
  omega

/-- In order and not touching means that at least a byte lies between. -/
theorem clear_of_not_adjoins (h : e.Before f) (ha : e.adjoins f = false) : e.Clear f := by
  rw [Bool.eq_false_iff, Ne, adjoins_iff] at ha
  simp only [Before, Clear] at *
  omega

theorem Clear.not_adjoins (h : e.Clear f) : e.adjoins f = false := by
  rw [Bool.eq_false_iff, Ne, adjoins_iff]
  simp only [Clear] at h
  omega

/-- An extent does not touch what starts no later than itself: merging only looks forward. -/
theorem not_adjoins_of_le (h : f.block.chunk < e.block.chunk ∨
    f.block.chunk = e.block.chunk ∧ f.block.start ≤ e.block.start) : e.adjoins f = false := by
  have he := e.start_lt_stop
  simp only [headerSize] at he
  rw [Bool.eq_false_iff, Ne, adjoins_iff]
  omega

/-- In a coalesced list no entry touches another, nor itself. -/
theorem not_adjoins_of_pairwise (h : es.Pairwise Clear) (he : e ∈ es) (hf : f ∈ es) :
    e.adjoins f = false := by
  induction es with
  | nil => simp at he
  | cons g rest ih =>
    obtain ⟨hg, hrest⟩ := List.pairwise_cons.1 h
    rcases List.mem_cons.1 he with rfl | he'
    · rcases List.mem_cons.1 hf with rfl | hf'
      · exact not_adjoins_of_le (.inr ⟨rfl, Nat.le_refl _⟩)
      · exact (hg f hf').not_adjoins
    · rcases List.mem_cons.1 hf with rfl | hf'
      · have hclear := hg e he'
        have hs := f.start_lt_stop
        refine not_adjoins_of_le ?_
        simp only [Clear] at hclear
        omega
      · exact ih hrest he' hf'

/-- A merged extent covers what the two covered, the header of the second included. -/
theorem coverage_merge (h : e.adjoins f = true) (es : List Extent) (a : Address) :
    coverage ((e.merge f :: es).map span) a = coverage ((e :: f :: es).map span) a := by
  obtain ⟨hc, hs⟩ := adjoins_iff.1 h
  have hstop := stop_merge h
  have he := e.start_lt_stop
  have hf := f.start_lt_stop
  -- The merged span is the union of the two, and the two are disjoint, so the counts add up.
  have hm : (e.merge f).span.covers a = true ↔ e.span.covers a = true ∨ f.span.covers a = true := by
    simp only [covers_span, hstop]
    simp only [merge]
    omega
  have hdisj : ¬ (e.span.covers a = true ∧ f.span.covers a = true) := by
    simp only [covers_span]
    omega
  simp only [List.map_cons, coverage_cons]
  by_cases hea : e.span.covers a = true
  · have hfa : ¬ f.span.covers a = true := fun hfa => hdisj ⟨hea, hfa⟩
    rw [if_pos (hm.2 (.inl hea)), if_pos hea, if_neg hfa]
  · by_cases hfa : f.span.covers a = true
    · rw [if_pos (hm.2 (.inr hfa)), if_neg hea, if_pos hfa]
    · rw [if_neg fun hma => (hm.1 hma).elim hea hfa, if_neg hea, if_neg hfa]

/-- The step of `coverage_coalesce`. -/
theorem coverage_join (e : Extent) (es : List Extent) (a : Address) :
    coverage ((join e es).map span) a = coverage ((e :: es).map span) a := by
  cases es with
  | nil => rfl
  | cons f rest =>
    rw [join]
    split
    · exact coverage_merge ‹_› rest a
    · rfl

/-- **Merging neighbours loses no byte and counts none twice.** -/
theorem coverage_coalesce (es : List Extent) (a : Address) :
    coverage ((coalesce es).map span) a = coverage (es.map span) a := by
  induction es with
  | nil => rfl
  | cons e es ih =>
    have hj := coverage_join e (coalesce es) a
    simp only [List.map_cons, coverage_cons] at hj ⊢
    rw [← ih]
    exact hj

/-- Whatever it is merged with, the first entry is at the block that was put in front. -/
theorem head?_join (e : Extent) (es : List Extent) :
    (join e es).head?.map block = some e.block := by
  cases es with
  | nil => rfl
  | cons f rest =>
    rw [join]
    split <;> rfl

/-- What is put in front starts where it did and stops where it did, or where one of the list does.
-/
theorem exists_join_eq (e : Extent) (es : List Extent) :
    ∃ g rest, join e es = g :: rest ∧ g.block = e.block ∧
      (g.stop = e.stop ∨ ∃ f ∈ es, g.stop = f.stop) := by
  cases es with
  | nil => exact ⟨e, [], rfl, rfl, .inl rfl⟩
  | cons f rest =>
    rw [join]
    split
    · rename_i hadj
      exact ⟨e.merge f, rest, rfl, rfl, .inr ⟨f, List.mem_cons_self, stop_merge hadj⟩⟩
    · exact ⟨e, f :: rest, rfl, rfl, .inl rfl⟩

theorem forall_before_join (he : g.Before e) (h : ∀ f ∈ es, g.Before f) :
    ∀ f ∈ join e es, g.Before f := by
  cases es with
  | nil => simpa [join] using he
  | cons f rest =>
    rw [join]
    split
    · intro k hk
      rcases List.mem_cons.1 hk with rfl | hk
      · exact he
      · exact h k (List.mem_cons_of_mem _ hk)
    · intro k hk
      rcases List.mem_cons.1 hk with rfl | hk
      · exact he
      · exact h k hk

theorem pairwise_before_join (h : (e :: es).Pairwise Before) : (join e es).Pairwise Before := by
  cases es with
  | nil => exact List.pairwise_singleton _ _
  | cons f rest =>
    obtain ⟨he, hfr⟩ := List.pairwise_cons.1 h
    obtain ⟨hf, hrest⟩ := List.pairwise_cons.1 hfr
    rw [join]
    split
    · rename_i hadj
      refine List.pairwise_cons.2 ⟨fun k hk => ?_, hrest⟩
      have hk := hf k hk
      have hstop := stop_merge hadj
      have hc := (adjoins_iff.1 hadj).1
      simp only [Before, hstop] at hk ⊢
      simpa only [merge, hc] using hk
    · exact h

theorem forall_before_coalesce (h : ∀ f ∈ es, g.Before f) : ∀ f ∈ coalesce es, g.Before f := by
  induction es with
  | nil => simp [coalesce]
  | cons e es ih =>
    exact forall_before_join (h e List.mem_cons_self)
      (ih fun f hf => h f (List.mem_cons_of_mem _ hf))

/-- The step of `pairwise_clear_coalesce`. The list behind is `Clear` already, so only the new head
has to be compared, and with the first of the list alone. -/
theorem pairwise_clear_join (he : ∀ f ∈ es, e.Before f) (h : es.Pairwise Clear) :
    (join e es).Pairwise Clear := by
  cases es with
  | nil => exact List.pairwise_singleton _ _
  | cons f rest =>
    obtain ⟨hf, hrest⟩ := List.pairwise_cons.1 h
    have hef := he f List.mem_cons_self
    rw [join]
    split
    · rename_i hadj
      refine List.pairwise_cons.2 ⟨fun k hk => ?_, hrest⟩
      have hk := hf k hk
      have hstop := stop_merge hadj
      have hc := (adjoins_iff.1 hadj).1
      simp only [Clear, hstop] at hk ⊢
      simpa only [merge, hc] using hk
    · rename_i hadj
      have hclear := clear_of_not_adjoins hef (by simpa using hadj)
      refine List.pairwise_cons.2 ⟨fun k hk => ?_, h⟩
      rcases List.mem_cons.1 hk with rfl | hk
      · exact hclear
      · exact hef.trans_clear (hf k hk)

/-- **After coalescing no two entries touch.** -/
theorem pairwise_clear_coalesce (h : es.Pairwise Before) : (coalesce es).Pairwise Clear := by
  induction es with
  | nil => exact .nil
  | cons e es ih =>
    obtain ⟨he, hes⟩ := List.pairwise_cons.1 h
    exact pairwise_clear_join (forall_before_coalesce he) (ih hes)

/-- Coalescing a coalesced list does nothing. -/
theorem coalesce_of_clear (h : es.Pairwise Clear) : coalesce es = es := by
  induction es with
  | nil => rfl
  | cons e es ih =>
    obtain ⟨he, hes⟩ := List.pairwise_cons.1 h
    -- One step of the fold; the induction hypothesis says what it joins to.
    show join e (coalesce es) = e :: es
    rw [ih hes]
    cases es with
    | nil => rfl
    | cons f rest =>
      have hadj := (he f List.mem_cons_self).not_adjoins
      simp [join, hadj]

/-! ## What merging keeps

Merging takes entries away, so a fact about the old entries says nothing about the new ones by
itself. What carries over is what `merge` preserves (`forall_coalesce`), and that an old entry lies
within a new one (`exists_within_coalesce`). -/

/-- A property that merging keeps holds of the merged list. -/
theorem forall_join {P : Extent → Prop}
    (hmerge : ∀ e f, P e → P f → e.adjoins f = true → P (e.merge f)) (he : P e)
    (h : ∀ f ∈ es, P f) : ∀ g ∈ join e es, P g := by
  cases es with
  | nil => exact List.forall_mem_singleton.2 he
  | cons f rest =>
    obtain ⟨hf, hrest⟩ := List.forall_mem_cons.1 h
    rw [join]
    split
    · exact List.forall_mem_cons.2 ⟨hmerge e f he hf ‹_›, hrest⟩
    · exact List.forall_mem_cons.2 ⟨he, h⟩

theorem forall_coalesce {P : Extent → Prop}
    (hmerge : ∀ e f, P e → P f → e.adjoins f = true → P (e.merge f)) (h : ∀ e ∈ es, P e) :
    ∀ g ∈ coalesce es, P g := by
  induction es with
  | nil => simp [coalesce]
  | cons e es ih =>
    obtain ⟨he, hes⟩ := List.forall_mem_cons.1 h
    exact forall_join hmerge he (ih hes)

theorem Within.refl (e : Extent) : e.Within e := ⟨rfl, Nat.le_refl _, Nat.le_refl _⟩

theorem Within.trans (h : e.Within f) (h' : f.Within g) : e.Within g :=
  ⟨h.1.trans h'.1, Nat.le_trans h'.2.1 h.2.1, Nat.le_trans h.2.2 h'.2.2⟩

theorem within_merge_left (h : e.adjoins f = true) : e.Within (e.merge f) := by
  have hs := (adjoins_iff.1 h).2
  have hf := f.start_lt_stop
  refine ⟨rfl, Nat.le_refl _, ?_⟩
  rw [stop_merge h]
  omega

theorem within_merge_right (h : e.adjoins f = true) : f.Within (e.merge f) := by
  obtain ⟨hc, hs⟩ := adjoins_iff.1 h
  have he := e.start_lt_stop
  refine ⟨hc.symm, ?_, Nat.le_of_eq (stop_merge h).symm⟩
  simp only [merge]
  omega

/-- No entry is lost by merging: it lies within one of the result. -/
theorem exists_within_join (h : f ∈ e :: es) : ∃ g ∈ join e es, f.Within g := by
  cases es with
  | nil => exact ⟨f, by simpa [join] using h, Within.refl f⟩
  | cons k rest =>
    rw [join]
    split
    · rename_i hadj
      rcases List.mem_cons.1 h with rfl | h
      · exact ⟨_, List.mem_cons_self, within_merge_left hadj⟩
      rcases List.mem_cons.1 h with rfl | h
      · exact ⟨_, List.mem_cons_self, within_merge_right hadj⟩
      · exact ⟨f, List.mem_cons_of_mem _ h, Within.refl f⟩
    · exact ⟨f, h, Within.refl f⟩

theorem exists_within_coalesce (h : f ∈ es) : ∃ g ∈ coalesce es, f.Within g := by
  induction es with
  | nil => simp at h
  | cons e es ih =>
    rcases List.mem_cons.1 h with rfl | h
    · exact exists_within_join List.mem_cons_self
    · obtain ⟨k, hk, hfk⟩ := ih h
      obtain ⟨g, hg, hkg⟩ := exists_within_join (e := e) (List.mem_cons_of_mem e hk)
      exact ⟨g, hg, hfk.trans hkg⟩

/-- In front of a list whose first block is that of `f`, entries that do not touch each other or `f`
stay as they are. -/
theorem foldr_join_of_clear {xs ys : List Extent} (h : (xs ++ [f]).Pairwise Clear)
    (hys : ys.head?.map block = some f.block) : xs.foldr join ys = xs ++ ys := by
  induction xs with
  | nil => rfl
  | cons x xs ih =>
    obtain ⟨hx, hxs⟩ := List.pairwise_cons.1 h
    rw [List.foldr_cons, ih hxs]
    cases xs with
    | nil =>
      cases ys with
      | nil => rfl
      | cons y ys =>
        have hy : y.block = f.block := by simpa using hys
        have hadj : x.adjoins f = false := (hx f (by simp)).not_adjoins
        have hadj' : x.adjoins y = false := by simpa only [adjoins, hy] using hadj
        simp [join, hadj']
    | cons x' xs =>
      have hadj := (hx x' (by simp)).not_adjoins
      simp [join, hadj]

/-! ## Placing an extent

The place of an extent is found by comparing starts, as the walk over the free list does. `Precedes`
is that comparison, and for extents that are apart it decides which of the two is before the other
(`Beside.before_of_precedes`). -/

theorem Before.precedes (h : e.Before f) : e.Precedes f := by
  have he := e.start_lt_stop
  simp only [headerSize] at he
  simp only [Before, Precedes] at *
  omega

/-- For extents that share no byte, comparing the starts is enough. -/
theorem Beside.before_of_precedes (h : e.Beside es) (hf : f ∈ es) (hp : e.Precedes f) :
    e.Before f := by
  rcases h f hf with hb | hb
  · exact hb
  · have := hb.precedes
    simp only [Precedes] at *
    omega

theorem Beside.before_of_not_precedes (h : e.Beside es) (hf : f ∈ es) (hp : ¬ e.Precedes f) :
    f.Before e :=
  (h f hf).resolve_left fun hb => hp hb.precedes

theorem Before.trans (h : e.Before f) (h' : f.Before g) : e.Before g := by
  have hf := f.start_lt_stop
  simp only [Before] at *
  omega

/-- The library's `List.orderedInsert` keeps a list sorted by a total and transitive relation.
`Before` is neither on extents that overlap, so the order is followed here under the hypothesis that
the new entry overlaps none. -/
theorem pairwise_before_orderedInsert (h : es.Pairwise Before) (hb : e.Beside es) :
    (es.orderedInsert Precedes e).Pairwise Before := by
  induction es with
  | nil => exact List.pairwise_singleton _ _
  | cons f rest ih =>
    obtain ⟨hf, hrest⟩ := List.pairwise_cons.1 h
    have hbr : e.Beside rest := fun k hk => hb k (List.mem_cons_of_mem _ hk)
    rw [List.orderedInsert]
    split
    · rename_i hp
      have hef := hb.before_of_precedes List.mem_cons_self hp
      refine List.pairwise_cons.2 ⟨fun k hk => ?_, h⟩
      rcases List.mem_cons.1 hk with rfl | hk
      · exact hef
      · exact hef.trans (hf k hk)
    · rename_i hp
      -- The entry goes behind `f`, so `f` is before all of the rest and before the entry.
      refine List.pairwise_cons.2 ⟨fun k hk => ?_, ih hrest hbr⟩
      rcases (List.mem_orderedInsert Precedes).1 hk with rfl | hk
      · exact hb.before_of_not_precedes List.mem_cons_self hp
      · exact hf k hk

/-- **A free list with one more entry has no two entries that touch.** -/
theorem pairwise_clear_place (h : es.Pairwise Clear) (hb : e.Beside es) :
    (place e es).Pairwise Clear :=
  pairwise_clear_coalesce (pairwise_before_orderedInsert (h.imp Clear.before) hb)

/-- **It holds the bytes that it held and those of the new entry.** -/
theorem coverage_place (e : Extent) (es : List Extent) (a : Address) :
    coverage ((place e es).map span) a = coverage ((e :: es).map span) a := by
  rw [place, coverage_coalesce]
  exact coverage_perm ((List.perm_orderedInsert Precedes e es).map span) a

/-- The new entry and the old ones are all still there, as parts of entries. -/
theorem exists_within_place (h : f ∈ e :: es) : ∃ g ∈ place e es, f.Within g :=
  exists_within_coalesce ((List.perm_orderedInsert Precedes e es).mem_iff.2 h)

theorem forall_place {P : Extent → Prop}
    (hmerge : ∀ e f, P e → P f → e.adjoins f = true → P (e.merge f)) (h : ∀ f ∈ e :: es, P f) :
    ∀ g ∈ place e es, P g :=
  forall_coalesce hmerge fun f hf => h f ((List.perm_orderedInsert Precedes e es).mem_iff.1 hf)

/-- An entry starts where the new extent or one of the old entries started: merging makes no new
blocks. -/
theorem block_mem_place (h : g ∈ place e es) : g.block ∈ (e :: es).map block := by
  refine forall_place (P := fun g => g.block ∈ (e :: es).map block) ?_ ?_ g h
  · exact fun e f he _ _ => he
  · exact fun f hf => List.mem_map_of_mem hf

theorem Aligned.merge (he : e.Aligned) (hf : f.Aligned) : (e.merge f).Aligned :=
  ⟨he.1, Nat.dvd_add (Nat.dvd_add he.2 ⟨2, rfl⟩) hf.2⟩

theorem aligned_place (h : ∀ f ∈ e :: es, f.Aligned) : ∀ g ∈ place e es, g.Aligned :=
  forall_place (fun _ _ he hf _ => he.merge hf) h

/-! ## A coalesced list is determined by its bytes

The comparison goes by the first entries. Each list holds the first byte of the other, so neither
starts before the other; and neither first entry is longer, since the byte behind an entry is held
by nobody (`not_holds_stop`). With the first entries equal, the tails hold the same bytes. -/

theorem eq_or_clear (h : es.Pairwise Clear) (he : e ∈ es) (hf : f ∈ es) :
    e = f ∨ e.Clear f ∨ f.Clear e := by
  induction es with
  | nil => cases he
  | cons g es ih =>
    obtain ⟨hg, hes⟩ := List.pairwise_cons.1 h
    rcases List.mem_cons.1 he with rfl | he'
    · rcases List.mem_cons.1 hf with rfl | hf'
      · exact .inl rfl
      · exact .inr (.inl (hg f hf'))
    · rcases List.mem_cons.1 hf with rfl | hf'
      · exact .inr (.inr (hg e he'))
      · exact ih hes he' hf'

/-- One of the extents holds the byte at `a`. -/
def Holds (es : List Extent) (a : Address) : Prop := ∃ e ∈ es, e.span.covers a = true

theorem holds_cons : Holds (e :: es) a ↔ e.span.covers a = true ∨ Holds es a := by
  simp only [Holds, List.exists_mem_cons_iff]

theorem holds_iff_coverage : Holds es a ↔ 0 < coverage (es.map span) a := by
  simp only [coverage_pos_iff, List.mem_map, exists_exists_and_eq_and, Holds]

theorem holds_place : Holds (place e es) a ↔ e.span.covers a = true ∨ Holds es a := by
  rw [holds_iff_coverage, coverage_place, ← holds_iff_coverage, holds_cons]

theorem holds_start (e : Extent) (es : List Extent) :
    Holds (e :: es) ⟨e.block.chunk, e.block.start⟩ := by
  have hlt := Nat.lt_of_lt_of_le (Nat.lt_add_of_pos_right (by decide)) e.start_lt_stop
  exact holds_cons.2 (.inl (covers_span.2 ⟨rfl, Nat.le_refl _, hlt⟩))

/-- No extent holds the byte behind another one, since none touches another. -/
theorem not_holds_stop (h : es.Pairwise Clear) (he : e ∈ es) :
    ¬ Holds es ⟨e.block.chunk, e.stop⟩ := by
  rintro ⟨f, hf, hcov⟩
  obtain ⟨hchunk, hle, hlt⟩ := covers_span.1 hcov
  simp only at hchunk hle hlt
  rcases eq_or_clear h he hf with rfl | hclear | hclear
  · exact Nat.lt_irrefl _ hlt
  · simp only [Clear] at hclear
    omega
  · have hes := e.start_lt_stop
    simp only [Clear] at hclear
    omega

/-- Nothing is held before the first extent starts. -/
theorem start_le_of_holds (h : (e :: es).Pairwise Clear) (ha : Holds (e :: es) a) :
    e.block.chunk < a.chunk ∨ e.block.chunk = a.chunk ∧ e.block.start ≤ a.offset := by
  obtain ⟨f, hf, hcov⟩ := ha
  obtain ⟨hchunk, hstart, -⟩ := covers_span.1 hcov
  rcases List.mem_cons.1 hf with rfl | hf
  · exact .inr ⟨hchunk.symm, hstart⟩
  · have hclear := (List.pairwise_cons.1 h).1 f hf
    have he := e.start_lt_stop
    simp only [Clear, headerSize] at hclear he
    omega

/-- If all bytes of one list are in the other, then the other starts no later, and if it starts at
the same byte its first extent is no shorter. -/
theorem head_of_holds (h : (f :: fs).Pairwise Clear)
    (hsub : ∀ a, Holds (e :: es) a → Holds (f :: fs) a) :
    f.block.chunk < e.block.chunk ∨ f.block.chunk = e.block.chunk ∧
      (f.block.start < e.block.start ∨ f.block.start = e.block.start ∧ e.stop ≤ f.stop) := by
  have hf := f.start_lt_stop
  have hstart := start_le_of_holds h (hsub _ (holds_start e es))
  by_cases hlong : f.block.chunk = e.block.chunk ∧ f.block.start = e.block.start ∧
      f.stop < e.stop
  · obtain ⟨hchunk, hsame, hlt⟩ := hlong
    have hbehind : Holds (e :: es) ⟨f.block.chunk, f.stop⟩ :=
      holds_cons.2 (.inl (covers_span.2 ⟨hchunk, by simp only; omega, hlt⟩))
    exact absurd (hsub _ hbehind) (not_holds_stop h List.mem_cons_self)
  · simp only at hstart
    omega

/-- What the tail holds is outside the head, so the other tail holds it. -/
theorem holds_tail (h : (e :: es).Pairwise Clear)
    (hsub : ∀ a, Holds (e :: es) a → Holds (e :: fs) a) (ha : Holds es a) : Holds fs a := by
  refine (holds_cons.1 (hsub a (holds_cons.2 (.inr ha)))).resolve_left fun hcov => ?_
  obtain ⟨f, hf, hcov'⟩ := ha
  have hclear := (List.pairwise_cons.1 h).1 f hf
  rw [covers_span] at hcov hcov'
  simp only [Clear] at hclear
  omega

/-- **Extents that do not touch are determined by the bytes they hold.** -/
theorem eq_of_holds_iff (h : es.Pairwise Clear) (h' : fs.Pairwise Clear)
    (hiff : ∀ a, Holds es a ↔ Holds fs a) : es = fs := by
  have hnil : ∀ {e : Extent} {es : List Extent}, ¬ ∀ a, Holds (e :: es) a → Holds [] a := by
    intro e es hsub
    obtain ⟨f, hf, -⟩ := hsub _ (holds_start e es)
    cases hf
  induction es generalizing fs with
  | nil =>
    cases fs with
    | nil => rfl
    | cons f fs => exact absurd (fun a => (hiff a).2) hnil
  | cons e es ih =>
    cases fs with
    | nil => exact absurd (fun a => (hiff a).1) hnil
    | cons f fs =>
      -- Once in each direction: `f` starts no later than `e` and is no shorter, and the same with
      -- the two exchanged.
      have hfirst := head_of_holds h' fun a => (hiff a).1
      have hsecond := head_of_holds h fun a => (hiff a).2
      have hef : e = f := by
        obtain ⟨⟨chunk, start⟩, size⟩ := e
        obtain ⟨⟨chunk', start'⟩, size'⟩ := f
        simp only [stop, mk.injEq, Block.mk.injEq] at hfirst hsecond ⊢
        omega
      subst hef
      rw [ih (List.pairwise_cons.1 h).2 (List.pairwise_cons.1 h').2 fun a =>
        ⟨holds_tail h fun a => (hiff a).1, holds_tail h' fun a => (hiff a).2⟩]

/-! ## Where an extent goes

An allocation that takes a block off the list and the free that gives it back meet here: placing an
entry that was taken out restores the list (`place_middle`), and a freed block becomes an entry of
its own, or not, according to its neighbour before it (`block_mem_place_iff`). -/

/-- Only one order of extents is their address order. -/
theorem eq_of_perm_of_before (h : es.Pairwise Before) (h' : fs.Pairwise Before)
    (hp : es.Perm fs) : es = fs := by
  refine List.Perm.eq_of_pairwise (fun e f _ _ hef hfe => ?_) h h' hp
  have hef := hef.precedes
  have hfe := hfe.precedes
  simp only [Precedes] at hef hfe
  omega

/-- An extent that was in a coalesced list goes back to where it was. -/
theorem place_middle {pre post : List Extent} (h : (pre ++ e :: post).Pairwise Clear) :
    place e (pre ++ post) = pre ++ e :: post := by
  have hsub : (pre ++ post).Sublist (pre ++ e :: post) :=
    (List.sublist_cons_self e post).append_left pre
  have hapart : (pre ++ e :: post).Pairwise Apart := h.imp fun hclear => .inl hclear.before
  have hbeside : e.Beside (pre ++ post) :=
    (List.pairwise_cons.1 ((List.Perm.pairwise_iff Apart.symm List.perm_middle).1 hapart)).1
  -- The insertion yields a list in address order with the same entries, and there is only one.
  have hordered := pairwise_before_orderedInsert ((h.sublist hsub).imp Clear.before) hbeside
  have hperm : ((pre ++ post).orderedInsert Precedes e).Perm (pre ++ e :: post) :=
    (List.perm_orderedInsert Precedes e _).trans List.perm_middle.symm
  rw [place, eq_of_perm_of_before hordered (h.imp Clear.before) hperm, coalesce_of_clear h]

/-- **An extent starts an entry** of the list in which it was placed exactly if none of the others
ends where it starts. -/
theorem block_mem_place_iff (h : es.Pairwise Clear) (hb : e.Beside es) :
    e.block ∈ (place e es).map block ↔ ∀ f ∈ es, f.adjoins e = false := by
  have hclear := pairwise_clear_place h hb
  constructor
  · intro hmem f hf
    obtain ⟨g, hg, hge⟩ := List.mem_map.1 hmem
    obtain ⟨k, hk, hchunk, hstart, hstop⟩ := exists_within_place (List.mem_cons_of_mem e hf)
    rw [Bool.eq_false_iff, Ne, adjoins_iff]
    rintro ⟨hfe, hend⟩
    -- The entry of `f` reaches to where that of `e` starts, so the two would touch.
    have hfs := f.start_lt_stop
    have hgs := g.start_lt_stop
    rcases eq_or_clear hclear hg hk with rfl | hgk | hkg
    · simp only [hge, headerSize] at hstart hfs
      omega
    · simp only [Clear, hge, headerSize] at hgk hgs hfs
      omega
    · simp only [Clear, hge] at hkg
      omega
  · intro hnone
    obtain ⟨g, hg, hchunk, hstart, hstop⟩ :=
    exists_within_place (List.mem_cons_self (a := e) (l := es))
    obtain ⟨f, hf, hfg⟩ := List.mem_map.1 (block_mem_place hg)
    rcases List.mem_cons.1 hf with rfl | hf
    · exact List.mem_map.2 ⟨g, hg, hfg.symm⟩
    · -- The entry would start with `f` and go on behind it, but nothing holds the byte there.
      have hnot := hnone f hf
      have hapart := hb f hf
      have hes := e.start_lt_stop
      have hfs := f.start_lt_stop
      rw [Bool.eq_false_iff, Ne, adjoins_iff] at hnot
      simp only [Apart, Before, headerSize] at hapart hes hfs
      rw [← hfg] at hchunk hstart
      have hheld : Holds (place e es) ⟨f.block.chunk, f.stop⟩ :=
        ⟨g, hg, covers_span.2 ⟨hfg ▸ rfl, by rw [← hfg]; simp only; omega, by simp only; omega⟩⟩
      rcases holds_place.1 hheld with hcov | hheld
      · have hle : e.block.start ≤ f.stop := (covers_span.1 hcov).2.1
        omega
      · exact absurd hheld (not_holds_stop h hf)

/-- If it starts an entry, it is in that entry. -/
theorem within_of_block_eq (h : es.Pairwise Clear) (hb : e.Beside es) (hg : g ∈ place e es)
    (hge : g.block = e.block) : e.Within g := by
  obtain ⟨k, hk, hek⟩ := exists_within_place (List.mem_cons_self (a := e) (l := es))
  have hes := e.start_lt_stop
  have hgs := g.start_lt_stop
  rcases eq_or_clear (pairwise_clear_place h hb) hg hk with rfl | hgk | hkg
  · exact hek
  · simp only [Within, Clear, hge, headerSize] at hek hgk hgs
    omega
  · simp only [Within, Clear, hge, headerSize] at hek hkg hes
    omega

/-- A part has no larger payload than the whole, since both have one header. -/
theorem Within.size_le (h : e.Within f) : e.size ≤ f.size := by
  simp only [Within, stop] at h
  omega

end Extent

end ArenaAlloc

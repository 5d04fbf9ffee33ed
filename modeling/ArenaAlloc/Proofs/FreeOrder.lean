import ArenaAlloc.Proofs.Replay
import ArenaAlloc.Proofs.Runs

/-!
# The order of frees

Blocks that are freed one after another leave one free list, in whatever order they are freed: the
maximal runs of what was on the list and of what was freed (`Tiling.free_takeBackAll`).

The bytes do depend on the order, since a header that was merged away keeps what it said last. But
what calls come to is a matter of the chunks and of a tiling alone. `Session.Twins` says that two
sessions have these in common, and that the contract asks the same of their callers; a call that
keeps to it is answered alike by both and leaves them twins (`Twins.step`), so they are never told
apart (`Twins.run`).

## Two statements

`frees_commute` says two things of two orders. The free lists are equal, which is a fact of plain
data: placing extents one after another yields the maximal runs of all of them
(`Extent.foldl_place`), and a list of maximal runs is determined by its bytes. And no later call
tells the two apart, which is a simulation.

The simulation is needed because the two memories are *not* equal. Free two neighbours in one order
and the second is merged into the first when it comes; in the other order it is an entry of its own
for a while, with a link in its header that stays there. `Twins` therefore asks for equal chunks and
for one tiling, and says nothing about memory beyond what `Sound` says of it for that tiling.

A block freed already may be freed again later, and both sessions must leave it at that. This is
where the ledgers come in: `retired` has the same members in both, in another order.
-/

namespace ArenaAlloc

/-! ## Taking a block from one of two arenas

Taking a block is the only thing whose outcome depends on where the free list and the chunks are.
Both are read off the tiling and the chunks by the lemmas on first fits and on carving. -/

namespace Arena

variable {a a' : Arena} {t t' : Tiling} {e : Extent} {g g₁ : Supply} {c : Chunks} {size : Nat}
  {err : AllocError}

/-- Both arenas come to the same for a request of `size` bytes, and if they hand out a block they go
on with one tiling. -/
structure TakesAlike (a a' : Arena) (t : Tiling) (g : Supply) (size : Nat) : Prop where
  result : (a'.takeBlock g size).result = (a.takeBlock g size).result
  chunks : (a'.takeBlock g size).state.1.chunks = (a.takeBlock g size).state.1.chunks
  supply : (a'.takeBlock g size).state.2 = (a.takeBlock g size).state.2
  taken : ∀ b, (a.takeBlock g size).result = .ok b → ∃ e t', b = e.block ∧ size ≤ e.size ∧
    a.Taken t e (a.takeBlock g size).state.1 t' ∧ a'.Taken t e (a'.takeBlock g size).state.1 t'

/-- If both are refused alike, both are as they were. -/
theorem TakesAlike.of_error (hc : a'.chunks = a.chunks)
    (hr : (a.takeBlock g size).result = .error err)
    (hr' : (a'.takeBlock g size).result = .error err) : a.TakesAlike a' t g size := by
  have hst := takeBlock_of_error hr
  have hst' := takeBlock_of_error hr'
  refine ⟨by rw [hr, hr'], by rw [hst, hst', hc], by rw [hst, hst'], fun b hb => ?_⟩
  rw [hr] at hb
  cases hb

/-- If both hand out the same block, both go on with the same tiling. -/
theorem TakesAlike.of_taken {r r' : Arena} (hle : size ≤ e.size)
    (hr : (a.takeBlock g size).result = .ok e.block)
    (hr' : (a'.takeBlock g size).result = .ok e.block)
    (hst : (a.takeBlock g size).state = (r, g₁)) (hst' : (a'.takeBlock g size).state = (r', g₁))
    (hc : r'.chunks = r.chunks) (ht : a.Taken t e r t') (ht' : a'.Taken t e r' t') :
    a.TakesAlike a' t g size := by
  refine ⟨by rw [hr, hr'], by rw [hst, hst', hc], by rw [hst, hst'], fun b hb => ?_⟩
  rw [hr] at hb
  cases hb
  rw [hst, hst']
  exact ⟨e, t', rfl, hle, ht, ht'⟩

/-- **What a request comes to is a matter of the tiling and the chunks.** -/
theorem takesAlike (h : a.Sound t) (h' : a'.Sound t) (hc : a'.chunks = a.chunks) (g : Supply)
    (size : Nat) : a.TakesAlike a' t g size := by
  -- The three places a request can end: no size, an entry of the list, the chunks.
  cases halign : alignUp size with
  | none =>
    have hnone : ∀ d : Arena, (d.takeBlock g size).result = .error (.sizeOverflow 1 size) :=
      fun d => by simp only [takeBlock, halign]
    exact .of_error hc (hnone a) (hnone a')
  | some n =>
    have hle := le_of_alignUp halign
    cases hfit : a.heap.firstFit? a.layout n with
    | some found =>
      obtain ⟨pre, e, post, hfree, hpre, hlarge, -⟩ := h.lists.firstFit?_eq_some hfit
      have htake := h.takeBlock_of_fit halign hfree hpre hlarge g
      have htake' := h'.takeBlock_of_fit halign hfree hpre hlarge g
      exact .of_taken (Nat.le_trans hle hlarge) (congrArg Outcome.result htake)
        (congrArg Outcome.result htake') (congrArg Outcome.state htake)
        (congrArg Outcome.state htake') hc (h.recycle hfree) (h'.recycle hfree)
    | none =>
      have hall := h.lists.firstFit?_eq_none hfit
      rcases Chunks.carve_cases a.chunks g n with ⟨err, herr, -⟩ | ⟨b, c, g₁, hr, hst, -⟩
      · refine .of_error hc ((h.result_takeBlock_of_no_fit halign hall g).trans herr) ?_
        rw [h'.result_takeBlock_of_no_fit halign hall g, hc, herr]
      · obtain ⟨hres, hstate, htaken⟩ := h.takeBlock_of_carve halign hall hr hst
        rw [← hc] at hr hst
        obtain ⟨hres', hstate', htaken'⟩ := h'.takeBlock_of_carve halign hall hr hst
        exact .of_taken hle hres hres' hstate hstate' rfl htaken htaken'

end Arena

/-! ## Calls that take a block -/

/-- Besides its answer, the call's chunks and supply are those that `takeBlock` leaves. -/
structure Call.Draws (c : Call) (a : Arena) (g : Supply) (n : Nat) : Prop
    extends c.Takes a g n where
  chunks : (c.perform a).state.1.chunks = (a.takeBlock g n).state.1.chunks
  supply : (c.perform a).state.2 = some (a.takeBlock g n).state.2

namespace Call

variable {a : Arena} {g : Supply} {b : Block} {count size n : Nat}

theorem draws_allocate (a : Arena) (g : Supply) (n : Nat) : (allocate g n).Draws a g n :=
  ⟨takes_allocate a g n, rfl, rfl⟩

theorem draws_zeroAllocate (hmul : checkedMul count size = some n) :
    (zeroAllocate g count size).Draws a g n :=
  ⟨takes_zeroAllocate hmul, a.chunks_zeroAllocate g hmul,
    congrArg some (a.supply_zeroAllocate g hmul)⟩

theorem draws_reallocate (halign : alignUp size = some n)
    (hgrows : a.heap.memory.blockSize b < n) : (reallocate g (some b) size).Draws a g n := by
  have hsize : a.heap.memory.blockSize (Block.ofPayload b.payload) < n := by
    rw [Block.ofPayload_payload]
    exact hgrows
  exact ⟨takes_reallocate halign hgrows, a.chunks_reallocate g halign hsize,
    congrArg some (a.supply_reallocate g halign hsize)⟩

end Call

namespace Session

/-! ## Two sessions that a caller cannot tell apart -/

/-- The sessions have one tiling and the same chunks, and the same blocks may be freed again. -/
structure Twins (s s' : Session) (t : Tiling) : Prop where
  first : s.Invariant t
  second : s'.Invariant t
  retired : ∀ r, r ∈ s'.ledger.retired ↔ r ∈ s.ledger.retired
  chunks : s'.arena.chunks = s.arena.chunks

/-- The call is answered alike, leaves the supply alike, and the sessions are twins after it. -/
structure SameCall (s s' : Session) (c : Call) : Prop where
  answer : (c.perform s'.arena).result = (c.perform s.arena).result
  supply : (c.perform s'.arena).state.2 = (c.perform s.arena).state.2
  after : ∃ t, (s.step c).Twins (s'.step c) t

variable {s s' : Session} {t t' : Tiling} {e : Extent} {b : Block} {c : Call} {g : Supply}
  {count size n : Nat}

namespace Twins

theorem mem_live_iff (h : s.Twins s' t) : b ∈ s'.ledger.live ↔ b ∈ s.ledger.live :=
  h.second.live.mem_iff.symm.trans h.first.live.mem_iff

/-- The contract asks the same of both sessions. -/
theorem respects (h : s.Twins s' t) (hc : s.Respects c) : s'.Respects c := by
  cases c with
  | allocate g size => trivial
  | zeroAllocate g count size => trivial
  | reallocate g p size =>
    intro b hb
    exact h.mem_live_iff.2 (hc b hb)
  | free p =>
    intro b hb
    refine (hc b hb).imp h.mem_live_iff.2 fun hmem => ?_
    obtain ⟨r, hr, rfl⟩ := List.mem_map.1 hmem
    exact List.mem_map_of_mem ((h.retired r).2 hr)
  | reset => trivial
  | write b offset n f =>
    obtain ⟨hb, hn⟩ := hc
    obtain ⟨e, he, rfl⟩ := h.first.exists_live hb
    have hee := Tiling.mem_of_live he
    rw [h.first.sound.blockSize_eq hee] at hn
    refine ⟨h.mem_live_iff.2 hb, ?_⟩
    rw [h.second.sound.blockSize_eq hee]
    exact hn

/-- The statistics are read off the tiling and the chunks. -/
theorem stats_eq (h : s.Twins s' t) : s'.arena.stats = s.arena.stats := by
  have hfirst := Retraces.stats_eq h.first.sound
  have hsecond := Retraces.stats_eq h.second.sound
  simp only [Arena.stats] at hfirst hsecond ⊢
  rw [hfirst, hsecond, h.chunks]

/-! ## One step of the arenas

As for one session, with the second carried along: each lemma applies the one-session lemma twice.
-/

section

variable {a a' r r' : Arena} {l l' : Ledger}

theorem handOut (h : Twins ⟨a, l⟩ ⟨a', l'⟩ t) (ht : a.Taken t e r t') (ht' : a'.Taken t e r' t')
    (hc : r'.chunks = r.chunks) : Twins ⟨r, l.handOut e⟩ ⟨r', l'.handOut e⟩ t' := by
  refine ⟨h.first.handOut ht, h.second.handOut ht', fun d => ?_, hc⟩
  simp only [Ledger.handOut, List.mem_filter]
  exact and_congr_left fun _ => h.retired d

theorem store (h : Twins ⟨a, l⟩ ⟨a', l'⟩ t) (he : e ∈ t.live) {q : Address}
    (hq : ∀ x : Address, x.InRange q n → x.InRange e.block.payload e.size) (f f' : Nat → UInt8) :
    Twins ⟨a.write q n f, l.store q n f⟩ ⟨a'.write q n f', l'.store q n f'⟩ t :=
  ⟨h.first.store he hq, h.second.store he hq, h.retired, h.chunks⟩

theorem shrink (h : Twins ⟨a, l⟩ ⟨a', l'⟩ t) (he : e ∈ t.live) (hsize : n ≤ e.size)
    (hdvd : maxAlign ∣ n) :
    Twins ⟨a.shrinkBlock e.block n, l.shrink e n⟩ ⟨a'.shrinkBlock e.block n, l'.shrink e n⟩
      (t.shrink e n) :=
  ⟨h.first.shrink he hsize hdvd, h.second.shrink he hsize hdvd, h.retired, h.chunks⟩

theorem takeBack (h : Twins ⟨a, l⟩ ⟨a', l'⟩ t) (he : e ∈ t.live) :
    Twins ⟨(a.giveBlock e.block).state, l.takeBack e⟩
      ⟨(a'.giveBlock e.block).state, l'.takeBack e⟩ (t.takeBack e) := by
  refine ⟨h.first.takeBack he, h.second.takeBack he, fun d => ?_, ?_⟩
  · simp only [Ledger.takeBack, List.mem_cons]
    exact or_congr_right (h.retired d)
  · simp only [Arena.chunks_giveBlock]
    exact h.chunks

end

/-! ## One call

A call is either refused by both, or takes the same block in both, or takes none. -/

/-- A call that neither session grants leaves both as they were. -/
theorem same_of_error (h : s.Twins s' t) {err : AllocError}
    (hr : (c.perform s.arena).result = .error err)
    (hr' : (c.perform s'.arena).result = .error err) : s.SameCall s' c := by
  refine ⟨by rw [hr, hr'], ?_, t, ?_⟩
  · rw [Call.state_perform_of_error hr, Call.state_perform_of_error hr']
  · rw [step_of_error hr, step_of_error hr']
    exact h

/-- A call that takes a block from either comes to the same, if it does so once it has the block. -/
theorem same_of_draws (h : s.Twins s' t) (hc : c.Draws s.arena g n) (hc' : c.Draws s'.arena g n)
    (hafter : ∀ {e t'}, (s.arena.takeBlock g n).result = .ok e.block →
      (s'.arena.takeBlock g n).result = .ok e.block → n ≤ e.size →
      s.arena.Taken t e (s.arena.takeBlock g n).state.1 t' →
      s'.arena.Taken t e (s'.arena.takeBlock g n).state.1 t' →
      (s'.arena.takeBlock g n).state.1.chunks = (s.arena.takeBlock g n).state.1.chunks →
      ∃ t'', (s.step c).Twins (s'.step c) t'') : s.SameCall s' c := by
  obtain ⟨hresult, hchunks, hsupply, htaken⟩ := Arena.takesAlike h.first.sound h.second.sound
    h.chunks g n
  cases hr : (s.arena.takeBlock g n).result with
  | error err =>
    have herror : (c.perform s.arena).result = .error err := by
      rw [hc.result, hr]
      rfl
    refine h.same_of_error herror ?_
    rw [hc'.result, hresult, hr]
    rfl
  | ok b =>
    obtain ⟨e, t', rfl, hle, ht, ht'⟩ := htaken b hr
    refine ⟨?_, ?_, hafter hr (hresult.trans hr) hle ht ht' hchunks⟩
    · rw [hc.result, hc'.result, hresult]
    · rw [hc.supply, hc'.supply, hsupply]

theorem allocate (h : s.Twins s' t) (g : Supply) (n : Nat) : s.SameCall s' (.allocate g n) := by
  refine h.same_of_draws (Call.draws_allocate _ g n) (Call.draws_allocate _ g n) ?_
  intro e t' hr hr' _ ht ht' hc
  simp only [step, grant_of_taken hr ht, grant_of_taken hr' ht']
  exact ⟨t', handOut h ht ht' hc⟩

theorem zeroAllocate (h : s.Twins s' t) (g : Supply) (count size : Nat) :
    s.SameCall s' (.zeroAllocate g count size) := by
  cases hmul : checkedMul count size with
  | none =>
    have hnone : ∀ a : Arena, ((Call.zeroAllocate g count size).perform a).result =
        .error (.sizeOverflow count size) := by
      intro a
      simp only [Call.perform, Call.ofRequest, Arena.zeroAllocate, hmul]
      rfl
    exact h.same_of_error (hnone _) (hnone _)
  | some n =>
    refine h.same_of_draws (Call.draws_zeroAllocate hmul) (Call.draws_zeroAllocate hmul) ?_
    intro e t' hr hr' _ ht ht' hc
    simp only [step, zeroAllocate_of_taken hmul hr ht, zeroAllocate_of_taken hmul hr' ht']
    exact ⟨t', (handOut h ht ht' hc).store ht.mem_live (fun x hx => hx) _ _⟩

/-- Both shorten the block in place. -/
theorem reallocate_of_fits (h : s.Twins s' t) (he : e ∈ t.live) (halign : alignUp size = some n)
    (hle : n ≤ e.size) (g : Supply) : s.SameCall s' (.reallocate g (some e.block) size) := by
  have hfirst := h.first.sound.reallocate_of_le (s := g) he halign hle
  have hsecond := h.second.sound.reallocate_of_le (s := g) he halign hle
  refine ⟨?_, ?_, t.shrink e n, ?_⟩
  · simp only [Call.perform, Option.map_some, hfirst, hsecond]
    rfl
  · simp only [Call.perform, Option.map_some, hfirst, hsecond]
    rfl
  · simp only [step, Session.reallocate_of_fits h.first.sound he halign hle,
      Session.reallocate_of_fits h.second.sound he halign hle]
    exact shrink h he hle (dvd_of_alignUp halign)

/-- Both move it, and give the old block back. -/
theorem reallocate_of_grows {old : Extent} (h : s.Twins s' t) (hold : old ∈ t.live)
    (halign : alignUp size = some n) (hgrows : old.size < n) (g : Supply) :
    s.SameCall s' (.reallocate g (some old.block) size) := by
  have hdraws : ∀ {s : Session}, s.Invariant t →
      (Call.reallocate g (some old.block) size).Draws s.arena g n := by
    intro s hs
    refine Call.draws_reallocate halign ?_
    rw [hs.sound.blockSize_eq (Tiling.mem_of_live hold)]
    exact hgrows
  refine h.same_of_draws (hdraws h.first) (hdraws h.second) ?_
  intro e t' hr hr' hle ht ht' hc
  have hge : old.size ≤ e.size := Nat.le_of_lt (Nat.lt_of_lt_of_le hgrows hle)
  obtain ⟨f, -, hstep⟩ := reallocate_of_taken h.first.sound hold halign hgrows hr hle ht
  obtain ⟨f', -, hstep'⟩ := reallocate_of_taken h.second.sound hold halign hgrows hr' hle ht'
  simp only [step, hstep, hstep']
  -- What nobody stored may differ between the two, so the copies may, but no tiling shows it.
  have hstored := (handOut h ht ht' hc).store ht.mem_live (fun x hx => hx.mono hge) f f'
  exact ⟨t'.takeBack old, hstored.takeBack (ht.mem_live_of_mem hold)⟩

theorem reallocate (h : s.Twins s' t) (hb : b ∈ s.ledger.live) (g : Supply) (size : Nat) :
    s.SameCall s' (.reallocate g (some b) size) := by
  obtain ⟨old, hold, rfl⟩ := h.first.exists_live hb
  cases halign : alignUp size with
  | none =>
    have hnone : ∀ a : Arena, ((Call.reallocate g (some old.block) size).perform a).result =
        .error (.sizeOverflow 1 size) := by
      intro a
      simp only [Call.perform, Call.ofRequest, Option.map_some, Arena.reallocate, halign]
      rfl
    exact h.same_of_error (hnone _) (hnone _)
  | some n =>
    rcases Nat.lt_or_ge old.size n with hgrows | hle
    · exact h.reallocate_of_grows hold halign hgrows g
    · exact h.reallocate_of_fits hold halign hle g

/-- Both take the block back, or both leave it at that. -/
theorem free {p : Option Block} (h : s.Twins s' t) (hc : s.Respects (.free p)) :
    s.SameCall s' (.free p) := by
  refine ⟨rfl, rfl, ?_⟩
  cases p with
  | none => exact ⟨t, h⟩
  | some b =>
    by_cases hlive : b ∈ s.ledger.live
    · obtain ⟨e, he, rfl⟩ := h.first.exists_live hlive
      simp only [step, free_of_live h.first he, free_of_live h.second he]
      exact ⟨_, takeBack h he⟩
    · -- Freed before, in both, so its mark stands in both.
      have hlive' : b ∉ s'.ledger.live := fun hmem => hlive (h.mem_live_iff.1 hmem)
      have hc' := h.respects hc
      simp only [step, free_of_not_live h.first (h.first.tolerates hc) hlive,
        free_of_not_live h.second (h.second.tolerates hc') hlive']
      exact ⟨t, h⟩

/-- After a reset nothing of the memory is read any more. -/
theorem reset (h : s.Twins s' t) : s.SameCall s' .reset := by
  refine ⟨rfl, rfl, {}, ?_⟩
  have hrewind : s'.arena.reset.state.chunks = s.arena.reset.state.chunks :=
    congrArg Chunks.rewind h.chunks
  exact ⟨invariant_of_sound (Arena.sound_reset h.first.sound.chunks),
    invariant_of_sound (Arena.sound_reset h.second.sound.chunks), fun _ => Iff.rfl, hrewind⟩

/-- Both store the same bytes in the same block. -/
theorem write {offset : Nat} {f : Nat → UInt8} (h : s.Twins s' t)
    (hc : s.Respects (.write b offset n f)) : s.SameCall s' (.write b offset n f) := by
  obtain ⟨hb, hn⟩ := hc
  obtain ⟨e, he, rfl⟩ := h.first.exists_live hb
  rw [h.first.sound.blockSize_eq (Tiling.mem_of_live he)] at hn
  exact ⟨rfl, rfl, t, store h he (range_of_written hn) f f⟩

/-- **A call that keeps to the contract does not tell twins apart**, and they stay twins. -/
theorem step (h : s.Twins s' t) (hc : s.Respects c) : s.SameCall s' c := by
  cases c with
  | allocate g size => exact h.allocate g size
  | zeroAllocate g count size => exact h.zeroAllocate g count size
  | reallocate g p size =>
    cases p with
    | none =>
      obtain ⟨hanswer, hsupply, hafter⟩ := h.allocate g size
      exact ⟨hanswer, hsupply, hafter⟩
    | some b => exact h.reallocate (hc b rfl) g size
  | free p => exact h.free hc
  | reset => exact h.reset
  | write b offset n f => exact h.write hc

end Twins

/-! ## Runs

`observed` is all that a caller can see of a run: the answers, what is left of each supply, and the
statistics with the whole free list in them. It is not bytes; what a caller reads from a payload it
stored there, and that is the subject of isolation. -/

/-- What a caller learns from each of the calls of a run: the answer, what is left of the supply,
and the statistics. -/
def observed : Session → List Call →
    List (Except AllocError (Option Address) × Option Supply × Stats Address)
  | _, [] => []
  | s, c :: cs =>
    let o := c.perform s.arena
    (o.result, o.state.2, (s.step c).arena.stats) :: observed (s.step c) cs

/-- **Calls that keep to the contract do not tell twins apart**, however many they are. -/
theorem Twins.run {cs : List Call} (h : s.Twins s' t) (hc : Keeps Respects s cs) :
    Keeps Respects s' cs ∧ s'.observed cs = s.observed cs := by
  -- On the calls; the tiling is that of the state that the calls so far have led to.
  induction cs generalizing s s' t with
  | nil => exact ⟨trivial, rfl⟩
  | cons c cs ih =>
    obtain ⟨hfirst, hrest⟩ := hc
    obtain ⟨hanswer, hsupply, t', hafter⟩ := h.step hfirst
    obtain ⟨hkeeps, hobserved⟩ := ih hafter hrest
    refine ⟨⟨h.respects hfirst, hkeeps⟩, ?_⟩
    simp only [observed, hanswer, hsupply, hafter.stats_eq, hobserved]

/-! ## Freeing many blocks

Freed one after another, blocks in use stay in use until it is their turn. So the contract is kept,
and the tiling at the end is a fold. -/

/-- The calls that free the blocks, one after another. -/
def frees (bs : List Block) : List Call := bs.map fun b => .free (some b)

/-- The free list as extents. -/
def entries (s : Session) : List Extent := s.arena.freeList.map s.extent

/-- The list as the session shows it is the list of the tiling. -/
theorem Invariant.entries_eq (h : s.Invariant t) : s.entries = t.free := by
  rw [entries, h.freeList_eq, List.map_map]
  refine (List.map_congr_left fun e he => ?_).trans (List.map_id t.free)
  exact h.extent_eq (Tiling.mem_of_free he)

/-- A block in use is in the tiling with the size that its header has. -/
theorem Invariant.extent_mem_live (h : s.Invariant t) (hb : b ∈ s.ledger.live) :
    s.extent b ∈ t.live := by
  obtain ⟨e, he, rfl⟩ := h.exists_live hb
  rw [h.extent_eq (Tiling.mem_of_live he)]
  exact he

end Session

namespace Tiling

/-- The blocks of the extents are given back, one after another. -/
def takeBackAll (t : Tiling) (es : List Extent) : Tiling := es.foldl takeBack t

variable {t : Tiling} {es fs : List Extent}

/-- Giving blocks back one after another places their extents one after another. -/
theorem takeBackAll_eq (t : Tiling) (es : List Extent) :
    t.takeBackAll es = { t with
      live := t.live.diff es
      free := es.foldl (fun entries e => e.place entries) t.free } := by
  induction es generalizing t with
  | nil => rfl
  | cons e es ih =>
    refine (ih (t.takeBack e)).trans ?_
    rw [takeBack, List.diff_cons, List.foldl_cons]

end Tiling

namespace Session

variable {s : Session} {t : Tiling} {es fs : List Extent}

/-- Freeing blocks in use gives them all back. -/
theorem Invariant.frees (h : s.Invariant t) (hmem : ∀ e ∈ es, e ∈ t.live) (hnodup : es.Nodup) :
    let s' := s.run (frees (es.map Extent.block))
    Keeps Respects s (Session.frees (es.map Extent.block)) ∧
      s'.Invariant (t.takeBackAll es) ∧ s'.ledger.retired = es.reverse ++ s.ledger.retired ∧
        s'.arena.chunks = s.arena.chunks := by
  induction es generalizing s t with
  | nil => exact ⟨trivial, h, rfl, rfl⟩
  | cons e es ih =>
    obtain ⟨he, hes⟩ := List.forall_mem_cons.1 hmem
    obtain ⟨hnot, hnodup⟩ := List.nodup_cons.1 hnodup
    have hlive : e.block ∈ s.ledger.live := h.live.mem_iff.1 (List.mem_map_of_mem he)
    -- The others are in use still, since no block is freed twice here.
    have hkept : ∀ f ∈ es, f ∈ (t.takeBack e).live := fun f hf =>
      (List.mem_erase_of_ne fun heq : f = e => hnot (heq ▸ hf)).2 (hes f hf)
    obtain ⟨hkeeps, hinv, hretired, hchunks⟩ := ih (h.freed he) hkept hnodup
    refine ⟨⟨fun b hb => .inl (Option.some.inj hb ▸ hlive), hkeeps⟩, hinv, ?_,
      hchunks.trans (chunks_free s _)⟩
    refine hretired.trans ?_
    rw [step, free_of_live h he, List.reverse_cons, List.append_assoc]
    rfl

/-! ## In any order -/

/-- The entries and the blocks that are to be freed share no byte. -/
theorem pairwise_apart_of_live (h : s.Invariant t) (hmem : ∀ e ∈ es, e ∈ t.live)
    (hnodup : es.Nodup) : (t.free ++ es).Pairwise Extent.Apart := by
  have hfree : t.free.Pairwise Extent.Apart :=
    (List.pairwise_append.1 h.sound.pairwise_apart).2.1
  have hlive : es.Pairwise Extent.Apart := by
    refine hnodup.pairwise_of_forall_ne fun e he f hf hne => ?_
    have hsame := h.sound.eq_or_apart (Tiling.mem_of_live (hmem e he))
      (Tiling.mem_of_live (hmem f hf))
    exact hsame.resolve_left hne
  refine List.pairwise_append.2 ⟨hfree, hlive, fun f hf e he => ?_⟩
  exact (h.sound.apart_of_live_of_free (hmem e he) hf).symm

/-- **What is left on the list** when blocks are given back: the maximal runs of all there are. -/
theorem free_takeBackAll (h : s.Invariant t) (hmem : ∀ e ∈ es, e ∈ t.live) (hnodup : es.Nodup) :
    (t.takeBackAll es).free = Extent.maximalRuns (t.free ++ es) := by
  rw [Tiling.takeBackAll_eq]
  exact Extent.foldl_place h.sound.clear (pairwise_apart_of_live h hmem hnodup)

/-- Another order gives back the same tiling. -/
theorem takeBackAll_congr (h : s.Invariant t) (hmem : ∀ e ∈ es, e ∈ t.live) (hnodup : es.Nodup)
    (hperm : fs.Perm es) : t.takeBackAll fs = t.takeBackAll es := by
  have hfree : (t.takeBackAll fs).free = (t.takeBackAll es).free := by
    rw [free_takeBackAll h hmem hnodup, free_takeBackAll h
      (fun e he => hmem e (hperm.mem_iff.1 he)) (hperm.nodup_iff.2 hnodup)]
    refine (Extent.maximalRuns_congr (pairwise_apart_of_live h hmem hnodup) ?_).symm
    exact hperm.symm.append_left t.free
  simp only [Tiling.takeBackAll_eq] at hfree ⊢
  rw [hperm.diff_left, hfree]

/-- Sessions that freed the same blocks are twins. -/
theorem twins_frees (h : s.Invariant t) (hmem : ∀ e ∈ es, e ∈ t.live) (hnodup : es.Nodup)
    (hperm : fs.Perm es) :
    Twins (s.run (frees (es.map Extent.block))) (s.run (frees (fs.map Extent.block)))
      (t.takeBackAll es) := by
  obtain ⟨-, hfirst, hretired, hchunks⟩ := h.frees hmem hnodup
  obtain ⟨-, hsecond, hretired', hchunks'⟩ := h.frees
    (fun e he => hmem e (hperm.mem_iff.1 he)) (hperm.nodup_iff.2 hnodup)
  rw [takeBackAll_congr h hmem hnodup hperm] at hsecond
  refine ⟨hfirst, hsecond, fun r => ?_, hchunks'.trans hchunks.symm⟩
  rw [hretired, hretired', List.mem_append, List.mem_append, List.mem_reverse, List.mem_reverse,
    hperm.mem_iff]

/-- **The order of frees does not matter.** Blocks in use may be freed in any order. The free list
is then what it was together with the blocks freed, sorted, with every maximal run made one entry;
and no caller that keeps to the contract can tell later which order it was. -/
theorem frees_commute (h : Reachable Tolerates s) {bs cs : List Block}
    (hlive : ∀ b ∈ bs, b ∈ s.ledger.live) (hnodup : bs.Nodup) (hperm : cs.Perm bs) :
    let first := s.run (frees bs)
    let second := s.run (frees cs)
    Keeps Respects s (frees bs) ∧ Keeps Respects s (frees cs) ∧
      first.entries = Extent.maximalRuns (s.entries ++ bs.map s.extent) ∧
      second.entries = first.entries ∧
      ∀ later, Keeps Respects first later →
        Keeps Respects second later ∧ second.observed later = first.observed later := by
  obtain ⟨t, ht⟩ := h.valid_of_tolerates
  intro first second
  have hmem : ∀ e ∈ bs.map s.extent, e ∈ t.live := by
    intro e he
    obtain ⟨b, hb, rfl⟩ := List.mem_map.1 he
    exact ht.extent_mem_live (hlive b hb)
  have hblocks : ∀ ds : List Block, (ds.map s.extent).map Extent.block = ds := fun ds => by
    have hid : Extent.block ∘ s.extent = id := rfl
    rw [List.map_map, hid, List.map_id]
  have hextents : (bs.map s.extent).Nodup := .of_map Extent.block (by rwa [hblocks])
  have hperm' : (cs.map s.extent).Perm (bs.map s.extent) := hperm.map _
  -- The rest is to speak of blocks and headers where the lemma speaks of extents.
  have htwins := twins_frees ht hmem hextents hperm'
  have hkeeps := (ht.frees hmem hextents).1
  have hkeeps' := (ht.frees (fun e he => hmem e (hperm'.mem_iff.1 he))
    (hperm'.nodup_iff.2 hextents)).1
  rw [hblocks, hblocks] at htwins
  rw [hblocks] at hkeeps hkeeps'
  refine ⟨hkeeps, hkeeps', ?_, ?_, fun later hlater => htwins.run hlater⟩
  · rw [htwins.first.entries_eq, ht.entries_eq, free_takeBackAll ht hmem hextents]
  · rw [htwins.first.entries_eq, htwins.second.entries_eq]

/-- Four blocks in two chunks. The first two adjoin and become one entry; the third was shrunk, so
the fourth, behind it, stays apart. -/
theorem frees_commute_of_run :
    let s := (ofLength 96).run [.allocate .unlimited 16, .allocate .unlimited 16,
      .allocate .unlimited 128, .allocate .unlimited 16, .reallocate .unlimited (some ⟨1, 0⟩) 32]
    let second := s.run (frees [⟨1, 160⟩, ⟨0, 48⟩, ⟨1, 0⟩, ⟨0, 0⟩])
    let later := [.free (some ⟨0, 48⟩), .allocate .unlimited 40, .allocate .unlimited 20,
      .reallocate .unlimited (some ⟨1, 0⟩) 100]
    second.entries = [⟨⟨0, 0⟩, 64⟩, ⟨⟨1, 0⟩, 32⟩, ⟨⟨1, 160⟩, 16⟩] ∧
      second.observed later =
        (s.run (frees [⟨0, 0⟩, ⟨0, 48⟩, ⟨1, 0⟩, ⟨1, 160⟩])).observed later := by
  intro s second later
  have hreach : Reachable Tolerates s :=
    (Reachable.ofLength _ (by decide) (by decide) (by decide)).run (by decide +kernel)
  have hlive : ∀ b ∈ [⟨0, 0⟩, ⟨0, 48⟩, ⟨1, 0⟩, ⟨1, 160⟩], b ∈ s.ledger.live := by decide +kernel
  have hperm : List.Perm [⟨1, 160⟩, ⟨0, 48⟩, ⟨1, 0⟩, ⟨0, 0⟩]
      [Block.mk 0 0, ⟨0, 48⟩, ⟨1, 0⟩, ⟨1, 160⟩] := by decide
  obtain ⟨-, -, -, hentries, hlater⟩ := frees_commute hreach hlive (by decide) hperm
  refine ⟨?_, (hlater later (by decide +kernel)).2⟩
  rw [hentries]
  decide +kernel

end Session

end ArenaAlloc

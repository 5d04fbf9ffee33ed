import ArenaAlloc.Proofs.Retrace

/-!
# Replaying a script after a reset

A `Request` is a call without a supply, and with pointers named by the step that returned them; the
same script can then be run on a new arena and again after a reset. `Session.Retraces` says that two
sessions have one tiling, that their ledgers agree on what is retired, and that their chunks retrace
each other. What the first session answers to a request the second answers too, and both are alike
after it (`Retraces.step`), so they are after a whole script (`Retraces.run`).

## Why pointers are named by steps

A script that frees its third block must mean the block that *its own* third step returned. If the
theorem had the pointers as addresses it would assume half of what it says. With names the second
run is determined by the script and its own answers alone, and that its addresses are the same ones
is a consequence, part of the equality of answers.

## What happens in between

Nothing is asked of what went on before the reset but that chunks were only added, and any calls do
that (`extends_run`). What the bytes were left at does not matter, since a tiling says what is read
of them, and a reset makes the tiling empty. So the calls in between occur without the contract. It
is the calls within it that the theorem is meant for: a caller outside of it has no promise about
its program at all, and what the model makes of such a call only keeps `step` total.

## The very first block

The second half of `reset_replays` compares one request before the reset with one after it, which
may be of another length. The block goes to the front of the first chunk with room, in both cases.
So the addresses agree when the lengths do, and when they do not it depends on the chunks:
`first_block_elsewhere` is an arena in which the first block was too long for the first chunk.
-/

namespace ArenaAlloc

/-- A mapped result is a result. -/
theorem exists_of_map_eq_ok {ε α β : Type} {f : α → β} {x : Except ε α} {y : β}
    (h : x.map f = .ok y) : ∃ v, x = .ok v := by
  cases x with
  | error e => cases h
  | ok v => exact ⟨v, rfl⟩

/-! ## Calls that take a block

Three calls come to `takeBlock`, and they differ in what they do to the bytes afterwards. `Takes` is
what they have in common, so that they need one argument and not three. -/

/-- What the call answers is what `takeBlock` does for `n` bytes, and so is what chunks there are
after it. -/
structure Call.Takes (c : Call) (a : Arena) (g : Supply) (n : Nat) : Prop where
  result : (c.perform a).result = ((a.takeBlock g n).result.map Block.payload).map some
  layout : (c.perform a).state.1.layout = (a.takeBlock g n).state.1.layout

namespace Call

variable {a : Arena} {g : Supply} {b : Block} {count size n : Nat}

theorem takes_allocate (a : Arena) (g : Supply) (n : Nat) : (allocate g n).Takes a g n := ⟨rfl, rfl⟩

theorem takes_reallocate_none (a : Arena) (g : Supply) (n : Nat) :
    (reallocate g none n).Takes a g n := ⟨rfl, rfl⟩

theorem takes_zeroAllocate (hmul : checkedMul count size = some n) :
    (zeroAllocate g count size).Takes a g n := by
  refine ⟨congrArg (Except.map some) ?_, congrArg Chunks.layout (a.chunks_zeroAllocate g hmul)⟩
  simp only [Arena.zeroAllocate, hmul, Outcome.result_andThen]
  cases (a.takeBlock g n).result <;> rfl

/-- A block that has to grow is moved, and for that the new size is taken. -/
theorem takes_reallocate (halign : alignUp size = some n)
    (hgrows : a.heap.memory.blockSize b < n) : (reallocate g (some b) size).Takes a g n := by
  have hsize : a.heap.memory.blockSize (Block.ofPayload b.payload) < n := by
    rw [Block.ofPayload_payload]
    exact hgrows
  refine ⟨congrArg (Except.map some) ?_,
    congrArg Chunks.layout (a.chunks_reallocate g halign hsize)⟩
  simp only [Option.map_some, Arena.reallocate, halign, if_neg (Nat.not_le.2 hsize),
    Outcome.result_andThen]
  cases (a.takeBlock g n).result <;> rfl

end Call

/-! ## Scripts -/

/-- A call that asks for a block or gives one back. Pointers are named by the step that returned
them. -/
inductive Request where
  | allocate (size : Nat)
  | zeroAllocate (count size : Nat)
  | reallocate (p : Option Nat) (size : Nat)
  | free (p : Option Nat)

namespace Request

/-- The pointer that a step returned, if it returned one. -/
def named (pointers : List (Option Block)) (step : Nat) : Option Block := pointers[step]?.join

/-- The call that a request comes to after steps that returned `pointers`. -/
def call (r : Request) (pointers : List (Option Block)) (supply : Supply) : Call :=
  match r with
  | allocate size => .allocate supply size
  | zeroAllocate count size => .zeroAllocate supply count size
  | reallocate p size => .reallocate supply (p.bind (named pointers)) size
  | free p => .free (p.bind (named pointers))

end Request

/-- What the statistics show apart from the chunks. -/
def Stats.seen (s : Stats Address) : Nat × List (FreeBlock Address) := (s.used, s.freeBlocks)

namespace Session

/-- The block whose pointer a call answered with. -/
def returned (answer : Except AllocError (Option Address)) : Option Block :=
  answer.toOption.join.map Block.ofPayload

/-- The calls that a script comes to, each with a supply of its own. -/
def calls : Session → List (Option Block) → List (Request × Supply) → List Call
  | _, _, [] => []
  | s, pointers, (r, supply) :: rest =>
    let c := r.call pointers supply
    c :: calls (s.step c) (pointers ++ [returned (c.perform s.arena).result]) rest

/-- The statistics after each of the calls of a run. -/
def history : Session → List Call → List (Stats Address)
  | _, [] => []
  | s, c :: cs => (s.step c).arena.stats :: history (s.step c) cs

/-- The two sessions have one tiling, and the second carves what the first carves. -/
structure Retraces (s s' : Session) (t : Tiling) : Prop where
  first : s.Invariant t
  again : s'.Invariant t
  retired : s'.ledger.retired = s.ledger.retired
  chunks : s.arena.chunks.Retraces s'.arena.chunks

/-- The two calls are answered alike, the sessions are alike after them, and the second needed no
chunk. -/
structure Alike (s s' : Session) (c c' : Call) : Prop where
  answer : (c'.perform s'.arena).result = (c.perform s.arena).result
  after : ∃ t, (s.step c).Retraces (s'.step c') t
  layout : (s'.step c').arena.layout = s'.arena.layout

variable {s s' : Session} {t t' : Tiling} {e : Extent} {b : Block} {g g' : Supply}
  {count size n : Nat} {p : Option Address} {r : Request} {pointers : List (Option Block)}

namespace Retraces

theorem mem_live_iff (h : s.Retraces s' t) : b ∈ s'.ledger.live ↔ b ∈ s.ledger.live :=
  h.again.live.mem_iff.symm.trans h.first.live.mem_iff

/-- The contract asks the same of both sessions. -/
theorem respects (h : s.Retraces s' t) (hc : s.Respects (r.call pointers g)) :
    s'.Respects (r.call pointers g') := by
  cases r with
  | allocate size => trivial
  | zeroAllocate count size => trivial
  | reallocate q size =>
    intro b hb
    exact h.mem_live_iff.2 (hc b hb)
  | free q =>
    intro b hb
    rw [h.mem_live_iff, h.retired]
    exact hc b hb

/-! ## One step of the arenas

How the relation moves along with the ledger: a block is handed out, stored into, shortened, taken
back. In each case both sessions keep their invariant with the same new tiling, by the lemmas that
keep it for one session. -/

section

variable {a a' : Arena} {l l' : Ledger}

theorem handOut (h : Retraces ⟨a, l⟩ ⟨a', l'⟩ t) (ht : a.Retaken a' t g g' n e t') :
    Retraces ⟨(a.takeBlock g n).state.1, l.handOut e⟩ ⟨(a'.takeBlock g' n).state.1, l'.handOut e⟩
      t' := by
  have hretired : l'.retired = l.retired := h.retired
  refine ⟨h.first.handOut ht.taken, h.again.handOut ht.taken', ?_, ht.chunks⟩
  simp only [Ledger.handOut, hretired]

theorem store (h : Retraces ⟨a, l⟩ ⟨a', l'⟩ t) (he : e ∈ t.live) {q : Address}
    (hq : ∀ x : Address, x.InRange q n → x.InRange e.block.payload e.size) (f f' : Nat → UInt8) :
    Retraces ⟨a.write q n f, l.store q n f⟩ ⟨a'.write q n f', l'.store q n f'⟩ t :=
  ⟨h.first.store he hq, h.again.store he hq, h.retired, h.chunks⟩

theorem shrink (h : Retraces ⟨a, l⟩ ⟨a', l'⟩ t) (he : e ∈ t.live) (hsize : n ≤ e.size)
    (hdvd : maxAlign ∣ n) :
    Retraces ⟨a.shrinkBlock e.block n, l.shrink e n⟩ ⟨a'.shrinkBlock e.block n, l'.shrink e n⟩
      (t.shrink e n) :=
  ⟨h.first.shrink he hsize hdvd, h.again.shrink he hsize hdvd, h.retired, h.chunks⟩

theorem takeBack (h : Retraces ⟨a, l⟩ ⟨a', l'⟩ t) (he : e ∈ t.live) :
    Retraces ⟨(a.giveBlock e.block).state, l.takeBack e⟩
      ⟨(a'.giveBlock e.block).state, l'.takeBack e⟩ (t.takeBack e) := by
  have hretired : l'.retired = l.retired := h.retired
  refine ⟨h.first.takeBack he, h.again.takeBack he, ?_, ?_⟩
  · simp only [Ledger.takeBack, hretired]
  · simp only [Arena.chunks_giveBlock]
    exact h.chunks

end

/-! ## One call

A request that the first session refuses is not of interest: the scripts that are compared are
granted in full. So each lemma has the answer `.ok` as a hypothesis, and the cases of a refusal are
closed by it. -/

/-- Two calls that take the same block are answered alike. The first is known to be granted. -/
theorem alike_of_takes {c c' : Call} (h : s.Retraces s' t)
    (hc : c.Takes s.arena g n) (hc' : c'.Takes s'.arena g' n)
    (hr : (c.perform s.arena).result = .ok p)
    (hfits : (s.step c).arena.layout <+: s'.arena.layout)
    (hafter : ∀ {e t'}, s.arena.Retaken s'.arena t g g' n e t' →
      ∃ t'', (s.step c).Retraces (s'.step c') t'') :
    s.Alike s' c c' := by
  rw [hc.result] at hr
  rw [arena_step, hc.layout] at hfits
  obtain ⟨q, hq⟩ := exists_of_map_eq_ok hr
  obtain ⟨b, hb⟩ := exists_of_map_eq_ok hq
  obtain ⟨e, t', rfl, ht⟩ :=
    Arena.takeBlock_retraces h.first.sound h.again.sound h.chunks hb hfits g'
  refine ⟨?answer, hafter ht, ?layout⟩
  case answer => rw [hc.result, hc'.result, ht.result, ht.result']
  case layout => rw [arena_step, hc'.layout, ht.layout]

theorem allocate (h : s.Retraces s' t)
    (hr : ((Call.allocate g n).perform s.arena).result = .ok p)
    (hfits : (s.step (.allocate g n)).arena.layout <+: s'.arena.layout) (g' : Supply) :
    s.Alike s' (.allocate g n) (.allocate g' n) := by
  refine h.alike_of_takes (Call.takes_allocate _ g n) (Call.takes_allocate _ g' n) hr hfits ?_
  intro e t' ht
  simp only [step, grant_of_taken ht.result ht.taken, grant_of_taken ht.result' ht.taken']
  exact ⟨t', handOut h ht⟩

/-- The bytes are cleared in both, in the same block. -/
theorem zeroAllocate (h : s.Retraces s' t)
    (hr : ((Call.zeroAllocate g count size).perform s.arena).result = .ok p)
    (hfits : (s.step (.zeroAllocate g count size)).arena.layout <+: s'.arena.layout)
    (g' : Supply) : s.Alike s' (.zeroAllocate g count size) (.zeroAllocate g' count size) := by
  cases hmul : checkedMul count size with
  | none =>
    simp only [Call.perform, Arena.zeroAllocate, hmul] at hr
    cases hr
  | some n =>
    refine h.alike_of_takes (Call.takes_zeroAllocate hmul) (Call.takes_zeroAllocate hmul) hr
      hfits ?_
    intro e t' ht
    simp only [step, zeroAllocate_of_taken hmul ht.result ht.taken,
      zeroAllocate_of_taken hmul ht.result' ht.taken']
    exact ⟨t', (handOut h ht).store ht.taken.mem_live (fun x hx => hx) _ _⟩

/-- In place: both shorten the same block and leave the same tail. -/
theorem reallocate_of_fits (h : s.Retraces s' t) (he : e ∈ t.live) (halign : alignUp size = some n)
    (hle : n ≤ e.size) (g g' : Supply) :
    s.Alike s' (.reallocate g (some e.block) size) (.reallocate g' (some e.block) size) := by
  refine ⟨?answer, ⟨t.shrink e n, ?after⟩, ?layout⟩
  case answer =>
    simp only [Call.perform, Option.map_some, h.first.sound.reallocate_of_le he halign hle,
      h.again.sound.reallocate_of_le he halign hle]
    rfl
  case after =>
    simp only [step, Session.reallocate_of_fits h.first.sound he halign hle,
      Session.reallocate_of_fits h.again.sound he halign hle]
    exact shrink h he hle (dvd_of_alignUp halign)
  case layout =>
    simp only [step, Session.reallocate_of_fits h.again.sound he halign hle]
    rfl

/-- Moved: both take the same new block, and give the same old one back. -/
theorem reallocate_of_grows {old : Extent} (h : s.Retraces s' t)
    (hold : old ∈ t.live) (halign : alignUp size = some n) (hgrows : old.size < n)
    (hr : ((Call.reallocate g (some old.block) size).perform s.arena).result = .ok p)
    (hfits : (s.step (.reallocate g (some old.block) size)).arena.layout <+: s'.arena.layout)
    (g' : Supply) :
    s.Alike s' (.reallocate g (some old.block) size) (.reallocate g' (some old.block) size) := by
  have htakes : ∀ {s : Session} {g : Supply}, s.Invariant t →
      (Call.reallocate g (some old.block) size).Takes s.arena g n := by
    intro s g hs
    refine Call.takes_reallocate halign ?_
    rw [hs.sound.blockSize_eq (Tiling.mem_of_live hold)]
    exact hgrows
  refine h.alike_of_takes (htakes h.first) (htakes h.again) hr hfits ?_
  intro e t' ht
  have hge : old.size ≤ e.size := Nat.le_of_lt (Nat.lt_of_lt_of_le hgrows ht.le)
  obtain ⟨f, -, hstep⟩ :=
    reallocate_of_taken h.first.sound hold halign hgrows ht.result ht.le ht.taken
  obtain ⟨f', -, hstep'⟩ :=
    reallocate_of_taken h.again.sound hold halign hgrows ht.result' ht.le ht.taken'
  simp only [step, hstep, hstep']
  -- The bytes copied may differ, but no tiling depends on them.
  have hstored := (handOut h ht).store ht.taken.mem_live (fun x hx => hx.mono hge) f f'
  exact ⟨t'.takeBack old, hstored.takeBack (ht.taken.mem_live_of_mem hold)⟩

theorem reallocate (h : s.Retraces s' t) (hb : b ∈ s.ledger.live)
    (hr : ((Call.reallocate g (some b) size).perform s.arena).result = .ok p)
    (hfits : (s.step (.reallocate g (some b) size)).arena.layout <+: s'.arena.layout)
    (g' : Supply) : s.Alike s' (.reallocate g (some b) size) (.reallocate g' (some b) size) := by
  obtain ⟨old, hold, rfl⟩ := h.first.exists_live hb
  cases halign : alignUp size with
  | none =>
    simp only [Call.perform, Option.map_some, Arena.reallocate, halign] at hr
    cases hr
  | some n =>
    rcases Nat.lt_or_ge old.size n with hgrows | hle
    · exact h.reallocate_of_grows hold halign hgrows hr hfits g'
    · exact h.reallocate_of_fits hold halign hle g g'

/-- Both give the same block back, or both find it given back already. -/
theorem free {q : Option Block} (h : s.Retraces s' t) (hc : s.Respects (.free q))
    (hc' : s'.Respects (.free q)) : s.Alike s' (.free q) (.free q) := by
  refine ⟨rfl, ?after, ?layout⟩
  case after =>
    cases q with
    | none => exact ⟨t, h⟩
    | some b =>
      by_cases hlive : b ∈ s.ledger.live
      · obtain ⟨e, he, rfl⟩ := h.first.exists_live hlive
        simp only [step, free_of_live h.first he, free_of_live h.again he]
        exact ⟨_, takeBack h he⟩
      · -- Given back before, so its header says free in both, and both leave it at that.
        have hlive' : b ∉ s'.ledger.live := fun hmem => hlive (h.mem_live_iff.1 hmem)
        simp only [step, free_of_not_live h.first (h.first.tolerates hc) hlive,
          free_of_not_live h.again (h.again.tolerates hc') hlive']
        exact ⟨t, h⟩
  case layout => exact congrArg Chunks.layout (chunks_free _ _)

/-- **A request that the first session grants comes to the same in the second.** -/
theorem step (h : s.Retraces s' t) (hc : s.Respects (r.call pointers g))
    (hr : ((r.call pointers g).perform s.arena).result = .ok p)
    (hfits : (s.step (r.call pointers g)).arena.layout <+: s'.arena.layout) (g' : Supply) :
    s.Alike s' (r.call pointers g) (r.call pointers g') := by
  have hc' : s'.Respects (r.call pointers g') := h.respects hc
  cases r with
  | allocate size => exact h.allocate hr hfits g'
  | zeroAllocate count size => exact h.zeroAllocate hr hfits g'
  | free q => exact h.free hc hc'
  | reallocate q size =>
    simp only [Request.call] at hc hr hfits ⊢
    cases hq : q.bind (Request.named pointers) with
    | some b =>
      rw [hq] at hc hr hfits
      exact h.reallocate (hc b rfl) hr hfits g'
    | none =>
      rw [hq] at hr hfits
      obtain ⟨hanswer, hafter, hlayout⟩ := h.allocate (n := size) hr hfits g'
      exact ⟨hanswer, hafter, hlayout⟩

/-! ## A whole script -/

theorem stats_eq {a : Arena} (h : a.Sound t) :
    a.stats.freeBlocks = t.free.map fun e => ⟨e.block.payload, e.size⟩ := by
  simp only [Arena.stats, h.freeList_eq, List.map_map]
  refine List.map_congr_left fun e he => ?_
  simp only [Function.comp_apply, h.blockSize_eq (Tiling.mem_of_free he)]

/-- What the statistics show is read off the tiling and the bytes carved. -/
theorem seen_eq (h : s.Retraces s' t) : s'.arena.stats.seen = s.arena.stats.seen := by
  have hused : s'.arena.stats.used = s.arena.stats.used := h.chunks.used_eq
  simp only [Stats.seen, hused, stats_eq h.first.sound, stats_eq h.again.sound]

/-- **A script that the first session grants comes to the same in the second**, step by step. -/
theorem run {script script' : List (Request × Supply)} (h : s.Retraces s' t)
    (hsame : script'.map Prod.fst = script.map Prod.fst)
    (hkeeps : Keeps Respects s (s.calls pointers script))
    (hgranted : ∀ r ∈ s.answers (s.calls pointers script), ∃ p, r = .ok p)
    (hfits : (s.run (s.calls pointers script)).arena.layout <+: s'.arena.layout) :
    s'.answers (s'.calls pointers script') = s.answers (s.calls pointers script) ∧
      (s'.history (s'.calls pointers script')).map Stats.seen =
        (s.history (s.calls pointers script)).map Stats.seen ∧
      ∀ c ∈ s'.history (s'.calls pointers script'),
        c.chunkCount = s'.arena.chunks.count ∧ c.capacity = s'.arena.capacity := by
  -- On the script, with the pointers returned so far. The tiling changes with every step, the
  -- second session's layout with none.
  induction script generalizing s s' t pointers script' with
  | nil =>
    cases script' with
    | nil => exact ⟨rfl, rfl, fun c hc => by cases hc⟩
    | cons _ _ => cases hsame
  | cons first rest ih =>
    obtain ⟨r, g⟩ := first
    cases script' with
    | nil => cases hsame
    | cons first' rest' =>
      obtain ⟨r', g'⟩ := first'
      obtain ⟨hr, hrest⟩ := List.cons_eq_cons.1 hsame
      subst hr
      obtain ⟨hc, hkeeps⟩ := hkeeps
      obtain ⟨⟨p, hp⟩, hgranted⟩ := List.forall_mem_cons.1 hgranted
      -- Later steps only add chunks, so those after this one are there for the second session.
      have hlater := (extends_run (s.step (r'.call pointers g))
        ((s.step (r'.call pointers g)).calls
          (pointers ++ [returned ((r'.call pointers g).perform s.arena).result]) rest)).layout
      obtain ⟨hanswer, ⟨t', hafter⟩, hlayout⟩ := h.step hc hp (hlater.trans hfits) g'
      obtain ⟨hanswers, hseen, hsteady⟩ := ih hafter hrest hkeeps hgranted (by
        rw [hlayout]
        exact hfits)
      simp only [calls, answers, history, hanswer, List.map_cons]
      refine ⟨congrArg _ hanswers, congrArg₂ _ hafter.seen_eq hseen, ?_⟩
      have hcount : (s'.step (r'.call pointers g')).arena.chunks.count = s'.arena.chunks.count := by
        rw [← Chunks.length_layout, ← Chunks.length_layout]
        exact congrArg List.length hlayout
      have hcapacity : (s'.step (r'.call pointers g')).arena.capacity = s'.arena.capacity :=
        congrArg total hlayout
      rw [← hcount, ← hcapacity]
      exact List.forall_mem_cons.2 ⟨⟨rfl, rfl⟩, hsteady⟩

end Retraces

/-! ## Before the first block

Requests that are refused, resets, and frees of nothing may come first. They leave a session blank,
so the first request that is granted is made of a new arena, or of one just after a reset. -/

/-- Nothing was handed out, and a reset would change nothing. -/
structure Blank (s : Session) : Prop where
  ledger : s.ledger = {}
  arena : s.arena.reset.state = s.arena

/-- A new arena is like one after a reset. -/
theorem blank_new {config : Config} {supply : Supply} {a : Arena}
    (hnew : (Arena.create config supply).result = .ok a) : Blank { arena := a } := by
  obtain ⟨-, _, supply', hchunks, rfl⟩ := Arena.create_eq_ok hnew
  obtain ⟨first, -, -, rfl⟩ := Chunks.create_eq_ok hchunks
  exact ⟨rfl, rfl⟩

/-- A second reset changes nothing. -/
theorem blank_reset (s : Session) : Blank (s.step .reset) := by
  refine ⟨rfl, ?_⟩
  have hrewind : s.arena.chunks.rewind.rewind = s.arena.chunks.rewind := by
    simp only [Chunks.rewind, List.map_map]
    rfl
  show Arena.mk s.arena.chunks.rewind.rewind s.arena.heap.clear.clear = _
  rw [hrewind]
  rfl

/-- A call that answers without a pointer leaves a blank session blank: there is nothing to free,
nothing to store into, and no request was granted. -/
theorem Blank.step {c : Call} (h : s.Blank) (hc : s.Respects c)
    (hnone : ∀ p, (c.perform s.arena).result ≠ .ok (some p)) : s.step c = s := by
  -- A request that is granted answers with a pointer, so these were refused.
  have hrequest : ∀ o : Outcome (Arena × Supply) (Except AllocError Address),
      (∀ p, (Call.ofRequest o).result ≠ .ok (some p)) →
        ∃ e, (Call.ofRequest o).result = .error e := by
    intro o ho
    cases hr : o.result with
    | error e => exact ⟨e, congrArg (Except.map some) hr⟩
    | ok p => exact absurd (congrArg (Except.map some) hr) (ho p)
  have hlive : s.ledger.live = [] := by rw [h.ledger]
  cases c with
  | allocate g size =>
    obtain ⟨e, he⟩ := hrequest _ hnone
    exact step_of_error he
  | zeroAllocate g count size =>
    obtain ⟨e, he⟩ := hrequest _ hnone
    exact step_of_error he
  | reallocate g q size =>
    obtain ⟨e, he⟩ := hrequest _ hnone
    exact step_of_error he
  | free q =>
    cases q with
    | none => rfl
    | some b =>
      have hmem := hc b rfl
      rw [h.ledger] at hmem
      simp at hmem
  | reset =>
    have harena := h.arena
    have hledger := h.ledger
    cases s with
    | mk arena ledger =>
      simp only at harena hledger
      simp only [Session.step, harena, hledger]
  | write b offset n f =>
    have hmem := hc.1
    rw [hlive] at hmem
    cases hmem

/-- Calls that return no pointer leave a blank session as it is. -/
theorem Blank.run {cs : List Call} (h : s.Blank) (hkeeps : Keeps Respects s cs)
    (hnone : ∀ r ∈ s.answers cs, ∀ p, r ≠ .ok (some p)) : s.run cs = s := by
  induction cs with
  | nil => rfl
  | cons c cs ih =>
    obtain ⟨hc, hkeeps⟩ := hkeeps
    obtain ⟨hfirst, hrest⟩ := List.forall_mem_cons.1 hnone
    have hstep := h.step hc hfirst
    rw [hstep] at hkeeps hrest
    show (s.step c).run cs = s
    rw [hstep]
    exact ih hkeeps hrest

/-! ## After a reset

Chunks only get more, so those of a new arena are at the front of those of any arena that comes of
it, and a reset makes them empty. -/

variable {config : Config} {supply : Supply} {a : Arena}

/-- A new arena, and one that comes of it by a reset. -/
theorem retraces_reset (hnew : (Arena.create config supply).result = .ok a)
    (hext : a.chunks.Extends s.arena.chunks) :
    Retraces { arena := a } (s.step .reset) {} := by
  have hsound := Arena.sound_create hnew
  obtain ⟨-, _, supply', hchunks, rfl⟩ := Arena.create_eq_ok hnew
  obtain ⟨first, -, -, rfl⟩ := Chunks.create_eq_ok hchunks
  exact ⟨invariant_of_sound hsound,
    invariant_of_sound (Arena.sound_reset (hext.sound hsound.chunks)), rfl, .of_extends hext⟩

end Session

/-- The payload size, rounded up, of the block that a call asks for. -/
def Call.asks : Call → Option Nat
  | .allocate _ size | .reallocate _ none size => alignUp size
  | .zeroAllocate _ count size => (checkedMul count size).bind alignUp
  | .reallocate _ (some _) _ | .free _ | .reset | .write .. => none

namespace Call

variable {c : Call} {n : Nat}

/-- A request is rounded up before anything else. -/
theorem Takes.of_alignUp {a : Arena} {g : Supply} {size : Nat} (h : c.Takes a g size)
    (halign : alignUp size = some n) : c.Takes a g n := by
  have hsame : a.takeBlock g size = a.takeBlock g n := by
    simp only [Arena.takeBlock, halign, alignUp_alignUp halign]
  obtain ⟨hresult, hlayout⟩ := h
  rw [hsame] at hresult hlayout
  exact ⟨hresult, hlayout⟩

/-- A call that asks for a block takes it. -/
theorem takes_of_asks (h : c.asks = some n) :
    alignUp n = some n ∧ ∃ g, ∀ a : Arena, c.Takes a g n := by
  cases c with
  | allocate g size =>
    exact ⟨alignUp_alignUp h, g, fun a => (takes_allocate a g size).of_alignUp h⟩
  | zeroAllocate g count size =>
    obtain ⟨total, hmul, halign⟩ := Option.bind_eq_some_iff.1 h
    exact ⟨alignUp_alignUp halign, g, fun a => (takes_zeroAllocate hmul).of_alignUp halign⟩
  | reallocate g p size =>
    cases p with
    | none => exact ⟨alignUp_alignUp h, g, fun a => (takes_reallocate_none a g size).of_alignUp h⟩
    | some b => cases h
  | free p => cases h
  | reset => cases h
  | write b offset n f => cases h

end Call

namespace Session

variable {config : Config} {supply : Supply} {a : Arena} {c c' : Call} {n n' : Nat} {p : Address}

/-- The address says which block it was. -/
theorem map_payload_eq_ok_iff {x : Except AllocError Block} {b : Block} :
    (x.map Block.payload).map some = .ok (some b.payload) ↔ x = .ok b := by
  constructor
  · intro h
    cases x with
    | error e => cases h
    | ok d => exact congrArg _ (Block.payload_injective (Option.some.inj (Except.ok.inj h)))
  · rintro rfl
    rfl

/-- The first block of a new arena is at the front of a chunk that stays. -/
theorem first_block (hnew : (Arena.create config supply).result = .ok a) {g : Supply} {b : Block}
    (hb : (a.takeBlock g n).result = .ok b) :
    b.start = 0 ∧ b.chunk < (a.takeBlock g n).state.1.layout.length := by
  have hsound := Arena.sound_create hnew
  rcases hsound.takeBlock_cases g n with ⟨err, herr, -⟩ | ⟨e, t, hok, -, ht⟩
  · rw [hb] at herr
    cases herr
  · rw [hb] at hok
    cases hok
    obtain ⟨length, hlength, -⟩ := ht.sound.holds (Tiling.mem_of_live ht.mem_live)
    refine ⟨?_, (List.getElem?_eq_some_iff.1 hlength).1⟩
    -- The free list of a new arena is empty, so the block was carved, from a chunk of which nothing
    -- was.
    rcases ht.origin with hperm | ⟨-, hstart⟩
    · cases hperm.nil_eq
    · obtain ⟨-, _, supply', hchunks, rfl⟩ := Arena.create_eq_ok hnew
      exact hstart.trans ((Chunks.sound_create hchunks).2 _)

/-- The first block after a reset is where the first one ever was exactly if that chunk is the first
with room for it, and so it is if the two are as long as each other. -/
theorem first_after_reset (hnew : (Arena.create config supply).result = .ok a)
    (hc : c.asks = some n) (hc' : c'.asks = some n') (hp : (c.perform a).result = .ok (some p))
    (cs : List Call) :
    let rewound := ((step { arena := a } c).run cs).step .reset
    ((c'.perform rewound.arena).result = .ok (some p) ↔
      rewound.arena.chunks.FirstRoom n' p.chunk) ∧
      (n = n' → (c'.perform rewound.arena).result = .ok (some p)) := by
  intro rewound
  have hfirst := extends_step { arena := a } c
  have hrest := extends_run (step { arena := a } c) cs
  have hretraces : Retraces { arena := a } rewound {} := retraces_reset hnew (hfirst.trans hrest)
  obtain ⟨-, g, htakes⟩ := c.takes_of_asks hc
  obtain ⟨halign', g', htakes'⟩ := c'.takes_of_asks hc'
  rw [(htakes a).result] at hp
  obtain ⟨q, hq⟩ := exists_of_map_eq_ok hp
  obtain ⟨b, hb⟩ := exists_of_map_eq_ok hq
  obtain ⟨hstart, hlt⟩ := first_block hnew hb
  have hbp : b.payload = p := by
    rw [hb] at hp
    exact Option.some.inj (Except.ok.inj hp)
  -- The chunk of the first block is still there, however many came after it.
  have hfits : (a.takeBlock g n).state.1.layout <+: rewound.arena.layout := by
    have hprefix := hrest.layout
    rw [arena_step, ← Chunks.layout_rewind (run _ cs).arena.chunks] at hprefix
    rw [← (htakes a).layout]
    exact hprefix
  have hi : b.chunk < rewound.arena.chunks.count := by
    rw [← Chunks.length_layout]
    exact Nat.lt_of_lt_of_le hlt hfits.length_le
  have hblock : b = ⟨b.chunk, 0⟩ := by rw [← hstart]
  subst hbp
  rw [(htakes' rewound.arena).result, map_payload_eq_ok_iff]
  constructor
  · -- Nothing is carved after a reset, so only the lengths of the chunks decide.
    have hempty : ∀ j, rewound.arena.chunks.usedAt j = 0 := Chunks.usedAt_rewind _
    rw [hblock]
    exact Arena.takeBlock_iff_firstRoom hretraces.again.sound hempty halign' hi g'
  · rintro rfl
    obtain ⟨e, t', rfl, ht⟩ := Arena.takeBlock_retraces hretraces.first.sound
      hretraces.again.sound hretraces.chunks hb hfits g'
    exact ht.result'

/-- **A reset starts the same story again.** A script that a new arena grants, step by step, comes
to the same after any calls and a reset: the same pointers, and after every step the same bytes
carved and the same free list, without another chunk. And the first block after a reset is where the
first one ever was exactly if that chunk is the first with room for it, as it is for one of the same
length.

The calls `cs` in between are meant to keep to the contract, as those of the script do. There is no
hypothesis that they do, because all that is used of them is that they only add chunks. -/
theorem reset_replays (hnew : (Arena.create config supply).result = .ok a) :
    (∀ (script script' : List (Request × Supply)) (cs : List Call),
      script'.map Prod.fst = script.map Prod.fst →
      let fresh : Session := { arena := a }
      let first := fresh.calls [] script
      let rewound := ((fresh.run first).run cs).step .reset
      let again := rewound.calls [] script'
      Keeps Respects fresh first → (∀ r ∈ fresh.answers first, ∃ q, r = .ok q) →
        rewound.answers again = fresh.answers first ∧
        (rewound.history again).map Stats.seen = (fresh.history first).map Stats.seen ∧
        ∀ stats ∈ rewound.history again, stats.chunkCount = rewound.arena.chunks.count ∧
          stats.capacity = rewound.arena.capacity) ∧
    ∀ (before cs after : List Call) (c c' : Call) (n n' : Nat) (p : Address),
      let fresh : Session := run { arena := a } before
      let rewound := ((fresh.step c).run cs).step .reset
      let s := rewound.run after
      Keeps Respects { arena := a } before → Keeps Respects rewound after →
      (∀ r ∈ answers { arena := a } before, ∀ q, r ≠ .ok (some q)) →
      (∀ r ∈ rewound.answers after, ∀ q, r ≠ .ok (some q)) →
      c.asks = some n → c'.asks = some n' → (c.perform fresh.arena).result = .ok (some p) →
        ((c'.perform s.arena).result = .ok (some p) ↔ s.arena.chunks.FirstRoom n' p.chunk) ∧
        (n = n' → (c'.perform s.arena).result = .ok (some p)) := by
  constructor
  · intro script script' cs hsame fresh first rewound again hkeeps hgranted
    have hrest := extends_run (fresh.run first) cs
    have hretraces := retraces_reset hnew ((extends_run fresh first).trans hrest)
    refine hretraces.run hsame hkeeps hgranted ?_
    have hprefix := hrest.layout
    rw [← Chunks.layout_rewind ((fresh.run first).run cs).arena.chunks] at hprefix
    exact hprefix
  · intro before cs after c c' n n' p fresh rewound s hbefore hafter hnone hnone' hc hc' hp
    have hfresh : fresh = { arena := a } := (blank_new hnew).run hbefore hnone
    have hs : s = rewound := (blank_reset _).run hafter hnone'
    rw [hs]
    simp only [rewound, hfresh] at hp ⊢
    exact first_after_reset hnew hc hc' hp cs

/-- Blocks in two chunks, one freed and recycled, one shrunk; and the same again for an arena that
has grown once more, without memory left. -/
theorem reset_replays_of_run :
    ∃ a, (Arena.create { initialCapacity := 64 } .unlimited).result = .ok a ∧
      let script : List Request := [.allocate 100, .zeroAllocate 1 16, .free (some 0),
        .reallocate (some 1) 48, .reallocate (some 3) 10]
      let first := calls { arena := a } [] (script.map (·, .unlimited))
      let rewound := (run (run { arena := a } first) [.allocate .unlimited 1000]).step .reset
      let again := rewound.calls [] (script.map (·, .limited 0))
      rewound.arena.chunks.count = 3 ∧
        rewound.answers again = [.ok (some ⟨1, 32⟩), .ok (some ⟨1, 176⟩), .ok none,
          .ok (some ⟨1, 32⟩), .ok (some ⟨1, 32⟩)] := by
  have hnew : (Arena.create { initialCapacity := 64 } .unlimited).result =
      .ok { chunks := ⟨[{ length := 64 }], 0, 2, none⟩ } := rfl
  refine ⟨_, hnew, ?_⟩
  intro script first rewound again
  have hanswers : answers { arena := { chunks := ⟨[{ length := 64 }], 0, 2, none⟩ } } first =
      [.ok (some ⟨1, 32⟩), .ok (some ⟨1, 176⟩), .ok none, .ok (some ⟨1, 32⟩),
        .ok (some ⟨1, 32⟩)] := by decide +kernel
  obtain ⟨hsame, -, -⟩ := (reset_replays hnew).1 (script.map (·, .unlimited))
    (script.map (·, .limited 0)) [.allocate .unlimited 1000] rfl (by decide +kernel) (by
      rw [hanswers]
      simp)
  exact ⟨by decide +kernel, hsame.trans hanswers⟩

/-- The first block was too long for the first chunk; the first one after the reset is not. -/
theorem first_block_elsewhere :
    ∃ a, (Arena.create { initialCapacity := 64 } .unlimited).result = .ok a ∧
      ((Call.allocate .unlimited 100).perform a).result = .ok (some ⟨1, 32⟩) ∧
      ((Call.allocate .unlimited 16).perform
        (run { arena := a } [.allocate .unlimited 100, .reset]).arena).result =
          .ok (some ⟨0, 32⟩) :=
  ⟨{ chunks := ⟨[{ length := 64 }], 0, 2, none⟩ }, rfl, by decide +kernel, by decide +kernel⟩

end Session

end ArenaAlloc

import ArenaAlloc.Proofs.Replay

/-!
# What the log tells

An arena's log can be read without the arena. `Chunks.Logs` lists what a request can log, with its
answer and with what it does to the chunks: one event if a chunk is added or could not be, and else
none. Each layer hands on the events of the one below, so there is one lemma for each of them, up to
`Session.logs_request`.

Of a whole run the log tells how long the chunks are. `Accounts` is that, for any part of a log; it
is composed along the calls of a run (`accounts_run`). So the capacity is the first chunk's and what
growth added to it, and every event of growth has the right number and the right sum
(`log_accounts`).

`Logs` is indexed by the answer, the layout after and the events. So from an answer the events can
be read off by cases, and the other way round, with no computation left to do: that is what the
lemmas after it are. They are what `Session.Reports` is made of, the relation of answers to log
entries that holds for every call which is tolerated.

Messages and fields are in the statements as they are in the log (`Event.entry`), with the number
that belongs in each field; so a field that names the wrong capacity would not be missed. The log is
that of a build with debug assertions; in others the entries for a second free are not there, and
the rest is the same.
-/

namespace ArenaAlloc

namespace Event

/-- What stands in the log. -/
def entry (e : Event) : String × List (String × Value) := (e.message, e.fields)

/-- The length of the chunk that an event tells was added. -/
def bytesAdded? : Event → Option Nat
  | grew _ bytes _ => some bytes
  | created _ | released .. | reset .. | growthRefused .. | growthFailed .. | alreadyFreed _
  | creationFailed _ => none

/-- The lengths of the chunks that a log tells were added. -/
def growths (log : List Event) : List Nat := log.filterMap bytesAdded?

@[simp] theorem growths_nil : growths [] = [] := rfl

@[simp] theorem growths_append (es fs : List Event) :
    growths (es ++ fs) = growths es ++ growths fs :=
  List.filterMap_append

@[simp] theorem growths_grew (chunk bytes capacity : Nat) (log : List Event) :
    growths (grew chunk bytes capacity :: log) = bytes :: growths log := rfl

end Event

open Event (growths)

/-! ## Logs and layouts

What is said of the events of growth is said by position: with the log split at one of them, the
growths before it are those of the prefix, and they determine the number of the chunk and the
capacity. In this form the statement goes through an append, where only the layout to start from
changes. -/

/-- The log tells how chunks of the lengths `l` became those of the lengths `l'`: growth adds the
ones that it names, in this order, and says for each of them which number it has and what the
capacity is with it. -/
structure Accounts (l : Layout) (log : List Event) (l' : Layout) : Prop where
  layout : l' = l ++ growths log
  numbered : ∀ pre chunk bytes capacity post, log = pre ++ .grew chunk bytes capacity :: post →
    chunk = l.length + (growths pre).length ∧ capacity = total l + total (growths pre) + bytes

namespace Accounts

variable {l l' l'' : Layout} {es fs : List Event}

theorem nil (l : Layout) : Accounts l [] l := by
  refine ⟨(List.append_nil l).symm, fun pre chunk bytes capacity post heq => ?_⟩
  exact absurd (List.nil_eq_append_iff.1 heq).2 (List.cons_ne_nil _ _)

theorem grew (l : Layout) (bytes : Nat) :
    Accounts l [.grew l.length bytes (total l + bytes)] (l ++ [bytes]) := by
  refine ⟨rfl, fun pre chunk bytes' capacity post heq => ?_⟩
  cases pre with
  | nil =>
    cases heq
    exact ⟨rfl, rfl⟩
  | cons e pre =>
    cases (List.append_eq_nil_iff.1 (List.cons.inj heq).2.symm).2

/-- An event that is not of growth says nothing about the chunks. -/
theorem other {e : Event} (h : e.bytesAdded? = none) (l : Layout) : Accounts l [e] l := by
  refine ⟨?_, fun pre chunk bytes capacity post heq => ?_⟩
  · simp only [growths, List.filterMap_cons, h, List.filterMap_nil, List.append_nil]
  · cases pre with
    | nil =>
      cases heq
      cases h
    | cons e pre =>
      cases (List.append_eq_nil_iff.1 (List.cons.inj heq).2.symm).2

/-- Parts of a log compose, if the second one starts where the first one ends. -/
theorem append (h : Accounts l es l') (h' : Accounts l' fs l'') : Accounts l (es ++ fs) l'' := by
  refine ⟨?_, fun pre chunk bytes capacity post heq => ?_⟩
  · rw [h'.layout, h.layout, Event.growths_append, List.append_assoc]
  · rcases List.append_eq_append_iff.1 heq with ⟨mid, rfl, hfs⟩ | ⟨mid, hes, hmid⟩
    · -- The growth is in the second part, and all of the first comes before it.
      obtain ⟨hchunk, hcapacity⟩ := h'.numbered mid chunk bytes capacity post hfs
      rw [h.layout] at hchunk hcapacity
      simp only [List.length_append, total_append, Event.growths_append] at hchunk hcapacity ⊢
      exact ⟨by omega, by omega⟩
    · cases mid with
      | nil =>
        obtain ⟨hchunk, hcapacity⟩ := h'.numbered [] chunk bytes capacity post hmid.symm
        rw [List.append_nil] at hes
        rw [h.layout, hes] at hchunk hcapacity
        simp only [List.length_append, total_append, Event.growths_nil, List.length_nil,
          total_nil] at hchunk hcapacity
        exact ⟨by omega, by omega⟩
      | cons e mid =>
        obtain ⟨rfl, -⟩ := List.cons.inj hmid
        exact h.numbered pre chunk bytes capacity mid hes

end Accounts

/-! ## Requests

From growing to carving to taking a block each layer hands on what the one below logged, and each
lemma is the one below it with the layer's own refusals added. -/

namespace Chunks

variable {ρ κ : Type} {c : Chunks} {s : Supply} {size : Nat}

/-- What a request logs, from its answer and the lengths of the chunks after it. -/
inductive Logs (c : Chunks) (s : Supply) : Except AllocError ρ → Layout → List Event → Prop
  /-- A block is found among those there are. -/
  | quiet (r : ρ) : Logs c s (.ok r) c.layout []
  | grew (r : ρ) (length : Nat) :
    Logs c s (.ok r) (c.layout ++ [length]) [.grew c.count length (c.capacity + length)]
  | overflowed (count size : Nat) : Logs c s (.error (.sizeOverflow count size)) c.layout []
  | refused (requested limit : Nat) :
    Logs c s (.error (.capacityExceeded requested c.capacity limit)) c.layout
      [.growthRefused c.capacity requested limit]
  /-- There are too many chunks already. -/
  | crowded (h : chunkLimit ≤ c.count) : Logs c s (.error (.outOfMemory 0)) c.layout []
  | failed (length : Nat) (h : s.obtain length = .error (.outOfMemory length)) :
    Logs c s (.error (.outOfMemory length)) c.layout
      [.growthFailed c.capacity length (.outOfMemory length)]

namespace Logs

variable {r : Except AllocError ρ} {l : Layout} {es : List Event}

theorem map (f : ρ → κ) (h : c.Logs s r l es) : c.Logs s (r.map f) l es := by
  cases h with
  | quiet r => exact .quiet (f r)
  | grew r length => exact .grew (f r) length
  | overflowed count size => exact .overflowed count size
  | refused requested limit => exact .refused requested limit
  | crowded h => exact .crowded h
  | failed length h => exact .failed length h

theorem accounts (h : c.Logs s r l es) : Accounts c.layout es l := by
  cases h with
  | quiet r => exact .nil _
  | grew r length =>
    rw [← length_layout]
    exact .grew c.layout length
  | overflowed count size => exact .nil _
  | refused requested limit => exact .other rfl _
  | crowded h => exact .nil _
  | failed length h => exact .other rfl _

theorem of_ok {p : ρ} (h : c.Logs s (.ok p) l es) :
    l = c.layout ∧ es = [] ∨
      ∃ length, l = c.layout ++ [length] ∧ es = [.grew c.count length (total l)] := by
  cases h with
  | quiet => exact .inl ⟨rfl, rfl⟩
  | grew _ length =>
    refine .inr ⟨length, rfl, ?_⟩
    rw [total_append]
    rfl

theorem of_sizeOverflow {count size : Nat}
    (h : c.Logs s (.error (.sizeOverflow count size) : Except AllocError ρ) l es) : es = [] := by
  cases h
  rfl

theorem of_capacityExceeded {requested capacity limit : Nat}
    (h : c.Logs s (.error (.capacityExceeded requested capacity limit) : Except AllocError ρ)
      l es) :
    es = [.growthRefused capacity requested limit] := by
  cases h
  rfl

theorem of_outOfMemory {n : Nat} (hn : n ≠ 0)
    (h : c.Logs s (.error (.outOfMemory n) : Except AllocError ρ) l es) :
    s.obtain n = .error (.outOfMemory n) ∧ es = [.growthFailed c.capacity n (.outOfMemory n)] := by
  cases h with
  | crowded => exact absurd rfl hn
  | failed _ hrefused => exact ⟨hrefused, rfl⟩

/-- Asking for a chunk of no bytes is refused for another reason. -/
theorem of_outOfMemory_zero (h : c.Logs s (.error (.outOfMemory 0) : Except AllocError ρ) l es) :
    chunkLimit ≤ c.count ∧ es = [] := by
  cases h with
  | crowded hcount => exact ⟨hcount, rfl⟩
  | failed _ hrefused => cases hrefused

end Logs

/-- One constructor for each way through: no length for the chunk, a length past the ceiling, too
many chunks, no memory, and growth. -/
theorem logs_grow (c : Chunks) (s : Supply) {total : Nat} (hpos : 0 < total) :
    c.Logs s (c.grow s total).result (c.grow s total).state.1.layout (c.grow s total).events := by
  cases hnext : c.nextLength total with
  | none =>
    simp only [grow, hnext]
    exact .overflowed 1 total
  | some length =>
    cases hexceeds : c.exceeds length with
    | true =>
      obtain ⟨limit, hceiling, -⟩ := exceeds_eq_true_iff.1 hexceeds
      simp only [grow, hnext, hceiling, hexceeds]
      exact .refused length limit
    | false =>
      rw [grow_of_within hnext hexceeds]
      split
      · exact .crowded ‹_›
      · cases hobtain : s.obtain length with
        | error e =>
          have hlength := Nat.lt_of_lt_of_le hpos (le_of_nextLength hnext)
          obtain rfl := Supply.obtain_eq_error hobtain hlength
          exact .failed length hobtain
        | ok s' =>
          simp only [layout_added, capacity_added]
          exact .grew c.count length

/-- Where no chunk has room, carving logs what growing does. -/
theorem logs_carve (c : Chunks) (s : Supply) (size : Nat) :
    c.Logs s (c.carve s size).result (c.carve s size).state.1.layout (c.carve s size).events := by
  cases hroom : c.roomFor? size with
  | some i =>
    have hfirst := FirstRoom.of_roomFor? hroom
    obtain ⟨k, hk, -⟩ := hfirst.2.1
    rw [carve_of_firstRoom hfirst hk]
    show c.Logs s _ ((c.list.set i (k.take size)).map Chunk.length) []
    rw [map_length_set_take hk]
    exact .quiet _
  | none =>
    rcases Nat.lt_or_ge (size + headerSize) wordLimit with hlt | hge
    · have hpos : 0 < size + headerSize := Nat.add_pos_right size (by decide)
      have hlogs := (c.logs_grow s hpos).map fun i => Block.mk i 0
      simp only [carve, hroom, Option.bind_none, checkedAdd_of_lt hlt, Outcome.result_andThen,
        Outcome.state_andThen, Outcome.events_andThen]
      rcases c.grow_cases s (size + headerSize) with ⟨e, hr, hst⟩ | ⟨length, s', hgrows, hr, hst⟩
      · simp only [hr, hst, List.append_nil] at hlogs ⊢
        exact hlogs
      · have hat := c.carveAt_added (le_of_nextLength hgrows.next)
        have hlayout := layout_carveAt hat
        simp only [hr, hst, hat, List.append_nil] at hlogs ⊢
        rw [hlayout]
        exact hlogs
    · simp only [carve, hroom, Option.bind_none, checkedAdd_of_le hge]
      exact .overflowed 1 size

end Chunks

namespace Arena

variable {a : Arena} {t : Tiling} {e : Extent}

/-- A block from the free list logs nothing. -/
theorem logs_takeBlock (a : Arena) (s : Supply) (size : Nat) :
    a.chunks.Logs s (a.takeBlock s size).result (a.takeBlock s size).state.1.layout
      (a.takeBlock s size).events := by
  cases halign : alignUp size with
  | none =>
    simp only [takeBlock, halign]
    exact .overflowed 1 size
  | some n =>
    cases hfit : a.heap.firstFit? a.layout n with
    | some found =>
      simp only [takeBlock, halign, hfit]
      exact .quiet _
    | none =>
      have hlogs := a.chunks.logs_carve s n
      simp only [takeBlock, halign, hfit, Outcome.result_andThen, Outcome.state_andThen,
        Outcome.events_andThen]
      cases hcarve : (a.chunks.carve s n).result with
      | error err =>
        rw [hcarve] at hlogs
        simp only [List.append_nil]
        exact hlogs
      | ok b =>
        rw [hcarve] at hlogs
        simp only [List.append_nil]
        exact hlogs

theorem events_zeroAllocate {s : Supply} {count size n : Nat} (h : checkedMul count size = some n) :
    (a.zeroAllocate s count size).events = (a.takeBlock s n).events := by
  simp only [zeroAllocate, h, Outcome.events_andThen]
  cases (a.takeBlock s n).result <;> exact List.append_nil _

theorem events_giveBlock (a : Arena) (b : Block) :
    (a.giveBlock b).events = if a.heap.memory.isFreed b then [.alreadyFreed b.payload] else [] := by
  unfold giveBlock
  split <;> rfl

/-- A new arena logs the length of its first chunk. -/
theorem events_create {config : Config} {s : Supply} (h : (create config s).result = .ok a) :
    ∃ first, a.layout = [first] ∧ (create config s).events = [.created first] := by
  obtain ⟨hvalid, c, s', hchunks, rfl⟩ := create_eq_ok h
  obtain ⟨first, -, -, hc⟩ := Chunks.create_eq_ok hchunks
  have hlayout : c.layout = [first] := by rw [hc]; rfl
  refine ⟨first, hlayout, ?_⟩
  simp only [create, Config.validate_eq_ok_iff.2 hvalid, hchunks, Chunks.capacity, hlayout]
  rfl

/-- The block that is moved is in use until it is freed, so freeing it logs nothing. -/
theorem Sound.events_reallocate {s : Supply} {size n : Nat} (h : a.Sound t) (he : e ∈ t.live)
    (halign : alignUp size = some n) (hgrows : e.size < n) :
    (a.reallocate s (some e.block.payload) size).events = (a.takeBlock s n).events := by
  have hsize := h.blockSize_eq (Tiling.mem_of_live he)
  simp only [reallocate, halign, Block.ofPayload_payload, hsize, if_neg (Nat.not_le.2 hgrows),
    Outcome.events_andThen]
  rcases h.takeBlock_cases s n with ⟨err, hr, -⟩ | ⟨f, t', hr, hle, ht⟩
  · rw [hr]
    exact List.append_nil _
  · have hge : e.size ≤ f.size := Nat.le_of_lt (Nat.lt_of_lt_of_le hgrows hle)
    -- Copying into the new block leaves all headers, and so the mark of the old one.
    obtain ⟨hcopied, hlive⟩ := Session.sound_copyPayload ht he hge
    have hfreed := hcopied.isFreed_of_live hlive
    simp only [hr, Outcome.events_mapState, Outcome.events_map, events_giveBlock, hfreed]
    exact List.append_nil _

end Arena

/-! ## Calls

`Call.events` is what the log has of a call, the same record that the program makes. A zero fill and
a copy log nothing, so the log of the calls that use them is that of the block they take. Freeing
the old block of a reallocation could log a second free; that it does not is
`Sound.events_reallocate`. -/

/-- What a call logs. -/
def Call.events (c : Call) (a : Arena) : List Event :=
  match c with
  | .allocate s size => (a.allocate s size).events
  | .zeroAllocate s count size => (a.zeroAllocate s count size).events
  | .reallocate s p size => (a.reallocate s (p.map Block.payload) size).events
  | .free p => (a.free (p.map Block.payload)).events
  | .reset => a.reset.events
  | .write .. => []

/-- Only a request is refused. -/
theorem Call.exists_supply_of_error {c : Call} {a : Arena} {e : AllocError}
    (h : (c.perform a).result = .error e) : ∃ g, c.supply? = some g := by
  cases c with
  | allocate g size => exact ⟨g, rfl⟩
  | zeroAllocate g count size => exact ⟨g, rfl⟩
  | reallocate g p size => exact ⟨g, rfl⟩
  | free p => cases h
  | reset => cases h
  | write b offset n f => cases h

/-- A call that takes a block logs what taking it does, if it logs nothing else. -/
theorem Call.logs_of_takes {c : Call} {a : Arena} {s : Supply} {n : Nat} (h : c.Takes a s n)
    (hevents : c.events a = (a.takeBlock s n).events) :
    a.chunks.Logs s (c.perform a).result (c.perform a).state.1.layout (c.events a) := by
  rw [h.result, h.layout, hevents]
  exact ((a.logs_takeBlock s n).map Block.payload).map some

namespace Session

variable {s : Session} {t : Tiling} {c : Call} {g : Supply} {b : Block} {cs : List Call}

/-- **What a request logs**, in any session, if it is tolerated. -/
theorem logs_request (h : s.Invariant t) (hc : s.Tolerates c) (hg : c.supply? = some g) :
    s.arena.chunks.Logs g (c.perform s.arena).result (s.step c).arena.layout
      (c.events s.arena) := by
  rw [arena_step]
  cases c with
  | allocate supply size =>
    cases hg
    exact Call.logs_of_takes (Call.takes_allocate s.arena g size) rfl
  | zeroAllocate supply count size =>
    cases hg
    cases hmul : checkedMul count size with
    | none =>
      simp only [Call.perform, Call.events, Arena.zeroAllocate, hmul]
      exact .overflowed count size
    | some n =>
      exact Call.logs_of_takes (Call.takes_zeroAllocate hmul) (Arena.events_zeroAllocate hmul)
  | reallocate supply p size =>
    cases hg
    cases p with
    | none => exact Call.logs_of_takes (Call.takes_reallocate_none s.arena g size) rfl
    | some b =>
      obtain ⟨e, he, rfl⟩ := h.exists_live (hc b rfl)
      have hsize := h.sound.blockSize_eq (Tiling.mem_of_live he)
      cases halign : alignUp size with
      | none =>
        simp only [Call.perform, Call.events, Option.map_some, Arena.reallocate, halign]
        exact .overflowed 1 size
      | some n =>
        rcases Nat.lt_or_ge e.size n with hgrows | hfits
        · exact Call.logs_of_takes (Call.takes_reallocate halign (hsize.symm ▸ hgrows))
            (h.sound.events_reallocate he halign hgrows)
        · simp only [Call.perform, Call.events, Option.map_some,
            h.sound.reallocate_of_le he halign hfits]
          exact .quiet _
  | free p => cases hg
  | reset => cases hg
  | write b offset n f => cases hg

/-- **A block that is free already is ignored, and that is logged.** -/
theorem events_free (h : s.Invariant t) (hc : s.Tolerates (.free (some b))) :
    (Call.free (some b)).events s.arena =
      if b ∈ s.ledger.live then [] else [.alreadyFreed b.payload] := by
  simp only [Call.events, Option.map_some, Arena.free, Block.ofPayload_payload,
    Arena.events_giveBlock]
  by_cases hlive : b ∈ s.ledger.live
  · obtain ⟨e, he, rfl⟩ := h.exists_live hlive
    rw [h.sound.isFreed_of_live he, if_pos hlive]
    rfl
  · rw [h.isFreed_of_tolerates hc hlive, if_neg hlive, if_pos rfl]

/-- **A call accounts for what it does to the chunks.** -/
theorem accounts_step (h : s.Invariant t) (hc : s.Tolerates c) :
    Accounts s.arena.layout (c.events s.arena) (s.step c).arena.layout := by
  cases hg : c.supply? with
  | some g => exact (logs_request h hc hg).accounts
  | none =>
    cases c with
    | allocate supply size => cases hg
    | zeroAllocate supply count size => cases hg
    | reallocate supply p size => cases hg
    | free p =>
      have hlayout : (s.step (.free p)).arena.layout = s.arena.layout :=
        congrArg Chunks.layout (s.chunks_free p)
      rw [hlayout]
      cases p with
      | none => exact .nil _
      | some b =>
        rw [events_free h hc]
        split
        · exact .nil _
        · exact .other rfl _
    | reset =>
      have hlayout : (s.step .reset).arena.layout = s.arena.layout :=
        s.arena.chunks.layout_rewind
      rw [hlayout]
      exact .other rfl _
    | write b offset n f => exact .nil _

/-! ## Runs

The induction is on the calls. What it needs of each is that it is tolerated where it is made, which
calls within the contract are in every state that such calls lead to. -/

/-- What is logged in a run, call by call. -/
def log : Session → List Call → List Event
  | _, [] => []
  | s, c :: cs => c.events s.arena ++ log (s.step c) cs

/-- **A run accounts for what it does to the chunks.** -/
theorem accounts_run (h : Reachable Respects s) (hkeeps : Keeps Respects s cs) :
    Accounts s.arena.layout (s.log cs) (s.run cs).arena.layout := by
  induction cs generalizing s with
  | nil => exact .nil _
  | cons c cs ih =>
    obtain ⟨hc, hkeeps⟩ := hkeeps
    obtain ⟨t, ht⟩ := h.valid
    exact (accounts_step ht (ht.tolerates hc)).append (ih (h.step hc) hkeeps)

/-- What stands in the log after a call, from what the call comes to. -/
structure Reports (s : Session) (c : Call) : Prop where
  exceeded : ∀ requested capacity limit,
    (c.perform s.arena).result = .error (.capacityExceeded requested capacity limit) →
      (c.events s.arena).map Event.entry = [("arena growth refused",
        [("capacity", .number capacity), ("requested", .number requested),
          ("limit", .number limit)])]
  /-- The supply is asked for a chunk of `n` bytes and refuses it. -/
  failed : ∀ n, n ≠ 0 → (c.perform s.arena).result = .error (.outOfMemory n) →
    (∃ g, c.supply? = some g ∧ g.obtain n = .error (.outOfMemory n)) ∧
      (c.events s.arena).map Event.entry = [("arena growth failed",
        [("capacity", .number s.arena.capacity), ("requested", .number n),
          ("error", .text (AllocError.outOfMemory n).message)])]
  /-- Chunks could no longer be told apart, and none is asked for. -/
  crowded : (c.perform s.arena).result = .error (.outOfMemory 0) →
    chunkLimit ≤ s.arena.chunks.count ∧ c.events s.arena = []
  overflowed : ∀ count size, (c.perform s.arena).result = .error (.sizeOverflow count size) →
    c.events s.arena = []
  /-- A request is served from the chunks there are, in whatever way, or from one more. -/
  served : ∀ g p, c.supply? = some g → (c.perform s.arena).result = .ok p →
    ((s.step c).arena.layout = s.arena.layout ∧ c.events s.arena = []) ∨
      ∃ length, (s.step c).arena.layout = s.arena.layout ++ [length] ∧
        (c.events s.arena).map Event.entry = [("arena grew",
          [("chunk", .number s.arena.chunks.count), ("chunk_bytes", .number length),
            ("capacity", .number (s.step c).arena.capacity)])]
  freed : ∀ b, c = .free (some b) → (c.events s.arena).map Event.entry =
    if b ∈ s.ledger.live then []
    else [("ignoring free of an already freed block", [("address", .address b.payload)])]
  freedNothing : c = .free none → c.events s.arena = []
  reset : c = .reset → (c.events s.arena).map Event.entry = [("arena reset",
    [("used", .number s.arena.chunks.used), ("capacity", .number s.arena.capacity)])]

theorem exists_logs_of_error {e : AllocError} (h : s.Invariant t) (hc : s.Tolerates c)
    (hr : (c.perform s.arena).result = .error e) :
    ∃ g, c.supply? = some g ∧ s.arena.chunks.Logs g (.error e : Except AllocError (Option Address))
      (s.step c).arena.layout (c.events s.arena) := by
  obtain ⟨g, hg⟩ := Call.exists_supply_of_error hr
  exact ⟨g, hg, hr ▸ logs_request h hc hg⟩

/-- **The log agrees with the answers**, number by number. -/
theorem Invariant.reports (h : s.Invariant t) (hc : s.Tolerates c) : s.Reports c := by
  refine
    { exceeded := ?exceeded, failed := ?failed, crowded := ?crowded, overflowed := ?overflowed
      served := ?served, freed := ?freed, freedNothing := ?freedNothing, reset := ?reset }
  case exceeded =>
    intro requested capacity limit hr
    obtain ⟨g, -, hlogs⟩ := exists_logs_of_error h hc hr
    rw [hlogs.of_capacityExceeded]
    rfl
  case failed =>
    intro n hn hr
    obtain ⟨g, hg, hlogs⟩ := exists_logs_of_error h hc hr
    obtain ⟨hrefused, hevents⟩ := Chunks.Logs.of_outOfMemory hn hlogs
    rw [hevents]
    exact ⟨⟨g, hg, hrefused⟩, rfl⟩
  case crowded =>
    intro hr
    obtain ⟨g, -, hlogs⟩ := exists_logs_of_error h hc hr
    exact hlogs.of_outOfMemory_zero
  case overflowed =>
    intro count size hr
    obtain ⟨g, -, hlogs⟩ := exists_logs_of_error h hc hr
    exact hlogs.of_sizeOverflow
  case served =>
    intro g p hg hr
    have hlogs := logs_request h hc hg
    rw [hr] at hlogs
    refine hlogs.of_ok.imp id ?_
    rintro ⟨length, hlayout, hevents⟩
    rw [hevents]
    exact ⟨length, hlayout, rfl⟩
  case freed =>
    rintro b rfl
    rw [events_free h hc]
    split <;> rfl
  case freedNothing =>
    rintro rfl
    rfl
  case reset =>
    rintro rfl
    rfl

variable {config : Config} {supply : Supply} {a : Arena}

/-- **The log accounts for the arena.** The capacity is what the log says at the creation and at
every growth after it, and there is one chunk more than growths; each of them has the index of its
chunk and the capacity with it. Every further call that keeps to the contract adds to the log what
its answer says, and the release the numbers at the end. -/
theorem log_accounts (hnew : (Arena.create config supply).result = .ok a)
    (hkeeps : Keeps Respects { arena := a } cs) :
    let s := run { arena := a } cs
    let events := log { arena := a } cs
    ∃ first,
      (Arena.create config supply).events.map Event.entry =
        [("arena created", [("capacity", .number first)])] ∧
      s.arena.capacity = first + total (growths events) ∧
      s.arena.chunks.count = 1 + (growths events).length ∧
      (∀ pre chunk bytes capacity post, events = pre ++ .grew chunk bytes capacity :: post →
        chunk = 1 + (growths pre).length ∧ s.arena.layout[chunk]? = some bytes ∧
          capacity = first + total (growths pre) + bytes) ∧
      (∀ c, s.Respects c → s.Reports c) ∧
      ∀ g, (s.arena.release g).events.map Event.entry =
        [("arena released", [("chunks", .number s.arena.chunks.count),
          ("capacity", .number s.arena.capacity)])] := by
  intro s events
  have hstart : Reachable Respects { arena := a } := .new config supply hnew
  obtain ⟨t, ht⟩ := (hstart.run hkeeps).valid
  -- The rest is about the run alone: what it accounts for, with one chunk to start from.
  obtain ⟨hlayout, hnumbered⟩ := accounts_run hstart hkeeps
  obtain ⟨first, hone, hcreated⟩ := Arena.events_create hnew
  rw [hone] at hlayout hnumbered
  refine ⟨first, by rw [hcreated]; rfl, ?_, ?_, fun pre chunk bytes capacity post heq => ?_,
    fun c hc => ht.reports (ht.tolerates hc), fun g => rfl⟩
  · show total s.arena.layout = _
    rw [hlayout, List.singleton_append, total_cons]
  · rw [← Chunks.length_layout]
    show s.arena.layout.length = _
    rw [hlayout, List.length_append, List.length_singleton]
  · obtain ⟨hchunk, hcapacity⟩ := hnumbered pre chunk bytes capacity post heq
    rw [total_cons, total_nil, Nat.add_zero] at hcapacity
    refine ⟨hchunk, ?_, hcapacity⟩
    have hgrowths : growths events = growths pre ++ bytes :: growths post := by
      rw [heq, Event.growths_append, Event.growths_grew]
    show s.arena.layout[chunk]? = _
    rw [hlayout, hgrowths, hchunk, List.getElem?_append_right (Nat.le_add_right _ _),
      Nat.add_sub_cancel_left, List.getElem?_append_right (Nat.le_refl _), Nat.sub_self,
      List.getElem?_cons_zero]

/-- The supply refuses a chunk, grants it when it is asked for again, and the ceiling refuses the
next one. A block is freed twice in between. -/
theorem log_accounts_of_run :
    ∃ a, (Arena.create { initialCapacity := 64, maxCapacity := some 200 } .unlimited).result =
        .ok a ∧
      let cs := [.allocate .unlimited 16, .allocate (.limited 0) 40, .allocate .unlimited 40,
        .free (some ⟨0, 0⟩), .free (some ⟨0, 0⟩), .zeroAllocate .unlimited 4 16, .reset]
      let s := run { arena := a } cs
      log { arena := a } cs = [.growthFailed 64 80 (.outOfMemory 80), .grew 1 80 144,
          .alreadyFreed ⟨0, 32⟩, .growthRefused 144 96 200, .reset 128 144] ∧
        s.arena.capacity = 64 + 80 ∧ s.arena.chunks.count = 2 ∧ s.arena.layout[1]? = some 80 ∧
        s.Reports (.allocate .unlimited 100) := by
  have hnew : (Arena.create { initialCapacity := 64, maxCapacity := some 200 } .unlimited).result =
      .ok { chunks := ⟨[{ length := 64 }], 0, 2, some 200⟩ } := rfl
  refine ⟨_, hnew, ?_⟩
  intro cs s
  have hkeeps :
      Keeps Respects { arena := { chunks := ⟨[{ length := 64 }], 0, 2, some 200⟩ } } cs := by
    decide +kernel
  obtain ⟨first, hcreated, hcapacity, hcount, hgrew, hreports, -⟩ := log_accounts hnew hkeeps
  have hentry : (Arena.create { initialCapacity := 64, maxCapacity := some 200 }
      .unlimited).events.map Event.entry = [("arena created", [("capacity", .number 64)])] := rfl
  have hlog : log { arena := { chunks := ⟨[{ length := 64 }], 0, 2, some 200⟩ } } cs =
      [.growthFailed 64 80 (.outOfMemory 80), .grew 1 80 144, .alreadyFreed ⟨0, 32⟩,
        .growthRefused 144 96 200, .reset 128 144] := by decide +kernel
  rw [hentry] at hcreated
  cases hcreated
  rw [hlog] at hcapacity hcount hgrew
  obtain ⟨-, hchunk, -⟩ := hgrew [.growthFailed 64 80 (.outOfMemory 80)] 1 80 144 _ rfl
  exact ⟨hlog, hcapacity, hcount, hchunk, hreports _ trivial⟩

end Session

end ArenaAlloc

import ArenaAlloc.Proofs.Configuration
import ArenaAlloc.Proofs.Lending
import ArenaAlloc.Proofs.Table

/-!
# Where the memory is

The bytes that a supply counts as out are those of the chunks of the arenas that exist
(`Session.memory_accounted`). A step on a thread can have chunks granted; all of them become chunks
of the arena of that thread, behind those that it has, and none is given back
(`Process.Effect.gains`). Only the end of a thread gives chunks back, and then all that its arena
has.

`Supply.Granted` and `Arena.Gains` keep the lengths of the granted chunks as a list, so that more is
said than a sum: which arena got which chunks, in which order.

The account is an equation between a count that the supply keeps and a sum over the slots of the
process. It is kept by adding the same chunks on both sides (`Accounted.effect`), or by taking the
same bytes away (`Accounted.exit`). While an arena is lent, its slot is there but shows no chunks;
so the account of a process in the middle of a closure has what is lent as a number of its own
(`Accounted.lending`).

Two assumptions carry it. Names of slots are distinct, or the sum would count an arena that no
thread finds any more. And an exit gives back what the arena's capacity is, which no operation on
the arena can make less, as chunks are only ever added (`Arena.Becomes.layout`).
-/

namespace ArenaAlloc

/-! ## Granted chunks

A run of grants is kept as the list of what was granted and not as the difference of two counts. Two
such runs are composed by appending the lists, and what a list says of an arena, that its layout has
become longer by just these chunks, no count could say. -/

namespace Supply

/-- Chunks of these lengths were granted, one after another, and none was given back meanwhile. -/
inductive Granted : Supply → List Nat → Supply → Prop
  | nil (s : Supply) : Granted s [] s
  | cons {s s' s'' : Supply} {n : Nat} {ns : List Nat} (first : s.obtain n = .ok s')
      (rest : Granted s' ns s'') : Granted s (n :: ns) s''

namespace Granted

variable {s s' s'' : Supply} {ns ms : List Nat}

/-- Runs of grants compose. -/
theorem append (h : s.Granted ns s') (h' : s'.Granted ms s'') : s.Granted (ns ++ ms) s'' := by
  induction h with
  | nil _ => exact h'
  | cons first _ ih => exact .cons first (ih h')

theorem limit (h : s.Granted ns s') : s'.limit = s.limit := by
  induction h with
  | nil _ => rfl
  | cons first _ ih => exact ih.trans (obtain_eq_ok first).1

theorem contents (h : s.Granted ns s') : s'.contents = s.contents := by
  induction h with
  | nil _ => rfl
  | cons first _ ih => exact ih.trans (contents_of_obtain first)

theorem held (h : s.Granted ns s') : s'.held = s.held + total ns := by
  induction h with
  | nil _ => rfl
  | cons first _ ih =>
    obtain ⟨-, hheld, -⟩ := obtain_eq_ok first
    rw [ih, hheld, total_cons, Nat.add_assoc]

/-- A supply that is within its limit stays so. -/
theorem within (h : s.Granted ns s') (hs : ∀ n, s.limit = some n → s.held ≤ n) :
    ∀ n, s.limit = some n → s'.held ≤ n := by
  induction h with
  | nil _ => exact hs
  | cons first _ ih =>
    obtain ⟨hlimit, -, -, -, hwithin⟩ := obtain_eq_ok first
    rw [hlimit] at ih
    exact ih hwithin

end Granted

end Supply

/-! ## Chunks that an arena gets

`Arena.Gains` relates an arena with its supply to what they become: what the one has granted, the
other has got. It holds of taking a block, and every operation is about chunks what taking a block
is, or nothing (`Operates.takes`). So there is one case to do and not one for each operation. -/

/-- Carving asks for one chunk at the most, and puts it behind the others. -/
theorem Chunks.granted_carve (c : Chunks) (s : Supply) (size : Nat) :
    ∃ ns, s.Granted ns (c.carve s size).state.2 ∧
      (c.carve s size).state.1.layout = c.layout ++ ns := by
  rcases carve_cases c s size with ⟨e, -, hst⟩ | ⟨b, c', s', -, hst, hfrom⟩
  · rw [hst]
    exact ⟨[], .nil s, (List.append_nil _).symm⟩
  · rw [hst]
    rcases hfrom with ⟨i, -, hat, rfl⟩ | ⟨length, -, hgrows, hat⟩
    · exact ⟨[], .nil s', (layout_carveAt hat).trans (List.append_nil _).symm⟩
    · refine ⟨[length], .cons hgrows.obtained (.nil s'), ?_⟩
      rw [layout_carveAt hat, layout_added]

namespace Arena

/-- From the first arena and supply to the second, chunks of these lengths were granted, and the
arena got them behind those that it had. -/
structure Gains (x : Arena × Supply) (ns : List Nat) (y : Arena × Supply) : Prop where
  granted : x.2.Granted ns y.2
  layout : y.1.layout = x.1.layout ++ ns

variable {a : Arena} {s : Supply} {x y z : Arena × Supply} {ns ms : List Nat}

theorem Gains.refl (x : Arena × Supply) : Gains x [] x := ⟨.nil _, (List.append_nil _).symm⟩

theorem Gains.trans (h : Gains x ns y) (h' : Gains y ms z) : Gains x (ns ++ ms) z :=
  ⟨h.granted.append h'.granted, by rw [h'.layout, h.layout, List.append_assoc]⟩

/-- Where there is nothing new about the chunks. -/
theorem Gains.of_layout (hlayout : y.1.layout = x.1.layout) (hsupply : y.2 = x.2) :
    Gains x [] y := by
  refine ⟨?_, ?_⟩
  · rw [hsupply]
    exact .nil _
  · rw [hlayout, List.append_nil]

/-- A block that is on the free list needs no chunk, and one that is carved at most one. -/
theorem gains_takeBlock (a : Arena) (s : Supply) (size : Nat) :
    ∃ ns, Gains (a, s) ns (a.takeBlock s size).state := by
  unfold takeBlock
  split
  · exact ⟨[], .refl (a, s)⟩
  · rename_i aligned _
    split
    · have hlayout : a.chunks.layout = a.layout := rfl
      exact ⟨[], .of_layout hlayout rfl⟩
    · obtain ⟨ns, hgranted, hlayout⟩ := a.chunks.granted_carve s aligned
      refine ⟨ns, ?_⟩
      simp only [Outcome.state_andThen]
      cases (a.chunks.carve s aligned).result <;> exact ⟨hgranted, hlayout⟩

/-- An operation is like taking a block as far as chunks are concerned, or it is not about them. -/
theorem Operates.takes (h : Operates x y) :
    (y.1.layout = x.1.layout ∧ y.2 = x.2) ∨
      ∃ n, y.1.layout = (x.1.takeBlock x.2 n).state.1.layout ∧
        y.2 = (x.1.takeBlock x.2 n).state.2 := by
  cases h with
  | allocate a s size => exact .inr ⟨size, rfl, rfl⟩
  | zeroAllocate a s count size =>
    cases hmul : checkedMul count size with
    | none =>
      simp [Arena.zeroAllocate, hmul]
    | some n =>
      exact .inr ⟨n, congrArg Chunks.layout (a.chunks_zeroAllocate s hmul),
        a.supply_zeroAllocate s hmul⟩
  | reallocate a s p size =>
    cases p with
    | none => exact .inr ⟨size, rfl, rfl⟩
    | some p =>
      cases halign : alignUp size with
      | none =>
        simp [Arena.reallocate, halign]
      | some n =>
        by_cases hfits : n ≤ a.heap.memory.blockSize (Block.ofPayload p)
        · refine .inl ?_
          simp only [Arena.reallocate, halign, if_pos hfits]
          exact ⟨rfl, trivial⟩
        · have hgrows := Nat.not_le.1 hfits
          exact .inr ⟨n, congrArg Chunks.layout (a.chunks_reallocate s halign hgrows),
            a.supply_reallocate s halign hgrows⟩
  | free a s p =>
    cases p with
    | none => exact .inl ⟨rfl, rfl⟩
    | some p => exact .inl ⟨congrArg Chunks.layout (a.chunks_giveBlock _), rfl⟩
  | reset a s => exact .inl ⟨Chunks.layout_rewind a.chunks, rfl⟩
  | write a s p n f => exact .inl ⟨rfl, rfl⟩

theorem Operates.gains (h : Operates x y) : ∃ ns, Gains x ns y := by
  rcases h.takes with ⟨hlayout, hsupply⟩ | ⟨n, hlayout, hsupply⟩
  · exact ⟨[], .of_layout hlayout hsupply⟩
  · obtain ⟨ns, hgranted, hgained⟩ := x.1.gains_takeBlock x.2 n
    exact ⟨ns, hsupply ▸ hgranted, hlayout.trans hgained⟩

theorem Works.gains (h : Works x y) : ∃ ns, Gains x ns y := by
  induction h with
  | refl => exact ⟨[], .refl x⟩
  | tail _ hlast ih =>
    obtain ⟨ns, hns⟩ := ih
    obtain ⟨ms, hms⟩ := hlast.gains
    exact ⟨ns ++ ms, hns.trans hms⟩

theorem Becomes.layout {a a' : Arena} (h : a.Becomes a') : a.layout <+: a'.layout := by
  induction h with
  | refl => exact List.prefix_rfl
  | tail _ hlast ih =>
    obtain ⟨_, _, hoperates⟩ := hlast
    obtain ⟨ns, hns⟩ := hoperates.gains
    exact ih.trans ⟨ns, hns.layout.symm⟩

/-- A new arena has the one chunk that was granted for it. -/
theorem granted_create {config : Config} (h : (create config s).result = .ok a) :
    s.Granted a.layout (create config s).state := by
  unfold create at h ⊢
  split at h
  · cases h
  · split at h
    · cases h
    · rename_i hchunks
      obtain ⟨first, -, hobtain, rfl⟩ := Chunks.create_eq_ok hchunks
      cases h
      exact .cons hobtain (.nil _)

end Arena

/-! ## The arenas of a process

What an effect on a thread does to the supply and to the slots was said by `Process.Effect`. Here
both are put side by side. -/

/-- The chunks of the arena in a slot. They are not there while it is lent. -/
def Slot.layout : Slot → Layout
  | .ready a => a.layout
  | .inUse => []

namespace Process

/-- The chunks of a thread's arena, if it has one. -/
def layoutOf (p : Process) (thread : String) : Layout :=
  ((p.slot? thread).map Slot.layout).getD []

/-- The arenas that exist and are not lent, by thread. -/
def arenas (p : Process) : Table Arena :=
  p.slots.filterMap fun e =>
    match e.2 with
    | .ready a => some (e.1, a)
    | .inUse => none

/-- The supply has out what the arenas of the process have, and `lent` bytes of an arena that is
lent. That is within its limit. -/
structure Accounted (limit : Option Nat) (lent : Nat) (p : Process) : Prop where
  distinct : p.slots.names.Nodup
  held : p.supply.held = p.slots.sum (total ∘ Slot.layout) + lent
  limit_eq : p.supply.limit = limit
  within : ∀ n, limit = some n → p.supply.held ≤ n

variable {p p' q : Process} {thread : String} {ds : List Deed} {ns : List Nat} {a : Arena}
  {es : List Event} {limit : Option Nat} {lent : Nat}

theorem layoutOf_of_slot {slot : Slot} (h : p.slot? thread = some slot) :
    p.layoutOf thread = slot.layout := by
  rw [layoutOf, h]
  rfl

theorem layoutOf_of_none (h : p.slot? thread = none) : p.layoutOf thread = [] := by
  rw [layoutOf, h]
  rfl

theorem exists_ready (h : p.layoutOf thread ≠ []) : ∃ a, p.slot? thread = some (.ready a) := by
  rcases hslot : p.slot? thread with _ | a | _
  · exact absurd (layoutOf_of_none hslot) h
  · exact ⟨a, rfl⟩
  · exact absurd (layoutOf_of_slot hslot) h

theorem share_eq (p : Process) (thread : String) :
    p.slots.share (total ∘ Slot.layout) thread = total (p.layoutOf thread) := by
  unfold Table.share layoutOf
  rw [slot?]
  cases p.slots.find? thread <;> rfl

/-- An arena that is lent is not among them, and its slot counts for nothing. -/
theorem total_arenas (p : Process) :
    total (p.arenas.map fun e => e.2.capacity) = p.slots.sum (total ∘ Slot.layout) := by
  unfold arenas Table.sum
  induction p.slots with
  | nil => rfl
  | cons e rest ih =>
    obtain ⟨k, a | _⟩ := e
    · simp only [List.filterMap_cons, List.map_cons, total_cons, ih]
      rfl
    · simp only [List.filterMap_cons, List.map_cons, total_cons, ih]
      exact (Nat.zero_add _).symm

theorem mem_arenas_iff : (thread, a) ∈ p.arenas ↔ (thread, .ready a) ∈ p.slots := by
  refine List.mem_filterMap.trans ⟨?_, fun h => ⟨_, h, rfl⟩⟩
  rintro ⟨⟨k, b | _⟩, hmem, heq⟩
  · cases heq
    exact hmem
  · cases heq

theorem names_arenas_sublist (p : Process) : p.arenas.names.Sublist p.slots.names := by
  unfold arenas
  induction p.slots with
  | nil => exact List.Sublist.slnil
  | cons e rest ih =>
    obtain ⟨k, a | _⟩ := e
    · exact ih.cons_cons k
    · exact ih.cons k

/-- **What a call on a thread takes from the supply, its arena gets**, and nothing is given back. -/
theorem Effect.gains (h : Effect thread p ds p') :
    ∃ ns, p.supply.Granted ns p'.supply ∧ p'.layoutOf thread = p.layoutOf thread ++ ns := by
  -- Where no arena was worked on, nothing is granted and no slot changes.
  have hkept : ∀ c, p.supply.Granted [] p.supply ∧
      ({ p with config := c } : Process).layoutOf thread = p.layoutOf thread ++ [] :=
    fun _ => ⟨.nil _, (List.append_nil _).symm⟩
  have hset : ∀ c a s, ({ config := c, slots := p.slots.set thread (.ready a), supply := s } :
      Process).layoutOf thread = a.layout := fun c a s =>
    layoutOf_of_slot (slot?_setSlot p thread (.ready a))
  cases h with
  | kept _ => exact ⟨[], hkept _⟩
  | refused _ _ => exact ⟨[], hkept _⟩
  | served slot works _ =>
    obtain ⟨ns, hgranted, hlayout⟩ := works.gains
    refine ⟨ns, hgranted, ?_⟩
    rw [hset, layoutOf_of_slot slot]
    exact hlayout
  | @created _ _ a _ _ slot new works _ =>
    obtain ⟨ns, hgranted, hlayout⟩ := works.gains
    refine ⟨a.layout ++ ns, (Arena.granted_create new).append hgranted, ?_⟩
    rw [hset, layoutOf_of_none slot]
    exact hlayout

theorem Effect.slots (h : Effect thread p ds p') :
    p'.slots = p.slots ∨ ∃ a, p'.slots = p.slots.set thread (.ready a) := by
  cases h with
  | kept _ => exact .inl rfl
  | refused _ _ => exact .inl rfl
  | served _ _ _ => exact .inr ⟨_, rfl⟩
  | created _ _ _ _ => exact .inr ⟨_, rfl⟩

/-- A thread that ends shows for the last time what it gives back. -/
theorem Consistent.result_exit (h : p.Consistent) (thread : String) :
    (p.exit thread).result =
        ((p.stats thread).map fun st => (st.chunkCount, st.capacity)).getD (0, 0) ∧
      (p.exit thread).result.2 = total (p.layoutOf thread) := by
  unfold Process.exit stats
  rcases hslot : p.slot? thread with _ | slot
  · rw [layoutOf_of_none hslot]
    exact ⟨rfl, rfl⟩
  · obtain ⟨c, a, -, rfl, -⟩ := h.arenas thread slot hslot
    rw [layoutOf_of_slot hslot]
    exact ⟨rfl, rfl⟩

namespace Accounted

/-- What is granted stays within the limit. -/
theorem granted (h : Accounted limit 0 p) (hg : p.supply.Granted ns p'.supply)
    (hdistinct : p'.slots.names.Nodup)
    (hsum : p'.slots.sum (total ∘ Slot.layout) + lent =
      p.slots.sum (total ∘ Slot.layout) + total ns) : Accounted limit lent p' := by
  refine ⟨hdistinct, ?_, hg.limit.trans h.limit_eq, ?_⟩
  · rw [hg.held, h.held, hsum]
    rfl
  · have hwithin := hg.within
    rw [h.limit_eq] at hwithin
    exact hwithin h.within

theorem effect (h : Accounted limit 0 p) (he : Effect thread p ds p') : Accounted limit 0 p' := by
  -- Either the slots are as they were, and then nothing can have been granted, or the thread's slot
  -- is set.
  obtain ⟨ns, hgranted, hlayout⟩ := he.gains
  rcases he.slots with hslots | ⟨a, hslots⟩
  · -- The layout of the thread shows all that was granted, and it has not changed.
    have hnone : ns = [] := by
      rw [layoutOf, slot?, hslots] at hlayout
      exact List.append_right_eq_self.1 hlayout.symm
    refine h.granted hgranted (hslots ▸ h.distinct) ?_
    rw [hnone, hslots]
    rfl
  · have hgot : a.layout = p.layoutOf thread ++ ns := by
      rw [← hlayout, layoutOf_of_slot (by rw [slot?, hslots]; exact Table.find?_set_same _ _ _)]
      rfl
    have hsum := p.slots.sum_set (total ∘ Slot.layout) thread (.ready a)
    have hbytes : (total ∘ Slot.layout) (.ready a) = total (p.layoutOf thread) + total ns :=
      (congrArg total hgot).trans (total_append _ _)
    refine h.granted hgranted (hslots ▸ Table.nodup_names_set h.distinct _) ?_
    rw [share_eq, hbytes] at hsum
    rw [hslots]
    omega

/-- The end of a thread gives back what its arena has. -/
theorem exit (h : Accounted limit 0 p) (hc : p.Consistent) (thread : String) :
    Accounted limit 0 (p.exit thread).state ∧
      (p.exit thread).state.supply.held + total (p.layoutOf thread) = p.supply.held := by
  have hsum := Table.sum_erase (total ∘ Slot.layout) h.distinct thread
  rw [share_eq] at hsum
  have hheld := h.held
  have hgone : (p.exit thread).state.supply.limit = p.supply.limit ∧
      (p.exit thread).state.supply.held = p.supply.held - total (p.layoutOf thread) := by
    unfold Process.exit
    rcases hslot : p.slot? thread with _ | slot
    · rw [layoutOf_of_none hslot]
      exact ⟨rfl, rfl⟩
    · obtain ⟨c, a, -, rfl, -⟩ := hc.arenas thread slot hslot
      rw [layoutOf_of_slot hslot]
      exact ⟨rfl, rfl⟩
  refine ⟨⟨?_, ?_, hgone.1.trans h.limit_eq, fun n hn => ?_⟩, ?_⟩
  · rw [slots_exit]
    exact Table.nodup_names_erase h.distinct
  · rw [hgone.2, slots_exit]
    omega
  · have := h.within n hn
    omega
  · omega

end Accounted

/-- What a thread's arena is when it is lent, its chunks are those that it had, and those granted if
it was created first. -/
theorem Lends.gains (h : p.Lends thread a q es) :
    ∃ ns, p.supply.Granted ns q.supply ∧ a.layout = p.layoutOf thread ++ ns := by
  cases h with
  | ready slot =>
    refine ⟨[], .nil _, ?_⟩
    rw [layoutOf_of_slot slot, List.append_nil]
    rfl
  | created slot new =>
    have hgranted := Arena.granted_create (congrArg Outcome.result new)
    rw [new] at hgranted
    refine ⟨a.layout, hgranted, ?_⟩
    rw [layoutOf_of_none slot]
    rfl

/-- **The account also holds within a closure**, with the arena that is lent to it. -/
theorem Accounted.lending {a' : Arena} {q' : Process} (h : Accounted limit 0 p)
    (hl : p.Lends thread a q es) (hworks : Arena.Works (a, q.supply) (a', q'.supply))
    (hslots : q'.slots = q.slots) : Accounted limit a'.capacity q' := by
  have hset := hl.slots
  obtain ⟨ns, hgranted, hlayout⟩ := hl.gains
  obtain ⟨ms, hmore, hlayout'⟩ := hworks.gains
  have hall := hgranted.append hmore
  have hgot : a'.layout = p.layoutOf thread ++ (ns ++ ms) := by
    rw [hlayout', hlayout, List.append_assoc]
  have hbytes : a'.capacity = total (p.layoutOf thread) + total (ns ++ ms) :=
    (congrArg total hgot).trans (total_append _ _)
  have hsum := p.slots.sum_set (total ∘ Slot.layout) thread .inUse
  have hnone : (total ∘ Slot.layout) .inUse = 0 := rfl
  rw [share_eq, hnone] at hsum
  refine h.granted hall ?_ ?_
  · rw [hslots, hset]
    exact Table.nodup_names_set h.distinct _
  · rw [hbytes, hslots, hset]
    omega

end Process

/-! ## Scripts

`Accounted` is the account of a session. It adds what is needed when all threads have ended: a
thread with a slot is a thread that runs, so no slot is left when none runs. A step on a thread
keeps it by the lemmas on effects, and the end of a thread by those on exits. -/

namespace Script

namespace Session

/-- The account of the supply is right, and threads that have an arena are among those that run. -/
structure Accounted (limit : Option Nat) (s : Session) : Prop where
  consistent : s.process.Consistent
  process : Process.Accounted limit 0 s.process
  running : ∀ thread slot, s.process.slot? thread = some slot → thread ∈ s.threads.names

variable {s : Session} {thread : String} {limit : Option Nat}

theorem accounted_fresh (limit : Option Nat) (contents : Memory) :
    Accounted limit (fresh { limit, contents }) :=
  ⟨Process.consistent_fresh _, ⟨List.nodup_nil, rfl, rfl, fun _ _ => Nat.zero_le _⟩,
    fun _ _ h => (by cases h)⟩

theorem Accounted.step (h : Accounted limit s) (thread : String) (t : ThreadStep) :
    Accounted limit (s.step thread t).1 := by
  cases t with
  | act name action =>
    have heffect := s.effect_step thread name action
    refine ⟨heffect.consistent h.consistent, h.process.effect heffect, fun other slot hslot => ?_⟩
    refine Table.mem_names_set.2 ?_
    by_cases hother : other = thread
    · exact .inl hother
    · rw [heffect.slot?_other hother] at hslot
      exact .inr (h.running other slot hslot)
  | exit =>
    have hprocess := (h.process.exit h.consistent thread).1
    refine ⟨h.consistent.exit thread, hprocess, fun other slot hslot => ?_⟩
    refine Table.mem_names_erase.2 ?_
    by_cases hother : other = thread
    · rw [hother, slot?_step_exit] at hslot
      cases hslot
    · rw [slot?_step_other s .exit hother] at hslot
      exact ⟨hother, h.running other slot hslot⟩

theorem Accounted.steps (h : Accounted limit s) (script : List (String × ThreadStep)) :
    Accounted limit (s.steps script).1 := by
  induction script generalizing s with
  | nil => exact h
  | cons first rest ih => exact ih (h.step first.1 first.2)

/-- No step on a thread changes what is in the memory that the others are still to get. -/
theorem contents_step (s : Session) (thread : String) (t : ThreadStep) :
    (s.step thread t).1.process.supply.contents = s.process.supply.contents := by
  cases t with
  | act name action =>
    obtain ⟨ns, hgranted, -⟩ := (s.effect_step thread name action).gains
    exact hgranted.contents
  | exit =>
    show (s.process.exit thread).state.supply.contents = _
    unfold Process.exit
    split <;> rfl

/-- Ending threads one after another is a script of exits. -/
theorem process_exitAll (s : Session) (ends : List String) :
    (s.exitAll ends).1 = (s.steps (ends.map fun thread => (thread, .exit))).1 := by
  induction ends generalizing s with
  | nil => rfl
  | cons first rest ih => exact ih (s.exit first).1

theorem mem_names_exitAll (s : Session) (ends : List String) :
    thread ∈ (s.exitAll ends).1.threads.names → thread ∈ s.threads.names ∧ thread ∉ ends := by
  induction ends generalizing s with
  | nil => exact fun h => ⟨h, List.not_mem_nil⟩
  | cons first rest ih =>
    intro h
    obtain ⟨hmem, hrest⟩ := ih (s.exit first).1 h
    obtain ⟨hne, hmem⟩ := Table.mem_names_erase.1 hmem
    exact ⟨hmem, List.not_mem_cons_of_ne_of_not_mem hne hrest⟩

/-- When all threads that run have ended, nothing is out. -/
theorem Accounted.exitAll (h : Accounted limit s) {ends : List String}
    (hends : s.threads.names ⊆ ends) : (s.exitAll ends).1.process.supply.held = 0 := by
  have hafter : Accounted limit (s.exitAll ends).1 := by
    rw [process_exitAll]
    exact h.steps _
  have hnone : (s.exitAll ends).1.process.slots = [] := by
    cases hslots : (s.exitAll ends).1.process.slots with
    | nil => rfl
    | cons e rest =>
      -- A slot that is left belongs to a thread that runs, and all of those have ended.
      have hfound : (s.exitAll ends).1.process.slot? e.1 = some e.2 := by
        rw [Process.slot?, hslots]
        simp [Table.find?]
      obtain ⟨hmem, hnot⟩ := s.mem_names_exitAll ends (hafter.running _ _ hfound)
      exact absurd (hends hmem) hnot
  rw [hafter.process.held, hnone]
  rfl

/-- **The memory that is out is where the arenas are.** In every state that steps of threads lead
to:
* What the supply has out are the bytes of the arenas that exist, one for each thread that has one.
  It is within the limit.
* The same is true in the middle of a closure, where the arena that is lent has to be counted too.
* The end of a thread gives back the chunks that its bookkeeping shows, or none.
* No other step gives back any: what it has granted its thread's arena gets, behind the chunks that
  it has.
* As long as a thread does not end, its arena keeps its chunks, where they are, and may get more.
* When the threads that run have ended, nothing is out. -/
theorem memory_accounted (limit : Option Nat) (contents : Memory)
    (script later : List (String × ThreadStep)) :
    let s := ((fresh { limit, contents }).steps script).1
    let p := s.process
    (p.arenas.names.Nodup ∧
      (∀ thread a, (thread, a) ∈ p.arenas ↔ p.slot? thread = some (.ready a)) ∧
      p.supply.held = total (p.arenas.map fun e => e.2.capacity) ∧
      ∀ n, limit = some n → p.supply.held ≤ n) ∧
    (∀ thread a q es names body, p.Lends thread a q es →
      let inside := (Inner.runAll thread names a q body).state.1
      inside.2.supply.held =
          total (inside.2.arenas.map fun e => e.2.capacity) + inside.1.capacity ∧
        ∀ n, limit = some n → inside.2.supply.held ≤ n) ∧
    (∀ thread, ∃ released events, (s.step thread .exit).2 = .ended released events ∧
      released = ((p.stats thread).map fun st => (st.chunkCount, st.capacity)).getD (0, 0) ∧
      (s.step thread .exit).1.process.supply.held + released.2 = p.supply.held) ∧
    (∀ thread name action,
      let after := (s.step thread (.act name action)).1.process
      ∃ ns, p.supply.Granted ns after.supply ∧
        after.layoutOf thread = p.layoutOf thread ++ ns ∧
        ∀ other, other ≠ thread → after.layoutOf other = p.layoutOf other) ∧
    (∀ thread a, p.slot? thread = some (.ready a) → (thread, .exit) ∉ later →
      ∃ a', (s.steps later).1.process.slot? thread = some (.ready a') ∧ a.layout <+: a'.layout ∧
        a.chunks.count ≤ a'.chunks.count ∧ a.capacity ≤ a'.capacity) ∧
    ∀ ends, s.threads.names ⊆ ends → (s.exitAll ends).1.process.supply.held = 0 := by
  intro s p
  have haccount : Accounted limit s := (accounted_fresh limit contents).steps script
  refine ⟨?arenas, ?closures, ?ends, ?steps, ?lives, fun ends hends => haccount.exitAll hends⟩
  case arenas =>
    have hdistinct := haccount.process.distinct
    refine ⟨hdistinct.sublist p.names_arenas_sublist, fun thread a => ?_, ?_,
      haccount.process.within⟩
    · exact Process.mem_arenas_iff.trans (Table.mem_iff_find? hdistinct)
    · rw [Process.total_arenas]
      exact haccount.process.held
  case closures =>
    intro thread a q es names body hlends inside
    -- Whatever the closure calls, the slots stay as they are while it runs.
    have hlent := Inner.lent_runAll hlends.slot body names a
    have hinside := haccount.process.lending hlends hlent.works hlent.slots
    rw [Process.total_arenas]
    exact ⟨hinside.held, hinside.within⟩
  case ends =>
    intro thread
    obtain ⟨hstats, hbytes⟩ := haccount.consistent.result_exit thread
    refine ⟨(p.exit thread).result, _, rfl, hstats, ?_⟩
    rw [hbytes]
    exact (haccount.process.exit haccount.consistent thread).2
  case steps =>
    intro thread name action after
    have heffect := s.effect_step thread name action
    obtain ⟨ns, hgranted, hlayout⟩ := heffect.gains
    refine ⟨ns, hgranted, hlayout, fun other hother => ?_⟩
    rw [Process.layoutOf, heffect.slot?_other hother]
    rfl
  case lives =>
    intro thread a hslot hlater
    obtain ⟨a', hslot', hbecomes⟩ := becomes_steps hslot hlater
    obtain ⟨more, hmore⟩ := hbecomes.layout
    refine ⟨a', hslot', ⟨more, hmore⟩, ?_, ?_⟩
    · rw [← Chunks.length_layout, ← Chunks.length_layout]
      exact List.IsPrefix.length_le ⟨more, hmore⟩
    · have hcapacity : a'.capacity = a.capacity + total more :=
        (congrArg total hmore.symm).trans (total_append _ _)
      rw [hcapacity]
      exact Nat.le_add_right _ _

/-- Two threads and memory for less than they ask: one cannot grow until the other one has ended,
and then there is no memory for that one to start again. -/
theorem memory_accounted_of_run :
    let call := fun c : Call => ThreadStep.act none (.command (.call false c))
    let script := [("a", .act none (.command (.configureSizes 64 0))),
      ("a", call (.allocate 16 "p")), ("b", call (.allocate 16 "p")),
      ("a", call (.allocate 100 "q")), ("b", .exit), ("a", call (.allocate 100 "q")),
      ("b", call (.allocate 16 "p"))]
    let later := [("b", .exit), ("a", call .reset)]
    let s := ((fresh { limit := some 300 }).steps script).1
    let inside := (Inner.runAll "a" [] · (s.process.setSlot "a" .inUse)
      [.handle ⟨none, .call true (.allocate 50 "r")⟩])
    s.process.layoutOf "a" = [64, 192] ∧ s.process.layoutOf "b" = [] ∧
      s.process.supply.held ≤ 300 ∧
      (∃ a, s.process.slot? "a" = some (.ready a) ∧
        (inside a).state.1.2.supply.held ≤ 300 ∧
        ∃ a', (s.steps later).1.process.slot? "a" = some (.ready a') ∧ a.capacity ≤ a'.capacity) ∧
      (s.exitAll ["a", "b"]).1.process.supply.held = 0 := by
  intro call script later s inside
  obtain ⟨⟨-, -, -, hwithin⟩, hclosures, -, -, hlives, hends⟩ :=
    memory_accounted (some 300) Memory.empty script later
  have hlayout : s.process.layoutOf "a" = [64, 192] := by decide +kernel
  obtain ⟨a, ha⟩ := Process.exists_ready (hlayout ▸ List.cons_ne_nil _ _)
  obtain ⟨a', ha', -, -, hcapacity⟩ := hlives "a" a ha (by simp [later, call])
  have hinside := hclosures "a" a _ _ [] [.handle ⟨none, .call true (.allocate 50 "r")⟩] (.ready ha)
  exact ⟨hlayout, by decide +kernel, hwithin 300 rfl,
    ⟨a, ha, hinside.2 300 rfl, a', ha', hcapacity⟩, hends ["a", "b"] (by decide +kernel)⟩

end Session

end Script

end ArenaAlloc

import ArenaAlloc.Proofs.Ceiling
import ArenaAlloc.Script.Thread
import Mathlib.Logic.Relation

/-!
# What calls make of a process

`Process.Effect` lists what a call on one thread can do to the process, whatever front end it goes
through: nothing, or the thread's arena serves it, or an arena is created first, or creating one
fails. What an arena is put through meanwhile is a number of its own operations (`Arena.Works`), and
the slots of other threads have no part in it.

The configuration is decided by *deeds*: that somebody configured the process, read its
configuration or attempted to create an arena. `Process.Decides` says what a list of deeds makes of
it. An attempt shows in the log, so the deeds of a call can be told from its report.

## Why a relation

There are many ways to call into a process: five operations through two interfaces, closures
with any steps in them, and the calls that are about the configuration. What a proof about whole
scripts needs of them is little and the same of all. So each is shown once to have an `Effect`
(`effect_allocate` and the lemmas after it, and in `Proofs.ScriptEffect` those of steps), and every
invariant of processes is proved by the four cases of it.

`Effect` says too little to predict an answer, on purpose. It leaves open what the arena was put
through, up to operations at all, and says nothing of results. What it does say is what a thread's
neighbours can rely on.

## The log and the deeds

An arena is created silently from the caller's point of view, and whether one was created decides
the configuration. The log has an event for it, whether it succeeds or fails, so deeds are a
function of the log and the answers. The lemmas `attempts_*` say that no operation on an arena that
is there logs such an event.
-/

namespace ArenaAlloc

/-! ## Operations of an arena

`Works` keeps track of the supply and `Becomes` forgets it. The first is needed where a creation or
a growth may be refused, the second where two moments are compared between which other threads have
taken memory. -/

namespace Arena

/-- One operation on an arena, with the supply that it may take a chunk from. -/
inductive Operates : Arena × Supply → Arena × Supply → Prop
  | allocate (a : Arena) (s : Supply) (size : Nat) : Operates (a, s) (a.allocate s size).state
  | zeroAllocate (a : Arena) (s : Supply) (count size : Nat) :
      Operates (a, s) (a.zeroAllocate s count size).state
  | reallocate (a : Arena) (s : Supply) (p : Option Address) (size : Nat) :
      Operates (a, s) (a.reallocate s p size).state
  | free (a : Arena) (s : Supply) (p : Option Address) : Operates (a, s) ((a.free p).state, s)
  | reset (a : Arena) (s : Supply) : Operates (a, s) (a.reset.state, s)
  | write (a : Arena) (s : Supply) (p : Address) (n : Nat) (f : Nat → UInt8) :
      Operates (a, s) (a.write p n f, s)

/-- Any number of operations. -/
def Works : Arena × Supply → Arena × Supply → Prop := Relation.ReflTransGen Operates

namespace Works

variable {x y z : Arena × Supply}

theorem refl (x : Arena × Supply) : Works x x := Relation.ReflTransGen.refl

theorem trans (h : Works x y) (h' : Works y z) : Works x z := Relation.ReflTransGen.trans h h'

/-- One operation is a number of operations. -/
theorem of_operates (h : Operates x y) : Works x y := Relation.ReflTransGen.single h

end Works

/-- What becomes of an arena by any number of operations, wherever chunks come from meanwhile. -/
def Becomes : Arena → Arena → Prop :=
  Relation.ReflTransGen fun a a' => ∃ s s', Operates (a, s) (a', s')

theorem Becomes.refl (a : Arena) : a.Becomes a := Relation.ReflTransGen.refl

theorem Becomes.trans {a a' a'' : Arena} (h : a.Becomes a') (h' : a'.Becomes a'') :
    a.Becomes a'' := Relation.ReflTransGen.trans h h'

/-- Forget the supplies. -/
theorem Works.becomes {x y : Arena × Supply} (h : Works x y) : x.1.Becomes y.1 :=
  Relation.ReflTransGen.lift Prod.fst (fun x y hstep => ⟨x.2, y.2, hstep⟩) x y h

end Arena

/-! ## Deeds

Three kinds, and two of them do the same to the configuration: whoever reads it or needs it for an
arena settles it at the default, if nobody has installed one. They are told apart because only an
attempt has to do with an arena. -/

namespace Process

/-- What can decide the configuration of a process. -/
inductive Deed where
  /-- The configuration was installed. -/
  | configured (c : Config)
  /-- The configuration was asked for. -/
  | read
  /-- The creation of an arena was attempted, with success or without. -/
  | attempted
deriving DecidableEq, Repr

/-- What deeds make of the configuration, one after another. Installing one works only as long as
there is none; the others adopt the default one then. -/
inductive Decides : List Deed → Option Config → Option Config → Prop
  | nil (c : Option Config) : Decides [] c c
  | configured {c : Config} {ds : List Deed} {c' : Option Config} (valid : c.validate = .ok ())
      (rest : Decides ds (some c) c') : Decides (.configured c :: ds) none c'
  | read {c : Option Config} {ds : List Deed} {c' : Option Config}
      (rest : Decides ds (some (c.getD .default)) c') : Decides (.read :: ds) c c'
  | attempted {c : Option Config} {ds : List Deed} {c' : Option Config}
      (rest : Decides ds (some (c.getD .default)) c') : Decides (.attempted :: ds) c c'

namespace Decides

variable {ds ds' : List Deed} {c c' c'' : Option Config} {d : Config}

/-- Deeds done by one script after another. -/
theorem append (h : Decides ds c c') (h' : Decides ds' c' c'') : Decides (ds ++ ds') c c'' := by
  induction h with
  | nil c => exact h'
  | configured valid _ ih => exact .configured valid (ih h')
  | read _ ih => exact .read (ih h')
  | attempted _ ih => exact .attempted (ih h')

/-- Nothing changes what is decided, and nobody can install another configuration. -/
theorem of_eq_some (h : Decides ds c c') (hc : c = some d) :
    c' = some d ∧ ∀ e, .configured e ∉ ds := by
  induction h with
  | nil c => exact ⟨hc, fun e he => by cases he⟩
  | configured _ _ _ => cases hc
  | read _ ih =>
    obtain ⟨heq, hnot⟩ := ih (by rw [hc]; rfl)
    exact ⟨heq, fun e => List.not_mem_cons_of_ne_of_not_mem Deed.noConfusion (hnot e)⟩
  | attempted _ ih =>
    obtain ⟨heq, hnot⟩ := ih (by rw [hc]; rfl)
    exact ⟨heq, fun e => List.not_mem_cons_of_ne_of_not_mem Deed.noConfusion (hnot e)⟩

theorem of_some (h : Decides ds (some d) c') : c' = some d ∧ ∀ e, .configured e ∉ ds :=
  h.of_eq_some rfl

/-- **Deeds leave the configuration undecided only if there are none**, and only the first of them
can have installed one. -/
theorem of_none (h : Decides ds none c') :
    (c' = none ↔ ds = []) ∧ ∀ pre e post, ds = pre ++ .configured e :: post →
      pre = [] ∧ (∀ f, .configured f ∉ post) ∧ c' = some e := by
  -- Behind the first deed the configuration is decided, so nothing behind it has installed one.
  have later : ∀ {k : Deed} {rest : List Deed} {d : Config}, Decides rest (some d) c' →
      (c' = none ↔ k :: rest = []) ∧ ∀ pre e post, k :: rest = pre ++ .configured e :: post →
        pre = [] ∧ k = .configured e ∧ rest = post := by
    intro k rest d hrest
    obtain ⟨rfl, hnot⟩ := hrest.of_some
    refine ⟨by simp, fun pre e post heq => ?_⟩
    cases pre with
    | nil =>
      obtain ⟨hk, hpost⟩ := List.cons_eq_cons.1 heq
      exact ⟨rfl, hk, hpost⟩
    | cons k' pre =>
      obtain ⟨-, hpost⟩ := List.cons_eq_cons.1 heq
      exact absurd (hpost ▸ List.mem_append_right pre List.mem_cons_self) (hnot e)
  cases h with
  | nil => exact ⟨by simp, fun pre e post heq => by simp at heq⟩
  | configured valid rest =>
    obtain ⟨hiff, hfirst⟩ := later (k := .configured _) rest
    obtain ⟨hc, hnot⟩ := rest.of_some
    refine ⟨hiff, fun pre e post heq => ?_⟩
    obtain ⟨hpre, hk, hpost⟩ := hfirst pre e post heq
    cases hk
    exact ⟨hpre, hpost ▸ hnot, hc⟩
  | read rest =>
    obtain ⟨hiff, hfirst⟩ := later (k := .read) rest
    exact ⟨hiff, fun pre e post heq => by cases (hfirst pre e post heq).2.1⟩
  | attempted rest =>
    obtain ⟨hiff, hfirst⟩ := later (k := .attempted) rest
    exact ⟨hiff, fun pre e post heq => by cases (hfirst pre e post heq).2.1⟩

/-- What a process without a configuration would take for one only changes by installing one. -/
theorem getD_eq (h : Decides ds c c') (hnot : ∀ e, .configured e ∉ ds) :
    c'.getD .default = c.getD .default := by
  induction h with
  | nil c => rfl
  | @configured e _ _ _ _ _ => exact absurd List.mem_cons_self (hnot e)
  | read _ ih => exact ih fun e he => hnot e (List.mem_cons_of_mem _ he)
  | attempted _ ih => exact ih fun e he => hnot e (List.mem_cons_of_mem _ he)

/-- Only valid configurations are ever decided on. -/
theorem validate (h : Decides ds c c') (hc : ∀ d ∈ c, d.validate = .ok ()) :
    ∀ d ∈ c', d.validate = .ok () := by
  have hsettled : ∀ {c : Option Config}, (∀ d ∈ c, d.validate = .ok ()) →
      ∀ d ∈ some (c.getD .default), d.validate = .ok () := by
    rintro c hc d ⟨⟩
    cases c with
    | none => rfl
    | some d => exact hc d rfl
  -- Each deed leaves a configuration that is valid: it was checked when it was installed, or it is
  -- the default.
  induction h with
  | nil c => exact hc
  | configured valid _ ih =>
    refine ih ?_
    rintro d ⟨⟩
    exact valid
  | read _ ih => exact ih (hsettled hc)
  | attempted _ ih => exact ih (hsettled hc)

end Decides

/-! ## Attempts in the log

An operation logs what it did to chunks, blocks and the whole arena. None of that is a creation. -/

/-- The deed that an event tells of. -/
def Deed.ofEvent? : Event → Option Deed
  | .created _ | .creationFailed _ => some .attempted
  | .released .. | .reset .. | .grew .. | .growthRefused .. | .growthFailed .. | .alreadyFreed _ =>
    none

def attempts (events : List Event) : List Deed := events.filterMap Deed.ofEvent?

@[simp] theorem attempts_append (es fs : List Event) :
    attempts (es ++ fs) = attempts es ++ attempts fs := List.filterMap_append

end Process

open Process (attempts)

/-- Growing is not creating. -/
theorem Chunks.attempts_carve (c : Chunks) (s : Supply) (size : Nat) :
    attempts (c.carve s size).events = [] := by
  have hgrow : ∀ n, attempts (c.grow s n).events = [] := by
    intro n
    unfold grow
    split
    · rfl
    · split
      · rfl
      · split
        · rfl
        · split <;> rfl
  unfold carve
  split
  · rfl
  · split
    · rfl
    · rename_i total _
      simp only [Outcome.events_andThen, Process.attempts_append, hgrow, List.nil_append]
      split
      · rfl
      · split <;> rfl

namespace Arena

variable (a : Arena) (s : Supply)

theorem attempts_takeBlock (size : Nat) : attempts (a.takeBlock s size).events = [] := by
  unfold takeBlock
  split
  · rfl
  · split
    · rfl
    · simp only [Outcome.events_andThen, Process.attempts_append, Chunks.attempts_carve,
        List.nil_append]
      split <;> rfl

theorem attempts_giveBlock (b : Block) : attempts (a.giveBlock b).events = [] := by
  unfold giveBlock
  split <;> rfl

theorem attempts_allocate (size : Nat) : attempts (a.allocate s size).events = [] :=
  a.attempts_takeBlock s size

theorem attempts_zeroAllocate (count size : Nat) :
    attempts (a.zeroAllocate s count size).events = [] := by
  unfold zeroAllocate
  split
  · rfl
  · simp only [Outcome.events_andThen, Process.attempts_append, attempts_takeBlock, List.nil_append]
    split <;> rfl

theorem attempts_reallocate (p : Option Address) (size : Nat) :
    attempts (a.reallocate s p size).events = [] := by
  unfold reallocate
  split
  · exact a.attempts_allocate s size
  · split
    · rfl
    · dsimp only
      split
      · rfl
      · simp only [Outcome.events_andThen, Process.attempts_append, attempts_takeBlock,
          List.nil_append]
        split
        · rfl
        · simp only [Outcome.events_mapState, Outcome.events_map, attempts_giveBlock]

theorem attempts_free (p : Option Address) : attempts (a.free p).events = [] := by
  cases p with
  | none => rfl
  | some p => exact a.attempts_giveBlock _

end Arena

/-- Creating an arena is refused silently, or logged. The log of a refusal is written by the caller.
-/
theorem Arena.create_cases (config : Config) (s : Supply) :
    (∃ e, create config s = ⟨.error e, s, []⟩) ∨
      ∃ a s', create config s = ⟨.ok a, s', [.created a.capacity]⟩ := by
  unfold create
  split
  · exact .inl ⟨_, rfl⟩
  · split
    · exact .inl ⟨_, rfl⟩
    · exact .inr ⟨_, _, rfl⟩

/-! ## Lending an arena

A closure has the arena in its hands while the slot of its thread says that it is in use. `Lent` is
what is known of such a closure, with the process as it is in the meantime; `effect_tryWithArena`
puts the arena back and says what has become of the process. -/

namespace Process

/-- What a closure did with the arena `a` that was lent to it, and with the process: it worked on
the arena and did its own deeds, and attempted nothing. -/
structure Lent {α : Type} (a : Arena) (p : Process) (ds : List Deed)
    (o : Outcome (Arena × Process) α) : Prop where
  works : Arena.Works (a, p.supply) (o.state.1, o.state.2.supply)
  config : Decides ds p.config o.state.2.config
  slots : o.state.2.slots = p.slots
  attempts : attempts o.events = []

/-- What a call on a thread can do to the process, and the deeds in it. -/
inductive Effect (thread : String) (p : Process) : List Deed → Process → Prop
  | kept {ds : List Deed} {c : Option Config} (config : Decides ds p.config c) :
      Effect thread p ds { p with config := c }
  /-- The thread's arena was there, and went to work. -/
  | served {ds : List Deed} {c : Option Config} {a a' : Arena} {s : Supply}
      (slot : p.slot? thread = some (.ready a)) (works : Arena.Works (a, p.supply) (a', s))
      (config : Decides ds p.config c) :
      Effect thread p ds { config := c, slots := p.slots.set thread (.ready a'), supply := s }
  /-- There was no arena, and there could be none. -/
  | refused {e : AllocError} (slot : p.slot? thread = none)
      (refusal : (Arena.create (p.config.getD .default) p.supply).result = .error e) :
      Effect thread p [.attempted] { p with config := some (p.config.getD .default) }
  /-- There was no arena; one was created and went to work. -/
  | created {ds : List Deed} {c : Option Config} {a a' : Arena} {s : Supply}
      (slot : p.slot? thread = none)
      (new : (Arena.create (p.config.getD .default) p.supply).result = .ok a)
      (works : Arena.Works (a, (Arena.create (p.config.getD .default) p.supply).state) (a', s))
      (config : Decides (.attempted :: ds) p.config c) :
      Effect thread p (.attempted :: ds)
        { config := c, slots := p.slots.set thread (.ready a'), supply := s }

variable {α : Type} {p : Process} {thread : String} {a : Arena} {s : Supply} {ds ds' : List Deed}

/-- What one closure did, and then another. -/
theorem Lent.andThen {β γ : Type} {o : Outcome (Arena × Process) α}
    {o' : Outcome (Arena × Process) β} {r : γ} (h : Lent a p ds o)
    (h' : Lent o.state.1 o.state.2 ds' o') :
    Lent a p (ds ++ ds') ⟨r, o'.state, o.events ++ o'.events⟩ := by
  refine ⟨h.works.trans h'.works, h.config.append h'.config, h'.slots.trans h.slots, ?_⟩
  rw [attempts_append, h.attempts, h'.attempts]
  rfl

namespace Effect

variable {p' : Process}

/-- Nothing is always possible. -/
theorem idle : Effect thread p [] p := .kept (.nil p.config)

/-- Every call does to the configuration what its deeds do. -/
theorem config (h : Effect thread p ds p') : Decides ds p.config p'.config := by
  cases h with
  | kept config => exact config
  | served _ _ config => exact config
  | refused _ _ => exact .attempted (.nil _)
  | created _ _ _ config => exact config

/-- **The slots of other threads have no part in a call.** -/
theorem slot?_other (h : Effect thread p ds p') {other : String} (hne : other ≠ thread) :
    p'.slot? other = p.slot? other := by
  cases h with
  | kept _ => rfl
  | served _ _ _ => exact Table.find?_set_other hne
  | refused _ _ => rfl
  | created _ _ _ _ => exact Table.find?_set_other hne

/-- An arena that is there stays there. -/
theorem becomes (h : Effect thread p ds p') (hslot : p.slot? thread = some (.ready a)) :
    ∃ a', p'.slot? thread = some (.ready a') ∧ a.Becomes a' := by
  cases h with
  | kept _ => exact ⟨a, hslot, .refl a⟩
  | served slot works _ =>
    cases slot.symm.trans hslot
    exact ⟨_, Table.find?_set_same _ _ _, works.becomes⟩
  | refused hnone _ => cases hnone.symm.trans hslot
  | created hnone _ _ _ => cases hnone.symm.trans hslot

/-- No call takes an arena away from its thread. -/
theorem isSome_slot? (h : Effect thread p ds p') (hslot : (p.slot? thread).isSome) :
    (p'.slot? thread).isSome := by
  cases h with
  | kept _ => exact hslot
  | served _ _ _ => exact Option.isSome_iff_exists.2 ⟨_, Table.find?_set_same _ _ _⟩
  | refused _ _ => exact hslot
  | created _ _ _ _ => exact Option.isSome_iff_exists.2 ⟨_, Table.find?_set_same _ _ _⟩

end Effect

/-- Settling the configuration keeps the one that there is, or takes the default. -/
theorem settledConfig_eq (p : Process) :
    p.settledConfig =
      ⟨p.config.getD .default, { p with config := some (p.config.getD .default) }, []⟩ := by
  obtain ⟨config, slots, supply⟩ := p
  cases config <;> rfl

theorem slot?_setSlot (p : Process) (thread : String) (s : Slot) :
    (p.setSlot thread s).slot? thread = some s := Table.find?_set_same _ _ _

/-- A closure sees its thread's slot in use, and leaves it as ready as it was. -/
theorem lend_of_lent (body : Arena → Process → Outcome (Arena × Process) α)
    (h : Lent a (p.setSlot thread .inUse) ds (body a (p.setSlot thread .inUse))) :
    ∃ a' s c, (p.lend thread a body).state =
        { config := c, slots := p.slots.set thread (.ready a'), supply := s } ∧
      Arena.Works (a, p.supply) (a', s) ∧ Decides ds p.config c ∧
      Process.attempts (p.lend thread a body).events = [] := by
  obtain ⟨hworks, hconfig, hslots, hattempts⟩ := h
  refine ⟨_, _, _, ?_, hworks, hconfig, hattempts⟩
  have hset : ∀ slot, (body a (p.setSlot thread .inUse)).state.2.slots.set thread slot =
      p.slots.set thread slot := by
    intro slot
    rw [hslots]
    exact Table.set_set _ _ _ _
  exact congrArg (Process.mk _ · _) (hset _)

section

variable {body : Arena → Process → Outcome (Arena × Process) α} {f : Arena → Outcome Arena α}

theorem tryWithArena_of_inUse (h : p.slot? thread = some .inUse) :
    p.tryWithArena thread body = ⟨.error .unavailable, p, []⟩ := by
  simp only [tryWithArena, h]

theorem withExisting_of_inUse (h : p.slot? thread = some .inUse) :
    p.withExisting thread f = ⟨none, p, []⟩ := by
  simp only [withExisting, h]

end

/-- The deeds of a closure, if it ran. -/
def deedsOf (deeds : α → List Deed) : Except AllocError α → List Deed
  | .ok answer => deeds answer
  | .error _ => []

theorem effect_tryWithArena (p : Process) (body : Arena → Process → Outcome (Arena × Process) α)
    (deeds : α → List Deed)
    (h : ∀ a q, q.slot? thread = some .inUse → Lent a q (deeds (body a q).result) (body a q)) :
    Effect thread p (attempts (p.tryWithArena thread body).events ++
      deedsOf deeds (p.tryWithArena thread body).result) (p.tryWithArena thread body).state := by
  -- In use, the closure does not run; ready, it gets that arena; with none, one is created or
  -- refused.
  cases hslot : p.slot? thread with
  | some slot =>
    cases slot with
    | inUse =>
      rw [tryWithArena_of_inUse hslot]
      exact .idle
    | ready a =>
      have hlent := h a (p.setSlot thread .inUse) (p.slot?_setSlot thread .inUse)
      obtain ⟨a', s, c, hstate, hworks, hconfig, hattempts⟩ := lend_of_lent body hlent
      simp only [tryWithArena, hslot, Outcome.state_map, Outcome.result_map, Outcome.events_map,
        hstate, hattempts, List.nil_append]
      exact .served hslot hworks hconfig
  | none =>
    rcases Arena.create_cases (p.config.getD .default) p.supply with ⟨e, hnew⟩ | ⟨a, s, hnew⟩
    · simp only [tryWithArena, hslot, settledConfig_eq, Outcome.state_andThen,
        Outcome.result_andThen, Outcome.events_andThen, hnew]
      exact .refused hslot (congrArg Outcome.result hnew)
    · -- The process as the closure finds it, apart from the slot: settled, and with the memory for
      -- the arena taken.
      let q : Process := { p with config := some (p.config.getD .default), supply := s }
      have hlent := h a (q.setSlot thread .inUse) (q.slot?_setSlot thread .inUse)
      obtain ⟨a', s', c, hstate, hworks, hconfig, hattempts⟩ := lend_of_lent body hlent
      have ho : p.tryWithArena thread body =
          ⟨.ok (q.lend thread a body).result, (q.lend thread a body).state,
            .created a.capacity :: (q.lend thread a body).events⟩ := by
        simp only [tryWithArena, hslot, settledConfig_eq, Outcome.andThen, hnew]
        rfl
      have hdeeds :
          attempts (.created a.capacity :: (q.lend thread a body).events) = [.attempted] :=
        congrArg (Deed.attempted :: ·) hattempts
      have hworks' : Arena.Works (a, (Arena.create (p.config.getD .default) p.supply).state)
          (a', s') := by
        rw [hnew]
        exact hworks
      rw [ho]
      simp only [hdeeds, hstate]
      exact .created hslot (congrArg Outcome.result hnew) hworks' (.attempted hconfig)

/-- An arena that is there goes to work; one that is not, or is in use, does not. -/
theorem effect_withExisting {body : Arena → Outcome Arena α}
    (hworks : ∀ a s, Arena.Works (a, s) ((body a).state, s))
    (hattempts : ∀ a, attempts (body a).events = []) :
    Effect thread p (attempts (p.withExisting thread body).events)
      (p.withExisting thread body).state := by
  rcases hslot : p.slot? thread with _ | a | _
  · simp only [withExisting, hslot]
    exact .idle
  · have hlent : Lent a (p.setSlot thread .inUse) []
        ((body a).mapState fun after => (after, p.setSlot thread .inUse)) :=
      ⟨hworks a p.supply, .nil _, rfl, hattempts a⟩
    obtain ⟨a', s, c, hstate, hworks, hconfig, hevents⟩ :=
      lend_of_lent (fun a q => (body a).mapState fun after => (after, q)) hlent
    simp only [withExisting, hslot, Outcome.state_map, Outcome.events_map]
    rw [hevents, hstate]
    exact .served hslot hworks hconfig
  · rw [withExisting_of_inUse hslot]
    exact .idle

/-! ## The calls of a thread

Allocating creates an arena if there is none, freeing and resetting do not. So the first three go
through `effect_onArena`, the others through `effect_withExisting`. -/

/-- A call that is one operation of the arena does no deeds of its own. -/
theorem effect_onArena {f : Arena → Supply → Outcome (Arena × Supply) α}
    (hf : ∀ a s, Arena.Operates (a, s) (f a s).state)
    (hattempts : ∀ a s, attempts (f a s).events = []) :
    Effect thread p (attempts (p.tryWithArena thread (onArena f)).events)
      (p.tryWithArena thread (onArena f)).state := by
  have hnone : ∀ r : Except AllocError α, deedsOf (fun _ => []) r = [] := by
    intro r
    cases r <;> rfl
  have hlent : ∀ a q, q.slot? thread = some .inUse → Lent a q [] (onArena f a q) := fun a q _ =>
    ⟨.of_operates (hf a q.supply), .nil _, rfl, hattempts a q.supply⟩
  have heffect := effect_tryWithArena p (onArena f) (fun _ => []) hlent
  rwa [hnone, List.append_nil] at heffect

theorem effect_allocate (p : Process) (thread : String) (size : Nat) :
    Effect thread p (attempts (p.allocate thread size).events) (p.allocate thread size).state :=
  effect_onArena (fun a s => .allocate a s size) fun a s => a.attempts_allocate s size

theorem effect_zeroAllocate (p : Process) (thread : String) (count size : Nat) :
    Effect thread p (attempts (p.zeroAllocate thread count size).events)
      (p.zeroAllocate thread count size).state := by
  unfold zeroAllocate
  split
  · exact .idle
  · exact effect_onArena (fun a s => .zeroAllocate a s count size) fun a s =>
      a.attempts_zeroAllocate s count size

theorem effect_reallocate (p : Process) (thread : String) (q : Option Address) (size : Nat) :
    Effect thread p (attempts (p.reallocate thread q size).events)
      (p.reallocate thread q size).state :=
  effect_onArena (fun a s => .reallocate a s q size) fun a s => a.attempts_reallocate s q size

theorem effect_free (p : Process) (thread : String) (q : Option Address) :
    Effect thread p (attempts (p.free thread q).events) (p.free thread q).state := by
  cases q with
  | none => exact .idle
  | some q =>
    exact effect_withExisting (fun a s => .of_operates (.free a s (some q))) fun a =>
      a.attempts_free (some q)

theorem effect_reset (p : Process) (thread : String) :
    Effect thread p (attempts (p.reset thread).events) (p.reset thread).state :=
  effect_withExisting (fun a s => .of_operates (.reset a s)) fun _ => rfl

/-! ## Deeds without an arena

Configuring and reading the configuration touch no slot, so they are possible in a closure as well,
where `Adopts.lent` uses them. -/

/-- Only the configuration changes, by the deeds. -/
def Adopts (p : Process) (ds : List Deed) (p' : Process) : Prop :=
  ∃ c, Decides ds p.config c ∧ p' = { p with config := c }

namespace Adopts

variable {p' : Process}

theorem idle : Adopts p [] p := ⟨p.config, .nil _, rfl⟩

theorem effect (h : Adopts p ds p') : Effect thread p ds p' := by
  obtain ⟨c, hc, rfl⟩ := h
  exact .kept hc

theorem lent {r : α} (h : Adopts p ds p') (a : Arena) : Lent a p ds ⟨r, (a, p'), []⟩ := by
  obtain ⟨c, hc, rfl⟩ := h
  exact ⟨.refl _, hc, rfl, rfl⟩

end Adopts

/-- Configuring is a deed if it works, and nothing otherwise. -/
theorem adopts_configure (p : Process) (c : Config) :
    Adopts p (deedsOf (fun _ => [.configured c]) (p.configure c).result) (p.configure c).state := by
  unfold configure
  split
  · exact .idle
  · rename_i hvalid
    split
    · exact .idle
    · rename_i hnone
      refine ⟨some c, ?_, rfl⟩
      rw [hnone]
      exact .configured hvalid (.nil _)

theorem events_configure (p : Process) (c : Config) : (p.configure c).events = [] := by
  unfold configure
  split
  · rfl
  · split <;> rfl

theorem adopts_settledConfig (p : Process) : Adopts p [.read] p.settledConfig.state := by
  rw [settledConfig_eq]
  exact ⟨_, .read (.nil _), rfl⟩

end Process

end ArenaAlloc

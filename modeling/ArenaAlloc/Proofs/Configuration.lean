import ArenaAlloc.Proofs.ScriptEffect

/-!
# One configuration per process

The deeds in the reports of a script say what became of the configuration of its process
(`Session.decides_steps`): as long as there are none it is undecided, and the first of them decides
it, by installing one or by needing one. After that nobody can install another.

Every arena is built from that configuration, whichever thread it belongs to (`Process.Consistent`).
What an arena was built from can still be seen after any number of operations, since they only add
chunks behind the first one and leave the rule of growth alone.

## The statement

`configuration_decided_once` is about any script from a fresh process, on any number of threads, and
about any continuation. It follows from `decides_steps`, an induction over the script, and from what
`Decides` says of lists of deeds; no step is looked at again.

That arenas are built from the one configuration is an invariant (`Consistent`). It has to say two
things at once: that an arena fits the configuration, and that there is a configuration as soon as
there is an arena, since it is only settled when somebody needs it. `BuiltFrom` is what can be seen
of an arena's configuration at any time of its life: the length of the first chunk, the factor and
the ceiling.
-/

namespace ArenaAlloc

open Process (Deed Decides)

namespace Arena

variable {a a' : Arena} {s s' : Supply} {c : Config}

/-- Every operation extends the chunks. -/
theorem Operates.extends {x y : Arena × Supply} (h : Operates x y) :
    x.1.chunks.Extends y.1.chunks := by
  cases h with
  | allocate a s size => exact a.extends_allocate s size
  | zeroAllocate a s count size => exact a.extends_zeroAllocate s count size
  | reallocate a s p size => exact a.extends_reallocate s p size
  | free a s p =>
    cases p with
    | none => exact .refl _
    | some p =>
      simp only [Arena.free, chunks_giveBlock]
      exact .refl _
  | reset a s => exact .of_rewind a.chunks
  | write a s p n f => exact .refl _

/-- So does any number of them. -/
theorem Works.extends {x y : Arena × Supply} (h : Works x y) : x.1.chunks.Extends y.1.chunks := by
  induction h with
  | refl => exact .refl _
  | tail _ hlast ih => exact ih.trans hlast.extends

/-- The first chunk has the initial capacity, rounded up, and growth goes by the same factor up to
the same ceiling. -/
structure BuiltFrom (a : Arena) (c : Config) : Prop where
  first : ∃ first, alignUp c.initialCapacity = some first ∧ a.layout.head? = some first
  growthFactor : a.chunks.growthFactor = c.growthFactor
  ceiling : a.chunks.ceiling = c.maxCapacity

theorem builtFrom_create (h : (create c s).result = .ok a) : a.BuiltFrom c := by
  obtain ⟨-, _, s', hchunks, rfl⟩ := create_eq_ok h
  obtain ⟨first, halign, -, rfl⟩ := Chunks.create_eq_ok hchunks
  exact ⟨⟨first, halign, rfl⟩, rfl, rfl⟩

/-- What an arena was built from can be seen after any operations. -/
theorem BuiltFrom.of_works (h : a.BuiltFrom c) (hw : Works (a, s) (a', s')) : a'.BuiltFrom c := by
  obtain ⟨⟨first, halign, hhead⟩, hfactor, hceiling⟩ := h
  have hext := hw.extends
  refine ⟨⟨first, halign, ?_⟩, hext.growthFactor.trans hfactor, hext.ceiling.trans hceiling⟩
  obtain ⟨more, hmore⟩ := hext.layout
  show a'.chunks.layout.head? = some first
  rw [← hmore, List.head?_append]
  exact congrArg (·.or more.head?) hhead

end Arena

/-! ## Arenas and the configuration

A call changes at most the slot of its own thread, and the configuration by its deeds. So the arenas
of other threads still fit, as a configuration that was decided stays. -/

namespace Process

/-- Configuring fails for a configuration that is not valid, or because there is one; either way
nothing changes. -/
theorem configure_of_error {p : Process} {c : Config} {e : AllocError}
    (h : (p.configure c).result = .error e) :
    (p.configure c).state = p ∧
      (c.validate = .error e ∨ p.config ≠ none ∧ e = .alreadyConfigured) := by
  cases hvalid : c.validate with
  | error e' =>
    simp only [configure, hvalid] at h ⊢
    exact ⟨trivial, .inl h⟩
  | ok _ =>
    cases hc : p.config with
    | some d =>
      simp only [configure, hvalid, hc] at h ⊢
      cases h
      exact ⟨trivial, .inr ⟨Option.some_ne_none d, rfl⟩⟩
    | none =>
      simp only [configure, hvalid, hc] at h
      cases h

/-- A thread has an arena only when the configuration is decided, and then it is built from that. -/
structure Consistent (p : Process) : Prop where
  valid : ∀ c ∈ p.config, c.validate = .ok ()
  arenas : ∀ thread slot, p.slot? thread = some slot →
    ∃ c a, p.config = some c ∧ slot = .ready a ∧ a.BuiltFrom c

variable {p p' : Process} {thread : String} {ds : List Deed}

/-- A fresh process has neither. -/
theorem consistent_fresh (supply : Supply) : (fresh supply).Consistent :=
  ⟨fun _ h => (by cases h), fun _ _ h => (by cases h)⟩

/-- Where the slots are as they were. -/
theorem Consistent.of_slots (h : p.Consistent) (hd : Decides ds p.config p'.config)
    (hslots : p'.slots = p.slots) : p'.Consistent := by
  refine ⟨hd.validate h.valid, fun other slot hslot => ?_⟩
  rw [slot?, hslots] at hslot
  obtain ⟨c, a, hc, hready, hbuilt⟩ := h.arenas other slot hslot
  exact ⟨c, a, (hd.of_eq_some hc).1, hready, hbuilt⟩

/-- Where one slot got an arena that fits the configuration. -/
theorem Consistent.of_set (h : p.Consistent) (hd : Decides ds p.config p'.config) {a : Arena}
    {c : Config} (hc : p'.config = some c) (ha : a.BuiltFrom c)
    (hslots : p'.slots = p.slots.set thread (.ready a)) : p'.Consistent := by
  refine ⟨hd.validate h.valid, fun other slot hslot => ?_⟩
  -- The thread's own slot holds the arena that fits; the others are as they were.
  by_cases hother : other = thread
  · subst hother
    rw [slot?, hslots, Table.find?_set_same] at hslot
    exact ⟨c, a, hc, (Option.some.inj hslot).symm, ha⟩
  · rw [slot?, hslots, Table.find?_set_other hother] at hslot
    obtain ⟨c', a', hc', hready, hbuilt⟩ := h.arenas other slot hslot
    exact ⟨c', a', (hd.of_eq_some hc').1, hready, hbuilt⟩

/-- **No call breaks the consistency of its process.** -/
theorem Effect.consistent (he : Effect thread p ds p') (h : p.Consistent) : p'.Consistent := by
  have hd := he.config
  cases he with
  | kept config => exact h.of_slots hd rfl
  | served slot works config =>
    obtain ⟨c, a, hc, ⟨⟩, hbuilt⟩ := h.arenas thread _ slot
    exact h.of_set hd (config.of_eq_some hc).1 (hbuilt.of_works works) rfl
  | refused slot refusal => exact h.of_slots hd rfl
  | created slot new works config =>
    cases config with
    | attempted rest =>
      exact h.of_set hd rest.of_some.1 ((Arena.builtFrom_create new).of_works works) rfl

theorem config_exit (p : Process) (thread : String) : (p.exit thread).state.config = p.config := by
  unfold exit
  split <;> rfl

theorem slots_exit (p : Process) (thread : String) :
    (p.exit thread).state.slots = p.slots.erase thread := by
  unfold exit
  split <;> rfl

theorem slot?_exit (p : Process) (thread : String) : (p.exit thread).state.slot? thread = none := by
  rw [slot?, slots_exit]
  exact Table.find?_erase_same _ _

theorem slot?_exit_other (p : Process) {thread other : String} (h : other ≠ thread) :
    (p.exit thread).state.slot? other = p.slot? other := by
  rw [slot?, slots_exit]
  exact Table.find?_erase_other h

theorem Consistent.exit (h : p.Consistent) (thread : String) :
    (p.exit thread).state.Consistent := by
  refine ⟨by rw [config_exit]; exact h.valid, fun other slot hslot => ?_⟩
  by_cases hother : other = thread
  · rw [hother, slot?_exit] at hslot
    cases hslot
  · rw [slot?_exit_other p hother] at hslot
    rw [config_exit]
    exact h.arenas other slot hslot

end Process

/-! ## Scripts

A script is a list of steps, each with the name of its thread. Its reports are a list of the same
length, and the deeds are read off the two together. -/

namespace Script

namespace Session

/-- The deeds in the reports of a script. -/
def deeds (script : List (String × ThreadStep)) (reports : List Report) : List Deed :=
  (script.zip reports).flatMap fun x => x.1.2.deeds x.2

/-- A script may be continued. -/
theorem steps_append (s : Session) (x y : List (String × ThreadStep)) :
    (s.steps (x ++ y)).1 = ((s.steps x).1.steps y).1 := by
  induction x generalizing s with
  | nil => rfl
  | cons first rest ih => exact ih (s.step first.1 first.2).1

/-- **The slot of a thread is its own**: a step on another one leaves it as it is, whatever that
step comes to. -/
theorem slot?_step_other (s : Session) {thread other : String} (t : ThreadStep)
    (h : other ≠ thread) :
    (s.step thread t).1.process.slot? other = s.process.slot? other := by
  cases t with
  | act name action => exact (s.effect_step thread name action).slot?_other h
  | exit => exact s.process.slot?_exit_other h

/-- A thread that has ended has no arena. -/
theorem slot?_step_exit (s : Session) (thread : String) :
    (s.step thread .exit).1.process.slot? thread = none :=
  s.process.slot?_exit thread

theorem held_step_exit (s : Session) (thread : String) : (s.step thread .exit).1.held thread = [] :=
  congrArg (Option.getD · []) (Table.find?_erase_same _ _)

theorem held_step_other (s : Session) {thread other : String} (t : ThreadStep)
    (h : other ≠ thread) : (s.step thread t).1.held other = s.held other := by
  refine congrArg (Option.getD · []) ?_
  cases t with
  | act name action => exact Table.find?_set_other h
  | exit => exact Table.find?_erase_other h

/-- As long as a thread does not end, its arena stays. -/
theorem becomes_steps {s : Session} {thread : String} {a : Arena}
    (hslot : s.process.slot? thread = some (.ready a)) {later : List (String × ThreadStep)}
    (hlater : (thread, .exit) ∉ later) :
    ∃ a', (s.steps later).1.process.slot? thread = some (.ready a') ∧ a.Becomes a' := by
  induction later generalizing s a with
  | nil => exact ⟨a, hslot, .refl a⟩
  | cons first rest ih =>
    obtain ⟨other, t⟩ := first
    obtain ⟨hfirst, hrest⟩ := not_or.1 (mt List.mem_cons.2 hlater)
    -- The step is the thread's own, and then its arena goes to work, or another's, and then it
    -- rests.
    have hnext : ∃ b, (s.step other t).1.process.slot? thread = some (.ready b) ∧ a.Becomes b := by
      by_cases hother : thread = other
      · subst hother
        cases t with
        | exit => exact absurd rfl hfirst
        | act name action => exact (s.effect_step thread name action).becomes hslot
      · exact ⟨a, (slot?_step_other s t hother).trans hslot, .refl a⟩
    obtain ⟨b, hb, hbecomes⟩ := hnext
    obtain ⟨a', ha', hbecomes'⟩ := ih hb hrest
    exact ⟨a', ha', hbecomes.trans hbecomes'⟩

/-- What one step makes of the configuration is what its deeds do. -/
theorem decides_step (s : Session) (thread : String) (t : ThreadStep) :
    Decides (t.deeds (s.step thread t).2) s.process.config (s.step thread t).1.process.config := by
  cases t with
  | act name action => exact (s.effect_step thread name action).config
  | exit =>
    show Decides [] s.process.config (s.process.exit thread).state.config
    rw [Process.config_exit]
    exact .nil _

/-- What a script makes of the configuration is what its deeds do. -/
theorem decides_steps (s : Session) (script : List (String × ThreadStep)) :
    Decides (deeds script (s.steps script).2) s.process.config
      (s.steps script).1.process.config := by
  induction script generalizing s with
  | nil => exact .nil _
  | cons first rest ih =>
    exact (s.decides_step first.1 first.2).append (ih (s.step first.1 first.2).1)

/-- The invariant holds after any script. -/
theorem consistent_steps {s : Session} (h : s.process.Consistent)
    (script : List (String × ThreadStep)) : (s.steps script).1.process.Consistent := by
  induction script generalizing s with
  | nil => exact h
  | cons first rest ih =>
    refine ih (s := (s.step first.1 first.2).1) ?_
    cases first.2 with
    | act name action => exact (s.effect_step first.1 name action).consistent h
    | exit => exact h.exit first.1

/-- **One configuration per process.** A script starts in a fresh process and goes on.
* What is decided stays decided.
* Nothing is decided exactly as long as there is no deed.
* Only the first deed of all can have installed a configuration, and then that is the one.
* An arena that a thread had at any time was built from the one configuration, which is valid.
* Configuring that fails changes nothing, whatever the process is. -/
theorem configuration_decided_once (supply : Supply) (script later : List (String × ThreadStep)) :
    let earlier := (fresh supply).steps script
    let process := earlier.1.process
    let final := ((fresh supply).steps (script ++ later)).1.process
    (∀ c, process.config = some c → final.config = some c) ∧
      (process.config = none ↔ deeds script earlier.2 = []) ∧
      (∀ before c after, deeds script earlier.2 = before ++ .configured c :: after →
        before = [] ∧ (∀ d, .configured d ∉ after) ∧ process.config = some c) ∧
      (∀ thread slot, process.slot? thread = some slot →
        ∃ c a, slot = .ready a ∧ final.config = some c ∧ c.validate = .ok () ∧ a.BuiltFrom c) ∧
      ∀ p : Process,
        (∀ c e, (p.configure c).result = .error e → (p.configure c).state = p ∧
          (c.validate = .error e ∨ p.config ≠ none ∧ e = .alreadyConfigured)) ∧
        ∀ initial ceiling, (Nullable.configure p initial ceiling).result ≠ .ok →
          (Nullable.configure p initial ceiling).state = p := by
  intro earlier process final
  have hdecides : Decides (deeds script earlier.2) none process.config :=
    (fresh supply).decides_steps script
  have hconsistent : process.Consistent :=
    consistent_steps (Process.consistent_fresh supply) script
  have hstays : ∀ c, process.config = some c → final.config = some c := by
    intro c hc
    have hlater := earlier.1.decides_steps later
    have hfinal : final = (earlier.1.steps later).1.process :=
      congrArg Session.process (steps_append _ script later)
    rw [hfinal]
    exact (hlater.of_eq_some hc).1
  refine ⟨hstays, hdecides.of_none.1, hdecides.of_none.2, ?arenas, fun p => ?rejected⟩
  case arenas =>
    intro thread slot hslot
    obtain ⟨c, a, hc, hready, hbuilt⟩ := hconsistent.arenas thread slot hslot
    exact ⟨c, a, hready, hstays c hc, hconsistent.valid c hc, hbuilt⟩
  case rejected =>
    refine ⟨fun c e h => Process.configure_of_error h, fun initial ceiling h => ?_⟩
    cases hr : (p.configure (Nullable.configOf initial ceiling)).result with
    | ok _ => exact absurd (by simp only [Nullable.configure, Outcome.result_map, hr]) h
    | error e => exact (Process.configure_of_error hr).1

/-- Two threads and memory for one arena: a configuration is rejected, the next one holds, and one
thread gets an arena while the other one is refused. -/
theorem configuration_decided_once_of_run :
    let c : Config := { initialCapacity := 50, growthFactor := 3, maxCapacity := some 200 }
    let call := fun d : Call => ThreadStep.act none (.command (.call true d))
    let script := [("a", call .reset), ("b", .act none (.command (.configureSizes 8 0))),
      ("b", .act none (.command (.configure c))),
      ("a", .act none (.command (.configureSizes 64 0))),
      ("b", call (.allocate 16 "p")), ("a", call (.allocate 16 "p"))]
    let later := [("b", .exit), ("a", call (.allocate 16 "p"))]
    let earlier := (fresh (.limited 100)).steps script
    let final := ((fresh (.limited 100)).steps (script ++ later)).1.process
    deeds script earlier.2 = [.configured c, .attempted, .attempted] ∧
      (earlier.1.process.slot? "a").isNone ∧ final.config = some c ∧
      ∃ a, earlier.1.process.slot? "b" = some (.ready a) ∧ a.BuiltFrom c := by
  intro c call script later earlier final
  obtain ⟨hstays, -, hfirst, harenas, -⟩ :=
    configuration_decided_once (.limited 100) script later
  have hdeeds : deeds script earlier.2 = [.configured c, .attempted, .attempted] := by
    decide +kernel
  have hslot : (earlier.1.process.slot? "b").isSome := by decide +kernel
  obtain ⟨slot, hb⟩ := Option.isSome_iff_exists.1 hslot
  obtain ⟨c', a, rfl, hc', -, hbuilt⟩ := harenas "b" slot hb
  have hfinal : final.config = some c := hstays c (hfirst [] c _ hdeeds).2.2
  obtain rfl : c = c' := Option.some.inj (hfinal.symm.trans hc')
  exact ⟨hdeeds, by decide +kernel, hfinal, a, hb, hbuilt⟩

end Session

end Script

end ArenaAlloc

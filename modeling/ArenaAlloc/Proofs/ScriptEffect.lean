import ArenaAlloc.Proofs.ProcessEffect

/-!
# What steps of a script make of a process

The steps of a script on threads come to what `Process.Effect` lists, and their deeds can be read
off their reports (`ThreadStep.deeds`): an attempt to create an arena is in the log, and whether
somebody configured the process or read its configuration is in the answer. So whatever scripts do
to the configuration is settled by what is reported of them (`Session.effect_act`).

Within a closure the thread's slot is in use. Steps there work on the arena that was lent, or do a
deed that needs no arena (`Inner.lent_run`).

## From calls to steps

A step of a script is a call together with what the script does around it: the pointer is looked up
by its name, and the answer is given a name. None of that is a part of the process, so the effect of
a step is that of its call; the work is in the number of cases. `FrontEnd.Does` takes care of the
five operations at once. It is a property of a front end with a relation to fill in, and it is
filled in four times: for arenas that are held, with reasons and without, for a thread, and for a
thread whose slot is in use.

Steps within closures are nested: a closure may contain a closure. `Inner.lent_run` and
`Inner.lent_runAll` need no induction over the nesting, since an inner closure never runs: the slot
is in use then. The definitions of deeds are recursive all the same, because they are read off
answers and do not know that.
-/

namespace ArenaAlloc

open Process (Deed attempts)

namespace Script

/-! ## Deeds in reports

A failed attempt to configure is no deed, and the answer says whether it failed. An attempt to
create an arena is in the log and not in the answer, where a refusal may go unexplained. -/

def Command.deeds : Command → Answer → List Deed
  | .configure c, .done => [.configured c]
  | .configureSizes initial ceiling, .status .ok =>
    [.configured (Nullable.configOf initial ceiling)]
  | .config, .config _ => [.read]
  | _, _ => []

mutual

def Inner.deeds : Inner → Answer → List Deed
  | .command _ c, answer => c.deeds answer
  | .withArena _ _ body, .all answers => Inner.deedsAll body answers
  | .handle _, _ | .withArena .., _ => []

def Inner.deedsAll : List Inner → List Answer → List Deed
  | step :: rest, answer :: answers => step.deeds answer ++ Inner.deedsAll rest answers
  | _, _ => []

end

def ThreadAction.deeds : ThreadAction → Answer → List Deed
  | .command c, answer => c.deeds answer
  | .withArena _ body, .all answers => Inner.deedsAll body answers
  | .access _, _ | .withArena .., _ => []

/-- The deeds in a step, by what is reported of it. An arena is created before a closure runs. -/
def ThreadStep.deeds : ThreadStep → Session.Report → List Deed
  | .act _ action, .ran answer _ events => attempts events ++ action.deeds answer
  | _, _ => []

/-! ## Calls on any front end

`R` is what is to be known of the state that the call leaves and of the events it logs. It does not
mention answers, so that front ends with different answers can share it. -/

/-- Every call on the front end leaves a state and logs events of which `R` holds. -/
structure FrontEnd.Does {σ : Type} (front : FrontEnd σ) (st : σ) (R : σ → List Event → Prop) :
    Prop where
  allocate : ∀ size, R (front.allocate st size).state (front.allocate st size).events
  zeroAllocate : ∀ count size,
    R (front.zeroAllocate st count size).state (front.zeroAllocate st count size).events
  reallocate : ∀ p size, R (front.reallocate st p size).state (front.reallocate st p size).events
  free : ∀ p, R (front.free st p).state (front.free st p).events
  reset : R (front.reset st).state (front.reset st).events

/-- What holds of the five operations holds of a call, which names the answer besides. -/
theorem Call.does_run {σ : Type} {front : FrontEnd σ} {st : σ} {R : σ → List Event → Prop}
    (h : front.Does st R) (c : Call) (p : Option Address) (names : Names) :
    R (c.run front p names st).state.1 (c.run front p names st).events := by
  cases c with
  | allocate size into =>
    simp only [Call.run, Outcome.state_andThen, Outcome.events_andThen, List.append_nil]
    exact h.allocate size
  | zeroAllocate count size into =>
    simp only [Call.run, Outcome.state_andThen, Outcome.events_andThen, List.append_nil]
    exact h.zeroAllocate count size
  | reallocate size into =>
    simp only [Call.run, Outcome.state_andThen, Outcome.events_andThen, List.append_nil]
    exact h.reallocate p size
  | free =>
    simp only [Call.run, Outcome.state_andThen, Outcome.events_andThen, List.append_nil]
    exact h.free p
  | reset =>
    simp only [Call.run, Outcome.state_andThen, Outcome.events_andThen, List.append_nil]
    exact h.reset

/-- An arena with its supply after a number of operations that attempted to create none. -/
def Worked (a : Arena) (s : Supply) (after : Arena × Supply) (events : List Event) : Prop :=
  Arena.Works (a, s) after ∧ attempts events = []

/-- On an arena that is held, a call is one operation. -/
theorem does_reporting (a : Arena) (s : Supply) :
    FrontEnd.reporting.Does (a, s) (Worked a s) where
  allocate size := ⟨.of_operates (.allocate a s size), a.attempts_allocate s size⟩
  zeroAllocate count size :=
    ⟨.of_operates (.zeroAllocate a s count size), a.attempts_zeroAllocate s count size⟩
  reallocate p size := ⟨.of_operates (.reallocate a s p size), a.attempts_reallocate s p size⟩
  free p := ⟨.of_operates (.free a s p), a.attempts_free p⟩
  reset := ⟨.of_operates (.reset a s), rfl⟩

theorem does_optional (a : Arena) (s : Supply) : FrontEnd.optional.Does (a, s) (Worked a s) :=
  have h := does_reporting a s
  ⟨h.allocate, h.zeroAllocate, h.reallocate, h.free, h.reset⟩

variable {thread : String} {names : Names} {a : Arena} {s : Supply} {p : Process}

/-- **The nullable interface is the other one**, told in null pointers. -/
theorem FrontEnd.nullable_eq_ofThread (thread : String) :
    FrontEnd.nullable thread = FrontEnd.ofThread thread := by
  have hanswer : ∀ o : Outcome Process (Option Address),
      (o.map Nullable.Pointer.ofOption).map Answer.ofPointer = o.map Answer.ofOption := by
    rintro ⟨_ | a, p, events⟩ <;> rfl
  simp only [nullable, ofThread, Nullable.allocate, Nullable.zeroAllocate, Nullable.reallocate,
    Nullable.free, Nullable.reset, hanswer, Nullable.Pointer.toOption_ofOption]

/-- On a thread, a call has an effect of the process. -/
theorem does_ofThread (p : Process) (thread : String) :
    (FrontEnd.ofThread thread).Does p fun p' events => p.Effect thread (attempts events) p' where
  allocate size := p.effect_allocate thread size
  zeroAllocate count size := p.effect_zeroAllocate thread count size
  reallocate q size := p.effect_reallocate thread q size
  free q := p.effect_free thread q
  reset := p.effect_reset thread

/-- While the slot is in use, the calls of its thread come to nothing. -/
theorem does_of_inUse (h : p.slot? thread = some .inUse) :
    (FrontEnd.ofThread thread).Does p fun p' events => p' = p ∧ events = [] := by
  -- Operation by operation: each asks for the slot first, and a product is checked before that.
  refine ⟨fun size => ?_, fun count size => ?_, fun q size => ?_, fun q => ?_, ?_⟩
  · simp only [FrontEnd.ofThread, Process.allocate, Process.withArena,
      Process.tryWithArena_of_inUse h, Outcome.map, and_self]
  · simp only [FrontEnd.ofThread, Process.zeroAllocate, Process.withArena,
      Process.tryWithArena_of_inUse h]
    split <;> exact ⟨rfl, rfl⟩
  · simp only [FrontEnd.ofThread, Process.reallocate, Process.withArena,
      Process.tryWithArena_of_inUse h, Outcome.map, and_self]
  · simp only [FrontEnd.ofThread, Process.free, Process.withExisting_of_inUse h]
    split <;> exact ⟨rfl, rfl⟩
  · simp only [FrontEnd.ofThread, Process.reset, Process.withExisting_of_inUse h, Outcome.map,
      and_self]

/-! ## Commands

A command is a call on a front end, or it is about the configuration or the statistics. The second
kind needs no arena, and does the same whether one is in use or not. -/

/-- Both interfaces come to the same calls. -/
theorem Command.run_call (nullable : Bool) (c : Call) (q : Option Address) (names : Names)
    (p : Process) :
    (Command.call nullable c).run thread q names p = c.run (.ofThread thread) q names p := by
  cases nullable with
  | false => rfl
  | true => rw [Command.run, FrontEnd.nullable_eq_ofThread]

/-- A command that is no call decides the configuration at most. -/
theorem Command.adopts_run {c : Command} (hc : ∀ nullable d, c ≠ .call nullable d)
    (q : Option Address) (names : Names) (p : Process) :
    p.Adopts (c.deeds (c.run thread q names p).result) (c.run thread q names p).state.1 ∧
      (c.run thread q names p).events = [] := by
  cases c with
  | call nullable d => exact absurd rfl (hc nullable d)
  | stats =>
    simp only [Command.run]
    split <;> exact ⟨.idle, rfl⟩
  | configure c =>
    have hadopts := p.adopts_configure c
    refine ⟨?_, p.events_configure c⟩
    cases hr : (p.configure c).result with
    | ok _ =>
      rw [hr] at hadopts
      simp only [Command.run, Outcome.result_mapState, Outcome.result_map, hr]
      exact hadopts
    | error e =>
      rw [hr] at hadopts
      simp only [Command.run, Outcome.result_mapState, Outcome.result_map, hr]
      exact hadopts
  | configureSizes initial ceiling =>
    have hadopts := p.adopts_configure (Nullable.configOf initial ceiling)
    refine ⟨?_, p.events_configure _⟩
    cases hr : (p.configure (Nullable.configOf initial ceiling)).result with
    | ok _ =>
      rw [hr] at hadopts
      simp only [Command.run, Nullable.configure, Outcome.result_mapState, Outcome.result_map, hr]
      exact hadopts
    | error e =>
      rw [hr] at hadopts
      simp only [Command.run, Nullable.configure, Outcome.result_mapState, Outcome.result_map, hr]
      cases e <;> exact hadopts
  | config =>
    refine ⟨p.adopts_settledConfig, ?_⟩
    simp only [Command.run, Outcome.events_mapState, Outcome.events_map, Process.settledConfig_eq]

theorem Command.effect_run (c : Command) (q : Option Address) (names : Names) (p : Process) :
    p.Effect thread (attempts (c.run thread q names p).events ++
      c.deeds (c.run thread q names p).result) (c.run thread q names p).state.1 := by
  by_cases hc : ∀ nullable d, c ≠ .call nullable d
  · obtain ⟨hadopts, hevents⟩ := Command.adopts_run hc q names p
    rw [hevents]
    exact hadopts.effect
  · simp only [not_forall, not_not] at hc
    obtain ⟨nullable, d, rfl⟩ := hc
    have hnone : ∀ answer, (Command.call nullable d).deeds answer = [] := fun _ => rfl
    rw [hnone, List.append_nil, Command.run_call]
    exact d.does_run (does_ofThread p thread) q names

/-- While the slot is in use, no command needs more than the configuration. -/
theorem Command.adopts_of_inUse (h : p.slot? thread = some .inUse) (c : Command)
    (q : Option Address) (names : Names) :
    p.Adopts (c.deeds (c.run thread q names p).result) (c.run thread q names p).state.1 ∧
      (c.run thread q names p).events = [] := by
  by_cases hc : ∀ nullable d, c ≠ .call nullable d
  · exact Command.adopts_run hc q names p
  · simp only [not_forall, not_not] at hc
    obtain ⟨nullable, d, rfl⟩ := hc
    have hsame : ((Command.call nullable d).run thread q names p).state.1 = p ∧
        ((Command.call nullable d).run thread q names p).events = [] := by
      rw [Command.run_call]
      exact d.does_run (does_of_inUse h) q names
    rw [hsame.1]
    exact ⟨.idle, hsame.2⟩

/-! ## Steps on an arena that is held

Within a closure the arena is a value that the steps hand on, and the memory it draws from is that
of the process. -/

/-- Reading is no operation; storing is one. -/
theorem Access.works_run (x : Access) (q : Option Address) (a : Arena) (s : Supply) :
    Arena.Works (a, s) ((x.run q a).1, s) := by
  cases q with
  | none => exact .refl _
  | some q =>
    simp only [Access.run]
    split
    · cases hx : x.action with
      | fill value count => exact .of_operates (.write a s _ _ _)
      | store bytes => exact .of_operates (.write a s _ _ _)
      | pattern seed count => exact .of_operates (.write a s _ _ _)
      | verify seed count => exact .refl _
      | read count => exact .refl _
      | hash count => exact .refl _
    · exact .refl _

theorem HandleAction.worked_run (x : HandleAction) (q : Option Address) (names : Names) (a : Arena)
    (s : Supply) : Worked a s (x.run q names a s).state.1 (x.run q names a s).events := by
  cases x with
  | call reasons c =>
    cases reasons with
    | false => exact c.does_run (does_optional a s) q names
    | true => exact c.does_run (does_reporting a s) q names
  | owns place =>
    simp only [HandleAction.run]
    split <;> exact ⟨.refl _, rfl⟩
  | capacity => exact ⟨.refl _, rfl⟩
  | stats => exact ⟨.refl _, rfl⟩
  | describe => exact ⟨.refl _, rfl⟩
  | access x => exact ⟨x.works_run q a s, rfl⟩

/-- Where a step names a pointer, it does what it says or nothing. -/
theorem Names.withPointer_cases {σ : Type} (names : Names) (name : Option String) (state : σ)
    (step : Option Address → Outcome σ Answer) :
    (∃ q, names.withPointer name state step = step q) ∨
      names.withPointer name state step = ⟨.unbound, state, []⟩ := by
  cases name with
  | none => exact .inl ⟨none, rfl⟩
  | some name =>
    simp only [withPointer]
    split
    · exact .inl ⟨_, rfl⟩
    · exact .inr rfl

/-- A step on a held arena is a number of operations, and creates none. -/
theorem HandleStep.worked_run (x : HandleStep) (names : Names) (a : Arena) (s : Supply) :
    Worked a s (x.run names a s).state.1 (x.run names a s).events := by
  unfold HandleStep.run
  rcases names.withPointer_cases x.pointer ((a, s), names)
    (fun q => x.action.run q names a s) with ⟨q, h⟩ | h
  · rw [h]
    exact x.action.worked_run q names a s
  · rw [h]
    exact ⟨.refl _, rfl⟩

/-- The arena, the supply and the names that steps leave. -/
def stateAfter (names : Names) (a : Arena) (s : Supply) :
    List HandleStep → (Arena × Supply) × Names
  | [] => ((a, s), names)
  | step :: rest =>
    let o := step.run names a s
    stateAfter o.state.2 o.state.1.1 o.state.1.2 rest

/-! ## Steps within a closure

The slot is in use throughout. What the closure does to the process besides working on its arena is
deeds that need no arena. -/

theorem Command.deeds_unbound (c : Command) : c.deeds .unbound = [] := by
  cases c <;> rfl

/-- **What a step within a closure comes to**: work on the arena that was lent, or a deed. -/
theorem Inner.lent_run (h : p.slot? thread = some .inUse) (step : Inner) (names : Names)
    (a : Arena) :
    Process.Lent a p (step.deeds (step.run thread names a p).result)
      ((step.run thread names a p).mapState Prod.fst) := by
  cases step with
  | handle x =>
    obtain ⟨hworks, hattempts⟩ := x.worked_run names a p.supply
    rw [Inner.run]
    exact ⟨hworks, .nil _, rfl, hattempts⟩
  | command name c =>
    rw [Inner.run, Inner.deeds]
    rcases names.withPointer_cases name ((a, p), names) fun q =>
      (c.run thread q names p).mapState fun after => ((a, after.1), names) with ⟨q, hrun⟩ | hrun
    · obtain ⟨hadopts, hevents⟩ := c.adopts_of_inUse h q names
      rw [hrun]
      simp only [Outcome.mapState, hevents]
      exact hadopts.lent a
    · rw [hrun, c.deeds_unbound]
      exact Process.Adopts.idle.lent a
  | withArena name reasons body =>
    rw [Inner.run]
    rcases names.withPointer_cases name ((a, p), names) fun _ =>
      ((p.tryWithArena thread fun a p =>
        (Inner.runAll thread names a p body).mapState Prod.fst).map
          (closureAnswer reasons)).mapState fun p => ((a, p), names) with ⟨q, hrun⟩ | hrun
    · rw [hrun, Process.tryWithArena_of_inUse h]
      cases reasons <;> exact Process.Adopts.idle.lent a
    · rw [hrun]
      exact Process.Adopts.idle.lent a

/-- **What a closure comes to.** -/
theorem Inner.lent_runAll (h : p.slot? thread = some .inUse) (steps : List Inner) (names : Names)
    (a : Arena) :
    Process.Lent a p (Inner.deedsAll steps (Inner.runAll thread names a p steps).result)
      ((Inner.runAll thread names a p steps).mapState Prod.fst) := by
  induction steps generalizing names a p with
  | nil =>
    rw [Inner.runAll]
    exact Process.Adopts.idle.lent a
  | cons step rest ih =>
    have hfirst := Inner.lent_run h step names a
    generalize ho : step.run thread names a p = o at hfirst
    -- Steps in a closure leave the slots alone, so the slot is in use for the rest as well.
    have hslot : o.state.1.2.slot? thread = some .inUse := by
      rw [Process.slot?, show o.state.1.2.slots = p.slots from hfirst.slots]
      exact h
    have hrest := ih hslot o.state.2 o.state.1.1
    rw [Inner.runAll, ho]
    exact hfirst.andThen hrest

/-! ## Steps of a thread

The slot is not in use between steps. A step is one command or one whole closure. -/

/-- The steps of a closure, with the names that it leaves. -/
def Inner.closure (thread : String) (names : Names) (body : List Inner) (a : Arena) (p : Process) :
    Outcome (Arena × Process) (List Answer × Names) :=
  let o := Inner.runAll thread names a p body
  ⟨(o.result, o.state.2), o.state.1, o.events⟩

namespace Session

theorem withArena_eq (p : Process) (thread : String) (names : Names) (reasons : Bool)
    (body : List Inner) :
    withArena p thread names reasons body =
      (p.tryWithArena thread (Inner.closure thread names body)).andThen fun result p =>
        match result with
        | .ok (answers, names) => ⟨closureAnswer reasons (.ok answers), (p, names), []⟩
        | .error e => ⟨closureAnswer reasons (.error e), (p, names), []⟩ := rfl

theorem effect_withArena (p : Process) (thread : String) (names : Names) (reasons : Bool)
    (body : List Inner) :
    p.Effect thread (attempts (withArena p thread names reasons body).events ++
        (ThreadAction.withArena reasons body).deeds (withArena p thread names reasons body).result)
      (withArena p thread names reasons body).state.1 := by
  have hlent : ∀ a q, q.slot? thread = some .inUse →
      Process.Lent a q (Inner.deedsAll body (Inner.closure thread names body a q).result.1)
        (Inner.closure thread names body a q) := by
    intro a q hq
    obtain ⟨hworks, hconfig, hslots, hattempts⟩ := Inner.lent_runAll hq body names a
    exact ⟨hworks, hconfig, hslots, hattempts⟩
  have heffect := p.effect_tryWithArena (Inner.closure thread names body)
    (fun r => Inner.deedsAll body r.1) hlent
  rw [withArena_eq]
  simp only [Outcome.events_andThen, Outcome.result_andThen, Outcome.state_andThen]
  generalize p.tryWithArena thread (Inner.closure thread names body) = o at heffect ⊢
  cases hr : o.result with
  | ok answered =>
    rw [hr] at heffect
    simp only [closureAnswer, ThreadAction.deeds, List.append_nil]
    exact heffect
  | error e =>
    rw [hr] at heffect
    simp only [List.append_nil]
    cases reasons <;> exact heffect

/-- Looking at the bytes of an arena, or changing them, creates none. -/
theorem effect_access (p : Process) (thread : String) (q : Option Address) (x : Access) :
    p.Effect thread (attempts (access p thread q x).events) (access p thread q x).state :=
  Process.effect_withExisting (fun a s => x.works_run q a s) fun _ => rfl

theorem effect_act (p : Process) (thread : String) (q : Option Address) (names : Names)
    (action : ThreadAction) :
    p.Effect thread (attempts (act p thread q names action).events ++
        action.deeds (act p thread q names action).result)
      (act p thread q names action).state.1 := by
  cases action with
  | command c => exact c.effect_run q names p
  | access x =>
    rw [ThreadAction.deeds, List.append_nil]
    exact effect_access p thread q x
  | withArena reasons body => exact effect_withArena p thread names reasons body

theorem deeds_unbound (action : ThreadAction) : action.deeds .unbound = [] := by
  cases action with
  | command c => exact c.deeds_unbound
  | access x => rfl
  | withArena reasons body => rfl

/-- The pointers that a thread holds. -/
def held (s : Session) (thread : String) : Names := (s.threads.find? thread).getD []

/-- A step that does not end its thread, on the pointers that the thread holds. -/
theorem step_act (s : Session) (thread : String) (name : Option String) (action : ThreadAction) :
    let o := (s.held thread).withPointer name (s.process, s.held thread) fun q =>
      act s.process thread q (s.held thread) action
    (s.step thread (.act name action)).2 = .ran o.result (o.state.1.stats thread) o.events ∧
      (s.step thread (.act name action)).1.process = o.state.1 ∧
      (s.step thread (.act name action)).1.held thread = o.state.2 := by
  refine ⟨rfl, rfl, ?_⟩
  exact congrArg (Option.getD · []) (Table.find?_set_same _ _ _)

/-- **What a step of a thread comes to**, if it does not end the thread. -/
theorem effect_step (s : Session) (thread : String) (name : Option String)
    (action : ThreadAction) :
    s.process.Effect thread
      ((ThreadStep.act name action).deeds (s.step thread (.act name action)).2)
      (s.step thread (.act name action)).1.process := by
  obtain ⟨hreport, hprocess, -⟩ := s.step_act thread name action
  rw [hreport, hprocess, ThreadStep.deeds]
  -- With an unknown name nothing is done; otherwise the action is done on the pointer.
  rcases (s.held thread).withPointer_cases name (s.process, s.held thread)
    (fun q => act s.process thread q (s.held thread) action) with ⟨q, h⟩ | h
  · rw [h]
    exact effect_act s.process thread q _ action
  · rw [h, deeds_unbound]
    exact .idle

end Session

end Script

end ArenaAlloc

import ArenaAlloc.Proofs.Lending

/-!
# All front ends agree

The same calls can be made on an arena that a script holds, with reasons for failures or without, or
on the arena of a thread, directly, through the nullable interface or in closures that borrow it.
Which way is taken makes no difference to what comes back (`Session.front_ends_agree`), except that
most ways do not tell the reason of a failure (`Turn.told`).

An arena that is held is there from the start, while a thread's arena is created when it is first
needed. So the two are not always in the same state: `Stands` relates a thread that has its arena to
the same arena, and a thread that has none to the fresh arena that would be created for it.

## The comparison

There are five ways to make a call. On an arena that is held: with reasons, or without. On a thread:
the plain interface, the nullable one, or a closure with the calls in it. The first two differ in
answers only (`Call.run_optional`), and the plain and the nullable interface are equal as functions
(`FrontEnd.nullable_eq_ofThread`). That leaves a thread against an arena that is held, and closures
against calls.

The first is a simulation, `Stands`, with a case for the time before the thread has its arena. In
that case the held arena is still as if new, since all that can have happened to it is resets, frees
of nothing and requests for zeros whose product does not fit; and a new arena is not changed by
these.

A closure is a list of calls with a look at the statistics after each, because a closure is one step
of its thread, and what is compared is what is seen after *every* call.
-/

namespace ArenaAlloc

namespace Script

/-! ## With reasons and without

A failure without its reason is answered as no pointer. Names are bound by the pointer in the
answer, so they do not depend on the reason. -/

/-- What is left of an answer when failures come without a reason. -/
def Answer.reasonless : Answer → Answer
  | .failure _ => .nothing
  | answer => answer

/-- The answer that a name is given to has the same pointer with the reason or without. -/
theorem bind_reasonless {σ : Type} (o : Outcome σ (Except AllocError Address)) (names : Names)
    (into : String) :
    (((o.map Except.toOption).map .ofOption).andThen fun answer st =>
        ⟨answer, (st, names.bind into answer), []⟩) =
      ((o.map .ofExcept).andThen fun answer st =>
        ⟨answer, (st, names.bind into answer), []⟩).map Answer.reasonless := by
  obtain ⟨e | a, st, events⟩ := o
  · rfl
  · rfl

/-- An arena that does not say why does the same as one that does. -/
theorem Call.run_optional (c : Call) (q : Option Address) (names : Names) (x : Arena × Supply) :
    c.run .optional q names x = (c.run .reporting q names x).map Answer.reasonless := by
  cases c with
  | allocate size into => exact bind_reasonless _ names into
  | zeroAllocate count size into => exact bind_reasonless _ names into
  | reallocate size into => exact bind_reasonless _ names into
  | free => rfl
  | reset => rfl

/-- A call with the name of the pointer that it is about, if it is about one, and whether the caller
wants to know why if it fails. -/
structure Turn where
  pointer : Option String
  call : Call
  reasons : Bool := false

namespace Turn

/-- The call on an arena that is held. -/
def step (t : Turn) : HandleStep := ⟨t.pointer, .call t.reasons t.call⟩

def withReasons (t : Turn) : Turn := { t with reasons := true }

/-- What the caller is told of a report that has the reasons. -/
def told (t : Turn) (report : HandleReport) : HandleReport :=
  if t.reasons then report else { report with answer := report.answer.reasonless }

theorem run_step (t : Turn) (names : Names) (a : Arena) (s : Supply) :
    t.step.run names a s =
      (t.withReasons.step.run names a s).map
        (if t.reasons then id else Answer.reasonless) := by
  obtain ⟨pointer, call, reasons⟩ := t
  cases reasons with
  | true => rfl
  | false =>
    unfold HandleStep.run
    cases pointer with
    | none => exact call.run_optional none names (a, s)
    | some name =>
      simp only [Names.withPointer, step, withReasons]
      split
      · exact call.run_optional _ names (a, s)
      · rfl

/-- **Only the reasons are lost** when some of the calls on an arena are made without. -/
theorem runSteps_told (turns : List Turn) (names : Names) (a : Arena) (s : Supply) :
    runSteps names a s (turns.map step) =
      ((runSteps names a s (turns.map (step ∘ withReasons))).1,
        List.zipWith told turns (runSteps names a s (turns.map (step ∘ withReasons))).2) := by
  induction turns generalizing names a s with
  | nil => rfl
  | cons t rest ih =>
    have hstep := t.run_step names a s
    simp only [List.map_cons, runSteps, ih, hstep, Outcome.map, Function.comp_apply,
      List.zipWith_cons_cons]
    cases hreasons : t.reasons with
    | true => simp [told, hreasons]
    | false => simp [told, hreasons]

end Turn

/-! ## An arena and a thread

`Follows` is one call on both sides: the same answer, and the thread stands where the arena does. -/

/-- A thread stands where a script on an arena of its own does: it has the same arena and the same
memory, or no arena, no pointers, and is about to be given the `new` one. -/
inductive Stands (thread : String) (new : Arena) :
    Process × Names → (Arena × Supply) × Names → Prop
  | ready {p : Process} {names : Names} {a : Arena} (slot : p.slot? thread = some (.ready a)) :
      Stands thread new (p, names) ((a, p.supply), names)
  | absent {p : Process} {s : Supply} (slot : p.slot? thread = none)
      (create : Arena.create (p.config.getD .default) p.supply =
        ⟨.ok new, s, [.created new.capacity]⟩) :
      Stands thread new (p, []) ((new, s), [])

/-- The same answers, and the thread stands where the arena does. -/
structure Follows (thread : String) (new : Arena) (o : Outcome (Process × Names) Answer)
    (x : Outcome ((Arena × Supply) × Names) Answer) : Prop where
  answer : o.result = x.result
  stands : Stands thread new o.state x.state

variable {thread : String} {new : Arena} {p : Process} {names : Names} {a : Arena}
  {s s' : Supply} {α : Type}

/-- Both sides hold the same pointers. -/
theorem Stands.names_eq {x : Arena × Supply} {names' : Names}
    (h : Stands thread new (p, names) (x, names')) : names' = names := by
  cases h <;> rfl

theorem Stands.of_setSlot (p : Process) (a : Arena) (names : Names) :
    Stands thread new (p.setSlot thread (.ready a), names) ((a, p.supply), names) :=
  .ready (p.slot?_setSlot thread (.ready a))

/-- A closure on the thread's arena gets the arena that is stood for. -/
theorem Stands.lends {names' : Names} (h : Stands thread new (p, names) ((a, s), names')) :
    ∃ q es, p.Lends thread a q es ∧ q.supply = s := by
  cases h with
  | ready slot => exact ⟨_, _, .ready slot, rfl⟩
  | absent slot create => exact ⟨_, _, .created slot create, rfl⟩

/-- An operation on the thread's arena is that operation on the arena it stands for. -/
theorem Stands.withArena (h : Stands thread new (p, names) ((a, s), names))
    (f : Arena → Supply → Outcome (Arena × Supply) (Option Address)) :
    ((p.withArena thread (Process.onArena f)).map Option.join).result = (f a s).result ∧
      ∀ names', Stands thread new ((p.withArena thread (Process.onArena f)).state, names')
        ((f a s).state, names') := by
  obtain ⟨q, es, hlends, rfl⟩ := h.lends
  simp only [Process.withArena, Process.tryWithArena_of_lends hlends]
  exact ⟨rfl, fun names' => .of_setSlot _ _ names'⟩

/-- A reset does not change a new arena. -/
theorem reset_create {config : Config} {es : List Event}
    (h : Arena.create config s = ⟨.ok a, s', es⟩) : a.reset.state = a := by
  obtain ⟨-, c, s', hchunks, rfl⟩ := Arena.create_eq_ok (congrArg Outcome.result h)
  obtain ⟨first, -, -, rfl⟩ := Chunks.create_eq_ok hchunks
  rfl

/-- Where both came by the same pointer, or both by none, and named it. -/
theorem Follows.of_pointer {o : Outcome Process (Option Address)}
    {x : Outcome (Arena × Supply) (Option Address)} {into : String} (hresult : o.result = x.result)
    (hstands : Stands thread new (o.state, names.bind into (.ofOption x.result))
      (x.state, names.bind into (.ofOption x.result))) :
    Follows thread new
      ((o.map .ofOption).andThen fun answer st => ⟨answer, (st, names.bind into answer), []⟩)
      ((x.map .ofOption).andThen fun answer st => ⟨answer, (st, names.bind into answer), []⟩) := by
  refine ⟨congrArg Answer.ofOption hresult, ?_⟩
  simp only [Outcome.state_andThen, Outcome.result_map, hresult]
  exact hstands

/-- A product that does not fit is refused before an arena is created; then the other one stays as
it is too. -/
theorem Stands.zeroAllocate (h : Stands thread new (p, names) ((a, s), names)) (count size : Nat)
    (into : String) :
    (p.zeroAllocate thread count size).result = (a.zeroAllocate? s count size).result ∧
      Stands thread new
        ((p.zeroAllocate thread count size).state,
          names.bind into (.ofOption (a.zeroAllocate? s count size).result))
        ((a.zeroAllocate? s count size).state,
          names.bind into (.ofOption (a.zeroAllocate? s count size).result)) := by
  cases hmul : checkedMul count size with
  | none =>
    have hthread : p.zeroAllocate thread count size = ⟨none, p, []⟩ := by
      simp only [Process.zeroAllocate, hmul]
    have harena : a.zeroAllocate? s count size = ⟨none, (a, s), []⟩ := by
      simp only [Arena.zeroAllocate?, Arena.zeroAllocate, hmul]
      rfl
    rw [hthread, harena]
    exact ⟨rfl, h⟩
  | some total =>
    have hthread : p.zeroAllocate thread count size =
        (p.withArena thread (Process.onArena fun a s => a.zeroAllocate? s count size)).map
          Option.join := by
      simp only [Process.zeroAllocate, hmul]
    obtain ⟨hresult, hstands⟩ := h.withArena fun a s => a.zeroAllocate? s count size
    rw [hthread]
    exact ⟨hresult, hstands _⟩

/-- **A call of a thread does what it does on the arena.** -/
theorem Call.follows_run {q : Option Address} (h : Stands thread new (p, names) ((a, s), names))
    (hq : names = [] → q = none) (c : Call) :
    Follows thread new (c.run (.ofThread thread) q names p) (c.run .optional q names (a, s)) := by
  cases c with
  | allocate size into =>
    obtain ⟨hresult, hstands⟩ := h.withArena fun a s => a.allocate? s size
    exact .of_pointer hresult (hstands _)
  | zeroAllocate count size into =>
    obtain ⟨hresult, hstands⟩ := h.zeroAllocate count size into
    exact .of_pointer hresult hstands
  | reallocate size into =>
    obtain ⟨hresult, hstands⟩ := h.withArena fun a s => a.reallocate? s q size
    exact .of_pointer hresult (hstands _)
  | free =>
    cases q with
    | none => exact ⟨rfl, h⟩
    | some q =>
      -- Freeing creates no arena, so this depends on whether there is one.
      cases h with
      -- Without an arena the thread holds no pointer that it could free.
      | absent slot create => cases hq rfl
      | ready slot =>
        simp only [Call.run, FrontEnd.ofThread, Process.free, Process.withExisting, slot]
        exact ⟨rfl, .of_setSlot _ _ names⟩
  | reset =>
    cases h with
    | ready slot =>
      simp only [Call.run, FrontEnd.ofThread, Process.reset, Process.withExisting, slot]
      exact ⟨rfl, .of_setSlot _ _ []⟩
    | absent slot create =>
      simp only [Call.run, FrontEnd.ofThread, Process.reset, Process.withExisting, slot]
      refine ⟨rfl, ?_⟩
      simp only [FrontEnd.optional, Outcome.state_andThen, Outcome.state_mapState,
        reset_create create]
      exact .absent slot create

/-- The name is looked up in the same names. -/
theorem Names.follows_withPointer {x : Arena × Supply} (name : Option String)
    (h : Stands thread new (p, names) (x, names))
    {step : Option Address → Outcome (Process × Names) Answer}
    {step' : Option Address → Outcome ((Arena × Supply) × Names) Answer}
    (hstep : ∀ q, (names = [] → q = none) → Follows thread new (step q) (step' q)) :
    Follows thread new (names.withPointer name (p, names) step)
      (names.withPointer name (x, names) step') := by
  cases name with
  | none => exact hstep none fun _ => rfl
  | some name =>
    simp only [withPointer]
    cases hfound : names.find? name with
    | none => exact ⟨rfl, h⟩
    | some q =>
      refine hstep (some q) fun hnone => ?_
      rw [hnone, Table.find?_nil] at hfound
      cases hfound

/-! ## Closures

A closure borrows the arena for all of its calls. Between two calls the slot is in use, so the
statistics have to be asked of the arena and not of the thread. -/

/-- Calls on an arena may be continued. -/
theorem runSteps_append (names : Names) (a : Arena) (s : Supply) (x y : List HandleStep) :
    (runSteps names a s (x ++ y)).2 =
      (runSteps names a s x).2 ++
        (runSteps (stateAfter names a s x).2 (stateAfter names a s x).1.1
          (stateAfter names a s x).1.2 y).2 := by
  induction x generalizing names a s with
  | nil => rfl
  | cons step rest ih => exact congrArg (_ :: ·) (ih _ _ _)

/-- The call within a closure, and a look at the bookkeeping. -/
def Turn.inner (t : Turn) : List Inner := [.handle t.step, .handle ⟨none, .stats⟩]

/-- What is shown of a report where the arena is there. -/
def HandleReport.shown (report : HandleReport) : Answer × Option (Stats Address) :=
  (report.answer, some report.stats)

/-- The answers to the calls in a closure, each with the bookkeeping after it. -/
def observed : List Answer → List (Answer × Option (Stats Address))
  | answer :: .stats stats :: rest => (answer, some stats) :: observed rest
  | _ => []

/-- **The calls in a closure are calls on the arena that it borrows.** -/
theorem Inner.runAll_turns (thread : String) (turns : List Turn) (names : Names) (a : Arena)
    (p : Process) :
    (Inner.runAll thread names a p (turns.flatMap Turn.inner)).state =
        (((stateAfter names a p.supply (turns.map Turn.step)).1.1,
          { p with supply := (stateAfter names a p.supply (turns.map Turn.step)).1.2 }),
          (stateAfter names a p.supply (turns.map Turn.step)).2) ∧
      observed (Inner.runAll thread names a p (turns.flatMap Turn.inner)).result =
        (runSteps names a p.supply (turns.map Turn.step)).2.map HandleReport.shown := by
  induction turns generalizing names a p with
  | nil => exact ⟨rfl, rfl⟩
  | cons t rest ih =>
    let o := t.step.run names a p.supply
    obtain ⟨hstate, hobserved⟩ := ih o.state.2 o.state.1.1 { p with supply := o.state.1.2 }
    have hrun : Inner.runAll thread names a p ((t :: rest).flatMap Turn.inner) =
        let r := Inner.runAll thread o.state.2 o.state.1.1 { p with supply := o.state.1.2 }
          (rest.flatMap Turn.inner)
        ⟨o.result :: .stats o.state.1.1.stats :: r.result, r.state, o.events ++ r.events⟩ := by
      simp only [List.flatMap_cons, Turn.inner, List.cons_append, List.nil_append]
      rfl
    rw [hrun]
    exact ⟨hstate, congrArg (_ :: ·) hobserved⟩

/-! ## Scripts on a thread

Visits are what is common to all ways: some calls, made one by one or in a closure. The grouping
into closures is free, so two groupings of the same calls are both compared with the calls on an
arena. -/

/-- Something that a thread does with its arena: a call, through the nullable interface or not, or
any number of calls in a closure, which is told if there is no arena for it or is not. -/
inductive Visit where
  | call (nullable : Bool) (pointer : Option String) (c : Call)
  | closure (reasons : Bool) (turns : List Turn)

namespace Visit

def turns : Visit → List Turn
  | call _ pointer c => [{ pointer, call := c }]
  | closure _ turns => turns

def step : Visit → ThreadStep
  | call nullable pointer c => .act pointer (.command (.call nullable c))
  | closure reasons turns => .act none (.withArena reasons (turns.flatMap Turn.inner))

/-- What a thread sees of its calls: each answer, and the bookkeeping of its arena, if it has one.
-/
def seen : Visit → Session.Report → List (Answer × Option (Stats Address))
  | call .., .ran answer stats _ => [(answer, stats)]
  | closure .., .ran (.all answers) _ _ => observed answers
  | _, _ => []

end Visit

/-- What a thread sees beside what is reported of the arena: at first there may be none yet, while
the other one is as if new; from then on the same. -/
inductive Shows (new : Arena) : List HandleReport → List (Answer × Option (Stats Address)) → Prop
  | absent {report : HandleReport} {reports : List HandleReport}
      {seen : List (Answer × Option (Stats Address))} (stats : report.stats = new.stats)
      (rest : Shows new reports seen) :
      Shows new (report :: reports) ((report.answer, none) :: seen)
  | ready (reports : List HandleReport) : Shows new reports (reports.map HandleReport.shown)

/-- With an arena the thread sees the arena's statistics; without one it sees none, and the arena
that it stands for is as new. -/
theorem Stands.stats {x : Process × Names} {y : (Arena × Supply) × Names}
    (h : Stands thread new x y) :
    (∃ a, x.1.slot? thread = some (.ready a)) ∧ x.1.stats thread = some y.1.1.stats ∨
      x.1.slot? thread = none ∧ x.1.stats thread = none ∧ y.1.1.stats = new.stats := by
  cases h with
  | ready slot => exact .inl ⟨⟨_, slot⟩, by simp only [Process.stats, slot]⟩
  | absent slot create => exact .inr ⟨slot, by simp only [Process.stats, slot], rfl⟩

namespace Session

/-- What a thread sees of its visits, in their order. -/
def seen (visits : List Visit) (reports : List Report) : List (Answer × Option (Stats Address)) :=
  (visits.zip reports).flatMap fun x => x.1.seen x.2

/-- A closure runs, and what it does on the arena it does on the one that is stood for. -/
theorem follows_closure (h : Stands thread new (p, names) ((a, s), names)) (reasons : Bool)
    (turns : List Turn) :
    ∃ answers p' names' events,
      withArena p thread names reasons (turns.flatMap Turn.inner) =
          ⟨.all answers, (p', names'), events⟩ ∧
        (∃ a, p'.slot? thread = some (.ready a)) ∧
        Stands thread new (p', names') (stateAfter names a s (turns.map Turn.step)) ∧
        observed answers =
          (runSteps names a s (turns.map Turn.step)).2.map HandleReport.shown := by
  obtain ⟨q, es, hlends, rfl⟩ := h.lends
  obtain ⟨hstate, hobserved⟩ := Inner.runAll_turns thread turns names a q
  rw [withArena_eq, Process.tryWithArena_of_lends hlends]
  refine ⟨_, _, _, _, rfl, ⟨_, Process.slot?_setSlot _ _ _⟩, ?_, hobserved⟩
  simp only [Inner.closure, hstate]
  exact .of_setSlot _ _ _

/-- **A visit does what its calls do on the arena**, and shows the same. Only a call can leave the
thread without an arena. -/
theorem follows_visit {session : Session}
    (h : Stands thread new (session.process, session.held thread) ((a, s), names)) (v : Visit) :
    let reports := (runSteps names a s (v.turns.map Turn.step)).2
    let o := session.step thread v.step
    Stands thread new (o.1.process, o.1.held thread)
        (stateAfter names a s (v.turns.map Turn.step)) ∧
      ((∃ a, o.1.process.slot? thread = some (.ready a)) ∧
          v.seen o.2 = reports.map HandleReport.shown ∨
        o.1.process.slot? thread = none ∧
          ∃ report, reports = [report] ∧ v.seen o.2 = [(report.answer, none)] ∧
            report.stats = new.stats) := by
  obtain rfl := h.names_eq
  cases v with
  | call nullable pointer c =>
    obtain ⟨hreport, hprocess, hheld⟩ :=
      session.step_act thread pointer (.command (.call nullable c))
    have hfollows : Follows thread new
        ((session.held thread).withPointer pointer (session.process, session.held thread) fun q =>
          act session.process thread q (session.held thread) (.command (.call nullable c)))
        ((⟨pointer, .call false c⟩ : HandleStep).run (session.held thread) a s) :=
      Names.follows_withPointer pointer h fun q hq => by
        rw [act, Command.run_call]
        exact c.follows_run h hq
    dsimp only
    rw [Visit.step, hreport, hprocess, hheld, hfollows.answer]
    refine ⟨hfollows.stands, ?_⟩
    rcases hfollows.stands.stats with ⟨hslot, hstats⟩ | ⟨hslot, hstats, hnew⟩
    · rw [hstats]
      exact .inl ⟨hslot, rfl⟩
    · rw [hstats]
      exact .inr ⟨hslot, _, rfl, rfl, hnew⟩
  | closure reasons turns =>
    obtain ⟨hreport, hprocess, hheld⟩ :=
      session.step_act thread none (.withArena reasons (turns.flatMap Turn.inner))
    obtain ⟨answers, p, names, events, hrun, hslot, hstands, hobserved⟩ :=
      follows_closure h reasons turns
    have hact : (session.held thread).withPointer none (session.process, session.held thread)
        (fun q => act session.process thread q (session.held thread)
          (.withArena reasons (turns.flatMap Turn.inner))) = ⟨.all answers, (p, names), events⟩ :=
      hrun
    dsimp only
    rw [Visit.step, hreport, hprocess, hheld, hact]
    exact ⟨hstands, .inl ⟨hslot, hobserved⟩⟩

/-- An arena that is there stays, as long as the thread does not end. -/
theorem ready_step {session : Session} (h : session.process.slot? thread = some (.ready a))
    (v : Visit) :
    ∃ a, (session.step thread v.step).1.process.slot? thread = some (.ready a) := by
  cases v with
  | call nullable pointer c =>
    obtain ⟨a', ha', -⟩ := (session.effect_step thread pointer _).becomes h
    exact ⟨a', ha'⟩
  | closure reasons turns =>
    obtain ⟨a', ha', -⟩ := (session.effect_step thread none _).becomes h
    exact ⟨a', ha'⟩

/-- Where the arena is there, it is there after every visit. -/
theorem shown_visits {session : Session}
    (h : Stands thread new (session.process, session.held thread) ((a, s), names))
    (hslot : ∃ a, session.process.slot? thread = some (.ready a)) (visits : List Visit) :
    seen visits (session.steps (visits.map fun v => (thread, v.step))).2 =
      (runSteps names a s ((visits.flatMap Visit.turns).map Turn.step)).2.map
        HandleReport.shown := by
  induction visits generalizing session names a s with
  | nil => rfl
  | cons v rest ih =>
    obtain ⟨a₀, hready⟩ := hslot
    obtain ⟨hstands, ⟨hslot, hseen⟩ | ⟨hnone, -⟩⟩ := follows_visit h v
    · rw [List.flatMap_cons, List.map_append, runSteps_append, List.map_append, ← hseen]
      exact congrArg (_ ++ ·) (ih hstands hslot)
    · obtain ⟨a', hready'⟩ := ready_step hready v
      cases hnone.symm.trans hready'

theorem shows_visits {session : Session}
    (h : Stands thread new (session.process, session.held thread) ((a, s), names))
    (visits : List Visit) :
    Shows new (runSteps names a s ((visits.flatMap Visit.turns).map Turn.step)).2
      (seen visits (session.steps (visits.map fun v => (thread, v.step))).2) := by
  -- As long as there is no arena, each visit is one call; once there is one, `shown_visits` has the
  -- rest.
  induction visits generalizing session names a s with
  | nil => exact .ready []
  | cons v rest ih =>
    have hcons : seen (v :: rest) (session.steps ((v :: rest).map fun v => (thread, v.step))).2 =
        v.seen (session.step thread v.step).2 ++ seen rest
          ((session.step thread v.step).1.steps (rest.map fun v => (thread, v.step))).2 := rfl
    rw [hcons, List.flatMap_cons, List.map_append, runSteps_append]
    obtain ⟨hstands, ⟨hslot, hseen⟩ | ⟨-, report, hreport, hseen, hstats⟩⟩ := follows_visit h v
    · rw [hseen, shown_visits hstands hslot rest, ← List.map_append]
      exact .ready _
    · rw [hreport, hseen]
      exact .absent hstats (ih hstands)

/-- **All front ends agree.** A script makes some calls on an arena that it holds, built from the
configuration in effect. A thread that has no arena yet, and holds no pointers, makes the same calls
in a process with the same supply.
* If the script leaves out the reasons of failures, in all of the calls or in some, then only the
  reasons are missing from what is reported.
* However the thread makes the calls, and whichever of them in closures, it sees the same answers
  and the same bookkeeping, or no arena yet while the other one is as if new. -/
theorem front_ends_agree (s : Session) (thread : String) {supply : Supply} {events : List Event}
    (hnew : Arena.create (s.process.config.getD .default) s.process.supply =
      ⟨.ok new, supply, events⟩)
    (hslot : s.process.slot? thread = none) (hheld : s.held thread = []) (turns : List Turn) :
    let reported := (runSteps [] new supply (turns.map fun t => t.withReasons.step)).2
    let told := List.zipWith Turn.told turns reported
    (runSteps [] new supply (turns.map Turn.step)).2 = told ∧
      ∀ visits : List Visit, visits.flatMap Visit.turns = turns →
        Shows new told (seen visits (s.steps (visits.map fun v => (thread, v.step))).2) := by
  intro reported told
  have htold : (runSteps [] new supply (turns.map Turn.step)).2 = told :=
    congrArg Prod.snd (Turn.runSteps_told turns [] new supply)
  refine ⟨htold, fun visits hturns => ?_⟩
  have hcreate : Arena.create (s.process.config.getD .default) s.process.supply =
      ⟨.ok new, supply, [.created new.capacity]⟩ := by
    rcases Arena.create_cases (s.process.config.getD .default) s.process.supply with
      ⟨e, he⟩ | ⟨a, s', hok⟩
    · cases he.symm.trans hnew
    · cases hok.symm.trans hnew
      exact hok
  have hstands : Stands thread new (s.process, s.held thread) ((new, supply), []) := by
    rw [hheld]
    exact .absent hslot hcreate
  rw [← htold, ← hturns]
  exact shows_visits hstands visits

/-- A product that does not fit, before there is an arena; then calls in every manner, with a chunk
that the supply refuses on the way. -/
theorem front_ends_agree_of_run :
    let s : Session :=
      { process := { config := some { initialCapacity := 64 }, supply := .limited 200 } }
    let new : Arena :=
      { chunks := { list := [{ length := 64 }], growthFactor := 2, ceiling := none } }
    let visits := [.call true none (.zeroAllocate (wordLimit / 2) 4 "p"),
      .call false none (.allocate 16 "p"),
      .closure true [⟨some "p", .reallocate 30 "q", true⟩, ⟨none, .allocate 5000 "r", true⟩],
      .call true (some "q") .free, .call false none .reset, .call true none (.allocate 8 "q")]
    let turns := visits.flatMap Visit.turns
    let told := List.zipWith Turn.told turns
      (runSteps [] new { limit := some 200, held := 64 } (turns.map fun t => t.withReasons.step)).2
    told.map (·.answer.pointer?) =
        [none, some ⟨0, 32⟩, some ⟨1, 32⟩, none, none, none, some ⟨0, 32⟩] ∧
      Shows new told (seen visits (s.steps (visits.map fun v => ("main", v.step))).2) := by
  intro s new visits turns told
  have hvalid : Config.validate { initialCapacity := 64 } = .ok () := rfl
  have hchunks : Chunks.create { initialCapacity := 64 } (.limited 200) =
      .ok (new.chunks, { limit := some 200, held := 64 }) := rfl
  have hnew : Arena.create { initialCapacity := 64 } (.limited 200) =
      ⟨.ok new, { limit := some 200, held := 64 }, [.created 64]⟩ := by
    simp only [Arena.create, hvalid, hchunks]
    rfl
  exact ⟨by decide +kernel, (front_ends_agree s "main" hnew rfl rfl turns).2 visits rfl⟩

end Session

end Script

end ArenaAlloc

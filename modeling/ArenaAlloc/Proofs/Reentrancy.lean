import ArenaAlloc.Proofs.Configuration
import ArenaAlloc.Proofs.Lending

/-!
# Calls from within a closure

A closure that has borrowed a thread's arena can still make calls to the process. They find the
arena in use and come to nothing (`Inner.run_of_inUse`): what they are answered depends on nothing
but the configuration, which is decided as long as there is an arena, and they leave everything as
it is. So a closure does what its steps on the arena do alone, and those do not notice the others
(`Session.reentrant_steps_inert`).

## How it is proved

A closure is run twice in the theorem: once as it is, and once with nothing in it but its steps on
the arena. Neither run is followed through to the other. Both are computed: `Inner.runAll_of_inUse`
says what a closure comes to in terms of its steps on the arena alone, so two closures with the same
such steps come to the same.

`Answered` is the record of the answers. It threads names, arena and supply through the steps,
because whether a command is made at all depends on the names that the steps before it have bound:
one that names a pointer which nobody holds is answered `.unbound`, and any other is answered by
`Inert`. In no case is there a value in the answer that has to do with the arena.

The configuration is decided while a closure runs, since the arena was built from it
(`Lends.config_decided`). So even the one kind of re-entrant call that does not need the arena, to
configure the process, cannot have an effect.
-/

namespace ArenaAlloc

/-- Why a configuration is rejected when another one is in effect. -/
def Config.rejection (d : Config) : AllocError :=
  match d.validate with
  | .error e => e
  | .ok () => .alreadyConfigured

/-- Where there is a configuration, another is rejected. -/
theorem Process.configure_of_some {p : Process} {c : Config} (h : p.config = some c) (d : Config) :
    p.configure d = ⟨.error d.rejection, p, []⟩ := by
  unfold Config.rejection configure
  cases d.validate with
  | error e => rfl
  | ok _ => simp only [h]

/-- A closure runs only where the configuration is decided: the arena that is there is built from
it, or it was needed for the new one. -/
theorem Process.Lends.config_decided {p q : Process} {thread : String} {a : Arena} {es : List Event}
    (h : p.Lends thread a q es) (hp : p.Consistent) : ∃ c, q.config = some c := by
  cases h with
  | ready slot =>
    obtain ⟨c, -, hconfig, -⟩ := hp.arenas thread _ slot
    exact ⟨c, hconfig⟩
  | created _ _ => exact ⟨_, rfl⟩

/-- Where there is one, it is the one. -/
theorem Process.settledConfig_of_some {p : Process} {c : Config} (h : p.config = some c) :
    p.settledConfig = ⟨c, p, []⟩ := by
  simp only [settledConfig, h]

namespace Script

variable {thread : String} {q : Process} {c : Config}

/-! ## Answers while the arena is in use

`inertAnswer` is a function of the command and the configuration. Neither the arena, nor the supply,
nor the pointer that is named has a part in it. -/

/-- What a command is answered while its thread's arena is in use and the configuration is `c`. -/
def Command.inertAnswer (c : Config) : Command → Answer
  | .call _ .free | .call _ .reset => .done
  | .call _ _ | .stats => .nothing
  | .configure d => .failure d.rejection
  | .configureSizes initial ceiling =>
    .status (.ofError (Nullable.configOf initial ceiling).rejection)
  | .config => .config c

/-- What a step that is not on the arena is answered in a closure: a command comes to nothing, and
another closure does not run. Only a step that names a pointer which is not held is not made. -/
inductive Inner.Inert (c : Config) (names : Names) : Inner → Answer → Prop
  | command {pointer : Option String} (held : names.Holds pointer) (d : Command) :
      Inert c names (.command pointer d) (d.inertAnswer c)
  | withArena {pointer : Option String} (held : names.Holds pointer) (reasons : Bool)
      (body : List Inner) :
      Inert c names (.withArena pointer reasons body) (closureAnswer reasons (.error .unavailable))
  | unheldCommand {pointer : Option String} (unheld : ¬ names.Holds pointer) (d : Command) :
      Inert c names (.command pointer d) .unbound
  | unheldClosure {pointer : Option String} (unheld : ¬ names.Holds pointer) (reasons : Bool)
      (body : List Inner) : Inert c names (.withArena pointer reasons body) .unbound

/-- The step on the arena that was lent, if it is one. -/
def Inner.handle? : Inner → Option HandleStep
  | .handle step => some step
  | .command _ _ | .withArena _ _ _ => none

/-- The steps of a closure are answered `answers`, from names, an arena and a supply on: those on
the arena what they come to, which are the `results`, and the others as long as the arena is in use
and the configuration is `c`. Only the former have an effect on what the steps after them start
from. -/
inductive Answered (c : Config) :
    Names → Arena → Supply → List Inner → List Answer → List Answer → Prop
  | nil {names : Names} {a : Arena} {s : Supply} : Answered c names a s [] [] []
  | handle {names : Names} {a : Arena} {s : Supply} {steps : List Inner}
      {answers results : List Answer} (step : HandleStep)
      (rest : Answered c (step.run names a s).state.2 (step.run names a s).state.1.1
        (step.run names a s).state.1.2 steps answers results) :
      Answered c names a s (.handle step :: steps) ((step.run names a s).result :: answers)
        ((step.run names a s).result :: results)
  | inert {names : Names} {a : Arena} {s : Supply} {step : Inner} {answer : Answer}
      {steps : List Inner} {answers results : List Answer} (first : step.Inert c names answer)
      (rest : Answered c names a s steps answers results) :
      Answered c names a s (step :: steps) (answer :: answers) results

/-- Every command comes to its inert answer, and leaves the process as it is. -/
theorem Command.run_of_inUse (h : q.slot? thread = some .inUse) (hc : q.config = some c)
    (d : Command) (p : Option Address) (names : Names) :
    (d.run thread p names q).result = d.inertAnswer c ∧ (d.run thread p names q).state.1 = q ∧
      (d.run thread p names q).events = [] := by
  cases d with
  | call nullable call =>
    obtain ⟨hstate, hevents⟩ := call.does_run (does_of_inUse h) p names
    rw [Command.run_call]
    refine ⟨?_, hstate, hevents⟩
    cases call with
    | allocate size into =>
      rw [(Call.tells rfl thread p names).of_denies (.inUse h)]
      rfl
    | zeroAllocate count size into =>
      -- A product that does not fit has the same answer.
      simp only [Call.run, FrontEnd.ofThread, Process.zeroAllocate, Process.withArena,
        Process.tryWithArena_of_inUse h]
      split <;> rfl
    | reallocate size into =>
      rw [(Call.tells rfl thread p names).of_denies (.inUse h)]
      rfl
    | free => rfl
    | reset => rfl
  | stats =>
    simp only [Command.run, Process.stats, h]
    exact ⟨rfl, trivial, trivial⟩
  | configure d =>
    simp only [Command.run, Process.configure_of_some hc]
    exact ⟨rfl, rfl, rfl⟩
  | configureSizes initial ceiling =>
    simp only [Command.run, Nullable.configure, Process.configure_of_some hc]
    exact ⟨rfl, rfl, rfl⟩
  | config =>
    simp only [Command.run, Process.settledConfig_of_some hc]
    exact ⟨rfl, rfl, rfl⟩

/-! ## Closures

The steps of a closure are of two kinds. Those on the arena move it on; all others are inert. -/

/-- A step in a closure that is not on the arena changes nothing and logs nothing. -/
theorem Inner.run_of_inUse (h : q.slot? thread = some .inUse) (hc : q.config = some c)
    {step : Inner}
    (hstep : step.handle? = none) (names : Names) (a : Arena) :
    ∃ answer, step.Inert c names answer ∧
      step.run thread names a q = ⟨answer, ((a, q), names), []⟩ := by
  cases step with
  | handle step => cases hstep
  | command name d =>
    rw [Inner.run]
    -- Whether the step is made at all depends on the name.
    by_cases hheld : names.Holds name
    · obtain ⟨p, hp⟩ := Names.withPointer_of_holds hheld
      obtain ⟨hresult, hstate, hevents⟩ := d.run_of_inUse h hc p names
      refine ⟨_, .command hheld d, ?_⟩
      rw [hp]
      simp only [Outcome.mapState, hresult, hstate, hevents]
    · exact ⟨_, .unheldCommand hheld d, Names.withPointer_of_not_holds hheld _ _⟩
  | withArena name reasons body =>
    rw [Inner.run, Process.tryWithArena_of_inUse h]
    by_cases hheld : names.Holds name
    · obtain ⟨p, hp⟩ := Names.withPointer_of_holds hheld
      exact ⟨_, .withArena hheld reasons body, hp _ _⟩
    · exact ⟨_, .unheldClosure hheld reasons body, Names.withPointer_of_not_holds hheld _ _⟩

/-- **A closure comes to what its steps on the arena come to.** -/
theorem Inner.runAll_of_inUse (h : q.slot? thread = some .inUse) (hc : q.config = some c)
    (steps : List Inner) (names : Names) (a : Arena) :
    let after := stateAfter names a q.supply (steps.filterMap Inner.handle?)
    let reports := (runSteps names a q.supply (steps.filterMap Inner.handle?)).2
    ∃ answers, Answered c names a q.supply steps answers (reports.map HandleReport.answer) ∧
      Inner.runAll thread names a q steps =
        ⟨answers, ((after.1.1, { q with supply := after.1.2 }), after.2),
          reports.flatMap HandleReport.events⟩ := by
  -- Each step leaves the slot in use and the configuration decided, so the hypotheses hold of the
  -- rest.
  induction steps generalizing names a q with
  | nil =>
    rw [Inner.runAll]
    exact ⟨[], .nil, rfl⟩
  | cons step rest ih =>
    rw [Inner.runAll]
    cases hstep : step.handle? with
    | none =>
      obtain ⟨answer, hinert, hrun⟩ := Inner.run_of_inUse h hc hstep names a
      obtain ⟨answers, hanswered, hrest⟩ := ih h hc names a
      rw [hrun, List.filterMap_cons_none hstep]
      refine ⟨answer :: answers, .inert hinert hanswered, ?_⟩
      simp only [Outcome.andThen, hrest]
      rfl
    | some x =>
      cases step with
      | command _ _ => cases hstep
      | withArena _ _ _ => cases hstep
      | handle step =>
        cases hstep
        let o := x.run names a q.supply
        obtain ⟨answers, hanswered, hrest⟩ :=
          ih (q := { q with supply := o.state.1.2 }) h hc o.state.2 o.state.1.1
        refine ⟨o.result :: answers, .handle x hanswered, ?_⟩
        rw [Inner.run]
        simp only [Outcome.andThen, Outcome.mapState]
        rw [hrest]
        rfl

/-- Steps on the arena alone are answered what they are answered. -/
theorem Answered.of_handle {names : Names} {a : Arena} {s : Supply} {steps : List Inner}
    {answers results : List Answer} (h : Answered c names a s steps answers results)
    (hsteps : ∀ step ∈ steps, step.handle?.isSome) : answers = results := by
  induction h with
  | nil => rfl
  | handle step _ ih =>
    rw [ih fun step hstep => hsteps step (List.mem_cons_of_mem _ hstep)]
  | inert first _ _ =>
    have hstep := hsteps _ List.mem_cons_self
    cases first <;> cases hstep

/-- An inert answer is never that a configuration was installed. -/
theorem Inner.Inert.installs_nothing {names : Names} {step : Inner} {answer : Answer}
    (h : step.Inert c names answer) (d : Config) : .configured d ∉ step.deeds answer := by
  cases h with
  | command held e =>
    cases e with
    | call nullable e => exact List.not_mem_nil
    | stats => exact List.not_mem_nil
    | configure e => exact List.not_mem_nil
    | configureSizes initial ceiling =>
      simp only [Command.inertAnswer, Inner.deeds]
      cases (Nullable.configOf initial ceiling).rejection <;> exact List.not_mem_nil
    | config => simp [Command.inertAnswer, Inner.deeds, Command.deeds]
  | withArena held reasons body => cases reasons <;> exact List.not_mem_nil
  | unheldCommand unheld e =>
    rw [Inner.deeds, Command.deeds_unbound]
    exact List.not_mem_nil
  | unheldClosure unheld reasons body => exact List.not_mem_nil

/-- Nobody configures the process from within a closure. -/
theorem Answered.installs_nothing {names : Names} {a : Arena} {s : Supply} {steps : List Inner}
    {answers results : List Answer} (h : Answered c names a s steps answers results) (d : Config) :
    .configured d ∉ Inner.deedsAll steps answers := by
  induction h with
  | nil => exact List.not_mem_nil
  | handle step _ ih =>
    rw [Inner.deedsAll, List.mem_append, not_or]
    exact ⟨List.not_mem_nil, ih⟩
  | inert first _ ih =>
    rw [Inner.deedsAll, List.mem_append, not_or]
    exact ⟨first.installs_nothing d, ih⟩

namespace Session

variable {p : Process} {a : Arena} {es : List Event}

/-- What a closure on the thread's arena comes to. -/
theorem withArena_of_lends (h : p.Lends thread a q es) (hc : q.config = some c) (names : Names)
    (reasons : Bool) (body : List Inner) :
    let after := stateAfter names a q.supply (body.filterMap Inner.handle?)
    let reports := (runSteps names a q.supply (body.filterMap Inner.handle?)).2
    ∃ answers, Answered c names a q.supply body answers (reports.map HandleReport.answer) ∧
      withArena p thread names reasons body =
        ⟨.all answers, (⟨some c, p.slots.set thread (.ready after.1.1), after.1.2⟩, after.2),
          es ++ reports.flatMap HandleReport.events⟩ := by
  intro after reports
  obtain ⟨answers, hanswered, hrun⟩ := Inner.runAll_of_inUse h.slot hc body names a
  refine ⟨answers, hanswered, ?_⟩
  rw [withArena_eq, Process.tryWithArena_of_lends h]
  simp only [Inner.closure, hrun, Outcome.andThen, closureAnswer, Process.setSlot, hc, h.slots,
    Table.set_set, List.append_nil]
  rfl

/-- **Calls from within a closure are inert.** In any state that steps of threads lead to, take a
closure on the arena of any thread, and the same closure with nothing in it but its steps on the
arena.
* They leave the same process with the same names, and log the same.
* If they get an arena, the steps on it have the same answers in both. All others come to nothing
  (`Inner.Inert`), and nobody configures the process. After it the thread has its arena, as the
  steps on it left it, whatever there was between them.
* If they do not get one they are answered the same, with the reason why there is none. -/
theorem reentrant_steps_inert (supply : Supply) (script : List (String × ThreadStep))
    (thread : String) (names : Names) (reasons : Bool) (body : List Inner) :
    let p := ((fresh supply).steps script).1.process
    let alone := body.filter fun step => step.handle?.isSome
    let o := withArena p thread names reasons body
    let o' := withArena p thread names reasons alone
    (o.state = o'.state ∧ o.events = o'.events) ∧
    (∀ a q es, p.Lends thread a q es →
      let onArena := body.filterMap Inner.handle?
      let after := stateAfter names a q.supply onArena
      let results := (runSteps names a q.supply onArena).2.map HandleReport.answer
      ∃ c answers, q.config = some c ∧ o.result = .all answers ∧ o'.result = .all results ∧
        Answered c names a q.supply body answers results ∧
        (∀ d, .configured d ∉ Inner.deedsAll body answers) ∧
        o.state.1.slot? thread = some (.ready after.1.1) ∧
        o.state = (⟨some c, p.slots.set thread (.ready after.1.1), after.1.2⟩, after.2)) ∧
    ((∀ a q es, ¬ p.Lends thread a q es) →
      ∃ e, (Arena.create (p.config.getD .default) p.supply).result = .error e ∧
        o.result = closureAnswer reasons (.error e) ∧ o'.result = o.result) := by
  intro p alone o o'
  have hconsistent : p.Consistent := consistent_steps (Process.consistent_fresh supply) script
  have halone : alone.filterMap Inner.handle? = body.filterMap Inner.handle? := by
    rw [List.filterMap_filter]
    refine List.filterMap_congr fun step _ => ?_
    cases step <;> rfl
  -- Both closures have the same steps on the arena, and `withArena_of_lends` looks at no others.
  have hlent : ∀ a q es, p.Lends thread a q es →
      let after := stateAfter names a q.supply (body.filterMap Inner.handle?)
      let reports := (runSteps names a q.supply (body.filterMap Inner.handle?)).2
      ∃ c answers, q.config = some c ∧
        Answered c names a q.supply body answers (reports.map HandleReport.answer) ∧
        o = ⟨.all answers, (⟨some c, p.slots.set thread (.ready after.1.1), after.1.2⟩, after.2),
          es ++ reports.flatMap HandleReport.events⟩ ∧
        o' = ⟨.all (reports.map HandleReport.answer), o.state, o.events⟩ := by
    intro a q es hlends after reports
    obtain ⟨c, hc⟩ := hlends.config_decided hconsistent
    obtain ⟨answers, hanswered, ho⟩ := withArena_of_lends hlends hc names reasons body
    obtain ⟨answers', hanswered', ho'⟩ := withArena_of_lends hlends hc names reasons alone
    rw [halone] at hanswered' ho'
    obtain rfl := hanswered'.of_handle fun step hstep => (List.mem_filter.1 hstep).2
    refine ⟨c, answers, hc, hanswered, ho, ?_⟩
    rw [show o = _ from ho]
    exact ho'
  rcases p.lends_or_denies thread with ⟨a, q, es, hlends⟩ | ⟨e, q, es, hdenies⟩
  · refine ⟨?same, ?lent, fun hnot => absurd hlends (hnot a q es)⟩
    case same =>
      obtain ⟨c, answers, -, -, -, ho'⟩ := hlent a q es hlends
      rw [ho']
      exact ⟨rfl, rfl⟩
    case lent =>
      intro a q es hlends onArena after results
      obtain ⟨c, answers, hc, hanswered, ho, ho'⟩ := hlent a q es hlends
      refine ⟨c, answers, hc, congrArg Outcome.result ho, congrArg Outcome.result ho', hanswered,
        hanswered.installs_nothing, ?_, congrArg Outcome.state ho⟩
      rw [ho]
      exact Table.find?_set_same _ _ _
  · have hdenied : ∀ steps, withArena p thread names reasons steps =
        ⟨closureAnswer reasons (.error e), (q, names), es⟩ := by
      intro steps
      have hasks : (ThreadAction.withArena reasons steps).asks := rfl
      exact (tells_act hasks thread none names).of_denies hdenies
    have ho' : o' = o := (hdenied alone).trans (hdenied body).symm
    have hresult : o.result = closureAnswer reasons (.error e) :=
      congrArg Outcome.result (hdenied body)
    cases hdenies with
    | inUse hused =>
      -- Between steps no arena is lent.
      obtain ⟨_, _, -, hready, -⟩ := hconsistent.arenas thread _ hused
      cases hready
    | refused hslot he =>
      refine ⟨?_, fun a q es hlends => ?_, fun _ => ⟨e, he, hresult, congrArg Outcome.result ho'⟩⟩
      · rw [ho']
        exact ⟨rfl, rfl⟩
      · cases hlends with
        | ready hready => cases hslot.symm.trans hready
        | created _ new =>
          rw [new] at he
          cases he

/-- Two threads and memory for one arena. What one calls in its closure comes to nothing, and the
other one gets no closure. -/
theorem reentrant_steps_inert_of_run :
    let call := fun c : Call => Command.call false c
    let script := [("a", .act none (.command (.configureSizes 64 0))),
      ("a", .act none (.command (call (.allocate 16 "p"))))]
    let body := [.command none (call (.allocate 8 "x")),
      .handle ⟨none, .call true (.allocate 24 "r")⟩, .command none (.configureSizes 64 0),
      .withArena none true [.command none (call .reset)], .handle ⟨some "r", .call false .free⟩]
    let p := ((fresh (.limited 100)).steps script).1.process
    (∃ a c answers results, p.slot? "a" = some (.ready a) ∧
      (withArena p "a" [] true body).result = .all answers ∧
      Answered c [] a p.supply body answers results ∧
      (withArena p "a" [] true body).state = (withArena p "a" [] true [body[1], body[4]]).state) ∧
    ∃ e, (withArena p "b" [] true body).result = .failure e := by
  intro call script body p
  obtain ⟨⟨hstate, -⟩, hlent, -⟩ := reentrant_steps_inert (.limited 100) script "a" [] true body
  obtain ⟨-, -, hrefused⟩ := reentrant_steps_inert (.limited 100) script "b" [] true body
  have hconsistent : p.Consistent := consistent_steps (Process.consistent_fresh _) script
  have hslot : (p.slot? "a").isSome := by decide +kernel
  have hother : (p.slot? "b").isNone := by decide +kernel
  have hnone : (Arena.create (p.config.getD .default) p.supply).result.toOption.isNone := by
    decide +kernel
  obtain ⟨slot, ha⟩ := Option.isSome_iff_exists.1 hslot
  obtain ⟨_, a, -, rfl, -⟩ := hconsistent.arenas "a" slot ha
  obtain ⟨c, answers, -, hresult, -, hanswered, -⟩ := hlent a _ _ (.ready ha)
  obtain ⟨e, -, he, -⟩ := hrefused fun b q es hlends => by
    cases hlends with
    | ready slot =>
      rw [slot] at hother
      cases hother
    | created _ new =>
      rw [new] at hnone
      cases hnone
  exact ⟨⟨a, c, answers, _, ha, hresult, hanswered, hstate⟩, e, he⟩

end Session

end Script

end ArenaAlloc

import ArenaAlloc.Proofs.Configuration
import ArenaAlloc.Proofs.Lending

/-!
# When a thread has an arena

A thread has no arena when it starts, and gets one by the first step that asks for it and is granted
it (`Session.Creates`). So whether it has one can be told from its steps since it started
(`Session.isSome_slot?_steps_iff`). Until then the process knows nothing of the thread, and each
attempt is like the first one, on the same configuration (`Session.arena_created_on_demand`).

## Before there is an arena

`Bare` is the invariant behind it: a thread without an arena holds no pointers. With no pointers and
no arena, a step either asks for an arena (`ThreadStep.asks`), or comes to nothing but perhaps the
configuration (`step_of_not_asks`). A step that names a pointer asks for none, since there is none
to name.

A refusal leaves a trace only in the configuration, which is settled by it. That a second attempt is
like a first one (`step_after_refusal`) is therefore about two processes that differ in having
settled the default or not yet, and a thread that asks for an arena would settle it at once.

## Histories

That a thread has an arena is a fact about a state, and that one was created for it is a fact about
a script. `isSome_slot?_steps_iff` connects them for any script: going backwards from the state, the
thread has had an arena since the last step at which there was none and one was created. Threads end
and their names are used again, so "since" matters.
-/

namespace ArenaAlloc

/-- A thread without an arena asks for the configuration when it asks for an arena. That it is
decided already makes no difference. -/
theorem Process.tryWithArena_settled {α : Type} {p : Process} {thread : String}
    (slot : p.slot? thread = none) (body : Arena → Process → Outcome (Arena × Process) α) :
    { p with config := some (p.config.getD .default) }.tryWithArena thread body =
      p.tryWithArena thread body := by
  have hslot : { p with config := some (p.config.getD .default) }.slot? thread = none := slot
  simp only [tryWithArena, slot, hslot, settledConfig_eq]
  rfl

/-- Without an arena there is nothing to look at. -/
theorem Process.withExisting_of_none {α : Type} {p : Process} {thread : String}
    (slot : p.slot? thread = none) (body : Arena → Outcome Arena α) :
    p.withExisting thread body = ⟨none, p, []⟩ := by
  simp only [withExisting, slot]

/-- Configuring changes the configuration at most, and logs nothing. -/
theorem Process.configure_eq (p : Process) (c : Config) :
    ∃ result c', p.configure c = ⟨result, { p with config := c' }, []⟩ := by
  unfold configure
  split
  · exact ⟨_, p.config, rfl⟩
  · split
    · exact ⟨_, p.config, rfl⟩
    · exact ⟨_, some c, rfl⟩

namespace Script

variable {p : Process} {thread : String} {names : Names}

/-! ## Steps of a thread that has no arena

The steps that do not ask for an arena, one by one: each finds nothing to do. -/

/-- A call that does not ask for an arena finds nothing to do without one. -/
theorem Call.run_of_none (slot : p.slot? thread = none) {c : Call} (hc : c.asks = false)
    (q : Option Address) :
    ∃ answer, c.run (.ofThread thread) q [] p = ⟨answer, (p, []), []⟩ := by
  cases c with
  | allocate size into => cases hc
  | zeroAllocate count size into =>
    have hmul : checkedMul count size = none :=
      Option.not_isSome_iff_eq_none.1 (by simp [← hc, asks])
    refine ⟨.nothing, ?_⟩
    simp only [Call.run, FrontEnd.ofThread, Process.zeroAllocate, hmul]
    rfl
  | reallocate size into => cases hc
  | free =>
    refine ⟨.done, ?_⟩
    cases q with
    | none => rfl
    | some q =>
      simp only [Call.run, FrontEnd.ofThread, Process.free, Process.withExisting_of_none slot]
      rfl
  | reset =>
    refine ⟨.done, ?_⟩
    simp only [Call.run, FrontEnd.ofThread, Process.reset, Process.withExisting_of_none slot]
    rfl

namespace Session

/-- An action that does not ask for an arena decides the configuration at most. -/
theorem act_of_none (slot : p.slot? thread = none) {action : ThreadAction}
    (haction : action.asks = false) (q : Option Address) :
    ∃ answer c, act p thread q [] action = ⟨answer, ({ p with config := c }, []), []⟩ := by
  cases action with
  | command c =>
    cases c with
    | call nullable c =>
      obtain ⟨answer, hrun⟩ := c.run_of_none slot haction q
      refine ⟨answer, p.config, ?_⟩
      rw [act, Command.run_call, hrun]
    | stats =>
      refine ⟨.nothing, p.config, ?_⟩
      simp only [act, Command.run, Process.stats, slot]
    | configure c =>
      obtain ⟨result, c', hrun⟩ := p.configure_eq c
      simp only [act, Command.run, hrun]
      exact ⟨_, c', rfl⟩
    | configureSizes initial ceiling =>
      obtain ⟨result, c', hrun⟩ := p.configure_eq (Nullable.configOf initial ceiling)
      simp only [act, Command.run, Nullable.configure, hrun]
      exact ⟨_, c', rfl⟩
    | config =>
      refine ⟨.config (p.config.getD .default), some (p.config.getD .default), ?_⟩
      simp only [act, Command.run, Process.settledConfig_eq]
      rfl
  | access x =>
    refine ⟨.unbound, p.config, ?_⟩
    simp only [act, access, Process.withExisting_of_none slot]
    rfl
  | withArena reasons body => cases haction

end Session

/-- The configuration that a thread without an arena asks for could as well be decided before. -/
theorem Tells.settled {denial : AllocError → Answer}
    {run : Process → Outcome (Process × Names) Answer} (h : Tells thread names denial run)
    (slot : p.slot? thread = none) :
    run { p with config := some (p.config.getD .default) } = run p := by
  obtain ⟨α, body, tell, hrun, -⟩ := h
  rw [hrun, hrun, Process.tryWithArena_settled slot]

/-- Whether a step asks for an arena. One that names a pointer is not made unless that is held. -/
def ThreadStep.asks (names : Names) : ThreadStep → Bool
  | .act none action => action.asks
  | .act (some name) action => (names.find? name).isSome && action.asks
  | .exit => false

/-- A step of a thread without pointers that asks for an arena names none. -/
theorem ThreadStep.exists_of_asks {t : ThreadStep} (h : t.asks []) :
    ∃ action : ThreadAction, t = .act none action ∧ action.asks := by
  cases t with
  | act name action =>
    cases name with
    | none => exact ⟨action, rfl, h⟩
    | some name => cases h
  | exit => cases h

namespace Session

variable {s : Session} {t : ThreadStep} {a : Arena} {e : AllocError} {p' : Process}
  {es : List Event}

/-! ## Creation

Asking is decided by the step, granting by the supply and the configuration. `Creates` is both, and
in a state without an arena it is exactly when there is one after the step. -/

/-- The step asks for an arena for a thread that has none, and is granted it. -/
structure Creates (s : Session) (thread : String) (t : ThreadStep) : Prop where
  absent : s.process.slot? thread = none
  asks : t.asks (s.held thread)
  granted : ∃ a, (Arena.create (s.process.config.getD .default) s.process.supply).result = .ok a

/-- Somewhere in the script an arena is created for the thread, and it does not end after that. -/
def CreatedIn (s : Session) (thread : String) (script : List (String × ThreadStep)) : Prop :=
  ∃ before t after, script = before ++ (thread, t) :: after ∧ (thread, .exit) ∉ after ∧
    (s.steps before).1.Creates thread t

/-- A thread without an arena holds no pointers. -/
def Bare (s : Session) : Prop := ∀ thread, s.process.slot? thread = none → s.held thread = []

/-- A step that is denied an arena leaves the thread without pointers. -/
theorem step_of_denies (hheld : s.held thread = []) (h : s.process.Denies thread e p' es)
    {action : ThreadAction} (haction : action.asks) :
    s.step thread (.act none action) =
      ({ process := p', threads := s.threads.set thread [] },
        .ran (action.denial e) (p'.stats thread) es) := by
  have hrun := (tells_act haction thread none []).of_denies h
  simp only [step, Names.withPointer]
  rw [show (s.threads.find? thread).getD [] = [] from hheld, hrun]

/-- A step that does not ask for an arena leaves the thread as it was, and takes no memory. -/
theorem step_of_not_asks (slot : s.process.slot? thread = none) (hheld : s.held thread = [])
    (ht : t.asks [] = false) :
    (s.step thread t).1.process.slot? thread = none ∧
      (s.step thread t).1.process.supply = s.process.supply ∧
      (s.step thread t).1.held thread = [] := by
  cases t with
  | exit =>
    refine ⟨s.slot?_step_exit thread, ?_, s.held_step_exit thread⟩
    change (s.process.exit thread).state.supply = _
    simp only [Process.exit, slot]
  | act name action =>
    obtain ⟨-, hprocess, hafter⟩ := s.step_act thread name action
    rw [hprocess, hafter, hheld]
    cases name with
    | none =>
      obtain ⟨answer, c, hact⟩ := act_of_none slot ht none
      simp only [Names.withPointer, hact]
      exact ⟨slot, trivial, trivial⟩
    | some name => exact ⟨slot, rfl, rfl⟩

/-- **One step of a thread that has no arena** creates one, or leaves the thread with nothing. -/
theorem step_of_absent (slot : s.process.slot? thread = none) (hheld : s.held thread = [])
    (t : ThreadStep) :
    s.Creates thread t ∧ ((s.step thread t).1.process.slot? thread).isSome ∨
      ¬ s.Creates thread t ∧ (s.step thread t).1.process.slot? thread = none ∧
        (s.step thread t).1.held thread = [] := by
  cases hasks : t.asks [] with
  | false =>
    obtain ⟨hslot, -, hnone⟩ := step_of_not_asks slot hheld hasks
    refine .inr ⟨fun h => ?_, hslot, hnone⟩
    have := h.asks
    rw [hheld, hasks] at this
    cases this
  | true =>
    obtain ⟨action, rfl, haction⟩ := ThreadStep.exists_of_asks hasks
    -- It asks, so it is lent one, created just now, or denied.
    rcases s.process.lends_or_denies thread with ⟨a, q, es, hlends⟩ | ⟨e, q, es, hdenies⟩
    · obtain ⟨-, hprocess, -⟩ := s.step_act thread none action
      obtain ⟨a', ha'⟩ := (tells_act haction thread none (s.held thread)).of_lends hlends
      refine .inl ⟨⟨slot, ?_, ?_⟩, ?_⟩
      · rw [hheld]
        exact hasks
      · cases hlends with
        | ready hready => cases slot.symm.trans hready
        | created _ new => exact ⟨a, congrArg Outcome.result new⟩
      · rw [hprocess]
        exact Option.isSome_iff_exists.2 ⟨_, ha'⟩
    · rw [step_of_denies hheld hdenies haction]
      cases hdenies with
      | inUse hused => cases slot.symm.trans hused
      | refused _ refusal =>
        refine .inr ⟨fun h => ?_, slot, congrArg (Option.getD · []) (Table.find?_set_same _ _ _)⟩
        obtain ⟨a, ha⟩ := h.granted
        cases refusal.symm.trans ha

/-- A thread without an arena holds no pointers, whatever steps are made. -/
theorem Bare.step (h : s.Bare) (other : String) (t : ThreadStep) : (s.step other t).1.Bare := by
  intro thread hslot
  by_cases hother : thread = other
  · subst hother
    cases t with
    | exit => exact s.held_step_exit thread
    | act name action =>
      cases hbefore : s.process.slot? thread with
      | none =>
        rcases step_of_absent hbefore (h thread hbefore) (.act name action) with
          ⟨-, hsome⟩ | ⟨-, -, hheld⟩
        · rw [hslot] at hsome
          cases hsome
        · exact hheld
      | some slot =>
        -- No call takes an arena away.
        have hsome := (s.effect_step thread name action).isSome_slot?
          (Option.isSome_iff_exists.2 ⟨slot, hbefore⟩)
        rw [hslot] at hsome
        cases hsome
  · rw [slot?_step_other s t hother] at hslot
    rw [held_step_other s t hother]
    exact h thread hslot

theorem Bare.steps (h : s.Bare) (script : List (String × ThreadStep)) :
    (s.steps script).1.Bare := by
  induction script generalizing s with
  | nil => exact h
  | cons first rest ih => exact ih (h.step first.1 first.2)

/-! ## Histories

By the first step of the script: it is the one that creates, or the rest of the script has it. -/

/-- An arena is created by the first step, or later. -/
theorem createdIn_cons_iff {other : String} {rest : List (String × ThreadStep)} :
    s.CreatedIn thread ((other, t) :: rest) ↔
      (other = thread ∧ (thread, .exit) ∉ rest ∧ s.Creates thread t) ∨
        (s.step other t).1.CreatedIn thread rest := by
  constructor
  · rintro ⟨before, t', after, hsplit, hafter, hcreates⟩
    cases before with
    | nil =>
      cases hsplit
      exact .inl ⟨rfl, hafter, hcreates⟩
    | cons first before =>
      cases hsplit
      exact .inr ⟨before, t', after, rfl, hafter, hcreates⟩
  · rintro (⟨rfl, hrest, hcreates⟩ | ⟨before, t', after, rfl, hafter, hcreates⟩)
    · exact ⟨[], t, rest, rfl, hrest, hcreates⟩
    · exact ⟨(other, t) :: before, t', after, rfl, hafter, hcreates⟩

/-- One step: the arena stays, unless the thread ends, or it is created. -/
theorem isSome_slot?_step_iff (h : s.Bare) (thread : String) (t : ThreadStep) :
    ((s.step thread t).1.process.slot? thread).isSome ↔
      (s.process.slot? thread).isSome ∧ t ≠ .exit ∨ s.Creates thread t := by
  cases hslot : s.process.slot? thread with
  | none =>
    rcases step_of_absent hslot (h thread hslot) t with ⟨hcreates, hsome⟩ | ⟨hnot, hnone, -⟩
    · simp [hcreates, hsome]
    · simp [hnot, hnone]
  | some slot =>
    have hnot : ¬ s.Creates thread t := fun hcreates => by cases hslot.symm.trans hcreates.absent
    cases t with
    | exit => simp [s.slot?_step_exit thread, hnot]
    | act name action =>
      have hsome := (s.effect_step thread name action).isSome_slot?
        (Option.isSome_iff_exists.2 ⟨slot, hslot⟩)
      simp [hsome]

/-- **Whether a thread has an arena can be told from its history**: it had one at first, or one was
created for it, and it has not ended since. -/
theorem isSome_slot?_steps_iff (h : s.Bare) (thread : String)
    (script : List (String × ThreadStep)) :
    ((s.steps script).1.process.slot? thread).isSome ↔
      (s.process.slot? thread).isSome ∧ (thread, .exit) ∉ script ∨ s.CreatedIn thread script := by
  induction script generalizing s with
  | nil => simp [steps, CreatedIn]
  | cons first rest ih =>
    obtain ⟨other, t⟩ := first
    have hrest := ih (h.step other t)
    rw [createdIn_cons_iff, List.mem_cons, Prod.mk.injEq]
    change ((((s.step other t).1.steps rest).1.process.slot? thread).isSome ↔ _)
    rw [hrest]
    -- What is left is about whether `exit` is the first step or one of the rest.
    by_cases hother : thread = other
    · subst hother
      rw [isSome_slot?_step_iff h]
      grind
    · rw [slot?_step_other s t hother]
      grind

/-- A thread that has no arena is like one that has yet to start. -/
theorem step_as_first (hheld : s.held thread = []) (t : ThreadStep) :
    let first := { s with threads := s.threads.erase thread }.step thread t
    (s.step thread t).2 = first.2 ∧ (s.step thread t).1.process = first.1.process := by
  cases t with
  | exit => exact ⟨rfl, rfl⟩
  | act name action =>
    have hfirst : { s with threads := s.threads.erase thread }.held thread = [] :=
      congrArg (Option.getD · []) (Table.find?_erase_same _ _)
    obtain ⟨hreport, hprocess, -⟩ := s.step_act thread name action
    obtain ⟨hreport', hprocess', -⟩ :=
      { s with threads := s.threads.erase thread }.step_act thread name action
    rw [hfirst] at hreport' hprocess'
    rw [hheld] at hreport hprocess
    exact ⟨hreport.trans hreport'.symm, hprocess.trans hprocess'.symm⟩

/-- After a refusal a step that asks again comes to what it would have come to without the refusal,
whatever the supply has by then. -/
theorem step_after_refusal (slot : s.process.slot? thread = none) (hheld : s.held thread = [])
    (supply : Supply) (ht : t.asks []) :
    ({ process := { s.process with config := some (s.process.config.getD .default), supply },
        threads := s.threads.set thread [] } : Session).step thread t =
      { s with process := { s.process with supply } }.step thread t := by
  obtain ⟨action, rfl, haction⟩ := ThreadStep.exists_of_asks ht
  -- The two processes differ in the configuration being settled, which the step would do first.
  have hrun := (tells_act haction thread none []).settled (p := { s.process with supply }) slot
  have hagain : ((s.threads.set thread []).find? thread).getD [] = [] :=
    congrArg (Option.getD · []) (Table.find?_set_same _ _ _)
  have hfirst : (s.threads.find? thread).getD [] = [] := hheld
  simp only [step, Names.withPointer, hagain, hfirst, Table.set_set]
  rw [hrun]

/-- **A thread gets its arena on demand.** In any state that steps of threads lead to:
* A thread has an arena exactly if one was created for it, by a step that asked for one and was
  granted it, and the thread has not ended since.
* As long as it has none, each of its steps is as if it were its first one. A step that does not ask
  for an arena does not create one.
* Where one is refused, the step has no value, or the reason why there is none, and runs no closure.
  It leaves the thread with nothing, and the process with the configuration that it would have used.
  That stays the configuration, and when the thread asks again it is as if it had not asked before.
* Where there is one, it stays the arena of the thread as long as the thread does not end, and no
  other one is created for it.
* When the thread ends, there is no arena for one that starts under the same name. -/
theorem arena_created_on_demand (supply : Supply) (script later : List (String × ThreadStep))
    (thread : String) :
    let s := ((fresh supply).steps script).1
    let p := s.process
    let config := p.config.getD .default
    let ended := (s.step thread .exit).1
    ((p.slot? thread).isSome ↔ (fresh supply).CreatedIn thread script) ∧
    (p.slot? thread = none → ∀ t,
      let o := s.step thread t
      let first := { s with threads := s.threads.erase thread }.step thread t
      (o.2 = first.2 ∧ o.1.process = first.1.process) ∧
        (t.asks (s.held thread) = false →
          o.1.process.slot? thread = none ∧ o.1.process.supply = p.supply)) ∧
    (p.slot? thread = none → ∀ e, (Arena.create config p.supply).result = .error e →
      ∀ name action, (ThreadStep.act name action).asks (s.held thread) →
      let refused : Session :=
        { process := { p with config := some config }, threads := s.threads.set thread [] }
      s.step thread (.act name action) =
          (refused, .ran (action.denial e) none [.creationFailed e]) ∧
        (refused.steps later).1.process.config = some config ∧
        ∀ (available : Supply) t, t.asks [] →
          { refused with process := { refused.process with supply := available } }.step thread t =
            { s with process := { p with supply := available } }.step thread t) ∧
    (∀ a, p.slot? thread = some (.ready a) → (thread, .exit) ∉ later →
      (∃ a', (s.steps later).1.process.slot? thread = some (.ready a') ∧ a.Becomes a') ∧
        ¬ s.CreatedIn thread later) ∧
    (ended.process.slot? thread = none ∧ ended.held thread = []) := by
  intro s p config ended
  have hfresh : (fresh supply).Bare := fun _ _ => rfl
  have hbare : s.Bare := hfresh.steps script
  refine ⟨?history, ?absent, ?refused, ?kept, s.slot?_step_exit thread, s.held_step_exit thread⟩
  case history =>
    have hiff := isSome_slot?_steps_iff hfresh thread script
    exact hiff.trans (or_iff_right fun h => by cases h.1)
  case absent =>
    intro slot t o first
    have hheld := hbare thread slot
    refine ⟨step_as_first hheld t, fun ht => ?_⟩
    obtain ⟨hslot, hsupply, -⟩ := step_of_not_asks slot hheld (hheld ▸ ht)
    exact ⟨hslot, hsupply⟩
  case refused =>
    intro slot e he name action hasks refused
    have hheld := hbare thread slot
    rw [hheld] at hasks
    obtain ⟨_, heq, haction⟩ := ThreadStep.exists_of_asks hasks
    cases heq
    refine ⟨?_, ((refused.decides_steps later).of_eq_some rfl).1, fun available t ht =>
      step_after_refusal slot hheld available ht⟩
    have hstats : refused.process.stats thread = none := by
      simp only [Process.stats, show refused.process.slot? thread = none from slot]
    exact hstats ▸ step_of_denies hheld (.refused slot he) haction
  case kept =>
    intro a slot hlater
    refine ⟨becomes_steps slot hlater, ?_⟩
    -- Before another one could be created the first one is still there.
    rintro ⟨before, t, after, rfl, -, hcreates⟩
    obtain ⟨a', ha', -⟩ := becomes_steps slot fun hmem => hlater (List.mem_append_left _ hmem)
    cases ha'.symm.trans hcreates.absent

/-- Two threads and memory for one arena: one thread has it, the other one is refused, and gets one
when the first one has ended. -/
theorem arena_created_on_demand_of_run :
    let call := fun c : Call => ThreadStep.act none (.command (.call true c))
    let script := [("a", .act none (.command (.configureSizes 64 0))), ("b", call .reset),
      ("a", call (.zeroAllocate (wordLimit / 2) 4 "p")), ("a", call (.allocate 16 "p")),
      ("b", call (.allocate 16 "p"))]
    let later := [("a", call .reset)]
    let s := ((fresh (.limited 100)).steps script).1
    let more := script ++ [("a", .exit), ("b", call (.allocate 16 "p"))]
    let after := ((fresh (.limited 100)).steps more).1
    (fresh (.limited 100)).CreatedIn "a" script ∧
      (∃ a a', s.process.slot? "a" = some (.ready a) ∧
        (s.steps later).1.process.slot? "a" = some (.ready a') ∧ a.Becomes a') ∧
      (∃ e, (s.step "b" (.act none (.withArena true []))).2 =
        .ran (.failure e) none [.creationFailed e]) ∧
      (after.process.slot? "b").isSome ∧
      (fresh (.limited 100)).CreatedIn "b" more := by
  intro call script later s more after
  obtain ⟨hcreated, -, -, hkept, -⟩ := arena_created_on_demand (.limited 100) script later "a"
  obtain ⟨-, -, hrefused, -⟩ := arena_created_on_demand (.limited 100) script later "b"
  obtain ⟨hagain, -⟩ := arena_created_on_demand (.limited 100) more [] "b"
  have ha : (s.process.slot? "a").isSome := by decide +kernel
  have hb : (s.process.slot? "b").isNone := by decide +kernel
  let new := Arena.create (s.process.config.getD .default) s.process.supply
  have hnone : new.result.toOption.isNone := by decide +kernel
  have hafter : (after.process.slot? "b").isSome := by decide +kernel
  have hconsistent : s.process.Consistent := consistent_steps (Process.consistent_fresh _) script
  obtain ⟨slot, hslot⟩ := Option.isSome_iff_exists.1 ha
  obtain ⟨_, a, -, rfl, -⟩ := hconsistent.arenas "a" slot hslot
  obtain ⟨⟨a', ha', hbecomes⟩, -⟩ := hkept a hslot (by simp [later, call])
  rcases Arena.create_cases (s.process.config.getD .default) s.process.supply with
    ⟨e, hnew⟩ | ⟨_, _, hnew⟩
  · obtain ⟨hstep, -⟩ := hrefused (Option.isNone_iff_eq_none.1 hb) e (congrArg Outcome.result hnew)
      none (.withArena true []) rfl
    exact ⟨hcreated.1 ha, ⟨a, a', hslot, ha', hbecomes⟩, ⟨e, congrArg Prod.snd hstep⟩, hafter,
      hagain.1 hafter⟩
  · rw [show new = _ from hnew] at hnone
    cases hnone

end Session

end Script

end ArenaAlloc

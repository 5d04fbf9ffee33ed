import ArenaAlloc.Proofs.Accounting
import ArenaAlloc.Proofs.Shortage

/-!
# Threads do not notice each other

Threads share a supply and a configuration. As long as memory is not short and nobody configures the
process, neither tells a thread anything of the others: its steps go as they would alone, in a
process with the same configuration and memory without a limit (`Session.trace_alone`). So it does
not matter how the steps of several threads are interleaved. When memory is short, a thread may be
refused what it asks for; but its slot is never touched by a step on another thread.

## One interleaving against another

Two interleavings of the same steps are not compared with each other. Each is compared with the same
third run, that of one thread alone (`trace_alone`), and this is done for every thread. The third
run is in another session, one in which the other threads make no steps and memory has no limit.
That is what `Mirrors` relates: the thread has the same slot and the same names in both, and would
find the same configuration.

The supplies differ on purpose. In an interleaving a thread competes for memory, alone it does not,
and how much is left at its steps depends on the others. `Ample` is the condition that this never
showed. It is a condition on the logs, so it can be checked of a run and does not name the other
threads.

## Configuring

Installing a configuration is the one thing that a thread does to all others. Steps that try to are
excluded by their syntax (`ThreadStep.configures`), closures included. Settling the default is not
excluded, and does not show: a process without a configuration behaves as one with the default.
-/

namespace ArenaAlloc

open Outcome (Agrees Along)
open Process (Deed attempts)

/-! ## Two processes, seen from a thread

The lemmas follow the definitions of `Process` from the inside out: lending, with creation where
there is no arena, and the operations on top of it. -/

namespace Process

/-- A thread has the same slot in both processes and finds the same configuration there, and the
second has memory without a limit, with the same bytes in it. -/
structure Mirrors (thread : String) (p p' : Process) : Prop where
  slot : p'.slot? thread = p.slot? thread
  config : p'.config.getD .default = p.config.getD .default
  supply : p.supply.Unbounded p'.supply

variable {α : Type} {thread : String} {p p' : Process}

/-- What two closures on a thread's arena have in common, in processes that look the same to it. -/
abbrev Mirrored (thread : String) (x y : Arena × Process) : Prop := Along (Mirrors thread) x y

namespace Mirrors

/-- Setting the thread's own slot is seen by itself only. -/
theorem setSlot (h : Mirrors thread p p') (slot : Slot) :
    Mirrors thread (p.setSlot thread slot) (p'.setSlot thread slot) :=
  ⟨by rw [slot?_setSlot, slot?_setSlot], h.config, h.supply⟩

theorem stats_eq (h : Mirrors thread p p') : p'.stats thread = p.stats thread := by
  rw [stats, stats, h.slot]

/-- Settled or not, it is the same configuration. -/
theorem agrees_settledConfig (h : Mirrors thread p p') :
    Agrees (Mirrors thread) p.settledConfig p'.settledConfig := by
  rw [settledConfig_eq, settledConfig_eq, h.config]
  exact .pure ⟨h.slot, rfl, h.supply⟩

section

variable {body : Arena → Process → Outcome (Arena × Process) α}
  (hbody : ∀ a q q', Mirrors thread q q' → Agrees (Mirrored thread) (body a q) (body a q'))

include hbody

theorem agrees_lend (h : Mirrors thread p p') (a : Arena) :
    Agrees (Mirrors thread) (p.lend thread a body) (p'.lend thread a body) := by
  refine (hbody a _ _ (h.setSlot .inUse)).mapState ?_
  rintro ⟨a, q⟩ ⟨_, q'⟩ ⟨rfl, hq⟩
  exact hq.setSlot _

/-- A closure on the thread's arena comes to the same, if it does so on the same arena. -/
theorem agrees_tryWithArena (h : Mirrors thread p p') :
    Agrees (Mirrors thread) (p.tryWithArena thread body) (p'.tryWithArena thread body) := by
  unfold tryWithArena
  rw [h.slot]
  rcases p.slot? thread with _ | a | _
  · refine h.agrees_settledConfig.andThen fun config q q' hq => ?_
    -- Creating the arena is where the two supplies could part.
    rcases Arena.create_unbounded (s := q.supply) config hq.supply with
      ⟨r, es, t, t', hnew, hnew', hpair⟩ | ⟨n, hshort, hgrants⟩
    · rw [hnew, hnew']
      refine Agrees.andThen (R := Supply.Unbounded) (.pure hpair) ?_
      rintro (e | a) u u' hu
      · exact .pure ⟨hq.slot, hq.config, hu⟩
      · have hsupplied : Mirrors thread { q with supply := u } { q' with supply := u' } :=
          ⟨hq.slot, hq.config, hu⟩
        exact (agrees_lend hbody hsupplied a).map _
    · rw [hshort]
      exact .of_shortage List.mem_cons_self hgrants
  · exact (agrees_lend hbody h a).map _
  · exact .pure h

end

theorem agrees_withExisting (h : Mirrors thread p p') (body : Arena → Outcome Arena α) :
    Agrees (Mirrors thread) (p.withExisting thread body) (p'.withExisting thread body) := by
  unfold withExisting
  rw [h.slot]
  rcases p.slot? thread with _ | a | _
  · exact .pure h
  · refine (h.agrees_lend (fun a q q' hq => ?_) a).map _
    exact .pure ⟨rfl, hq⟩
  · exact .pure h

theorem agrees_onArena {f : Arena → Supply → Outcome (Arena × Supply) α}
    (hf : ∀ a s s', s.Unbounded s' → Agrees (Along Supply.Unbounded) (f a s) (f a s'))
    (h : Mirrors thread p p') :
    Agrees (Mirrors thread) (p.withArena thread (onArena f)) (p'.withArena thread (onArena f)) := by
  refine (agrees_tryWithArena (fun a q q' hq => ?_) h).map _
  refine (hf a q.supply q'.supply hq.supply).mapState ?_
  rintro ⟨a, s⟩ ⟨_, s'⟩ ⟨rfl, hpair⟩
  exact ⟨rfl, hq.slot, hq.config, hpair⟩

end Mirrors

end Process

namespace Script

open Process (Mirrors)

variable {thread : String} {p p' : Process}

/-- Every call of the thread comes to the same. -/
theorem agrees_ofThread (h : Mirrors thread p p') :
    (FrontEnd.ofThread thread).Agrees (Mirrors thread) p p' where
  allocate size :=
    ((h.agrees_onArena fun a _ _ hpair => (a.agrees_allocate hpair size).map _).map _).map _
  zeroAllocate count size := by
    refine Agrees.map ?_ _
    unfold Process.zeroAllocate
    split
    · exact .pure h
    · exact (h.agrees_onArena fun a _ _ hpair =>
        (a.agrees_zeroAllocate hpair count size).map _).map _
  reallocate q size :=
    ((h.agrees_onArena fun a _ _ hpair => (a.agrees_reallocate hpair q size).map _).map _).map _
  free q := by
    cases q with
    | none => exact .pure h
    | some q => exact (h.agrees_withExisting _).map _
  reset := (h.agrees_withExisting _).map _

/-! ## Steps that leave the configuration to others

Whether a step tries to configure the process is a matter of its syntax. Whether it succeeds would
depend on the state, and on the other threads. -/

def Command.configures : Command → Bool
  | .configure _ | .configureSizes _ _ => true
  | .call _ _ | .stats | .config => false

mutual

def Inner.configures : Inner → Bool
  | .handle _ => false
  | .command _ c => c.configures
  | .withArena _ _ body => Inner.anyConfigures body

def Inner.anyConfigures : List Inner → Bool
  | [] => false
  | step :: rest => step.configures || Inner.anyConfigures rest

end

/-- Whether some part of a step, in a closure or not, tries to configure the process. -/
def ThreadStep.configures : ThreadStep → Bool
  | .act _ (.command c) => c.configures
  | .act _ (.withArena _ body) => Inner.anyConfigures body
  | .act _ (.access _) | .exit => false

theorem Command.configured_not_mem {c : Command} (h : c.configures = false) (answer : Answer)
    (d : Config) : Deed.configured d ∉ c.deeds answer := by
  cases c with
  | call nullable c => exact List.not_mem_nil
  | stats => exact List.not_mem_nil
  | configure c => cases h
  | configureSizes initial ceiling => cases h
  | config =>
    unfold Command.deeds
    split
    · cases ‹Command.config = _›
    · cases ‹Command.config = _›
    · exact List.not_mem_cons_of_ne_of_not_mem Deed.noConfusion List.not_mem_nil
    · exact List.not_mem_nil

mutual

theorem Inner.configured_not_mem (d : Config) : ∀ (step : Inner) (answer : Answer),
    step.configures = false → Deed.configured d ∉ step.deeds answer
  | .handle _, _, _ => List.not_mem_nil
  | .command _ c, answer, h => by
    rw [Inner.configures] at h
    rw [Inner.deeds]
    exact c.configured_not_mem h answer d
  | .withArena _ _ body, answer, h => by
    rw [Inner.configures] at h
    cases answer with
    | all answers => exact Inner.configured_not_mem_all d body answers h
    | _ => exact List.not_mem_nil

theorem Inner.configured_not_mem_all (d : Config) : ∀ (steps : List Inner) (answers : List Answer),
    Inner.anyConfigures steps = false → Deed.configured d ∉ Inner.deedsAll steps answers
  | [], _, _ => List.not_mem_nil
  | _ :: _, [], _ => List.not_mem_nil
  | step :: rest, answer :: answers, h => by
    obtain ⟨hfirst, hrest⟩ := Bool.or_eq_false_iff.1 h
    rw [Inner.deedsAll]
    exact fun hmem => (List.mem_append.1 hmem).elim (Inner.configured_not_mem d step answer hfirst)
      (Inner.configured_not_mem_all d rest answers hrest)

end

/-- **A step that does not try to configure the process does not decide it but for the default.** -/
theorem ThreadStep.configured_not_mem {t : ThreadStep} (h : t.configures = false)
    (report : Session.Report) (d : Config) : Deed.configured d ∉ t.deeds report := by
  have hattempts : ∀ events, Deed.configured d ∉ attempts events := by
    intro events hmem
    obtain ⟨event, -, hdeed⟩ := List.mem_filterMap.1 hmem
    cases event <;> cases hdeed
  cases t with
  | exit => exact List.not_mem_nil
  | act name action =>
    cases report with
    | ended released events => exact List.not_mem_nil
    | ran answer stats events =>
      intro hmem
      refine (List.mem_append.1 hmem).elim (hattempts events) ?_
      cases action with
      | command c => exact c.configured_not_mem h answer d
      | access x => exact List.not_mem_nil
      | withArena reasons body =>
        cases answer with
        | all answers => exact Inner.configured_not_mem_all d body answers h
        | _ => exact List.not_mem_nil

/-! ## The steps of a thread, in two processes

The recursion is over steps and lists of steps together, as in the definition of closures. -/

theorem Command.agrees_run {c : Command} (hc : c.configures = false) (h : Mirrors thread p p')
    (q : Option Address) (names : Names) :
    Agrees (Naming (Mirrors thread)) (c.run thread q names p) (c.run thread q names p') := by
  cases c with
  | call nullable d =>
    rw [Command.run_call, Command.run_call]
    exact d.agrees_run (agrees_ofThread h) q names
  | stats =>
    simp only [Command.run, h.stats_eq]
    split
    · exact .pure ⟨h, rfl⟩
    · exact .pure ⟨h, rfl⟩
  | configure c => cases hc
  | configureSizes initial ceiling => cases hc
  | config => exact (h.agrees_settledConfig.map _).mapState fun x y hxy => ⟨hxy, rfl⟩

/-- What a step within a closure leaves: the arena that was lent, and the process beside it. -/
abbrev Inside (thread : String) (x y : (Arena × Process) × Names) : Prop :=
  Naming (Process.Mirrored thread) x y

mutual

theorem Inner.agrees_run : ∀ (step : Inner), step.configures = false →
    ∀ {p p' : Process}, Mirrors thread p p' → ∀ (names : Names) (a : Arena),
      Agrees (Inside thread) (step.run thread names a p) (step.run thread names a p')
  | .handle step, _, p, p', h, names, a => by
    rw [Inner.run, Inner.run]
    refine (step.agrees_run a names h.supply).mapState ?_
    rintro ⟨⟨a, s⟩, names⟩ ⟨⟨_, s'⟩, _⟩ ⟨⟨rfl, hpair⟩, rfl⟩
    exact ⟨⟨rfl, h.slot, h.config, hpair⟩, rfl⟩
  | .command name c, hc, p, p', h, names, a => by
    rw [Inner.configures] at hc
    rw [Inner.run, Inner.run]
    refine names.agrees_withPointer name ⟨⟨rfl, h⟩, rfl⟩ fun q => ?_
    exact (c.agrees_run hc h q names).mapState fun x y hxy => ⟨⟨rfl, hxy.1⟩, rfl⟩
  | .withArena name reasons body, hbody, p, p', h, names, a => by
    rw [Inner.configures] at hbody
    rw [Inner.run, Inner.run]
    -- The arena is in use here and the closure will not run, but that need not be known.
    refine names.agrees_withPointer name ⟨⟨rfl, h⟩, rfl⟩ fun _ => ?_
    refine Agrees.mapState (R := Mirrors thread) ?_ fun x y hxy => ⟨⟨rfl, hxy⟩, rfl⟩
    refine (Mirrors.agrees_tryWithArena (fun a q q' hq => ?_) h).map _
    exact (Inner.agrees_runAll body hbody hq names a).mapState fun x y hxy => hxy.1

theorem Inner.agrees_runAll : ∀ (steps : List Inner), Inner.anyConfigures steps = false →
    ∀ {p p' : Process}, Mirrors thread p p' → ∀ (names : Names) (a : Arena),
      Agrees (Inside thread) (Inner.runAll thread names a p steps)
        (Inner.runAll thread names a p' steps)
  | [], _, p, p', h, names, a => by
    rw [Inner.runAll, Inner.runAll]
    exact .pure ⟨⟨rfl, h⟩, rfl⟩
  | step :: rest, hsteps, p, p', h, names, a => by
    obtain ⟨hfirst, hrest⟩ := Bool.or_eq_false_iff.1 hsteps
    rw [Inner.runAll, Inner.runAll]
    refine (Inner.agrees_run step hfirst h names a).andThen ?_
    rintro answer ⟨⟨_, q⟩, _⟩ ⟨⟨a, q'⟩, names⟩ ⟨⟨rfl, hq⟩, rfl⟩
    exact (Inner.agrees_runAll rest hrest hq names a).map _

end

namespace Session

theorem agrees_withArena {body : List Inner} (hbody : Inner.anyConfigures body = false)
    (h : Mirrors thread p p') (names : Names) (reasons : Bool) :
    Agrees (Naming (Mirrors thread)) (withArena p thread names reasons body)
      (withArena p' thread names reasons body) := by
  rw [withArena_eq, withArena_eq]
  refine (Mirrors.agrees_tryWithArena (fun a q q' hq => ?_) h).andThen ?_
  · intro hample
    obtain ⟨hresult, hevents, hstate, hnames⟩ := Inner.agrees_runAll body hbody hq names a hample
    exact ⟨congrArg₂ Prod.mk hresult hnames, hevents, hstate⟩
  · rintro (e | ⟨answers, names⟩) q q' hq
    · exact .pure ⟨hq, rfl⟩
    · exact .pure ⟨hq, rfl⟩

/-- Every action of the thread comes to the same in both. -/
theorem agrees_act {name : Option String} {action : ThreadAction}
    (haction : (ThreadStep.act name action).configures = false) (h : Mirrors thread p p')
    (q : Option Address) (names : Names) :
    Agrees (Naming (Mirrors thread)) (act p thread q names action)
      (act p' thread q names action) := by
  cases action with
  | command c => exact c.agrees_run haction h q names
  | access x => exact ((h.agrees_withExisting _).map _).mapState fun x y hxy => ⟨hxy, rfl⟩
  | withArena reasons body => exact agrees_withArena haction h names reasons

/-- So does its end, which gives its chunks back. -/
theorem agrees_exit (h : Mirrors thread p p') :
    Agrees (Mirrors thread) (p.exit thread) (p'.exit thread) := by
  have hgone : ∀ q : Process, Table.find? (q.slots.erase thread) thread = none := fun q =>
    Table.find?_erase_same _ _
  unfold Process.exit
  rw [h.slot]
  rcases p.slot? thread with _ | a | _
  · exact .pure ⟨(hgone p').trans (hgone p).symm, h.config, h.supply⟩
  · exact .pure ⟨(hgone p').trans (hgone p).symm, h.config, h.supply.limit, h.supply.contents⟩
  · exact .pure ⟨(hgone p').trans (hgone p).symm, h.config, h.supply⟩

/-! ## Sessions

A session has the names of every thread besides its process. They are the thread's own. -/

/-- A thread has the same pointers in both sessions, and their processes look the same to it. -/
structure Mirrors (thread : String) (s s' : Session) : Prop where
  process : s.process.Mirrors thread s'.process
  held : s'.held thread = s.held thread

def Report.events : Report → List Event
  | ran _ _ events => events
  | ended _ events => events

variable {s s' : Session} {other : String} {t : ThreadStep}

namespace Mirrors

/-- A step of the thread goes the same way in both sessions. -/
theorem step (h : Mirrors thread s s') (ht : t.configures = false)
    (hample : Ample (s.step thread t).2.events) :
    (s'.step thread t).2 = (s.step thread t).2 ∧
      Mirrors thread (s.step thread t).1 (s'.step thread t).1 := by
  cases t with
  | exit =>
    obtain ⟨hresult, hevents, hprocess⟩ := agrees_exit h.process hample
    exact ⟨congrArg₂ Report.ended hresult hevents, hprocess,
      (held_step_exit s' thread).trans (held_step_exit s thread).symm⟩
  | act name action =>
    obtain ⟨hreport, hprocess, hheld⟩ := s.step_act thread name action
    obtain ⟨hreport', hprocess', hheld'⟩ := s'.step_act thread name action
    rw [hreport] at hample
    rw [h.held] at hreport' hprocess' hheld'
    have hagrees : Agrees (Naming (Process.Mirrors thread))
        ((s.held thread).withPointer name (s.process, s.held thread) fun q =>
          act s.process thread q (s.held thread) action)
        ((s.held thread).withPointer name (s'.process, s.held thread) fun q =>
          act s'.process thread q (s.held thread) action) :=
      Names.agrees_withPointer _ name ⟨h.process, rfl⟩ fun q => agrees_act ht h.process q _
    obtain ⟨hresult, hevents, hmirrors, hnames⟩ := hagrees hample
    refine ⟨?_, ?_, ?_⟩
    · rw [hreport, hreport', hresult, hevents, hmirrors.stats_eq]
    · rw [hprocess, hprocess']
      exact hmirrors
    · rw [hheld, hheld', hnames]

/-- A step on another thread cannot be told from none. -/
theorem step_other (h : Mirrors thread s s') (hne : thread ≠ other) (ht : t.configures = false) :
    Mirrors thread (s.step other t).1 s' := by
  have hsupply := h.process.supply
  refine ⟨⟨?slot, ?config, hsupply.limit, hsupply.contents.trans (s.contents_step other t).symm⟩,
    h.held.trans (held_step_other s t hne).symm⟩
  case slot =>
    rw [slot?_step_other s t hne]
    exact h.process.slot
  case config =>
    -- The other thread may have settled the default, which makes no difference to what is found.
    have hdecides := s.decides_step other t
    rw [hdecides.getD_eq (t.configured_not_mem ht _)]
    exact h.process.config

end Mirrors

/-! ## Interleavings

`only` keeps what concerns one thread. Two scripts that agree under `only` for every thread are two
interleavings of the same threads. -/

/-- What the steps of a script show: on which thread, what is reported, and the slot of that thread
after it. -/
def trace (s : Session) : List (String × ThreadStep) → List (String × Report × Option Slot)
  | [] => []
  | (thread, t) :: rest =>
    let after := s.step thread t
    (thread, after.2, after.1.process.slot? thread) :: after.1.trace rest

/-- A trace has the reports of its script. -/
theorem reports_trace (s : Session) (script : List (String × ThreadStep)) :
    (s.trace script).map (·.2.1) = (s.steps script).2 := by
  induction script generalizing s with
  | nil => rfl
  | cons first rest ih => exact congrArg (_ :: ·) (ih _)

/-- What concerns one thread of a script, or of its trace. -/
def only {α : Type} (thread : String) (xs : List (String × α)) : List (String × α) :=
  xs.filter fun x => x.1 = thread

/-- **A thread runs as if it were alone**, with as much memory as it likes. -/
theorem trace_alone (h : Mirrors thread s s') (script : List (String × ThreadStep))
    (hsteps : ∀ x ∈ script, x.2.configures = false)
    (hample : ∀ x ∈ s.trace script, Ample x.2.1.events) :
    only thread (s.trace script) = s'.trace (only thread script) := by
  -- Only at the thread's own steps does the session that runs alone move on.
  induction script generalizing s s' with
  | nil => rfl
  | cons first rest ih =>
    obtain ⟨name, t⟩ := first
    obtain ⟨ht, hrest⟩ := List.forall_mem_cons.1 hsteps
    obtain ⟨hfirst, hlater⟩ := List.forall_mem_cons.1 hample
    by_cases hname : name = thread
    · subst hname
      obtain ⟨hreport, hafter⟩ := h.step ht hfirst
      have hkept : only name ((name, t) :: rest) = (name, t) :: only name rest :=
        List.filter_cons_of_pos (by simp)
      rw [trace, hkept, trace, hreport, hafter.process.slot, ← ih hafter hrest hlater]
      exact List.filter_cons_of_pos (by simp)
    · have hdropped : only thread ((name, t) :: rest) = only thread rest :=
        List.filter_cons_of_neg (by simpa using hname)
      rw [trace, hdropped, ← ih (h.step_other (Ne.symm hname) ht) hrest hlater]
      exact List.filter_cons_of_neg (by simpa using hname)

/-- **Threads are isolated.** Take two scripts that give every thread the same steps, in the same
order, but interleave them as they like, and in which nothing tries to configure the process. Unless
memory is short in one of them, every thread sees the same in both: at each of its steps the same
report, and the same arena after it, or none. And whether memory is short or not, a step on one
thread does not touch the slot of another. -/
theorem threads_isolated (s : Session) :
    (∀ x y : List (String × ThreadStep), (∀ thread, only thread x = only thread y) →
      (∀ step ∈ x, step.2.configures = false) →
      (∀ seen ∈ s.trace x, Ample seen.2.1.events) → (∀ seen ∈ s.trace y, Ample seen.2.1.events) →
      ∀ thread, only thread (s.trace x) = only thread (s.trace y)) ∧
    ∀ thread t other, other ≠ thread →
      (s.step thread t).1.process.slot? other = s.process.slot? other := by
  refine ⟨?_, fun thread t other h => s.slot?_step_other t h⟩
  intro x y hsame hx hample hample' thread
  have hy : ∀ step ∈ y, step.2.configures = false := by
    intro step hstep
    have hmine : step ∈ only step.1 y := List.mem_filter.2 ⟨hstep, by simp⟩
    rw [← hsame step.1] at hmine
    exact hx step (List.mem_filter.1 hmine).1
  let supply := { s.process.supply with limit := none }
  let alone : Session := { s with process := { s.process with supply } }
  have halone : Mirrors thread s alone := ⟨⟨rfl, rfl, rfl, rfl⟩, rfl⟩
  calc only thread (s.trace x)
    _ = alone.trace (only thread x) := trace_alone halone x hx hample
    _ = alone.trace (only thread y) := by rw [hsame]
    _ = only thread (s.trace y) := (trace_alone halone y hy hample').symm

/-- Two threads, one of which works in a closure while the other ends; and the same with memory for
one arena only, where one thread is refused beside the other. -/
theorem threads_isolated_of_run :
    let call := fun (pointer : Option String) (c : Call) =>
      ThreadStep.act pointer (.command (.call false c))
    let body := [Inner.handle ⟨none, .call true (.allocate 40 "q")⟩,
      .command (some "p") (.call true .free), .handle ⟨some "p", .call true (.reallocate 100 "p")⟩]
    let x := [("a", call none (.allocate 16 "p")), ("b", call none (.zeroAllocate 2 8 "p")),
      ("b", .act none (.withArena true body)), ("a", call (some "p") .free), ("a", .exit)]
    let y := [("b", call none (.zeroAllocate 2 8 "p")), ("a", call none (.allocate 16 "p")),
      ("a", call (some "p") .free), ("a", .exit), ("b", .act none (.withArena true body))]
    let start := fun supply : Supply =>
      ({ process := { config := some { initialCapacity := 64 }, supply } } : Session)
    let crowded := ((start (.limited 100)).step "a" (call none (.allocate 16 "p"))).1
    only "b" ((start (.limited 1000)).trace x) = only "b" ((start (.limited 1000)).trace y) ∧
      ¬ Ample (crowded.step "b" (call none (.allocate 16 "p"))).2.events ∧
      (crowded.step "b" (call none (.allocate 16 "p"))).1.process.slot? "a" =
        crowded.process.slot? "a" := by
  intro call body x y start crowded
  have hsame : ∀ thread, only thread x = only thread y := by
    intro thread
    by_cases ha : "a" = thread
    · subst ha
      rfl
    · by_cases hb : "b" = thread
      · subst hb
        rfl
      · simp [x, y, only, ha, hb]
  refine ⟨?_, by decide +kernel, (threads_isolated crowded).2 "b" _ "a" (by decide)⟩
  exact (threads_isolated (start (.limited 1000))).1 x y hsame (by decide +kernel)
    (by decide +kernel) (by decide +kernel) "b"

end Session

end Script

end ArenaAlloc

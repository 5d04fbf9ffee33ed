import ArenaAlloc.Script.Handle

/-!
# Scripts on threads

A script whose steps each run on a thread of one process, one after another. A thread starts with
its first step and ends with an exit, or with the script. Pointers are named per thread.

Inside a closure that borrows the thread's arena, steps on the arena go to the borrowed one. Calls
to the process from there find the arena in use; they have no effect on the names either. Closures
nest, as a step of one may be another closure, so running them is a mutual recursion over a step and
a list of steps.

A script says which thread runs each step, and that is all the concurrency there is: an interleaving
of whole steps, chosen in advance. What holds of every script holds of every such interleaving. -/

namespace ArenaAlloc

namespace Script

inductive Command where
  /-- Make a call on the thread's arena, directly or through the nullable interface. -/
  | call (nullable : Bool) (c : Call)
  | stats
  | configure (c : Config)
  /-- Decide the configuration through the nullable interface. -/
  | configureSizes (initial ceiling : Nat)
  | config

def Command.run (thread : String) (pointer : Option Address) (names : Names) (p : Process) :
    Command → Outcome (Process × Names) Answer
  | .call false c => c.run (.ofThread thread) pointer names p
  | .call true c => c.run (.nullable thread) pointer names p
  | .stats =>
    match p.stats thread with
    | some s => ⟨.stats s, (p, names), []⟩
    | none => ⟨.nothing, (p, names), []⟩
  | .configure c =>
    ((p.configure c).map fun
      | .ok () => Answer.done
      | .error e => .failure e).mapState (·, names)
  | .configureSizes initial ceiling =>
    ((Nullable.configure p initial ceiling).map Answer.status).mapState (·, names)
  | .config => (p.settledConfig.map Answer.config).mapState (·, names)

/-- A step inside a closure that has borrowed the thread's arena. Each may name a pointer.

What a closure can do with the arena is what these steps do: call its operations, look at it, and
access its bytes. It cannot put another arena in the place of the one that was lent; a program that
holds the arena by a mutable reference could create one of its own and swap the two. -/
inductive Inner where
  | handle (step : HandleStep)
  | command (pointer : Option String) (c : Command)
  /-- Another closure, with a reason if it does not run or without. -/
  | withArena (pointer : Option String) (reasons : Bool) (body : List Inner)

/-- The answer to a closure: what its steps answered, or that there was no arena for it. -/
def closureAnswer (reasons : Bool) : Except AllocError (List Answer) → Answer
  | .ok answers => .all answers
  | .error e => if reasons then .failure e else .nothing

mutual

def Inner.run (thread : String) (names : Names) (a : Arena) (p : Process) :
    Inner → Outcome ((Arena × Process) × Names) Answer
  | .handle step =>
    (step.run names a p.supply).mapState fun after =>
      ((after.1.1, { p with supply := after.1.2 }), after.2)
  | .command pointer c =>
    names.withPointer pointer ((a, p), names) fun q =>
      (c.run thread q names p).mapState fun after => ((a, after.1), names)
  | .withArena pointer reasons body =>
    names.withPointer pointer ((a, p), names) fun _ =>
      ((p.tryWithArena thread fun a p =>
        (Inner.runAll thread names a p body).mapState Prod.fst).map
          (closureAnswer reasons)).mapState fun p => ((a, p), names)

def Inner.runAll (thread : String) (names : Names) (a : Arena) (p : Process) :
    List Inner → Outcome ((Arena × Process) × Names) (List Answer)
  | [] => ⟨[], ((a, p), names), []⟩
  | step :: rest =>
    (Inner.run thread names a p step).andThen fun answer after =>
      (Inner.runAll thread after.2 after.1.1 after.1.2 rest).map (answer :: ·)

end

inductive ThreadAction where
  | command (c : Command)
  | access (x : Access)
  /-- Borrow the arena for a closure, with a reason if there is none or without. -/
  | withArena (reasons : Bool) (body : List Inner)

inductive ThreadStep where
  /-- Do something, about a pointer if one is named. -/
  | act (pointer : Option String) (action : ThreadAction)
  | exit

/-- The process and the names that each running thread holds. -/
structure Session where
  process : Process
  threads : Table Names := []

namespace Session

def fresh (supply : Supply) : Session := { process := .fresh supply }

inductive Report where
  /-- Its answer, the bookkeeping of the thread's arena after it, and what was logged. -/
  | ran (answer : Answer) (stats : Option (Stats Address)) (events : List Event)
  /-- The thread ended: what that gave back to the supply, and what was logged. -/
  | ended (released : Nat × Nat) (events : List Event)

def exit (s : Session) (thread : String) : Session × Report :=
  let o := s.process.exit thread
  ({ process := o.state, threads := s.threads.erase thread }, .ended o.result o.events)

def withArena (p : Process) (thread : String) (names : Names) (reasons : Bool) (body : List Inner) :
    Outcome (Process × Names) Answer :=
  (p.tryWithArena thread fun a p =>
    let o := Inner.runAll thread names a p body
    ⟨(o.result, o.state.2), o.state.1, o.events⟩).andThen fun result p =>
      match result with
      | .ok (answers, names) => ⟨closureAnswer reasons (.ok answers), (p, names), []⟩
      | .error e => ⟨closureAnswer reasons (.error e), (p, names), []⟩

/-- A step on the bytes behind a pointer. Without an arena the thread holds no pointers. -/
def access (p : Process) (thread : String) (pointer : Option Address) (x : Access) :
    Outcome Process Answer :=
  (p.withExisting thread fun a =>
    let (a, answer) := x.run pointer a
    ⟨answer, a, []⟩).map (·.getD .unbound)

def act (p : Process) (thread : String) (pointer : Option Address) (names : Names) :
    ThreadAction → Outcome (Process × Names) Answer
  | .command c => c.run thread pointer names p
  | .access x => (access p thread pointer x).mapState (·, names)
  | .withArena reasons body => withArena p thread names reasons body

/-- One step of one thread. A closure is a single step, however many it has inside: scripts of
several threads are interleaved between steps and never within one. On real threads another thread
may run while a closure does; it finds its own arena, and shares with this one only the
configuration, which does not change any more, and the supply. -/
def step (s : Session) (thread : String) : ThreadStep → Session × Report
  | .exit => s.exit thread
  | .act pointer action =>
    let names := (s.threads.find? thread).getD []
    let o := names.withPointer pointer (s.process, names) fun p =>
      act s.process thread p names action
    ({ process := o.state.1, threads := s.threads.set thread o.state.2 },
      .ran o.result (o.state.1.stats thread) o.events)

def steps (s : Session) : List (String × ThreadStep) → Session × List Report
  | [] => (s, [])
  | (thread, t) :: rest =>
    let (s, report) := s.step thread t
    let (s, reports) := s.steps rest
    (s, report :: reports)

def exitAll (s : Session) : List String → Session × List Report
  | [] => (s, [])
  | thread :: rest =>
    let (s, report) := s.exit thread
    let (s, reports) := s.exitAll rest
    (s, report :: reports)

/-- Run a script in a fresh process, then end the threads that still run, by name: the reports of
the steps, and those of the ends. -/
def run (supply : Supply) (script : List (String × ThreadStep)) : List Report × List Report :=
  let (s, reports) := (Session.fresh supply).steps script
  let (_, ends) := s.exitAll (s.threads.names.mergeSort fun a b => decide (a ≤ b))
  (reports, ends)

end Session

end Script

end ArenaAlloc

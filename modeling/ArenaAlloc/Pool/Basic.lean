/-!
# Work pools

A pool has a fixed number of workers. Jobs wait in one line for all of them; each job's result goes
to the queue it was dispatched to. A queue holds a limited number of results that nobody has
collected, and a worker that finds it full waits with its result in hand.

A job is anything that a worker can run from start to end, on the state that all of them share.
Which worker does what next is left open: `Move` names the steps that a worker can take, and `move?`
says whether a step is possible and what comes of it. Every order of possible moves is a run of the
pool. -/

namespace ArenaAlloc

namespace Pool

/-- What a job does on the thread of that name: its result, and the state that it leaves. -/
abbrev Routine (σ ρ : Type) := String → σ → ρ × σ

/-- A job on its way. Tickets number the accepted jobs in the order of their dispatch. -/
structure Task (σ ρ : Type) where
  ticket : Nat
  queue : Nat
  job : Routine σ ρ

structure Delivery (σ ρ : Type) where
  task : Task σ ρ
  result : ρ

inductive Worker (σ ρ : Type) where
  | idle
  | running (task : Task σ ρ)
  /-- The job is done, and its result waits for room in the queue. -/
  | delivering (delivery : Delivery σ ρ)

/-- Where the results of some jobs are collected. -/
structure Queue (σ ρ : Type) where
  /-- How many uncollected results it holds, at least one. -/
  capacity : Nat
  /-- The accepted jobs whose results were not collected yet. -/
  pending : Nat := 0
  /-- The results to collect, first come first. -/
  delivered : List (Delivery σ ρ) := []

end Pool

/-- A pool whose jobs share a state of type `σ` and have results of type `ρ`. -/
structure Pool (σ ρ : Type) where
  /-- The tasks that no worker has taken, in the order of their dispatch. -/
  tasks : List (Pool.Task σ ρ) := []
  workers : List (Pool.Worker σ ρ)
  queues : List (Pool.Queue σ ρ) := []
  state : σ
  accepting : Bool := true
  accepted : Nat := 0

namespace Pool

inductive DispatchError where
  | shutDown
deriving DecidableEq, Repr

def DispatchError.kind : DispatchError → String
  | shutDown => "ShutDown"

def DispatchError.message : DispatchError → String
  | shutDown => "work pool is shut down"

def workerName (w : Nat) : String := s!"tarena-worker-{w}"

variable {σ ρ : Type}

/-- A pool of `threads` workers, of one if that is 0. -/
def create (threads : Nat) (state : σ) : Pool σ ρ where
  workers := List.replicate (Nat.max threads 1) .idle
  state

def threadCount (p : Pool σ ρ) : Nat := p.workers.length

/-- Open a queue for `capacity` uncollected results, for one if that is 0. -/
def openQueue (p : Pool σ ρ) (capacity : Nat) : Pool σ ρ :=
  { p with queues := p.queues ++ [{ capacity := Nat.max capacity 1 }] }

/-- End the workers and accept no more jobs. A pool is shut down while no queue is open. -/
def shutdown (p : Pool σ ρ) : Pool σ ρ := { p with tasks := [], workers := [], accepting := false }

/-! ## What the client does -/

def dispatch (p : Pool σ ρ) (queue : Nat) (job : Routine σ ρ) :
    Except DispatchError (Pool σ ρ) :=
  if p.accepting then
    .ok { p with
      tasks := p.tasks ++ [⟨p.accepted, queue, job⟩]
      queues := p.queues.modify queue fun q => { q with pending := q.pending + 1 }
      accepted := p.accepted + 1 }
  else .error .shutDown

def isEmpty (p : Pool σ ρ) (queue : Nat) : Bool :=
  match p.queues[queue]? with
  | some q => q.pending == 0
  | none => true

/-- Collect the first result of a queue, if one was delivered. -/
def collect? (p : Pool σ ρ) (queue : Nat) : Option (Delivery σ ρ × Pool σ ρ) :=
  match p.queues[queue]? with
  | some q =>
    match q.delivered with
    | d :: rest =>
      some (d, { p with
        queues := p.queues.set queue { q with pending := q.pending - 1, delivered := rest } })
    | [] => none
  | none => none

/-! ## What the workers do -/

inductive Move where
  | take (worker : Nat)
  | finish (worker : Nat)
  | deliver (worker : Nat)
deriving DecidableEq, Repr

/-- The pool after a move, if the move is possible. -/
def move? (p : Pool σ ρ) : Move → Option (Pool σ ρ)
  | .take w =>
    match p.workers[w]?, p.tasks with
    | some .idle, task :: rest =>
      some { p with tasks := rest, workers := p.workers.set w (.running task) }
    | _, _ => none
  | .finish w =>
    match p.workers[w]? with
    | some (.running task) =>
      let o := task.job (workerName w) p.state
      some { p with state := o.2, workers := p.workers.set w (.delivering ⟨task, o.1⟩) }
    | _ => none
  | .deliver w =>
    match p.workers[w]? with
    | some (.delivering d) =>
      match p.queues[d.task.queue]? with
      | some q =>
        if q.delivered.length < q.capacity then
          some { p with
            workers := p.workers.set w .idle
            queues := p.queues.set d.task.queue { q with delivered := q.delivered ++ [d] } }
        else none
      | none => none
    | _ => none

end Pool

end ArenaAlloc

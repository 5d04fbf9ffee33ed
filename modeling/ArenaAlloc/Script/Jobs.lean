import ArenaAlloc.Pool.Job
import ArenaAlloc.Pool.Schedule

/-!
# Scripts on a pool

A script that dispatches jobs to the queues of a pool and collects their results. Where several
workers can deliver in any order, results that are collected together are reported in the order of
their values.

With several workers the order in which results come is up to the schedule. What is reported must
not be, so results that are collected together are sorted. A result that is collected alone is the
one that `Pool.next` comes to. -/

namespace ArenaAlloc

namespace Script

inductive QueueAction where
  | dispatch (job : Pool.Job)
  | next
  | flush
  /-- Only ask whether the queue is empty, as is reported after every step. -/
  | look

inductive QueueAnswer where
  | nothing
  | accepted
  | refused (e : Pool.DispatchError)
  | result (r : Pool.JobResult)
  | results (rs : List Pool.JobResult)

/-- Pools whose jobs run on the threads of one process. -/
abbrev JobPool := Pool Process Pool.JobResult

def QueueAction.run (p : JobPool) (queue : Nat) : QueueAction → JobPool × QueueAnswer
  | .dispatch job =>
    match p.dispatch queue job.routine with
    | .ok p => (p, .accepted)
    | .error e => (p, .refused e)
  | .next =>
    match p.next queue with
    | (some r, p) => (p, .result r)
    | (none, p) => (p, .nothing)
  | .flush =>
    let (rs, p') := p.flush queue
    (p', .results (if p.threadCount = 1 then rs
      else rs.mergeSort fun a b => (Pool.JobResult.order a b).isLE))
  | .look => (p, .nothing)

/-- What is reported of a step: its answer, and whether its queue is empty after it. -/
structure QueueReport where
  answer : QueueAnswer
  isEmpty : Bool

/-- Carry out steps one after another, each on the queue of its number. -/
def runJobs (p : JobPool) : List (Nat × QueueAction) → List QueueReport
  | [] => []
  | (queue, action) :: rest =>
    let (p, answer) := action.run p queue
    ⟨answer, p.isEmpty queue⟩ :: runJobs p rest

structure PoolRun where
  threads : Nat
  /-- The workers when the queues are opened. -/
  after : Nat
  steps : List QueueReport

/-- Run a script on a new pool, which may be shut down before its queues are opened. -/
def runOnPool (threads : Nat) (shutdown : Bool) (capacities : List Nat)
    (steps : List (Nat × QueueAction)) : PoolRun :=
  let pool : JobPool := Pool.create threads (.fresh .unlimited)
  let settled := if shutdown then pool.shutdown else pool
  let opened := capacities.foldl Pool.openQueue settled
  { threads := pool.threadCount, after := settled.threadCount, steps := runJobs opened steps }

end Script

end ArenaAlloc

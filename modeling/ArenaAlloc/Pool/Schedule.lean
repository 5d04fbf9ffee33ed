import ArenaAlloc.Pool.Basic
import ArenaAlloc.Size

/-!
# Waiting for results

One run of a pool among the possible ones: while the client waits, the first worker that can move
does. Waiting ends, since every move brings some task nearer to its queue: `work_move?` says so.

A script has to have one result, so a schedule is chosen: workers in the order of their numbers,
each as far as it gets, before the next. Nothing that is proved of pools depends on this choice;
`Proofs.PoolCalls` shows that it is one of the possible ones.
-/

namespace ArenaAlloc

namespace Pool

variable {σ ρ : Type}

/-- The moves that a worker has left before it is idle. -/
def Worker.work : Worker σ ρ → Nat
  | idle => 0
  | running _ => 2
  | delivering _ => 1

/-- The moves that are left before every result is in its queue. -/
def work (p : Pool σ ρ) : Nat := 3 * p.tasks.length + total (p.workers.map Worker.work)

/-- What one worker has left, changed in the sum of all. -/
theorem total_work_set {l : List (Worker σ ρ)} {i : Nat} {old : Worker σ ρ} (new : Worker σ ρ)
    (h : l[i]? = some old) :
    total ((l.set i new).map Worker.work) + old.work = total (l.map Worker.work) + new.work := by
  obtain ⟨hi, hold⟩ := List.getElem?_eq_some_iff.1 h
  have := total_set (l.map Worker.work) new.work (i := i) (by simpa using hi)
  simpa [List.map_set, hold] using this

/-- **Every move uses up work.** -/
theorem work_move? {p p' : Pool σ ρ} {m : Move} (h : p.move? m = some p') :
    p'.work + 1 = p.work := by
  cases m with
  | take w =>
    simp only [move?] at h
    split at h
    · rename_i task rest hw ht
      simp only [Option.some.injEq] at h
      subst h
      have := total_work_set (.running task) hw
      simp only [work, ht, List.length_cons, Worker.work] at this ⊢
      omega
    · simp at h
  | finish w =>
    simp only [move?] at h
    split at h
    · rename_i task hw
      simp only [Option.some.injEq] at h
      subst h
      have := total_work_set
        (.delivering ⟨task, (task.job (workerName w) p.state).1⟩) hw
      simp only [work, Worker.work] at this ⊢
      omega
    · simp at h
  | deliver w =>
    simp only [move?] at h
    split at h
    · rename_i d hw
      split at h
      · split at h
        · simp only [Option.some.injEq] at h
          subst h
          have := total_work_set .idle hw
          simp only [work, Worker.work] at this ⊢
          omega
        · simp at h
      · simp at h
    · simp at h

def moves (p : Pool σ ρ) : List Move :=
  (List.range p.workers.length).flatMap fun w => [.deliver w, .finish w, .take w]

def advance? (p : Pool σ ρ) : Option (Pool σ ρ) := p.moves.findSome? p.move?

theorem work_advance? {p p' : Pool σ ρ} (h : p.advance? = some p') : p'.work + 1 = p.work := by
  obtain ⟨m, -, hm⟩ := List.exists_of_findSome?_eq_some h
  exact work_move? hm

/-- Let the workers move until a result of the queue can be collected, and collect it. There is none
if no job of the queue is outstanding, or if the workers cannot move. -/
def await (p : Pool σ ρ) (queue : Nat) : Option (Delivery σ ρ × Pool σ ρ) :=
  match p.collect? queue with
  | some collected => some collected
  | none =>
    match h : p.advance? with
    | some p' =>
      have := work_advance? h
      await p' queue
    | none => none
termination_by p.work

/-- The next result of a queue. There is none when no job of it is outstanding. -/
def next (p : Pool σ ρ) (queue : Nat) : Option ρ × Pool σ ρ :=
  if p.isEmpty queue then (none, p)
  else match p.await queue with
    | some (d, p') => (some d.result, p')
    | none => (none, p)

/-- The next `n` results of a queue, fewer if there are not as many. -/
def nextResults (p : Pool σ ρ) (queue : Nat) : Nat → List ρ × Pool σ ρ
  | 0 => ([], p)
  | n + 1 =>
    match p.next queue with
    | (some r, p') =>
      let (rest, p'') := nextResults p' queue n
      (r :: rest, p'')
    | (none, p') => ([], p')

def flush (p : Pool σ ρ) (queue : Nat) : List ρ × Pool σ ρ :=
  p.nextResults queue ((p.queues[queue]?.map Queue.pending).getD 0)

end Pool

end ArenaAlloc

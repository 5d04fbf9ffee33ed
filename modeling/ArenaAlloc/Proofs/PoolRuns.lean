import ArenaAlloc.Pool.Schedule
import Mathlib.Algebra.Order.Group.Multiset
import Mathlib.Tactic.Abel

/-!
# Runs of a pool

`Run` is what can happen to a pool: queues are opened, jobs are dispatched, workers move in any
order, and results are collected. Along with the pool it keeps what the client has seen of it, the
accepted jobs and the collected results.

The books of a pool balance along every run (`Run.balanced`): a job that was accepted is in one
place after another, and when its result was collected it is in none. What a queue has pending is
what was accepted for it and not collected, and so it is what is on its way to it
(`Balanced.pending_eq`).

Jobs are functions here, and there is no equality to be decided between them; so the places of a job
are compared by permutations of lists, that is as multisets, and tickets tell jobs apart. A move
takes a job out of one list and puts it into another. In terms of multisets that is an equation
which `abel` closes, once it is said what changes in the lists of all workers when one worker does
(`coe_flatMap_set`).

Nothing is assumed of the order of moves, so every theorem about `Run` is one about every schedule.
A queue is a line with a bound on its length, and results leave it in the order in which they came;
that is how the channels between workers and clients behave, and it is all that is used of them.
-/

namespace ArenaAlloc

namespace Pool

variable {σ ρ : Type}

/-! ## Where jobs and results are

An accepted job is in line, or with a worker, or its result is with a worker, or in a queue. -/

def Worker.task : Worker σ ρ → List (Task σ ρ)
  | .running t => [t]
  | .idle | .delivering _ => []

def Worker.inHand : Worker σ ρ → List (Delivery σ ρ)
  | .delivering d => [d]
  | .idle | .running _ => []

/-- The jobs that workers have begun and not finished. -/
def running (p : Pool σ ρ) : List (Task σ ρ) := p.workers.flatMap Worker.task

/-- The results that workers have in hand. -/
def waiting (p : Pool σ ρ) : List (Delivery σ ρ) := p.workers.flatMap Worker.inHand

/-- The results that are in a queue. -/
def delivered (p : Pool σ ρ) : List (Delivery σ ρ) := p.queues.flatMap Queue.delivered

/-- The jobs that are somewhere in the pool, or whose results are. -/
def outstanding (p : Pool σ ρ) : List (Task σ ρ) :=
  p.tasks ++ p.running ++ (p.waiting ++ p.delivered).map Delivery.task

/-- The result is what the job came to, on one of the threads of the pool. -/
def Delivery.Ran (threads : Nat) (d : Delivery σ ρ) : Prop :=
  ∃ w < Nat.max threads 1, ∃ s, d.result = (d.task.job (workerName w) s).1

/-! ## Runs

`Run` has a constructor for each thing that can happen, with its guard. The client side and the
workers are not distinguished otherwise: any of them may be next. -/

/-- What the client has seen: the jobs that were accepted, and which result it has collected from
which queue, in order. -/
structure History (σ ρ : Type) where
  accepted : List (Task σ ρ) := []
  collected : List (Nat × Delivery σ ρ) := []

namespace History

def accept (h : History σ ρ) (t : Task σ ρ) : History σ ρ :=
  { h with accepted := h.accepted ++ [t] }

def collect (h : History σ ρ) (queue : Nat) (d : Delivery σ ρ) : History σ ρ :=
  { h with collected := h.collected ++ [(queue, d)] }

/-- The jobs that were accepted for a queue. -/
def acceptedFor (h : History σ ρ) (queue : Nat) : List (Task σ ρ) :=
  h.accepted.filter fun t => t.queue == queue

/-- The results that were collected from a queue. -/
def collectedFrom (h : History σ ρ) (queue : Nat) : List (Delivery σ ρ) :=
  (h.collected.filter fun c => c.1 == queue).map Prod.snd

end History

/-- What can happen to a pool of that many workers, from the state `s` on. Only open queues have
jobs dispatched to them and results collected from them, and nobody waits for a result of an empty
one. A pool is shut down while no queue is open. -/
inductive Run (threads : Nat) (s : σ) : Pool σ ρ → History σ ρ → Prop
  | create : Run threads s (.create threads s) {}
  | openQueue {p : Pool σ ρ} {h : History σ ρ} (run : Run threads s p h) (capacity : Nat) :
      Run threads s (p.openQueue capacity) h
  | shutdown {p : Pool σ ρ} {h : History σ ρ} (run : Run threads s p h) (closed : p.queues = []) :
      Run threads s p.shutdown h
  | dispatch {p p' : Pool σ ρ} {h : History σ ρ} (run : Run threads s p h) {queue : Nat}
      (known : queue < p.queues.length) {job : Routine σ ρ} (ok : p.dispatch queue job = .ok p') :
      Run threads s p' (h.accept ⟨p.accepted, queue, job⟩)
  | move {p p' : Pool σ ρ} {h : History σ ρ} (run : Run threads s p h) {m : Move}
      (moved : p.move? m = some p') : Run threads s p' h
  | collect {p p' : Pool σ ρ} {h : History σ ρ} (run : Run threads s p h) {queue : Nat}
      (outstanding : p.isEmpty queue = false) {d : Delivery σ ρ}
      (ok : p.collect? queue = some (d, p')) : Run threads s p' (h.collect queue d)

variable {threads : Nat} {s : σ} {p p' : Pool σ ρ} {h : History σ ρ} {queue w : Nat} {t : Task σ ρ}
  {d : Delivery σ ρ} {q : Queue σ ρ} {m : Move} {job : Routine σ ρ}

/-- The moves that are possible, with what they come to. -/
inductive Moved (p : Pool σ ρ) : Pool σ ρ → Prop
  | take {w : Nat} {t : Task σ ρ} {rest : List (Task σ ρ)} (worker : p.workers[w]? = some .idle)
      (tasks : p.tasks = t :: rest) :
      Moved p { p with tasks := rest, workers := p.workers.set w (.running t) }
  | finish {w : Nat} {t : Task σ ρ} (worker : p.workers[w]? = some (.running t)) :
      Moved p { p with
        state := (t.job (workerName w) p.state).2
        workers := p.workers.set w (.delivering ⟨t, (t.job (workerName w) p.state).1⟩) }
  | deliver {w : Nat} {d : Delivery σ ρ} {q : Queue σ ρ}
      (worker : p.workers[w]? = some (.delivering d)) (isOpen : p.queues[d.task.queue]? = some q)
      (room : q.delivered.length < q.capacity) :
      Moved p { p with
        workers := p.workers.set w .idle
        queues := p.queues.set d.task.queue { q with delivered := q.delivered ++ [d] } }

/-- `Moved` is `move?` with the guards as hypotheses, for case analysis. -/
theorem moved_of_move? (h : p.move? m = some p') : Moved p p' := by
  cases m with
  | take w =>
    simp only [move?] at h
    split at h
    · rename_i hworker htasks
      cases h
      exact .take hworker htasks
    · cases h
  | finish w =>
    simp only [move?] at h
    split at h
    · rename_i hworker
      cases h
      exact .finish hworker
    · cases h
  | deliver w =>
    simp only [move?] at h
    split at h
    · rename_i hworker
      split at h
      · rename_i hopen
        split at h
        · rename_i hroom
          cases h
          exact .deliver hworker hopen hroom
        · cases h
      · cases h
    · cases h

/-- A job is only accepted by a pool that accepts jobs. -/
theorem dispatch_eq_ok (known : queue < p.queues.length) (h : p.dispatch queue job = .ok p') :
    p.accepting ∧ ∃ q, p.queues[queue]? = some q ∧ p' = { p with
      tasks := p.tasks ++ [⟨p.accepted, queue, job⟩]
      queues := p.queues.set queue { q with pending := q.pending + 1 }
      accepted := p.accepted + 1 } := by
  unfold dispatch at h
  split at h
  · rename_i haccepting
    cases h
    refine ⟨haccepting, p.queues[queue], List.getElem?_eq_getElem known, ?_⟩
    rw [List.modify_eq_set_get _ known]
    rfl
  · cases h

/-- What is collected was the first in its queue. -/
theorem collect?_eq_some (h : p.collect? queue = some (d, p')) :
    ∃ q rest, p.queues[queue]? = some q ∧ q.delivered = d :: rest ∧
      p' = { p with
        queues := p.queues.set queue { q with pending := q.pending - 1, delivered := rest } } := by
  unfold collect? at h
  split at h
  · rename_i q hqueue
    split at h
    · rename_i rest hdelivered
      cases h
      exact ⟨q, rest, hqueue, hdelivered, rfl⟩
    · cases h
  · cases h

/-! ## One place after another

The four places are summed as multisets in `coe_outstanding`; each step of a run is then a
calculation with one of the summands changed. -/

/-- What changes in all of a list when one element of it does. -/
theorem coe_flatMap_set {α β : Type} {l : List α} {i : Nat} {old : α} (new : α)
    (h : l[i]? = some old) (f : α → List β) :
    (((l.set i new).flatMap f : List β) : Multiset β) + (f old : Multiset β) =
      (l.flatMap f : Multiset β) + (f new : Multiset β) := by
  induction l generalizing i with
  | nil => simp at h
  | cons a rest ih =>
    cases i with
    | zero =>
      cases h
      simp only [List.set_cons_zero, List.flatMap_cons, ← Multiset.coe_add]
      abel
    | succ i =>
      have hrest := ih h
      simp only [List.set_cons_succ, List.flatMap_cons, ← Multiset.coe_add, add_assoc, hrest]

theorem mem_flatMap_set {α β : Type} {l : List α} {i : Nat} {new : α} {f : α → List β} {b : β}
    (h : b ∈ (l.set i new).flatMap f) : b ∈ f new ∨ b ∈ l.flatMap f := by
  obtain ⟨a, ha, hb⟩ := List.mem_flatMap.1 h
  rcases List.mem_or_eq_of_mem_set ha with ha | rfl
  · exact .inr (List.mem_flatMap.2 ⟨a, ha, hb⟩)
  · exact .inl hb

/-- The jobs whose results are in hand, or in a queue. -/
def Worker.done (x : Worker σ ρ) : List (Task σ ρ) := x.inHand.map Delivery.task

def Queue.done (q : Queue σ ρ) : List (Task σ ρ) := q.delivered.map Delivery.task

theorem coe_outstanding (p : Pool σ ρ) :
    (p.outstanding : Multiset (Task σ ρ)) =
      (p.tasks : Multiset (Task σ ρ)) + (p.workers.flatMap Worker.task : List (Task σ ρ)) +
        (p.workers.flatMap Worker.done : List (Task σ ρ)) +
        (p.queues.flatMap Queue.done : List (Task σ ρ)) := by
  simp only [outstanding, running, waiting, delivered, List.map_append, List.map_flatMap,
    ← Multiset.coe_add, add_assoc]
  rfl

/-- **A move brings a job from one place to another**, and loses none. -/
theorem Moved.outstanding (h : Moved p p') : p'.outstanding.Perm p.outstanding := by
  rw [← Multiset.coe_eq_coe, coe_outstanding, coe_outstanding]
  -- The queue of a result is changed as well as the worker, so the last case needs a second
  -- equation.
  cases h with
  | @take w t rest worker tasks =>
    have htask := coe_flatMap_set (.running t) worker Worker.task
    have hdone := coe_flatMap_set (.running t) worker Worker.done
    simp only [Worker.task, Worker.done, Worker.inHand, List.map_nil, Multiset.coe_nil,
      add_zero] at htask hdone
    simp only [htask, hdone, tasks, ← Multiset.cons_coe, ← Multiset.singleton_add, Multiset.coe_nil,
      add_zero]
    abel
  | @finish w t worker =>
    have htask := coe_flatMap_set (.delivering ⟨t, (t.job (workerName w) p.state).1⟩) worker
      Worker.task
    have hdone := coe_flatMap_set (.delivering ⟨t, (t.job (workerName w) p.state).1⟩) worker
      Worker.done
    simp only [Worker.task, Worker.done, Worker.inHand, List.map_nil, List.map_cons,
      Multiset.coe_nil, add_zero] at htask hdone
    simp only [hdone, ← htask]
    abel
  | @deliver w d q worker isOpen room =>
    have htask := coe_flatMap_set .idle worker Worker.task
    have hdone := coe_flatMap_set .idle worker Worker.done
    have hqueue := coe_flatMap_set { q with delivered := q.delivered ++ [d] } isOpen Queue.done
    simp only [Worker.task, Worker.done, Queue.done, Worker.inHand, List.map_nil, List.map_cons,
      List.map_append, ← Multiset.coe_add, Multiset.coe_nil, add_zero] at htask hdone hqueue
    -- The queue has got the job that the worker had; what else is in queues is on both sides.
    have hgot := add_left_cancel (((add_comm _ _).trans hqueue).trans (add_left_comm _ _ _))
    simp only [htask, ← hdone, hgot]
    abel

/-- When a result is collected its job is nowhere in the pool any more. -/
theorem outstanding_collect? (h : p.collect? queue = some (d, p')) :
    (d.task :: p'.outstanding).Perm p.outstanding := by
  obtain ⟨q, rest, hopen, hdelivered, rfl⟩ := collect?_eq_some h
  rw [← Multiset.coe_eq_coe, ← Multiset.cons_coe, ← Multiset.singleton_add, coe_outstanding,
    coe_outstanding]
  have hqueue := coe_flatMap_set { q with pending := q.pending - 1, delivered := rest } hopen
    Queue.done
  simp only [Queue.done, hdelivered, List.map_cons, ← Multiset.cons_coe,
    ← Multiset.singleton_add] at hqueue
  rw [← add_assoc] at hqueue
  have hgone := add_right_cancel hqueue
  simp only [← hgone]
  abel

theorem outstanding_dispatch (known : queue < p.queues.length)
    (h : p.dispatch queue job = .ok p') :
    p'.outstanding.Perm (p.outstanding ++ [⟨p.accepted, queue, job⟩]) := by
  obtain ⟨-, q, hopen, rfl⟩ := dispatch_eq_ok known h
  have hqueues := add_right_cancel
    (coe_flatMap_set { q with pending := q.pending + 1 } hopen Queue.done)
  rw [← Multiset.coe_eq_coe, ← Multiset.coe_add, coe_outstanding, coe_outstanding]
  simp only [hqueues, ← Multiset.coe_add]
  abel

/-! ## The books

`Balanced` is the invariant. `conserved` is what the rest is derived from; `tickets` makes jobs
distinct, and `known` and `queues` connect the counts of each queue with the history. A lemma for
each constructor of `Run` says that it is kept, and `Run.balanced` puts them together. -/

namespace History

theorem acceptedFor_accept_same (h : History σ ρ) (ht : t.queue = queue) :
    (h.accept t).acceptedFor queue = h.acceptedFor queue ++ [t] := by
  simp [acceptedFor, accept, ht]

theorem acceptedFor_accept_other (h : History σ ρ) (ht : t.queue ≠ queue) :
    (h.accept t).acceptedFor queue = h.acceptedFor queue := by
  simp [acceptedFor, accept, ht]

theorem collectedFrom_collect_same (h : History σ ρ) (queue : Nat) (d : Delivery σ ρ) :
    (h.collect queue d).collectedFrom queue = h.collectedFrom queue ++ [d] := by
  simp [collectedFrom, collect]

theorem collectedFrom_collect_other (h : History σ ρ) {other : Nat} (d : Delivery σ ρ)
    (hother : other ≠ queue) :
    (h.collect other d).collectedFrom queue = h.collectedFrom queue := by
  simp [collectedFrom, collect, hother]

end History

/-- The books of one queue, the one with the number `j`. The results in it are for it, it has room
for them, and what is pending is what was accepted for it and not collected from it. -/
structure Queue.Balanced (h : History σ ρ) (j : Nat) (q : Queue σ ρ) : Prop where
  delivered : ∀ d ∈ q.delivered, d.task.queue = j
  capacity : 0 < q.capacity
  room : q.delivered.length ≤ q.capacity
  pending : q.pending + (h.collectedFrom j).length = (h.acceptedFor j).length

/-- The books of a pool after a run of it.
* Every accepted job is outstanding, or its result was collected. Each has a ticket of its own, and
  an open queue.
* Results are collected from the queue of their job. They are what the job came to.
* Only a pool that does not accept jobs, and never did, has no workers. -/
structure Balanced (threads : Nat) (p : Pool σ ρ) (h : History σ ρ) : Prop where
  conserved : (p.outstanding ++ h.collected.map fun c => c.2.task).Perm h.accepted
  tickets : h.accepted.map Task.ticket = List.range p.accepted
  known : ∀ t ∈ h.accepted, t.queue < p.queues.length
  queues : ∀ (j : Nat) (q : Queue σ ρ), p.queues[j]? = some q → q.Balanced h j
  collected : ∀ c ∈ h.collected, c.2.task.queue = c.1
  ran : ∀ d ∈ p.waiting ++ p.delivered ++ h.collected.map Prod.snd, d.Ran threads
  staffed : p.workers.length = Nat.max threads 1 ∨
    p.workers.length = 0 ∧ p.accepting = false ∧ h.accepted = []

theorem getElem?_set_cases {α : Type} {l : List α} {i j : Nat} {a b : α}
    (h : (l.set i a)[j]? = some b) : j = i ∧ b = a ∨ j ≠ i ∧ l[j]? = some b := by
  by_cases hj : i = j
  · subst hj
    rw [List.getElem?_set_self'] at h
    cases hl : l[i]? with
    | none => simp [hl] at h
    | some c =>
      simp only [hl] at h
      exact .inl ⟨rfl, (Option.some.inj h).symm⟩
  · rw [List.getElem?_set_ne hj] at h
    exact .inr ⟨Ne.symm hj, h⟩

theorem getElem?_concat_cases {α : Type} {l : List α} {j : Nat} {a b : α}
    (h : (l ++ [a])[j]? = some b) : l[j]? = some b ∨ j = l.length ∧ b = a := by
  rw [List.getElem?_append] at h
  split at h
  · exact .inl h
  · rename_i hj
    obtain ⟨hlt, hb⟩ := List.getElem?_eq_some_iff.1 h
    simp only [List.length_cons, List.length_nil] at hlt
    refine .inr ⟨by omega, ?_⟩
    simpa using hb.symm

namespace Balanced

theorem mem_accepted (hb : Balanced threads p h) {c : Nat × Delivery σ ρ} (hc : c ∈ h.collected) :
    c.2.task ∈ h.accepted :=
  hb.conserved.mem_iff.1 (List.mem_append_right _ (List.mem_map.2 ⟨c, hc, rfl⟩))

theorem mem_accepted_of_waiting (hb : Balanced threads p h) (hd : d ∈ p.waiting) :
    d.task ∈ h.accepted :=
  hb.conserved.mem_iff.1 (List.mem_append_left _
    (List.mem_append_right _ (List.mem_map.2 ⟨d, List.mem_append_left _ hd, rfl⟩)))

theorem length_workers (hb : Balanced threads p h) : p.workers.length ≤ Nat.max threads 1 := by
  rcases hb.staffed with hstaffed | ⟨hnone, -, -⟩
  · exact Nat.le_of_eq hstaffed
  · exact hnone ▸ Nat.zero_le _

theorem create (threads : Nat) (s : σ) :
    Balanced threads (Pool.create threads s : Pool σ ρ) {} := by
  have hwaiting : (Pool.create threads s : Pool σ ρ).waiting = [] := by
    simp [waiting, Pool.create, Worker.inHand]
  have hrunning : (Pool.create threads s : Pool σ ρ).running = [] := by
    simp [running, Pool.create, Worker.task]
  refine ⟨?_, rfl, fun _ ht => (by cases ht), fun _ _ hq => (by cases hq),
    fun _ hc => (by cases hc), ?_, .inl List.length_replicate⟩
  · rw [outstanding, hrunning, hwaiting]
    exact .refl []
  · rw [hwaiting]
    exact fun _ hd => by cases hd

/-- Nothing was accepted for a queue that is not open, or collected from it. -/
theorem unopened (hb : Balanced threads p h) :
    h.acceptedFor p.queues.length = [] ∧ h.collectedFrom p.queues.length = [] := by
  refine ⟨List.filter_eq_nil_iff.2 fun t ht => ?_,
    List.map_eq_nil_iff.2 (List.filter_eq_nil_iff.2 fun c hc => ?_)⟩
  · have := hb.known t ht
    simp only [beq_iff_eq]
    omega
  · have := hb.known _ (hb.mem_accepted hc)
    rw [hb.collected c hc] at this
    simp only [beq_iff_eq]
    omega

theorem openQueue (hb : Balanced threads p h) (capacity : Nat) :
    Balanced threads (p.openQueue capacity) h := by
  have hdelivered : (p.openQueue capacity).delivered = p.delivered := by
    simp [Pool.delivered, Pool.openQueue]
  refine ⟨?conserved, hb.tickets, ?known, ?queues, hb.collected, ?ran, hb.staffed⟩
  case conserved =>
    rw [outstanding, hdelivered]
    exact hb.conserved
  case known =>
    intro t ht
    have := hb.known t ht
    simp only [Pool.openQueue, List.length_append, List.length_cons, List.length_nil]
    omega
  case queues =>
    intro j q hq
    rcases getElem?_concat_cases hq with hq | ⟨rfl, rfl⟩
    · exact hb.queues j q hq
    · refine ⟨fun d hd => (by cases hd), Nat.le_max_right capacity 1, Nat.zero_le _, ?_⟩
      rw [hb.unopened.1, hb.unopened.2]
      rfl
  case ran =>
    rw [hdelivered]
    exact hb.ran

theorem accepted_of_closed (hb : Balanced threads p h) (closed : p.queues = []) :
    h.accepted = [] := by
  refine List.eq_nil_iff_forall_not_mem.2 fun t ht => ?_
  have := hb.known t ht
  rw [closed] at this
  exact Nat.not_lt_zero _ this

theorem shutdown (hb : Balanced threads p h) (closed : p.queues = []) :
    Balanced threads p.shutdown h := by
  -- No job was ever accepted, so there is nothing that the pool could lose.
  have hnone := hb.accepted_of_closed closed
  have hperm := hb.conserved
  rw [hnone, List.perm_nil, List.append_eq_nil_iff] at hperm
  obtain ⟨-, hcollected⟩ := hperm
  have hempty : p.shutdown.outstanding = [] := by
    simp [outstanding, running, waiting, Pool.delivered, Pool.shutdown, closed]
  refine ⟨?_, hb.tickets, hb.known, hb.queues, hb.collected, fun d hd => hb.ran d ?_,
    .inr ⟨rfl, rfl, hnone⟩⟩
  · rw [hempty, hnone, hcollected]
    exact .refl []
  · rcases List.mem_append.1 hd with hd | hd
    · simp [waiting, Pool.delivered, Pool.shutdown, closed] at hd
    · exact List.mem_append_right _ hd

theorem dispatch (hb : Balanced threads p h) (known : queue < p.queues.length)
    (ok : p.dispatch queue job = .ok p') :
    Balanced threads p' (h.accept ⟨p.accepted, queue, job⟩) := by
  -- Only the queue that the job is for has another count; the others have the same history as
  -- before.
  have hperm := outstanding_dispatch known ok
  obtain ⟨haccepting, q, hopen, rfl⟩ := dispatch_eq_ok known ok
  refine ⟨?conserved, ?tickets, ?known, ?queues, hb.collected, ?ran, ?staffed⟩
  case conserved =>
    refine (hperm.append_right _).trans ?_
    rw [List.append_assoc]
    refine (List.perm_append_comm.append_left _).trans ?_
    rw [← List.append_assoc]
    exact hb.conserved.append_right _
  case tickets =>
    simp only [History.accept, List.map_append, hb.tickets, List.range_succ]
    rfl
  case known =>
    intro t ht
    simp only [List.length_set]
    rcases List.mem_append.1 ht with ht | ht
    · exact hb.known t ht
    · rw [List.mem_singleton.1 ht]
      exact known
  case queues =>
    intro j q' hq'
    rcases getElem?_set_cases hq' with ⟨rfl, rfl⟩ | ⟨hj, hq'⟩
    · have hq := hb.queues j q hopen
      refine ⟨hq.delivered, hq.capacity, hq.room, ?_⟩
      rw [History.acceptedFor_accept_same h rfl, List.length_append, ← hq.pending]
      exact Nat.add_right_comm _ _ _
    · have hq := hb.queues j q' hq'
      refine ⟨hq.delivered, hq.capacity, hq.room, ?_⟩
      rw [History.acceptedFor_accept_other h (Ne.symm hj)]
      exact hq.pending
  case ran =>
    intro d hd
    refine hb.ran d ?_
    simp only [List.mem_append] at hd ⊢
    rcases hd with (hd | hd) | hd
    · exact .inl (.inl hd)
    · refine .inl (.inr ?_)
      rcases mem_flatMap_set hd with hd | hd
      · exact List.mem_flatMap.2 ⟨q, List.mem_of_getElem? hopen, hd⟩
      · exact hd
    · exact .inr hd
  case staffed =>
    rcases hb.staffed with hstaffed | ⟨-, hnot, -⟩
    · exact .inl hstaffed
    · rw [haccepting] at hnot
      cases hnot

theorem collect (hb : Balanced threads p h) (waited : p.isEmpty queue = false)
    (ok : p.collect? queue = some (d, p')) : Balanced threads p' (h.collect queue d) := by
  have hperm := outstanding_collect? ok
  obtain ⟨q, rest, hopen, hdelivered, rfl⟩ := collect?_eq_some ok
  have hq := hb.queues queue q hopen
  -- The count is lowered without a check, and that is right because the client looked at it.
  have hpending : q.pending ≠ 0 := by
    simpa [isEmpty, hopen] using waited
  have hd : d ∈ p.delivered :=
    List.mem_flatMap.2 ⟨q, List.mem_of_getElem? hopen, hdelivered ▸ List.mem_cons_self⟩
  refine ⟨?conserved, hb.tickets, ?known, ?queues, ?collected, ?ran, hb.staffed⟩
  case conserved =>
    refine List.Perm.trans ?_ hb.conserved
    simp only [History.collect, List.map_append, List.map_cons, List.map_nil]
    rw [← List.append_assoc]
    refine (List.perm_append_singleton _ _).trans ?_
    rw [← List.cons_append]
    exact hperm.append_right _
  case known =>
    intro t ht
    rw [List.length_set]
    exact hb.known t ht
  case queues =>
    intro j q' hq'
    rcases getElem?_set_cases hq' with ⟨rfl, rfl⟩ | ⟨hj, hq'⟩
    · have hroom := hq.room
      have hbalance := hq.pending
      refine ⟨fun e he => hq.delivered e (hdelivered ▸ List.mem_cons_of_mem _ he), hq.capacity,
        ?_, ?_⟩
      · rw [hdelivered, List.length_cons] at hroom
        exact Nat.le_of_succ_le hroom
      · rw [History.collectedFrom_collect_same, List.length_append, List.length_singleton]
        change q.pending - 1 + _ = (h.acceptedFor j).length
        omega
    · have hq := hb.queues j q' hq'
      refine ⟨hq.delivered, hq.capacity, hq.room, ?_⟩
      rw [History.collectedFrom_collect_other h d (Ne.symm hj)]
      exact hq.pending
  case collected =>
    intro c hc
    rcases List.mem_append.1 hc with hc | hc
    · exact hb.collected c hc
    · rw [List.mem_singleton.1 hc]
      exact hq.delivered d (hdelivered ▸ List.mem_cons_self)
  case ran =>
    intro e he
    refine hb.ran e ?_
    simp only [List.mem_append, History.collect, List.map_append, List.map_cons, List.map_nil,
      List.mem_singleton] at he ⊢
    rcases he with (he | he) | he | rfl
    · exact .inl (.inl he)
    · refine .inl (.inr ?_)
      rcases mem_flatMap_set he with he | he
      · exact List.mem_flatMap.2
          ⟨q, List.mem_of_getElem? hopen, hdelivered ▸ List.mem_cons_of_mem _ he⟩
      · exact he
    · exact .inr he
    · exact .inl (.inr hd)

/-- Only the workers that the pool was made with run jobs. -/
theorem ran_of_running (hb : Balanced threads p h) (worker : p.workers[w]? = some (.running t)) :
    (⟨t, (t.job (workerName w) p.state).1⟩ : Delivery σ ρ).Ran threads := by
  obtain ⟨hlt, -⟩ := List.getElem?_eq_some_iff.1 worker
  rcases hb.staffed with hstaffed | ⟨-, -, hnone⟩
  · exact ⟨w, hstaffed ▸ hlt, p.state, rfl⟩
  · -- A pool without workers never accepted a job.
    have ht : t ∈ p.running :=
      List.mem_flatMap.2 ⟨_, List.mem_of_getElem? worker, List.mem_singleton_self t⟩
    have haccepted : t ∈ h.accepted := hb.conserved.mem_iff.1
      (List.mem_append_left _ (List.mem_append_left _ (List.mem_append_right _ ht)))
    rw [hnone] at haccepted
    cases haccepted

theorem moved (hb : Balanced threads p h) (hm : Moved p p') : Balanced threads p' h := by
  have hperm := hm.outstanding
  have hconserved : (p'.outstanding ++ h.collected.map fun c => c.2.task).Perm h.accepted :=
    (hperm.append_right _).trans hb.conserved
  cases hm with
  | @take w t rest worker tasks =>
    refine ⟨hconserved, hb.tickets, hb.known, hb.queues, hb.collected, fun d hd => hb.ran d ?_, ?_⟩
    · simp only [List.mem_append] at hd ⊢
      rcases hd with (hd | hd) | hd
      · rcases mem_flatMap_set hd with hd | hd
        · cases hd
        · exact .inl (.inl hd)
      · exact .inl (.inr hd)
      · exact .inr hd
    · rw [List.length_set]
      exact hb.staffed
  | @finish w t worker =>
    refine ⟨hconserved, hb.tickets, hb.known, hb.queues, hb.collected, fun d hd => ?_, ?_⟩
    · simp only [List.mem_append] at hd
      rcases hd with (hd | hd) | hd
      · rcases mem_flatMap_set hd with hd | hd
        · rw [List.mem_singleton.1 hd]
          exact hb.ran_of_running worker
        · exact hb.ran d (List.mem_append_left _ (List.mem_append_left _ hd))
      · exact hb.ran d (List.mem_append_left _ (List.mem_append_right _ hd))
      · exact hb.ran d (List.mem_append_right _ hd)
    · rw [List.length_set]
      exact hb.staffed
  | @deliver w d q worker isOpen room =>
    have hd : d ∈ p.waiting :=
      List.mem_flatMap.2 ⟨_, List.mem_of_getElem? worker, List.mem_singleton_self d⟩
    have hq := hb.queues d.task.queue q isOpen
    refine ⟨hconserved, hb.tickets, ?known, ?queues, hb.collected, fun e he => hb.ran e ?ran,
      ?staffed⟩
    case known =>
      intro t ht
      rw [List.length_set]
      exact hb.known t ht
    case queues =>
      intro j q' hq'
      rcases getElem?_set_cases hq' with ⟨rfl, rfl⟩ | ⟨hj, hq'⟩
      · refine ⟨fun e he => ?_, hq.capacity, ?_, hq.pending⟩
        · rcases List.mem_append.1 he with he | he
          · exact hq.delivered e he
          · rw [List.mem_singleton.1 he]
        · rw [List.length_append]
          exact room
      · exact hb.queues j q' hq'
    case ran =>
      simp only [List.mem_append] at he ⊢
      rcases he with (he | he) | he
      · rcases mem_flatMap_set he with he | he
        · cases he
        · exact .inl (.inl he)
      · rcases mem_flatMap_set he with he | he
        · rcases List.mem_append.1 he with he | he
          · exact .inl (.inr (List.mem_flatMap.2 ⟨q, List.mem_of_getElem? isOpen, he⟩))
          · rw [List.mem_singleton.1 he]
            exact .inl (.inl hd)
        · exact .inl (.inr he)
      · exact .inr he
    case staffed =>
      rw [List.length_set]
      exact hb.staffed

end Balanced

theorem Run.balanced (run : Run threads s p h) : Balanced threads p h := by
  induction run with
  | create => exact .create threads s
  | openQueue _ capacity ih => exact ih.openQueue capacity
  | shutdown _ closed ih => exact ih.shutdown closed
  | dispatch _ known ok ih => exact ih.dispatch known ok
  | move _ moved ih => exact ih.moved (moved_of_move? moved)
  | collect _ outstanding ok ih => exact ih.collect outstanding ok

/-! ## What is pending

The count that a queue keeps is compared with what is in the pool. It is a difference of two numbers
of the history, and by `conserved` that difference is what is outstanding for the queue. -/

/-- The jobs for a queue that are somewhere in the pool, or whose results are. -/
def outstandingFor (p : Pool σ ρ) (queue : Nat) : List (Task σ ρ) :=
  p.outstanding.filter fun t => t.queue == queue

/-- Where each queue has nothing but results for it, all results for a queue are in it. -/
theorem filter_flatMap_delivered {qs : List (Queue σ ρ)} {n j : Nat}
    (hown : ∀ (k : Nat) (q : Queue σ ρ), qs[k]? = some q → ∀ d ∈ q.delivered, d.task.queue = n + k)
    (hq : qs[j]? = some q) :
    (qs.flatMap Queue.delivered).filter (fun d => d.task.queue == n + j) = q.delivered := by
  -- On the queues, with `n` for those that were passed already.
  induction qs generalizing n j with
  | nil => simp at hq
  | cons first rest ih =>
    have hfirst := hown 0 first rfl
    have hrest : ∀ (k : Nat) (q : Queue σ ρ), rest[k]? = some q → ∀ d ∈ q.delivered,
        d.task.queue = n + 1 + k := by
      intro k q hk d hd
      rw [hown (k + 1) q hk d hd, Nat.add_assoc, Nat.add_comm 1 k]
    rw [List.flatMap_cons, List.filter_append]
    cases j with
    | zero =>
      obtain rfl := Option.some.inj hq
      have hall : first.delivered.filter (fun d => d.task.queue == n + 0) = first.delivered :=
        List.filter_eq_self.2 fun d hd => beq_iff_eq.2 (hfirst d hd)
      have hnone : (rest.flatMap Queue.delivered).filter (fun d => d.task.queue == n + 0) = [] := by
        refine List.filter_eq_nil_iff.2 fun d hd => ?_
        obtain ⟨q, hmem, hd⟩ := List.mem_flatMap.1 hd
        obtain ⟨k, hk⟩ := List.mem_iff_getElem?.1 hmem
        have := hrest k q hk d hd
        simp only [beq_iff_eq]
        omega
      rw [hall, hnone, List.append_nil]
    | succ j =>
      have hnone : first.delivered.filter (fun d => d.task.queue == n + (j + 1)) = [] := by
        refine List.filter_eq_nil_iff.2 fun d hd => ?_
        have := hfirst d hd
        simp only [beq_iff_eq]
        omega
      rw [hnone, List.nil_append, ← ih hrest hq, Nat.add_assoc, Nat.add_comm 1 j]

namespace Balanced

theorem filter_delivered (hb : Balanced threads p h) (hq : p.queues[queue]? = some q) :
    p.delivered.filter (fun d => d.task.queue == queue) = q.delivered := by
  have hown : ∀ (k : Nat) (q : Queue σ ρ), p.queues[k]? = some q → ∀ d ∈ q.delivered,
      d.task.queue = 0 + k := fun k q hk d hd => by
    rw [Nat.zero_add]
    exact (hb.queues k q hk).delivered d hd
  have hfilter := filter_flatMap_delivered hown hq
  rw [Nat.zero_add] at hfilter
  exact hfilter

/-- Every job that was accepted for a queue is outstanding, or its result was collected from there.
-/
theorem perm_for (hb : Balanced threads p h) (queue : Nat) :
    (p.outstandingFor queue ++ (h.collectedFrom queue).map Delivery.task).Perm
      (h.acceptedFor queue) := by
  have hcollected : (h.collected.map fun c => c.2.task).filter (fun t => t.queue == queue) =
      (h.collectedFrom queue).map Delivery.task := by
    rw [List.filter_map, History.collectedFrom, List.map_map]
    refine congrArg (List.map _) (List.filter_congr fun c hc => ?_)
    simp only [Function.comp, hb.collected c hc]
  rw [← hcollected]
  exact List.filter_append .. ▸ hb.conserved.filter _

/-- **What a queue has pending is on its way to it.** -/
theorem pending_eq (hb : Balanced threads p h) (hq : p.queues[queue]? = some q) :
    q.pending = (p.outstandingFor queue).length := by
  have hlength := (hb.perm_for queue).length_eq
  have hpending := (hb.queues queue q hq).pending
  rw [List.length_append, List.length_map] at hlength
  omega

theorem length_outstandingFor (hb : Balanced threads p h) (hq : p.queues[queue]? = some q) :
    (p.outstandingFor queue).length =
      (p.tasks.filter fun t => t.queue == queue).length +
        (p.running.filter fun t => t.queue == queue).length +
        (p.waiting.filter fun d => d.task.queue == queue).length + q.delivered.length := by
  have hdelivered := hb.filter_delivered hq
  simp only [outstandingFor, outstanding, List.filter_append, List.length_append, List.map_append,
    List.filter_map, List.length_map, Function.comp_def, hdelivered, Nat.add_assoc]

theorem isEmpty_iff (hb : Balanced threads p h) (known : queue < p.queues.length) :
    p.isEmpty queue ↔ p.outstandingFor queue = [] := by
  have hq := List.getElem?_eq_getElem known
  have hpending := hb.pending_eq hq
  rw [isEmpty, hq, ← List.length_eq_zero_iff, ← hpending]
  exact beq_iff_eq

/-- No job has its result collected twice. -/
theorem nodup_collected (hb : Balanced threads p h) :
    (h.collected.map fun c => c.2.task.ticket).Nodup := by
  have hall : ((p.outstanding ++ h.collected.map fun c => c.2.task).map Task.ticket).Nodup := by
    rw [(hb.conserved.map Task.ticket).nodup_iff, hb.tickets]
    exact List.nodup_range
  rw [List.map_append, List.map_map] at hall
  exact hall.of_append_right

end Balanced

end Pool

end ArenaAlloc

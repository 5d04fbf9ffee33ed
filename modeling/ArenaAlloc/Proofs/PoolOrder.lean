import ArenaAlloc.Pool.Job
import ArenaAlloc.Proofs.PoolCalls
import ArenaAlloc.Proofs.ProcessEffect

/-!
# One worker

With one worker the jobs run in the order of their dispatch, whichever queue they are for, and
however long the worker has to wait for room in one. So what comes of them is `serial`: all jobs one
after another on one thread. Results of a queue come in that order too (`Run.inOrder`).

`Run.results_conserved` has everything about what becomes of results.

With several workers nothing is said of an order, because there is none: a job that was dispatched
later may be finished first. With one there is no choice but between letting it move and letting the
client act, and neither changes the order of the jobs.

A job runs in the process that all workers share, and on its worker's thread. `Routine.KeepsTo` says
that it leaves the arenas of other threads alone, which is a fact about each job of a script
(`Job.keepsTo`) and an assumption about others. With one worker there is then no arena but that
worker's, whatever was dispatched.
-/

namespace ArenaAlloc

namespace Pool

variable {σ ρ : Type}

/-! ## Jobs one after another

`serial` is what there would be without a pool: a loop over the jobs. Everything about order is
stated in terms of it. -/

/-- Jobs run one after another on one thread: what comes of each, and the state that they leave. -/
def serial (thread : String) (s : σ) : List (Task σ ρ) → List (Delivery σ ρ) × σ
  | [] => ([], s)
  | t :: rest =>
    let o := t.job thread s
    let after := serial thread o.2 rest
    (⟨t, o.1⟩ :: after.1, after.2)

/-- A job leaves the slots of other threads alone, in the process that is part of the state. -/
def Routine.KeepsTo (process : σ → Process) (job : Routine σ ρ) : Prop :=
  ∀ thread s other, other ≠ thread →
    (process (job thread s).2).slot? other = (process s).slot? other

variable {thread : String} {threads : Nat} {s : σ} {p p' : Pool σ ρ} {h : History σ ρ}
  {queue w : Nat} {t : Task σ ρ} {d : Delivery σ ρ} {ts finished : List (Task σ ρ)} {q : Queue σ ρ}

theorem serial_append (thread : String) (s : σ) (xs ys : List (Task σ ρ)) :
    serial thread s (xs ++ ys) =
      ((serial thread s xs).1 ++ (serial thread (serial thread s xs).2 ys).1,
        (serial thread (serial thread s xs).2 ys).2) := by
  induction xs generalizing s with
  | nil => rfl
  | cons t rest ih =>
    simp only [List.cons_append, serial, ih]

theorem map_task_serial (thread : String) (s : σ) (ts : List (Task σ ρ)) :
    (serial thread s ts).1.map Delivery.task = ts := by
  induction ts generalizing s with
  | nil => rfl
  | cons t rest ih => simp only [serial, List.map_cons, ih]

theorem map_task_filter_serial (thread : String) (s : σ) (ts : List (Task σ ρ)) (queue : Nat) :
    ((serial thread s ts).1.filter fun d => d.task.queue == queue).map Delivery.task =
      ts.filter fun t => t.queue == queue := by
  have hfilter := List.filter_map (p := fun t : Task σ ρ => t.queue == queue) (f := Delivery.task)
    (l := (serial thread s ts).1)
  rw [map_task_serial] at hfilter
  exact hfilter.symm

theorem slot?_serial {process : σ → Process} (hkeeps : ∀ t ∈ ts, t.job.KeepsTo process)
    {other : String} (hother : other ≠ thread) (s : σ) :
    (process (serial thread s ts).2).slot? other = (process s).slot? other := by
  induction ts generalizing s with
  | nil => rfl
  | cons t rest ih =>
    have hrest := ih (fun t ht => hkeeps t (List.mem_cons_of_mem _ ht)) (t.job thread s).2
    exact hrest.trans (hkeeps t List.mem_cons_self thread s other hother)

theorem slot?_withExisting {α : Type} (p : Process) {other : String} (hother : other ≠ thread)
    (body : Arena → Outcome Arena α) :
    (p.withExisting thread body).state.slot? other = p.slot? other := by
  unfold Process.withExisting
  split
  · exact (Table.find?_set_other hother).trans (Table.find?_set_other hother)
  · rfl

/-- The jobs of a script keep to their thread. -/
theorem Job.keepsTo (job : Job) : job.routine.KeepsTo id := by
  intro thread p other hother
  change (job.run thread p).2.slot? other = p.slot? other
  cases job with
  | square n => rfl
  | name => rfl
  | allocate size => exact (p.effect_allocate thread size).slot?_other hother
  | reset => exact (p.effect_reset thread).slot?_other hother
  | scratch length seed =>
    change (runScratch p thread length seed).2.slot? other = p.slot? other
    have hzeros := (p.effect_zeroAllocate thread length 1).slot?_other hother
    unfold runScratch
    dsimp only
    split
    · exact hzeros
    · rename_i zeros _
      split
      · rw [(Process.effect_reallocate _ thread (some zeros) (4 * length)).slot?_other hother,
          slot?_withExisting _ hother, hzeros]
      · rename_i longer _
        rw [(Process.effect_free _ thread (some longer)).slot?_other hother,
          slot?_withExisting _ hother,
          (Process.effect_reallocate _ thread (some zeros) (4 * length)).slot?_other hother,
          slot?_withExisting _ hother, hzeros]

/-! ## In the order of dispatch

`InOrder` splits the accepted jobs into those that are finished, the one that is running and those
in line, in this order. The state is that of the finished ones. The results of each queue, wherever
they are, are the finished ones for it, so collecting one or moving one into the queue only shifts a
boundary. -/

/-- These jobs are finished, the ones that were accepted first, and nothing else has happened to the
state. What came of them is in order in what was collected from their queue, what is in it, and what
the worker has in hand. -/
structure InOrder (s : σ) (p : Pool σ ρ) (h : History σ ρ) (finished : List (Task σ ρ)) : Prop where
  split : h.accepted = finished ++ p.running ++ p.tasks
  state : p.state = (serial (workerName 0) s finished).2
  queues : ∀ (j : Nat) (q : Queue σ ρ), p.queues[j]? = some q →
    h.collectedFrom j ++ q.delivered ++ (p.waiting.filter fun d => d.task.queue == j) =
      (serial (workerName 0) s finished).1.filter fun d => d.task.queue == j

theorem eq_singleton_of_getElem? {α : Type} {l : List α} {i : Nat} {a : α} (hl : l.length ≤ 1)
    (h : l[i]? = some a) : i = 0 ∧ l = [a] := by
  match l, hl with
  | [], _ => simp at h
  | [b], _ =>
    cases i with
    | zero => exact ⟨rfl, congrArg (fun c => [c]) (Option.some.inj h)⟩
    | succ i => simp at h

namespace InOrder

theorem create (threads : Nat) (s : σ) :
    InOrder s (Pool.create threads s : Pool σ ρ) {} [] where
  split := by simp [running, Pool.create, Worker.task]
  state := rfl
  queues _ _ hq := by cases hq

theorem openQueue (ho : InOrder s p h finished) (hb : Balanced threads p h) (capacity : Nat) :
    InOrder s (p.openQueue capacity) h finished := by
  refine ⟨ho.split, ho.state, fun j q hq => ?_⟩
  rcases getElem?_concat_cases hq with hq | ⟨rfl, rfl⟩
  · exact ho.queues j q hq
  · -- Nothing was accepted for the new queue, so nothing that is finished is for it.
    obtain ⟨haccepted, hcollected⟩ := hb.unopened
    have hwaiting : (p.waiting.filter fun d => d.task.queue == p.queues.length) = [] := by
      refine List.filter_eq_nil_iff.2 fun d hd => ?_
      have := hb.known _ (hb.mem_accepted_of_waiting hd)
      simp only [beq_iff_eq]
      omega
    have hfinished : (finished.filter fun t => t.queue == p.queues.length) = [] := by
      rw [History.acceptedFor, ho.split, List.append_assoc, List.filter_append,
        List.append_eq_nil_iff] at haccepted
      exact haccepted.1
    have hserial := map_task_filter_serial (workerName 0) s finished p.queues.length
    rw [hfinished, List.map_eq_nil_iff] at hserial
    rw [hserial, hcollected]
    exact hwaiting

theorem dispatch (ho : InOrder s p h finished) (known : queue < p.queues.length)
    {job : Routine σ ρ} (ok : p.dispatch queue job = .ok p') :
    InOrder s p' (h.accept ⟨p.accepted, queue, job⟩) finished := by
  obtain ⟨-, q, hopen, rfl⟩ := dispatch_eq_ok known ok
  refine ⟨?_, ho.state, fun j q' hq' => ?_⟩
  · simp only [History.accept, ho.split, List.append_assoc]
    rfl
  · rcases getElem?_set_cases hq' with ⟨rfl, rfl⟩ | ⟨-, hq'⟩
    · exact ho.queues _ q hopen
    · exact ho.queues j q' hq'

theorem collect (ho : InOrder s p h finished) (ok : p.collect? queue = some (d, p')) :
    InOrder s p' (h.collect queue d) finished := by
  obtain ⟨q, rest, hopen, hdelivered, rfl⟩ := collect?_eq_some ok
  refine ⟨ho.split, ho.state, fun j q' hq' => ?_⟩
  rcases getElem?_set_cases hq' with ⟨rfl, rfl⟩ | ⟨hj, hq'⟩
  · have hqueue := ho.queues _ q hopen
    rw [hdelivered, List.append_cons] at hqueue
    rw [History.collectedFrom_collect_same]
    exact hqueue
  · rw [History.collectedFrom_collect_other h d (Ne.symm hj)]
    exact ho.queues j q' hq'

/-- **One move of the only worker.** -/
theorem moved (ho : InOrder s p h finished) (hone : p.workers.length ≤ 1) (hm : Moved p p') :
    ∃ finished, InOrder s p' h finished := by
  obtain ⟨hsplit, hstate, hqueues⟩ := ho
  cases hm with
  | @take w t rest worker tasks =>
    obtain ⟨rfl, hworkers⟩ := eq_singleton_of_getElem? hone worker
    refine ⟨finished, ?_, hstate, fun j q hq => ?_⟩
    · rw [hsplit]
      simp [running, hworkers, tasks, Worker.task]
    · have := hqueues j q hq
      simp only [waiting, hworkers] at this ⊢
      exact this
  | @finish w t worker =>
    obtain ⟨rfl, hworkers⟩ := eq_singleton_of_getElem? hone worker
    -- It is the next job in order, and it ran on the state that those before it left.
    have hserial := serial_append (workerName 0) s finished [t]
    simp only [serial, ← hstate] at hserial
    refine ⟨finished ++ [t], ?_, ?_, fun j q hq => ?_⟩
    · rw [hsplit]
      simp [running, hworkers, Worker.task]
    · rw [hserial]
    · have := hqueues j q hq
      simp only [waiting, hworkers] at this ⊢
      rw [hserial, List.filter_append, ← this]
      simp [Worker.inHand]
  | @deliver w d q worker isOpen room =>
    obtain ⟨rfl, hworkers⟩ := eq_singleton_of_getElem? hone worker
    -- What the worker had in hand came after all that is in its queue, and now is last in there.
    refine ⟨finished, ?_, hstate, fun j q' hq' => ?_⟩
    · simp only [running, hworkers] at hsplit ⊢
      exact hsplit
    · rcases getElem?_set_cases hq' with ⟨rfl, rfl⟩ | ⟨hj, hq'⟩
      · have := hqueues _ q isOpen
        simp only [waiting, hworkers] at this ⊢
        rw [← this]
        simp [Worker.inHand]
      · have := hqueues j q' hq'
        simp only [waiting, hworkers] at this ⊢
        rw [← this]
        simp [Worker.inHand, Ne.symm hj]

theorem shutdown (ho : InOrder s p h finished) (hb : Balanced threads p h)
    (closed : p.queues = []) : InOrder s p.shutdown h finished := by
  have hnone : h.accepted = [] := hb.accepted_of_closed closed
  have hsplit := ho.split
  rw [hnone, List.append_assoc] at hsplit
  obtain ⟨rfl, -⟩ := List.append_eq_nil_iff.1 hsplit.symm
  refine ⟨?_, ho.state, fun j q hq => ?_⟩
  · rw [hnone]
    rfl
  · rw [show p.shutdown.queues = [] from closed] at hq
    cases hq

end InOrder

theorem Run.inOrder (run : Run threads s p h) (hone : threads ≤ 1) :
    ∃ finished, InOrder s p h finished := by
  induction run with
  | create => exact ⟨[], .create threads s⟩
  | openQueue run capacity ih =>
    obtain ⟨finished, ho⟩ := ih
    exact ⟨finished, ho.openQueue run.balanced capacity⟩
  | shutdown run closed ih =>
    obtain ⟨finished, ho⟩ := ih
    exact ⟨finished, ho.shutdown run.balanced closed⟩
  | dispatch _ known ok ih =>
    obtain ⟨finished, ho⟩ := ih
    exact ⟨finished, ho.dispatch known ok⟩
  | move run moved ih =>
    obtain ⟨finished, ho⟩ := ih
    have hworkers := run.balanced.length_workers
    exact ho.moved (hworkers.trans (Nat.max_le.2 ⟨hone, Nat.le_refl 1⟩)) (moved_of_move? moved)
  | collect _ _ ok ih =>
    obtain ⟨finished, ho⟩ := ih
    exact ⟨finished, ho.collect ok⟩

/-- What was collected from a queue are the first of its results, in the order of dispatch. -/
theorem InOrder.collected (ho : InOrder s p h finished) (hq : p.queues[queue]? = some q) :
    h.collectedFrom queue <+:
      (serial (workerName 0) s h.accepted).1.filter fun d => d.task.queue == queue := by
  have hall := serial_append (workerName 0) s finished (p.running ++ p.tasks)
  rw [← List.append_assoc, ← ho.split] at hall
  rw [hall, List.filter_append, ← ho.queues queue q hq, List.append_assoc, List.append_assoc]
  exact List.prefix_append _ _

/-- **What becomes of results.** After any run of a pool, with any number of workers:
* What a queue has pending is what was accepted for it and not collected from it: its jobs that wait
  for a worker or are running, and its results that wait for room in it or to be collected.
* No job has its result collected twice, or from another queue than its own, and it is what the job
  came to on one of the workers.
* The client can wait for a result while the workers move. There is none only when none is
  outstanding. It can also wait for all, and then has exactly those that were outstanding. If the
  other queues have room for what is pending for them, neither waits in vain.
* Workers do not see the counts, so it makes no difference when in a call they change.

With one worker, what is collected from a queue are the first of its results in the order of
dispatch, and those are what comes of running all jobs in that order one after another. If the jobs
keep to their thread, there is no arena but that of the one worker. -/
theorem Run.results_conserved (run : Run threads s p h) :
    (∀ (j : Nat) (q : Queue σ ρ), p.queues[j]? = some q →
      q.pending + (h.collectedFrom j).length = (h.acceptedFor j).length ∧
      q.pending = (p.tasks.filter fun t => t.queue == j).length +
        (p.running.filter fun t => t.queue == j).length +
        (p.waiting.filter fun d => d.task.queue == j).length + q.delivered.length) ∧
    ((h.accepted.map Task.ticket).Nodup ∧ (h.collected.map fun c => c.2.task.ticket).Nodup ∧
      ∀ c ∈ h.collected, c.2.task ∈ h.accepted ∧ c.2.task.queue = c.1 ∧ c.2.Ran threads) ∧
    (∀ queue < p.queues.length,
      (p.isEmpty queue ↔ p.outstandingFor queue = []) ∧
      (∀ r p', Next queue p r p' → Run threads s p' (h.collectAll queue r.toList) ∧
        (r = none ↔ p.outstandingFor queue = [])) ∧
      (∀ ds p', Flush queue p ds p' → Run threads s p' (h.collectAll queue ds) ∧
        (ds.map Delivery.task).Perm (p.outstandingFor queue) ∧ p'.outstandingFor queue = []) ∧
      (p.Uncrowded queue → (∃ r, Next queue p r (p.next queue).2 ∧
          (p.next queue).1 = r.map Delivery.result) ∧
        ∃ ds, Flush queue p ds (p.flush queue).2 ∧
          (p.flush queue).1 = ds.map Delivery.result)) ∧
    (∀ m queue f, (p.recount queue f).move? m = (p.move? m).map fun p' => p'.recount queue f) ∧
    (threads ≤ 1 →
      (∀ (j : Nat) (q : Queue σ ρ), p.queues[j]? = some q →
        (h.collectedFrom j <+:
          (serial (workerName 0) s h.accepted).1.filter fun d => d.task.queue == j) ∧
        (h.collectedFrom j).map Delivery.task <+: h.acceptedFor j) ∧
      ∀ process : σ → Process, (∀ t ∈ h.accepted, t.job.KeepsTo process) →
        (process s).slots = [] → ∀ thread, thread ≠ workerName 0 →
          (process p.state).slot? thread = none) := by
  have hb := run.balanced
  refine ⟨?counts, ⟨?tickets, hb.nodup_collected, ?collected⟩, ?calls,
    fun m queue f => p.move?_recount m queue f, fun hone => ⟨?order, ?arena⟩⟩
  case counts =>
    intro j q hq
    exact ⟨(hb.queues j q hq).pending, (hb.pending_eq hq).trans (hb.length_outstandingFor hq)⟩
  case tickets =>
    rw [hb.tickets]
    exact List.nodup_range
  case collected =>
    intro c hc
    refine ⟨hb.mem_accepted hc, hb.collected c hc, hb.ran _ ?_⟩
    exact List.mem_append_right _ (List.mem_map.2 ⟨c, hc, rfl⟩)
  case calls =>
    intro queue known
    exact ⟨hb.isEmpty_iff known,
      fun r p' hnext => ⟨run.next hnext, hnext.eq_none_iff run known⟩,
      fun ds p' hflush => ⟨run.flush hflush, hflush.perm_outstanding run known⟩,
      fun hu => ⟨run.next_of_uncrowded known hu, run.flush_of_uncrowded known hu⟩⟩
  case order =>
    intro j q hq
    obtain ⟨finished, ho⟩ := run.inOrder hone
    have hfirst := ho.collected hq
    refine ⟨hfirst, ?_⟩
    have htasks := hfirst.map Delivery.task
    rwa [map_task_filter_serial] at htasks
  case arena =>
    intro process hkeeps hslots thread hthread
    obtain ⟨finished, ho⟩ := run.inOrder hone
    have hfinished : ∀ t ∈ finished, t.job.KeepsTo process := fun t ht => hkeeps t (by
      rw [ho.split, List.append_assoc]
      exact List.mem_append_left _ ht)
    rw [ho.state, slot?_serial hfinished hthread, Process.slot?, hslots]
    rfl

/-- One worker and two queues for one result each. Of three jobs the second one is for the other
queue, and the first result is collected while the worker has the last one in hand. -/
theorem Run.results_conserved_of_run :
    ∃ (p : Pool Process JobResult) (h : History Process JobResult),
      Run 0 (Process.fresh .unlimited) p h ∧
        h.accepted.map (fun t => (t.ticket, t.queue)) = [(0, 0), (1, 1), (2, 0)] ∧
        h.collected.map (fun c => (c.1, c.2.task.ticket)) = [(0, 0)] ∧
        (h.collectedFrom 0).map Delivery.task <+: h.acceptedFor 0 ∧
        p.outstandingFor 0 ≠ [] ∧ (∃ ds, Flush 0 p ds (p.flush 0).2) ∧
        p.state.slot? "main" = none := by
  have opened : Run 0 (Process.fresh .unlimited) (_ : Pool Process JobResult) {} :=
    (Run.create.openQueue 1).openQueue 0
  have dispatched := ((opened.dispatch (by decide)
      (rfl : Pool.dispatch _ 0 (Job.allocate 100).routine = .ok _)).dispatch (by decide)
      (rfl : Pool.dispatch _ 1 Job.reset.routine = .ok _)).dispatch (by decide)
      (rfl : Pool.dispatch _ 0 Job.name.routine = .ok _)
  have first := ((dispatched.move (rfl : Pool.move? _ (.take 0) = some _)).move
    (rfl : Pool.move? _ (.finish 0) = some _)).move (rfl : Pool.move? _ (.deliver 0) = some _)
  have second := ((first.move (rfl : Pool.move? _ (.take 0) = some _)).move
    (rfl : Pool.move? _ (.finish 0) = some _)).move (rfl : Pool.move? _ (.deliver 0) = some _)
  have third := (second.move (rfl : Pool.move? _ (.take 0) = some _)).move
    (rfl : Pool.move? _ (.finish 0) = some _)
  have run := third.collect rfl (rfl : Pool.collect? _ 0 = some _)
  obtain ⟨-, -, hcalls, -, hone⟩ := run.results_conserved
  obtain ⟨horder, harena⟩ := hone (by decide)
  obtain ⟨hempty, -, -, hwaits⟩ := hcalls 0 (by decide)
  refine ⟨_, _, run, rfl, rfl, (horder 0 _ rfl).2, fun hnone => ?outstanding, ?flush, ?arena⟩
  case outstanding => cases hempty.2 hnone
  case flush =>
    refine (hwaits fun j q hj hq => ?_).2.imp fun ds hflush => hflush.1
    have hlt : j < 2 := (List.getElem?_eq_some_iff.1 hq).1
    obtain rfl : j = 1 := by omega
    have hroom : 1 ≤ 1 := Nat.le_refl 1
    exact Option.some.inj hq ▸ hroom
  case arena =>
    refine harena id (fun t ht => ?_) rfl "main" (by decide)
    simp only [History.collect, History.accept, List.nil_append, List.cons_append, List.mem_cons,
      List.not_mem_nil, or_false] at ht
    rcases ht with rfl | rfl | rfl
    · exact Job.keepsTo _
    · exact Job.keepsTo _
    · exact Job.keepsTo _

end Pool

end ArenaAlloc

import ArenaAlloc.Proofs.PoolRuns
import Mathlib.Logic.Relation

/-!
# Calls that wait

The client of a pool waits for one result, or for all that are outstanding (`Next`, `Flush`), while
the workers move in any order. What these calls come to is again a run of the pool. There is no
result only when none is outstanding (`Next.eq_none_iff`), and all of them are those that were
outstanding (`Flush.perm_outstanding`).

Waiting can be in vain when every worker waits too, for room in another queue (`Blocked`). That is
the only way (`Run.blocked_of_stuck`), and it does not happen while all other queues have room for
what is pending for them (`Run.not_blocked`). The schedule by which a script is carried out is one
of the possible ones (`Run.next_cases`, `Run.flush_of_uncrowded`).

`Next` and `Flush` are relations and not functions, as what a call comes to depends on how the
workers move meanwhile. A theorem about all of what a call may come to is one about every schedule.
The functions that a script uses (`Pool.next`, `Pool.flush`) choose one schedule, and for them it is
shown that what they choose is allowed, where anything is.

No time is modelled. To wait is to let workers move any number of times before a result is
collected. That a wait ends is said of the schedule where the first worker that can move does, which
is finite (`work_move?`); if nobody can move then and there is no result to collect, the pool is
blocked, and no other schedule would help.
-/

namespace ArenaAlloc

namespace Pool

variable {σ ρ : Type} {threads : Nat} {s : σ} {p p' : Pool σ ρ} {h : History σ ρ} {queue w : Nat}
  {d : Delivery σ ρ} {r : Option (Delivery σ ρ)} {ds : List (Delivery σ ρ)} {q : Queue σ ρ}
  {m : Move}

/-- Any number of moves. -/
def Moves : Pool σ ρ → Pool σ ρ → Prop := Relation.ReflTransGen fun p p' => ∃ m, p.move? m = some p'

/-- The client asks for the next result of a queue, and waits for it if one is outstanding. -/
inductive Next (queue : Nat) : Pool σ ρ → Option (Delivery σ ρ) → Pool σ ρ → Prop
  | nothing {p : Pool σ ρ} (empty : p.isEmpty queue = true) : Next queue p none p
  | result {p p' p'' : Pool σ ρ} {d : Delivery σ ρ} (outstanding : p.isEmpty queue = false)
      (moves : Moves p p') (ok : p'.collect? queue = some (d, p'')) : Next queue p (some d) p''

/-- The client asks for results of a queue until there is none. -/
inductive Flush (queue : Nat) : Pool σ ρ → List (Delivery σ ρ) → Pool σ ρ → Prop
  | done {p p' : Pool σ ρ} (last : Next queue p none p') : Flush queue p [] p'
  | more {p p' p'' : Pool σ ρ} {d : Delivery σ ρ} {ds : List (Delivery σ ρ)}
      (first : Next queue p (some d) p') (rest : Flush queue p' ds p'') :
      Flush queue p (d :: ds) p''

/-! ## Counts are the client's

The count of a queue is raised before the job is sent and lowered after the result was received, and
workers may move in between. That they do not look at it makes it unimportant where exactly it is
changed, so that dispatching and collecting can be single steps. -/

/-- The number of pending results of a queue, changed by `f`. -/
def recount (p : Pool σ ρ) (queue : Nat) (f : Nat → Nat) : Pool σ ρ :=
  { p with queues := p.queues.modify queue fun q => { q with pending := f q.pending } }

theorem modify_set_same {α : Type} (l : List α) (i : Nat) (f : α → α) (a : α) :
    (l.set i a).modify i f = (l.modify i f).set i (f a) := by
  ext1 k
  simp only [List.getElem?_modify, List.getElem?_set, List.length_modify]
  grind

theorem modify_set_other {α : Type} {l : List α} {i j : Nat} (hij : i ≠ j) (f : α → α) (a : α) :
    (l.set j a).modify i f = (l.modify i f).set j a := by
  ext1 k
  simp only [List.getElem?_modify, List.getElem?_set, List.length_modify]
  grind

/-- Workers neither read the counts nor change them. So it makes no difference when in a call the
client changes one. -/
theorem move?_recount (p : Pool σ ρ) (m : Move) (queue : Nat) (f : Nat → Nat) :
    (p.recount queue f).move? m = (p.move? m).map fun p' => p'.recount queue f := by
  cases m with
  | take w =>
    simp only [move?, recount]
    split <;> rfl
  | finish w =>
    simp only [move?, recount]
    split <;> rfl
  | deliver w =>
    simp only [move?, recount]
    cases hworker : p.workers[w]? with
    | none => rfl
    | some x =>
      cases x with
      | idle => rfl
      | running t => rfl
      | delivering d =>
        simp only [List.getElem?_modify]
        cases hq : p.queues[d.task.queue]? with
        | none => rfl
        | some q =>
          -- The queue that gets the result may be the one whose count is changed.
          by_cases hqueue : queue = d.task.queue
          · subst hqueue
            simp only [Option.map_eq_map, Option.map_some, if_true]
            split
            · simp only [Option.map_some, modify_set_same]
            · rfl
          · simp only [Option.map_eq_map, Option.map_some, if_neg hqueue]
            split
            · simp only [Option.map_some, modify_set_other hqueue]
            · rfl

theorem Moved.isEmpty (hm : Moved p p') (queue : Nat) : p'.isEmpty queue = p.isEmpty queue := by
  cases hm with
  | take _ _ => rfl
  | finish _ => rfl
  | @deliver w d q worker isOpen room =>
    simp only [Pool.isEmpty]
    by_cases hqueue : d.task.queue = queue
    · subst hqueue
      rw [List.getElem?_set_self', isOpen]
      rfl
    · rw [List.getElem?_set_ne hqueue]

theorem Moves.isEmpty (hm : Moves p p') (queue : Nat) : p'.isEmpty queue = p.isEmpty queue := by
  induction hm with
  | refl => rfl
  | tail _ hlast ih =>
    obtain ⟨m, hm⟩ := hlast
    exact ((moved_of_move? hm).isEmpty queue).trans ih

/-! ## What calls come to

A call is a run of moves and at most one collection, so every fact about runs applies after it. -/

namespace History

def collectAll (h : History σ ρ) (queue : Nat) (ds : List (Delivery σ ρ)) : History σ ρ :=
  { h with collected := h.collected ++ ds.map fun d => (queue, d) }

theorem collectAll_nil (h : History σ ρ) (queue : Nat) : h.collectAll queue [] = h := by
  simp [collectAll]

theorem collectAll_cons (h : History σ ρ) (queue : Nat) (d : Delivery σ ρ)
    (ds : List (Delivery σ ρ)) :
    h.collectAll queue (d :: ds) = (h.collect queue d).collectAll queue ds := by
  simp [collectAll, collect]

theorem collectedFrom_collectAll (h : History σ ρ) (queue : Nat) (ds : List (Delivery σ ρ)) :
    (h.collectAll queue ds).collectedFrom queue = h.collectedFrom queue ++ ds := by
  simp [collectedFrom, collectAll, List.filter_map, Function.comp_def]

end History

theorem Run.moves (run : Run threads s p h) (hm : Moves p p') : Run threads s p' h := by
  induction hm with
  | refl => exact run
  | tail _ hlast ih =>
    obtain ⟨m, hm⟩ := hlast
    exact ih.move hm

theorem Run.next (run : Run threads s p h) (hn : Next queue p r p') :
    Run threads s p' (h.collectAll queue r.toList) := by
  cases hn with
  | nothing _ =>
    rw [Option.toList_none, h.collectAll_nil]
    exact run
  | result outstanding moves ok =>
    rw [Option.toList_some, h.collectAll_cons, History.collectAll_nil]
    exact (run.moves moves).collect ((moves.isEmpty queue).trans outstanding) ok

theorem Run.flush (run : Run threads s p h) (hf : Flush queue p ds p') :
    Run threads s p' (h.collectAll queue ds) := by
  -- On the results; each leaves a longer history for the rest.
  induction hf generalizing h with
  | done last => exact run.next last
  | more first _ ih =>
    have hfirst := run.next first
    rw [Option.toList_some, h.collectAll_cons, History.collectAll_nil] at hfirst
    rw [h.collectAll_cons]
    exact ih hfirst

/-- **There is no result only when none is outstanding.** -/
theorem Next.eq_none_iff (hn : Next queue p r p') (run : Run threads s p h)
    (known : queue < p.queues.length) : r = none ↔ p.outstandingFor queue = [] := by
  rw [← run.balanced.isEmpty_iff known]
  cases hn with
  | nothing empty => simp [empty]
  | result outstanding _ _ => simp [outstanding]

/-- All results are collected when none is outstanding. -/
theorem Flush.isEmpty (hf : Flush queue p ds p') : p'.isEmpty queue = true := by
  induction hf with
  | done last =>
    cases last with
    | nothing empty => exact empty
  | more _ _ ih => exact ih

theorem length_queues_collect? (hc : p.collect? queue = some (d, p')) :
    p'.queues.length = p.queues.length := by
  obtain ⟨q, rest, -, -, rfl⟩ := collect?_eq_some hc
  exact List.length_set

theorem Moves.length_queues (hm : Moves p p') : p'.queues.length = p.queues.length := by
  induction hm with
  | refl => rfl
  | tail _ hlast ih =>
    obtain ⟨m, hm⟩ := hlast
    cases moved_of_move? hm with
    | take _ _ => exact ih
    | finish _ => exact ih
    | deliver _ _ _ => exact List.length_set.trans ih

theorem Next.length_queues (hn : Next queue p r p') : p'.queues.length = p.queues.length := by
  cases hn with
  | nothing _ => rfl
  | result _ moves ok => exact (length_queues_collect? ok).trans moves.length_queues

theorem Flush.length_queues (hf : Flush queue p ds p') : p'.queues.length = p.queues.length := by
  induction hf with
  | done last => exact last.length_queues
  | more first _ ih => exact ih.trans first.length_queues

/-- **All results are those of the jobs that were outstanding**, and then none is. -/
theorem Flush.perm_outstanding (hf : Flush queue p ds p') (run : Run threads s p h)
    (known : queue < p.queues.length) :
    (ds.map Delivery.task).Perm (p.outstandingFor queue) ∧ p'.outstandingFor queue = [] := by
  have hafter := run.flush hf
  have hnone := (hafter.balanced.isEmpty_iff (hf.length_queues ▸ known)).1 hf.isEmpty
  refine ⟨?_, hnone⟩
  have hperm := run.balanced.perm_for queue
  have hperm' := hafter.balanced.perm_for queue
  rw [hnone, List.nil_append, History.collectedFrom_collectAll, List.map_append] at hperm'
  -- Before and after, what is outstanding and what was collected make up what was accepted.
  have hboth := hperm'.trans (hperm.symm.trans List.perm_append_comm)
  exact (List.perm_append_left_iff _).1 hboth

/-! ## Waiting ends

A worker that cannot move has a result for a full queue, or nothing to do. If the client waits for a
queue that has nothing in it, and every worker is of the first kind, all of them wait for other
queues that the client is not about to empty. That is a deadlock, and the lemmas say that there is
no other. -/

/-- Every worker has a result in hand for another queue that is full. -/
structure Blocked (p : Pool σ ρ) (queue : Nat) : Prop where
  staffed : p.workers ≠ []
  workers : ∀ x ∈ p.workers, ∃ d q, x = .delivering d ∧ d.task.queue ≠ queue ∧
    p.queues[d.task.queue]? = some q ∧ q.delivered.length = q.capacity

/-- All other queues have room for what is pending for them. -/
def Uncrowded (p : Pool σ ρ) (queue : Nat) : Prop :=
  ∀ (j : Nat) (q : Queue σ ρ), j ≠ queue → p.queues[j]? = some q → q.pending ≤ q.capacity

theorem move?_of_advance? (hstuck : p.advance? = none) (hw : w < p.workers.length) :
    p.move? (.take w) = none ∧ p.move? (.finish w) = none ∧ p.move? (.deliver w) = none := by
  have hnone : ∀ m ∈ [Move.deliver w, .finish w, .take w], p.move? m = none := fun m hm =>
    List.findSome?_eq_none_iff.1 hstuck m (List.mem_flatMap.2 ⟨w, List.mem_range.2 hw, hm⟩)
  exact ⟨hnone _ (by simp), hnone _ (by simp), hnone _ (by simp)⟩

/-- Where no worker can move, those that have a result in hand find the queue of it full, and the
others have nothing to do. -/
theorem Run.worker_of_stuck (run : Run threads s p h) (hstuck : p.advance? = none)
    {x : Worker σ ρ} (hx : x ∈ p.workers) :
    x = .idle ∧ p.tasks = [] ∨ ∃ d q, x = .delivering d ∧ p.queues[d.task.queue]? = some q ∧
      q.delivered.length = q.capacity := by
  obtain ⟨w, hw⟩ := List.mem_iff_getElem?.1 hx
  obtain ⟨hlt, -⟩ := List.getElem?_eq_some_iff.1 hw
  obtain ⟨htake, hfinish, hdeliver⟩ := move?_of_advance? hstuck hlt
  cases x with
  | idle =>
    refine .inl ⟨rfl, ?_⟩
    cases htasks : p.tasks with
    | nil => rfl
    | cons t rest => simp [move?, hw, htasks] at htake
  | running t => simp [move?, hw] at hfinish
  | delivering d =>
    have hd : d ∈ p.waiting := List.mem_flatMap.2 ⟨_, hx, List.mem_singleton_self d⟩
    have hq := List.getElem?_eq_getElem
      (run.balanced.known _ (run.balanced.mem_accepted_of_waiting hd))
    have hroom := (run.balanced.queues _ _ hq).room
    simp only [move?, hw, hq] at hdeliver
    refine .inr ⟨d, _, rfl, hq, ?_⟩
    split at hdeliver
    · cases hdeliver
    · omega

/-- **The client waits in vain only when the pool is blocked.** -/
theorem Run.blocked_of_stuck (run : Run threads s p h) (known : queue < p.queues.length)
    (outstanding : p.isEmpty queue = false) (hcollect : p.collect? queue = none)
    (hstuck : p.advance? = none) : p.Blocked queue := by
  have hb := run.balanced
  have hq := List.getElem?_eq_getElem known
  have hnone : p.queues[queue].delivered = [] := by
    cases hdelivered : p.queues[queue].delivered with
    | nil => rfl
    | cons d rest => simp [collect?, hq, hdelivered] at hcollect
  have hsome : p.outstandingFor queue ≠ [] := fun hempty => by
    rw [(hb.isEmpty_iff known).2 hempty] at outstanding
    cases outstanding
  -- The queue itself is empty, so a full one is another one.
  have helse : ∀ (d : Delivery σ ρ) (q : Queue σ ρ), p.queues[d.task.queue]? = some q →
      q.delivered.length = q.capacity → d.task.queue ≠ queue := by
    rintro d q hd hfull rfl
    obtain rfl := Option.some.inj (hq.symm.trans hd)
    have := (hb.queues _ _ hq).capacity
    rw [hnone] at hfull
    exact Nat.ne_of_lt this hfull
  have hwaits : ∀ x ∈ p.workers, x.task = [] ∧ ∀ d ∈ x.inHand, d.task.queue ≠ queue := by
    intro x hx
    rcases run.worker_of_stuck hstuck hx with ⟨rfl, -⟩ | ⟨d, q, rfl, hd, hfull⟩
    · exact ⟨rfl, fun _ hd => by cases hd⟩
    · refine ⟨rfl, fun e he => ?_⟩
      rw [List.mem_singleton.1 he]
      exact helse d q hd hfull
  -- What is outstanding for the queue is in none of the other places, so jobs wait for a worker.
  have htasks : p.tasks ≠ [] := by
    intro htasks
    apply hsome
    have hlength := hb.length_outstandingFor hq
    have hrunning : p.running = [] := List.flatMap_eq_nil_iff.2 fun x hx => (hwaits x hx).1
    have hwaiting : (p.waiting.filter fun d => d.task.queue == queue) = [] := by
      refine List.filter_eq_nil_iff.2 fun d hd => ?_
      obtain ⟨x, hx, hd⟩ := List.mem_flatMap.1 hd
      simpa using (hwaits x hx).2 d hd
    rw [htasks, hrunning, hwaiting, hnone] at hlength
    exact List.length_eq_zero_iff.1 hlength
  refine ⟨?staffed, fun x hx => ?workers⟩
  case staffed =>
    rcases hb.staffed with hstaffed | ⟨-, -, haccepted⟩
    · have := Nat.le_max_right threads 1
      exact List.ne_nil_of_length_pos (hstaffed ▸ this)
    · have hperm := hb.perm_for queue
      rw [History.acceptedFor, haccepted, List.filter_nil, List.perm_nil,
        List.append_eq_nil_iff] at hperm
      exact absurd hperm.1 hsome
  case workers =>
    rcases run.worker_of_stuck hstuck hx with ⟨-, hempty⟩ | ⟨d, q, hx, hd, hfull⟩
    · exact absurd hempty htasks
    · exact ⟨d, q, hx, helse d q hd hfull, hd, hfull⟩

/-- A full queue with another result on its way has more pending than it has room for. -/
theorem Run.not_blocked (run : Run threads s p h) (huncrowded : p.Uncrowded queue) :
    ¬ p.Blocked queue := by
  intro hblocked
  obtain ⟨x, hx⟩ := List.exists_mem_of_ne_nil _ hblocked.staffed
  obtain ⟨d, q, rfl, hne, hq, hfull⟩ := hblocked.workers x hx
  -- The result in hand is pending too, beside those that fill the queue: more than it has room for.
  have hd : d ∈ p.waiting.filter fun e => e.task.queue == d.task.queue :=
    List.mem_filter.2 ⟨List.mem_flatMap.2 ⟨_, hx, List.mem_singleton_self d⟩, beq_self_eq_true _⟩
  have hpos := List.length_pos_of_mem hd
  have hlength := run.balanced.length_outstandingFor hq
  have hpending := run.balanced.pending_eq hq
  have := huncrowded _ q hne hq
  omega

/-! ## The schedule of a script

The function for waiting is by recursion on the work that is left, and the lemma about it by the
same recursion. -/

theorem await_cases (p : Pool σ ρ) (queue : Nat) :
    ∃ p', Moves p p' ∧ p.await queue = p'.collect? queue ∧
      (p.await queue = none → p'.advance? = none) := by
  fun_induction p.await queue with
  | case1 p collected hcollect =>
    refine ⟨p, .refl, hcollect.symm, fun hnone => ?_⟩
    cases hnone
  | case2 p hcollect p' hadvance _ ih =>
    obtain ⟨p'', hmoves, hawait, hstuck⟩ := ih
    obtain ⟨m, -, hm⟩ := List.exists_of_findSome?_eq_some hadvance
    exact ⟨p'', .head ⟨m, hm⟩ hmoves, hawait, hstuck⟩
  | case3 p hcollect hadvance => exact ⟨p, .refl, hcollect.symm, fun _ => hadvance⟩

/-- **A script has the next result, or waits in vain.** -/
theorem Run.next_cases (run : Run threads s p h) (known : queue < p.queues.length) :
    (∃ r, Next queue p r (p.next queue).2 ∧ (p.next queue).1 = r.map Delivery.result) ∨
      p.isEmpty queue = false ∧ ∃ p', Moves p p' ∧ p'.Blocked queue := by
  cases hempty : p.isEmpty queue with
  | true =>
    refine .inl ⟨none, ?_⟩
    simp only [Pool.next, hempty, if_true]
    exact ⟨.nothing hempty, rfl⟩
  | false =>
    obtain ⟨p', hmoves, hawait, hstuck⟩ := await_cases p queue
    cases hcollect : p'.collect? queue with
    | some collected =>
      obtain ⟨d, p''⟩ := collected
      rw [hcollect] at hawait
      refine .inl ⟨some d, ?_⟩
      simp only [Pool.next, hempty, hawait]
      exact ⟨.result hempty hmoves hcollect, rfl⟩
    | none =>
      rw [hcollect] at hawait
      refine .inr ⟨rfl, p', hmoves, ?_⟩
      exact (run.moves hmoves).blocked_of_stuck (hmoves.length_queues ▸ known)
        ((hmoves.isEmpty queue).trans hempty) hcollect (hstuck hawait)

theorem Moved.uncrowded (hm : Moved p p') (hu : p.Uncrowded queue) : p'.Uncrowded queue := by
  intro j q hj hq
  cases hm with
  | take _ _ => exact hu j q hj hq
  | finish _ => exact hu j q hj hq
  | @deliver w d old worker isOpen room =>
    rcases getElem?_set_cases hq with ⟨rfl, rfl⟩ | ⟨-, hq⟩
    · have hroom : old.pending ≤ old.capacity := hu _ old hj isOpen
      exact hroom
    · exact hu j q hj hq

theorem Moves.uncrowded (hm : Moves p p') (hu : p.Uncrowded queue) : p'.Uncrowded queue := by
  induction hm with
  | refl => exact hu
  | tail _ hlast ih =>
    obtain ⟨m, hm⟩ := hlast
    exact (moved_of_move? hm).uncrowded ih

theorem Next.uncrowded (hn : Next queue p r p') (hu : p.Uncrowded queue) : p'.Uncrowded queue := by
  cases hn with
  | nothing _ => exact hu
  | result _ moves ok =>
    obtain ⟨q, rest, hopen, -, rfl⟩ := collect?_eq_some ok
    intro j q' hj hq
    rcases getElem?_set_cases hq with ⟨rfl, -⟩ | ⟨-, hq⟩
    · exact absurd rfl hj
    · exact moves.uncrowded hu j q' hj hq

/-- While the other queues have room, waiting ends. -/
theorem Run.next_of_uncrowded (run : Run threads s p h) (known : queue < p.queues.length)
    (hu : p.Uncrowded queue) :
    ∃ r, Next queue p r (p.next queue).2 ∧ (p.next queue).1 = r.map Delivery.result := by
  rcases run.next_cases known with hnext | ⟨-, p', hmoves, hblocked⟩
  · exact hnext
  · exact absurd hblocked ((run.moves hmoves).not_blocked (hmoves.uncrowded hu))

theorem Run.length_outstandingFor_next (run : Run threads s p h) (hn : Next queue p (some d) p') :
    (p.outstandingFor queue).length = (p'.outstandingFor queue).length + 1 := by
  have hlength := (run.balanced.perm_for queue).length_eq
  have hlength' := ((run.next hn).balanced.perm_for queue).length_eq
  have haccepted : (h.collectAll queue [d]).acceptedFor queue = h.acceptedFor queue := rfl
  rw [Option.toList_some, haccepted, History.collectedFrom_collectAll] at hlength'
  simp only [List.length_append, List.length_map, List.length_singleton] at hlength hlength'
  omega

/-- While the other queues have room, a script has all results that are outstanding. -/
theorem Run.flush_of_uncrowded (run : Run threads s p h) (known : queue < p.queues.length)
    (hu : p.Uncrowded queue) :
    ∃ ds, Flush queue p ds (p.flush queue).2 ∧ (p.flush queue).1 = ds.map Delivery.result := by
  have hresults : ∀ n, (p.outstandingFor queue).length = n →
      ∃ ds, Flush queue p ds (p.nextResults queue n).2 ∧
        (p.nextResults queue n).1 = ds.map Delivery.result := by
    intro n hn
    -- Each result that is collected leaves one less outstanding.
    induction n generalizing p h with
    | zero =>
      have hempty := (run.balanced.isEmpty_iff known).2 (List.length_eq_zero_iff.1 hn)
      exact ⟨[], .done (.nothing hempty), rfl⟩
    | succ n ih =>
      -- There is one, as something is outstanding.
      obtain ⟨r, hnext, hresult⟩ := run.next_of_uncrowded known hu
      cases r with
      | none =>
        have hnone := (hnext.eq_none_iff run known).1 rfl
        rw [hnone] at hn
        cases hn
      | some d =>
        have hfewer := run.length_outstandingFor_next hnext
        obtain ⟨ds, hflush, hrest⟩ := ih (run.next hnext) (hnext.length_queues ▸ known)
          (hnext.uncrowded hu) (by omega)
        generalize hp : p.next queue = o at hnext hresult hflush hrest
        obtain ⟨r, p'⟩ := o
        cases hresult
        refine ⟨d :: ds, ?_⟩
        simp only [nextResults, hp]
        exact ⟨.more hnext hflush, congrArg (d.result :: ·) hrest⟩
  have hq := List.getElem?_eq_getElem known
  refine hresults _ ?_
  rw [hq]
  exact (run.balanced.pending_eq hq).symm

end Pool

end ArenaAlloc

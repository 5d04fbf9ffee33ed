import ArenaAlloc.Proofs.Carving
import ArenaAlloc.Proofs.Session
import Mathlib.Control.Monad.Basic

/-!
# Refused calls

A request can be refused in many places: its size or the product of count and size is too large, the
header no longer fits a word behind it, nor does the capacity that would be needed, the ceiling or
the number of chunks is reached, or the supply has nothing left. All of them lie before the first
change, and the one step that could fail after a chunk was added never does, since the chunk is long
enough. So `takeBlock` changes something only if it answers with a block (`takeBlock_of_error`), and
the operations take their block before they do anything else.

`Call.perform` is a call without the ledger: what it answers, and the arena and the supply after it.

## Any state

None of this needs an invariant. The operations are functions on any memory and any chunks, and a
refusal leaves all of it as it was because the code takes its block first and stores afterwards. So
`refused_call_changes_nothing` holds in every state, of a session that kept to the contract or not,
and what it says of the calls that follow is that the state is the same, not that it is as good.

`perform` and `arena_step` are used beyond this file. They say that the ledger watches: what a call
makes of the arena does not depend on what the ledger has entered, so facts about the arena alone
can be proved of `perform` and transported to sessions.
-/

namespace ArenaAlloc

/-! ## What a call answers

The six operations have different results: an address, nothing, an arena. `Call.ofRequest` brings
them to one shape, so that a statement about every call can be made once. -/

namespace Call

/-- The supply that a call may take a chunk from. -/
def supply? : Call → Option Supply
  | .allocate s _ | .zeroAllocate s _ _ | .reallocate s _ _ => some s
  | .free _ | .reset | .write .. => none

/-- A request as the outcome of a call. -/
def ofRequest (o : Outcome (Arena × Supply) (Except AllocError Address)) :
    Outcome (Arena × Option Supply) (Except AllocError (Option Address)) :=
  (o.map (Except.map some)).mapState (Prod.map id some)

/-- An error of a call is the error of its request. -/
theorem result_ofRequest {o : Outcome (Arena × Supply) (Except AllocError Address)}
    {e : AllocError} (h : (ofRequest o).result = .error e) : o.result = .error e := by
  simp only [ofRequest, Outcome.result_mapState, Outcome.result_map] at h
  cases hresult : o.result with
  | error e' =>
    rw [hresult] at h
    cases h
    rfl
  | ok p =>
    rw [hresult] at h
    cases h

/-- What an arena makes of a call: the answer, a pointer where there is one, and what the arena and
the supply are after it. -/
def perform (c : Call) (a : Arena) :
    Outcome (Arena × Option Supply) (Except AllocError (Option Address)) :=
  match c with
  | .allocate s size => ofRequest (a.allocate s size)
  | .zeroAllocate s count size => ofRequest (a.zeroAllocate s count size)
  | .reallocate s p size => ofRequest (a.reallocate s (p.map Block.payload) size)
  | .free p => ⟨.ok none, ((a.free (p.map Block.payload)).state, none), []⟩
  | .reset => ⟨.ok none, (a.reset.state, none), []⟩
  | .write b offset n f => ⟨.ok none, (a.write (b.payload.plus offset) n f, none), []⟩

end Call

namespace Session

variable {s : Session} {c : Call} {e : AllocError}

theorem arena_grant (s : Session) (o : Outcome (Arena × Supply) (Except AllocError Address)) :
    (s.grant o).arena = o.state.1 := by
  unfold grant
  cases o.result <;> rfl

/-- The ledger has no part in what a call makes of the arena. -/
theorem arena_step (s : Session) (c : Call) : (s.step c).arena = (c.perform s.arena).state.1 := by
  cases c with
  | allocate supply size => exact arena_grant s _
  | zeroAllocate supply count size =>
    simp only [step, zeroAllocate, Call.perform, Call.ofRequest]
    cases (s.arena.zeroAllocate supply count size).result <;> rfl
  | reallocate supply p size =>
    cases p with
    | none => exact arena_grant s _
    | some b =>
      simp only [step, reallocate, Call.perform, Call.ofRequest, Option.map_some]
      cases (s.arena.reallocate supply (some b.payload) size).result with
      | error _ => rfl
      | ok p =>
        dsimp only
        split <;> rfl
  | free p => rfl
  | reset => rfl
  | write b offset n f => rfl

/-- What the calls of a run answer. -/
def answers : Session → List Call → List (Except AllocError (Option Address))
  | _, [] => []
  | s, c :: cs => (c.perform s.arena).result :: answers (s.step c) cs

end Session

/-! ## Nothing has changed by then

One lemma for each operation, in the order in which they are built on one another. `takeBlock` is
the one with content; in the others the case where the block was taken is contradictory, since no
error comes after it. -/

namespace Arena

variable {a : Arena} {s : Supply} {e : AllocError}

/-- **No block, no change.** -/
theorem takeBlock_of_error {size : Nat} (h : (a.takeBlock s size).result = .error e) :
    (a.takeBlock s size).state = (a, s) := by
  unfold takeBlock at h ⊢
  cases halign : alignUp size with
  | none => rfl
  | some aligned =>
    simp only [halign] at h ⊢
    -- With an entry that fits there is no error, so it is the chunks that refused.
    cases hfit : a.heap.firstFit? a.layout aligned with
    | some found =>
      rw [hfit] at h
      cases h
    | none =>
      simp only [hfit, Outcome.result_andThen, Outcome.state_andThen] at h ⊢
      -- A chunk that was added always has room, so carving fails only before it changes anything.
      rcases Chunks.carve_cases a.chunks s aligned with ⟨e', hr, hst⟩ | ⟨b, c', s', hr, hst, -⟩
      · simp only [hr, hst]
      · simp only [hr, hst] at h
        cases h

/-- `allocate` only takes a block. -/
theorem allocate_of_error {size : Nat} (h : (a.allocate s size).result = .error e) :
    (a.allocate s size).state = (a, s) := by
  simp only [allocate, Outcome.result_map, Outcome.state_map] at h ⊢
  cases htaken : (a.takeBlock s size).result with
  | error e' => exact takeBlock_of_error htaken
  | ok b =>
    rw [htaken] at h
    cases h

/-- The product is checked before, and clearing the bytes cannot fail. -/
theorem zeroAllocate_of_error {count size : Nat}
    (h : (a.zeroAllocate s count size).result = .error e) :
    (a.zeroAllocate s count size).state = (a, s) := by
  unfold zeroAllocate at h ⊢
  cases htotal : checkedMul count size with
  | none => rfl
  | some total =>
    simp only [htotal, Outcome.result_andThen, Outcome.state_andThen] at h ⊢
    cases htaken : (a.takeBlock s total).result with
    | error e' => exact takeBlock_of_error htaken
    | ok b =>
      rw [htaken] at h
      cases h

/-- A block is moved by taking a new one first; shrinking in place cannot fail. -/
theorem reallocate_of_error {p : Option Address} {size : Nat}
    (h : (a.reallocate s p size).result = .error e) :
    (a.reallocate s p size).state = (a, s) := by
  cases p with
  | none => exact allocate_of_error h
  | some p =>
    unfold reallocate at h ⊢
    cases halign : alignUp size with
    | none => rfl
    | some aligned =>
      simp only [halign] at h ⊢
      by_cases hfits : aligned ≤ a.heap.memory.blockSize (Block.ofPayload p)
      · simp only [if_pos hfits] at h
        cases h
      · simp only [if_neg hfits, Outcome.result_andThen, Outcome.state_andThen] at h ⊢
        cases htaken : (a.takeBlock s aligned).result with
        | error e' => exact takeBlock_of_error htaken
        | ok b =>
          -- With a block to move to, the rest of a move cannot fail.
          rw [htaken] at h
          cases h

end Arena

/-- A call that answers with an error leaves the arena and the supply as they were. -/
theorem Call.state_perform_of_error {a : Arena} {c : Call} {e : AllocError}
    (h : (c.perform a).result = .error e) : (c.perform a).state = (a, c.supply?) := by
  cases c with
  | allocate s size =>
    have hstate := Arena.allocate_of_error (result_ofRequest h)
    simp [perform, ofRequest, hstate, supply?]
  | zeroAllocate s count size =>
    have hstate := Arena.zeroAllocate_of_error (result_ofRequest h)
    simp [perform, ofRequest, hstate, supply?]
  | reallocate s p size =>
    have hstate := Arena.reallocate_of_error (result_ofRequest h)
    simp [perform, ofRequest, hstate, supply?]
  | free p => cases h
  | reset => cases h
  | write b offset n f => cases h

namespace Session

variable {s : Session} {c : Call} {e : AllocError}

/-- The ledger enters nothing for a call that is refused. -/
theorem ledger_step_of_error (h : (c.perform s.arena).result = .error e) :
    (s.step c).ledger = s.ledger := by
  cases c with
  | allocate supply size =>
    have hr := Call.result_ofRequest h
    simp only [step, grant, hr]
  | zeroAllocate supply count size =>
    have hr := Call.result_ofRequest h
    simp only [step, zeroAllocate, hr]
  | reallocate supply p size =>
    have hr := Call.result_ofRequest h
    cases p with
    | none =>
      simp only [Option.map_none] at hr
      simp only [step, grant, hr]
    | some b =>
      simp only [Option.map_some] at hr
      simp only [step, reallocate, hr]
  | free p => cases h
  | reset => cases h
  | write b offset n f => cases h

/-- A refused call leaves the session as it was, ledger included. -/
theorem step_of_error (h : (c.perform s.arena).result = .error e) : s.step c = s := by
  have harena : (s.step c).arena = s.arena := by
    rw [arena_step, Call.state_perform_of_error h]
  have hledger := ledger_step_of_error h
  cases hs : s.step c with
  | mk arena ledger =>
    rw [hs] at harena hledger
    simp only at harena hledger
    rw [harena, hledger]

/-- **A refused call changes nothing**, in any state: neither the session, that is the chunks, every
byte of them, the free list and what is in use, nor the supply. Whatever calls follow, they answer
and end as if it had not been made. -/
theorem refused_call_changes_nothing (s : Session) {c : Call} {e : AllocError}
    (h : (c.perform s.arena).result = .error e) :
    s.step c = s ∧ (c.perform s.arena).state = (s.arena, c.supply?) ∧
      ∀ cs, s.run (c :: cs) = s.run cs ∧ s.answers (c :: cs) = .error e :: s.answers cs := by
  have hstep := step_of_error h
  refine ⟨hstep, Call.state_perform_of_error h, fun cs => ⟨?_, ?_⟩⟩
  · show (s.step c).run cs = s.run cs
    rw [hstep]
  · show (c.perform s.arena).result :: (s.step c).answers cs = .error e :: s.answers cs
    rw [h, hstep]

/-- A block that cannot grow stays where it was, as long as it was and with the bytes it held. -/
theorem refused_call_changes_nothing_of_run :
    let s := (ofLength 128).run [.allocate .unlimited 16, .write ⟨0, 0⟩ 0 16 fun _ => 7]
    let c := Call.reallocate (.limited 4096) (some ⟨0, 0⟩) 4096
    (c.perform s.arena).result = .error (.outOfMemory 8064) ∧ s.step c = s ∧
      ⟨0, 0⟩ ∈ (s.step c).ledger.live ∧
      (s.step c).arena.heap.memory.blockSize ⟨0, 0⟩ = 16 ∧
      (s.step c).arena.heap.memory.byte (Block.mk 0 0).payload = 7 := by
  intro s c
  have hrefused : (c.perform s.arena).result = .error (.outOfMemory 8064) := by decide +kernel
  obtain ⟨hsame, -, -⟩ := refused_call_changes_nothing s hrefused
  rw [hsame]
  exact ⟨hrefused, rfl, by decide +kernel⟩

end Session

end ArenaAlloc

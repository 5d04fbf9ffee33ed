import ArenaAlloc.Proofs.ScriptEffect

/-!
# Who asks for an arena, and what a closure gets

A closure on a thread's arena runs in one of two situations: the arena is there, or it is created
first. `Process.Lends` has a case for each and says which arena the closure gets and which process
is around it; in both the thread's slot is in use while the closure runs, and ready after it
(`tryWithArena_of_lends`). There are two situations in which no closure runs, the cases of
`Process.Denies`: the slot is in use already, or there is no arena and none can be had.

Which steps of a script come to a closure at all can be told by looking at them
(`ThreadAction.asks`). Those that do have nothing but its outcome to tell (`Tells`), so that it is
enough to know of one closure what happens to it.

## What the relations are for

`tryWithArena` is written as the code has it: look at the slot, create if need be, mark it as in
use, run, put back. A proof about a closure wants none of this. It wants to know which arena the
closure is run on and what is around it, and that the process afterwards is the closure's with the
arena back in the slot. `Lends` and `Denies` are the two halves of that, and `lends_or_denies` says
that there is no third.

`Tells` is a statement about a caller of `tryWithArena`: that it only passes on what the closure
came to. Allocations are of this form, and so are closures in a script; so what is proved of denied
closures once holds of every step that needs an arena.
-/

namespace ArenaAlloc

namespace Process

/-- A closure on the thread's arena gets the arena `a`, in the process `q`, after events `es`. -/
inductive Lends (p : Process) (thread : String) : Arena → Process → List Event → Prop
  | ready {a : Arena} (slot : p.slot? thread = some (.ready a)) :
      Lends p thread a (p.setSlot thread .inUse) []
  | created {a : Arena} {s : Supply} (slot : p.slot? thread = none)
      (new : Arena.create (p.config.getD .default) p.supply = ⟨.ok a, s, [.created a.capacity]⟩) :
      Lends p thread a
        ({ p with config := some (p.config.getD .default), supply := s }.setSlot thread .inUse)
        [.created a.capacity]

/-- A closure on the thread's arena does not run, because of the error. The process is `q` after
that, and `es` is logged. -/
inductive Denies (p : Process) (thread : String) : AllocError → Process → List Event → Prop
  | inUse (slot : p.slot? thread = some .inUse) : Denies p thread .unavailable p []
  | refused {e : AllocError} (slot : p.slot? thread = none)
      (refusal : (Arena.create (p.config.getD .default) p.supply).result = .error e) :
      Denies p thread e { p with config := some (p.config.getD .default) } [.creationFailed e]

variable {α : Type} {p q : Process} {thread : String} {a : Arena} {e : AllocError} {es : List Event}
  {body : Arena → Process → Outcome (Arena × Process) α}

/-- While the closure runs, only the slot of its thread differs. -/
theorem Lends.slots (h : p.Lends thread a q es) : q.slots = p.slots.set thread .inUse := by
  cases h <;> rfl

/-- And that slot is in use. -/
theorem Lends.slot (h : p.Lends thread a q es) : q.slot? thread = some .inUse := by
  rw [slot?, h.slots]
  exact Table.find?_set_same _ _ _

/-- The closure runs once, on what it gets, and then its arena is back in the slot. -/
theorem tryWithArena_of_lends (h : p.Lends thread a q es) :
    p.tryWithArena thread body =
      ⟨.ok (body a q).result, (body a q).state.2.setSlot thread (.ready (body a q).state.1),
        es ++ (body a q).events⟩ := by
  cases h with
  | ready slot =>
    simp only [tryWithArena, slot]
    rfl
  | created slot new =>
    simp only [tryWithArena, slot, settledConfig_eq, Outcome.andThen, new]
    rfl

/-- Without an arena the closure does not run, and the error is passed on. -/
theorem tryWithArena_of_denies (h : p.Denies thread e q es) :
    p.tryWithArena thread body = ⟨.error e, q, es⟩ := by
  cases h with
  | inUse slot => exact tryWithArena_of_inUse slot
  | refused slot refusal =>
    rcases Arena.create_cases (p.config.getD .default) p.supply with ⟨e', hnew⟩ | ⟨a, s, hnew⟩
    · rw [hnew] at refusal
      cases refusal
      simp only [tryWithArena, slot, settledConfig_eq, Outcome.andThen, hnew]
      rfl
    · rw [hnew] at refusal
      cases refusal

/-- A closure runs or is denied an arena. -/
theorem lends_or_denies (p : Process) (thread : String) :
    (∃ a q es, p.Lends thread a q es) ∨ ∃ e q es, p.Denies thread e q es := by
  -- By the slot: none, ready or in use. With none it is up to the creation.
  rcases hslot : p.slot? thread with _ | a | _
  · rcases Arena.create_cases (p.config.getD .default) p.supply with ⟨e, hnew⟩ | ⟨a, s, hnew⟩
    · exact .inr ⟨e, _, _, .refused hslot (congrArg Outcome.result hnew)⟩
    · exact .inl ⟨a, _, _, .created hslot hnew⟩
  · exact .inl ⟨a, _, _, .ready hslot⟩
  · exact .inr ⟨_, _, _, .inUse hslot⟩

end Process

namespace Script

/-- Whether a call needs the thread's arena. Freeing and resetting do not, for there is nothing to
do without one, and a product that does not fit a word is refused before. -/
def Call.asks : Call → Bool
  | .allocate _ _ | .reallocate _ _ => true
  | .zeroAllocate count size _ => (checkedMul count size).isSome
  | .free | .reset => false

def ThreadAction.asks : ThreadAction → Bool
  | .command (.call _ c) => c.asks
  | .withArena _ _ => true
  | .command _ | .access _ => false

/-- What an action that asks for an arena is answered when there is none for it. -/
def ThreadAction.denial (e : AllocError) : ThreadAction → Answer
  | .withArena reasons _ => closureAnswer reasons (.error e)
  | .command _ | .access _ => .nothing

/-- What is run is a closure on the thread's arena, and what that comes to is told as an answer and
names. If the closure is denied an arena the answer is `denial` and the names are as they were. -/
def Tells (thread : String) (names : Names) (denial : AllocError → Answer)
    (run : Process → Outcome (Process × Names) Answer) : Prop :=
  ∃ (α : Type) (body : Arena → Process → Outcome (Arena × Process) α)
    (tell : Except AllocError α → Answer × Names),
    (∀ p, run p = (p.tryWithArena thread body).andThen fun result q =>
      ⟨(tell result).1, (q, (tell result).2), []⟩) ∧
    ∀ e, tell (.error e) = (denial e, names)

variable {p p' : Process} {thread : String} {names : Names} {denial : AllocError → Answer}
  {run : Process → Outcome (Process × Names) Answer} {a : Arena} {e : AllocError} {es : List Event}

/-- What is told of a closure that was denied an arena is its denial. -/
theorem Tells.of_denies (h : Tells thread names denial run) (hdenies : p.Denies thread e p' es) :
    run p = ⟨denial e, (p', names), es⟩ := by
  obtain ⟨α, body, tell, hrun, htell⟩ := h
  rw [hrun, Process.tryWithArena_of_denies hdenies]
  simp only [Outcome.andThen, htell, List.append_nil]

/-- Whatever is told, the arena is in the slot afterwards. -/
theorem Tells.of_lends (h : Tells thread names denial run) (hlends : p.Lends thread a p' es) :
    ∃ a', (run p).state.1.slot? thread = some (.ready a') := by
  obtain ⟨α, body, tell, hrun, -⟩ := h
  rw [hrun, Process.tryWithArena_of_lends hlends]
  exact ⟨_, Process.slot?_setSlot _ _ _⟩

/-- A call that needs an arena is told as a closure with one operation. -/
theorem Call.tells {c : Call} (hc : c.asks) (thread : String) (q : Option Address)
    (names : Names) :
    Tells thread names (fun _ => .nothing) (c.run (.ofThread thread) q names) := by
  let tell := fun (into : String) (result : Except AllocError (Option Address)) =>
    let answer := Answer.ofOption result.toOption.join
    (answer, names.bind into answer)
  cases c with
  | allocate size into =>
    exact ⟨_, Process.onArena fun a s => a.allocate? s size, tell into, fun _ => rfl, fun _ => rfl⟩
  | zeroAllocate count size into =>
    obtain ⟨n, hmul⟩ := Option.isSome_iff_exists.1 hc
    refine ⟨_, Process.onArena fun a s => a.zeroAllocate? s count size, tell into, fun p => ?_,
      fun _ => rfl⟩
    simp only [Call.run, FrontEnd.ofThread, Process.zeroAllocate, hmul]
    rfl
  | reallocate size into =>
    exact ⟨_, Process.onArena fun a s => a.reallocate? s q size, tell into, fun _ => rfl,
      fun _ => rfl⟩
  | free => cases hc
  | reset => cases hc

/-- So is any action that needs one. -/
theorem Session.tells_act {action : ThreadAction} (haction : action.asks) (thread : String)
    (q : Option Address) (names : Names) :
    Tells thread names action.denial fun p => act p thread q names action := by
  cases action with
  | command c =>
    cases c with
    | call nullable c =>
      have hrun : (fun p => act p thread q names (.command (.call nullable c))) =
          c.run (.ofThread thread) q names := funext fun p => by rw [act, Command.run_call]
      rw [hrun]
      exact Call.tells haction thread q names
    | stats => cases haction
    | configure c => cases haction
    | configureSizes initial ceiling => cases haction
    | config => cases haction
  | access x => cases haction
  | withArena reasons body =>
    let tell := fun result : Except AllocError (List Answer × Names) =>
      (closureAnswer reasons (result.map Prod.fst), (result.toOption.map Prod.snd).getD names)
    refine ⟨_, Inner.closure thread names body, tell, fun p => ?_, fun _ => rfl⟩
    change withArena p thread names reasons body = _
    rw [withArena_eq]
    unfold Outcome.andThen
    cases (p.tryWithArena thread (Inner.closure thread names body)).result <;> rfl

end Script

end ArenaAlloc

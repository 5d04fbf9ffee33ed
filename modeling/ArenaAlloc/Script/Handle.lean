import ArenaAlloc.Script.Access
import ArenaAlloc.Script.Call

/-!
# Scripts on one arena

A script on an arena that it holds: it creates the arena, makes calls and looks at the arena's
state, and releases the arena at its end. The bookkeeping is reported after every step.

There is no process and no thread here, and so nothing can be unavailable. The supply is the
script's own, and nothing else takes from it. -/

namespace ArenaAlloc

namespace Script

/-- What a step does with an arena that the script holds. -/
inductive HandleAction where
  /-- Make a call, with reasons for failures or without. -/
  | call (reasons : Bool) (c : Call)
  /-- Ask about the step's pointer or, if it has none, about an address. -/
  | owns (place : Option Address)
  | capacity
  | stats
  | describe
  | access (x : Access)

def HandleAction.run (pointer : Option Address) (names : Names) (a : Arena) (s : Supply) :
    HandleAction → Outcome ((Arena × Supply) × Names) Answer
  | .call true c => c.run .reporting pointer names (a, s)
  | .call false c => c.run .optional pointer names (a, s)
  | .owns place =>
    match pointer <|> place with
    | some p => ⟨.truth (a.owns p), ((a, s), names), []⟩
    | none => ⟨.unbound, ((a, s), names), []⟩
  | .capacity => ⟨.number a.capacity, ((a, s), names), []⟩
  | .stats => ⟨.stats a.stats, ((a, s), names), []⟩
  | .describe => ⟨.text a.describe, ((a, s), names), []⟩
  | .access x =>
    let (a, answer) := x.run pointer a
    ⟨answer, ((a, s), names), []⟩

structure HandleStep where
  /-- The name of a pointer, if the step is about one. -/
  pointer : Option String
  action : HandleAction

def HandleStep.run (step : HandleStep) (names : Names) (a : Arena) (s : Supply) :
    Outcome ((Arena × Supply) × Names) Answer :=
  names.withPointer step.pointer ((a, s), names) fun p => step.action.run p names a s

/-- What is reported of a step: its answer, the bookkeeping after it, and what was logged. -/
structure HandleReport where
  answer : Answer
  stats : Stats Address
  events : List Event

def runSteps (names : Names) (a : Arena) (s : Supply) :
    List HandleStep → (Arena × Supply) × List HandleReport
  | [] => ((a, s), [])
  | step :: rest =>
    let o := step.run names a s
    let report := ⟨o.result, o.state.1.1.stats, o.events⟩
    let (after, reports) := runSteps o.state.2 o.state.1.1 o.state.1.2 rest
    (after, report :: reports)

/-- What is reported of a whole script. -/
inductive HandleRun where
  | failed (e : AllocError) (events : List Event)
  /-- The bookkeeping and log of the new arena, the steps, and what the release gave back. -/
  | finished (start : HandleReport) (steps : List HandleReport) (released : Nat × Nat)
    (events : List Event)

def runOnArena (config : Config) (s : Supply) (steps : List HandleStep) : HandleRun :=
  let o := Arena.create config s
  match o.result with
  | .error e => .failed e o.events
  | .ok a =>
    let start := ⟨.done, a.stats, o.events⟩
    let ((a, s), reports) := runSteps [] a o.state steps
    let released := a.release s
    .finished start reports released.result released.events

end Script

end ArenaAlloc

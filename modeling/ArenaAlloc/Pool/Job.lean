import ArenaAlloc.Arena.Access
import ArenaAlloc.Pattern
import ArenaAlloc.Pool.Basic
import ArenaAlloc.Process.Basic

/-!
# Jobs

Some jobs for the workers of a pool. Each runs on one thread of a process from start to end, uses
that thread's arena, and has one result.

The jobs are those that scripts dispatch. The pool itself knows nothing of them, and theorems about
pools are about any jobs; the few facts about these are in `Proofs.PoolOrder`. A scratch job uses
its block within one run and frees it, so no pointer passes from one job to another.
-/

namespace ArenaAlloc

namespace Pool

inductive Job where
  | square (n : UInt64)
  | name
  /-- Allocate, and say whether that worked and how much is used. -/
  | allocate (size : Nat)
  /-- Reset the arena, and say how much was used before and after. -/
  | reset
  /-- Allocate zeros, fill them with a pattern, move them to a block four times as long, verify the
  pattern there, and free it. -/
  | scratch (length : Nat) (seed : UInt64)
deriving DecidableEq, Repr

inductive JobResult where
  | number (n : UInt64)
  | name (s : String)
  | allocated (success : Bool) (used : Option Nat)
  | rewound (before after : Option Nat)
  | verified (success : Bool)
deriving DecidableEq, Repr

namespace JobResult

/-- A number that orders results of different kinds. -/
def rank : JobResult → Nat
  | number _ => 0
  | name _ => 1
  | allocated _ _ => 2
  | rewound _ _ => 3
  | verified _ => 4

/-- Absent values come first. -/
def compareOptional : Option Nat → Option Nat → Ordering
  | none, none => .eq
  | none, some _ => .lt
  | some _, none => .gt
  | some a, some b => compare a b

/-- Results in the order of their values, false before true. -/
def order : JobResult → JobResult → Ordering
  | number a, number b => compare a b
  | name a, name b => compare a b
  | allocated a x, allocated b y => (compare a b).then (compareOptional x y)
  | rewound a x, rewound b y => (compareOptional a b).then (compareOptional x y)
  | verified a, verified b => compare a b
  | a, b => compare a.rank b.rank

end JobResult

def usedOf (p : Process) (thread : String) : Option Nat := (p.stats thread).map Stats.used

def runScratch (p : Process) (thread : String) (length : Nat) (seed : UInt64) : Bool × Process :=
  let o := p.zeroAllocate thread length 1
  match o.result with
  | none => (false, o.state)
  | some zeros =>
    let filled := o.state.withExisting thread fun a =>
      let clean := Bank.agrees (a.read zeros length) fun _ => 0
      ⟨clean, a.write zeros length (Pattern.byte seed), []⟩
    let moved := filled.state.reallocate thread (some zeros) (4 * length)
    match moved.result with
    | none => (false, moved.state)
    | some longer =>
      let checked := moved.state.withExisting thread fun a =>
        ⟨Pattern.verify seed (a.read longer length), a, []⟩
      let freed := checked.state.free thread (some longer)
      (filled.result.getD false && checked.result.getD false, freed.state)

def Job.run (thread : String) (p : Process) : Job → JobResult × Process
  | .square n => (.number (n * n), p)
  | .name => (.name thread, p)
  | .allocate size =>
    let o := p.allocate thread size
    (.allocated o.result.isSome (usedOf o.state thread), o.state)
  | .reset =>
    let before := usedOf p thread
    let o := p.reset thread
    (.rewound before (usedOf o.state thread), o.state)
  | .scratch length seed =>
    let (success, p) := runScratch p thread length seed
    (.verified success, p)

def Job.routine (job : Job) : Routine Process JobResult := fun thread p => job.run thread p

end Pool

end ArenaAlloc

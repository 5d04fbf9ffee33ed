import ArenaAlloc.Arena.Basic

/-!
# Workloads

Deterministic mixes of request sizes for measuring an arena, the arena that holds such a mix in one
chunk, and the run that allocates it, frees every other block, allocates those again and resets.

The generator is a linear congruential one, with wrapping arithmetic on 64 bits, and sizes come from
the upper bits of its states. Everything is determined by the number of requests, the range and the
seed, so a measurement can be repeated. What the run does to an arena is the matter of
`Proofs.Churn`.
-/

namespace ArenaAlloc

/-- A mix of requests and the bytes that an arena spends on it when nothing is freed. -/
structure Workload where
  sizes : List Nat
  /-- Header and payload bytes of all requests. -/
  footprint : Nat
deriving DecidableEq, Repr

namespace Workload

def advance (state : UInt64) : UInt64 :=
  state * 6364136223846793005 + 1442695040888963407

/-- The size that a state stands for. Three requests of four fall in the lowest eighth of the
range. -/
def sizeAt (max : Nat) (state : UInt64) : Nat :=
  let bits := (state >>> 33).toNat
  let span := if bits % 4 = 0 then max else Nat.max (max / 8) 1
  1 + bits / 4 % span

def sizesFrom (max : Nat) (state : UInt64) : Nat → List Nat
  | 0 => []
  | n + 1 => sizeAt max (advance state) :: sizesFrom max (advance state) n

/-- `n` sizes from 1 to `max`, or all 1 when `max` is 0. -/
def requestSizes (n max : Nat) (seed : UInt64) : List Nat :=
  sizesFrom (Nat.max max 1) seed n

/-- The bytes an arena spends on a request: the header and the payload, rounded up if it can be. -/
def cost (size : Nat) : Nat := headerSize + (alignUp size).getD size

def generate (n max : Nat) (seed : UInt64) : Workload :=
  let sizes := requestSizes n max seed
  { sizes, footprint := total (sizes.map cost) }

def config (w : Workload) : Config :=
  { initialCapacity := Nat.max w.footprint Config.default.initialCapacity }

/-! ## The run -/

/-- Allocate sizes one after another: the pointers, in order, with none where there was no memory.
-/
def allocateAll (a : Arena) (s : Supply) : List Nat → (Arena × Supply) × List (Option Address)
  | [] => ((a, s), [])
  | size :: rest =>
    let o := a.allocate? s size
    let (after, pointers) := allocateAll o.state.1 o.state.2 rest
    (after, o.result :: pointers)

def freeAll (a : Arena) : List (Option Address) → Arena
  | [] => a
  | p :: rest => freeAll (a.free p).state rest

/-- Every other element, the first one included. -/
def everyOther {α : Type} : List α → List α
  | [] => []
  | [x] => [x]
  | x :: _ :: rest => x :: everyOther rest

/-- The statistics after allocating the mix, after freeing every other block, after allocating the
sizes of those again, and after a reset. -/
def churn (w : Workload) (a : Arena) (s : Supply) : List (Stats Address) :=
  let (filled, pointers) := allocateAll a s w.sizes
  let thinned := freeAll filled.1 (everyOther pointers)
  let (refilled, _) := allocateAll thinned filled.2 (everyOther w.sizes)
  let rewound := refilled.1.reset.state
  [filled.1.stats, thinned.stats, refilled.1.stats, rewound.stats]

/-- The run on a fresh arena of the mix's own configuration. -/
def run (w : Workload) : Except AllocError (List (Stats Address)) :=
  let s := Supply.unlimited
  let o := Arena.create w.config s
  o.result.map fun a => w.churn a o.state

end Workload

end ArenaAlloc

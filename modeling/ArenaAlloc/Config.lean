import ArenaAlloc.Size
import ArenaAlloc.Error

/-!
# Configurations

How large an arena starts, how fast it grows, and the ceiling it may not pass. A configuration is a
plain record; `Config.validate` says which ones an arena can be built from, and `Config.Fault` what
is wrong with the others.

What is checked is what the fields say, before any rounding. The first chunk is as long as the
initial capacity rounded up, so a ceiling at the initial capacity, or just above it, may lie below
that chunk; `Proofs.Ceiling` has when that is so. The order of the checks matters for the reason
that is given, and only for it. -/

namespace ArenaAlloc

structure Config where
  /-- Bytes of the first chunk, before rounding up. -/
  initialCapacity : Nat := 5 * 1024 * 1024
  growthFactor : Nat := 2
  /-- Upper bound on the total capacity; none means that only the memory supply limits it. -/
  maxCapacity : Option Nat := none
deriving DecidableEq, Repr

namespace Config

/-- The configuration that holds when none was installed: 5 MiB, doubling, no ceiling. -/
def default : Config := {}

instance : Inhabited Config := ⟨default⟩

def ofParameters (initial growth ceiling : Option Nat) : Config where
  initialCapacity := initial.getD default.initialCapacity
  growthFactor := growth.getD default.growthFactor
  maxCapacity := ceiling

inductive Fault where
  /-- The first chunk could not even hold a header. -/
  | initialTooSmall (initial : Nat)
  /-- The first chunk's size cannot be rounded up. -/
  | initialNotAligned (initial : Nat)
  /-- Growing would not add anything. -/
  | growthTooSmall (factor : Nat)
  /-- The ceiling lies below the first chunk. -/
  | ceilingTooLow (limit initial : Nat)
deriving DecidableEq, Repr

def Fault.reason : Fault → String
  | initialTooSmall initial => s!"initial_capacity must be >= {headerSize} bytes (got {initial})"
  | initialNotAligned initial => s!"initial_capacity {initial} cannot be aligned"
  | growthTooSmall factor => s!"growth_factor must be >= 2 (got {factor})"
  | ceilingTooLow limit initial =>
    s!"max_capacity ({limit}) must be >= initial_capacity ({initial})"

def Fault.toError (f : Fault) : AllocError := .invalidConfig f.reason

/-- The first fault of a configuration, in the order of its fields. -/
def fault? (c : Config) : Option Fault :=
  if c.initialCapacity < headerSize then some (.initialTooSmall c.initialCapacity)
  else if (alignUp c.initialCapacity).isNone then some (.initialNotAligned c.initialCapacity)
  else if c.growthFactor < 2 then some (.growthTooSmall c.growthFactor)
  else match c.maxCapacity with
    | some limit =>
      if limit < c.initialCapacity then some (.ceilingTooLow limit c.initialCapacity) else none
    | none => none

def validate (c : Config) : Except AllocError Unit :=
  match c.fault? with
  | some fault => .error fault.toError
  | none => .ok ()

def describe (c : Config) : String :=
  Text.record "ArenaConfig"
    [("initial_capacity", toString c.initialCapacity),
      ("growth_factor", toString c.growthFactor),
      ("max_capacity", Text.optional (c.maxCapacity.map toString))]

/-- **What an accepted configuration promises.** -/
theorem fault?_eq_none_iff {c : Config} :
    c.fault? = none ↔
      headerSize ≤ c.initialCapacity ∧ c.initialCapacity + (maxAlign - 1) < wordLimit ∧
        2 ≤ c.growthFactor ∧ ∀ limit, c.maxCapacity = some limit → c.initialCapacity ≤ limit := by
  unfold fault?
  simp only [Option.isNone_iff_eq_none, alignUp_eq_none]
  by_cases h1 : c.initialCapacity < headerSize
  · simp [h1, Nat.not_le.2 h1]
  by_cases h2 : wordLimit ≤ c.initialCapacity + (maxAlign - 1)
  · simp [h1, h2, Nat.not_lt.2 h2]
  by_cases h3 : c.growthFactor < 2
  · simp [h1, h2, h3, Nat.not_le.2 h3]
  · simp only [h1, h2, h3, if_false, Nat.not_lt.1 h1, Nat.not_le.1 h2, Nat.not_lt.1 h3, true_and]
    cases hm : c.maxCapacity with
    | none => simp
    | some limit =>
      by_cases h4 : limit < c.initialCapacity
      · simp [h4]
      · simp [h4, Nat.not_lt.1 h4]

theorem validate_eq_ok_iff {c : Config} : c.validate = .ok () ↔ c.fault? = none := by
  unfold validate
  cases c.fault? <;> simp

end Config

end ArenaAlloc

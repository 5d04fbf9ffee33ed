import ArenaAlloc.Process.Basic

/-!
# The nullable interface

The calls of a thread for callers that know no optional values: a pointer may be null, sizes of 0
stand for parameters that are not given, and configuring answers with a number.

Every call here is the call of `Process` with its answer in another form, so there is no state to
this interface. A null pointer for a block that is to be reallocated stands for no block, and for
one that is to be freed it makes the call do nothing. An error code is the only answer to
configuring; that different errors have different codes is `Status.code_injective`.
-/

namespace ArenaAlloc

/-- What configuring, or any error, amounts to as a number. -/
inductive Status where
  | ok
  /-- A configuration was rejected. -/
  | invalidArgument
  | alreadyConfigured
  | outOfMemory
  | capacityExceeded
  | sizeOverflow
  | unavailable
  /-- The call itself broke down. -/
  | panicked
deriving DecidableEq, Repr

namespace Status

/-- The number: 0 for success, negative for every error. -/
def code : Status → Int
  | ok => 0
  | invalidArgument => -1
  | alreadyConfigured => -2
  | outOfMemory => -3
  | capacityExceeded => -4
  | sizeOverflow => -5
  | unavailable => -6
  | panicked => -128

def name : Status → String
  | ok => "Ok"
  | invalidArgument => "InvalidArgument"
  | alreadyConfigured => "AlreadyConfigured"
  | outOfMemory => "OutOfMemory"
  | capacityExceeded => "CapacityExceeded"
  | sizeOverflow => "SizeOverflow"
  | unavailable => "Unavailable"
  | panicked => "Panicked"

def ofError : AllocError → Status
  | .outOfMemory _ => outOfMemory
  | .capacityExceeded _ _ _ => capacityExceeded
  | .sizeOverflow _ _ => sizeOverflow
  | .invalidConfig _ => invalidArgument
  | .alreadyConfigured => alreadyConfigured
  | .unavailable => unavailable

theorem code_ofError_neg (e : AllocError) : (ofError e).code < 0 := by
  cases e <;> simp [ofError, code]

theorem code_injective {a b : Status} (h : a.code = b.code) : a = b := by
  cases a <;> cases b <;> simp_all [code]

end Status

namespace Nullable

inductive Pointer where
  | null
  | address (a : Address)
deriving DecidableEq, Repr

namespace Pointer

def ofOption : Option Address → Pointer
  | none => null
  | some a => .address a

def toOption : Pointer → Option Address
  | null => none
  | .address a => some a

@[simp] theorem toOption_ofOption (p : Option Address) : (ofOption p).toOption = p := by
  cases p <;> rfl

end Pointer

def allocate (p : Process) (thread : String) (size : Nat) : Outcome Process Pointer :=
  (p.allocate thread size).map .ofOption

def zeroAllocate (p : Process) (thread : String) (count size : Nat) : Outcome Process Pointer :=
  (p.zeroAllocate thread count size).map .ofOption

/-- Change the size of a block; null stands for a block that is still to be made. -/
def reallocate (p : Process) (thread : String) (pointer : Pointer) (size : Nat) :
    Outcome Process Pointer :=
  (p.reallocate thread pointer.toOption size).map .ofOption

def free (p : Process) (thread : String) (pointer : Pointer) : Outcome Process Unit :=
  p.free thread pointer.toOption

def reset (p : Process) (thread : String) : Outcome Process Unit := p.reset thread

/-- The configuration that two sizes stand for: an initial capacity of 0 keeps the default, a
ceiling of 0 sets none. -/
def configOf (initial ceiling : Nat) : Config :=
  Config.ofParameters (if initial = 0 then none else some initial) none
    (if ceiling = 0 then none else some ceiling)

def configure (p : Process) (initial ceiling : Nat) : Outcome Process Status :=
  (p.configure (configOf initial ceiling)).map fun
    | .ok () => .ok
    | .error e => .ofError e

end Nullable

end ArenaAlloc

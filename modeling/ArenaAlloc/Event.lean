import ArenaAlloc.Address
import ArenaAlloc.Error

/-!
# Events

What an arena tells about itself while it works: that it was created, grew or could not grow, was
reset, ignored a block that was free already, or was released. Each event has a level, a message and
named values.

The events are those of a build with debug assertions and with every level of the log enabled.
Without the assertions `alreadyFreed` is not logged, and a filter may leave out others by their
level; neither changes what an arena does, as no operation looks at the log. What can be concluded
from the events alone is the matter of `Proofs.EventLog`. -/

namespace ArenaAlloc

/-- A step in the life of an arena that its log records. -/
inductive Event where
  /-- An arena was created with a first chunk of `capacity` bytes. -/
  | created (capacity : Nat)
  /-- An arena gave its `chunks`, of `capacity` bytes together, back to the supply. -/
  | released (chunks capacity : Nat)
  | reset (used capacity : Nat)
  /-- Chunk number `chunk` was added; the arena now has `capacity` bytes. -/
  | grew (chunk bytes capacity : Nat)
  /-- A chunk of `requested` bytes would have passed the ceiling. -/
  | growthRefused (capacity requested limit : Nat)
  | growthFailed (capacity requested : Nat) (error : AllocError)
  /-- The block with this payload was to be freed, and was free already. Only a build with debug
  assertions logs this. -/
  | alreadyFreed (payload : Address)
  | creationFailed (error : AllocError)
deriving DecidableEq, Repr

namespace Event

inductive Level where
  | trace | debug | warn
deriving DecidableEq, Repr

def Level.name : Level → String
  | trace => "TRACE"
  | debug => "DEBUG"
  | warn => "WARN"

inductive Value where
  | number (n : Nat)
  | text (s : String)
  | address (a : Address)
deriving DecidableEq, Repr

def level : Event → Level
  | created _ | released _ _ | grew _ _ _ => .debug
  | reset _ _ => .trace
  | growthRefused _ _ _ | growthFailed _ _ _ | alreadyFreed _ | creationFailed _ => .warn

def message : Event → String
  | created _ => "arena created"
  | released _ _ => "arena released"
  | reset _ _ => "arena reset"
  | grew _ _ _ => "arena grew"
  | growthRefused _ _ _ => "arena growth refused"
  | growthFailed _ _ _ => "arena growth failed"
  | alreadyFreed _ => "ignoring free of an already freed block"
  | creationFailed _ => "failed to create thread arena"

/-- The named values, in the order in which the log has them. -/
def fields : Event → List (String × Value)
  | created capacity => [("capacity", .number capacity)]
  | released chunks capacity => [("chunks", .number chunks), ("capacity", .number capacity)]
  | reset used capacity => [("used", .number used), ("capacity", .number capacity)]
  | grew chunk bytes capacity =>
    [("chunk", .number chunk), ("chunk_bytes", .number bytes), ("capacity", .number capacity)]
  | growthRefused capacity requested limit =>
    [("capacity", .number capacity), ("requested", .number requested), ("limit", .number limit)]
  | growthFailed capacity requested error =>
    [("capacity", .number capacity), ("requested", .number requested),
      ("error", .text error.message)]
  | alreadyFreed payload => [("address", .address payload)]
  | creationFailed error => [("error", .text error.message)]

end Event

end ArenaAlloc

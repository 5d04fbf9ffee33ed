import ArenaAlloc.Text.Record

/-!
# Errors

What can go wrong in an arena, as causes with the numbers that explain them. `AllocError.message`
is the text for a reader of a log, `AllocError.describe` the constructor with its fields.

Errors are compared by cause and numbers. The two texts are functions of those, so what is proved of
an error holds of its texts; the code that the nullable interface has for an error is
`Status.ofError`. -/

namespace ArenaAlloc

/-- Why an arena operation gave no result. -/
inductive AllocError where
  /-- There was no memory for a chunk of `requested` bytes. -/
  | outOfMemory (requested : Nat)
  /-- A chunk of `requested` bytes would have taken the arena's `capacity` past its `limit`. -/
  | capacityExceeded (requested capacity limit : Nat)
  /-- A size computation over `count` elements of `size` bytes does not fit a word. -/
  | sizeOverflow (count size : Nat)
  | invalidConfig (reason : String)
  | alreadyConfigured
  /-- The thread's arena is in use by an enclosing call. -/
  | unavailable
deriving DecidableEq, Repr

namespace AllocError

def kind : AllocError → String
  | outOfMemory _ => "OutOfMemory"
  | capacityExceeded _ _ _ => "CapacityExceeded"
  | sizeOverflow _ _ => "SizeOverflow"
  | invalidConfig _ => "InvalidConfig"
  | alreadyConfigured => "AlreadyConfigured"
  | unavailable => "Unavailable"

def message : AllocError → String
  | outOfMemory requested => s!"out of memory: could not obtain {requested} bytes"
  | capacityExceeded requested capacity limit =>
    s!"arena capacity exceeded: growing by {requested} bytes from {capacity} bytes would pass the {limit} byte limit"
  | sizeOverflow count size => s!"size overflow: {count} x {size} bytes does not fit in usize"
  | invalidConfig reason => s!"invalid arena config: {reason}"
  | alreadyConfigured => "arena configuration is already in effect"
  | unavailable => "no arena is available on this thread"

def describe (e : AllocError) : String :=
  match e with
  | outOfMemory requested => Text.record e.kind [("requested", toString requested)]
  | capacityExceeded requested capacity limit =>
    Text.record e.kind
      [("requested", toString requested), ("capacity", toString capacity),
        ("limit", toString limit)]
  | sizeOverflow count size =>
    Text.record e.kind [("count", toString count), ("size", toString size)]
  | invalidConfig reason => Text.record e.kind [("reason", Text.quoted reason)]
  | alreadyConfigured | unavailable => e.kind

end AllocError

end ArenaAlloc

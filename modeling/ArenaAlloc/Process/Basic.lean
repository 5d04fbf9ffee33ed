import ArenaAlloc.Arena.Basic
import ArenaAlloc.Table

/-!
# A process: one arena per thread

Each thread of a process has at most one arena. It is created by the first call on that thread that
needs it, from the one configuration of the process, and released when the thread ends. A caller may
borrow the arena for the length of a closure; while it is lent, every other call on that thread
finds it in use and gives no result.

Threads share two things: the configuration, which is decided once, and the supply that chunks come
from.

The slot of a thread says which of the calls can be served. It is empty before the first call and
after one that could not create an arena, `ready` between calls, and `inUse` while the arena is
lent. Lending takes the arena out of the slot, so there is no second way to it; the closure has it
as an argument, and the slot has it back when the closure returns.

Each call is one step here. All that another thread could do in the middle of one is to take from
the supply or to give back to it, as that and a decided configuration are what threads share. -/

namespace ArenaAlloc

/-- Where a thread keeps its arena. A thread that has none has no slot. -/
inductive Slot where
  | ready (arena : Arena)
  /-- The arena is lent to a closure. -/
  | inUse

/-- The state that the threads of a program share. -/
structure Process where
  /-- The configuration, once it is decided. -/
  config : Option Config := none
  /-- The slots of the threads that have an arena. -/
  slots : Table Slot := []
  supply : Supply

namespace Process

def fresh (supply : Supply) : Process := { supply }

def slot? (p : Process) (thread : String) : Option Slot := p.slots.find? thread

def setSlot (p : Process) (thread : String) (s : Slot) : Process :=
  { p with slots := p.slots.set thread s }

/-! ## Configuration -/

/-- Decide the configuration of the process. That works once, and not after the default one was
taken up by a call that needed a configuration. -/
def configure (p : Process) (c : Config) : Outcome Process (Except AllocError Unit) :=
  match c.validate with
  | .error e => ⟨.error e, p, []⟩
  | .ok () =>
    match p.config with
    | some _ => ⟨.error .alreadyConfigured, p, []⟩
    | none => ⟨.ok (), { p with config := some c }, []⟩

/-- The configuration of the process, which is the default one from now on if none was decided. -/
def settledConfig (p : Process) : Outcome Process Config :=
  match p.config with
  | some c => ⟨c, p, []⟩
  | none => ⟨.default, { p with config := some .default }, []⟩

/-! ## Borrowing the arena -/

/-- Run a closure on a thread's arena. While it runs the slot is in use. -/
def lend {α : Type} (p : Process) (thread : String) (arena : Arena)
    (body : Arena → Process → Outcome (Arena × Process) α) : Outcome Process α :=
  (body arena (p.setSlot thread .inUse)).mapState fun after =>
    after.2.setSlot thread (.ready after.1)

/-- Run a closure on a thread's arena, which is created if there is none. If that fails the closure
does not run, the slot stays empty, and the next call tries again. -/
def tryWithArena {α : Type} (p : Process) (thread : String)
    (body : Arena → Process → Outcome (Arena × Process) α) :
    Outcome Process (Except AllocError α) :=
  match p.slot? thread with
  | some .inUse => ⟨.error .unavailable, p, []⟩
  | some (.ready arena) => (p.lend thread arena body).map .ok
  | none =>
    p.settledConfig.andThen fun config p =>
      (Arena.create config p.supply).andThen fun created supply =>
        match created with
        | .error e => ⟨.error e, { p with supply }, [.creationFailed e]⟩
        | .ok arena => (({ p with supply }).lend thread arena body).map .ok

def withArena {α : Type} (p : Process) (thread : String)
    (body : Arena → Process → Outcome (Arena × Process) α) : Outcome Process (Option α) :=
  (p.tryWithArena thread body).map Except.toOption

/-- Run a closure on a thread's arena, if there is one and it is not in use. -/
def withExisting {α : Type} (p : Process) (thread : String) (body : Arena → Outcome Arena α) :
    Outcome Process (Option α) :=
  match p.slot? thread with
  | some (.ready arena) =>
    (p.lend thread arena fun arena p => (body arena).mapState (·, p)).map some
  | _ => ⟨none, p, []⟩

/-- An operation of an arena, on the supply of the process. -/
def onArena {α : Type} (operation : Arena → Supply → Outcome (Arena × Supply) α) (arena : Arena)
    (p : Process) : Outcome (Arena × Process) α :=
  (operation arena p.supply).mapState fun after => (after.1, { p with supply := after.2 })

/-! ## The calls of a thread -/

def allocate (p : Process) (thread : String) (size : Nat) : Outcome Process (Option Address) :=
  (p.withArena thread (onArena fun a s => a.allocate? s size)).map Option.join

/-- A pointer to `count * size` zero bytes. A product that does not fit a word is refused before the
arena is asked for. -/
def zeroAllocate (p : Process) (thread : String) (count size : Nat) :
    Outcome Process (Option Address) :=
  match checkedMul count size with
  | none => ⟨none, p, []⟩
  | some _ => (p.withArena thread (onArena fun a s => a.zeroAllocate? s count size)).map Option.join

def reallocate (p : Process) (thread : String) (pointer : Option Address) (size : Nat) :
    Outcome Process (Option Address) :=
  (p.withArena thread (onArena fun a s => a.reallocate? s pointer size)).map Option.join

/-- Free a block of the thread's arena. This never creates an arena. -/
def free (p : Process) (thread : String) (pointer : Option Address) : Outcome Process Unit :=
  match pointer with
  | none => ⟨(), p, []⟩
  | some _ => (p.withExisting thread fun a => a.free pointer).map fun _ => ()

/-- Forget every block of the thread's arena. This never creates an arena. -/
def reset (p : Process) (thread : String) : Outcome Process Unit :=
  (p.withExisting thread Arena.reset).map fun _ => ()

/-- The bookkeeping of the thread's arena, if it has one that is not in use. -/
def stats (p : Process) (thread : String) : Option (Stats Address) :=
  match p.slot? thread with
  | some (.ready arena) => some arena.stats
  | _ => none

/-- End a thread: its arena is released. The answer is the number of chunks and of bytes that the
supply has back. -/
def exit (p : Process) (thread : String) : Outcome Process (Nat × Nat) :=
  match p.slot? thread with
  | some (.ready arena) =>
    (arena.release p.supply).mapState fun supply =>
      { p with supply, slots := p.slots.erase thread }
  | _ => ⟨(0, 0), { p with slots := p.slots.erase thread }, []⟩

end Process

end ArenaAlloc

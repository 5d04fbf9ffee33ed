import ArenaAlloc.Script.Answer

/-!
# Calls and front ends

A `Call` is one of the five calls of an allocator. A `FrontEnd` is a way to make them: on an arena,
with reasons for failures or without, on a thread's own arena, or through the nullable interface.
The same calls run on every front end, so that a difference between two front ends is a difference
between two records of five functions and can be looked for there.

Pointers have names here. A call that comes back with one names it, and a later step says which of
the named ones it is about; addresses are not written down in a script, and so it can be run where
blocks lie elsewhere. -/

namespace ArenaAlloc

namespace Script

/-- A call of the allocator. `into` is the name for the pointer that comes back; the pointer that a
call takes is the one of its step. -/
inductive Call where
  | allocate (size : Nat) (into : String)
  | zeroAllocate (count size : Nat) (into : String)
  | reallocate (size : Nat) (into : String)
  | free
  | reset
deriving DecidableEq, Repr

/-- A way to make the calls of an allocator whose state is a `σ`. -/
structure FrontEnd (σ : Type) where
  allocate : σ → Nat → Outcome σ Answer
  zeroAllocate : σ → Nat → Nat → Outcome σ Answer
  reallocate : σ → Option Address → Nat → Outcome σ Answer
  free : σ → Option Address → Outcome σ Unit
  reset : σ → Outcome σ Unit

namespace FrontEnd

/-- An arena that says why a call failed. -/
def reporting : FrontEnd (Arena × Supply) where
  allocate st size := (st.1.allocate st.2 size).map .ofExcept
  zeroAllocate st count size := (st.1.zeroAllocate st.2 count size).map .ofExcept
  reallocate st pointer size := (st.1.reallocate st.2 pointer size).map .ofExcept
  free st pointer := (st.1.free pointer).mapState (·, st.2)
  reset st := st.1.reset.mapState (·, st.2)

/-- An arena that only says whether there is a pointer. -/
def optional : FrontEnd (Arena × Supply) where
  allocate st size := (st.1.allocate? st.2 size).map .ofOption
  zeroAllocate st count size := (st.1.zeroAllocate? st.2 count size).map .ofOption
  reallocate st pointer size := (st.1.reallocate? st.2 pointer size).map .ofOption
  free st pointer := (st.1.free pointer).mapState (·, st.2)
  reset st := st.1.reset.mapState (·, st.2)

def ofThread (thread : String) : FrontEnd Process where
  allocate p size := (p.allocate thread size).map .ofOption
  zeroAllocate p count size := (p.zeroAllocate thread count size).map .ofOption
  reallocate p pointer size := (p.reallocate thread pointer size).map .ofOption
  free p pointer := p.free thread pointer
  reset p := p.reset thread

/-- The arena of a thread, through the nullable interface. -/
def nullable (thread : String) : FrontEnd Process where
  allocate p size := (Nullable.allocate p thread size).map .ofPointer
  zeroAllocate p count size := (Nullable.zeroAllocate p thread count size).map .ofPointer
  reallocate p pointer size :=
    (Nullable.reallocate p thread (.ofOption pointer) size).map .ofPointer
  free p pointer := Nullable.free p thread (.ofOption pointer)
  reset p := Nullable.reset p thread

end FrontEnd

/-- Make a call on a pointer, or on none. A reset forgets all names. -/
def Call.run {σ : Type} (front : FrontEnd σ) (pointer : Option Address) (names : Names)
    (state : σ) : Call → Outcome (σ × Names) Answer
  | .allocate size into =>
    (front.allocate state size).andThen fun answer st => ⟨answer, (st, names.bind into answer), []⟩
  | .zeroAllocate count size into =>
    (front.zeroAllocate state count size).andThen fun answer st =>
      ⟨answer, (st, names.bind into answer), []⟩
  | .reallocate size into =>
    (front.reallocate state pointer size).andThen fun answer st =>
      ⟨answer, (st, names.bind into answer), []⟩
  | .free => (front.free state pointer).andThen fun _ st => ⟨.done, (st, names), []⟩
  | .reset => (front.reset state).andThen fun _ st => ⟨.done, (st, []), []⟩

end Script

end ArenaAlloc

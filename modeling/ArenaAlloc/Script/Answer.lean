import ArenaAlloc.Process.Nullable

/-!
# Answers

What a step of a script has to say.

Answers of all kinds of steps are of one type, so that reports of different front ends can be
compared. Steps refer to pointers by name, and a name is only bound by a call that had one to give.
A step about a name that is not held is no call at all (`Names.withPointer_of_not_holds`).
-/

namespace ArenaAlloc

namespace Script

/-- The pointers a script holds, by name. -/
abbrev Names := Table Address

inductive Answer where
  /-- No value: no pointer, or no arena. -/
  | nothing
  | done
  | pointer (a : Address)
  | failure (e : AllocError)
  | truth (b : Bool)
  | number (n : Nat)
  | status (s : Status)
  | text (s : String)
  | bytes (b : ByteArray)
  | digest (h : UInt64)
  | stats (s : Stats Address)
  | config (c : Config)
  /-- The step names a pointer that the script does not hold. -/
  | unbound
  /-- The step reaches past the end of a chunk. -/
  | outOfRange
  | all (answers : List Answer)

namespace Answer

def ofOption : Option Address → Answer
  | some a => pointer a
  | none => nothing

def ofExcept : Except AllocError Address → Answer
  | .ok a => pointer a
  | .error e => failure e

def ofPointer : Nullable.Pointer → Answer
  | .address a => pointer a
  | .null => nothing

def pointer? : Answer → Option Address
  | pointer a => some a
  | _ => none

end Answer

/-- Give the pointer of an answer a name. An answer without a pointer leaves the names alone. -/
def Names.bind (names : Names) (into : String) (answer : Answer) : Names :=
  match answer.pointer? with
  | some a => names.set into a
  | none => names

/-- Carry out a step that may name a pointer. A name that is not held is answered with `unbound`,
and then nothing happens, whatever the step is. -/
@[inline] def Names.withPointer {σ : Type} (names : Names) (name : Option String) (state : σ)
    (step : Option Address → Outcome σ Answer) : Outcome σ Answer :=
  match name with
  | none => step none
  | some name =>
    match names.find? name with
    | some p => step (some p)
    | none => ⟨.unbound, state, []⟩

/-- The step names no pointer, or one that is held. -/
def Names.Holds (names : Names) (name : Option String) : Prop :=
  ∀ n ∈ name, names.find? n ≠ none

theorem Names.withPointer_of_holds {σ : Type} {names : Names} {name : Option String}
    (h : names.Holds name) :
    ∃ p, ∀ (state : σ) (step : Option Address → Outcome σ Answer),
      names.withPointer name state step = step p := by
  cases name with
  | none => exact ⟨none, fun _ _ => rfl⟩
  | some n =>
    obtain ⟨p, hp⟩ := Option.ne_none_iff_exists'.1 (h n rfl)
    exact ⟨some p, fun _ _ => by simp only [withPointer, hp]⟩

theorem Names.withPointer_of_not_holds {σ : Type} {names : Names} {name : Option String}
    (h : ¬ names.Holds name) (state : σ) (step : Option Address → Outcome σ Answer) :
    names.withPointer name state step = ⟨.unbound, state, []⟩ := by
  cases name with
  | none => exact absurd (fun _ hn => nomatch hn) h
  | some n =>
    cases hfound : names.find? n with
    | none => simp only [withPointer, hfound]
    | some p =>
      refine absurd (fun k hk => ?_) h
      cases hk
      rw [hfound]
      exact Option.some_ne_none p

end Script

end ArenaAlloc

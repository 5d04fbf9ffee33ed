import ArenaAlloc.Error
import ArenaAlloc.Memory.Basic

/-!
# Where chunks come from

Arenas take their chunks from a supply of memory and give them back to it. The supply counts the
bytes that are out. It refuses a request that is too long for the address space, or that would take
the count past its limit. One supply serves every arena of a process, so what one thread takes
another may miss.

A chunk is not cleared when it is granted, so an arena finds in it whatever was there. That is
`contents`: any memory at all, with a bank for each chunk, and every arena made from the supply
starts with it. Theorems are about every supply and so about all contents. -/

namespace ArenaAlloc

structure Supply where
  /-- The bytes that may be out at one time; none for no limit. -/
  limit : Option Nat
  held : Nat := 0
  /-- What an arena finds in its chunks: a chunk is not cleared before it is handed out. -/
  contents : Memory := Memory.empty
deriving Inhabited

namespace Supply

def unlimited : Supply := { limit := none }

def limited (limit : Nat) : Supply := { limit := some limit }

def grants (s : Supply) (n : Nat) : Bool :=
  (match alignUp n with
    | some rounded => decide (rounded ≤ requestLimit)
    | none => false) &&
  (match s.limit with
    | some limit => decide (s.held + n ≤ limit)
    | none => true)

/-- Take a chunk of `n` bytes. A chunk has at least one byte. -/
def obtain (s : Supply) (n : Nat) : Except AllocError Supply :=
  if n = 0 then .error (.invalidConfig "chunk capacity must be non-zero")
  else if s.grants n then .ok { s with held := s.held + n }
  else .error (.outOfMemory n)

def giveBack (s : Supply) (n : Nat) : Supply := { s with held := s.held - n }

/-- **A chunk obtained is accounted for**, and stays within the limit. -/
theorem obtain_eq_ok {s s' : Supply} {n : Nat} (h : s.obtain n = .ok s') :
    s'.limit = s.limit ∧ s'.held = s.held + n ∧ 0 < n ∧ n ≤ requestLimit ∧
      ∀ limit, s.limit = some limit → s'.held ≤ limit := by
  unfold obtain at h
  by_cases hn : n = 0
  · simp [hn] at h
  by_cases hg : s.grants n = true
  · simp only [hn, hg, if_false, if_true, Except.ok.injEq] at h
    subst h
    simp only [grants, Bool.and_eq_true] at hg
    obtain ⟨h1, h2⟩ := hg
    refine ⟨rfl, rfl, Nat.pos_of_ne_zero hn, ?_, fun limit hl => ?_⟩
    · cases ha : alignUp n with
      | none => simp [ha] at h1
      | some r =>
        have hr := (alignUp_eq_some.1 ha).2.1
        simp only [ha, decide_eq_true_eq] at h1
        omega
    · simpa [hl] using h2
  · simp [hn, hg] at h

theorem contents_of_obtain {s s' : Supply} {n : Nat} (h : s.obtain n = .ok s') :
    s'.contents = s.contents := by
  unfold obtain at h
  split at h
  · cases h
  · split at h
    · cases h
      rfl
    · cases h

end Supply

end ArenaAlloc

import ArenaAlloc.Memory.Basic

/-!
# What a write changes

`byte_write` gives every byte of a memory after a write. From it: a number that was stored reads
back if its bytes can hold it, and writes beside a number leave it alone.

`Address.InRange` is the set of bytes that a write is about, and `Address.Apart` says that two such
sets have no byte in common. Both are decidable conditions on offsets, so a goal about them is one
for `omega`.

Numbers are stored low byte first. A number that is too large for its bytes loses its upper part, so
reading back needs a bound; the fields of a header have 8 bytes, or 4 for the tag, and no size, link
or index that an arena records is past that. -/

namespace ArenaAlloc

namespace Address

/-- The address lies in the `n` bytes from `a` on. -/
def InRange (b a : Address) (n : Nat) : Prop :=
  b.chunk = a.chunk ∧ a.offset ≤ b.offset ∧ b.offset < a.offset + n

instance (b a : Address) (n : Nat) : Decidable (b.InRange a n) :=
  inferInstanceAs (Decidable (_ ∧ _))

/-- The `k` bytes from `a` on and the `n` bytes from `b` on share none. -/
def Apart (a : Address) (k : Nat) (b : Address) (n : Nat) : Prop :=
  a.chunk ≠ b.chunk ∨ a.offset + k ≤ b.offset ∨ b.offset + n ≤ a.offset

instance (a : Address) (k : Nat) (b : Address) (n : Nat) : Decidable (a.Apart k b n) :=
  inferInstanceAs (Decidable (_ ∨ _))

end Address

namespace Memory

theorem bank_write (m : Memory) (a : Address) (n : Nat) (f : Nat → UInt8) (chunk : Nat) :
    (m.write a n f).bank chunk =
      if chunk = a.chunk then Bank.fill (m.bank chunk) a.offset f n else m.bank chunk := by
  simp only [bank, write, banksUpTo, Array.getD_eq_getD_getElem?, Array.getElem?_modify,
    Array.getElem?_append, Array.getElem?_replicate]
  by_cases hc : a.chunk = chunk
  · subst hc
    by_cases hs : a.chunk < m.banks.size
    · simp [hs]
    · have : a.chunk - m.banks.size < a.chunk + 1 - m.banks.size := by omega
      simp [hs, this]
  · have hc' : chunk ≠ a.chunk := fun h => hc h.symm
    by_cases hs : chunk < m.banks.size
    · simp [hc, hc', hs]
    · by_cases hl : chunk - m.banks.size < a.chunk + 1 - m.banks.size
      · simp [hc, hc', hs, hl]
      · simp [hc, hc', hs, hl]

/-- **A write sets its own range and nothing else.** -/
theorem byte_write (m : Memory) (a : Address) (n : Nat) (f : Nat → UInt8) (b : Address) :
    (m.write a n f).byte b = if b.InRange a n then f (b.offset - a.offset) else m.byte b := by
  simp only [byte, bank_write]
  by_cases hc : b.chunk = a.chunk
  · simp only [hc, if_true, Bank.byte_fill, Address.InRange, true_and]
  · simp only [hc, if_false, Address.InRange, false_and]

theorem byte_write_of_inRange {m : Memory} {a b : Address} {n : Nat} {f : Nat → UInt8}
    (h : b.InRange a n) : (m.write a n f).byte b = f (b.offset - a.offset) := by
  rw [byte_write, if_pos h]

theorem byte_write_of_not_inRange {m : Memory} {a b : Address} {n : Nat} {f : Nat → UInt8}
    (h : ¬ b.InRange a n) : (m.write a n f).byte b = m.byte b := by
  rw [byte_write, if_neg h]

/-! ## Reading a range -/

@[simp] theorem size_read (m : Memory) (a : Address) (n : Nat) : (m.read a n).size = n :=
  Bank.size_read _ _ _

theorem byte_read {m : Memory} {a : Address} {n i : Nat} (h : i < n) :
    Bank.byte (m.read a n) i = m.byte (a.plus i) :=
  Bank.byte_read h

/-! ## Copies and zero fills -/

/-! ## Numbers -/

@[simp] theorem number_zero (m : Memory) (a : Address) : m.number a 0 = 0 := rfl

theorem number_succ (m : Memory) (a : Address) (k : Nat) :
    m.number a (k + 1) = (m.byte a).toNat + 256 * m.number (a.plus 1) k := rfl

theorem byteLimit_succ (k : Nat) : byteLimit (k + 1) = 256 * byteLimit k := rfl

theorem number_congr {m m' : Memory} {a : Address} {k : Nat}
    (h : ∀ i < k, m.byte (a.plus i) = m'.byte (a.plus i)) : m.number a k = m'.number a k := by
  induction k generalizing a with
  | zero => rfl
  | succ k ih =>
    have h0 := h 0 (by omega)
    have hrest : m.number (a.plus 1) k = m'.number (a.plus 1) k := by
      refine ih fun i hi => ?_
      have := h (i + 1) (by omega)
      simpa [Address.plus, Nat.add_assoc, Nat.add_comm 1 i] using this
    simp only [number_succ, hrest]
    simp only [Address.plus, Nat.add_zero] at h0
    rw [h0]

theorem number_lt (m : Memory) (a : Address) (k : Nat) : m.number a k < byteLimit k := by
  induction k generalizing a with
  | zero => simp [byteLimit]
  | succ k ih =>
    have h1 := ih (a.plus 1)
    have h2 : (m.byte a).toNat < 256 := (m.byte a).toNat_lt
    simp only [number_succ, byteLimit]
    omega

/-- A number is the sum of its bytes' digits: a memory that holds the digits of `n` holds `n`. -/
theorem number_of_digits {m : Memory} {a : Address} {k n : Nat}
    (h : ∀ i < k, m.byte (a.plus i) = UInt8.ofNat (n / byteLimit i)) :
    m.number a k = n % byteLimit k := by
  induction k generalizing a n with
  | zero => simp [byteLimit, Nat.mod_one]
  | succ k ih =>
    have h0 := h 0 (by omega)
    simp only [byteLimit, Nat.div_one, Address.plus, Nat.add_zero] at h0
    have hrest : m.number (a.plus 1) k = (n / 256) % byteLimit k := by
      refine ih fun i hi => ?_
      have := h (i + 1) (by omega)
      rw [Nat.div_div_eq_div_mul, ← byteLimit_succ]
      simpa [Address.plus, Nat.add_assoc, Nat.add_comm 1 i] using this
    rw [number_succ, hrest, h0, byteLimit, Nat.mod_mul]
    simp

/-- **A stored number reads back**, up to what its bytes can hold. -/
theorem number_setNumber (m : Memory) (a : Address) (k n : Nat) :
    (m.setNumber a k n).number a k = n % byteLimit k := by
  refine number_of_digits fun i hi => ?_
  have hr : (a.plus i).InRange a k := ⟨rfl, by simp [Address.plus], by simp [Address.plus, hi]⟩
  rw [setNumber, byte_write_of_inRange hr]
  simp [Address.plus]

theorem number_setNumber_of_lt {m : Memory} {a : Address} {k n : Nat} (h : n < byteLimit k) :
    (m.setNumber a k n).number a k = n := by
  rw [number_setNumber, Nat.mod_eq_of_lt h]

theorem number_write_of_apart {m : Memory} {a b : Address} {k n : Nat} {f : Nat → UInt8}
    (h : a.Apart k b n) : (m.write b n f).number a k = m.number a k := by
  refine number_congr fun i hi => byte_write_of_not_inRange fun hr => ?_
  simp only [Address.InRange, Address.plus, Address.Apart] at *
  omega

end Memory

end ArenaAlloc

/-!
# Banks

A bank holds the bytes of one chunk. It is stored only as far as it has been written: bytes beyond
the stored ones read as zero, and writing one of them stores the gap before it. So a chunk of any
length costs nothing until it is used, and a bank is a total function from offsets to bytes.

That zero is a convention of how a bank is stored and no promise about fresh memory. The banks that
an arena starts from are the `contents` of the supply, which may be anything, so nothing that is
proved of arenas depends on what unwritten bytes read.

`byte_fill` is the one fact the rest of the library needs.

Banks are byte arrays because programs run on them; for proofs only `byte` counts. `fill` and `read`
are loops with an index, as fast as an array allows, and each has a lemma that says what it does to
every byte. The lemmas about loops are by induction on how many bytes are left, with the index and
the bank as they are then.
-/

namespace ArenaAlloc

/-- The stored front part of a chunk's bytes. -/
abbrev Bank := ByteArray

namespace Bank

/-- The byte at offset `i`; zero if it was never stored. -/
@[inline] def byte (b : Bank) (i : Nat) : UInt8 :=
  if h : i < b.size then b[i] else 0

def pad (b : Bank) : Nat → Bank
  | 0 => b
  | n + 1 => pad (b.push 0) n

/-- Set the byte at offset `i`, storing zeros up to it where needed. -/
def put (b : Bank) (i : Nat) (v : UInt8) : Bank :=
  if h : i < b.size then b.set i v h else (pad b (i - b.size)).push v

/-- Set the `n` bytes from `offset + i` on, the one at `offset + k` to `f k`. -/
def fillFrom (b : Bank) (offset : Nat) (f : Nat → UInt8) (i : Nat) : Nat → Bank
  | 0 => b
  | n + 1 => fillFrom (put b (offset + i) (f i)) offset f (i + 1) n

/-- Set the `n` bytes from `offset` on, the one at `offset + i` to `f i`. -/
def fill (b : Bank) (offset : Nat) (f : Nat → UInt8) (n : Nat) : Bank :=
  fillFrom b offset f 0 n

def readOnto (b : Bank) (acc : ByteArray) (i : Nat) : Nat → ByteArray
  | 0 => acc
  | n + 1 => readOnto b (acc.push (byte b i)) (i + 1) n

def read (b : Bank) (offset n : Nat) : ByteArray :=
  readOnto b (ByteArray.emptyWithCapacity n) offset n

/-- The number held in the `k` bytes from offset `i` on, low byte first. -/
def number (b : Bank) (i : Nat) : Nat → Nat
  | 0 => 0
  | k + 1 => (byte b i).toNat + 256 * number b (i + 1) k

def agrees (b : Bank) (f : Nat → UInt8) : Bool :=
  Nat.all b.size fun i _ => byte b i == f i

/-! ## Stored size -/

@[simp] theorem size_pad (b : Bank) (n : Nat) : (pad b n).size = b.size + n := by
  induction n generalizing b with
  | zero => rfl
  | succ n ih => rw [pad, ih, ByteArray.size_push]; omega

/-! ## Bytes -/

theorem byte_eq_data (b : Bank) (i : Nat) : byte b i = b.data[i]?.getD 0 := by
  unfold byte
  split
  · rename_i h
    rw [ByteArray.getElem_eq_getElem_data, Array.getElem?_eq_getElem (by exact h), Option.getD_some]
  · rename_i h
    rw [Array.getElem?_eq_none (by rw [ByteArray.size_data]; omega), Option.getD_none]

theorem byte_push (b : Bank) (v : UInt8) (j : Nat) :
    byte (b.push v) j = if j = b.size then v else byte b j := by
  rw [byte_eq_data, byte_eq_data, ByteArray.data_push, Array.getElem?_push, ByteArray.size_data]
  split <;> simp

@[simp] theorem byte_pad (b : Bank) (n j : Nat) : byte (pad b n) j = byte b j := by
  induction n generalizing b with
  | zero => rfl
  | succ n ih =>
    rw [pad, ih, byte_push]
    split
    · subst j; simp [byte]
    · rfl

theorem byte_put (b : Bank) (i : Nat) (v : UInt8) (j : Nat) :
    byte (put b i v) j = if j = i then v else byte b j := by
  unfold put
  split
  · rename_i h
    have hi : i < b.data.size := h
    rw [byte_eq_data, byte_eq_data, ByteArray.data_set, Array.getElem?_set]
    by_cases hj : j = i
    · simp [hj]
    · simp [hj, Ne.symm hj]
  · rename_i h
    rw [byte_push, byte_pad, size_pad]
    have : b.size + (i - b.size) = i := by omega
    rw [this]

theorem byte_fillFrom (b : Bank) (offset : Nat) (f : Nat → UInt8) (i n j : Nat) :
    byte (fillFrom b offset f i n) j =
      if offset + i ≤ j ∧ j < offset + i + n then f (j - offset) else byte b j := by
  induction n generalizing b i with
  | zero =>
    have : ¬ (offset + i ≤ j ∧ j < offset + i + 0) := by omega
    rw [if_neg this]
    rfl
  | succ n ih =>
    rw [fillFrom, ih, byte_put]
    by_cases h1 : j = offset + i
    · have h2 : ¬ (offset + (i + 1) ≤ j ∧ j < offset + (i + 1) + n) := by omega
      have h3 : offset + i ≤ j ∧ j < offset + i + (n + 1) := by omega
      have h4 : j - offset = i := by omega
      rw [if_neg h2, if_pos h1, if_pos h3, h4]
    · rw [if_neg h1]
      have h2 : (offset + (i + 1) ≤ j ∧ j < offset + (i + 1) + n) ↔
          (offset + i ≤ j ∧ j < offset + i + (n + 1)) := by omega
      simp only [h2]

/-- **A fill sets its own range and nothing else.** -/
theorem byte_fill (b : Bank) (offset : Nat) (f : Nat → UInt8) (n j : Nat) :
    byte (fill b offset f n) j =
      if offset ≤ j ∧ j < offset + n then f (j - offset) else byte b j :=
  byte_fillFrom b offset f 0 n j

/-! ## Reading a range -/

theorem size_readOnto (b : Bank) (acc : ByteArray) (i n : Nat) :
    (readOnto b acc i n).size = acc.size + n := by
  induction n generalizing acc i with
  | zero => rfl
  | succ n ih => rw [readOnto, ih, ByteArray.size_push]; omega

@[simp] theorem size_read (b : Bank) (offset n : Nat) : (read b offset n).size = n := by
  rw [read, size_readOnto]
  exact Nat.zero_add n

theorem byte_readOnto (b : Bank) (acc : ByteArray) (i n j : Nat) :
    byte (readOnto b acc i n) j =
      if acc.size ≤ j ∧ j < acc.size + n then byte b (i + (j - acc.size)) else byte acc j := by
  induction n generalizing acc i with
  | zero =>
    rw [if_neg (by omega)]
    rfl
  | succ n ih =>
    rw [readOnto, ih, ByteArray.size_push, byte_push]
    by_cases h1 : j = acc.size
    · rw [if_neg (by omega), if_pos h1, if_pos (by omega), h1, Nat.sub_self, Nat.add_zero]
    · rw [if_neg h1]
      by_cases h2 : acc.size + 1 ≤ j ∧ j < acc.size + 1 + n
      · rw [if_pos h2, if_pos (by omega)]
        congr 1
        omega
      · rw [if_neg h2, if_neg (by omega)]

theorem byte_read {b : Bank} {offset n j : Nat} (h : j < n) :
    byte (read b offset n) j = byte b (offset + j) := by
  have hsize : (ByteArray.emptyWithCapacity n).size = 0 := rfl
  rw [read, byte_readOnto, hsize, if_pos (by omega), Nat.sub_zero]

/-! ## Comparing -/

theorem agrees_iff {b : Bank} {f : Nat → UInt8} :
    agrees b f = true ↔ ∀ i < b.size, byte b i = f i := by
  simp [agrees, Nat.all_eq_finRange_all, List.all_eq_true, Fin.forall_iff]

end Bank

end ArenaAlloc

/-!
# Sizes

Sizes, offsets and capacities are natural numbers. A machine word bounds them: wherever a sum or a
product has to fit a word, the checked operations of this file answer `none` when it does not.
Payload sizes are rounded up to the payload alignment by `alignUp`.

Sizes are not words, because then every sum would have to be read modulo the limit, also where it
cannot wrap. Instead an operation that could wrap is checked here, and sums that are not checked are
bounded by theorems (`Proofs.Safety`). `total` is the sum of a list, and the lemmas about it are
those that lists of chunks and blocks need: of a list that is extended, and of one with an element
changed.
-/

namespace ArenaAlloc

/-- One more than the largest size a word of 64 bits holds. -/
def wordLimit : Nat := 0x10000000000000000

/-- The longest chunk there can be, after rounding: half the address space. -/
def requestLimit : Nat := 0x7fffffffffffffff

/-- How many chunks can be told apart by the 32 bits in a block's header. -/
def chunkLimit : Nat := 0x100000000

/-- Every payload starts at a multiple of this and has a length that is a multiple of it. -/
def maxAlign : Nat := 16

/-- Bytes of the header in front of every payload. -/
def headerSize : Nat := 32

def checkedAdd (a b : Nat) : Option Nat :=
  if a + b < wordLimit then some (a + b) else none

def checkedMul (a b : Nat) : Option Nat :=
  if a * b < wordLimit then some (a * b) else none

/-- The next multiple of `maxAlign` from `n` on. There is none when `n + 15` no longer fits a word;
the multiple itself does not fit then, since the limit is a multiple too. -/
def alignUp (n : Nat) : Option Nat :=
  if n + (maxAlign - 1) < wordLimit then some ((n + (maxAlign - 1)) / maxAlign * maxAlign) else none

def total (ns : List Nat) : Nat := ns.foldr (· + ·) 0

@[simp] theorem total_nil : total [] = 0 := rfl

@[simp] theorem total_cons (n : Nat) (ns : List Nat) : total (n :: ns) = n + total ns := rfl

@[simp] theorem total_append (ns ks : List Nat) : total (ns ++ ks) = total ns + total ks := by
  induction ns with
  | nil => simp
  | cons n ns ih => simp [ih, Nat.add_assoc]

theorem le_total {n : Nat} {ns : List Nat} (h : n ∈ ns) : n ≤ total ns := by
  induction ns with
  | nil => simp at h
  | cons k ns ih =>
    rcases List.mem_cons.1 h with rfl | h
    · exact Nat.le_add_right _ _
    · exact Nat.le_trans (ih h) (Nat.le_add_left _ _)

theorem dvd_total {d : Nat} {ns : List Nat} (h : ∀ n ∈ ns, d ∣ n) : d ∣ total ns := by
  induction ns with
  | nil => exact Nat.dvd_zero d
  | cons n ns ih =>
    exact Nat.dvd_add (h n List.mem_cons_self) (ih fun k hk => h k (List.mem_cons_of_mem n hk))

theorem total_set (ns : List Nat) (n : Nat) {i : Nat} (h : i < ns.length) :
    total (ns.set i n) + ns[i] = total ns + n := by
  induction ns generalizing i with
  | nil => simp at h
  | cons a rest ih =>
    cases i with
    | zero => simp; omega
    | succ i =>
      have := ih (Nat.lt_of_succ_lt_succ h)
      simp only [List.set_cons_succ, total_cons, List.getElem_cons_succ]
      omega

theorem checkedAdd_eq_some {a b c : Nat} :
    checkedAdd a b = some c ↔ a + b = c ∧ c < wordLimit := by
  unfold checkedAdd
  split <;> simp <;> omega

theorem checkedAdd_of_lt {a b : Nat} (h : a + b < wordLimit) : checkedAdd a b = some (a + b) :=
  if_pos h

theorem checkedAdd_of_le {a b : Nat} (h : wordLimit ≤ a + b) : checkedAdd a b = none :=
  if_neg (Nat.not_lt.2 h)

/-- **Rounding up is what it says**: a multiple of the alignment, at or after `n`, and nearer than
one alignment step. -/
theorem alignUp_eq_some {n r : Nat} :
    alignUp n = some r ↔
      n + (maxAlign - 1) < wordLimit ∧ n ≤ r ∧ r < n + maxAlign ∧ r % maxAlign = 0 := by
  by_cases h : n + (maxAlign - 1) < wordLimit
  · simp only [alignUp, h, if_true, Option.some.injEq, true_and]
    simp only [maxAlign]
    omega
  · simp [alignUp, h]

theorem alignUp_eq_none {n : Nat} : alignUp n = none ↔ wordLimit ≤ n + (maxAlign - 1) := by
  simp [alignUp]

end ArenaAlloc

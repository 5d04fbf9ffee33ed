import ArenaAlloc.Proofs.Growing
import Mathlib.Data.Nat.Log
import Mathlib.Order.Bounds.Basic

/-!
# How long the next chunk is

In an arena the capacity and what is asked for are multiples of the alignment, the capacity is not
zero and the factor is at least two. The length of the next chunk is a function of three numbers,
though, and it is known for all of them. The loop ends, after 64 rounds at the most
(`exists_rounds`). What it ends with is a `Goal`: the least power of the factor that is enough, or
what is needed where there is none that a word holds (`goal_iff`). The length is what that adds to
the capacity, rounded up; there is none exactly if a word does not hold the sum or, when it does,
the rounded length (`chunkLength_exact`).

`Proofs.Growing` is about arenas, where it can use that products of aligned numbers are aligned and
that the factor is at least two. None of this is assumed here. With a factor of 0 or 1, or with no
capacity to multiply, a product does not grow, and the loop takes what is needed in one round; that
is the second part of `Goal`. Without alignment the length is rounded, and may then no longer fit a
word; that is the other way to have no length.

So the result is an equivalence for the goal and an equation for the length, and leaves nothing open
for any three numbers.
-/

namespace ArenaAlloc

/-- Rounding up gives the least multiple of the alignment that is no smaller, if a word holds it. -/
theorem exists_isLeast_alignUp (n : Nat) :
    ∃ r, IsLeast {m | maxAlign ∣ m ∧ n ≤ m} r ∧
      alignUp n = if r < wordLimit then some r else none := by
  have hmod : (n + (maxAlign - 1)) / maxAlign * maxAlign < n + maxAlign ∧
      n ≤ (n + (maxAlign - 1)) / maxAlign * maxAlign := by
    simp only [maxAlign]
    omega
  generalize hr : (n + (maxAlign - 1)) / maxAlign * maxAlign = r at hmod
  have hdvd : maxAlign ∣ r := hr ▸ Nat.dvd_mul_left _ _
  refine ⟨r, ⟨⟨hdvd, hmod.2⟩, fun m hm => ?_⟩, ?_⟩
  · obtain ⟨⟨k, rfl⟩, hle⟩ := hm
    obtain ⟨j, rfl⟩ := hdvd
    simp only [maxAlign] at hmod hle ⊢
    omega
  · -- The limit is a multiple of the alignment, so `n + 15` reaches it exactly if `r` does.
    have hiff : n + (maxAlign - 1) < wordLimit ↔ r < wordLimit := by
      obtain ⟨j, rfl⟩ := hdvd
      simp only [maxAlign, wordLimit] at hmod ⊢
      omega
    simp only [alignUp, hr, hiff]

namespace Growth

variable {needed factor capacity total goal : Nat}

/-! ## The loop

Rounds are counted by iterating `next`, which is defined for all numbers, and not by the recursion
of `target`, which stops. That the two agree is part of `exists_rounds`. -/

/-- Where a product does not grow, what is needed takes its place. -/
theorem next_of_not_grows (h : capacity = 0 ∨ factor < 2) :
    next needed factor capacity = needed := by
  refine if_neg fun hgrows => Nat.not_le.2 hgrows.2 ?_
  rcases h with rfl | hfactor
  · exact Nat.le_of_eq (Nat.zero_mul factor)
  · calc capacity * factor
        ≤ capacity * 1 := Nat.mul_le_mul_left capacity (Nat.le_of_lt_succ hfactor)
      _ = capacity := Nat.mul_one capacity

theorem target_of_le (h : needed ≤ capacity) : target needed factor capacity = capacity := by
  rw [target, dif_neg (Nat.not_lt.2 h)]

theorem target_of_not_grows (h : capacity = 0 ∨ factor < 2) (hlt : capacity < needed) :
    target needed factor capacity = needed := by
  have hround : target needed factor capacity =
      target needed factor (next needed factor capacity) := by
    rw [target, dif_pos hlt]
  rw [hround, next_of_not_grows h, target_of_le (Nat.le_refl needed)]

/-- A product that replaces the capacity has at least one binary digit more. -/
theorem log_lt_log_next (hlt : capacity < next needed factor capacity)
    (hnext : next needed factor capacity ≠ needed) :
    Nat.log 2 capacity < Nat.log 2 (next needed factor capacity) := by
  have hgrows : next needed factor capacity = capacity * factor := by
    unfold next at hnext ⊢
    split
    · rfl
    · rw [if_neg ‹_›] at hnext
      exact absurd rfl hnext
  rw [hgrows] at hlt ⊢
  have hpos : 0 < capacity := by
    refine Nat.pos_of_ne_zero fun hzero => ?_
    rw [hzero, Nat.zero_mul] at hlt
    exact Nat.lt_irrefl 0 hlt
  have hfactor : 2 ≤ factor := (Nat.lt_mul_iff_one_lt_right hpos).1 hlt
  calc Nat.log 2 capacity
      < Nat.log 2 (capacity * 2) := by
        rw [Nat.log_mul_base (by decide) (Nat.ne_of_gt hpos)]
        exact Nat.lt_succ_self _
    _ ≤ Nat.log 2 (capacity * factor) := Nat.log_mono_right (Nat.mul_le_mul_left capacity hfactor)

/-- A word has 64 binary digits. -/
theorem log_lt (h : capacity < wordLimit) : Nat.log 2 capacity < 64 := by
  rcases Nat.eq_zero_or_pos capacity with rfl | hpos
  · decide
  · exact Nat.log_lt_of_lt_pow (Nat.ne_of_gt hpos) h

/-- **The loop ends**: the first round to reach what is needed is one of the first 64, and the loop
stops there. A round either doubles the capacity at least or is the last one. -/
theorem exists_rounds (hneeded : needed < wordLimit) (hcapacity : capacity < wordLimit)
    (factor : Nat) :
    ∃ rounds, IsLeast {n | needed ≤ (next needed factor)^[n] capacity} rounds ∧
      rounds + Nat.log 2 capacity ≤ 64 ∧
      target needed factor capacity = (next needed factor)^[rounds] capacity := by
  fun_induction target needed factor capacity with
  | case2 capacity hle =>
    exact ⟨0, ⟨Nat.not_lt.1 hle, fun n _ => Nat.zero_le n⟩,
      by rw [Nat.zero_add]; exact Nat.le_of_lt (log_lt hcapacity), rfl⟩
  | case1 capacity hmore hlt ih =>
    obtain ⟨rounds, ⟨henough, hleast⟩, hbound, htarget⟩ := ih (next_lt hneeded)
    refine ⟨rounds + 1, ⟨henough, fun n hn => ?_⟩, ?_, htarget⟩
    · cases n with
      | zero => exact absurd hmore (Nat.not_lt.2 hn)
      | succ n => exact Nat.succ_le_succ (hleast hn)
    · -- In the last round the goal may be what is needed itself, and then the digits need not grow.
      by_cases hlast : next needed factor capacity = needed
      · have hzero : rounds ≤ 0 := hleast (Nat.le_of_eq hlast.symm)
        have hlog := log_lt hcapacity
        omega
      · have hlog := log_lt_log_next hlt hlast
        omega

/-! ## What it ends with

`Goal` does not speak of rounds. It is what a reader of the configuration would expect, with a case
for the numbers that no word holds; `goal_iff` says that there is exactly one goal and that the loop
finds it. -/

/-- `multiple` is the capacity times the least power of the factor that makes room for `total` more
bytes, and a word holds it. -/
def Multiplies (capacity total factor multiple : Nat) : Prop :=
  0 < capacity ∧ 2 ≤ factor ∧
    ∃ k, IsLeast {k | capacity + total ≤ capacity * factor ^ k} k ∧
      multiple = capacity * factor ^ k ∧ multiple < wordLimit

/-- The capacity that growing for `total` bytes is after: the one there is if nothing is asked for,
else the multiple of it, else what is needed. -/
def Goal (capacity total factor goal : Nat) : Prop :=
  if total = 0 then goal = capacity
  else Multiplies capacity total factor goal ∨
    (¬ ∃ multiple, Multiplies capacity total factor multiple) ∧ goal = capacity + total

/-- There is one least power, so there is one multiple at the most. -/
theorem multiplies_iff {k multiple : Nat} (hc : 0 < capacity) (hf : 2 ≤ factor)
    (hk : IsLeast {k | capacity + total ≤ capacity * factor ^ k} k) :
    Multiplies capacity total factor multiple ↔
      multiple = capacity * factor ^ k ∧ multiple < wordLimit := by
  constructor
  · rintro ⟨-, -, j, hj, hmultiple⟩
    rw [hk.unique hj]
    exact hmultiple
  · exact fun hmultiple => ⟨hc, hf, k, hk, hmultiple⟩

/-- **The loop ends with the goal**, whatever the numbers are. -/
theorem goal_iff (h : capacity + total < wordLimit) :
    Goal capacity total factor goal ↔ goal = target (capacity + total) factor capacity := by
  unfold Goal
  split
  · rename_i hzero
    rw [hzero, Nat.add_zero, target_of_le (Nat.le_refl capacity)]
  · rename_i hasked
    have hmore : capacity < capacity + total := Nat.lt_add_of_pos_right (Nat.pos_of_ne_zero hasked)
    by_cases hgrows : 0 < capacity ∧ 2 ≤ factor
    · obtain ⟨hc, hf⟩ := hgrows
      obtain ⟨k, henough, hleast, htarget⟩ :=
        target_eq (capacity + total) hc hf (Nat.lt_trans hmore h)
      have hk : IsLeast {k | capacity + total ≤ capacity * factor ^ k} k :=
        ⟨henough, fun j hj => Nat.not_lt.1 fun hlt => Nat.not_le.2 (hleast j hlt) hj⟩
      simp only [multiplies_iff hc hf hk, htarget]
      split <;> rename_i hfits
      · have hsome : ∃ multiple, multiple = capacity * factor ^ k ∧ multiple < wordLimit :=
          ⟨_, rfl, hfits⟩
        simp only [hsome, not_true_eq_false, false_and, or_false, and_iff_left_iff_imp]
        rintro rfl
        exact hfits
      · have hnone : ∀ multiple, ¬ (multiple = capacity * factor ^ k ∧ multiple < wordLimit) := by
          rintro _ ⟨rfl, hlt⟩
          exact hfits hlt
        simp only [hnone, exists_false, not_false_eq_true, true_and, false_or]
    · have hnone : ∀ multiple, ¬ Multiplies capacity total factor multiple :=
        fun multiple hmultiple => hgrows ⟨hmultiple.1, hmultiple.2.1⟩
      have hidle : capacity = 0 ∨ factor < 2 := by omega
      simp only [hnone, exists_false, not_false_eq_true, true_and, false_or,
        target_of_not_grows hidle hmore]

/-! ## The length -/

/-- **How long the next chunk is**, for any capacity, any number of bytes and any factor. There is
no length if a word does not hold the sum. If it does, the loop ends, with the goal; the length is
what that adds to the capacity, rounded up, and there is none if a word does not hold it. It is
enough and a multiple of the alignment. Between multiples of the alignment nothing is rounded, and
the chunk takes the capacity just to the goal. -/
theorem chunkLength_exact (capacity total factor : Nat) :
    (wordLimit ≤ capacity + total → chunkLength capacity total factor = none) ∧
    (capacity + total < wordLimit →
      ∃ goal, (∀ g, Goal capacity total factor g ↔ g = goal) ∧
        (∃ rounds ≤ 64,
          IsLeast {n | capacity + total ≤ (next (capacity + total) factor)^[n] capacity} rounds ∧
            goal = (next (capacity + total) factor)^[rounds] capacity) ∧
        capacity + total ≤ goal ∧ goal < wordLimit ∧
        (∃ rounded, IsLeast {m | maxAlign ∣ m ∧ goal - capacity ≤ m} rounded ∧
          chunkLength capacity total factor = if rounded < wordLimit then some rounded else none) ∧
        (maxAlign ∣ capacity → maxAlign ∣ total →
          ∃ length, chunkLength capacity total factor = some length ∧ capacity + length = goal)) ∧
    ∀ length, chunkLength capacity total factor = some length →
      total ≤ length ∧ maxAlign ∣ length := by
  refine ⟨fun hover => chunkLength_of_overflow hover factor, fun hfits => ?_,
    fun length hlength => ⟨le_of_chunkLength hlength, dvd_of_chunkLength hlength⟩⟩
  have hcapacity : capacity < wordLimit := Nat.lt_of_le_of_lt (Nat.le_add_right _ _) hfits
  have hle := capacity_le_target (capacity + total) factor capacity
  obtain ⟨rounds, hrounds, hbound, htarget⟩ := exists_rounds hfits hcapacity factor
  refine ⟨target (capacity + total) factor capacity, fun g => goal_iff hfits,
    ⟨rounds, Nat.le_trans (Nat.le_add_right _ _) hbound, hrounds, htarget⟩,
    le_target _ _ _, target_lt factor hfits hcapacity, ?_, fun hc ht => ?_⟩
  · rw [chunkLength_of_fits hfits]
    exact exists_isLeast_alignUp _
  · exact ⟨_, chunkLength_eq factor hc ht hfits, Nat.add_sub_cancel' hle⟩

/-- The capacity is doubled three times for 5008 more bytes. -/
theorem chunkLength_exact_of_doublings :
    Goal 1024 5008 2 8192 ∧ chunkLength 1024 5008 2 = some 7168 := by
  obtain ⟨-, hfits, -⟩ := chunkLength_exact 1024 5008 2
  obtain ⟨goal, hgoal, -, -, -, -, haligned⟩ := hfits (by decide)
  obtain ⟨length, hlength, hsum⟩ := haligned ⟨64, rfl⟩ ⟨313, rfl⟩
  have hvalue : chunkLength 1024 5008 2 = some 7168 := by decide +kernel
  rw [hvalue] at hlength
  cases hlength
  exact ⟨(hgoal 8192).2 hsum, hvalue⟩

/-- A word holds the sum, but not the length rounded up. -/
example : chunkLength 0 (wordLimit - 1) 2 = none := by decide +kernel

end Growth

end ArenaAlloc

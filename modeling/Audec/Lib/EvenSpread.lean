import Mathlib

/-! Positions spread as evenly as they can be over a circle: `k` is struck when `k * h` is less than `h` modulo `n`. -/

namespace EvenSpread

variable {h n : Nat}

theorem quotient_succ (positive : 0 < n) (few : h ≤ n) (m : Nat) :
    (m + 1) * h / n = m * h / n + if (m + 1) * h % n < h then 1 else 0 := by
  have split := Nat.div_add_mod (m * h) n
  have below := Nat.mod_lt (m * h) positive
  set q := m * h / n
  set r := m * h % n
  have next : (m + 1) * h = n * q + (r + h) := by
    rw [add_mul, one_mul, ← split]
    ring
  by_cases short : r + h < n
  · have remainder : (m + 1) * h % n = r + h := by
      rw [next, Nat.mul_add_mod, Nat.mod_eq_of_lt short]
    rw [remainder, if_neg (by omega), next, Nat.mul_add_div positive, Nat.div_eq_of_lt short]
  · have passes : (m + 1) * h = n * (q + 1) + (r + h - n) := by
      rw [next, mul_add, mul_one]
      omega
    rcases Nat.eq_or_lt_of_le few with same | fewer
    · have remainder : (m + 1) * h % n = r := by
        rw [passes, Nat.mul_add_mod, Nat.mod_eq_of_lt (by omega)]
        omega
      rw [remainder, if_pos (by omega), passes, Nat.mul_add_div positive, Nat.div_eq_of_lt (by omega)]
    · have remainder : (m + 1) * h % n = r + h - n := by
        rw [passes, Nat.mul_add_mod, Nat.mod_eq_of_lt (by omega)]
      rw [remainder, if_pos (by omega), passes, Nat.mul_add_div positive, Nat.div_eq_of_lt (by omega)]

theorem count_succ (positive : 0 < n) (some : 0 < h) (few : h ≤ n) (m : Nat) :
    Nat.count (fun k => k * h % n < h) (m + 1) = m * h / n + 1 := by
  induction m with
  | zero => simp [Nat.count_succ, some]
  | succ m tail =>
    rw [Nat.count_succ, tail, quotient_succ positive few m]
    split <;> omega

theorem count_struck (positive : 0 < n) (few : h ≤ n) : Nat.count (fun k => k * h % n < h) n = h := by
  rcases Nat.eq_zero_or_pos h with rfl | some
  · simp [Nat.count_eq_card_filter_range]
  · obtain ⟨m, rfl⟩ := Nat.exists_eq_succ_of_ne_zero positive.ne'
    rw [count_succ positive some few]
    have whole : m * h = (m + 1) * (h - 1) + (m + 1 - h) := by
      obtain ⟨k, rfl⟩ := Nat.exists_eq_succ_of_ne_zero some.ne'
      have bound : k + 1 ≤ m + 1 := few
      rw [Nat.succ_sub_one]
      have : m * (k + 1) + k = (m + 1) * k + m := by ring
      have rest : m + 1 - (k + 1) = m - k := by omega
      rw [Nat.succ_eq_add_one, rest]
      omega
    rw [whole, Nat.mul_add_div (by omega), Nat.div_eq_of_lt (by omega)]
    omega

def Struck (n h k : ℤ) : Prop := k * h % n < h

instance (n h k : ℤ) : Decidable (Struck n h k) := inferInstanceAs (Decidable (_ < _))

structure Gap (holds : ℤ → Prop) (k gap : ℤ) : Prop where
  positive : 0 < gap
  lands : holds (k + gap)
  clear : ∀ j, 0 < j → j < gap → ¬ holds (k + j)

section Gaps

variable {n h k : ℤ}

theorem struck_add (j : ℤ) : Struck n h (k + j) ↔ (k * h % n + j * h) % n < h := by
  rw [Struck, add_mul, Int.emod_add_emod]

theorem struck_periodic : Struck n h (k % n) ↔ Struck n h k := by
  rw [Struck, Struck, ← Int.emod_emod_of_dvd (k % n * h) (dvd_refl n), Int.emod_emod_of_dvd _ (dvd_refl n),
    Int.mul_emod, Int.emod_emod_of_dvd k (dvd_refl n), ← Int.mul_emod]

variable {j gap : ℤ}

theorem not_struck_of_short (struck : Struck n h k) (positive : 0 < n) (ahead : 0 < j)
    (short : k * h % n + j * h < n) : ¬ Struck n h (k + j) := by
  have low := Int.emod_nonneg (k * h) positive.ne'
  have some : 0 < h := lt_of_le_of_lt low struck
  have least : h ≤ j * h := le_mul_of_one_le_left some.le ahead
  rw [struck_add, Int.emod_eq_of_lt (by linarith) short]
  linarith

theorem struck_of_reaches (few : h ≤ n) (reaches : n ≤ k * h % n + j * h) (barely : k * h % n + j * h < n + h) :
    Struck n h (k + j) := by
  rw [struck_add, ← Int.sub_emod_right, Int.emod_eq_of_lt (by linarith) (by linarith)]
  linarith

theorem exists_reach {rest : ℤ} (some : 0 < h) (short : rest < n) : ∃ j, 0 < j ∧ n ≤ rest + j * h ∧ rest + j * h < n + h := by
  refine ⟨(n - rest - 1) / h + 1, ?_, ?_, ?_⟩
  · have := Int.ediv_nonneg (show 0 ≤ n - rest - 1 by omega) some.le
    omega
  · have below := Int.lt_ediv_add_one_mul_self (n - rest - 1) some
    linarith
  · have above := Int.ediv_mul_le (n - rest - 1) some.ne'
    rw [add_mul, one_mul]
    linarith

section

variable (positive : 0 < n) (few : h ≤ n) (struck : Struck n h k)
include positive few struck

theorem Gap.bounds (next : Gap (Struck n h) k gap) :
    n ≤ k * h % n + gap * h ∧ k * h % n + gap * h < n + h := by
  have low := Int.emod_nonneg (k * h) positive.ne'
  have some : 0 < h := lt_of_le_of_lt low struck
  constructor
  · by_contra short
    exact not_struck_of_short struck positive next.positive (not_le.mp short) next.lands
  · by_contra far
    obtain ⟨j, ahead, reaches, barely⟩ := exists_reach some (Int.emod_lt_of_pos (k * h) positive)
    have earlier : j < gap := lt_of_mul_lt_mul_right (by linarith) some.le
    exact next.clear j ahead earlier (struck_of_reaches few reaches barely)

theorem exists_gap : ∃ gap, Gap (Struck n h) k gap := by
  have low := Int.emod_nonneg (k * h) positive.ne'
  have some : 0 < h := lt_of_le_of_lt low struck
  obtain ⟨j, ahead, reaches, barely⟩ := exists_reach some (Int.emod_lt_of_pos (k * h) positive)
  refine ⟨j, ahead, struck_of_reaches few reaches barely, fun i first earlier => ?_⟩
  refine not_struck_of_short struck positive first ?_
  have step : (i + 1) * h ≤ j * h := Int.mul_le_mul_of_nonneg_right (by omega) some.le
  rw [add_mul, one_mul] at step
  linarith

theorem Gap.le_succ {l : ℤ} (struck' : Struck n h l)
    {other : ℤ} (next : Gap (Struck n h) k gap) (next' : Gap (Struck n h) l other) : gap ≤ other + 1 := by
  have low := Int.emod_nonneg (k * h) positive.ne'
  have some : 0 < h := lt_of_le_of_lt low struck
  obtain ⟨-, near⟩ := next.bounds positive few struck
  obtain ⟨reaches, -⟩ := next'.bounds positive few struck'
  have remainder : l * h % n < h := struck'
  have apart : gap * h < (other + 2) * h := by
    rw [add_mul]
    linarith
  have := lt_of_mul_lt_mul_right apart some.le
  omega

end

end Gaps

theorem struck_natCast {k : Nat} : Struck n h k ↔ k * h % n < h := by
  rw [Struck]
  exact_mod_cast Iff.rfl

theorem card_shifted (positive : 0 < n) (few : h ≤ n) (shift : ℤ) :
    ((Finset.range n).filter fun k : Nat => Struck n h (k - shift)).card = h := by
  have circle : (0 : ℤ) < n := by exact_mod_cast positive
  have unshifted : ((Finset.range n).filter fun k : Nat => Struck n h k).card = h := by
    have counted := count_struck positive few
    rw [Nat.count_eq_card_filter_range] at counted
    simpa only [struck_natCast] using counted
  refine Eq.trans ?_ unshifted
  have turned (k : ℤ) : ((k % n).toNat : ℤ) = k % n := Int.toNat_of_nonneg (Int.emod_nonneg k circle.ne')
  have inside (k : ℤ) : (k % n).toNat < n := by
    have := turned k
    have := Int.emod_lt_of_pos k circle
    omega
  refine Finset.card_nbij' (fun k => ((k - shift) % n).toNat) (fun k => ((k + shift) % n).toNat) ?_ ?_ ?_ ?_
  · intro k member
    simp only [Finset.coe_filter, Finset.mem_range, Set.mem_ofPred_eq] at member ⊢
    rw [turned, struck_periodic]
    exact ⟨inside _, member.2⟩
  · intro k member
    simp only [Finset.coe_filter, Finset.mem_range, Set.mem_ofPred_eq] at member ⊢
    refine ⟨inside _, ?_⟩
    rw [turned, ← struck_periodic, Int.emod_sub_emod, add_sub_cancel_right, struck_periodic]
    exact member.2
  · intro k member
    simp only [Finset.coe_filter, Finset.mem_range, Set.mem_ofPred_eq] at member
    change ((((k - shift) % n).toNat + shift) % n).toNat = k
    rw [turned, Int.emod_add_emod, sub_add_cancel, Int.emod_eq_of_lt (by omega) (by exact_mod_cast member.1)]
    rfl
  · intro k member
    simp only [Finset.coe_filter, Finset.mem_range, Set.mem_ofPred_eq] at member
    change ((((k + shift) % n).toNat - shift) % n).toNat = k
    rw [turned, Int.emod_sub_emod, add_sub_cancel_right, Int.emod_eq_of_lt (by omega) (by exact_mod_cast member.1)]
    rfl

end EvenSpread

import Mathlib

/-! A ruler whose spacing changes from segment to segment, each segment starting on a line of the one
    before it. A point is a line and an offset from it; counting points and counting lines locate
    the same segment. -/

namespace Ruler

variable {start width lines : ℕ → ℤ} {count index other : ℕ} {point later line offset : ℤ}

/-- The last of so many segments that has started at a point, or else the first. -/
structure Located (start : ℕ → ℤ) (count : ℕ) (point : ℤ) (index : ℕ) : Prop where
  bound : index < count
  started : index = 0 ∨ start index ≤ point
  ahead : index + 1 < count → point < start (index + 1)

structure Ruled (start width lines : ℕ → ℤ) (count : ℕ) : Prop where
  positive : ∀ index < count, 0 < width index
  rising : ∀ index, index + 1 < count → lines index < lines (index + 1)
  aligned : ∀ index, index + 1 < count → start (index + 1) = start index + (lines (index + 1) - lines index) * width index

section

variable (rising : ∀ index, index + 1 < count → start index < start (index + 1))
include rising

theorem before_of_rising (before : index < other) (bound : other < count) :
    start index < start other := by
  induction other, before using Nat.le_induction with
  | base => exact rising index bound
  | succ other _ ih => exact (ih (Nat.lt_of_succ_lt bound)).trans (rising other bound)

section

variable (located : Located start count point index)
include located

theorem Located.last
    (bound : other < count) (reached : start other ≤ point) : other ≤ index := by
  by_contra beyond
  have further : index + 1 ≤ other := not_le.mp beyond
  have ahead := located.ahead (Nat.lt_of_le_of_lt further bound)
  rcases Nat.eq_or_lt_of_le further with same | less
  · rw [same] at ahead
    omega
  · have := before_of_rising rising less bound
    omega

theorem Located.le
    (located' : Located start count later other) (ordered : point ≤ later) : index ≤ other := by
  rcases located.started with first | started
  · omega
  · exact located'.last rising located.bound (started.trans ordered)

theorem Located.unique
    (located' : Located start count point other) : index = other :=
  Nat.le_antisymm (located.le rising located' le_rfl) (located'.le rising located le_rfl)

end

end

namespace Ruled

variable (ruled : Ruled start width lines count)

include ruled

theorem start_rising (index : ℕ) (bound : index + 1 < count) : start index < start (index + 1) := by
  have more := ruled.rising index bound
  have positive := ruled.positive index (Nat.lt_of_succ_lt bound)
  have span : 0 < (lines (index + 1) - lines index) * width index := Int.mul_pos (by omega) positive
  rw [ruled.aligned index bound]
  omega

theorem line_located (located : Located start count point index) :
    Located lines count (lines index + (point - start index) / width index) index where
  bound := located.bound
  started := by
    rcases located.started with first | started
    · exact .inl first
    · right
      have := Int.ediv_nonneg (sub_nonneg.mpr started) (ruled.positive index located.bound).le
      omega
  ahead := by
    intro bound
    have before := located.ahead bound
    rw [ruled.aligned index bound] at before
    have fewer : (point - start index) / width index < lines (index + 1) - lines index :=
      Int.ediv_lt_of_lt_mul (ruled.positive index located.bound) (by omega)
    omega

theorem point_located (located : Located lines count line index) (nonneg : 0 ≤ offset) (short : offset < width index) :
    Located start count (start index + (line - lines index) * width index + offset) index where
  bound := located.bound
  started := by
    rcases located.started with first | started
    · exact .inl first
    · right
      have := Int.mul_nonneg (sub_nonneg.mpr started) (ruled.positive index located.bound).le
      omega
  ahead := by
    intro bound
    have before := located.ahead bound
    have span : (line - lines index + 1) * width index ≤ (lines (index + 1) - lines index) * width index :=
      Int.mul_le_mul_of_nonneg_right (by omega) (ruled.positive index located.bound).le
    rw [add_mul, one_mul] at span
    rw [ruled.aligned index bound]
    omega

theorem coordinates (bound : index < count) (nonneg : 0 ≤ offset) (short : offset < width index) :
    (start index + (line - lines index) * width index + offset - start index) / width index = line - lines index ∧
      (start index + (line - lines index) * width index + offset - start index) % width index = offset := by
  have positive := ruled.positive index bound
  have regrouped : start index + (line - lines index) * width index + offset - start index =
      offset + (line - lines index) * width index := by ring
  rw [regrouped]
  constructor
  · rw [Int.add_mul_ediv_right _ _ positive.ne', Int.ediv_eq_zero_of_lt nonneg short, zero_add]
  · rw [Int.add_mul_emod_self_right, Int.emod_eq_of_lt nonneg short]

theorem ordered (located : Located start count point index) (located' : Located start count later other) (before : point < later) :
    lines index + (point - start index) / width index < lines other + (later - start other) / width other ∨
      index = other ∧ (point - start index) / width index = (later - start index) / width index ∧
        (point - start index) % width index < (later - start index) % width index := by
  rcases Nat.eq_or_lt_of_le (located.le ruled.start_rising located' before.le) with same | further
  · subst same
    have positive := ruled.positive index located.bound
    rcases Int.lt_or_eq_of_le (Int.ediv_le_ediv positive (show point - start index ≤ later - start index by omega)) with less | equal
    · left
      omega
    · right
      have whole := Int.mul_ediv_add_emod (point - start index) (width index)
      have whole' := Int.mul_ediv_add_emod (later - start index) (width index)
      rw [equal] at whole
      exact ⟨rfl, equal, by omega⟩
  · left
    have line := (ruled.line_located located).ahead (Nat.lt_of_le_of_lt further located'.bound)
    have reached : lines (index + 1) ≤ lines other := by
      rcases Nat.eq_or_lt_of_le further with same | beyond
      · rw [← same]
      · exact (before_of_rising ruled.rising beyond located'.bound).le
    have started := (ruled.line_located located').started
    omega

theorem floor_located (located : Located start count point index) :
    Located start count (start index + (point - start index) / width index * width index) index := by
  have inside := ruled.point_located (ruled.line_located located) le_rfl (ruled.positive index located.bound)
  rw [add_sub_cancel_left, add_zero] at inside
  exact inside

theorem floor_le (bound : index < count) : start index + (point - start index) / width index * width index ≤ point := by
  have := Int.ediv_mul_le (point - start index) (ruled.positive index bound).ne'
  omega

theorem lt_ceil (bound : index < count) : point < start index + (point - start index) / width index * width index + width index := by
  have := Int.lt_ediv_add_one_mul_self (point - start index) (ruled.positive index bound)
  rw [add_mul, one_mul] at this
  omega

theorem ceil_le (located : Located start count point index) (bound : other < count) (ahead : point < start other) :
    start index + (point - start index) / width index * width index + width index ≤ start other := by
  have positive := ruled.positive index located.bound
  rcases lt_trichotomy index other with further | same | behind
  · have here : index + 1 < count := Nat.lt_of_le_of_lt further bound
    have line := (ruled.line_located located).ahead here
    have span : ((point - start index) / width index + 1) * width index ≤ (lines (index + 1) - lines index) * width index :=
      Int.mul_le_mul_of_nonneg_right (by omega) positive.le
    rw [add_mul, one_mul] at span
    have reached : start (index + 1) ≤ start other := by
      rcases Nat.eq_or_lt_of_le further with same | beyond
      · rw [← same]
      · exact (before_of_rising ruled.start_rising beyond bound).le
    rw [ruled.aligned index here] at reached
    omega
  · subst same
    have negative : (point - start index) / width index < 0 := Int.ediv_neg_of_neg_of_pos (by omega) positive
    have span : ((point - start index) / width index + 1) * width index ≤ 0 := Int.mul_nonpos_of_nonpos_of_nonneg (by omega) positive.le
    rw [add_mul, one_mul] at span
    omega
  · have started := located.started
    have := before_of_rising ruled.start_rising behind located.bound
    omega

end Ruled

end Ruler

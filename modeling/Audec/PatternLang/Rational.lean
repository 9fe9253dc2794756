import Audec.PatternLang.Model
import Audec.Lib.Checked

/-! The exact fractions of the evaluator: parts of 64 bits, computed in 128. -/

namespace Audec.PatternLang

open Machine Checked FloatDebug

inductive PatternEvalError where
  | unboundName (name : Text)
  | stepCollision (binding : Text) (tick : Nat)
  | emptyPattern
  | invalidRatio (numerator denominator : U32)
  | invalidParameter (label : String)
  | nestedSwing | spanOverflow | invalidCycle

abbrev Eval (α : Type) := Except (Stop PatternEvalError) α

def fails {α : Type} (error : PatternEvalError) : Eval α := .error (.error error)

structure Rational where
  numerator : U64
  denominator : U64
  positive : 0 < denominator.val

namespace Rational

def zero : Rational := ⟨0, 1, by decide⟩

def one : Rational := ⟨1, 1, by decide⟩

theorem quotient_pos {n d : Nat} (nonzero : d ≠ 0) : 0 < d / max (Nat.gcd n d) 1 := by
  have positive := Nat.pos_of_ne_zero nonzero
  have divides := Nat.gcd_dvd_right n d
  have divisor : max (Nat.gcd n d) 1 = Nat.gcd n d := max_eq_left (Nat.gcd_pos_of_pos_right n positive)
  rw [divisor]
  exact Nat.div_pos (Nat.le_of_dvd positive divides) (Nat.gcd_pos_of_pos_right n positive)

def new (numerator denominator : U64) : Eval Rational :=
  if zero : denominator.val = 0 then fails .spanOverflow
  else
    let divisor := max (Nat.gcd numerator.val denominator.val) 1
    .ok ⟨⟨numerator.val / divisor, (Nat.div_le_self _ _).trans_lt numerator.isLt⟩,
      ⟨denominator.val / divisor, (Nat.div_le_self _ _).trans_lt denominator.isLt⟩, quotient_pos zero⟩

/-- Lowest terms of 128-bit parts. -/
def checked (numerator denominator : Nat) : Eval Rational :=
  if zero : denominator = 0 then fails .spanOverflow
  else
    let divisor := max (Nat.gcd numerator denominator) 1
    if fits : numerator / divisor < 0x10000000000000000 ∧ denominator / divisor < 0x10000000000000000 then
      .ok ⟨⟨numerator / divisor, fits.1⟩, ⟨denominator / divisor, fits.2⟩, quotient_pos zero⟩
    else fails .spanOverflow

def crossSum (a b : Rational) : Nat :=
  a.numerator.val * b.denominator.val + b.numerator.val * a.denominator.val

def add (a b : Rational) : Eval Rational :=
  checked (crossSum a b % 0x100000000000000000000000000000000) (a.denominator.val * b.denominator.val)

def mul (a b : Rational) : Eval Rational :=
  checked (a.numerator.val * b.numerator.val) (a.denominator.val * b.denominator.val)

def div (a b : Rational) : Eval Rational :=
  if b.numerator = 0 then fails .spanOverflow
  else checked (a.numerator.val * b.denominator.val) (a.denominator.val * b.numerator.val)

def scaleInt (a : Rational) (factor : Nat) : Eval Rational :=
  checked (a.numerator.val * factor) a.denominator.val

def cmpValue (a b : Rational) : Ordering :=
  compare (a.numerator.val * b.denominator.val) (b.numerator.val * a.denominator.val)

/-- The number a fraction stands for. -/
def value (a : Rational) : ℚ := a.numerator.val / a.denominator.val

@[simp] theorem value_zero : zero.value = 0 := by simp [value, zero]

@[simp] theorem value_one : one.value = 1 := by
  change ((1 : Nat) : ℚ) / ((1 : Nat) : ℚ) = 1
  norm_num

theorem value_nonneg (a : Rational) : 0 ≤ a.value := by
  unfold value
  positivity

theorem denominator_pos (a : Rational) : (0 : ℚ) < a.denominator.val := by
  exact_mod_cast a.positive

theorem quotient_value {n d divisor : Nat} (nonzero : d ≠ 0) (common : divisor = max (Nat.gcd n d) 1) :
    ((n / divisor : Nat) : ℚ) / (d / divisor : Nat) = n / d := by
  have positive := Nat.pos_of_ne_zero nonzero
  have same : divisor = Nat.gcd n d := common.trans (max_eq_left (Nat.gcd_pos_of_pos_right n positive))
  have divisorPos : 0 < Nat.gcd n d := Nat.gcd_pos_of_pos_right n positive
  have rational : (Nat.gcd n d : ℚ) ≠ 0 := by exact_mod_cast divisorPos.ne'
  rw [same, Nat.cast_div (Nat.gcd_dvd_left n d) rational, Nat.cast_div (Nat.gcd_dvd_right n d) rational]
  exact div_div_div_cancel_right₀ rational _ _

variable {denominator numerator : U64} {result a b : Rational}

theorem new_value (done : new numerator denominator = .ok result) :
    denominator.val ≠ 0 ∧ result.value = numerator.val / denominator.val := by
  unfold new at done
  split at done
  · cases done
  · rename_i nonzero
    cases done
    exact ⟨nonzero, quotient_value nonzero rfl⟩

theorem new_ok (nonzero : denominator.val ≠ 0) :
    ∃ result, new numerator denominator = .ok result := by
  unfold new
  rw [dif_neg nonzero]
  exact ⟨_, rfl⟩

theorem checked_value {numerator denominator : Nat}
    (done : checked numerator denominator = .ok result) :
    denominator ≠ 0 ∧ result.value = numerator / denominator := by
  unfold checked at done
  split at done
  · cases done
  · rename_i nonzero
    dsimp only at done
    split at done
    · cases done
      exact ⟨nonzero, quotient_value nonzero rfl⟩
    · cases done

theorem mul_value (done : mul a b = .ok result) : result.value = a.value * b.value := by
  rw [(checked_value done).2, value, value, div_mul_div_comm]
  push_cast
  rfl

theorem div_value (done : div a b = .ok result) :
    b.value ≠ 0 ∧ result.value = a.value / b.value := by
  unfold div at done
  split at done
  · cases done
  · rename_i nonzero
    have numerator : (b.numerator.val : ℚ) ≠ 0 := by
      intro zero
      exact nonzero (Fin.val_eq_zero_iff.mp (by exact_mod_cast zero))
    constructor
    · exact div_ne_zero numerator b.denominator_pos.ne'
    · rw [(checked_value done).2, value, value, div_div_div_eq]
      push_cast
      rfl

theorem scaleInt_value {factor : Nat} (done : scaleInt a factor = .ok result) :
    result.value = a.value * factor := by
  rw [(checked_value done).2, value, div_mul_eq_mul_div]
  push_cast
  rfl

theorem crossSum_value (a b : Rational) :
    (crossSum a b : ℚ) = (a.value + b.value) * (a.denominator.val * b.denominator.val) := by
  have left := a.denominator_pos.ne'
  have right := b.denominator_pos.ne'
  unfold crossSum value
  push_cast
  field_simp

theorem add_value (fits : crossSum a b < 0x100000000000000000000000000000000)
    (done : add a b = .ok result) : result.value = a.value + b.value := by
  have denominators : (a.denominator.val * b.denominator.val : ℚ) ≠ 0 :=
    mul_ne_zero a.denominator_pos.ne' b.denominator_pos.ne'
  rw [(checked_value done).2, Nat.mod_eq_of_lt fits, crossSum_value, Nat.cast_mul, mul_div_cancel_right₀ _ denominators]

theorem add_value_of_le_one (small : a.value + b.value ≤ 1) (done : add a b = .ok result) :
    result.value = a.value + b.value := by
  refine add_value ?_ done
  have product : a.denominator.val * b.denominator.val < 0x100000000000000000000000000000000 :=
    Nat.mul_lt_mul'' a.denominator.isLt b.denominator.isLt
  have bounded : crossSum a b ≤ a.denominator.val * b.denominator.val := by
    have positive : (0 : ℚ) ≤ a.denominator.val * b.denominator.val := by positivity
    have scaled := mul_le_mul_of_nonneg_right small positive
    rw [← crossSum_value, one_mul] at scaled
    exact_mod_cast scaled
  omega

theorem lt_iff (a b : Rational) :
    a.numerator.val * b.denominator.val < b.numerator.val * a.denominator.val ↔ a.value < b.value := by
  unfold value
  rw [div_lt_div_iff₀ a.denominator_pos b.denominator_pos]
  exact_mod_cast Iff.rfl

theorem cmpValue_lt (a b : Rational) : cmpValue a b = .lt ↔ a.value < b.value := by
  rw [cmpValue, compare_lt_iff_lt, lt_iff]

theorem cmpValue_gt (a b : Rational) : cmpValue a b = .gt ↔ b.value < a.value := by
  rw [cmpValue, compare_gt_iff_gt, lt_iff]

end Rational

end Audec.PatternLang

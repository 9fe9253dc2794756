import Mathlib

/-! Decimal reading of single-precision numbers: an exact expansion reads back as its number, and a
    decimal with one digit before the point stays within a factor of sixty-four of one. -/

namespace FloatDecimal

open Float.Model hiding unpack pack mul div
open Float.Model.UnpackedFloat

theorem shift_exact (m n : Nat) :
    (⟨m * 2 ^ n, false, false⟩ : ExtendedMantissa) >>> n = ⟨m, false, false⟩ := by
  change n.repeat ExtendedMantissa.shiftRightOne _ = _
  induction n generalizing m with
  | zero => simp [Nat.repeat]
  | succ n ih =>
    have doubled : m * 2 ^ (n + 1) = (m * 2) * 2 ^ n := by ring
    rw [Nat.repeat, doubled, ih]
    simp [ExtendedMantissa.shiftRightOne]

theorem shift_mantissa (em : ExtendedMantissa) (n : Nat) : (em >>> n).mantissa = em.mantissa / 2 ^ n := by
  change (n.repeat ExtendedMantissa.shiftRightOne em).mantissa = _
  induction n with
  | zero => simp [Nat.repeat]
  | succ n ih =>
    rw [Nat.repeat, ExtendedMantissa.shiftRightOne, ih, Nat.div_div_eq_div_mul, pow_succ]

theorem log2_mul_pow (m j : Nat) (positive : 0 < m) : (m * 2 ^ j).log2 = m.log2 + j := by
  induction j with
  | zero => simp
  | succ j ih =>
    have := Nat.two_pow_pos j
    have doubled : m * 2 ^ (j + 1) = 2 * (m * 2 ^ j) := by ring
    rw [doubled, Nat.log2_two_mul (Nat.mul_pos positive this).ne', ih, Nat.add_assoc]

theorem log2_mul_le (a b : Nat) (left : 0 < a) (right : 0 < b) : (a * b).log2 ≤ a.log2 + b.log2 + 1 := by
  rw [← Nat.lt_succ_iff, Nat.log2_lt (Nat.mul_pos left right).ne']
  have ha := (Nat.log2_lt left.ne').mp (Nat.lt_succ_self a.log2)
  have hb := (Nat.log2_lt right.ne').mp (Nat.lt_succ_self b.log2)
  calc a * b < 2 ^ (a.log2 + 1) * 2 ^ (b.log2 + 1) := Nat.mul_lt_mul'' ha hb
    _ = 2 ^ (a.log2 + b.log2 + 1 + 1) := by ring

structure Canonical (format : Format) (m : Nat) (e : Int) : Prop where
  positive : 0 < m
  exponent : format.targetExponent (totalExponent m e) = e

variable {e : Int} {m : Nat} {sign : Sign}

variable {format : Format} {b : BitVec Format.binary32.numBits} {positive : 0 < m} {q : Nat} {t : Int}
  {u : UnpackedFloat} {x : Float32}

theorem round_exact (canonical : Canonical format m e) (sign : Sign) (j : Nat) :
    roundWithAccuracy format sign (m * 2 ^ j) (e - j) .exact = .finite sign m e canonical.positive := by
  have total : totalExponent (m * 2 ^ j) (e - j) = totalExponent m e := by
    rw [totalExponent, totalExponent, log2_mul_pow m j canonical.positive]
    push_cast
    ring
  have first : shiftToTargetExponent format (m * 2 ^ j) (e - j) .exact = (⟨m, false, false⟩, e) := by
    unfold shiftToTargetExponent shiftToExponent
    simp only [total, canonical.exponent, sub_sub_cancel, Int.toNat_natCast, sub_add_cancel,
      ExtendedMantissa.ofMantissaAndAccuracy]
    rw [shift_exact]
  have second : shiftToTargetExponent format m e .exact = (⟨m, false, false⟩, e) := by
    unfold shiftToTargetExponent shiftToExponent
    simp only [canonical.exponent, sub_self, Int.toNat_zero, Nat.cast_zero, add_zero,
      ExtendedMantissa.ofMantissaAndAccuracy]
    rfl
  have rounded : (⟨m, false, false⟩ : ExtendedMantissa).roundedMantissa = m := rfl
  unfold roundWithAccuracy
  simp only [first, rounded, second]
  rw [dif_neg canonical.positive.ne']

theorem targetExponent_mono (format : Format) {a b : Int} (le : a ≤ b) :
    format.targetExponent a ≤ format.targetExponent b := by
  unfold Format.targetExponent
  omega

theorem divCore_exact (canonical : Canonical format m e) (s : Nat)
    (expands : 0 ≤ s + e) : ∃ j : Nat,
      divCore format (m * 5 ^ s * 2 ^ (s + e).toNat) 0 (10 ^ s) 0 = (m * 2 ^ j, e - j, .exact) := by
  have five : 0 < 5 ^ s := Nat.pow_pos (by decide)
  have ten : (10 : Nat) ^ s = 5 ^ s * 2 ^ s := by rw [← Nat.mul_pow]
  generalize low : min ((0 : Int) - 0) (format.targetExponent
    (totalExponent (m * 5 ^ s * 2 ^ (s + e).toNat) 0 - totalExponent (10 ^ s) 0)) = t
  have target : t ≤ e := by
    have growth := log2_mul_le m (5 ^ s) canonical.positive five
    have bits : totalExponent (m * 5 ^ s * 2 ^ (s + e).toNat) 0 - totalExponent (10 ^ s) 0 ≤ totalExponent m e := by
      rw [totalExponent, totalExponent, totalExponent, ten, log2_mul_pow _ _ (Nat.mul_pos canonical.positive five),
        log2_mul_pow _ _ five]
      omega
    have := targetExponent_mono format bits
    rw [canonical.exponent] at this
    omega
  have bounded : t ≤ 0 := by omega
  have shifted : (m * 5 ^ s * 2 ^ (s + e).toNat) <<< (-t).toNat = m * 2 ^ (e - t).toNat * 10 ^ s := by
    rw [Nat.shiftLeft_eq, ten]
    calc m * 5 ^ s * 2 ^ (s + e).toNat * 2 ^ (-t).toNat
        = m * 5 ^ s * 2 ^ ((s + e).toNat + (-t).toNat) := by rw [pow_add]; ring
      _ = m * 5 ^ s * 2 ^ ((e - t).toNat + s) := by congr 2; omega
      _ = m * 2 ^ (e - t).toNat * (5 ^ s * 2 ^ s) := by rw [pow_add]; ring
  refine ⟨(e - t).toNat, ?_⟩
  unfold divCore
  simp only [low]
  have amount : ((0 : Int) - 0 - t).toNat = (-t).toNat := by omega
  rw [amount, shifted, Nat.mul_div_cancel _ (by positivity), Nat.mul_mod_left]
  refine Prod.ext rfl (Prod.ext ?_ rfl)
  change t = e - ((e - t).toNat : Int)
  omega

/-- The number `digits / 10 ^ scale`, rounded to single precision. -/
def readDecimal (digits scale : Nat) : Float32 :=
  Float32.ofModel (Float32.Model.ofScientific digits (-scale))

def expansion (m : Nat) (e : Int) (scale : Nat) : Nat :=
  m * 5 ^ scale * 2 ^ (scale + e).toNat

theorem ofScientific_expansion (canonical : Canonical .binary32 m e) {s : Nat} (positive : 0 < s)
    (small : s ≤ 256) (expands : 0 ≤ s + e) :
    UnpackedFloat.ofScientific .binary32 (expansion m e s) (-s) = .finite .positive m e canonical.positive := by
  have nonzero : expansion m e s ≠ 0 := by
    have := canonical.positive
    unfold expansion
    positivity
  obtain ⟨j, divided⟩ := divCore_exact canonical s expands
  have scale : (- -(s : Int)).toNat = s := by omega
  unfold UnpackedFloat.ofScientific
  rw [dif_neg nonzero, if_neg (by simp only [Int.not_lt]; omega), if_neg (by simp only [Int.not_lt]; omega), if_neg (by omega)]
  unfold UnpackedFloat.div
  simp only [scale]
  unfold expansion
  rw [divided]
  exact round_exact canonical _ j

section

variable (b : BitVec Format.binary32.numBits)

theorem unpackMantissa_toNat :
    (unpackMantissa b).toNat = b.toNat % 0x800000 := by
  simp [unpackMantissa, BitVec.extractLsb, BitVec.extractLsb']

theorem unpackExponent_toNat :
    (unpackExponent b).toNat = b.toNat / 0x800000 % 0x100 := by
  simp [unpackExponent, BitVec.extractLsb, BitVec.extractLsb', Nat.shiftRight_eq_div_pow]

theorem unpackSign_toNat :
    (unpackSign b).toNat = b.toNat / 0x80000000 := by
  have := b.isLt
  change b.toNat < 2 ^ 32 at this
  simp only [unpackSign, BitVec.extractLsb, BitVec.extractLsb', Nat.shiftRight_eq_div_pow, BitVec.toNat_cast,
    BitVec.toNat_ofNat]
  change b.toNat / 0x80000000 % 2 = _
  omega

end

theorem append_toNat {n k : Nat} (high : BitVec n) (low : BitVec k) :
    (high ++ low).toNat = high.toNat * 2 ^ k + low.toNat := by
  rw [BitVec.toNat_append, ← Nat.shiftLeft_add_eq_or_of_lt low.isLt, Nat.shiftLeft_eq]

theorem packComponents_toNat (sign : Sign) (exponent : BitVec 8) (mantissa : BitVec 23) :
    (packComponents .binary32 sign exponent mantissa).toNat =
      sign.toBitVec.toNat * 0x80000000 + exponent.toNat * 0x800000 + mantissa.toNat := by
  unfold packComponents
  rw [append_toNat, append_toNat]
  change (_ * 0x100 + _) * 0x800000 + _ = _
  omega

theorem packComponents_unpack (b : BitVec Format.binary32.numBits) :
    packComponents .binary32 (Sign.ofBitVec (unpackSign b)) (unpackExponent b) (unpackMantissa b) = b := by
  have sign : (Sign.ofBitVec (unpackSign b)).toBitVec = unpackSign b := by
    generalize unpackSign b = v
    revert v
    decide
  apply BitVec.eq_of_toNat_eq
  rw [packComponents_toNat, sign, unpackMantissa_toNat, unpackExponent_toNat, unpackSign_toNat]
  omega

theorem unpack_cases (b : BitVec Format.binary32.numBits) :
    (unpackExponent b = -1#_ ∧ unpack .binary32 b =
      if unpackMantissa b = 0#_ then .infinity (Sign.ofBitVec (unpackSign b)) else .notANumber) ∨
    (unpackExponent b = 0#_ ∧ unpackMantissa b = 0#_ ∧ unpack .binary32 b = .zero (Sign.ofBitVec (unpackSign b))) ∨
    (unpackExponent b = 0#_ ∧ ∃ positive,
      unpack .binary32 b = .finite (Sign.ofBitVec (unpackSign b)) (unpackMantissa b).toNat (-149) positive) ∨
    (0 < (unpackExponent b).toNat ∧ (unpackExponent b).toNat < 255 ∧ ∃ positive,
      unpack .binary32 b = .finite (Sign.ofBitVec (unpackSign b)) (0x800000 + (unpackMantissa b).toNat)
        ((unpackExponent b).toNat - 150) positive) := by
  have bias : (Format.binary32.exponentBias : Int) + Format.binary32.mantissaBitsWithoutImplicit = 150 := rfl
  by_cases top : unpackExponent b = -1#_
  · refine Or.inl ⟨top, ?_⟩
    simp only [unpack, if_pos top]
  by_cases bottom : unpackExponent b = 0#_
  · by_cases zero : unpackMantissa b = 0#_
    · refine Or.inr (Or.inl ⟨bottom, zero, ?_⟩)
      simp only [unpack, if_neg top, if_pos bottom, dif_pos zero]
    · refine Or.inr (Or.inr (Or.inl ⟨bottom, ?_, ?_⟩))
      · simpa [BitVec.toNat_pos, BitVec.pos_iff_ne_zero] using zero
      · simp only [unpack, if_neg top, if_pos bottom, dif_neg zero, bias]
        simp only [bottom]
        rfl
  · refine Or.inr (Or.inr (Or.inr ⟨?_, ?_, ?_, ?_⟩))
    · rw [Nat.pos_iff_ne_zero]
      intro zero
      exact bottom (BitVec.eq_of_toNat_eq zero)
    · have bounded := (unpackExponent b).isLt
      change _ < 256 at bounded
      rcases Nat.lt_or_eq_of_le (Nat.le_of_lt_succ bounded) with less | equal
      · exact less
      · exact absurd (BitVec.eq_of_toNat_eq equal) top
    · omega
    · have mantissa : (1#1 ++ unpackMantissa b).toNat = 0x800000 + (unpackMantissa b).toNat := append_toNat _ _
      simp only [unpack, if_neg top, if_neg bottom, mantissa, bias]

theorem unpack_canonical
    (unpacked : unpack .binary32 b = .finite sign m e positive) : Canonical .binary32 m e := by
  have mantissa := (unpackMantissa b).isLt
  change _ < 2 ^ 23 at mantissa
  refine ⟨positive, ?_⟩
  rcases unpack_cases b with ⟨-, other⟩ | ⟨-, -, other⟩ | ⟨-, nonzero, subnormal⟩ | ⟨low, high, nonzero, normal⟩
  · rw [other] at unpacked
    split at unpacked <;> cases unpacked
  · rw [other] at unpacked
    cases unpacked
  · rw [subnormal] at unpacked
    cases unpacked
    have := (Nat.log2_lt positive.ne').mpr mantissa
    change max ((_ : Int) + 1 + -149 - 24) (-149) = -149
    omega
  · rw [normal] at unpacked
    cases unpacked
    have upper := (Nat.log2_lt (k := 24) positive.ne').mpr (by omega)
    have lower := (Nat.le_log2 (k := 23) positive.ne').mpr (by omega)
    change max ((Nat.log2 _ : Int) + 1 + (_ - 150) - 24) (-149) = _
    omega

theorem pack_unpack (valid : Format.binary32.Valid b) :
    pack .binary32 (unpack .binary32 b) = b := by
  have whole := packComponents_unpack b
  have mantissa := (unpackMantissa b).isLt
  change _ < 2 ^ 23 at mantissa
  rcases unpack_cases b with ⟨top, other⟩ | ⟨bottom, zero, other⟩ | ⟨bottom, nonzero, subnormal⟩ | ⟨low, high, nonzero, normal⟩
  · rw [other]
    split
    · rename_i zero
      rw [top, zero] at whole
      exact whole
    · rename_i nan
      exact (valid.eq_packedNaN top nan).symm
  · rw [other]
    rw [bottom, zero] at whole
    exact whole
  · have small := (Nat.log2_lt nonzero.ne').mpr mantissa
    rw [subnormal]
    unfold pack
    have implicit : ¬ (unpackMantissa b).toNat.log2 + 1 = Format.binary32.mantissaBits := by
      change ¬ _ = 24
      omega
    rw [if_neg (by decide), if_neg implicit]
    rw [bottom] at whole
    rw [BitVec.ofNat_toNat, BitVec.setWidth_eq]
    exact whole
  · have upper := (Nat.log2_lt (k := 24) nonzero.ne').mpr (by omega)
    have lower := (Nat.le_log2 (k := 23) nonzero.ne').mpr (by omega)
    rw [normal]
    unfold pack
    have biased : ((((unpackExponent b).toNat : Int) - 150) + Format.binary32.exponentBias +
        Format.binary32.mantissaBitsWithoutImplicit).toNat = (unpackExponent b).toNat := by
      change (_ - (150 : Int) + 127 + 23).toNat = _
      omega
    have implicit : (0x800000 + (unpackMantissa b).toNat).log2 + 1 = Format.binary32.mantissaBits := by
      change _ = 24
      omega
    have fraction : BitVec.ofNat 23 (0x800000 + (unpackMantissa b).toNat) = unpackMantissa b := by
      apply BitVec.eq_of_toNat_eq
      rw [BitVec.toNat_ofNat]
      omega
    simp only [biased]
    rw [if_neg (by change ¬ 256 ≤ _; omega), if_pos implicit, fraction, BitVec.ofNat_toNat, BitVec.setWidth_eq]
    exact whole

theorem unpackSign_packComponents (sign : Sign) (exponent : BitVec 8) (mantissa : BitVec 23) :
    Sign.ofBitVec (unpackSign (packComponents .binary32 sign exponent mantissa)) = sign := by
  have : unpackSign (packComponents .binary32 sign exponent mantissa) = sign.toBitVec := by
    apply BitVec.eq_of_toNat_eq
    have := exponent.isLt
    have := mantissa.isLt
    rw [unpackSign_toNat, packComponents_toNat]
    omega
  rw [this]
  cases sign <;> rfl

theorem unpack_packComponents (sign : Sign) (exponent : BitVec 8) (mantissa : BitVec 23) (low : 0 < exponent.toNat)
    (high : exponent.toNat < 255) : ∃ positive,
      unpack .binary32 (packComponents .binary32 sign exponent mantissa) =
        .finite sign (0x800000 + mantissa.toNat) (exponent.toNat - 150) positive := by
  rcases unpack_cases (packComponents .binary32 sign exponent mantissa) with
    ⟨top, -⟩ | ⟨bottom, -⟩ | ⟨bottom, -⟩ | ⟨-, -, normal⟩
  · rw [unpackExponent_packComponents] at top
    rw [top] at high
    exact absurd high (by decide)
  · rw [unpackExponent_packComponents] at bottom
    rw [bottom] at low
    exact absurd low (by decide)
  · rw [unpackExponent_packComponents] at bottom
    rw [bottom] at low
    exact absurd low (by decide)
  · rwa [unpackSign_packComponents, unpackExponent_packComponents, unpackMantissa_packComponents] at normal

theorem unpack_pack (normal : 2 ^ 23 ≤ m) (fits : m < 2 ^ 24)
    (low : -149 ≤ e) (high : e ≤ 104) :
    unpack .binary32 (pack .binary32 (.finite sign m e positive)) = .finite sign m e positive := by
  have upper := (Nat.log2_lt (k := 24) positive.ne').mpr fits
  have lower := (Nat.le_log2 (k := 23) positive.ne').mpr normal
  have implicit : m.log2 + 1 = Format.binary32.mantissaBits := by
    change _ = 24
    omega
  generalize bias : (e + Format.binary32.exponentBias + Format.binary32.mantissaBitsWithoutImplicit).toNat = biased
  have biasedEq : (biased : Int) = e + 150 := by
    change (e + 127 + 23).toNat = biased at bias
    omega
  unfold pack
  simp only [bias]
  rw [if_neg (by change ¬ 256 ≤ _; omega), if_pos implicit]
  have exponent : (BitVec.ofNat 8 biased).toNat = biased := by
    rw [BitVec.toNat_ofNat]
    omega
  have mantissa : 0x800000 + (BitVec.ofNat 23 m).toNat = m := by
    rw [BitVec.toNat_ofNat]
    omega
  obtain ⟨nonzero, unpacked⟩ := unpack_packComponents sign (BitVec.ofNat 8 biased)
    (BitVec.ofNat 23 m) (by omega) (by omega)
  refine unpacked.trans ?_
  congr 1
  omega

def Normal (m : Nat) : Prop := 2 ^ 23 ≤ m ∧ m < 2 ^ 24

theorem roundedMantissa_le (em : ExtendedMantissa) :
    em.mantissa ≤ em.roundedMantissa ∧ em.roundedMantissa ≤ em.mantissa + 1 := by
  rcases em with ⟨m, round, sticky⟩
  have parity := Nat.mod_lt m (show 0 < 2 by decide)
  cases round <;> cases sticky <;> constructor <;>
    simp only [ExtendedMantissa.roundedMantissa, ExtendedMantissa.accuracy, Accuracy.roundToNearestEven] <;> omega

theorem shift_normal (lower : 2 ^ 23 ≤ q) (upper : q < 2 ^ 25) (range : -148 ≤ t)
    (accuracy : Accuracy) :
    Normal (shiftToTargetExponent .binary32 q t accuracy).1.mantissa ∧
      t ≤ (shiftToTargetExponent .binary32 q t accuracy).2 ∧ (shiftToTargetExponent .binary32 q t accuracy).2 ≤ t + 1 := by
  have positive : q ≠ 0 := by omega
  have bits : q.log2 = 23 ∨ q.log2 = 24 := by
    have := (Nat.le_log2 positive).mpr lower
    have := (Nat.log2_lt positive).mpr upper
    omega
  have start : (ExtendedMantissa.ofMantissaAndAccuracy q accuracy).mantissa = q := by
    cases accuracy with
    | exact => rfl
    | inexact side => cases side <;> rfl
  generalize amount : ((Format.binary32.targetExponent (totalExponent q t)) - t).toNat = n
  have shape : shiftToTargetExponent .binary32 q t accuracy =
      (ExtendedMantissa.ofMantissaAndAccuracy q accuracy >>> n, t + n) := by
    rw [← amount]
    rfl
  change (max ((q.log2 : Int) + 1 + t - 24) (-149) - t).toNat = n at amount
  rw [shape]
  simp only [shift_mantissa, start]
  rcases bits with short | long
  · have zero : n = 0 := by omega
    have := (Nat.log2_lt (k := 24) positive).mp (by omega)
    subst zero
    exact ⟨⟨by omega, by omega⟩, by omega, by omega⟩
  · have one : n = 1 := by omega
    have := (Nat.le_log2 (k := 24) positive).mp (by omega)
    subst one
    exact ⟨⟨by omega, by omega⟩, by omega, by omega⟩

theorem round_normal (lower : 2 ^ 23 ≤ q) (upper : q < 2 ^ 25) (range : -148 ≤ t)
    (sign : Sign) (accuracy : Accuracy) : ∃ m e positive, roundWithAccuracy .binary32 sign q t accuracy = .finite sign m e positive ∧
      Normal m ∧ t ≤ e ∧ e ≤ t + 2 := by
  unfold roundWithAccuracy
  obtain ⟨first, low, high⟩ := shift_normal lower upper range accuracy
  generalize shiftToTargetExponent .binary32 q t accuracy = shifted at first low high
  rcases shifted with ⟨em, e⟩
  simp only at first low high ⊢
  have rounded := roundedMantissa_le em
  have firstLow := first.1
  have firstHigh := first.2
  obtain ⟨second, low', high'⟩ := shift_normal (q := em.roundedMantissa) (t := e) (by omega) (by omega)
    (by omega) .exact
  generalize shiftToTargetExponent .binary32 em.roundedMantissa e .exact = final at second low' high'
  rcases final with ⟨em', e'⟩
  simp only at second low' high' ⊢
  have positive : em'.mantissa ≠ 0 := by
    have := second.1
    omega
  rw [dif_neg positive]
  exact ⟨_, _, Nat.pos_of_ne_zero positive, rfl, second, by omega, by omega⟩

theorem log2_le_log2 {a b : Nat} (positive : 0 < a) (le : a ≤ b) : a.log2 ≤ b.log2 := by
  rw [Nat.le_log2 (by omega)]
  exact le_trans (Nat.log2_self_le positive.ne') le

theorem divCore_normal {a b : Nat} (lower : b ≤ a) (upper : a < 16 * b) : ∃ q t accuracy,
    divCore .binary32 a 0 b 0 = (q, t, accuracy) ∧ 2 ^ 23 ≤ q ∧ q < 2 ^ 25 ∧ -24 ≤ t ∧ t ≤ -20 := by
  have denominator : 0 < b := by omega
  have numerator : 0 < a := by omega
  have aLow := Nat.log2_self_le numerator.ne'
  have aHigh := (Nat.log2_lt numerator.ne').mp (Nat.lt_succ_self a.log2)
  have bLow := Nat.log2_self_le denominator.ne'
  have bHigh := (Nat.log2_lt denominator.ne').mp (Nat.lt_succ_self b.log2)
  have least : b.log2 ≤ a.log2 := log2_le_log2 denominator lower
  have most : a.log2 ≤ b.log2 + 4 := by
    have : a < 2 ^ (b.log2 + 5) := by
      calc a < 16 * b := upper
        _ ≤ 16 * 2 ^ (b.log2 + 1) := by omega
        _ = 2 ^ (b.log2 + 5) := by ring
    have := (Nat.log2_lt numerator.ne').mpr this
    omega
  obtain ⟨gap, split⟩ := Nat.exists_eq_add_of_le least
  have gapLe : gap ≤ 4 := by omega
  have target : min ((0 : Int) - 0) (Format.binary32.targetExponent (totalExponent a 0 - totalExponent b 0)) = gap - 24 := by
    change min ((0 : Int) - 0) (max ((a.log2 : Int) + 1 + 0 - (b.log2 + 1 + 0) - 24) (-149)) = _
    omega
  have amount : ((0 : Int) - 0 - (gap - 24)).toNat = 24 - gap := by omega
  refine ⟨a * 2 ^ (24 - gap) / b, gap - 24, accuracyOfFraction (a * 2 ^ (24 - gap) % b) b, ?_, ?_, ?_, by omega, by omega⟩
  · unfold divCore
    simp only [target, amount, Nat.shiftLeft_eq]
  · rw [Nat.le_div_iff_mul_le denominator]
    calc 2 ^ 23 * b ≤ 2 ^ 23 * 2 ^ (b.log2 + 1) := Nat.mul_le_mul_left _ (Nat.le_of_lt bHigh)
      _ = 2 ^ a.log2 * 2 ^ (24 - gap) := by
        rw [← pow_add, ← pow_add]
        congr 1
        omega
      _ ≤ a * 2 ^ (24 - gap) := Nat.mul_le_mul_right _ aLow
  · rw [Nat.div_lt_iff_lt_mul denominator]
    calc a * 2 ^ (24 - gap) < 2 ^ (a.log2 + 1) * 2 ^ (24 - gap) := Nat.mul_lt_mul_of_pos_right aHigh (by positivity)
      _ = 2 ^ 25 * 2 ^ b.log2 := by
        rw [← pow_add, ← pow_add]
        congr 1
        omega
      _ ≤ 2 ^ 25 * b := Nat.mul_le_mul_left _ bLow

theorem log2_pow_le (s D : Nat) (lower : 10 ^ s ≤ D) : s ≤ D.log2 := by
  have positive : 0 < 10 ^ s := Nat.pow_pos (by decide)
  rw [Nat.le_log2 (by omega)]
  exact le_trans (Nat.pow_le_pow_left (by decide) s) lower

theorem ofScientific_unit {D s : Nat} (lower : 10 ^ s ≤ D) (upper : D < 10 ^ (s + 1)) : ∃ m e positive,
    UnpackedFloat.ofScientific .binary32 D (-s) = .finite .positive m e positive ∧ Normal m ∧ -24 ≤ e ∧ e ≤ -18 := by
  have ten : 0 < 10 ^ s := Nat.pow_pos (by decide)
  have nonzero : D ≠ 0 := by omega
  have wide := log2_pow_le s D lower
  cases s with
  | zero =>
    have : 0 < D := by omega
    have : D < 10 := upper
    interval_cases D <;> exact ⟨_, _, _, rfl, by unfold Normal; decide, by decide, by decide⟩
  | succ k =>
    obtain ⟨q, t, accuracy, divided, low, high, bottom, top⟩ :=
      divCore_normal (a := D) (b := 10 ^ (k + 1)) lower (by rw [pow_succ] at upper; omega)
    obtain ⟨m, e, positive, rounded, normal, least, most⟩ :=
      round_normal (t := t) low high (by omega) .positive accuracy
    refine ⟨m, e, positive, ?_, normal, by omega, by omega⟩
    have scale : (- -((k + 1 : Nat) : Int)).toNat = k + 1 := by omega
    unfold UnpackedFloat.ofScientific
    rw [dif_neg nonzero, if_neg (by simp only [Int.not_lt]; omega), if_neg (by simp only [Int.not_lt]; omega), if_neg (by omega)]
    unfold UnpackedFloat.div
    simp only [scale]
    rw [divided]
    exact rounded

/-- A number that carries no minus sign. -/
inductive Unsigned : UnpackedFloat → Prop where
  | zero : Unsigned (.zero .positive)
  | infinity : Unsigned (.infinity .positive)
  | finite (m : Nat) (e : Int) (positive : 0 < m) : Unsigned (.finite .positive m e positive)

theorem roundWithAccuracy_unsigned (format : Format) (m : Nat) (e : Int) (accuracy : Accuracy) :
    Unsigned (roundWithAccuracy format .positive m e accuracy) := by
  unfold roundWithAccuracy
  simp only
  split
  · exact .zero
  · exact .finite _ _ _

theorem ofScientific_unsigned (m : Nat) (e : Int) : Unsigned (UnpackedFloat.ofScientific .binary32 m e) := by
  unfold UnpackedFloat.ofScientific
  split
  · exact .zero
  split
  · exact .infinity
  split
  · exact .zero
  split
  · exact roundWithAccuracy_unsigned _ _ _ _
  · exact roundWithAccuracy_unsigned _ _ _ _

theorem pack_components (unsigned : Unsigned u) : ∃ exponent mantissa,
    pack .binary32 u = packComponents .binary32 .positive exponent mantissa ∧ (exponent = -1#_ → mantissa = 0#_) := by
  cases unsigned with
  | zero => exact ⟨_, _, rfl, fun _ => rfl⟩
  | infinity => exact ⟨_, _, rfl, fun _ => rfl⟩
  | finite m e positive =>
    unfold pack
    simp only
    split
    · exact ⟨_, _, rfl, fun _ => rfl⟩
    · rename_i fits
      split
      · refine ⟨_, _, rfl, ?_⟩
        intro top
        have := congrArg BitVec.toNat top
        rw [BitVec.toNat_ofNat] at this
        change ¬ 256 ≤ _ at fits
        change _ % 256 = 255 at this
        omega
      · refine ⟨_, _, rfl, ?_⟩
        intro top
        exact absurd top (by decide)

theorem unpack_unsigned (unsigned : Unsigned u) :
    Unsigned (unpack .binary32 (pack .binary32 u)) := by
  obtain ⟨exponent, mantissa, packed, regular⟩ := pack_components unsigned
  have signed := unpackSign_packComponents .positive exponent mantissa
  rw [packed]
  rcases unpack_cases (packComponents .binary32 .positive exponent mantissa) with
    ⟨top, other⟩ | ⟨-, -, other⟩ | ⟨-, nonzero, subnormal⟩ | ⟨-, -, nonzero, normal⟩
  · rw [unpackExponent_packComponents] at top
    rw [other, unpackMantissa_packComponents, if_pos (regular top), signed]
    exact .infinity
  · rw [other, signed]
    exact .zero
  · rw [subnormal, signed]
    exact .finite _ _ _
  · rw [normal, signed]
    exact .finite _ _ _

theorem readDecimal_unsigned (digits scale : Nat) : Unsigned (readDecimal digits scale).toModel.unpack :=
  unpack_unsigned (ofScientific_unsigned digits (-scale))

theorem model_pack_unpack (x : Float32.Model) : Float32.Model.pack x.unpack = x := by
  rcases x with ⟨bits, valid⟩
  have same := pack_unpack valid
  simp only [Float32.Model.pack, Float32.Model.unpack, same]

theorem ofModel_pack_unpack (x : Float32) : Float32.ofModel (Float32.Model.pack x.toModel.unpack) = x := by
  rw [model_pack_unpack]

theorem toModel_canonical
    (unpacked : x.toModel.unpack = .finite sign m e positive) : Canonical .binary32 m e :=
  unpack_canonical unpacked

theorem readDecimal_expansion
    (unpacked : x.toModel.unpack = .finite .positive m e positive) : readDecimal (expansion m e 149) 149 = x := by
  have canonical := toModel_canonical unpacked
  have least : -149 ≤ e := by
    have := canonical.exponent
    change max _ (-149) = e at this
    omega
  unfold readDecimal Float32.Model.ofScientific
  rw [ofScientific_expansion canonical (by decide) (by decide) (by omega), ← unpacked]
  exact ofModel_pack_unpack x

theorem readDecimal_unit {digits scale : Nat} (lower : 10 ^ scale ≤ digits) (upper : digits < 10 ^ (scale + 1)) :
    ∃ m e positive, (readDecimal digits scale).toModel.unpack = .finite .positive m e positive ∧
      Normal m ∧ -24 ≤ e ∧ e ≤ -18 := by
  obtain ⟨m, e, positive, scientific, normal, low, high⟩ := ofScientific_unit lower upper
  refine ⟨m, e, positive, ?_, normal, low, high⟩
  change unpack .binary32 (pack .binary32 _) = _
  rw [scientific]
  exact unpack_pack normal.1 normal.2 (by omega) (by omega)

end FloatDecimal

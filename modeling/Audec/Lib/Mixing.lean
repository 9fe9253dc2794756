import Mathlib

/-! Hashes of fixed-width words that lose nothing, and numbers that are folded into one word without overlap. -/

namespace Mixing

variable {w : Nat}

theorem xorShift_injective {n : Nat} (shifted : n ≠ 0) : Function.Injective fun x : BitVec w => x ^^^ (x >>> n) := by
  intro x y same
  have difference : x ^^^ y = (x ^^^ y) >>> n := by
    rw [BitVec.ushiftRight_xor_distrib]
    have moved := congrArg (fun z => (x >>> n) ^^^ z ^^^ y) same
    dsimp only at moved
    rw [BitVec.xor_comm x, ← BitVec.xor_assoc, BitVec.xor_self, BitVec.zero_xor] at moved
    rw [moved, BitVec.xor_comm y, BitVec.xor_assoc, BitVec.xor_assoc, BitVec.xor_self, BitVec.xor_zero]
  have small : (x ^^^ y).toNat = 0 := by
    have value := congrArg BitVec.toNat difference
    rw [BitVec.toNat_ushiftRight, Nat.shiftRight_eq_div_pow] at value
    by_contra positive
    have less := Nat.div_lt_self (Nat.pos_of_ne_zero positive) (Nat.one_lt_two_pow shifted)
    omega
  exact BitVec.xor_eq_zero_iff.mp (BitVec.eq_of_toNat_eq small)

theorem mul_injective {factor inverse : BitVec w} (inverts : factor * inverse = 1#w) : Function.Injective fun x : BitVec w => x * factor := by
  intro x y same
  have back := congrArg (· * inverse) same
  simpa only [BitVec.mul_assoc, inverts, BitVec.mul_one] using back

theorem bit_of_small {x : BitVec w} {width i : Nat} (small : x.toNat < 2 ^ width) (above : width ≤ i) : x.getLsbD i = false := by
  rw [BitVec.getLsbD]
  exact Nat.testBit_lt_two_pow (small.trans_le (Nat.pow_le_pow_right two_pos above))

theorem eq_of_bits {x y : BitVec w} {width : Nat} (small : x.toNat < 2 ^ width) (small' : y.toNat < 2 ^ width)
    (bits : ∀ i < width, x.getLsbD i = y.getLsbD i) : x = y := by
  refine BitVec.eq_of_getLsbD_eq fun i _ => ?_
  by_cases inside : i < width
  · exact bits i inside
  · rw [bit_of_small small (by omega), bit_of_small small' (by omega)]

section Fields

variable {x : BitVec w} {width offset : Nat} (small : x.toNat < 2 ^ width) (fits : offset + width ≤ w) (positive : 0 < width)
include small fits positive

theorem bit_rotated {i : Nat} (inside : i < w) : (x.rotateLeft offset).getLsbD i = (decide (offset ≤ i) && x.getLsbD (i - offset)) := by
  rw [BitVec.getLsbD_rotateLeft_of_le (by omega)]
  by_cases below : i < offset
  · rw [decide_eq_true below, cond_true, decide_eq_false (by omega), Bool.false_and]
    exact bit_of_small small (by omega)
  · rw [decide_eq_false below, cond_false, decide_eq_true inside, decide_eq_true (by omega)]

theorem bit_field {i : Nat} (inside : i < width) : (x.rotateLeft offset).getLsbD (offset + i) = x.getLsbD i := by
  rw [bit_rotated small fits positive (by omega), decide_eq_true (Nat.le_add_right _ _), Bool.true_and, Nat.add_sub_cancel_left]

theorem bit_beside {i : Nat} (inside : i < w) (outside : i < offset ∨ offset + width ≤ i) : (x.rotateLeft offset).getLsbD i = false := by
  rw [bit_rotated small fits positive inside]
  by_cases below : i < offset
  · rw [decide_eq_false (by omega), Bool.false_and]
  · rw [bit_of_small small (by omega), Bool.and_false]

end Fields

end Mixing

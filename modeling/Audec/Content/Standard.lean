import Audec.Content.Sha256

/-! SHA-256 as the Secure Hash Standard, FIPS 180-4, states it, and the compression of the code. -/

open List

namespace Audec.Content

namespace Standard

def rotr (n x : UInt32) : UInt32 := (x >>> n) ||| (x <<< (32 - n))

def ch (x y z : UInt32) : UInt32 := (x &&& y) ^^^ (~~~x &&& z)
def maj (x y z : UInt32) : UInt32 := (x &&& y) ^^^ (x &&& z) ^^^ (y &&& z)
def bigSigma0 (x : UInt32) : UInt32 := rotr 2 x ^^^ rotr 13 x ^^^ rotr 22 x
def bigSigma1 (x : UInt32) : UInt32 := rotr 6 x ^^^ rotr 11 x ^^^ rotr 25 x
def smallSigma0 (x : UInt32) : UInt32 := rotr 7 x ^^^ rotr 18 x ^^^ (x >>> 3)
def smallSigma1 (x : UInt32) : UInt32 := rotr 17 x ^^^ rotr 19 x ^^^ (x >>> 10)

/-- The first sixty-four prime numbers. -/
def primes : List Nat := (List.range 312).filter fun p => 2 ≤ p ∧ ∀ d < p, d ∣ p → d < 2

def fraction (degree radicand : Nat) : UInt32 := UInt32.ofNat (Nat.nthRoot degree (radicand * 0x100000000 ^ degree))

def constant (t : Nat) : UInt32 := fraction 3 (primes.getD t 0)

def initial : Words :=
  let root (t : Nat) := fraction 2 (primes.getD t 0)
  ⟨root 0, root 1, root 2, root 3, root 4, root 5, root 6, root 7⟩

/-- The least number of zero bytes that leaves eight bytes of the last block. -/
def zeros (length : Nat) : Nat := ((List.range 64).find? fun zeros => (length + 1 + zeros) % 64 = 56).getD 0

def pad (message : List UInt8) : List UInt8 :=
  message ++ [0x80] ++ List.replicate (zeros message.length) 0 ++ Sha256.bigEndian 8 (8 * message.length)

def blocks (bytes : List UInt8) : List (List UInt8) := (List.range (bytes.length / 64)).map fun i => (bytes.drop (64 * i)).take 64

def word (block : List UInt8) (t : Nat) : UInt32 :=
  let byte (i : Nat) : Nat := (block.getD (4 * t + i) 0).toNat
  UInt32.ofNat (((byte 0 * 256 + byte 1) * 256 + byte 2) * 256 + byte 3)

/-- The message schedule. -/
def w (block : List UInt8) (t : Nat) : UInt32 :=
  if t < 16 then word block t
  else smallSigma1 (w block (t - 2)) + w block (t - 7) + smallSigma0 (w block (t - 15)) + w block (t - 16)
  termination_by t

def round (block : List UInt8) (words : Words) (t : Nat) : Words :=
  let t1 := words.h + bigSigma1 words.e + ch words.e words.f words.g + constant t + w block t
  let t2 := bigSigma0 words.a + maj words.a words.b words.c
  ⟨t1 + t2, words.a, words.b, words.c, words.d + t1, words.e, words.f, words.g⟩

def compress (hash : Words) (block : List UInt8) : Words :=
  let done := (List.range 64).foldl (round block) hash
  ⟨done.a + hash.a, done.b + hash.b, done.c + hash.c, done.d + hash.d,
    done.e + hash.e, done.f + hash.f, done.g + hash.g, done.h + hash.h⟩

def output (hash : Words) : List UInt8 := hash.toList.flatMap fun word => Sha256.bigEndian 4 word.toNat

def digest (message : List UInt8) : List UInt8 := output ((blocks (pad message)).foldl compress initial)

theorem initial_eq : Sha256.initial = initial := by decide +kernel

theorem k_eq : Sha256.k = (List.range 64).map constant := by decide +kernel

theorem zeros_spec (length : Nat) : zeros length < 64 ∧ (length + 1 + zeros length) % 64 = 56 := by
  unfold zeros
  cases found : (List.range 64).find? fun zeros => (length + 1 + zeros) % 64 = 56 with
  | none =>
    have missed := find?_eq_none.mp found ((119 - length % 64) % 64) (mem_range.mpr (Nat.mod_lt _ (by decide)))
    rw [decide_eq_true_iff] at missed
    omega
  | some zeros =>
    have holds := find?_some found
    exact ⟨mem_range.mp (mem_of_find?_eq_some found), of_decide_eq_true holds⟩

theorem wordsOf_eq (count : Nat) {block : List UInt8} (length : block.length = 4 * count) :
    Sha256.wordsOf block = (List.range count).map (word block) := by
  induction count generalizing block with
  | zero =>
    rw [length_eq_zero_iff.mp length]
    rfl
  | succ count ih =>
    rcases block with _ | ⟨b₀, _ | ⟨b₁, _ | ⟨b₂, _ | ⟨b₃, rest⟩⟩⟩⟩
    iterate 4 simp only [length_nil, length_cons] at length; omega
    have shorter : rest.length = 4 * count := by
      simp only [length_cons] at length
      omega
    rw [Sha256.wordsOf, ih shorter, range_succ_eq_map, map_cons, map_map]
    congr 1
    simp only [word, LittleEndian.ofBytes, Nat.mul_zero, Nat.zero_add, getD_cons_zero, getD_cons_succ]
    congr 1
    omega

theorem schedule_eq (block : List UInt8) {more count : Nat} (enough : 16 ≤ count) :
    Sha256.schedule more ((List.range count).map (w block)) = (List.range (count + more)).map (w block) := by
  induction more generalizing count with
  | zero => rfl
  | succ more ih =>
    have back (n : Nat) (positive : 0 < n) (reached : n ≤ 16) :
        ((List.range count).map (w block)).getD (((List.range count).map (w block)).length - n) 0 = w block (count - n) := by
      rw [length_map, length_range, getD_eq_getElem _ _ (by rw [length_map, length_range]; omega)]
      rw [getElem_map, getElem_range]
    unfold Sha256.schedule
    dsimp only
    rw [back 15 (by decide) (by decide), back 2 (by decide) (by decide), back 16 (by decide) (by decide), back 7 (by decide) (by decide)]
    have next : w block count = smallSigma1 (w block (count - 2)) + w block (count - 7) + smallSigma0 (w block (count - 15)) + w block (count - 16) := by
      rw [w, if_neg (by omega)]
    have same : w block (count - 16) + smallSigma0 (w block (count - 15)) + w block (count - 7) + smallSigma1 (w block (count - 2)) = w block count := by
      rw [next]
      ac_rfl
    have longer := ih (Nat.le_succ_of_le enough)
    rw [range_succ, map_append, map_singleton, ← same] at longer
    rw [show count + (more + 1) = count + 1 + more by omega]
    exact longer

theorem compress_eq (state : Words) {block : List UInt8} (length : block.length = 64) : Sha256.compress state block = compress state block := by
  have first : Sha256.wordsOf block = (List.range 16).map (w block) := by
    rw [wordsOf_eq 16 length]
    apply map_congr_left
    intro t inside
    rw [w, if_pos (mem_range.mp inside)]
  have rounds : (Sha256.k.zip (Sha256.schedule 48 (Sha256.wordsOf block))).foldl Sha256.round state = (List.range 64).foldl (round block) state := by
    rw [first, schedule_eq block (Nat.le_refl 16), k_eq, zip_map', foldl_map]
    rfl
  unfold Sha256.compress compress
  rw [rounds]
  simp only [UInt32.add_comm]

section Blocks

variable {front back : List UInt8}

theorem blocks_append (aligned : front.length % 64 = 0) : blocks (front ++ back) = blocks front ++ blocks back := by
  have count : (front ++ back).length / 64 = front.length / 64 + back.length / 64 := by
    rw [length_append]
    omega
  unfold blocks
  rw [count, range_add, map_append, map_map]
  congr 1
  · apply map_congr_left
    intro i inside
    have := mem_range.mp inside
    rw [drop_append_of_le_length (by omega), take_append_of_le_length (by rw [length_drop]; omega)]
  · apply map_congr_left
    intro i _
    have beyond : 64 * (front.length / 64 + i) = front.length + 64 * i := by omega
    rw [Function.comp_apply, beyond, drop_length_add_append]

theorem blocks_one (length : front.length = 64) : blocks front = [front] := by
  unfold blocks
  rw [length]
  simp only [range_one, map_singleton, Nat.mul_zero, drop_zero, Nat.div_self, Nat.zero_lt_succ]
  rw [take_of_length_le length.le]

section

variable (state : Words)

/-- The hash after some whole blocks. -/
def run (bytes : List UInt8) : Words := (blocks bytes).foldl compress state

@[simp] theorem run_nil : run state [] = state := rfl

theorem run_append (aligned : front.length % 64 = 0) : run state (front ++ back) = run (run state front) back := by
  unfold run
  rw [blocks_append aligned, foldl_append]

theorem run_one (length : front.length = 64) : run state front = compress state front := by
  unfold run
  rw [blocks_one length, foldl_cons, foldl_nil]

end

end Blocks

theorem absorb_spec {fuel : Nat} (state : Words) {bytes : List UInt8} (enough : bytes.length ≤ fuel) :
    ∃ whole rest, bytes = whole ++ rest ∧ whole.length % 64 = 0 ∧ rest.length < 64 ∧
      Sha256.absorb fuel state bytes = (run state whole, rest) := by
  induction fuel generalizing state bytes with
  | zero => exact ⟨[], bytes, rfl, rfl, by omega, rfl⟩
  | succ fuel ih =>
    unfold Sha256.absorb
    split
    next short => exact ⟨[], bytes, rfl, rfl, short, rfl⟩
    next long =>
      have first : (bytes.take 64).length = 64 := by
        rw [length_take]
        omega
      obtain ⟨whole, rest, split, aligned, short, absorbed⟩ :=
        @ih (compress state (bytes.take 64)) (bytes.drop 64) (by rw [length_drop]; omega)
      refine ⟨bytes.take 64 ++ whole, rest, ?_, ?_, short, ?_⟩
      · rw [append_assoc, ← split, take_append_drop]
      · rw [length_append, first]
        omega
      · rw [compress_eq _ first, absorbed, run_append _ (by rw [first]), run_one _ first]

end Standard

end Audec.Content

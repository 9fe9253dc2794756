import Audec.Content.Standard

/-! The two implementations of SHA-256, with the block buffer of the one and the padded copy of the other. -/

open List

namespace Audec.Content

open Standard

def copyInto (buffer : List UInt8) (place : Nat) (bytes : List UInt8) : List UInt8 :=
  buffer.take place ++ bytes ++ buffer.drop (place + bytes.length)

structure BlockHasher where
  state : Words
  buffer : List UInt8
  buffered : Nat
  bytes : UInt64

namespace BlockHasher

def new : BlockHasher := ⟨Sha256.initial, List.replicate 64 0, 0, 0⟩

/-- Whole blocks are compressed where they stand, and the rest is copied into the buffer. -/
def takeBlocks (hasher : BlockHasher) (bytes : List UInt8) : BlockHasher :=
  let absorbed := Sha256.absorb bytes.length hasher.state bytes
  { hasher with state := absorbed.1, buffer := copyInto hasher.buffer 0 absorbed.2, buffered := absorbed.2.length }

def update (hasher : BlockHasher) (bytes : List UInt8) : BlockHasher :=
  let hasher := { hasher with bytes := hasher.bytes + UInt64.ofNat bytes.length }
  if 0 < hasher.buffered then
    let n := min (64 - hasher.buffered) bytes.length
    let hasher := { hasher with buffer := copyInto hasher.buffer hasher.buffered (bytes.take n), buffered := hasher.buffered + n }
    if hasher.buffered = 64 then
      takeBlocks { hasher with state := Sha256.compress hasher.state hasher.buffer, buffered := 0 } (bytes.drop n)
    else hasher
  else hasher.takeBlocks bytes

def finalize (hasher : BlockHasher) : List UInt8 :=
  let bits := hasher.bytes * 8
  let hasher := { hasher with buffer := copyInto hasher.buffer hasher.buffered [0x80], buffered := hasher.buffered + 1 }
  let hasher :=
    if 56 < hasher.buffered then
      let block := copyInto hasher.buffer hasher.buffered (List.replicate (64 - hasher.buffered) 0)
      { hasher with state := Sha256.compress hasher.state block, buffer := List.replicate 64 0 }
    else { hasher with buffer := copyInto hasher.buffer hasher.buffered (List.replicate (56 - hasher.buffered) 0) }
  let block := copyInto hasher.buffer 56 (Sha256.bigEndian 8 bits.toNat)
  (Sha256.compress hasher.state block).toList.flatMap fun word => Sha256.bigEndian 4 word.toNat

end BlockHasher

def hashRawParts (parts : List (List UInt8)) : List UInt8 := (parts.foldl BlockHasher.update .new).finalize

/-- Zeros up to eight bytes short of a block. The loop runs at most 63 times. -/
def padZeros : Nat → List UInt8 → List UInt8
  | 0, padded => padded
  | fuel + 1, padded => if padded.length % 64 ≠ 56 then padZeros fuel (padded ++ [0]) else padded

def digestBytes (input : List UInt8) : List UInt8 :=
  let bitLen := UInt64.ofNat input.length * 8
  let padded := padZeros 64 (input ++ [0x80]) ++ Sha256.bigEndian 8 bitLen.toNat
  ((blocks padded).foldl Sha256.compress Sha256.initial).toList.flatMap fun word => Sha256.bigEndian 4 word.toNat

theorem bits_toNat {message : List UInt8} (short : message.length < 0x2000000000000000) :
    (UInt64.ofNat message.length * 8).toNat = 8 * message.length := by
  have eight : (8 : UInt64).toNat = 8 := rfl
  rw [UInt64.toNat_mul, UInt64.toNat_ofNat', eight]
  omega

section CopyInto

variable (buffer : List UInt8) (place : Nat) (bytes : List UInt8)

theorem copyInto_length (fits : place + bytes.length ≤ buffer.length) : (copyInto buffer place bytes).length = buffer.length := by
  simp only [copyInto, length_append, length_take, length_drop]
  omega

theorem copyInto_take (fits : place + bytes.length ≤ buffer.length) :
    (copyInto buffer place bytes).take (place + bytes.length) = buffer.take place ++ bytes := by
  apply take_left'
  rw [length_append, length_take]
  omega

theorem copyInto_full (full : place + bytes.length = buffer.length) : copyInto buffer place bytes = buffer.take place ++ bytes := by
  rw [copyInto, full, drop_length, append_nil]

end CopyInto

namespace BlockHasher

structure Fed (hasher : BlockHasher) (whole pending : List UInt8) : Prop where
  size : hasher.buffer.length = 64
  short : pending.length < 64
  buffered : hasher.buffered = pending.length
  pending : hasher.buffer.take pending.length = pending
  aligned : whole.length % 64 = 0
  state : hasher.state = run initial whole

variable {hasher : BlockHasher} {whole pending : List UInt8}

theorem takeBlocks_fed (hasher : BlockHasher) (size : hasher.buffer.length = 64) (aligned : whole.length % 64 = 0) (state : hasher.state = run initial whole)
    (bytes : List UInt8) : ∃ more rest, bytes = more ++ rest ∧ (hasher.takeBlocks bytes).Fed (whole ++ more) rest := by
  obtain ⟨more, rest, split, aligned', short, absorbed⟩ := absorb_spec hasher.state (Nat.le_refl bytes.length)
  refine ⟨more, rest, split, ?_⟩
  have fits : 0 + rest.length ≤ hasher.buffer.length := by omega
  unfold takeBlocks
  rw [absorbed]
  constructor
  · exact (copyInto_length _ _ _ fits).trans size
  · exact short
  · rfl
  · have front := copyInto_take _ _ _ fits
    rwa [Nat.zero_add, take_zero, nil_append] at front
  · rw [length_append]
    omega
  · rw [run_append _ aligned, ← state]

theorem update_fed (fed : hasher.Fed whole pending) (bytes : List UInt8) :
    ∃ more rest, whole ++ more ++ rest = whole ++ pending ++ bytes ∧ (hasher.update bytes).Fed (whole ++ more) rest := by
  have short := fed.short
  unfold update
  dsimp only
  rw [fed.buffered]
  split
  next some =>
    have room : pending.length + (bytes.take (min (64 - pending.length) bytes.length)).length ≤ hasher.buffer.length := by
      rw [fed.size, length_take]
      omega
    split
    next full =>
      -- the buffer is filled up and compressed as one block
      have cut := take_append_drop (min (64 - pending.length) bytes.length) bytes
      have taken : (bytes.take (min (64 - pending.length) bytes.length)).length = 64 - pending.length := by
        rw [length_take]
        omega
      generalize bytes.take (min (64 - pending.length) bytes.length) = front at cut taken room ⊢
      generalize bytes.drop (min (64 - pending.length) bytes.length) = back at cut ⊢
      have block := copyInto_full hasher.buffer pending.length front (by rw [taken, fed.size]; omega)
      rw [fed.pending] at block
      have length : (pending ++ front).length = 64 := by
        rw [length_append, taken]
        omega
      have aligned : (whole ++ (pending ++ front)).length % 64 = 0 := by
        have := fed.aligned
        rw [length_append, length]
        omega
      rw [block, compress_eq _ length, fed.state, ← run_one _ length, ← run_append _ fed.aligned]
      obtain ⟨more, rest, split, after⟩ :=
        takeBlocks_fed ⟨run initial (whole ++ (pending ++ front)), pending ++ front, 0, hasher.bytes + UInt64.ofNat bytes.length⟩
          length aligned rfl back
      refine ⟨pending ++ front ++ more, rest, ?_, ?_⟩
      · rw [← cut, split]
        simp only [append_assoc]
      · rw [← append_assoc whole (pending ++ front) more]
        exact after
    next notFull =>
      have all : min (64 - pending.length) bytes.length = bytes.length := by omega
      rw [all, take_length] at room ⊢
      refine ⟨[], pending ++ bytes, by simp, ?_⟩
      rw [append_nil]
      constructor
      · exact (copyInto_length _ _ _ room).trans fed.size
      · rw [length_append]
        omega
      · exact length_append.symm
      · rw [length_append]
        exact (copyInto_take _ _ _ room).trans (congrArg (· ++ bytes) fed.pending)
      · exact fed.aligned
      · exact fed.state
  next none =>
    have empty : pending = [] := length_eq_zero_iff.mp (by omega)
    obtain ⟨more, rest, split, after⟩ :=
      takeBlocks_fed { hasher with bytes := hasher.bytes + UInt64.ofNat bytes.length } fed.size fed.aligned fed.state bytes
    refine ⟨more, rest, ?_, ?_⟩
    · rw [empty, split, append_nil, append_assoc]
    · exact after

theorem update_bytes (hasher : BlockHasher) (bytes : List UInt8) : (hasher.update bytes).bytes = hasher.bytes + UInt64.ofNat bytes.length := by
  unfold update takeBlocks
  dsimp only
  split
  · split <;> rfl
  · rfl

theorem fed_parts (parts : List (List UInt8)) :
    ∃ whole pending, whole ++ pending = parts.flatten ∧ (parts.foldl update new).Fed whole pending ∧
      (parts.foldl update new).bytes = UInt64.ofNat parts.flatten.length := by
  induction parts using List.reverseRecOn with
  | nil => exact ⟨[], [], rfl, ⟨rfl, by decide, rfl, rfl, rfl, initial_eq⟩, rfl⟩
  | append_singleton parts part ih =>
    obtain ⟨whole, pending, joined, fed, count⟩ := ih
    obtain ⟨more, rest, split, after⟩ := update_fed fed part
    rw [foldl_append, foldl_cons, foldl_nil]
    refine ⟨whole ++ more, rest, ?_, after, ?_⟩
    · rw [split, joined, flatten_append, flatten_singleton]
    · rw [update_bytes, count, flatten_append, flatten_singleton, length_append, UInt64.ofNat_add]

theorem finalize_fed (fed : hasher.Fed whole pending) (count : hasher.bytes = UInt64.ofNat (whole ++ pending).length)
    (bounded : (whole ++ pending).length < 0x2000000000000000) : hasher.finalize = digest (whole ++ pending) := by
  have short := fed.short
  have aligned := fed.aligned
  obtain ⟨small, last⟩ := zeros_spec (whole ++ pending).length
  have padded : pad (whole ++ pending) = whole ++ (pending ++ [0x80] ++ List.replicate (zeros (whole ++ pending).length) 0 ++
      Sha256.bigEndian 8 (8 * (whole ++ pending).length)) := by
    simp only [pad, append_assoc]
  have tail : (Sha256.bigEndian 8 (8 * (whole ++ pending).length)).length = 8 := by
    rw [Sha256.bigEndian, length_reverse, LittleEndian.length_toBytes]
  rw [← bits_toNat bounded, ← count] at padded tail
  have fits : pending.length + [(0x80 : UInt8)].length ≤ hasher.buffer.length := by
    rw [fed.size, length_singleton]
    omega
  have marked := copyInto_take _ _ _ fits
  rw [fed.pending, length_singleton] at marked
  have size := (copyInto_length _ _ _ fits).trans fed.size
  change _ = output (run initial (pad (whole ++ pending)))
  rw [padded, run_append _ aligned, ← fed.state]
  rw [length_append] at last
  unfold finalize
  dsimp only
  rw [fed.buffered]
  generalize Sha256.bigEndian 8 (hasher.bytes * 8).toNat = counted at tail ⊢
  generalize copyInto hasher.buffer pending.length [0x80] = buffer at marked size ⊢
  split
  next beyond =>
    -- no room for the length: the zeros go on in a block of their own
    have many : zeros (whole ++ pending).length = 64 - (pending.length + 1) + 56 := by
      rw [length_append]
      rw [length_append] at small
      omega
    have first := copyInto_full buffer (pending.length + 1) (List.replicate (64 - (pending.length + 1)) 0) (by rw [length_replicate]; omega)
    have second := copyInto_full (List.replicate 64 0) 56 counted (by rw [tail, length_replicate])
    rw [marked] at first
    have length : (pending ++ [0x80] ++ List.replicate (64 - (pending.length + 1)) (0 : UInt8)).length = 64 := by
      simp only [length_append, length_singleton, length_replicate]
      omega
    have length' : (List.take 56 (List.replicate 64 (0 : UInt8)) ++ counted).length = 64 := by
      rw [length_append, tail]
      rfl
    rw [first, second, compress_eq _ length, compress_eq _ length', ← run_one _ length, ← run_one _ length', ← run_append _ (by rw [length])]
    rw [many, replicate_add]
    simp only [append_assoc]
    rfl
  next within =>
    have few : zeros (whole ++ pending).length = 56 - (pending.length + 1) := by
      rw [length_append]
      rw [length_append] at small
      omega
    have room : pending.length + 1 + (List.replicate (56 - (pending.length + 1)) (0 : UInt8)).length = 56 := by
      rw [length_replicate]
      omega
    have filled := copyInto_take buffer (pending.length + 1) (List.replicate (56 - (pending.length + 1)) 0) (by omega)
    have whole := copyInto_length buffer (pending.length + 1) (List.replicate (56 - (pending.length + 1)) 0) (by omega)
    rw [room, marked] at filled
    dsimp only
    rw [copyInto_full _ 56 counted (by rw [whole, tail, size]), filled, few]
    have length : (pending ++ [0x80] ++ List.replicate (56 - (pending.length + 1)) (0 : UInt8) ++ counted).length = 64 := by
      simp only [length_append, length_singleton, length_replicate, tail]
      omega
    rw [compress_eq _ length, ← run_one _ length]
    rfl

end BlockHasher

theorem padZeros_eq {fuel : Nat} {padded : List UInt8} {zeros : Nat} (within : zeros < fuel)
    (last : (padded.length + zeros) % 64 = 56) (small : zeros < 64) : padZeros fuel padded = padded ++ List.replicate zeros 0 := by
  induction fuel generalizing padded zeros with
  | zero => omega
  | succ fuel ih =>
    unfold padZeros
    cases zeros with
    | zero =>
      have done : padded.length % 64 = 56 := last
      rw [if_neg (not_not.mpr done)]
      exact (append_nil _).symm
    | succ zeros =>
      rw [if_pos (by omega), @ih (padded ++ [0]) zeros (by omega) (by rw [length_append, length_singleton]; omega) (by omega)]
      rw [append_assoc, replicate_succ, singleton_append]

theorem digestBytes_eq {message : List UInt8} (bounded : message.length < 0x2000000000000000) : digestBytes message = digest message := by
  obtain ⟨small, last⟩ := zeros_spec message.length
  have padded : padZeros 64 (message ++ [0x80]) = message ++ [0x80] ++ List.replicate (zeros message.length) 0 :=
    padZeros_eq small (by rwa [length_append, length_singleton]) small
  have hashed : (blocks (pad message)).foldl Sha256.compress Sha256.initial = (blocks (pad message)).foldl compress initial := by
    rw [initial_eq]
    apply foldl_ext
    intro state block inside
    apply compress_eq
    obtain ⟨i, among, rfl⟩ := mem_map.mp inside
    have := mem_range.mp among
    rw [length_take, length_drop]
    omega
  unfold digestBytes
  dsimp only
  rw [padded, bits_toNat bounded]
  exact congrArg output hashed

/-- Cut in any way, a message has the digest of the standard, and the copying implementation agrees. -/
theorem implementations_are_sha256 {message : List UInt8} (bounded : message.length < 0x2000000000000000) :
    digestBytes message = digest message ∧ ∀ parts : List (List UInt8), parts.flatten = message → hashRawParts parts = digest message := by
  refine ⟨digestBytes_eq bounded, ?_⟩
  rintro parts rfl
  obtain ⟨whole, pending, joined, fed, count⟩ := BlockHasher.fed_parts parts
  rw [← joined] at count bounded ⊢
  exact BlockHasher.finalize_fed fed count bounded

/-- Three letters, cut into parts one of which is empty. -/
theorem letters_are_sha256 : digestBytes [0x61, 0x62, 0x63] = digest [0x61, 0x62, 0x63] ∧
    hashRawParts [[0x61], [], [0x62, 0x63]] = digest [0x61, 0x62, 0x63] :=
  ⟨(implementations_are_sha256 (by decide)).1, (implementations_are_sha256 (by decide)).2 _ rfl⟩

end Audec.Content

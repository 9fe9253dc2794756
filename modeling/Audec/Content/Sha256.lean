import Audec.Lib.ByteReader

/-! SHA-256 as the content identities compute it, over bytes that arrive in parts. -/

open List

namespace Audec.Content

structure Words where
  a : UInt32
  b : UInt32
  c : UInt32
  d : UInt32
  e : UInt32
  f : UInt32
  g : UInt32
  h : UInt32
  deriving DecidableEq

def Words.toList (words : Words) : List UInt32 := [words.a, words.b, words.c, words.d, words.e, words.f, words.g, words.h]

structure Sha256 where
  state : Words
  buffer : List UInt8
  bytes : UInt64

namespace Sha256

def initial : Words := ⟨0x6a09e667, 0xbb67ae85, 0x3c6ef372, 0xa54ff53a, 0x510e527f, 0x9b05688c, 0x1f83d9ab, 0x5be0cd19⟩

def k : List UInt32 := [
  0x428a2f98, 0x71374491, 0xb5c0fbcf, 0xe9b5dba5, 0x3956c25b, 0x59f111f1, 0x923f82a4, 0xab1c5ed5,
  0xd807aa98, 0x12835b01, 0x243185be, 0x550c7dc3, 0x72be5d74, 0x80deb1fe, 0x9bdc06a7, 0xc19bf174,
  0xe49b69c1, 0xefbe4786, 0x0fc19dc6, 0x240ca1cc, 0x2de92c6f, 0x4a7484aa, 0x5cb0a9dc, 0x76f988da,
  0x983e5152, 0xa831c66d, 0xb00327c8, 0xbf597fc7, 0xc6e00bf3, 0xd5a79147, 0x06ca6351, 0x14292967,
  0x27b70a85, 0x2e1b2138, 0x4d2c6dfc, 0x53380d13, 0x650a7354, 0x766a0abb, 0x81c2c92e, 0x92722c85,
  0xa2bfe8a1, 0xa81a664b, 0xc24b8b70, 0xc76c51a3, 0xd192e819, 0xd6990624, 0xf40e3585, 0x106aa070,
  0x19a4c116, 0x1e376c08, 0x2748774c, 0x34b0bcb5, 0x391c0cb3, 0x4ed8aa4a, 0x5b9cca4f, 0x682e6ff3,
  0x748f82ee, 0x78a5636f, 0x84c87814, 0x8cc70208, 0x90befffa, 0xa4506ceb, 0xbef9a3f7, 0xc67178f2]

def new : Sha256 := ⟨initial, [], 0⟩

def rotateRight (x : UInt32) (n : UInt32) : UInt32 := x >>> n ||| x <<< (32 - n)

def bigEndian (width number : Nat) : List UInt8 := (LittleEndian.toBytes width number).reverse

def wordsOf : List UInt8 → List UInt32
  | b₀ :: b₁ :: b₂ :: b₃ :: rest => UInt32.ofNat (LittleEndian.ofBytes [b₃, b₂, b₁, b₀]) :: wordsOf rest
  | _ => []

/-- The schedule grows by one word from the words two, seven, fifteen and sixteen places back. -/
def schedule : Nat → List UInt32 → List UInt32
  | 0, w => w
  | more + 1, w =>
    let back (n : Nat) := w.getD (w.length - n) 0
    let s0 := rotateRight (back 15) 7 ^^^ rotateRight (back 15) 18 ^^^ back 15 >>> 3
    let s1 := rotateRight (back 2) 17 ^^^ rotateRight (back 2) 19 ^^^ back 2 >>> 10
    schedule more (w ++ [back 16 + s0 + back 7 + s1])

def round (words : Words) (step : UInt32 × UInt32) : Words :=
  let s1 := rotateRight words.e 6 ^^^ rotateRight words.e 11 ^^^ rotateRight words.e 25
  let ch := (words.e &&& words.f) ^^^ (~~~words.e &&& words.g)
  let t1 := words.h + s1 + ch + step.1 + step.2
  let s0 := rotateRight words.a 2 ^^^ rotateRight words.a 13 ^^^ rotateRight words.a 22
  let maj := (words.a &&& words.b) ^^^ (words.a &&& words.c) ^^^ (words.b &&& words.c)
  let t2 := s0 + maj
  ⟨t1 + t2, words.a, words.b, words.c, words.d + t1, words.e, words.f, words.g⟩

def compress (state : Words) (block : List UInt8) : Words :=
  let done := (k.zip (schedule 48 (wordsOf block))).foldl round state
  ⟨state.a + done.a, state.b + done.b, state.c + done.c, state.d + done.d,
    state.e + done.e, state.f + done.f, state.g + done.g, state.h + done.h⟩

/-- Whole blocks are compressed and the rest is kept; the fuel bounds the blocks. -/
def absorb : Nat → Words → List UInt8 → Words × List UInt8
  | 0, state, bytes => (state, bytes)
  | fuel + 1, state, bytes =>
    if bytes.length < 64 then (state, bytes) else absorb fuel (compress state (bytes.take 64)) (bytes.drop 64)

def update (hasher : Sha256) (bytes : List UInt8) : Sha256 :=
  let pending := hasher.buffer ++ bytes
  let absorbed := absorb pending.length hasher.state pending
  ⟨absorbed.1, absorbed.2, hasher.bytes + UInt64.ofNat bytes.length⟩

def finalize (hasher : Sha256) : List UInt8 :=
  let bits := hasher.bytes * 8
  let buffer := hasher.buffer ++ [0x80]
  let zeros := if 56 < buffer.length then 64 - buffer.length + 56 else 56 - buffer.length
  let padded := buffer ++ List.replicate zeros 0 ++ bigEndian 8 bits.toNat
  (absorb padded.length hasher.state padded).1.toList.flatMap fun word => bigEndian 4 word.toNat

theorem length_finalize (hasher : Sha256) : hasher.finalize.length = 32 := by
  simp only [finalize, Words.toList, bigEndian, flatMap_cons, flatMap_nil, length_append, length_reverse,
    LittleEndian.length_toBytes, length_nil]

end Sha256

/-- SHA-256 of nothing and of three letters, from the standard. -/
example : Sha256.new.finalize.take 4 = [0xe3, 0xb0, 0xc4, 0x42] ∧
    (Sha256.new.update [0x61, 0x62, 0x63]).finalize.take 4 = [0xba, 0x78, 0x16, 0xbf] := by
  decide +kernel

end Audec.Content

import Mathlib

/-! Fixed-width integers, with the checked and saturating operations programs use on them. -/

namespace Machine

instance u8NeZero : NeZero 0x100 := ⟨by decide⟩
instance u16NeZero : NeZero 0x10000 := ⟨by decide⟩
instance u32NeZero : NeZero 0x100000000 := ⟨by decide⟩
instance u64NeZero : NeZero 0x10000000000000000 := ⟨by decide⟩
instance u128NeZero : NeZero 0x100000000000000000000000000000000 := ⟨by decide⟩

instance linearTransOrd {α : Type} [LinearOrder α] : Std.TransOrd α := inferInstance
instance linearLawfulEqOrd {α : Type} [LinearOrder α] : Std.LawfulEqOrd α := inferInstance

abbrev U32 := Fin 0x100000000
abbrev U64 := Fin 0x10000000000000000

instance u32TransOrd : Std.TransOrd U32 := inferInstance
instance u32LawfulEqOrd : Std.LawfulEqOrd U32 := inferInstance

instance u64TransOrd : Std.TransOrd U64 := inferInstance
instance u64LawfulEqOrd : Std.LawfulEqOrd U64 := inferInstance

/-- The low 32 bits of an unsigned integer. -/
def U64.asU32 (x : U64) : U32 := Fin.ofNat _ x.val

theorem U64.asU32_of_lt {x : U64} (small : x.val < 0x100000000) : x.asU32.val = x.val :=
  Nat.mod_eq_of_lt small

def checkedSucc {bound : Nat} (x : Fin bound) : Option (Fin bound) :=
  if fits : x.val + 1 < bound then some ⟨x.val + 1, fits⟩ else none

theorem checkedSucc_eq_some {bound : Nat} {x y : Fin bound} :
    checkedSucc x = some y ↔ y.val = x.val + 1 := by
  unfold checkedSucc
  split
  · rw [Option.some.injEq, Fin.ext_iff]
    exact eq_comm
  · rename_i overflow
    constructor
    · intro impossible
      cases impossible
    · intro next
      have := y.isLt
      omega

/-- A signed 64-bit integer. -/
structure I64 where
  val : Int
  lower : -0x8000000000000000 ≤ val
  upper : val < 0x8000000000000000
  deriving DecidableEq

namespace I64

theorem val_injective : Function.Injective I64.val := by
  rintro ⟨a, _, _⟩ ⟨b, _, _⟩ same
  cases same
  rfl

instance linearOrder : LinearOrder I64 := LinearOrder.lift' I64.val val_injective

instance transOrd : Std.TransOrd I64 := inferInstance

instance lawfulEqOrd : Std.LawfulEqOrd I64 := ⟨compare_eq_iff_eq.mp⟩

theorem le_iff (a b : I64) : a ≤ b ↔ a.val ≤ b.val := Iff.rfl
theorem lt_iff (a b : I64) : a < b ↔ a.val < b.val := Iff.rfl

/-- The nearest representable integer. -/
def saturate (x : Int) : I64 :=
  ⟨max (-0x8000000000000000) (min x (0x8000000000000000 - 1)), by omega, by omega⟩

theorem saturate_val (x : Int) (lower : -0x8000000000000000 ≤ x) (upper : x < 0x8000000000000000) : (saturate x).val = x := by
  simp only [saturate]
  omega

def zero : I64 := ⟨0, by decide, by decide⟩

/-- The representable integer that agrees in the low 64 bits. -/
def wrap (x : Int) : I64 :=
  ⟨(x + 0x8000000000000000) % 0x10000000000000000 - 0x8000000000000000, by omega, by omega⟩

theorem wrap_val {x : Int} (lower : -0x8000000000000000 ≤ x) (upper : x < 0x8000000000000000) : (wrap x).val = x := by
  simp only [wrap]
  omega

def saturatingSub (a b : I64) : I64 := saturate (a.val - b.val)

end I64

/-- A signed 32-bit integer. -/
structure I32 where
  val : Int
  lower : -0x80000000 ≤ val
  upper : val < 0x80000000
  deriving DecidableEq

namespace I32

theorem val_injective : Function.Injective I32.val := by
  rintro ⟨a, _, _⟩ ⟨b, _, _⟩ same
  cases same
  rfl

def zero : I32 := ⟨0, by decide, by decide⟩

/-- The representable integer that agrees in the low 32 bits. -/
def wrap (x : Int) : I32 :=
  ⟨(x + 0x80000000) % 0x100000000 - 0x80000000, by omega, by omega⟩

theorem wrap_self (x : I32) : wrap x.val = x := by
  apply val_injective
  have := x.lower
  have := x.upper
  simp only [wrap]
  omega

end I32

end Machine

/-! Characters. -/

namespace Unicode

/-- The property `White_Space`, which `str::trim` removes at both ends. -/
def isWhitespace (c : Char) : Bool :=
  let code := c.toNat
  (0x9 ≤ code && code ≤ 0xd) || code == 0x20 || code == 0x85 || code == 0xa0 || code == 0x1680 ||
    (0x2000 ≤ code && code ≤ 0x200a) || code == 0x2028 || code == 0x2029 || code == 0x202f ||
    code == 0x205f || code == 0x3000

/-- Whether nothing is left of a text after `trim`. -/
def isBlank (text : String) : Bool := text.toList.all isWhitespace

end Unicode

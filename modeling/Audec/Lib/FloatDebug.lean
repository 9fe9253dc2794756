import Audec.Lib.FloatDecimal
import Audec.Lib.PartialEquality

/-! The text a single-precision number is printed as: the shortest decimal that reads back as it, in plain
    or exponent layout. -/

open List

namespace FloatDebug

open FloatDecimal Nat
open Float.Model (UnpackedFloat)

abbrev Text := List Char

/-- The decimal number `digits / 10 ^ scale`. -/
structure Decimal where
  digits : Nat
  scale : Int

/-- The last digits of a number, as many as asked for. -/
def padded : Nat → Nat → Text
  | 0, _ => []
  | width + 1, n => padded width (n / 10) ++ [Nat.digitChar (n % 10)]

/-- The number that a run of digits spells. -/
def value (digits : Text) : Nat :=
  digits.foldl (fun n c => 10 * n + (c.toNat - 48)) 0

namespace Decimal

section

variable (d : Decimal)

def pointed : Nat × Nat :=
  if 0 < d.scale then (d.digits, d.scale.toNat) else (d.digits * 10 ^ (1 - d.scale).toNat, 1)

/-- The number a decimal denotes, rounded. -/
def read : Float32 := readDecimal d.pointed.1 d.pointed.2

def plainText : Text :=
  Nat.toDigits 10 (d.pointed.1 / 10 ^ d.pointed.2) ++ '.' :: padded d.pointed.2 d.pointed.1

/-- How many digits follow the first. -/
def tail : Nat := Nat.log 10 d.digits

def exponentText : Text :=
  let fraction := if d.tail = 0 then [] else '.' :: padded d.tail d.digits
  let exponent : Int := d.tail - d.scale
  Nat.toDigits 10 (d.digits / 10 ^ d.tail) ++ fraction ++
    'e' :: ((if exponent < 0 then ['-'] else []) ++ Nat.toDigits 10 exponent.natAbs)

end

end Decimal

/-- The two decimals of the given scale around `m * 2 ^ e`, the nearer first. -/
def candidates (m : Nat) (e scale : Int) : List Decimal :=
  let numerator := m * 2 ^ e.toNat * 10 ^ scale.toNat
  let denominator := 2 ^ (-e).toNat * 10 ^ (-scale).toNat
  let below : Decimal := ⟨numerator / denominator, scale⟩
  let above : Decimal := ⟨numerator / denominator + 1, scale⟩
  if 2 * (numerator % denominator) < denominator then [below, above] else [above, below]

/-- The decimal with the fewest places that reads back as the number `m * 2 ^ e`, the nearest of those. -/
def shortest (x : Float32) (m : Nat) (e : Int) : Decimal :=
  (((List.range 189).flatMap fun i : Nat => candidates m e ((i : Int) - 39)).find? fun d => decide (d.read = x)).getD ⟨0, 0⟩

/-- Whether a nonzero number is printed with an exponent. -/
def Exponential (lowest x : Float32) : Prop := x < lowest ∨ 1e16 ≤ x

instance exponentialDecidable (lowest x : Float32) : Decidable (Exponential lowest x) :=
  inferInstanceAs (Decidable (_ ∨ _))

def signText : Float.Model.UnpackedFloat.Sign → Text
  | .positive => []
  | .negative => ['-']

/-- The text of a number under `{:?}`; nonzero numbers below `lowest` are printed with an exponent. -/
def debug (lowest x : Float32) : Text :=
  match x.toModel.unpack with
  | .notANumber => ['N', 'a', 'N']
  | .infinity sign => signText sign ++ ['i', 'n', 'f']
  | .zero sign => signText sign ++ ['0', '.', '0']
  | .finite sign m e _ =>
    let decimal := shortest x.abs m e
    signText sign ++ if Exponential lowest x.abs then decimal.exponentText else decimal.plainText

example : debug 1e-5 0.1 = "0.1".toList ∧ debug 1e-5 8.5e15 = "8500000000000000.0".toList ∧
    debug 1e-5 1e16 = "1e16".toList ∧ debug 1e-5 1.17549435e-38 = "1.1754944e-38".toList := by decide +kernel

theorem value_append (a b : Text) : value (a ++ b) = value a * 10 ^ b.length + value b := by
  unfold value
  rw [foldl_append]
  generalize a.foldl (fun n c => 10 * n + (c.toNat - 48)) 0 = start
  suffices shifted : ∀ n, b.foldl (fun n c => 10 * n + (c.toNat - 48)) n =
      n * 10 ^ b.length + b.foldl (fun n c => 10 * n + (c.toNat - 48)) 0 from shifted start
  induction b with
  | nil => simp
  | cons c rest ih =>
    intro n
    rw [foldl_cons, foldl_cons, ih, ih (10 * 0 + _), length_cons, pow_succ]
    ring

theorem value_digit (n : Nat) (small : n < 10) : value [digitChar n] = n := by
  change 10 * 0 + ((digitChar n).toNat - 48) = n
  rw [toNat_digitChar_sub_48_of_lt_ten small, mul_zero, zero_add]

theorem value_toDigits (n : Nat) : value (toDigits 10 n) = n := by
  induction n using Nat.strong_induction_on with
  | _ n ih =>
    rcases lt_or_ge n 10 with small | large
    · rw [toDigits_of_lt_base small, value_digit n small]
    · rw [toDigits_of_base_le (by decide) large, value_append, ih (n / 10) (by omega),
        value_digit _ (mod_lt n (by decide))]
      change n / 10 * 10 + n % 10 = n
      omega

theorem padded_length (width n : Nat) : (padded width n).length = width := by
  induction width generalizing n with
  | zero => rfl
  | succ width ih => rw [padded, length_append, ih, length_singleton]

theorem value_padded (width n : Nat) : value (padded width n) = n % 10 ^ width := by
  induction width generalizing n with
  | zero => rw [pow_zero, mod_one, padded]; rfl
  | succ width ih =>
    rw [padded, value_append, ih, value_digit _ (mod_lt n (by decide)), pow_succ, mul_comm (10 ^ width) 10,
      mod_mul]
    change n / 10 % 10 ^ width * 10 + n % 10 = _
    omega

theorem padded_isDigit (width n : Nat) : ∀ c ∈ padded width n, c.isDigit = true := by
  induction width generalizing n with
  | zero => intro c inside; cases inside
  | succ width ih =>
    intro c inside
    rw [padded, mem_append, mem_singleton] at inside
    rcases inside with earlier | rfl
    · exact ih _ c earlier
    · simp [mod_lt n]

theorem toDigits_isDigit (n : Nat) : ∀ c ∈ toDigits 10 n, c.isDigit = true :=
  fun _ inside => isDigit_of_mem_toDigits (by decide) (by decide) inside

theorem toDigits_ne_nil (n : Nat) : toDigits 10 n ≠ [] := by
  rcases lt_or_ge n 10 with small | large
  · rw [toDigits_of_lt_base small]
    exact cons_ne_nil _ _
  · rw [toDigits_of_base_le (by decide) large]
    exact append_ne_nil_of_right_ne_nil _ (cons_ne_nil _ _)

structure Literal where
  whole : Text
  fraction : Option Text
  nonempty : whole ≠ []
  wholeDigits : ∀ c ∈ whole, c.isDigit = true
  fractionDigits : ∀ c ∈ fraction.getD [], c.isDigit = true

namespace Literal

def pointText : Option Text → Text
  | none => []
  | some digits => '.' :: digits

def text (l : Literal) : Text := l.whole ++ pointText l.fraction

/-- The number a literal denotes, rounded. -/
def read (l : Literal) : Float32 :=
  readDecimal (value (l.whole ++ l.fraction.getD [])) (l.fraction.getD []).length

def ofDecimal (digits scale : Nat) : Literal where
  whole := Nat.toDigits 10 (digits / 10 ^ scale)
  fraction := if scale = 0 then none else some (padded scale digits)
  nonempty := toDigits_ne_nil _
  wholeDigits := toDigits_isDigit _
  fractionDigits := by
    split
    · intro c inside
      cases inside
    · exact padded_isDigit scale digits

theorem text_ofDecimal (digits scale : Nat) : (ofDecimal digits scale).text =
    toDigits 10 (digits / 10 ^ scale) ++ if scale = 0 then [] else '.' :: padded scale digits := by
  unfold text ofDecimal
  split <;> rfl

theorem read_ofDecimal (digits scale : Nat) : (ofDecimal digits scale).read = readDecimal digits scale := by
  have fraction : (ofDecimal digits scale).fraction.getD [] = padded scale digits := by
    unfold ofDecimal
    cases scale with
    | zero => rfl
    | succ => rfl
  unfold read
  rw [fraction, value_append, value_padded, padded_length]
  change readDecimal (value (toDigits 10 (digits / 10 ^ scale)) * 10 ^ scale + digits % 10 ^ scale) scale = _
  rw [value_toDigits, div_add_mod']

end Literal

/-- A number that is printed without an exponent. -/
def Plain (lowest x : Float32) : Prop := x = 0 ∨ ¬ Exponential lowest x

variable {e : Int} {m : Nat} {x lowest : Float32}

theorem candidate_expansion (least : -149 ≤ e) :
    (⟨expansion m e 149, 149⟩ : Decimal) ∈ candidates m e 149 := by
  have whole : m * 2 ^ e.toNat * 10 ^ (149 : Int).toNat / (2 ^ (-e).toNat * 10 ^ (-149 : Int).toNat) = expansion m e 149 := by
    have ten : (10 : Nat) ^ 149 = 5 ^ 149 * 2 ^ 149 := by rw [← Nat.mul_pow]
    change m * 2 ^ e.toNat * 10 ^ 149 / (2 ^ (-e).toNat * 1) = m * 5 ^ 149 * 2 ^ (149 + e).toNat
    rw [Nat.mul_one, ten]
    apply Nat.div_eq_of_eq_mul_left (by positivity)
    calc m * 2 ^ e.toNat * (5 ^ 149 * 2 ^ 149) = m * 5 ^ 149 * 2 ^ (e.toNat + 149) := by rw [pow_add]; ring
      _ = m * 5 ^ 149 * 2 ^ ((149 + e).toNat + (-e).toNat) := by congr 2; omega
      _ = m * 5 ^ 149 * 2 ^ (149 + e).toNat * 2 ^ (-e).toNat := by rw [pow_add]; ring
  unfold candidates
  simp only [whole]
  split <;> simp

variable {positive : 0 < m} {d : Decimal}

section

variable (unpacked : x.toModel.unpack = .finite .positive m e positive)
include unpacked

theorem shortest_read : (shortest x m e).read = x := by
  have least : -149 ≤ e := by
    have := (toModel_canonical unpacked).exponent
    change max _ (-149) = e at this
    omega
  unfold shortest
  generalize found : List.find? (fun d : Decimal => decide (d.read = x)) _ = result
  cases result with
  | some d =>
    have reads := find?_some found
    exact of_decide_eq_true reads
  | none =>
    rw [find?_eq_none] at found
    refine absurd (decide_eq_true ?_) (found ⟨expansion m e 149, 149⟩ ?_)
    · exact readDecimal_expansion unpacked
    · rw [mem_flatMap]
      exact ⟨188, by decide, candidate_expansion least⟩

theorem abs_eq : x.abs = x := by
  change Float32.ofModel (Float32.Model.pack x.toModel.unpack.abs) = x
  have same : x.toModel.unpack.abs = x.toModel.unpack := by
    rw [unpacked]
    rfl
  rw [same]
  exact ofModel_pack_unpack x

theorem debug_finite :
    debug lowest x = if Exponential lowest x then (shortest x m e).exponentText else (shortest x m e).plainText := by
  unfold debug
  rw [unpacked]
  simp only [abs_eq unpacked]
  rfl

end

theorem eq_of_unpack {y : Float32} (same : x.toModel.unpack = y.toModel.unpack) : x = y := by
  rw [← ofModel_pack_unpack x, same]
  exact ofModel_pack_unpack y

theorem plainText_eq (d : Decimal) :
    d.plainText = (Literal.ofDecimal d.pointed.1 d.pointed.2).text := by
  have pointed : d.pointed.2 ≠ 0 := by
    unfold Decimal.pointed
    split
    · change d.scale.toNat ≠ 0
      omega
    · exact one_ne_zero
  rw [Literal.text_ofDecimal, if_neg pointed]
  rfl

def IsExponent (text : Text) : Prop := ∀ c ∈ text, c = '-' ∨ c.isDigit = true

theorem exponentText_eq (d : Decimal) : ∃ rest, IsExponent rest ∧
    d.exponentText = (Literal.ofDecimal d.digits d.tail).text ++ 'e' :: rest := by
  rw [Literal.text_ofDecimal]
  refine ⟨_, ?_, rfl⟩
  intro c inside
  rcases mem_append.mp inside with sign | digit
  · split at sign
    · exact Or.inl (mem_singleton.mp sign)
    · cases sign
  · exact Or.inr (toDigits_isDigit _ c digit)

theorem debug_plain (unsigned : Unsigned x.toModel.unpack) (plain : Plain lowest x) :
    ∃ l : Literal, debug lowest x = l.text ∧ l.read = x := by
  generalize shape : x.toModel.unpack = u at unsigned
  cases unsigned with
  | zero =>
    refine ⟨Literal.ofDecimal 0 1, ?_, ?_⟩
    · unfold debug
      rw [shape]
      rfl
    · rw [Literal.read_ofDecimal]
      exact eq_of_unpack shape.symm
  | infinity =>
    exfalso
    rcases plain with rfl | regular
    · cases shape
    · apply regular
      right
      rw [FloatEquality.float32_le_iff, shape]
      rfl
  | finite m e positive =>
    have regular : ¬ Exponential lowest x := by
      rcases plain with rfl | regular
      · cases shape
      · exact regular
    refine ⟨Literal.ofDecimal (shortest x m e).pointed.1 (shortest x m e).pointed.2, ?_, ?_⟩
    · rw [debug_finite shape, if_neg regular, plainText_eq]
    · rw [Literal.read_ofDecimal]
      exact shortest_read shape

theorem compare_lt_iff {m' : Nat} {e' : Int} :
    (compare e e').then (compare m m') = .lt ↔ e < e' ∨ (e = e' ∧ m < m') := by
  rw [Ordering.then_eq_lt, Std.compare_eq_lt, Std.compare_eq_lt, Std.LawfulEqOrd.compare_eq_iff_eq]

theorem not_below (small : lowest ≤ 0.5)
    (unpacked : x.toModel.unpack = .finite .positive m e positive) (normal : Normal m) (low : -24 ≤ e) : ¬ x < lowest := by
  intro below
  have half : (0.5 : Float32).toModel.unpack = .finite .positive 0x800000 (-24) (by decide) := by rfl
  have fraction := normal.1
  rw [FloatEquality.float32_le_iff, half] at small
  rw [FloatEquality.float32_lt_iff, unpacked] at below
  generalize lowest.toModel.unpack = u at small below
  cases u with
  | notANumber => cases below
  | infinity sign =>
    cases sign with
    | negative => cases below
    | positive => cases small
  | zero sign => cases below
  | finite sign m' e' positive' =>
    cases sign with
    | negative => cases below
    | positive =>
      have order := compare_lt_iff.mp (Option.some.inj below)
      have capped : ((compare e' (-24)).then (compare m' 0x800000)).isLE = true := small
      rw [Ordering.isLE_iff_ne_gt] at capped
      apply capped
      rw [Ordering.then_eq_gt, Std.compare_eq_gt, Std.compare_eq_gt, Std.LawfulEqOrd.compare_eq_iff_eq]
      omega

theorem not_above
    (unpacked : x.toModel.unpack = .finite .positive m e positive) (high : e ≤ -18) : ¬ 1e16 ≤ x := by
  intro above
  have large : (1e16 : Float32).toModel.unpack = .finite .positive 0x8e1bca 30 (by decide) := by rfl
  rw [FloatEquality.float32_le_iff, unpacked, large] at above
  have capped : ((compare (30 : Int) e).then (compare 0x8e1bca m)).isLE = true := above
  rw [Ordering.isLE_iff_ne_gt] at capped
  apply capped
  rw [Ordering.then_eq_gt, Std.compare_eq_gt]
  omega

theorem mantissa_ne (small : lowest ≤ 0.5) (exponential : Exponential lowest x)
    (nonzero : d.digits ≠ 0) : readDecimal d.digits d.tail ≠ x := by
  rintro rfl
  obtain ⟨m, e, positive, unpacked, normal, low, high⟩ := readDecimal_unit (pow_log_le_self 10 nonzero)
    (lt_pow_succ_log_self (by decide) d.digits)
  change (readDecimal d.digits d.tail).toModel.unpack = _ at unpacked
  rcases exponential with below | above
  · exact not_below small unpacked normal low below
  · exact not_above unpacked high above

theorem digits_ne_zero
    (unpacked : x.toModel.unpack = .finite .positive m e positive) (reads : d.read = x) : d.digits ≠ 0 := by
  intro zero
  have nothing : d.pointed.1 = 0 := by
    unfold Decimal.pointed
    split
    · exact zero
    · simp [zero]
  have unread : (readDecimal 0 d.pointed.2).toModel.unpack = .zero .positive := by
    have scientific : UnpackedFloat.ofScientific .binary32 0 (-d.pointed.2) = .zero .positive := dif_pos rfl
    unfold readDecimal Float32.Model.ofScientific
    rw [scientific]
    rfl
  rw [← reads, Decimal.read, nothing, unread] at unpacked
  cases unpacked

theorem debug_not_plain (small : lowest ≤ 0.5) (unsigned : Unsigned x.toModel.unpack)
    (notPlain : ¬ Plain lowest x) :
    (debug lowest x = ['i', 'n', 'f'] ∧ x ≠ 0.5) ∨
      ∃ (l : Literal) (rest : Text), IsExponent rest ∧ debug lowest x = l.text ++ 'e' :: rest ∧ l.read ≠ x := by
  rw [Plain, not_or, not_not] at notPlain
  obtain ⟨nonzero, exponential⟩ := notPlain
  generalize shape : x.toModel.unpack = u at unsigned
  cases unsigned with
  | zero => exact absurd (eq_of_unpack shape) nonzero
  | infinity =>
    left
    constructor
    · unfold debug
      rw [shape]
      rfl
    · rintro rfl
      cases shape
  | finite m e positive =>
    right
    obtain ⟨rest, exponent, text⟩ := exponentText_eq (shortest x m e)
    refine ⟨Literal.ofDecimal (shortest x m e).digits (shortest x m e).tail, rest, exponent, ?_, ?_⟩
    · rw [debug_finite shape, if_pos exponential]
      exact text
    · rw [Literal.read_ofDecimal]
      exact mantissa_ne small exponential (digits_ne_zero shape (shortest_read shape))

end FloatDebug

import Mathlib

/-! IEEE equality as a partial equivalence: it identifies the two zeros and nothing else, and no
    comparison tells equal numbers apart. -/

open Option

namespace FloatEquality

open Float.Model (UnpackedFloat)

def unsignedZero : UnpackedFloat → UnpackedFloat
  | .zero _ => .zero .positive
  | number => number

theorem compare_unsignedZero_left (a b : UnpackedFloat) : (unsignedZero a).compare b = a.compare b := by
  cases a with
  | zero sign =>
    cases b with
    | infinity other => cases other <;> rfl
    | finite other => cases other <;> rfl
    | notANumber => rfl
    | zero => rfl
  | _ => rfl

theorem compare_unsignedZero_right (a b : UnpackedFloat) : a.compare (unsignedZero b) = a.compare b := by
  cases b with
  | zero sign =>
    cases a with
    | infinity other => cases other <;> rfl
    | finite other => cases other <;> rfl
    | notANumber => rfl
    | zero => rfl
  | _ => rfl

theorem isFinite_unsignedZero (a : UnpackedFloat) : (unsignedZero a).isFinite = a.isFinite := by
  cases a <;> rfl

theorem isNaN_unsignedZero (a : UnpackedFloat) : (unsignedZero a).isNaN = a.isNaN := by
  cases a <;> rfl

theorem same_exponent_and_mantissa {e₁ e₂ : Int} {m₁ m₂ : Nat}
    (same : (compare e₁ e₂).then (compare m₁ m₂) = .eq) : e₁ = e₂ ∧ m₁ = m₂ := by
  rw [Ordering.then_eq_eq] at same
  exact ⟨Std.LawfulEqOrd.eq_of_compare same.1, Std.LawfulEqOrd.eq_of_compare same.2⟩

theorem compare_self (a : UnpackedFloat) (number : a.isNaN = false) : a.compare a = some .eq := by
  cases a with
  | infinity sign => cases sign <;> rfl
  | finite sign m e => cases sign <;> simp [UnpackedFloat.compare]
  | notANumber => cases number
  | zero => rfl

theorem unsignedZero_of_compare (a b : UnpackedFloat) (same : a.compare b = some .eq) :
    unsignedZero a = unsignedZero b ∧ a.isNaN = false := by
  cases a with
  | notANumber => cases b <;> cases same
  | zero sign =>
    cases b with
    | infinity other => cases other <;> cases same
    | finite other => cases other <;> cases same
    | notANumber => cases same
    | zero => exact ⟨rfl, rfl⟩
  | infinity sign =>
    cases b with
    | infinity other => cases sign <;> cases other <;> first | exact ⟨rfl, rfl⟩ | cases same
    | finite other => cases sign <;> cases same
    | notANumber => cases same
    | zero => cases sign <;> cases same
  | finite sign m e =>
    cases b with
    | infinity other => cases sign <;> cases other <;> cases same
    | notANumber => cases sign <;> cases same
    | zero => cases sign <;> cases same
    | finite other m' e' =>
      cases sign <;> cases other
      · simp only [UnpackedFloat.compare, some.injEq, Ordering.swap_eq_eq] at same
        obtain ⟨rfl, rfl⟩ := same_exponent_and_mantissa same
        exact ⟨rfl, rfl⟩
      · cases same
      · cases same
      · simp only [UnpackedFloat.compare, some.injEq] at same
        obtain ⟨rfl, rfl⟩ := same_exponent_and_mantissa same
        exact ⟨rfl, rfl⟩

theorem compare_eq_iff (a b : UnpackedFloat) :
    a.compare b = some .eq ↔ unsignedZero a = unsignedZero b ∧ a.isNaN = false := by
  constructor
  · exact unsignedZero_of_compare a b
  · rintro ⟨same, number⟩
    rw [← compare_unsignedZero_right, ← same, compare_unsignedZero_right]
    exact compare_self a number

theorem float32_beq_iff (a b : Float32) :
    (a == b) = true ↔ unsignedZero a.toModel.unpack = unsignedZero b.toModel.unpack ∧
      a.toModel.unpack.isNaN = false := by
  rw [← compare_eq_iff]
  change (a.toModel.unpack.compare b.toModel.unpack == some Ordering.eq) = true ↔ _
  rw [beq_iff_eq]

theorem float_beq_iff (a b : Float) :
    (a == b) = true ↔ unsignedZero a.toModel.unpack = unsignedZero b.toModel.unpack ∧
      a.toModel.unpack.isNaN = false := by
  rw [← compare_eq_iff]
  change (a.toModel.unpack.compare b.toModel.unpack == some Ordering.eq) = true ↔ _
  rw [beq_iff_eq]

instance float32PartialEquiv : PartialEquivBEq Float32 where
  symm {a b} same := by
    rw [float32_beq_iff] at same ⊢
    refine ⟨same.1.symm, ?_⟩
    rw [← isNaN_unsignedZero, ← same.1, isNaN_unsignedZero, same.2]
  trans {a b c} first second := by
    rw [float32_beq_iff] at first second ⊢
    exact ⟨first.1.trans second.1, first.2⟩

instance floatPartialEquiv : PartialEquivBEq Float where
  symm {a b} same := by
    rw [float_beq_iff] at same ⊢
    refine ⟨same.1.symm, ?_⟩
    rw [← isNaN_unsignedZero, ← same.1, isNaN_unsignedZero, same.2]
  trans {a b c} first second := by
    rw [float_beq_iff] at first second ⊢
    exact ⟨first.1.trans second.1, first.2⟩

instance optionPartialEquiv {α : Type} [BEq α] [PartialEquivBEq α] : PartialEquivBEq (Option α) where
  symm {a b} same := by
    cases a <;> cases b
    · rfl
    · cases same
    · cases same
    · rw [Option.some_beq_some] at same ⊢
      exact BEq.symm same
  trans {a b c} first second := by
    cases a <;> cases b <;> cases c
    · rfl
    all_goals try cases first
    all_goals try cases second
    rw [Option.some_beq_some] at first second ⊢
    exact BEq.trans first second

variable {a b : Float32}

theorem float32_beq_self (number : a.isFinite = true) : (a == a) = true := by
  rw [float32_beq_iff]
  refine ⟨rfl, ?_⟩
  change a.toModel.unpack.isFinite = true at number
  cases unpacked : a.toModel.unpack <;> simp_all [UnpackedFloat.isFinite, UnpackedFloat.isNaN]

theorem float_beq_self {a : Float} (number : a.isFinite = true) : (a == a) = true := by
  rw [float_beq_iff]
  refine ⟨rfl, ?_⟩
  change a.toModel.unpack.isFinite = true at number
  cases unpacked : a.toModel.unpack <;> simp_all [UnpackedFloat.isFinite, UnpackedFloat.isNaN]

theorem compare_any_right {a b : UnpackedFloat} {test : Ordering → Bool} (compared : (a.compare b).any test = true) :
    b.isNaN = false := by
  cases b with
  | notANumber => cases a <;> cases compared
  | _ => rfl

theorem float32_isFinite_congr (same : (a == b) = true) : a.isFinite = b.isFinite := by
  change a.toModel.unpack.isFinite = b.toModel.unpack.isFinite
  rw [← isFinite_unsignedZero, ((float32_beq_iff a b).mp same).1, isFinite_unsignedZero]

theorem float32_le_iff (a b : Float32) :
    a ≤ b ↔ (a.toModel.unpack.compare b.toModel.unpack).any (·.isLE) = true :=
  decide_eq_true_iff

theorem float_le_iff (a b : Float) :
    a ≤ b ↔ (a.toModel.unpack.compare b.toModel.unpack).any (·.isLE) = true :=
  decide_eq_true_iff

theorem float32_beq_self_of_le (above : a ≤ b) : (b == b) = true := by
  rw [float32_beq_iff]
  exact ⟨rfl, compare_any_right ((float32_le_iff a b).mp above)⟩

theorem float32_le_congr {c d : Float32} (left : (a == b) = true) (right : (c == d) = true) :
    a ≤ c ↔ b ≤ d := by
  rw [float32_le_iff, float32_le_iff, ← compare_unsignedZero_left, ← compare_unsignedZero_right,
    ((float32_beq_iff a b).mp left).1, ((float32_beq_iff c d).mp right).1, compare_unsignedZero_left,
    compare_unsignedZero_right]

theorem float_le_congr {a b c d : Float} (left : (a == b) = true) (right : (c == d) = true) :
    a ≤ c ↔ b ≤ d := by
  rw [float_le_iff, float_le_iff, ← compare_unsignedZero_left, ← compare_unsignedZero_right,
    ((float_beq_iff a b).mp left).1, ((float_beq_iff c d).mp right).1, compare_unsignedZero_left,
    compare_unsignedZero_right]

theorem float_isFinite_congr {a b : Float} (same : (a == b) = true) : a.isFinite = b.isFinite := by
  change a.toModel.unpack.isFinite = b.toModel.unpack.isFinite
  rw [← isFinite_unsignedZero, ((float_beq_iff a b).mp same).1, isFinite_unsignedZero]

theorem float32_lt_iff (a b : Float32) : a < b ↔ a.toModel.unpack.compare b.toModel.unpack = some .lt := by
  change decide (_ = true) = true ↔ _
  rw [decide_eq_true_iff]
  exact beq_iff_eq

theorem float32_lt_congr {c d : Float32} (left : (a == b) = true) (right : (c == d) = true) : a < c ↔ b < d := by
  rw [float32_lt_iff, float32_lt_iff, ← compare_unsignedZero_left, ← compare_unsignedZero_right,
    ((float32_beq_iff a b).mp left).1, ((float32_beq_iff c d).mp right).1, compare_unsignedZero_left,
    compare_unsignedZero_right]

end FloatEquality

/-! Lists compared item by item under a partial equivalence: what holds of the items of one holds of the other's. -/

namespace PartialEquality

variable {α β : Type} [BEq α] [BEq β]

abbrev Pairwise (xs ys : List α) : Prop := List.Forall₂ (fun x y => (x == y) = true) xs ys

variable {xs ys : List α}

theorem list_beq_iff : (xs == ys) = true ↔ Pairwise xs ys := by
  induction xs generalizing ys with
  | nil => cases ys <;> simp
  | cons x xs tail =>
    cases ys with
    | nil => simp
    | cons y ys =>
      rw [List.cons_beq_cons, Bool.and_eq_true, tail]
      exact (List.forall₂_cons (R := fun x y => (x == y) = true)).symm

theorem some_of_same {a : Option α} {value : α} (same : (a == some value) = true) :
    ∃ found, a = some found ∧ (found == value) = true := by
  cases a with
  | none => cases same
  | some found => exact ⟨found, rfl, same⟩

theorem prod_beq_iff {a b : α × β} : (a == b) = true ↔ (a.1 == b.1) = true ∧ (a.2 == b.2) = true := by
  rw [← Bool.and_eq_true]
  rfl

theorem pairwise_trans [PartialEquivBEq α] {zs : List α} (first : Pairwise xs ys) (second : Pairwise ys zs) :
    Pairwise xs zs := by
  induction first generalizing zs with
  | nil => exact second
  | cons here _ tail =>
    cases second with
    | cons there rest => exact .cons (BEq.trans here there) (tail rest)

instance listPartialEquiv [PartialEquivBEq α] : PartialEquivBEq (List α) where
  symm same := by
    rw [list_beq_iff] at same ⊢
    exact same.flip.imp fun _ _ => BEq.symm
  trans first second := by
    rw [list_beq_iff] at first second ⊢
    exact pairwise_trans first second

instance prodPartialEquiv [PartialEquivBEq α] [PartialEquivBEq β] : PartialEquivBEq (α × β) where
  symm same := by
    rw [prod_beq_iff] at same ⊢
    exact ⟨BEq.symm same.1, BEq.symm same.2⟩
  trans first second := by
    rw [prod_beq_iff] at first second ⊢
    exact ⟨BEq.trans first.1 second.1, BEq.trans first.2 second.2⟩

theorem list_beq_self (all : ∀ x ∈ xs, (x == x) = true) : (xs == xs) = true :=
  list_beq_iff.mpr (List.forall₂_same.mpr all)

theorem all_congr (same : (xs == ys) = true) {holds : α → Prop}
    (keeps : ∀ x y, (x == y) = true → holds x → holds y) (all : ∀ x ∈ xs, holds x) : ∀ y ∈ ys, holds y := by
  have pairs := list_beq_iff.mp same
  clear same
  induction pairs with
  | nil => exact all
  | cons here _ tail =>
    obtain ⟨first, rest⟩ := List.forall_mem_cons.mp all
    exact List.forall_mem_cons.mpr ⟨keeps _ _ here first, tail rest⟩

theorem zip_congr {xs' ys' : List β} (same : (xs == ys) = true) (same' : (xs' == ys') = true) :
    (xs.zip xs' == ys.zip ys') = true := by
  rw [list_beq_iff] at same same' ⊢
  induction same generalizing xs' ys' with
  | nil => simp
  | cons here _ tail =>
    cases same' with
    | nil => simp
    | cons there rest => exact .cons (prod_beq_iff.mpr ⟨here, there⟩) (tail rest)

theorem tail_congr (same : (xs == ys) = true) : (xs.tail == ys.tail) = true := by
  rw [list_beq_iff] at same ⊢
  cases same with
  | nil => exact .nil
  | cons _ rest => exact rest

end PartialEquality

import Audec.PatternLang.Eval

/-! The slots of a sequence: consecutive, in proportion to the widths, and as long as the extent they fill. -/

open List

namespace Audec.PatternLang

open Machine Checked FloatDebug Rational StepOf

structure Slot (α : Type) where
  step : StepOf α
  start : Rational
  width : Rational

/-- The slots of a sequence over an extent. -/
def slotsOf {α : Type} (start width : Rational) (steps : List (StepOf α)) : Eval (List (Slot α)) :=
  visitSlots start width (fun step slotStart slotWidth => .ok ⟨step, slotStart, slotWidth⟩) steps

/-- Slots of positive width that follow one another without gaps from one point to another. -/
def Tiles {α : Type} : ℚ → List (Slot α) → ℚ → Prop
  | first, [], last => first = last
  | first, slot :: rest, last => slot.start.value = first ∧ 0 < slot.width.value ∧ Tiles (first + slot.width.value) rest last

namespace Tiles

variable {α : Type}

variable {slots : List (Slot α)}

variable {first last : ℚ}

theorem append {middle : ℚ} {later : List (Slot α)} (front : Tiles first slots middle)
    (back : Tiles middle later last) : Tiles first (slots ++ later) last := by
  induction slots generalizing first with
  | nil =>
    cases front
    exact back
  | cons slot rest tail => exact ⟨front.1, front.2.1, tail front.2.2⟩

theorem first_le (tiles : Tiles first slots last) : first ≤ last := by
  induction slots generalizing first with
  | nil => exact le_of_eq tiles
  | cons slot rest tail =>
    have later := tail tiles.2.2
    have positive := tiles.2.1
    linarith

theorem inside (tiles : Tiles first slots last) {slot : Slot α}
    (member : slot ∈ slots) :
    first ≤ slot.start.value ∧ 0 < slot.width.value ∧ slot.start.value + slot.width.value ≤ last := by
  induction slots generalizing first with
  | nil => cases member
  | cons head rest tail =>
    obtain ⟨begins, positive, later⟩ := tiles
    rcases mem_cons.mp member with rfl | member
    · have reaches := later.first_le
      exact ⟨begins.ge, positive, by linarith⟩
    · obtain ⟨low, wide, high⟩ := tail later member
      exact ⟨by linarith, wide, high⟩

end Tiles

namespace StepOf

variable {α : Type}

def weight (step : StepOf α) : ℚ := step.width.numerator.val / step.width.denominator.val

def copies (step : StepOf α) : Nat := (max step.replicate 1).val

theorem copies_pos (step : StepOf α) : 0 < step.copies := by
  have least : (1 : U32) ≤ max step.replicate 1 := le_max_right _ _
  exact Fin.le_def.mp least

/-- The widths of a sequence, each as often as its step is replicated. -/
def sumWeights (steps : List (StepOf α)) : ℚ := (steps.map fun step => (step.copies : ℚ) * step.weight).sum

def replicated (steps : List (StepOf α)) : List (StepOf α) :=
  steps.flatMap fun step => List.replicate step.copies step

end StepOf

variable {result : Rational}

theorem Rational.add_value_of_small {a b : Rational}
    (small : b.numerator.val + b.denominator.val ≤ 0x10000000000000000) (done : a.add b = .ok result) :
    result.value = a.value + b.value := by
  refine add_value ?_ done
  have left := a.numerator.isLt
  have right := a.denominator.isLt
  unfold crossSum
  have first : a.numerator.val * b.denominator.val ≤ (0x10000000000000000 - 1) * b.denominator.val :=
    Nat.mul_le_mul_right _ (by omega)
  have second : b.numerator.val * a.denominator.val ≤ b.numerator.val * (0x10000000000000000 - 1) :=
    Nat.mul_le_mul_left _ (by omega)
  omega

theorem Rational.new_le {numerator denominator : U64}
    (done : new numerator denominator = .ok result) :
    result.numerator.val ≤ numerator.val ∧ result.denominator.val ≤ denominator.val := by
  unfold new at done
  split at done
  · cases done
  · cases done
    exact ⟨Nat.div_le_self _ _, Nat.div_le_self _ _⟩

theorem share_value {count : U32} (valid : count ≠ 0) {share : Rational}
    (made : new 1 (Fin.ofNat _ count.val) = .ok share) : 0 < share.value ∧ share.value * count.val = 1 := by
  have small := count.isLt
  have positive : (0 : ℚ) < count.val := by exact_mod_cast Fin.pos_iff_ne_zero.mpr valid
  have width := (new_value made).2
  rw [Fin.val_ofNat, Nat.mod_eq_of_lt (by omega), show ((1 : U64).val : ℚ) = 1 from rfl] at width
  rw [width]
  constructor
  · positivity
  · field_simp

section Sequence

variable {α β : Type}

def Weighted (steps : List (StepOf α)) : Prop :=
  ∀ step ∈ steps, step.width.numerator ≠ 0 ∧ step.width.denominator ≠ 0

variable {step : StepOf α} {steps : List (StepOf α)} {cursor : Rational} {items : List β} {slots : List (Slot α)}

theorem weight_pos (weighted : step.width.numerator ≠ 0 ∧ step.width.denominator ≠ 0) :
    0 < step.weight := by
  have numerator : 0 < step.width.numerator.val := Fin.pos_iff_ne_zero.mpr weighted.1
  have denominator : 0 < step.width.denominator.val := Fin.pos_iff_ne_zero.mpr weighted.2
  unfold weight
  positivity

theorem totalWeight_value {total result : Rational}
    (done : totalWeight total steps = .ok result) :
    Weighted steps ∧ result.value = total.value + sumWeights steps := by
  induction steps generalizing total with
  | nil =>
    cases done
    exact ⟨by simp [Weighted], by simp [sumWeights]⟩
  | cons step rest tail =>
    simp only [totalWeight, bind_ok] at done
    obtain ⟨_, valid, weight, made, sum, added, done⟩ := done
    have valid := ensure_ok.mp valid
    push Not at valid
    obtain ⟨weighted, value⟩ := tail done
    have numerator := step.width.numerator.isLt
    have denominator := step.width.denominator.isLt
    have copies := (max step.replicate 1).isLt
    have product : step.width.numerator.val * (max step.replicate 1).val ≤ (0x100000000 - 1) * (0x100000000 - 1) :=
      Nat.mul_le_mul (by omega) (by omega)
    have made' := new_value made
    have bounds := new_le made
    simp only [Fin.val_ofNat] at made' bounds
    rw [Nat.mod_eq_of_lt (by omega), Nat.mod_eq_of_lt (by omega)] at made' bounds
    have exact := add_value_of_small (by omega) added
    refine ⟨forall_mem_cons.mpr ⟨valid, weighted⟩, ?_⟩
    rw [value, exact, made'.2, StepOf.sumWeights, StepOf.sumWeights, map_cons, sum_cons, StepOf.weight,
      StepOf.copies]
    push_cast
    ring

variable {total start width : Rational} {visit : StepOf α → Rational → Rational → Eval β}

def Visited (visit : StepOf α → Rational → Rational → Eval β) (slots : List (Slot α)) (items : List β) : Prop :=
  List.Forall₂ (fun slot item => visit slot.step slot.start slot.width = .ok item) slots items

variable {copies : Nat} {fraction last weight : Rational}

theorem visitCopies_visited
    (done : visitCopies total start width (visit step) weight fraction copies cursor = .ok (items, last)) :
    ∃ slots, visitCopies total start width (fun slotStart slotWidth => .ok (Slot.mk step slotStart slotWidth)) weight
      fraction copies cursor = .ok (slots, last) ∧ Visited visit slots items := by
  induction copies generalizing cursor items with
  | zero =>
    cases done
    exact ⟨[], rfl, .nil⟩
  | succ copies tail =>
    simp only [visitCopies, bind_ok] at done
    obtain ⟨along, divided, offset, scaled, slotStart, placed, slotWidth, sized, item, visited, next, moved, ⟨later, stop⟩,
      rest, done⟩ := done
    cases done
    obtain ⟨slots, recorded, visits⟩ := tail rest
    refine ⟨⟨step, slotStart, slotWidth⟩ :: slots, ?_, .cons visited visits⟩
    simp only [visitCopies, bind_ok]
    exact ⟨along, divided, offset, scaled, slotStart, placed, slotWidth, sized, _, rfl, next, moved, (slots, _),
      recorded, rfl⟩

theorem visitSteps_visited
    (done : visitSteps total start width visit cursor steps = .ok items) :
    ∃ slots, visitSteps total start width (fun step slotStart slotWidth => .ok (Slot.mk step slotStart slotWidth))
      cursor steps = .ok slots ∧ Visited visit slots items := by
  induction steps generalizing cursor items with
  | nil =>
    cases done
    exact ⟨[], rfl, .nil⟩
  | cons step rest tail =>
    simp only [visitSteps, bind_ok] at done
    obtain ⟨weight, made, fraction, divided, ⟨first, next⟩, copied, later, remaining, done⟩ := done
    cases done
    obtain ⟨slots, recorded, visits⟩ := visitCopies_visited copied
    obtain ⟨others, recorded', visits'⟩ := tail remaining
    refine ⟨slots ++ others, ?_, rel_append visits visits'⟩
    simp only [visitSteps, bind_ok]
    exact ⟨weight, made, fraction, divided, (slots, next), recorded, others, recorded', rfl⟩

theorem visitSlots_visited
    (done : visitSlots start width visit steps = .ok items) :
    ∃ slots, slotsOf start width steps = .ok slots ∧ Visited visit slots items := by
  simp only [visitSlots, bind_ok] at done
  obtain ⟨_, present, total, summed, done⟩ := done
  obtain ⟨slots, recorded, visits⟩ := visitSteps_visited done
  refine ⟨slots, ?_, visits⟩
  simp only [slotsOf, visitSlots, bind_ok]
  exact ⟨(), present, total, summed, recorded⟩

/-- What the slots of a sequence look like from one cursor to another, as parts of the total. -/
structure Laid (total start width : Rational) (first last : ℚ) (slots : List (Slot α)) (steps : List (StepOf α)) : Prop where
  steps : slots.map Slot.step = steps
  tiles : Tiles (start.value + first / total.value * width.value) slots (start.value + last / total.value * width.value)
  widths : ∀ slot ∈ slots, slot.width.value = slot.step.weight / total.value * width.value

theorem Laid.append {first middle last : ℚ} {later : List (Slot α)} {others : List (StepOf α)}
    (front : Laid total start width first middle slots steps) (back : Laid total start width middle last later others) :
    Laid total start width first last (slots ++ later) (steps ++ others) := by
  refine ⟨?_, front.tiles.append back.tiles, fun slot member => ?_⟩
  · rw [map_append, front.steps, back.steps]
  · rcases mem_append.mp member with member | member
    · exact front.widths slot member
    · exact back.widths slot member

structure Extent (start width : Rational) : Prop where
  positive : 0 < width.value
  inside : start.value + width.value ≤ 1

section

variable (extent : Extent start width)
include extent

theorem visitCopies_laid (totalPos : 0 < total.value)
    (weighted : step.width.numerator ≠ 0 ∧ step.width.denominator ≠ 0)
    (made : new (Fin.ofNat _ step.width.numerator.val) (Fin.ofNat _ step.width.denominator.val) = .ok weight)
    (divided : weight.div total = .ok fraction)
    (room : cursor.value + copies * step.weight ≤ total.value)
    (done : visitCopies total start width (fun slotStart slotWidth => .ok (Slot.mk step slotStart slotWidth)) weight
      fraction copies cursor = .ok (slots, last)) :
    last.value = cursor.value + copies * step.weight ∧
      Laid total start width cursor.value last.value slots (List.replicate copies step) := by
  have numerator := step.width.numerator.isLt
  have denominator := step.width.denominator.isLt
  have made' := (new_value made).2
  have bounds := new_le made
  simp only [Fin.val_ofNat] at made' bounds
  rw [Nat.mod_eq_of_lt (by omega), Nat.mod_eq_of_lt (by omega)] at made' bounds
  have share : fraction.value = step.weight / total.value := by rw [(div_value divided).2, made']; rfl
  have positive := weight_pos weighted
  induction copies generalizing cursor slots with
  | zero =>
    cases done
    exact ⟨by simp, rfl, rfl, by simp⟩
  | succ copies tail =>
    simp only [visitCopies, bind_ok] at done
    obtain ⟨along, alongIs, offset, offsetIs, slotStart, placed, slotWidth, sized, item, visited, next, moved,
      ⟨later, stop⟩, rest, done⟩ := done
    cases done
    cases visited
    have share' : along.value = cursor.value / total.value := (div_value alongIs).2
    have offset' : offset.value = cursor.value / total.value * width.value := by
      rw [mul_value offsetIs, share']
    have size : slotWidth.value = step.weight / total.value * width.value := by
      rw [mul_value sized, share]
    have next' : next.value = cursor.value + step.weight := by
      rw [add_value_of_small (by omega) moved, made']
      rfl
    push_cast at room
    have within : cursor.value / total.value ≤ 1 := by
      rw [div_le_one totalPos]
      nlinarith [Nat.cast_nonneg (α := ℚ) copies]
    have start' : slotStart.value = start.value + cursor.value / total.value * width.value := by
      rw [add_value_of_le_one ?_ placed, offset']
      rw [offset']
      nlinarith [extent.positive, extent.inside]
    obtain ⟨last', laid⟩ := tail (by rw [next']; linarith) rest
    refine ⟨by rw [last', next']; push_cast; ring, ?_, ⟨start', ?_, ?_⟩, ?_⟩
    · rw [map_cons, laid.steps, replicate_succ]
    · rw [size]
      have := extent.positive
      positivity
    · have along' : start.value + cursor.value / total.value * width.value + slotWidth.value =
          start.value + next.value / total.value * width.value := by
        rw [size, next']
        ring
      rw [along']
      exact laid.tiles
    · refine forall_mem_cons.mpr ⟨size, laid.widths⟩

theorem visitSteps_laid (totalPos : 0 < total.value)
    (weighted : Weighted steps)
    (room : cursor.value + sumWeights steps ≤ total.value)
    (done : visitSteps total start width (fun step slotStart slotWidth => .ok (Slot.mk step slotStart slotWidth))
      cursor steps = .ok slots) :
    Laid total start width cursor.value (cursor.value + sumWeights steps) slots (replicated steps) := by
  induction steps generalizing cursor slots with
  | nil =>
    cases done
    exact ⟨rfl, by simp [sumWeights, Tiles], by simp⟩
  | cons step rest tail =>
    simp only [visitSteps, bind_ok] at done
    obtain ⟨weight, made, fraction, divided, ⟨first, next⟩, copied, later, remaining, done⟩ := done
    cases done
    obtain ⟨here, others⟩ := forall_mem_cons.mp weighted
    have sum : sumWeights (step :: rest) = step.copies * step.weight + sumWeights rest := by
      rw [sumWeights, sumWeights, map_cons, sum_cons]
    have rest' : 0 ≤ sumWeights rest := by
      unfold sumWeights
      refine sum_nonneg fun value member => ?_
      obtain ⟨other, inside, rfl⟩ := mem_map.mp member
      have := weight_pos (others other inside)
      positivity
    rw [sum] at room ⊢
    obtain ⟨value, front⟩ := visitCopies_laid extent totalPos here made divided (by rw [copies] at room; linarith)
      copied
    have back := tail others (by rw [value]; rw [copies] at room; linarith) remaining
    have last : next.value + sumWeights rest = cursor.value + (step.copies * step.weight + sumWeights rest) := by
      rw [value, copies]
      ring
    rw [last] at back
    exact front.append back

/-- The slots of a sequence follow one another from the start of the extent to its end, one for each copy of each
    step, each with its share of the width. -/
theorem slotsOf_tiles
    (done : slotsOf start width steps = .ok slots) :
    slots.map Slot.step = replicated steps ∧ Tiles start.value slots (start.value + width.value) ∧
      ∀ slot ∈ slots, slot.width.value * sumWeights steps = slot.step.weight * width.value := by
  simp only [slotsOf, visitSlots, bind_ok] at done
  obtain ⟨_, present, total, summed, done⟩ := done
  have present := ensure_ok.mp present
  obtain ⟨weighted, value⟩ := totalWeight_value summed
  rw [value_zero, zero_add] at value
  have totalPos : 0 < total.value := by
    rw [value, sumWeights]
    refine sum_pos _ (fun share member => ?_) (by simpa using present)
    obtain ⟨step, inside, rfl⟩ := mem_map.mp member
    have := weight_pos (weighted step inside)
    have := step.copies_pos
    positivity
  have laid := visitSteps_laid extent totalPos weighted (by rw [value, value_zero, zero_add]) done
  have tiles := laid.tiles
  rw [value_zero, zero_div, zero_mul, add_zero, zero_add, ← value, div_self totalPos.ne', one_mul] at tiles
  refine ⟨laid.steps, tiles, fun slot member => ?_⟩
  rw [laid.widths slot member, ← value]
  field_simp

end

end Sequence

end Audec.PatternLang

import Audec.Lib.Ruler
import Audec.Sequencer.Edits

/-! The meters of a valid tempo map as a ruler of bar lines. -/

open Machine Checked SortedSlice Ruler List Option

namespace Audec.Sequencer

variable {map : TempoMap} {index : ℕ} {point : MeterPoint} {tick : BeatTime}

theorem TimeSignature.validate_ok {signature : TimeSignature} (proper : signature.validate = .ok ()) :
    0 < signature.numerator.val ∧ 0 < signature.ticksPerBeat ∧ signature.ticksPerBeat ≤ 3840 := by
  unfold TimeSignature.validate at proper
  split at proper
  · cases proper
  · rename_i refused
    simp only [not_or, not_not, not_lt, isPowerOfTwo, Bool.and_eq_true, bne_iff_ne, ppq] at refused
    obtain ⟨numerator, ⟨denominator, -⟩, short, -⟩ := refused
    have positive : (0 : Int) < signature.denominator.val := by omega
    unfold TimeSignature.ticksPerBeat ppq
    rw [Int.tdiv_eq_ediv_of_nonneg (by decide)]
    refine ⟨by omega, ?_, Int.ediv_le_self _ (by decide)⟩
    have : 1 ≤ 960 * 4 / (signature.denominator.val : Int) := (Int.le_ediv_iff_mul_le positive).mpr (by omega)
    omega

theorem TimeSignature.ticksPerBar_bounds {signature : TimeSignature} (proper : signature.validate = .ok ()) :
    0 < signature.ticksPerBar ∧ signature.ticksPerBar ≤ 0x10000000 := by
  obtain ⟨numerator, positive, short⟩ := validate_ok proper
  have := signature.numerator.isLt
  unfold ticksPerBar
  constructor
  · exact Int.mul_pos positive (by omega)
  · nlinarith

namespace TempoMap

def segmentStart (map : TempoMap) (index : ℕ) : ℤ := (map.meters[index]?.map fun point => point.at'.val).getD 0

def barWidth (map : TempoMap) (index : ℕ) : ℤ := (map.meters[index]?.map fun point => point.signature.ticksPerBar).getD 0

def firstBar (map : TempoMap) (index : ℕ) : ℤ := (map.meterStartBar index).val

theorem segmentStart_get (here : map.meters[index]? = some point) : map.segmentStart index = point.at'.val := by
  rw [segmentStart, here, map_some, getD_some]

theorem barWidth_get (here : map.meters[index]? = some point) : map.barWidth index = point.signature.ticksPerBar := by
  rw [barWidth, here, map_some, getD_some]

theorem windows_concat {α : Type} (items : List α) (last next : α) :
    windows (items ++ [last] ++ [next]) = windows (items ++ [last]) ++ [(last, next)] := by
  unfold windows
  induction items with
  | nil => rfl
  | cons first items tail =>
    cases items with
    | nil => rfl
    | cons second items =>
      simp only [cons_append, tail_cons, zip_cons_cons] at tail ⊢
      rw [tail]

theorem meterStartBar_succ {next : MeterPoint} (here : map.meters[index]? = some point) (there : map.meters[index + 1]? = some next) :
    map.meterStartBar (index + 1) =
      I64.saturate ((map.meterStartBar index).val + (next.at'.val - point.at'.val).tdiv point.signature.ticksPerBar) := by
  obtain ⟨bound, rfl⟩ := List.getElem?_eq_some_iff.mp here
  obtain ⟨bound', rfl⟩ := List.getElem?_eq_some_iff.mp there
  unfold meterStartBar
  rw [take_succ_eq_append_getElem bound', take_succ_eq_append_getElem bound, windows_concat, foldl_append,
    foldl_cons, foldl_nil]

theorem mem_windows {α : Type} {items : List α} {index : ℕ} {item next : α} (here : items[index]? = some item) (there : items[index + 1]? = some next) :
    (item, next) ∈ windows items := by
  rw [mem_iff_getElem?]
  refine ⟨index, ?_⟩
  unfold windows
  rw [getElem?_zip_eq_some, getElem?_tail]
  exact ⟨here, there⟩

theorem Valid.origin (valid : map.Valid) : ∃ origin, map.meters[0]? = some origin ∧ origin.at' = I64.zero := by
  have head := (boundaries_ok.mp valid.boundaries).1
  obtain ⟨origin, first, zero⟩ := map_eq_some_iff.mp head
  exact ⟨origin, by rw [← head?_eq_getElem?, first], zero⟩

theorem meter_get (bound : index < map.meters.length) : ∃ point ∈ map.meters, map.meters[index]? = some point :=
  ⟨map.meters[index], getElem_mem bound, getElem?_eq_getElem bound⟩

theorem Valid.aligned (valid : map.Valid) (bound : index + 1 < map.meters.length) :
    ∃ bars, 0 < bars ∧ map.segmentStart (index + 1) = map.segmentStart index + bars * map.barWidth index ∧
      map.meterStartBar (index + 1) = I64.saturate (map.firstBar index + bars) := by
  obtain ⟨point, member, here⟩ := meter_get (Nat.lt_of_succ_lt bound)
  obtain ⟨next, -, there⟩ := meter_get bound
  obtain ⟨ahead, whole⟩ := (boundaries_ok.mp valid.boundaries).2 _ (mem_windows here there)
  obtain ⟨positive, -⟩ := TimeSignature.ticksPerBar_bounds (valid.signatures point member)
  have span : 0 < next.at'.val - point.at'.val := sub_pos.mpr ahead
  dsimp only at whole
  rw [Int.tmod_eq_emod_of_nonneg span.le] at whole
  have divides := Int.mul_ediv_add_emod (next.at'.val - point.at'.val) point.signature.ticksPerBar
  refine ⟨(next.at'.val - point.at'.val) / point.signature.ticksPerBar, ?_, ?_, ?_⟩
  · exact Int.ediv_pos_of_pos_of_dvd span positive.le (Int.dvd_of_emod_eq_zero whole)
  · rw [segmentStart_get here, segmentStart_get there, barWidth_get here, mul_comm]
    omega
  · rw [meterStartBar_succ here there, Int.tdiv_eq_ediv_of_nonneg span.le]
    rfl

theorem Valid.start_zero (valid : map.Valid) : map.segmentStart 0 = 0 := by
  obtain ⟨origin, here, zero⟩ := valid.origin
  rw [segmentStart_get here, zero]
  rfl

theorem Valid.barWidth_pos (valid : map.Valid) (bound : index < map.meters.length) : 0 < map.barWidth index := by
  obtain ⟨point, member, here⟩ := meter_get bound
  rw [barWidth_get here]
  exact (TimeSignature.ticksPerBar_bounds (valid.signatures point member)).1

theorem meterStartBar_zero : map.meterStartBar 0 = I64.zero := by
  unfold meterStartBar windows
  cases map.meters <;> rfl

section

variable (valid : map.Valid)
include valid

theorem Valid.firstBar_bounds (bound : index < map.meters.length) :
    0 ≤ map.firstBar index ∧ map.firstBar index ≤ map.segmentStart index := by
  induction index with
  | zero =>
    rw [firstBar, meterStartBar_zero, valid.start_zero]
    exact ⟨le_rfl, le_rfl⟩
  | succ index ih =>
    obtain ⟨least, most⟩ := ih (Nat.lt_of_succ_lt bound)
    obtain ⟨bars, some, start, sum⟩ := valid.aligned bound
    obtain ⟨next, -, there⟩ := meter_get bound
    have wide := valid.barWidth_pos (Nat.lt_of_succ_lt bound)
    have more : bars ≤ bars * map.barWidth index := le_mul_of_one_le_right some.le wide
    have upper := next.at'.upper
    rw [segmentStart_get there] at start ⊢
    rw [firstBar, sum, I64.saturate_val _ (by omega) (by omega)]
    omega

theorem Valid.ruled : Ruled map.segmentStart map.barWidth map.firstBar map.meters.length := by
  have step (index : ℕ) (bound : index + 1 < map.meters.length) :
      ∃ bars, 0 < bars ∧ map.segmentStart (index + 1) = map.segmentStart index + bars * map.barWidth index ∧
        map.firstBar (index + 1) = map.firstBar index + bars := by
    obtain ⟨bars, some, start, sum⟩ := valid.aligned bound
    obtain ⟨least, most⟩ := valid.firstBar_bounds (Nat.lt_of_succ_lt bound)
    obtain ⟨next, -, there⟩ := meter_get bound
    have wide := valid.barWidth_pos (Nat.lt_of_succ_lt bound)
    have more : bars ≤ bars * map.barWidth index := le_mul_of_one_le_right some.le wide
    have upper := next.at'.upper
    have start' := start
    rw [segmentStart_get there] at start'
    exact ⟨bars, some, start, by rw [firstBar, sum, I64.saturate_val _ (by omega) (by omega)]⟩
  refine ⟨fun index bound => valid.barWidth_pos bound, ?_, ?_⟩
  · intro index bound
    obtain ⟨bars, some, -, sum⟩ := step index bound
    omega
  · intro index bound
    obtain ⟨bars, some, start, sum⟩ := step index bound
    rw [start, sum, add_sub_cancel_left]

/-- The point that the bound search finds is the one in force, whatever the tick. -/
theorem Valid.upperBound_located (tick : BeatTime) :
    Located map.segmentStart map.meters.length tick.val (upperBoundByTick map.meters tick MeterPoint.at' - 1) := by
  obtain ⟨below, rest, same, length, early, late⟩ := cut map.meters fun point => point.at' ≤ tick
  obtain ⟨origin, here, zero⟩ := valid.origin
  have nonempty : 0 < map.meters.length := (List.getElem?_eq_some_iff.mp here).1
  have total : map.meters.length = below.length + rest.length := by rw [same, length_append]
  unfold upperBoundByTick
  rw [← length]
  refine ⟨by omega, ?_, ?_⟩
  · rcases below.eq_nil_or_concat with none | ⟨others, last, same'⟩
    · left
      rw [none]
      rfl
    · right
      have found : map.meters[below.length - 1]? = some last := by
        rw [same, same']
        simp
      rw [segmentStart_get found]
      exact of_decide_eq_true (early last (by simp [same']))
  · intro bound
    cases rest with
    | nil => simp at total; omega
    | cons next others =>
      have later : tick < next.at' := not_le.mp (of_decide_eq_false (late next others rfl))
      have found : map.meters[below.length]? = some next := by
        rw [same, getElem?_append_right le_rfl, Nat.sub_self, getElem?_cons_zero]
      rcases Nat.eq_zero_or_pos below.length with none | some
      · -- Before the origin no point is in force, and all later ones are still ahead.
        rw [none] at found bound ⊢
        have rising := valid.ruled.start_rising 0 bound
        rw [segmentStart_get found] at rising
        exact (show tick.val < next.at'.val from later).trans rising
      · rw [Nat.sub_add_cancel some, segmentStart_get found]
        exact later

theorem Valid.index_located (tick : BeatTime) :
    Located map.segmentStart map.meters.length tick.val (map.meterIndex tick) := by
  unfold meterIndex
  split
  · rename_i preroll
    obtain ⟨origin, here, -⟩ := valid.origin
    refine ⟨(List.getElem?_eq_some_iff.mp here).1, .inl rfl, fun bound => ?_⟩
    have rising := valid.ruled.start_rising 0 bound
    rw [valid.start_zero] at rising
    omega
  · exact valid.upperBound_located tick

end

end TempoMap

end Audec.Sequencer

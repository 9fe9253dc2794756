import Audec.Sequencer.Bars

/-! Bars, beats and ticks are coordinates: each tick has one position, positions are ordered as ticks
    are, and the two conversions undo each other. -/

open Machine Checked SortedSlice Ruler Runs Option List

namespace Audec.Sequencer

open Int

variable {map : TempoMap} {index : ℕ} {point : MeterPoint} {tick later : BeatTime} {position other : MusicalPosition}

def MusicalPosition.Before (position other : MusicalPosition) : Prop :=
  position.bar < other.bar ∨ position.bar = other.bar ∧ (position.beat < other.beat ∨ position.beat = other.beat ∧ position.tick < other.tick)

theorem asU16_val {number : Int} (nonneg : 0 ≤ number) (small : number < 0x10000) : ((asU16 number).val : Int) = number := by
  unfold asU16
  rw [emod_eq_of_lt nonneg small, Fin.val_ofNat, Nat.mod_eq_of_lt (by omega)]
  omega

theorem MusicalPosition.Before.asymm (before : position.Before other) : ¬ other.Before position := by
  unfold Before at *
  rw [I64.lt_iff, Fin.lt_def, Fin.lt_def, ← I64.val_injective.eq_iff, Fin.ext_iff] at *
  omega

theorem MusicalPosition.Before.irrefl : ¬ position.Before position := fun before => before.asymm before

namespace TempoMap

structure Places (map : TempoMap) (tick : ℤ) (index : ℕ) (point : MeterPoint) (position : MusicalPosition) : Prop where
  located : Located map.segmentStart map.meters.length tick index
  here : map.meters[index]? = some point
  bar : position.bar.val = map.firstBar index + (tick - map.segmentStart index) / map.barWidth index
  beat : position.beat.val = (tick - map.segmentStart index) % map.barWidth index / point.signature.ticksPerBeat
  tick : position.tick.val = (tick - map.segmentStart index) % map.barWidth index % point.signature.ticksPerBeat

section

variable (valid : map.Valid)
include valid

theorem Valid.beat_pos (here : map.meters[index]? = some point) :
    0 < point.signature.ticksPerBeat ∧ point.signature.ticksPerBeat ≤ 3840 ∧
      map.barWidth index = point.signature.ticksPerBeat * point.signature.numerator.val := by
  obtain ⟨-, positive, short⟩ := TimeSignature.validate_ok (valid.signatures point (mem_of_getElem? here))
  exact ⟨positive, short, barWidth_get here⟩

section

variable (located : Located map.segmentStart map.meters.length tick.val index)
include located

theorem Valid.bar_bounds :
    -0x8000000000000000 ≤ map.firstBar index + (tick.val - map.segmentStart index) / map.barWidth index ∧
      map.firstBar index + (tick.val - map.segmentStart index) / map.barWidth index < 0x8000000000000000 := by
  obtain ⟨least, most⟩ := valid.firstBar_bounds located.bound
  have wide := valid.barWidth_pos located.bound
  have lower := tick.lower
  have upper := tick.upper
  rcases lt_or_ge tick.val (map.segmentStart index) with preroll | reached
  · have first : index = 0 := located.started.resolve_right (not_le.mpr preroll)
    subst first
    rw [valid.start_zero] at *
    have negative : (tick.val - 0) / map.barWidth 0 < 0 := ediv_neg_of_neg_of_pos (by omega) wide
    have fewer : tick.val - 0 ≤ (tick.val - 0) / map.barWidth 0 := by
      rw [Int.le_ediv_iff_mul_le wide]
      nlinarith
    omega
  · have fewer := ediv_le_self (map.barWidth index) (sub_nonneg.mpr reached)
    have nonneg := ediv_nonneg (sub_nonneg.mpr reached) wide.le
    omega

theorem positionWithinSegment_places
    (here : map.meters[index]? = some point) :
    map.Places tick.val index point (positionWithinSegment tick point.at' (map.meterStartBar index) point.signature) := by
  obtain ⟨positive, short, width⟩ := valid.beat_pos here
  have wide := valid.barWidth_pos located.bound
  obtain ⟨lower, upper⟩ := valid.bar_bounds located
  have nonneg := Int.emod_nonneg (tick.val - map.segmentStart index) wide.ne'
  have less := Int.emod_lt_of_pos (tick.val - map.segmentStart index) wide
  have beats : (tick.val - map.segmentStart index) % map.barWidth index / point.signature.ticksPerBeat < point.signature.numerator.val := by
    apply Int.ediv_lt_of_lt_mul positive
    rw [mul_comm, ← width]
    exact less
  have := point.signature.numerator.isLt
  have := Int.emod_lt_of_pos ((tick.val - map.segmentStart index) % map.barWidth index) positive
  have start := segmentStart_get here
  have bar : point.signature.ticksPerBar = map.barWidth index := (barWidth_get here).symm
  unfold positionWithinSegment
  rw [bar, ← start]
  refine ⟨located, here, I64.saturate_val _ lower upper, ?_, ?_⟩
  · dsimp only
    rw [Int.tdiv_eq_ediv_of_nonneg nonneg]
    exact asU16_val (Int.ediv_nonneg nonneg positive.le) (by omega)
  · dsimp only
    rw [Int.tmod_eq_emod_of_nonneg nonneg]
    exact asU16_val (Int.emod_nonneg _ positive.ne') (by omega)

end

theorem musicalPosition_some (tick : BeatTime) :
    ∃ index point position, map.musicalPosition tick = some position ∧ map.Places tick.val index point position := by
  have located := valid.index_located tick
  obtain ⟨point, -, here⟩ := meter_get located.bound
  refine ⟨map.meterIndex tick, point, _, ?_, positionWithinSegment_places valid located here⟩
  unfold musicalPosition
  unfold meterIndex at here ⊢
  split
  · rename_i preroll
    rw [if_pos preroll] at here
    obtain ⟨origin, first, zero⟩ := valid.origin
    rw [here] at first
    cases first
    rw [here, meterStartBar_zero, zero]
    rfl
  · rename_i reached
    rw [if_neg reached] at here
    dsimp only
    rw [here]
    rfl

theorem Places.before {tick later : ℤ} {other' : ℕ} {point' : MeterPoint} (places : map.Places tick index point position)
    (places' : map.Places later other' point' other) (before : tick < later) : position.Before other := by
  rcases valid.ruled.ordered places.located places'.located before with bar | ⟨same, bar, offset⟩
  · left
    rw [I64.lt_iff, places.bar, places'.bar]
    exact bar
  · subst same
    obtain rfl : point = point' := some.inj (places.here.symm.trans places'.here)
    obtain ⟨positive, -⟩ := valid.beat_pos places.here
    refine .inr ⟨I64.val_injective (by rw [places.bar, places'.bar, bar]), ?_⟩
    rw [Fin.lt_def, Fin.ext_iff, Fin.lt_def]
    have beat := places.beat
    have beat' := places'.beat
    have rest := places.tick
    have rest' := places'.tick
    have whole := mul_ediv_add_emod ((tick - map.segmentStart index) % map.barWidth index) point.signature.ticksPerBeat
    have whole' := mul_ediv_add_emod ((later - map.segmentStart index) % map.barWidth index) point.signature.ticksPerBeat
    have ordered := Int.ediv_le_ediv positive offset.le
    rcases ordered.lt_or_eq with less | equal
    · left
      omega
    · right
      rw [equal] at whole
      omega

theorem Places.unique {tick : ℤ} {index' : ℕ} {point' : MeterPoint} (places : map.Places tick index point position)
    (places' : map.Places tick index' point' other) : position = other := by
  obtain rfl := places.located.unique valid.ruled.start_rising places'.located
  obtain rfl : point = point' := some.inj (places.here.symm.trans places'.here)
  obtain ⟨bar, beat, rest⟩ := position
  obtain ⟨bar', beat', rest'⟩ := other
  obtain rfl : bar = bar' := I64.val_injective (places.bar.trans places'.bar.symm)
  obtain rfl : beat = beat' := Fin.ext (ofNat_inj.mp (places.beat.trans places'.beat.symm))
  obtain rfl : rest = rest' := Fin.ext (ofNat_inj.mp (places.tick.trans places'.tick.symm))
  rfl

end

theorem selectMeter_located {bar : I64} {remaining : ℕ} (all : index + 1 + remaining = map.meters.length)
    (started : index = 0 ∨ map.firstBar index ≤ bar.val) :
    Located map.firstBar map.meters.length bar.val
        (map.selectMeter bar (List.range' (index + 1) remaining) (index, map.meterStartBar index)).1 ∧
      (map.selectMeter bar (List.range' (index + 1) remaining) (index, map.meterStartBar index)).2 =
        map.meterStartBar (map.selectMeter bar (List.range' (index + 1) remaining) (index, map.meterStartBar index)).1 := by
  induction remaining generalizing index with
  | zero =>
    rw [range'_zero, selectMeter]
    exact ⟨⟨by omega, started, fun bound => absurd bound (by omega)⟩, rfl⟩
  | succ remaining tail =>
    rw [range'_succ, selectMeter]
    split
    · rename_i ahead
      exact ⟨⟨by omega, started, fun _ => ahead⟩, rfl⟩
    · rename_i reached
      exact tail (by omega) (.inr (not_lt.mp reached))

theorem beatAtPosition_eq (valid : map.Valid) (position : MusicalPosition) :
    ∃ index point, Located map.firstBar map.meters.length position.bar.val index ∧ map.meters[index]? = some point ∧
      map.beatAtPosition position =
        if point.signature.numerator ≤ position.beat ∨ point.signature.ticksPerBeat ≤ position.tick.val then
          some (.error .invalidMusicalPosition)
        else some (.ok (I64.saturate (map.segmentStart index + (position.bar.val - map.firstBar index) * map.barWidth index +
          (position.beat.val * point.signature.ticksPerBeat + position.tick.val)))) := by
  obtain ⟨origin, first, -⟩ := valid.origin
  have nonempty := (List.getElem?_eq_some_iff.mp first).1
  let selected :=
    if position.bar.val < 0 then (0, I64.zero)
    else map.selectMeter position.bar (List.range' 1 (map.meters.length - 1)) (0, I64.zero)
  have governs : Located map.firstBar map.meters.length position.bar.val selected.1 ∧ selected.2 = map.meterStartBar selected.1 := by
    by_cases preroll : position.bar.val < 0
    · rw [show selected = (0, I64.zero) from if_pos preroll]
      refine ⟨⟨nonempty, .inl rfl, fun bound => ?_⟩, meterStartBar_zero.symm⟩
      have := (valid.firstBar_bounds bound).1
      omega
    · rw [show selected = map.selectMeter position.bar (List.range' 1 (map.meters.length - 1)) (0, I64.zero) from if_neg preroll,
        ← meterStartBar_zero]
      exact selectMeter_located (by omega) (.inl rfl)
  obtain ⟨located, start⟩ := governs
  obtain ⟨point, -, here⟩ := meter_get located.bound
  obtain ⟨least, most⟩ := valid.firstBar_bounds located.bound
  have fits : fitsI64 (position.bar.val - selected.2.val) = some (position.bar.val - map.firstBar selected.1) := by
    have lower := position.bar.lower
    have upper := position.bar.upper
    rw [start]
    apply if_pos
    rcases located.started with none | reached
    · have : (map.meterStartBar selected.1).val = 0 := by
        rw [none, meterStartBar_zero]
        rfl
      omega
    · unfold firstBar at reached least
      omega
  refine ⟨selected.1, point, located, here, ?_⟩
  unfold beatAtPosition
  rw [show (if position.bar.val < 0 then (0, I64.zero) else
    map.selectMeter position.bar (List.range' 1 (map.meters.length - 1)) (0, I64.zero)) = selected from rfl]
  dsimp only
  rw [here, fits, segmentStart_get here, barWidth_get here]
  simp only [bind_eq_bind, bind_some, add_assoc]

theorem Places.beatAtPosition {tick : ℤ} (valid : map.Valid) (places : map.Places tick index point position) :
    map.beatAtPosition position = some (.ok (I64.saturate tick)) := by
  obtain ⟨other, point', located, there, accepted⟩ := beatAtPosition_eq valid position
  have line := valid.ruled.line_located places.located
  rw [← places.bar] at line
  obtain rfl := line.unique valid.ruled.rising located
  obtain rfl : point = point' := some.inj (places.here.symm.trans there)
  obtain ⟨positive, -, width⟩ := valid.beat_pos places.here
  have wide := valid.barWidth_pos located.bound
  have within := Int.emod_lt_of_pos (tick - map.segmentStart index) wide
  have beats : (position.beat.val : ℤ) < point.signature.numerator.val := by
    rw [places.beat]
    apply Int.ediv_lt_of_lt_mul positive
    rw [mul_comm, ← width]
    exact within
  have ticks : (position.tick.val : ℤ) < point.signature.ticksPerBeat := by
    rw [places.tick]
    exact Int.emod_lt_of_pos _ positive
  have refused : ¬ (point.signature.numerator ≤ position.beat ∨ point.signature.ticksPerBeat ≤ position.tick.val) := by
    rw [Fin.le_def]
    omega
  have whole := Int.mul_ediv_add_emod (tick - map.segmentStart index) (map.barWidth index)
  have offset := Int.mul_ediv_add_emod ((tick - map.segmentStart index) % map.barWidth index) point.signature.ticksPerBeat
  rw [← places.beat, ← places.tick] at offset
  rw [accepted, if_neg refused, places.bar, add_sub_cancel_left, mul_comm _ (map.barWidth index), mul_comm (position.beat.val : ℤ), offset,
    add_assoc, whole, add_sub_cancel]

theorem beatAtPosition_places (valid : map.Valid) (accepted : map.beatAtPosition position = some (.ok tick)) :
    ∃ whole index point, tick = I64.saturate whole ∧ map.Places whole index point position := by
  obtain ⟨index, point, located, here, result⟩ := beatAtPosition_eq valid position
  rw [result] at accepted
  split at accepted
  · cases accepted
  · rename_i proper
    rw [not_or, not_le, not_le] at proper
    obtain ⟨positive, -, width⟩ := valid.beat_pos here
    cases accepted
    refine ⟨_, index, point, rfl, ?_⟩
    have beats : (position.beat.val : ℤ) + 1 ≤ point.signature.numerator.val := by
      have := Fin.lt_def.mp proper.1
      omega
    have nonneg : (0 : ℤ) ≤ position.beat.val * point.signature.ticksPerBeat + position.tick.val := by positivity
    have short : position.beat.val * point.signature.ticksPerBeat + position.tick.val < map.barWidth index := by
      have := mul_le_mul_of_nonneg_right beats positive.le
      rw [width, mul_comm point.signature.ticksPerBeat]
      rw [add_mul, one_mul] at this
      omega
    obtain ⟨line, offset⟩ := @Ruled.coordinates _ _ _ _ _ position.bar.val _ valid.ruled located.bound nonneg short
    refine ⟨valid.ruled.point_located located nonneg short, here, ?_, ?_, ?_⟩
    · rw [line]
      ring
    · rw [offset, add_ediv_of_dvd_left (dvd_mul_left _ _), mul_ediv_cancel _ positive.ne', ediv_eq_zero_of_lt (by omega) proper.2,
        add_zero]
    · rw [offset, mul_add_emod_self_right, emod_eq_of_lt (by omega) proper.2]

structure Coordinates (map : TempoMap) : Prop where
  roundTrip : ∀ tick, ∃ position, map.musicalPosition tick = some position ∧ map.beatAtPosition position = some (.ok tick)
  increasing : ∀ tick later position other, tick < later → map.musicalPosition tick = some position →
    map.musicalPosition later = some other → position.Before other
  inverse : ∀ position tick, map.beatAtPosition position = some (.ok tick) →
    (map.musicalPosition tick = some position ↔ ∃ first last, map.musicalPosition firstTick = some first ∧
      map.musicalPosition lastTick = some last ∧ ¬ position.Before first ∧ ¬ last.Before position)

theorem saturate_self (tick : BeatTime) : I64.saturate tick.val = tick :=
  I64.val_injective (I64.saturate_val _ tick.lower tick.upper)

theorem positions_bijective {events : List (Event TempoMap TempoMapEdit)} (run : Run TempoMap.edit Fresh events map) : map.Coordinates := by
  have valid := reached_valid run
  have increasing (tick later : BeatTime) (position other : MusicalPosition) (before : tick < later)
      (here : map.musicalPosition tick = some position) (there : map.musicalPosition later = some other) : position.Before other := by
    obtain ⟨_, _, found, same, places⟩ := musicalPosition_some valid tick
    obtain ⟨_, _, found', same', places'⟩ := musicalPosition_some valid later
    obtain rfl : found = position := Option.some.inj (same.symm.trans here)
    obtain rfl : found' = other := Option.some.inj (same'.symm.trans there)
    exact places.before valid places' before
  refine ⟨?_, increasing, ?_⟩
  · intro tick
    obtain ⟨_, _, position, same, places⟩ := musicalPosition_some valid tick
    refine ⟨position, same, ?_⟩
    rw [places.beatAtPosition valid, saturate_self]
  · intro position tick accepted
    obtain ⟨_, _, first, earliest, placesFirst⟩ := musicalPosition_some valid firstTick
    obtain ⟨_, _, last, latest, placesLast⟩ := musicalPosition_some valid lastTick
    constructor
    · intro here
      refine ⟨first, last, earliest, latest, ?_, ?_⟩
      · rcases (firstTick_le tick).eq_or_lt with same | more
        · rw [← same, earliest] at here
          cases here
          exact MusicalPosition.Before.irrefl
        · exact (increasing _ _ _ _ more earliest here).asymm
      · rcases (le_lastTick tick).eq_or_lt with same | less
        · rw [same, latest] at here
          cases here
          exact MusicalPosition.Before.irrefl
        · exact (increasing _ _ _ _ less here latest).asymm
    · rintro ⟨first', last', earliest', latest', notBefore, notAfter⟩
      obtain rfl : first = first' := Option.some.inj (earliest.symm.trans earliest')
      obtain rfl : last = last' := Option.some.inj (latest.symm.trans latest')
      obtain ⟨whole, _, _, clamped, places⟩ := beatAtPosition_places valid accepted
      have lower : firstTick.val ≤ whole := by
        by_contra before
        exact notBefore (places.before valid placesFirst (not_le.mp before))
      have upper : whole ≤ lastTick.val := by
        by_contra after
        exact notAfter (placesLast.before valid places (not_le.mp after))
      have exact' : tick.val = whole := by
        rw [clamped]
        exact I64.saturate_val _ lower (Int.lt_add_one_of_le upper)
      obtain ⟨_, _, found, same, places'⟩ := musicalPosition_some valid tick
      rw [exact'] at places'
      rw [same, places'.unique valid places]

theorem waltzing_coordinates : waltzing.Coordinates :=
  positions_bijective (.step (.start straight_fresh) (TempoMapEdit.setMeter (I64.wrap 7680) ⟨3, 4⟩))

/-- A bar beyond the last tick is taken to the last tick, which lies in another bar. -/
theorem straight_clamps : Run TempoMap.edit Fresh [] straight ∧ straight.beatAtPosition ⟨lastTick, 0, 0⟩ = some (.ok lastTick) ∧
    straight.musicalPosition lastTick ≠ some ⟨lastTick, 0, 0⟩ :=
  ⟨.start straight_fresh, by decide, by decide⟩

example : waltzing.musicalPosition (I64.wrap 19000) = some ⟨I64.wrap 5, 2, 760⟩ := by decide

end TempoMap

end Audec.Sequencer

import Audec.Sequencer.Bars

/-! Stepping by bars, and where a meter may be authored. -/

open Machine Checked SortedSlice Ruler Runs List Option

namespace Audec.Sequencer.TempoMap

open Machine.I64

variable {map changed : TempoMap} {index : ℕ} {point : MeterPoint} {tick start next : BeatTime} {signature : TimeSignature}

def lineBefore (map : TempoMap) (tick : BeatTime) : ℤ :=
  map.segmentStart (map.meterIndex tick) +
    (tick.val - map.segmentStart (map.meterIndex tick)) / map.barWidth (map.meterIndex tick) * map.barWidth (map.meterIndex tick)

section

variable (valid : map.Valid)
include valid

theorem barStart_eq (tick : BeatTime) : map.barStart tick = some (saturate (map.lineBefore tick)) := by
  obtain ⟨point, -, here⟩ := meter_get (valid.index_located tick).bound
  unfold barStart lineBefore
  rw [here, segmentStart_get here, barWidth_get here]
  rfl

theorem lineBefore_bounds (tick : BeatTime) :
    map.lineBefore tick ≤ tick.val ∧ tick.val < map.lineBefore tick + map.barWidth (map.meterIndex tick) :=
  have located := valid.index_located tick
  ⟨valid.ruled.floor_le located.bound, valid.ruled.lt_ceil located.bound⟩

theorem lineBefore_nonneg (ahead : 0 ≤ tick.val) : 0 ≤ map.lineBefore tick := by
  have located := valid.index_located tick
  obtain ⟨least, most⟩ := valid.firstBar_bounds located.bound
  have wide := valid.barWidth_pos located.bound
  have started : map.segmentStart (map.meterIndex tick) ≤ tick.val := by
    rcases located.started with first | started
    · rw [first, valid.start_zero]
      exact ahead
    · exact started
  have := Int.mul_nonneg (Int.ediv_nonneg (sub_nonneg.mpr started) wide.le) wide.le
  unfold lineBefore
  omega

theorem barWidth_small (bound : index < map.meters.length) : map.barWidth index ≤ 0x10000000 := by
  obtain ⟨point, member, here⟩ := meter_get bound
  rw [barWidth_get here]
  exact (TimeSignature.ticksPerBar_bounds (valid.signatures point member)).2

theorem nextBarStart_eq (tick : BeatTime) :
    map.nextBarStart tick = some (saturate ((saturate (map.lineBefore tick)).val + map.barWidth (map.meterIndex tick))) := by
  have located := valid.index_located tick
  have same : upperBoundByTick map.meters (saturate (map.lineBefore tick)) MeterPoint.at' - 1 = map.meterIndex tick := by
    have found := valid.upperBound_located (saturate (map.lineBefore tick))
    obtain ⟨below, -⟩ := lineBefore_bounds valid tick
    rcases lt_or_ge tick.val 0 with preroll | ahead
    · have before : (saturate (map.lineBefore tick)).val < 0 := by
        simp only [saturate]
        omega
      have bounds := valid.firstBar_bounds found.bound
      rw [meterIndex, if_pos preroll]
      rcases found.started with first | started
      · exact first
      · omega
    · have upper := tick.upper
      rw [saturate_val _ (by have := lineBefore_nonneg valid ahead; omega) (by omega)] at found
      exact found.unique valid.ruled.start_rising (valid.ruled.floor_located located)
  obtain ⟨point, -, here⟩ := meter_get located.bound
  unfold nextBarStart
  rw [barStart_eq valid, bind_eq_bind, bind_some]
  unfold meterAt
  rw [same, here, barWidth_get here]
  rfl

theorem Valid.segmentStart_le (located : Located map.segmentStart map.meters.length tick.val (map.meterIndex tick))
    {other : ℕ} (bound : other < map.meters.length) (reached : map.segmentStart other ≤ tick.val) :
    map.segmentStart other ≤ map.lineBefore tick := by
  have wide := valid.barWidth_pos located.bound
  have bounds := valid.firstBar_bounds bound
  have started : map.segmentStart (map.meterIndex tick) ≤ tick.val := by
    rcases located.started with first | started
    · rw [first, valid.start_zero]
      omega
    · exact started
  have := Int.mul_nonneg (Int.ediv_nonneg (sub_nonneg.mpr started) wide.le) wide.le
  have ordered : map.segmentStart other ≤ map.segmentStart (map.meterIndex tick) := by
    rcases Nat.eq_or_lt_of_le (located.last valid.ruled.start_rising bound reached) with same | less
    · rw [same]
    · exact (before_of_rising valid.ruled.start_rising less located.bound).le
  unfold lineBefore
  omega

end

/-- The steps of a reached map: each bar holds its tick, no bar holds a change of meter, stepping by bars
    meets every change, and a meter may follow the others exactly at the start of a bar. -/
structure BarLines (map : TempoMap) : Prop where
  contains : ∀ tick, ∃ start next, map.barStart tick = some start ∧ map.nextBarStart tick = some next ∧ start ≤ tick ∧
    (tick ≠ lastTick → tick < next) ∧ ∀ point ∈ map.meters, ¬ (start < point.at' ∧ point.at' < next)
  visits : ∀ tick, ∀ point ∈ map.meters, tick < point.at' →
    ∃ steps, (fun reached => reached.bind map.nextBarStart)^[steps] (some tick) = some point.at'
  authored : ∀ tick signature, signature.validate = .ok () → (∀ point ∈ map.meters, point.at' ≤ tick) →
    ((∃ changed, map.setMeter tick signature = .ok changed) ↔ map.barStart tick = some tick)

theorem bar_contains (valid : map.Valid) (tick : BeatTime) :
    ∃ start next, map.barStart tick = some start ∧ map.nextBarStart tick = some next ∧ start ≤ tick ∧
      (tick ≠ lastTick → tick < next) ∧ ∀ point ∈ map.meters, (point.at' ≤ start ∨ tick < point.at' ∧ next ≤ point.at') := by
  have located := valid.index_located tick
  have lower := tick.lower
  have upper := tick.upper
  obtain ⟨below, above⟩ := lineBefore_bounds valid tick
  have wide := valid.barWidth_pos located.bound
  have small := barWidth_small valid located.bound
  refine ⟨_, _, barStart_eq valid tick, nextBarStart_eq valid tick, ?_, ?_, ?_⟩
  · rw [le_iff]
    simp only [saturate]
    omega
  · intro more
    have : tick.val ≠ 0x7fffffffffffffff := fun same => more (val_injective same)
    rw [lt_iff]
    simp only [saturate]
    omega
  · intro point member
    obtain ⟨other, bound, rfl⟩ := mem_iff_getElem.mp member
    have start := segmentStart_get (getElem?_eq_getElem bound)
    have bounds := valid.firstBar_bounds bound
    rw [le_iff, lt_iff, le_iff, ← start]
    rcases lt_or_ge tick.val (map.segmentStart other) with ahead | reached
    · have beyond := valid.ruled.ceil_le located bound ahead
      right
      refine ⟨ahead, ?_⟩
      unfold lineBefore at *
      simp only [saturate]
      omega
    · have earlier := valid.segmentStart_le located bound reached
      left
      rw [saturate_val _ (by omega) (by omega)]
      exact earlier

theorem visits_point (valid : map.Valid) {point : MeterPoint} (member : point ∈ map.meters) {tick : BeatTime} (before : tick ≤ point.at') :
    ∃ steps, (fun reached => reached.bind map.nextBarStart)^[steps] (some tick) = some point.at' := by
  rcases before.eq_or_lt with same | ahead
  · exact ⟨0, congrArg some same⟩
  · obtain ⟨start, next, -, found, inside, forward, apart⟩ := bar_contains valid tick
    have upper := point.at'.upper
    have proper : tick ≠ lastTick := fun same => absurd (le_lastTick point.at') (not_le.mpr (same ▸ ahead))
    have more := forward proper
    have near : next ≤ point.at' := by
      rcases apart point member with early | ⟨-, late⟩
      · exact absurd (early.trans inside) (not_le.mpr ahead)
      · exact late
    obtain ⟨steps, meets⟩ := visits_point valid member near
    refine ⟨steps + 1, ?_⟩
    rw [Function.iterate_succ_apply, bind_some, found]
    exact meets
termination_by (point.at'.val - tick.val).toNat
decreasing_by
  rw [I64.lt_iff] at more ahead
  omega

theorem boundaries_concat {points : List MeterPoint} {last : MeterPoint} :
    validateMeterBoundaries (points ++ [last] ++ [point]) = .ok () ↔ validateMeterBoundaries (points ++ [last]) = .ok () ∧
      last.at' < point.at' ∧ (point.at'.val - last.at'.val).tmod last.signature.ticksPerBar = 0 := by
  have head : (points ++ [last] ++ [point]).head? = (points ++ [last]).head? := by cases points <;> rfl
  rw [boundaries_ok, boundaries_ok, head, windows_concat]
  constructor
  · rintro ⟨origin, apart⟩
    exact ⟨⟨origin, fun pair member => apart pair (mem_append_left _ member)⟩,
      apart _ (mem_append_right _ mem_cons_self)⟩
  · rintro ⟨⟨origin, apart⟩, fresh⟩
    refine ⟨origin, fun pair member => ?_⟩
    rcases mem_append.mp member with member | member
    · exact apart pair member
    · rw [mem_singleton.mp member]
      exact fresh

theorem barStart_self (valid : map.Valid) (ahead : 0 ≤ tick.val) : map.barStart tick = some tick ↔ map.lineBefore tick = tick.val := by
  have nonneg := lineBefore_nonneg valid ahead
  have below := (lineBefore_bounds valid tick).1
  have upper := tick.upper
  rw [barStart_eq valid, some.injEq, ← val_injective.eq_iff, saturate_val _ (by omega) (by omega)]

section

variable (valid : map.Valid) (proper : signature.validate = .ok ()) (ahead : 0 ≤ tick.val) (last : ∀ point ∈ map.meters, point.at' ≤ tick)
include valid proper ahead last

theorem setMeter_replaces {place : ℕ} (search : binarySearchByKey map.meters tick MeterPoint.at' = .ok place) :
    (∃ changed, map.setMeter tick signature = .ok changed) ∧ map.lineBefore tick = tick.val := by
  obtain ⟨below, old, above, same, length, here⟩ := found search
  have none : above = [] := by
    rw [eq_nil_iff_forall_not_mem]
    intro later member
    have ascending := valid.metersAscending
    rw [same] at ascending last
    have after := rel_of_pairwise_cons (pairwise_append.mp ascending).2.1 member
    have reached := last later (mem_append_right _ (mem_cons_of_mem _ member))
    rw [← here] at reached
    exact absurd after (not_lt.mpr reached)
  subst none
  have candidate : map.meterCandidate tick signature = below ++ [{ old with signature }] := by
    unfold meterCandidate
    rw [search]
    dsimp only
    rw [same, ← length, modify_found]
  have boundaries := valid.boundaries
  rw [same] at boundaries
  constructor
  · refine ⟨_, setMeter_ok.mpr ⟨ahead, proper, ?_, rfl⟩⟩
    rw [candidate]
    rcases below.eq_nil_or_concat with first | ⟨others, before, split⟩
    · subst first
      exact boundaries_ok.mpr ⟨(boundaries_ok.mp boundaries).1, fun pair member => absurd member not_mem_nil⟩
    · subst split
      rw [concat_eq_append] at boundaries ⊢
      obtain ⟨kept, after, whole⟩ := boundaries_concat.mp boundaries
      exact boundaries_concat.mpr ⟨kept, after, whole⟩
  · have bound : below.length < map.meters.length := by
      rw [same]
      simp
    have start : map.segmentStart below.length = tick.val := by
      rw [segmentStart_get (by rw [same, getElem?_append_right le_rfl, Nat.sub_self, getElem?_cons_zero]), here]
    have reached := valid.segmentStart_le (valid.index_located tick) bound start.le
    have := (lineBefore_bounds valid tick).1
    omega

theorem setMeter_appends {place : ℕ} (search : binarySearchByKey map.meters tick MeterPoint.at' = .error place) :
    (∃ changed, map.setMeter tick signature = .ok changed) ↔ map.lineBefore tick = tick.val := by
  obtain ⟨below, above, same, length, smaller, larger⟩ := missing valid.metersAscending search
  have none : above = [] := by
    rw [eq_nil_iff_forall_not_mem]
    intro later member
    have reached := last later (by rw [same]; exact mem_append_right _ member)
    exact absurd (larger later member) (not_lt.mpr reached)
  subst none
  rw [append_nil] at same
  subst same
  have candidate : map.meterCandidate tick signature = map.meters ++ [⟨tick, signature⟩] := by
    have inserted := insert_missing map.meters [] (⟨tick, signature⟩ : MeterPoint)
    rw [append_nil] at inserted
    unfold meterCandidate
    rw [search, ← length]
    exact inserted
  have located := valid.index_located tick
  rcases map.meters.eq_nil_or_concat with empty | ⟨others, final, split⟩
  · rw [empty] at located
    exact absurd located.bound (Nat.not_lt_zero _)
  · rw [concat_eq_append] at split
    have governs : map.meters[map.meterIndex tick]? = some final := by
      have here : map.meters[others.length]? = some final := by
        rw [split, getElem?_append_right le_rfl, Nat.sub_self, getElem?_cons_zero]
      have bound := (List.getElem?_eq_some_iff.mp here).1
      have started : map.segmentStart others.length ≤ tick.val := by
        rw [segmentStart_get here]
        exact last final (mem_of_getElem? here)
      have least := located.last valid.ruled.start_rising bound started
      have total : map.meters.length = others.length + 1 := by rw [split]; simp
      have most := located.bound
      rw [show map.meterIndex tick = others.length by omega]
      exact here
    have before : final.at' < tick := smaller final (mem_of_getElem? governs)
    have accepts : (∃ changed, map.setMeter tick signature = .ok changed) ↔
        (tick.val - final.at'.val).tmod final.signature.ticksPerBar = 0 := by
      simp only [setMeter_ok, candidate]
      have boundaries := valid.boundaries
      rw [split] at boundaries ⊢
      rw [boundaries_concat]
      constructor
      · rintro ⟨_, -, -, ⟨-, -, whole⟩, -⟩
        exact whole
      · exact fun whole => ⟨_, ahead, proper, ⟨boundaries, before, whole⟩, rfl⟩
    rw [accepts, Int.tmod_eq_emod_of_nonneg (sub_nonneg.mpr before.le)]
    have whole := Int.mul_ediv_add_emod (tick.val - final.at'.val) final.signature.ticksPerBar
    unfold lineBefore
    rw [segmentStart_get governs, barWidth_get governs, mul_comm]
    omega

end

/-- Stepping by bars never jumps over a change of meter, in every map that can be edited into being. -/
theorem bars_meet_meters {events : List (Event TempoMap TempoMapEdit)} (run : Run TempoMap.edit Fresh events map) : map.BarLines := by
  have valid := reached_valid run
  refine ⟨?_, fun tick point member before => visits_point valid member before.le, ?_⟩
  · intro tick
    obtain ⟨start, next, here, there, inside, forward, apart⟩ := bar_contains valid tick
    refine ⟨start, next, here, there, inside, forward, ?_⟩
    rintro point member ⟨after, before⟩
    rcases apart point member with early | ⟨-, late⟩
    · exact absurd after (not_lt.mpr early)
    · exact absurd before (not_lt.mpr late)
  · intro tick signature proper last
    have ahead : 0 ≤ tick.val := by
      obtain ⟨origin, here, zero⟩ := valid.origin
      have reached := last origin (List.mem_of_getElem? here)
      rw [zero] at reached
      exact reached
    rw [barStart_self valid ahead]
    cases search : binarySearchByKey map.meters tick MeterPoint.at' with
    | ok place => exact iff_of_true (setMeter_replaces valid proper ahead last search).1 (setMeter_replaces valid proper ahead last search).2
    | error place => exact setMeter_appends valid proper ahead last search

theorem waltzing_bars : waltzing.BarLines :=
  bars_meet_meters (.step (.start straight_fresh) (TempoMapEdit.setMeter (I64.wrap 7680) ⟨3, 4⟩))

end Audec.Sequencer.TempoMap

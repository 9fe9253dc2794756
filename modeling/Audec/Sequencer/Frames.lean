import Audec.Sequencer.Edits

/-! Ticks to frames and back: the exact integral of the tempo, rounded down, and its inverse. -/

open Machine Checked Segments Runs Option List

namespace Audec.Sequencer

open TempoPoint Machine.I64

variable {map : TempoMap} {first : TempoPoint} {points : List TempoPoint} {sampleRate : U32} {beat total : Int} {frame : ProjectFrame}

def TempoPoint.tick (point : TempoPoint) : Int := point.at'.val

def TempoPoint.micros (point : TempoPoint) : Int := point.tempo.microsPerQuarter.val

variable {number : Int}

theorem fitsI64_some (lower : -0x8000000000000000 ≤ number) (upper : number < 0x8000000000000000) :
    fitsI64 number = some number :=
  if_pos ⟨lower, upper⟩

theorem fitsI128_some (lower : -0x80000000000000000000000000000000 ≤ number)
    (upper : number < 0x80000000000000000000000000000000) : fitsI128 number = some number :=
  if_pos ⟨lower, upper⟩

theorem mul_u32 {bound : Int} (factor : U32) (nonneg : 0 ≤ bound) (lower : -bound ≤ number) (upper : number ≤ bound) :
    -(bound * 0xffffffff) ≤ number * factor.val ∧ number * factor.val ≤ bound * 0xffffffff := by
  have small : (factor.val : Int) ≤ 0xffffffff := by omega
  constructor <;> nlinarith

theorem spanNumerator_some (tempo : Tempo) (lower : -0x8000000000000000 ≤ beat) (upper : beat ≤ 0x8000000000000000) :
    spanNumerator sampleRate beat tempo = some (beat * tempo.microsPerQuarter.val * sampleRate.val) := by
  have micros := mul_u32 tempo.microsPerQuarter (by decide) lower upper
  have product := mul_u32 sampleRate (by decide) micros.1 micros.2
  unfold spanNumerator
  rw [fitsI128_some (by omega) (by omega)]
  exact fitsI128_some (by omega) (by omega)

theorem span_bounds {start stop : Int} (tempo : Tempo) (ordered : start ≤ stop) (nonneg : 0 ≤ total)
    (bounded : total ≤ start * 0xfffffffe00000001) :
    0 ≤ total + (stop - start) * tempo.microsPerQuarter.val * sampleRate.val ∧
      total + (stop - start) * tempo.microsPerQuarter.val * sampleRate.val ≤ stop * 0xfffffffe00000001 := by
  have ticks : 0 ≤ stop - start := by omega
  have micros := mul_u32 tempo.microsPerQuarter ticks (by omega) le_rfl
  have product := mul_u32 sampleRate (Int.mul_nonneg ticks (by decide)) micros.1 micros.2
  have := Int.mul_nonneg (Int.mul_nonneg ticks (Int.natCast_nonneg tempo.microsPerQuarter.val)) (Int.natCast_nonneg sampleRate.val)
  omega

theorem span_fits {start stop : Int} (tempo : Tempo) (ahead : 0 ≤ start) (ordered : start ≤ stop) (fits : stop < 0x8000000000000000)
    (nonneg : 0 ≤ total) (bounded : total ≤ start * 0xfffffffe00000001) :
    fitsI64 (stop - start) = some (stop - start) ∧
      spanNumerator sampleRate (stop - start) tempo = some ((stop - start) * tempo.microsPerQuarter.val * sampleRate.val) ∧
      fitsI128 (total + (stop - start) * tempo.microsPerQuarter.val * sampleRate.val) =
        some (total + (stop - start) * tempo.microsPerQuarter.val * sampleRate.val) := by
  have sum := @span_bounds sampleRate total start stop tempo ordered nonneg bounded
  exact ⟨fitsI64_some (by omega) (by omega), spanNumerator_some tempo (by omega) (by omega), fitsI128_some (by omega) (by omega)⟩

theorem integrate_some (ascending : Ascending tick (first :: points)) (started : 0 ≤ first.tick) (reached : first.tick ≤ beat)
    (fits : beat < 0x8000000000000000) (nonneg : 0 ≤ total) (bounded : total ≤ first.tick * 0xfffffffe00000001) :
    integrate sampleRate beat points total first.tick first.tempo =
      some (total + area tick micros first points beat * sampleRate.val) := by
  induction points generalizing first total with
  | nil =>
    obtain ⟨ticks, span, sum⟩ := @span_fits sampleRate total _ _ first.tempo started reached fits nonneg bounded
    simp only [integrate, area, ticks, span, sum, bind_eq_bind, bind_some, micros]
  | cons next points tail =>
    have ordered := ascending.step.le
    have inside : next.tick < 0x8000000000000000 := next.at'.upper
    by_cases last : beat ≤ next.tick
    · obtain ⟨ticks, span, sum⟩ := @span_fits sampleRate total _ _ first.tempo started reached fits nonneg bounded
      rw [integrate, if_pos (show beat ≤ next.at'.val from last), area, if_neg (not_lt.mpr last)]
      simp only [ticks, span, sum, bind_eq_bind, bind_some, micros]
    · obtain ⟨ticks, span, sum⟩ := @span_fits sampleRate total _ _ first.tempo started ordered inside nonneg bounded
      have bounds := @span_bounds sampleRate total _ _ first.tempo ordered nonneg bounded
      have rest := tail ascending.tail (started.trans ordered) (not_le.mp last).le bounds.1 bounds.2
      rw [integrate, if_neg (show ¬ beat ≤ next.at'.val from last), area, if_pos (not_le.mp last), add_mul, ← add_assoc]
      simp only [tick] at ticks span sum rest ⊢
      simp only [ticks, span, sum, bind_eq_bind, bind_some]
      exact rest

namespace TempoMap

def microsAt (map : TempoMap) (tick : Int) : Int :=
  ((map.tempoAt (I64.wrap tick)).map fun tempo => (tempo.microsPerQuarter.val : Int)).getD 0

noncomputable def elapsed (map : TempoMap) (tick : Int) : ℚ :=
  ((∑ passed ∈ Finset.Ico 0 tick, map.microsAt passed) - ∑ passed ∈ Finset.Ico tick 0, map.microsAt passed : Int) * map.sampleRate.val /
    (960 * 1000000)

/-- The exact frame rounded down, and clamped to what a frame can hold. -/
noncomputable def frameOf (map : TempoMap) (tick : Int) : ProjectFrame := I64.saturate ⌊map.elapsed tick⌋

theorem Valid.tempos (valid : map.Valid) : ∃ origin points, map.tempos = origin :: points ∧ origin.tick = 0 ∧
    Ascending tick (origin :: points) := by
  have origin := valid.tempoOrigin
  have ascending := valid.temposAscending
  cases same : map.tempos with
  | nil =>
    rw [same] at origin
    cases origin
  | cons head points =>
    rw [same] at origin ascending
    exact ⟨head, points, rfl, congrArg val (some.inj origin), ascending⟩

variable {origin : TempoPoint}

variable {tick : Int} {reached : ProjectFrame}

theorem microsAt_inForce (same : map.tempos = origin :: points) (ascending : Ascending TempoPoint.tick (origin :: points))
    (lower : -0x8000000000000000 ≤ tick) (upper : tick < 0x8000000000000000) :
    map.microsAt tick = (inForce TempoPoint.tick origin points tick).micros := by
  have held := @inForce_get TempoPoint TempoPoint.tick origin points tick ascending
  have wrapped := wrap_val lower upper
  unfold microsAt tempoAt upperBoundByTick SortedSlice.partitionPoint
  rw [same]
  simp only [le_iff, wrapped]
  rw [show (fun value : TempoPoint => decide (value.at'.val ≤ tick)) = fun value => decide (TempoPoint.tick value ≤ tick) from rfl, held]
  rfl

section

variable (same : map.tempos = origin :: points) (zero : origin.tick = 0) (ascending : Ascending TempoPoint.tick (origin :: points))
  (lower : -0x8000000000000000 ≤ tick) (upper : tick < 0x8000000000000000)
include same zero ascending lower upper

theorem elapsed_area :
    map.elapsed tick = (area TempoPoint.tick TempoPoint.micros origin points tick * map.sampleRate.val : Int) / (960000000 : ℕ) := by
  have total : (∑ passed ∈ Finset.Ico 0 tick, map.microsAt passed) - ∑ passed ∈ Finset.Ico tick 0, map.microsAt passed =
      area TempoPoint.tick TempoPoint.micros origin points tick := by
    have force (passed : Int) (least : min 0 tick ≤ passed) (most : passed < max 0 tick) :
        map.microsAt passed = (inForce TempoPoint.tick origin points passed).micros :=
      microsAt_inForce same ascending (by omega) (by omega)
    rcases le_total 0 tick with ahead | behind
    · rw [Finset.Ico_eq_empty (by omega : ¬ tick < 0), Finset.sum_empty, sub_zero,
        area_eq_sum ascending (by omega), zero]
      apply Finset.sum_congr rfl
      intro passed member
      rw [Finset.mem_Ico] at member
      exact force passed (by omega) (by omega)
    · rw [Finset.Ico_eq_empty (by omega : ¬ 0 < tick), Finset.sum_empty, zero_sub,
        area_eq_neg_sum ascending (by omega), zero]
      apply congrArg Neg.neg
      apply Finset.sum_congr rfl
      intro passed member
      rw [Finset.mem_Ico] at member
      exact force passed (by omega) (by omega)
  unfold elapsed
  rw [total]
  push_cast
  norm_num

theorem frameOf_area :
    map.frameOf tick = saturate (area TempoPoint.tick TempoPoint.micros origin points tick * map.sampleRate.val / 960000000) := by
  rw [frameOf, elapsed_area same zero ascending lower upper, Rat.floor_intCast_div_natCast]
  rfl

end

theorem beatToFrame_exact (valid : map.Valid) (beat : BeatTime) : map.beatToFrame beat = some (map.frameOf beat.val) := by
  obtain ⟨origin, points, same, zero, ascending⟩ := valid.tempos
  have lower := beat.lower
  have upper := beat.upper
  rw [frameOf_area same zero ascending lower upper]
  unfold beatToFrame
  rw [same, getElem?_cons_zero, bind_eq_bind, bind_some, drop_one, tail_cons]
  by_cases preroll : beat.val < 0
  · have backward : area TempoPoint.tick TempoPoint.micros origin points beat.val = beat.val * origin.micros := by
      cases points with
      | nil => rw [area, zero, sub_zero]
      | cons next points =>
        have := ascending.step
        rw [area, if_neg (by omega), zero, sub_zero]
    rw [if_pos preroll, spanNumerator_some origin.tempo lower (by omega), backward]
    rfl
  · have forward := @integrate_some origin points map.sampleRate beat.val 0 ascending (by omega) (by omega) upper le_rfl (by omega)
    rw [zero, zero_add] at forward
    rw [if_neg preroll, forward]
    rfl

theorem saturate_mono {number other : Int} (ordered : number ≤ other) : saturate number ≤ saturate other := by
  rw [le_iff]
  simp only [saturate]
  omega

theorem frameOf_mono (valid : map.Valid) {later : Int} (lower : -0x8000000000000000 ≤ tick) (ordered : tick ≤ later)
    (upper : later < 0x8000000000000000) : map.frameOf tick ≤ map.frameOf later := by
  obtain ⟨origin, points, same, zero, ascending⟩ := valid.tempos
  rw [frameOf_area same zero ascending lower (ordered.trans_lt upper), frameOf_area same zero ascending (lower.trans ordered) upper]
  apply saturate_mono
  apply Int.ediv_le_ediv (by decide)
  apply Int.mul_le_mul_of_nonneg_right _ (Int.natCast_nonneg _)
  exact area_mono ascending (fun _ _ => Int.natCast_nonneg _) ordered

theorem frameToBeatFloor_some (valid : map.Valid) (frame : ProjectFrame) :
    ∃ last : BeatTime, map.frameToBeatFloor frame = some last ∧
      ∀ beat : BeatTime, -0x8000000000000000 < beat.val → (map.frameOf beat.val ≤ frame ↔ beat ≤ last) := by
  have answers (mid : Int) (more : -0x8000000000000000 < mid) (less : mid ≤ 0x7fffffffffffffff) :
      (fun mid => (map.beatToFrame (wrap mid)).map fun reached => decide (reached ≤ frame)) mid = some (decide (map.frameOf mid ≤ frame)) := by
    dsimp only
    rw [beatToFrame_exact valid, wrap_val more.le (by omega), map_some]
  have falling (mid later : Int) (more : -0x8000000000000000 < mid) (ordered : mid ≤ later) (less : later ≤ 0x7fffffffffffffff)
      (held : map.frameOf later ≤ frame) : map.frameOf mid ≤ frame :=
    (frameOf_mono valid more.le ordered (by omega)).trans held
  obtain ⟨low, found, above, below, divides⟩ := Bisection.last_spec answers falling (by decide)
  have lowVal : (wrap low).val = low := wrap_val above (by omega)
  refine ⟨wrap low, ?_, ?_⟩
  · unfold frameToBeatFloor
    rw [found]
    rfl
  · intro beat more
    have upper := beat.upper
    rw [divides beat.val more (by omega), le_iff, lowVal]

/-- Everything about the conversions at one frame: exact, monotone, the floor inverse, and the first tick at or after it. -/
structure Converts (map : TempoMap) (frame : ProjectFrame) : Prop where
  exact : ∀ beat : BeatTime, map.beatToFrame beat = some (I64.saturate ⌊map.elapsed beat.val⌋)
  monotone : ∀ beat later reached reached', beat ≤ later → map.beatToFrame beat = some reached → map.beatToFrame later = some reached' →
    reached ≤ reached'
  floor : (∃ beat reached, map.beatToFrame beat = some reached ∧ reached ≤ frame) →
    ∃ last, map.frameToBeatFloor frame = some last ∧
      ∀ beat reached, map.beatToFrame beat = some reached → (reached ≤ frame ↔ beat ≤ last)
  least : (∃ beat reached, map.beatToFrame beat = some reached ∧ frame ≤ reached) →
    ∃ first, map.firstBeatAtOrAfterFrame frame = some first ∧
      IsLeast (fun beat => ∃ reached, map.beatToFrame beat = some reached ∧ frame ≤ reached) first

section

variable (valid : map.Valid)
include valid

theorem beatToFrame_some {beat : BeatTime} :
    map.beatToFrame beat = some reached ↔ map.frameOf beat.val = reached := by
  rw [beatToFrame_exact valid, some.injEq]

theorem beatToFrame_mono {beat later : BeatTime} {reached' : ProjectFrame} (ordered : beat ≤ later)
    (here : map.beatToFrame beat = some reached) (there : map.beatToFrame later = some reached') : reached ≤ reached' := by
  rw [← (beatToFrame_some valid).mp here, ← (beatToFrame_some valid).mp there]
  exact frameOf_mono valid beat.lower ordered later.upper

theorem frameToBeatFloor_floor (reaches : ∃ beat reached, map.beatToFrame beat = some reached ∧ reached ≤ frame) :
    ∃ last, map.frameToBeatFloor frame = some last ∧
      ∀ beat reached, map.beatToFrame beat = some reached → (reached ≤ frame ↔ beat ≤ last) := by
  obtain ⟨last, found, divides⟩ := frameToBeatFloor_some valid frame
  refine ⟨last, found, ?_⟩
  intro beat reached here
  rcases (firstTick_le beat).eq_or_lt with same | more
  · obtain ⟨other, reached', there, early⟩ := reaches
    subst same
    exact iff_of_true ((beatToFrame_mono valid (firstTick_le other) here there).trans early) (firstTick_le last)
  · rw [← (beatToFrame_some valid).mp here]
    exact divides beat more

section

variable (proper : -0x8000000000000000 < frame.val)
include proper

theorem firstTick_before :
    map.frameOf (-0x8000000000000000) < frame ↔
      -0x8000000000000000 * map.microsAt 0 * map.sampleRate.val < frame.val * (ppq * microsPerSecond) := by
  obtain ⟨origin, points, same, zero, ascending⟩ := valid.tempos
  have backward : area TempoPoint.tick TempoPoint.micros origin points (-0x8000000000000000) = -0x8000000000000000 * origin.micros := by
    cases points with
    | nil => rw [area, zero, sub_zero]
    | cons next points =>
      have := ascending.step
      rw [area, if_neg (by omega), zero, sub_zero]
  have force : inForce TempoPoint.tick origin points 0 = origin := by
    cases points with
    | nil => rfl
    | cons next points =>
      have := ascending.step
      rw [inForce, if_neg (by omega)]
  have upper := frame.upper
  rw [frameOf_area same zero ascending le_rfl (by decide), backward, microsAt_inForce same ascending (by decide) (by decide), force,
    lt_iff]
  simp only [saturate, ppq, microsPerSecond]
  omega

theorem firstBeat_prior :
    ∃ prior : BeatTime, map.firstBeatAtOrAfterFrame frame = some (saturate (prior.val + 1)) ∧
      ∀ beat : BeatTime, firstTick < beat → (map.frameOf beat.val < frame ↔ beat ≤ prior) := by
  have upper := frame.upper
  have before : (wrap (frame.val - 1)).val = frame.val - 1 := wrap_val (by omega) (by omega)
  obtain ⟨prior, found, divides⟩ := frameToBeatFloor_some valid (wrap (frame.val - 1))
  refine ⟨prior, ?_, ?_⟩
  · unfold firstBeatAtOrAfterFrame
    rw [if_neg proper.ne', found]
    rfl
  · intro beat more
    rw [← divides beat more, lt_iff, le_iff, before]
    omega

theorem firstBeat_least (before : map.frameOf firstTick.val < frame)
    (reaches : ∃ beat reached, map.beatToFrame beat = some reached ∧ frame ≤ reached) :
    ∃ first, map.firstBeatAtOrAfterFrame frame = some first ∧
      IsLeast (fun beat => ∃ reached, map.beatToFrame beat = some reached ∧ frame ≤ reached) first := by
  obtain ⟨prior, found, divides⟩ := firstBeat_prior valid proper
  have early (beat : BeatTime) : map.frameOf beat.val < frame ↔ beat ≤ prior := by
    rcases (firstTick_le beat).eq_or_lt with same | more
    · subst same
      exact iff_of_true before (firstTick_le prior)
    · exact divides beat more
  obtain ⟨beat, reached, there, late⟩ := reaches
  rw [beatToFrame_some valid] at there
  have beyond : prior < beat := by
    rw [← not_le, ← early, not_lt, there]
    exact late
  have upper := beat.upper
  have lower := prior.lower
  rw [lt_iff] at beyond
  have next : (saturate (prior.val + 1)).val = prior.val + 1 := saturate_val _ (by omega) (by omega)
  refine ⟨saturate (prior.val + 1), found, ⟨_, (beatToFrame_some valid).mpr rfl, ?_⟩, ?_⟩
  · rw [← not_lt, early, le_iff, next]
    omega
  · rintro other ⟨reached', here, late'⟩
    rw [← (beatToFrame_some valid).mp here, ← not_lt, early, le_iff] at late'
    rw [le_iff, next]
    omega

theorem firstBeat_skips (after : frame ≤ map.frameOf firstTick.val) :
    map.firstBeatAtOrAfterFrame frame = some (wrap (-0x7fffffffffffffff)) := by
  obtain ⟨prior, found, divides⟩ := firstBeat_prior valid proper
  have first : prior = firstTick := by
    rcases (firstTick_le prior).eq_or_lt with same | more
    · exact same.symm
    · have early := (divides prior more).mpr le_rfl
      have late := after.trans (frameOf_mono valid le_rfl (firstTick_le prior) prior.upper)
      exact absurd early (not_lt.mpr late)
  rw [found, first]
  rfl

end

end

/-- The conversions are right at a frame exactly if the first tick of all lies before it, the least frame apart. -/
theorem converts_iff {events : List (Event TempoMap TempoMapEdit)} (run : Run TempoMap.edit Fresh events map) (frame : ProjectFrame) :
    map.Converts frame ↔ frame.val = -0x8000000000000000 ∨
      -0x8000000000000000 * map.microsAt 0 * map.sampleRate.val < frame.val * (ppq * microsPerSecond) := by
  have valid := reached_valid run
  rcases (show -0x8000000000000000 ≤ frame.val from frame.lower).eq_or_lt with least | proper
  · refine iff_of_true ⟨beatToFrame_exact valid, fun _ _ _ _ => beatToFrame_mono valid, frameToBeatFloor_floor valid, ?_⟩ (.inl least.symm)
    intro _
    refine ⟨firstTick, if_pos least.symm, ⟨_, (beatToFrame_some valid).mpr rfl, ?_⟩, fun beat _ => firstTick_le beat⟩
    rw [I64.le_iff, ← least]
    exact I64.lower _
  · rw [← firstTick_before valid proper]
    constructor
    · intro converts
      by_contra late
      rw [or_iff_right proper.ne', not_lt] at late
      obtain ⟨first, found, -, lower⟩ := converts.least ⟨firstTick, _, (beatToFrame_some valid).mpr rfl, late⟩
      have skipped := firstBeat_skips valid proper late
      rw [found] at skipped
      have below : first ≤ firstTick := lower ⟨_, (beatToFrame_some valid).mpr rfl, late⟩
      rw [Option.some.inj skipped] at below
      exact absurd below (by decide)
    · intro before
      exact ⟨beatToFrame_exact valid, fun _ _ _ _ => beatToFrame_mono valid, frameToBeatFloor_floor valid,
        firstBeat_least valid proper (before.resolve_left proper.ne')⟩

/-- At 240 quarter notes a minute and 1000 frames a second, all ticks reach no further back than a quarter of all frames. -/
def slowMap : TempoMap := ⟨1000, [⟨I64.zero, ⟨250000⟩⟩], [⟨I64.zero, ⟨4, 4⟩⟩]⟩

theorem slowMap_fresh : Fresh slowMap :=
  ⟨1000, ⟨250000⟩, ⟨4, 4⟩, new_ok.mpr ⟨by decide, by decide, by decide, rfl⟩⟩

/-- A frame before all ticks, and the tick returned for it, which is not the first one. -/
theorem slowMap_skips : Run TempoMap.edit Fresh [] slowMap ∧ ¬ slowMap.Converts (I64.wrap (-3000000000000000000)) := by
  have run : Run TempoMap.edit Fresh [] slowMap := .start slowMap_fresh
  have valid := reached_valid run
  refine ⟨run, fun converts => ?_⟩
  have after : I64.wrap (-3000000000000000000) ≤ slowMap.frameOf firstTick.val := by
    rw [← not_lt]
    intro before
    exact absurd ((firstTick_before valid (by decide)).mp before) (by decide)
  obtain ⟨first, found, -, lower⟩ := converts.least ⟨firstTick, _, (beatToFrame_some valid).mpr rfl, after⟩
  rw [firstBeat_skips valid (by decide) after] at found
  have below : first ≤ firstTick := lower ⟨_, (beatToFrame_some valid).mpr rfl, after⟩
  rw [← Option.some.inj found] at below
  exact absurd below (by decide)

theorem slowMap_converts : slowMap.Converts I64.zero ↔ I64.zero.val = -0x8000000000000000 ∨
    -0x8000000000000000 * slowMap.microsAt 0 * slowMap.sampleRate.val < I64.zero.val * (ppq * microsPerSecond) :=
  converts_iff (.start slowMap_fresh) I64.zero

end TempoMap

end Audec.Sequencer

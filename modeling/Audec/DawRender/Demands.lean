import Audec.DawRender.Schedule
import Audec.Arrangement.Shape

/-! Which source frames the demands of a window cover, and when they cover every frame that rendering reads. -/

open Machine Checked List
open Std (ExtTreeMap)

namespace Audec.DawRender

open Arrangement

namespace RenderWindow

def len (window : RenderWindow) : Nat := ((I64.saturatingSub window.stop window.start).val % 0x10000000000000000).toNat

variable {window : RenderWindow}

theorem mem_frames {frame : Int} :
    frame ∈ window.frames ↔ window.start.val ≤ frame ∧ frame < window.stop.val := by
  simp only [frames, mem_map, mem_range]
  constructor
  · rintro ⟨index, below, rfl⟩
    omega
  · rintro ⟨above, below⟩
    exact ⟨(frame - window.start.val).toNat, by omega, by omega⟩

theorem intersection_some {other overlap : RenderWindow} (found : window.intersection other = some overlap) :
    (window.start.val ≤ overlap.start.val ∧ other.start.val ≤ overlap.start.val) ∧
      (overlap.stop.val ≤ window.stop.val ∧ overlap.stop.val ≤ other.stop.val) ∧ overlap.start.val < overlap.stop.val := by
  unfold intersection at found
  dsimp only at found
  split at found
  next covers =>
    cases found
    exact ⟨⟨le_max_left (α := I64) .., le_max_right (α := I64) ..⟩, ⟨min_le_left (α := I64) .., min_le_right (α := I64) ..⟩, covers⟩
  next => cases found

theorem intersects_of_intersection {other overlap : RenderWindow} (found : window.intersection other = some overlap) :
    window.intersects other := by
  obtain ⟨⟨after, after'⟩, ⟨before, before'⟩, covers⟩ := intersection_some found
  unfold intersects
  rw [I64.lt_iff, I64.lt_iff]
  omega

end RenderWindow

theorem floorFrame_mono {a b : ℚ} (ordered : a ≤ b) : floorFrame (some a) ≤ floorFrame (some b) :=
  min_le_min_right _ (Int.toNat_le_toNat (Int.floor_mono ordered))

theorem clamp_mono {lower upper a b : ℚ} (proper : lower ≤ upper) (ordered : a ≤ b) :
    clamp lower upper a ≤ clamp lower upper b := by
  unfold clamp
  split_ifs <;> linarith

theorem clamp_bounds {lower upper : ℚ} (proper : lower ≤ upper) (x : ℚ) :
    lower ≤ clamp lower upper x ∧ clamp lower upper x ≤ upper := by
  unfold clamp
  split_ifs <;> constructor <;> linarith

namespace CompiledAudioClip

variable {clip : CompiledAudioClip} {window : RenderWindow}

structure Mapped (clip : CompiledAudioClip) : Prop where
  source : clip.ratioSourceFrames ≠ 0
  project : clip.ratioProjectFrames ≠ 0
  length : (clip.sourceEnd - clip.sourceStart).val * clip.ratioProjectFrames.val =
    clip.placement.len * clip.ratioSourceFrames.val

theorem relative_nonneg (clip : CompiledAudioClip) (offset : Nat) : 0 ≤ clip.relative offset := by
  unfold relative
  positivity

variable {offset : Nat} {position : Quantity} {projectFrame : Int}

theorem relative_mono (clip : CompiledAudioClip) {later : Nat} (ordered : offset ≤ later) :
    clip.relative offset ≤ clip.relative later := by
  unfold relative
  gcongr

def place (clip : CompiledAudioClip) (relative : ℚ) : ℚ :=
  clamp clip.first clip.last
    (if clip.reverse then reflectReversePosition clip.first clip.last (clip.sourceStart.val + relative)
     else clip.sourceStart.val + relative)

theorem sourcePosition_some (found : clip.sourcePosition offset = some position) :
    clip.sourceStart.val < clip.sourceEnd.val ∧ clip.first ≤ clip.last ∧
      clip.relative offset < clip.sourceEnd.val - clip.sourceStart.val ∧
      ∃ absolute : Quantity, position = absolute.map (clamp clip.first clip.last) := by
  unfold sourcePosition at found
  split at found
  · cases found
  next ordered =>
  split at found
  · cases found
  next within =>
  have advanced := clip.relative_nonneg offset
  have beyond : (clip.sourceStart.val : ℚ) < clip.sourceEnd.val := by linarith
  have covers : clip.sourceStart.val < clip.sourceEnd.val := by exact_mod_cast beyond
  have whole : (clip.sourceStart.val : ℚ) + 1 ≤ clip.sourceEnd.val := by exact_mod_cast covers
  refine ⟨covers, ?_, not_le.mp within, _, (Option.some.inj found).symm⟩
  unfold first last
  linarith

theorem floorFrame_lt (found : clip.sourcePosition offset = some position) :
    floorFrame position < clip.sourceEnd.val := by
  obtain ⟨covers, proper, -, absolute, rfl⟩ := sourcePosition_some found
  cases absolute with
  | none =>
    rw [Option.map_none, floorFrame]
    omega
  | some x =>
    have below := (clamp_bounds proper x).2
    have floored : ⌊clamp clip.first clip.last x⌋ < (clip.sourceEnd.val : Int) := by
      have edge : clip.last = clip.sourceEnd.val - 1 := rfl
      rw [Int.floor_lt]
      push_cast
      linarith
    rw [Option.map_some, floorFrame]
    omega

theorem sourcePosition_off (unlooped : clip.loopMode = .off)
    (found : clip.sourcePosition offset = some position) : position = some (clip.place (clip.relative offset)) := by
  unfold sourcePosition at found
  split at found
  · cases found
  split at found
  · cases found
  rw [← Option.some.inj found]
  unfold looped place
  rw [unlooped]
  cases clip.reverse <;> rfl

theorem place_bounds (proper : clip.first ≤ clip.last) (relative : ℚ) : clip.first ≤ clip.place relative :=
  (clamp_bounds proper _).1

theorem place_between (proper : clip.first ≤ clip.last) {early middle late : ℚ} (after : early ≤ middle) (before : middle ≤ late) :
    min (clip.place early) (clip.place late) ≤ clip.place middle ∧
      clip.place middle ≤ max (clip.place early) (clip.place late) := by
  unfold place
  cases clip.reverse with
  | false =>
    simp only [Bool.false_eq_true, if_false]
    exact ⟨min_le_of_left_le (clamp_mono proper (by linarith)), le_max_of_le_right (clamp_mono proper (by linarith))⟩
  | true =>
    simp only [if_true, reflectReversePosition]
    exact ⟨min_le_of_right_le (clamp_mono proper (by linarith)), le_max_of_le_left (clamp_mono proper (by linarith))⟩

theorem Mapped.positioned_iff (mapped : clip.Mapped) (ordered : clip.sourceStart ≤ clip.sourceEnd) (offset : Nat) :
    (clip.sourcePosition offset).isSome ↔ offset < clip.placement.len := by
  have project : (0 : ℚ) < clip.ratioProjectFrames.val := by
    exact_mod_cast Nat.pos_of_ne_zero fun zero => mapped.project (Fin.val_eq_zero_iff.mp zero)
  have source : (0 : ℚ) < clip.ratioSourceFrames.val := by
    exact_mod_cast Nat.pos_of_ne_zero fun zero => mapped.source (Fin.val_eq_zero_iff.mp zero)
  have length : ((clip.sourceEnd.val : ℚ) - clip.sourceStart.val) * clip.ratioProjectFrames.val =
      clip.placement.len * clip.ratioSourceFrames.val := by
    have exact := mapped.length
    rw [Fin.sub_val_of_le ordered] at exact
    rw [← Nat.cast_sub (Fin.le_def.mp ordered)]
    exact_mod_cast exact
  have compared : (clip.sourceEnd.val - clip.sourceStart.val : ℚ) ≤ clip.relative offset ↔ clip.placement.len ≤ offset := by
    unfold relative
    rw [le_div_iff₀ project, length, mul_le_mul_iff_left₀ source]
    exact Nat.cast_le
  unfold sourcePosition
  rw [if_neg (not_lt.mpr ordered)]
  split
  next beyond =>
    rw [compared] at beyond
    simp only [Option.isSome_none, Bool.false_eq_true, false_iff, not_lt]
    exact beyond
  next within =>
    rw [compared, not_le] at within
    simp only [Option.isSome_some, true_iff]
    exact within

section

variable (clip : CompiledAudioClip)

section

variable (window : RenderWindow)

def HeardAt (projectFrame : Int) (position : Quantity) : Prop :=
  ∃ overlap, clip.placement.intersection window = some overlap ∧ projectFrame ∈ overlap.frames ∧
    clip.positionAt projectFrame = some position

def Outlasted : Prop :=
  ∃ overlap, clip.placement.intersection window = some overlap ∧
    clip.placement.len ≤ clip.projectOffset (overlap.stop.val - 1)

/-- The frame is at a position heard in the window or next above one or, for an unlooped clip, between two such, and
    is in the source range. -/
def Asks (frame : Nat) : Prop :=
  frame < clip.sourceEnd.val ∧ ¬ (clip.loopMode = .off ∧ clip.Outlasted window) ∧
    ∃ near far low high, clip.HeardAt window near low ∧ clip.HeardAt window far high ∧
      (clip.loopMode = .off ∨ near = far) ∧ floorFrame low ≤ frame ∧ frame ≤ floorFrame high + 1

end

def Reads (descriptor : MediaAssetDescriptor) (window : RenderWindow) (frame : Nat) : Prop :=
  ∃ projectFrame position, clip.HeardAt window projectFrame position ∧
    (frame = floorFrame position ∨ frame = upperNeighbour descriptor (floorFrame position))

end

section

variable (heard : clip.HeardAt window projectFrame position)
include heard

theorem HeardAt.below :
    floorFrame position < clip.sourceEnd.val := by
  obtain ⟨overlap, -, -, found⟩ := heard
  exact floorFrame_lt found

section

variable (lasting : ¬ (clip.loopMode = .off ∧ clip.Outlasted window))
include lasting

theorem HeardAt.asks : clip.Asks window (floorFrame position) :=
  ⟨heard.below, lasting, projectFrame, projectFrame, position, position, heard, heard, .inr rfl, le_rfl, Nat.le_succ _⟩

theorem HeardAt.asks_next (more : floorFrame position + 1 < clip.sourceEnd.val) :
    clip.Asks window (floorFrame position + 1) :=
  ⟨more, lasting, projectFrame, projectFrame, position, position, heard, heard, .inr rfl, Nat.le_succ _, le_rfl⟩

end

end

theorem projectOffset_mono {overlap : RenderWindow} (found : clip.placement.intersection window = some overlap)
    {early late : Int} (after : overlap.start.val ≤ early) (ordered : early ≤ late) (before : late < overlap.stop.val) :
    clip.projectOffset early ≤ clip.projectOffset late := by
  obtain ⟨⟨inside, -⟩, -⟩ := RenderWindow.intersection_some found
  have lower := clip.placement.start.lower
  have upper := overlap.stop.upper
  unfold projectOffset
  omega

theorem floorFrame_between (unlooped : clip.loopMode = .off) {overlap : RenderWindow}
    (found : clip.placement.intersection window = some overlap) {early middle late : Int}
    (from' : overlap.start.val ≤ early) (after : early ≤ middle) (before : middle ≤ late) (until' : late < overlap.stop.val)
    {a b c : Quantity} (a' : clip.positionAt early = some a) (b' : clip.positionAt middle = some b)
    (c' : clip.positionAt late = some c) :
    floorFrame (Option.merge min a c) ≤ floorFrame b ∧ floorFrame b ≤ floorFrame (Option.merge max a c) := by
  have proper := (sourcePosition_some b').2.1
  rw [sourcePosition_off unlooped a', sourcePosition_off unlooped b', sourcePosition_off unlooped c']
  have first := clip.relative_mono (projectOffset_mono found from' after (before.trans_lt until'))
  have second := clip.relative_mono (projectOffset_mono found (from'.trans after) before until')
  obtain ⟨above, below⟩ := place_between proper first second
  exact ⟨floorFrame_mono above, floorFrame_mono below⟩

theorem floorFrame_merge (unlooped : clip.loopMode = .off) {later : Nat} {a b : Quantity}
    (a' : clip.sourcePosition offset = some a) (b' : clip.sourcePosition later = some b) :
    (floorFrame (Option.merge min a b) = floorFrame a ∨ floorFrame (Option.merge min a b) = floorFrame b) ∧
      (floorFrame (Option.merge max a b) = floorFrame a ∨ floorFrame (Option.merge max a b) = floorFrame b) ∧
      clip.sourceStart.val ≤ floorFrame (Option.merge min a b) ∧
      floorFrame (Option.merge min a b) ≤ floorFrame (Option.merge max a b) := by
  have proper := (sourcePosition_some a').2.1
  rw [sourcePosition_off unlooped a', sourcePosition_off unlooped b']
  have edge : floorFrame (some clip.first) = clip.sourceStart.val := by
    have := clip.sourceStart.isLt
    rw [first, floorFrame, Int.floor_natCast, Int.toNat_natCast]
    omega
  simp only [Option.merge_some_some]
  refine ⟨?_, ?_, ?_, floorFrame_mono min_le_max⟩
  · rcases min_choice (clip.place (clip.relative offset)) (clip.place (clip.relative later)) with same | same
    · exact .inl (by rw [same])
    · exact .inr (by rw [same])
  · rcases max_choice (clip.place (clip.relative offset)) (clip.place (clip.relative later)) with same | same
    · exact .inl (by rw [same])
    · exact .inr (by rw [same])
  · rw [← edge]
    exact floorFrame_mono (le_min (place_bounds proper _) (place_bounds proper _))

end CompiledAudioClip

theorem saturatingAdd_of_lt {frame bound step : Nat} (fits : bound < 0x10000000000000000) (point : Nat) :
    point < min (saturatingAdd frame step) bound ↔ point < frame + step ∧ point < bound := by
  unfold saturatingAdd
  omega

namespace MediaBlockDemand

theorem covers_new {asset key : AssetId} {startFrame endFrame point : Nat} :
    (∃ demand ∈ (new asset startFrame endFrame).toOption.toList, ranges.Covers demand key point) ↔
      asset = key ∧ startFrame ≤ point ∧ point < endFrame := by
  unfold new
  split
  next ordered =>
    simp only [Except.toOption, Option.toList_some, mem_singleton, exists_eq_left]
    rfl
  next reversed =>
    simp only [Except.toOption, Option.toList_none, not_mem_nil, false_and, exists_false, false_iff]
    omega

theorem new_ok {asset : AssetId} {startFrame endFrame : Nat} {demand : MediaBlockDemand}
    (inside : demand ∈ (new asset startFrame endFrame).toOption.toList) : demand.asset = asset ∧ demand.endFrame = endFrame := by
  unfold new at inside
  split at inside
  · cases mem_singleton.mp inside
    exact ⟨rfl, rfl⟩
  · cases inside

end MediaBlockDemand

namespace CompiledAudioClip

open MediaBlockDemand (ranges)

variable {clip : CompiledAudioClip} {window : RenderWindow}

variable {overlap : RenderWindow}

theorem Mapped.positionAt_isSome (mapped : clip.Mapped) (ordered : clip.sourceStart ≤ clip.sourceEnd)
    (lasting : ¬ clip.Outlasted window) (found : clip.placement.intersection window = some overlap)
    {frame : Int} (above : overlap.start.val ≤ frame) (below : frame < overlap.stop.val) : (clip.positionAt frame).isSome := by
  refine (mapped.positioned_iff ordered _).mpr ?_
  have earlier := projectOffset_mono found above (Int.le_sub_one_of_lt below) (sub_one_lt _)
  by_contra past
  exact lasting ⟨overlap, found, (not_lt.mp past).trans earlier⟩

theorem Mapped.not_outlasted (mapped : clip.Mapped)
    (found : clip.placement.intersection window = some overlap) {position : Quantity}
    (last : clip.positionAt (overlap.stop.val - 1) = some position) : ¬ clip.Outlasted window := by
  have ordered := Fin.le_def.mpr (sourcePosition_some last).1.le
  have measured := (mapped.positioned_iff ordered _).mp (Option.isSome_iff_exists.mpr ⟨position, last⟩)
  rintro ⟨other, found', past⟩
  rw [found] at found'
  cases found'
  omega

theorem demandsOver_between (unlooped : clip.loopMode = .off) {first last : Quantity}
    (first' : clip.positionAt overlap.start.val = some first) (last' : clip.positionAt (overlap.stop.val - 1) = some last) :
    clip.demandsOver overlap = (clip.spanDemand first last).toOption.toList := by
  unfold demandsOver
  rw [unlooped, first', last']

theorem demandsOver_unplaced (unlooped : clip.loopMode = .off)
    (missing : clip.positionAt overlap.start.val = none ∨ clip.positionAt (overlap.stop.val - 1) = none) :
    clip.demandsOver overlap = [] := by
  unfold demandsOver
  rw [unlooped]
  rcases missing with none | none
  · rw [none]
  · rw [none]
    cases clip.positionAt overlap.start.val <;> rfl

theorem demandsOver_looped (looping : clip.loopMode ≠ .off) (overlap : RenderWindow) :
    clip.demandsOver overlap = overlap.frames.flatMap fun projectFrame =>
      (clip.positionAt projectFrame).toList.flatMap fun position => (clip.frameDemand position).toOption.toList := by
  unfold demandsOver
  cases mode : clip.loopMode with
  | off => exact absurd mode looping
  | forward range => rfl
  | pingPong range => rfl

theorem covers_span (unlooped : clip.loopMode = .off) {offset later : Nat} {first last : Quantity}
    (first' : clip.sourcePosition offset = some first) (last' : clip.sourcePosition later = some last) (asset : AssetId)
    (frame : Nat) :
    (∃ demand ∈ (clip.spanDemand first last).toOption.toList, ranges.Covers demand asset frame) ↔
      clip.asset = asset ∧ frame < clip.sourceEnd.val ∧
        floorFrame (Option.merge min first last) ≤ frame ∧ frame ≤ floorFrame (Option.merge max first last) + 1 := by
  obtain ⟨-, -, from', ordered⟩ := floorFrame_merge unlooped first' last'
  unfold spanDemand
  rw [MediaBlockDemand.covers_new, max_eq_left from', max_eq_left ordered, saturatingAdd_of_lt clip.sourceEnd.isLt]
  refine and_congr_right fun _ => ?_
  omega

theorem covers_frame (position : Quantity) (asset : AssetId) (frame : Nat) :
    (∃ demand ∈ (clip.frameDemand position).toOption.toList, ranges.Covers demand asset frame) ↔
      clip.asset = asset ∧ frame < clip.sourceEnd.val ∧ floorFrame position ≤ frame ∧ frame ≤ floorFrame position + 1 := by
  unfold frameDemand
  rw [MediaBlockDemand.covers_new, saturatingAdd_of_lt clip.sourceEnd.isLt]
  refine and_congr_right fun _ => ?_
  omega

theorem covers_off (mapped : clip.Mapped) (unlooped : clip.loopMode = .off)
    (found : clip.placement.intersection window = some overlap) (asset : AssetId) (frame : Nat) :
    (∃ demand ∈ clip.demandsOver overlap, ranges.Covers demand asset frame) ↔ clip.asset = asset ∧ clip.Asks window frame := by
  have covers := (RenderWindow.intersection_some found).2.2
  have inside : overlap.start.val ∈ overlap.frames ∧ overlap.stop.val - 1 ∈ overlap.frames := by
    rw [RenderWindow.mem_frames, RenderWindow.mem_frames]
    omega
  by_cases placed : (clip.positionAt overlap.start.val).isSome ∧ (clip.positionAt (overlap.stop.val - 1)).isSome
  · obtain ⟨⟨first, first'⟩, last, last'⟩ := placed.imp Option.isSome_iff_exists.mp Option.isSome_iff_exists.mp
    rw [demandsOver_between unlooped first' last', covers_span unlooped first' last']
    refine and_congr_right fun _ => and_congr_right fun _ => ?_
    have lasting : ¬ (clip.loopMode = .off ∧ clip.Outlasted window) := fun both => mapped.not_outlasted found last' both.2
    have atFirst : clip.HeardAt window _ first := ⟨overlap, found, inside.1, first'⟩
    have atLast : clip.HeardAt window _ last := ⟨overlap, found, inside.2, last'⟩
    constructor
    · rintro ⟨above, below⟩
      obtain ⟨lowest, highest, -⟩ := floorFrame_merge unlooped first' last'
      refine ⟨lasting, ?_⟩
      rcases lowest with lowest | lowest <;> rcases highest with highest | highest <;> rw [lowest] at above <;> rw [highest] at below
      · exact ⟨_, _, first, first, atFirst, atFirst, .inl unlooped, above, below⟩
      · exact ⟨_, _, first, last, atFirst, atLast, .inl unlooped, above, below⟩
      · exact ⟨_, _, last, first, atLast, atFirst, .inl unlooped, above, below⟩
      · exact ⟨_, _, last, last, atLast, atLast, .inl unlooped, above, below⟩
    · rintro ⟨-, near, far, low, high, ⟨_, found', near', low'⟩, ⟨_, found'', far', high'⟩, -, above, below⟩
      rw [found] at found' found''
      cases found'
      cases found''
      rw [RenderWindow.mem_frames] at near' far'
      have lowest := floorFrame_between unlooped found le_rfl near'.1 (Int.le_sub_one_of_lt near'.2) (sub_one_lt _) first' low' last'
      have highest := floorFrame_between unlooped found le_rfl far'.1 (Int.le_sub_one_of_lt far'.2) (sub_one_lt _) first' high' last'
      exact ⟨lowest.1.trans above, below.trans (Nat.succ_le_succ highest.2)⟩
  · have missing : clip.positionAt overlap.start.val = none ∨ clip.positionAt (overlap.stop.val - 1) = none := by
      rw [not_and_or] at placed
      exact placed.imp Option.not_isSome_iff_eq_none.mp Option.not_isSome_iff_eq_none.mp
    rw [demandsOver_unplaced unlooped missing]
    simp only [not_mem_nil, false_and, exists_false, false_iff]
    rintro ⟨-, -, lasting, near, far, low, high, ⟨_, -, -, low'⟩, -⟩
    -- a clip that is heard and not outlasted has a position at both ends
    have ordered := Fin.le_def.mpr (sourcePosition_some low').1.le
    have lasting' : ¬ clip.Outlasted window := fun past => lasting ⟨unlooped, past⟩
    exact placed ⟨mapped.positionAt_isSome ordered lasting' found le_rfl covers,
      mapped.positionAt_isSome ordered lasting' found (Int.le_sub_one_of_lt covers) (sub_one_lt _)⟩

theorem covers_looped (looping : clip.loopMode ≠ .off)
    (found : clip.placement.intersection window = some overlap) (asset : AssetId) (frame : Nat) :
    (∃ demand ∈ clip.demandsOver overlap, ranges.Covers demand asset frame) ↔ clip.asset = asset ∧ clip.Asks window frame := by
  rw [demandsOver_looped looping]
  constructor
  · rintro ⟨demand, inside, covers⟩
    simp only [mem_flatMap, Option.mem_toList] at inside
    obtain ⟨projectFrame, among, position, heard, demanded⟩ := inside
    obtain ⟨same, below, above, next⟩ := (covers_frame position asset frame).mp ⟨demand, Option.mem_toList.mpr demanded, covers⟩
    have here : clip.HeardAt window projectFrame position := ⟨overlap, found, among, heard⟩
    exact ⟨same, below, fun both => looping both.1, _, _, _, _, here, here, .inr rfl, above, next⟩
  · rintro ⟨same, below, -, near, far, low, high, ⟨_, found', near', low'⟩, ⟨_, found'', far', high'⟩, one, above, next⟩
    rcases one with off | rfl
    · exact absurd off looping
    rw [low'] at high'
    cases high'
    rw [found] at found'
    cases found'
    obtain ⟨demand, demanded, covers⟩ := (covers_frame low asset frame).mpr ⟨same, below, above, next⟩
    refine ⟨demand, ?_, covers⟩
    simp only [mem_flatMap, Option.mem_toList]
    exact ⟨near, near', low, low', Option.mem_toList.mp demanded⟩

theorem covers_for (mapped : clip.Mapped) (asset : AssetId) (frame : Nat) :
    (∃ demand ∈ clip.demandsFor window, ranges.Covers demand asset frame) ↔ clip.asset = asset ∧ clip.Asks window frame := by
  unfold demandsFor
  split
  next apart =>
    simp only [not_mem_nil, false_and, exists_false, false_iff]
    rintro ⟨-, -, -, near, far, low, high, ⟨overlap, found, -⟩, -⟩
    rw [apart] at found
    cases found
  next overlap found =>
    by_cases looping : clip.loopMode = .off
    · exact covers_off mapped looping found asset frame
    · exact covers_looped looping found asset frame

end CompiledAudioClip

end Audec.DawRender

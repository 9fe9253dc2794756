import Audec.Media.Store

/-! Slice reads against the stream the chunks were cut from: a read over chunks gives the samples that a
    read of the whole stream gives. -/

open Std (ExtTreeMap)
open Machine Checked List

namespace Audec.Media

open Nat DecodedPcmDescriptor

def PcmChunkGeometry.new (sampleRateHz : U32) (channels : U16) (framesPerChunk : U32) : Except StreamingMediaError PcmChunkGeometry := do
  ensure (sampleRateHz ≠ 0) .zeroSampleRate
  ensure (channels ≠ 0) .zeroChannels
  ensure (framesPerChunk ≠ 0 ∧ framesPerChunk.val &&& (framesPerChunk.val - 1) = 0) (.invalidChunkFrames framesPerChunk)
  pure ⟨sampleRateHz, channels, framesPerChunk⟩

def FrameSpan.new (start stop : U64) : Except StreamingMediaError FrameSpan := do
  ensure (start < stop) (.invalidFrameSpan start stop)
  pure ⟨start, stop⟩

variable {D : Type}

def DecodedPcmDescriptor.new (id : DecodedPcmId D) (geometry : PcmChunkGeometry) (frameCount : U64) :
    Except StreamingMediaError (DecodedPcmDescriptor D) := do
  ensure (frameCount ≠ 0) .emptyPcm
  pure ⟨id, geometry, frameCount⟩

namespace VirtualSliceRef

def new (source : DecodedPcmDescriptor D) (range : FrameSpan) : Except StreamingMediaError (VirtualSliceRef D) := do
  ensure (range.stop ≤ source.frameCount) (.sliceOutsidePcm range.stop source.frameCount)
  pure ⟨source, range⟩

def coveringChunks (slice : VirtualSliceRef D) : List (PcmChunkKey D) :=
  let width := slice.source.geometry.framesPerChunk.val
  let first := slice.range.start.val / width
  let last := (slice.range.stop.val - 1) / width
  (List.range' first (last + 1 - first)).map fun index => ⟨slice.source.id, slice.source.geometry, Fin.ofNat _ index⟩

/-- Every part comes from its constructor. -/
structure Valid (slice : VirtualSliceRef D) : Prop where
  geometry : PcmChunkGeometry.new slice.source.geometry.sampleRateHz slice.source.geometry.channels
    slice.source.geometry.framesPerChunk = .ok slice.source.geometry
  source : DecodedPcmDescriptor.new slice.source.id slice.source.geometry slice.source.frameCount = .ok slice.source
  range : FrameSpan.new slice.range.start slice.range.stop = .ok slice.range
  slice : new slice.source slice.range = .ok slice

variable {slice : VirtualSliceRef D}

theorem Valid.width_pos (valid : slice.Valid) : 0 < slice.source.geometry.framesPerChunk.val := by
  obtain ⟨-, -, checked⟩ := bind_ok.mp valid.geometry
  obtain ⟨-, -, checked⟩ := bind_ok.mp checked
  obtain ⟨_, width, -⟩ := bind_ok.mp checked
  have nonzero := (ensure_ok.mp width).1
  simp only [ne_eq, Fin.ext_iff, Fin.coe_ofNat_eq_mod] at nonzero
  omega

theorem Valid.ordered (valid : slice.Valid) : slice.range.start < slice.range.stop := by
  obtain ⟨_, ordered, -⟩ := bind_ok.mp valid.range
  exact ensure_ok.mp ordered

theorem Valid.inside (valid : slice.Valid) : slice.range.stop ≤ slice.source.frameCount := by
  obtain ⟨_, inside, -⟩ := bind_ok.mp valid.slice
  exact ensure_ok.mp inside

end VirtualSliceRef

def DecodedPcmDescriptor.chunkHolding (source : DecodedPcmDescriptor D) (frame : Nat) : PcmChunkKey D :=
  ⟨source.id, source.geometry, Fin.ofNat _ (frame / source.geometry.framesPerChunk.val)⟩

theorem DecodedPcmDescriptor.chunkHolding_eq {source : DecodedPcmDescriptor D} {first frame : Nat} (after : first ≤ frame)
    (before : frame < (first / source.geometry.framesPerChunk.val + 1) * source.geometry.framesPerChunk.val) :
    source.chunkHolding frame = source.chunkHolding first := by
  have same : frame / source.geometry.framesPerChunk.val = first / source.geometry.framesPerChunk.val :=
    le_antisymm (Nat.le_of_lt_succ (Nat.div_lt_of_lt_mul (by rwa [Nat.mul_comm]))) (Nat.div_le_div_right after)
  rw [chunkHolding, chunkHolding, same]

namespace VirtualSliceRef

def part (slice : VirtualSliceRef D) (relativeStart frameCount : U64) : VirtualSliceRef D :=
  ⟨slice.source, ⟨slice.range.start + relativeStart, slice.range.start + relativeStart + frameCount⟩⟩

theorem Valid.part_val {slice : VirtualSliceRef D} (valid : slice.Valid) {relativeStart frameCount : U64}
    (inside : relativeStart.val + frameCount.val ≤ slice.range.stop.val - slice.range.start.val) :
    (slice.part relativeStart frameCount).range.start.val = slice.range.start.val + relativeStart.val ∧
    (slice.part relativeStart frameCount).range.stop.val = slice.range.start.val + relativeStart.val + frameCount.val := by
  have ordered : slice.range.start.val < slice.range.stop.val := valid.ordered
  have bounded := slice.range.stop.isLt
  have start : (slice.range.start + relativeStart).val = slice.range.start.val + relativeStart.val := by
    rw [Fin.val_add]
    exact mod_eq_of_lt (by omega)
  refine ⟨start, ?_⟩
  change (slice.range.start + relativeStart + frameCount).val = _
  rw [Fin.val_add, start]
  exact mod_eq_of_lt (by omega)

theorem mem_coveringChunks {slice : VirtualSliceRef D} {key : PcmChunkKey D} (width : 0 < slice.source.geometry.framesPerChunk.val)
    (ordered : slice.range.start < slice.range.stop) :
    key ∈ slice.coveringChunks ↔
      ∃ frame, slice.range.start.val ≤ frame ∧ frame < slice.range.stop.val ∧ slice.source.chunkHolding frame = key := by
  have nonempty : slice.range.start.val < slice.range.stop.val := ordered
  have monotone : slice.range.start.val / slice.source.geometry.framesPerChunk.val ≤
      (slice.range.stop.val - 1) / slice.source.geometry.framesPerChunk.val := Nat.div_le_div_right (by omega)
  rw [coveringChunks, mem_map]
  simp only [mem_range'_1]
  constructor
  · rintro ⟨index, ⟨first, last⟩, rfl⟩
    have below : index * slice.source.geometry.framesPerChunk.val ≤ slice.range.stop.val - 1 :=
      (le_div_iff_mul_le width).mp (by omega)
    refine ⟨max slice.range.start.val (index * slice.source.geometry.framesPerChunk.val), le_max_left _ _, by omega, ?_⟩
    have quotient : max slice.range.start.val (index * slice.source.geometry.framesPerChunk.val) /
        slice.source.geometry.framesPerChunk.val = index := by
      rcases le_total slice.range.start.val (index * slice.source.geometry.framesPerChunk.val) with early | late
      · rw [max_eq_right early, Nat.mul_div_cancel _ width]
      · rw [max_eq_left late]
        exact le_antisymm first ((le_div_iff_mul_le width).mpr late)
    rw [chunkHolding, quotient]
  · rintro ⟨frame, after, before, rfl⟩
    have first := Nat.div_le_div_right (c := slice.source.geometry.framesPerChunk.val) after
    have last := Nat.div_le_div_right (c := slice.source.geometry.framesPerChunk.val) (show frame ≤ slice.range.stop.val - 1 by omega)
    exact ⟨frame / slice.source.geometry.framesPerChunk.val, ⟨first, by omega⟩, rfl⟩

end VirtualSliceRef

structure Pcm (source : DecodedPcmDescriptor D) where
  interleaved : List Float32
  complete : interleaved.length = source.frameCount.val * source.geometry.channels.val

namespace Pcm

variable {source : DecodedPcmDescriptor D}

/-- The samples from one frame on and before another. -/
def frames (pcm : Pcm source) (start stop : Nat) : List Float32 :=
  (pcm.interleaved.drop (start * source.geometry.channels.val)).take ((stop - start) * source.geometry.channels.val)

structure Cuts (pcm : Pcm source) (index : U64) (chunk : PcmChunk D) : Prop where
  span : source.geometry.chunkSpan index source.frameCount = .ok chunk.span
  samples : chunk.interleaved = pcm.frames chunk.span.start.val chunk.span.stop.val

section

variable (pcm : Pcm source)

theorem frames_self (frame : Nat) : pcm.frames frame frame = [] := by
  rw [frames, Nat.sub_self, Nat.zero_mul, take_zero]

theorem frames_append {start middle stop : Nat} (first : start ≤ middle) (second : middle ≤ stop) :
    pcm.frames start middle ++ pcm.frames middle stop = pcm.frames start stop := by
  have reached : middle * source.geometry.channels.val =
      start * source.geometry.channels.val + (middle - start) * source.geometry.channels.val := by
    rw [← Nat.add_mul, Nat.add_sub_cancel' first]
  have total : (stop - start) * source.geometry.channels.val =
      (middle - start) * source.geometry.channels.val + (stop - middle) * source.geometry.channels.val := by
    rw [← add_mul]
    congr 1
    omega
  rw [frames, frames, frames, reached, total, take_add, drop_drop]

theorem frames_length {start stop : Nat} (inside : stop ≤ source.frameCount.val) :
    (pcm.frames start stop).length = (stop - start) * source.geometry.channels.val := by
  rw [frames, length_take, length_drop, pcm.complete, ← Nat.sub_mul]
  exact min_eq_left (mul_le_mul_right _ (by omega))

theorem frames_within {start first last stop : Nat} (after : start ≤ first) (before : last ≤ stop) :
    ((pcm.frames start stop).drop ((first - start) * source.geometry.channels.val)).take
      ((last - start) * source.geometry.channels.val - (first - start) * source.geometry.channels.val) = pcm.frames first last := by
  have reached : start * source.geometry.channels.val + (first - start) * source.geometry.channels.val =
      first * source.geometry.channels.val := by
    rw [← Nat.add_mul, Nat.add_sub_cancel' after]
  have counted : (last - start) * source.geometry.channels.val - (first - start) * source.geometry.channels.val =
      (last - first) * source.geometry.channels.val := by
    rw [← Nat.sub_mul]
    congr 1
    omega
  have rest : (stop - start) * source.geometry.channels.val - (first - start) * source.geometry.channels.val =
      (stop - first) * source.geometry.channels.val := by
    rw [← Nat.sub_mul]
    congr 1
    omega
  rw [frames, frames, drop_take, drop_drop, reached, counted, rest, take_take]
  congr 1
  exact min_eq_left (mul_le_mul_right _ (by omega))

end

end Pcm

namespace PcmChunkGeometry

variable {geometry : PcmChunkGeometry}

def EndsWithin (geometry : PcmChunkGeometry) (frame : Nat) : Prop :=
  (frame / geometry.framesPerChunk.val + 1) * geometry.framesPerChunk.val < 0x10000000000000000

theorem index_val (frame : U64) :
    (Fin.ofNat 0x10000000000000000 (frame.val / geometry.framesPerChunk.val)).val = frame.val / geometry.framesPerChunk.val :=
  mod_eq_of_lt ((div_le_self _ _).trans_lt frame.isLt)

theorem chunkSpan_holding {frame totalFrames : U64} (inside : frame < totalFrames) (width : 0 < geometry.framesPerChunk.val) :
    (¬ geometry.EndsWithin frame.val ∧
      geometry.chunkSpan (Fin.ofNat _ (frame.val / geometry.framesPerChunk.val)) totalFrames = .error .arithmeticOverflow) ∨
    ∃ span : FrameSpan, geometry.EndsWithin frame.val ∧
      geometry.chunkSpan (Fin.ofNat _ (frame.val / geometry.framesPerChunk.val)) totalFrames = .ok span ∧
      span.start.val = frame.val / geometry.framesPerChunk.val * geometry.framesPerChunk.val ∧
      span.stop.val = min ((frame.val / geometry.framesPerChunk.val + 1) * geometry.framesPerChunk.val) totalFrames.val := by
  have before : frame.val / geometry.framesPerChunk.val * geometry.framesPerChunk.val ≤ frame.val := div_mul_le_self _ _
  have after : frame.val < (frame.val / geometry.framesPerChunk.val + 1) * geometry.framesPerChunk.val :=
    lt_mul_of_div_lt (lt_succ_self _) width
  have below : frame.val < totalFrames.val := inside
  have next : (frame.val / geometry.framesPerChunk.val + 1) * geometry.framesPerChunk.val =
      frame.val / geometry.framesPerChunk.val * geometry.framesPerChunk.val + geometry.framesPerChunk.val := succ_mul _ _
  have startFits : frame.val / geometry.framesPerChunk.val * geometry.framesPerChunk.val < 0x10000000000000000 := before.trans_lt frame.isLt
  have held : ¬ totalFrames ≤ (⟨_, startFits⟩ : U64) := not_le.mpr (Fin.lt_def.mpr (before.trans_lt below))
  unfold chunkSpan EndsWithin
  simp only [index_val, dif_pos startFits, if_neg held, next]
  split
  · rename_i stopFits
    have ordered : ¬ min (⟨_, stopFits⟩ : U64) totalFrames ≤ ⟨_, startFits⟩ := by
      rw [not_le, lt_min_iff, Fin.lt_def, Fin.lt_def]
      dsimp only
      omega
    rw [if_neg ordered]
    refine Or.inr ⟨_, stopFits, rfl, rfl, ?_⟩
    exact Fin.coe_min _ _
  · rename_i overflows
    exact Or.inl ⟨overflows, rfl⟩

end PcmChunkGeometry

section Reads

variable [LinearOrder D] {source : DecodedPcmDescriptor D} {pcm : Pcm source}
  {residents : ExtTreeMap (PcmChunkKey D) (PcmChunk D)}

def Pcm.Resident (pcm : Pcm source) (residents : ExtTreeMap (PcmChunkKey D) (PcmChunk D)) : Prop :=
  ∀ (index : U64) (chunk : PcmChunk D), residents[(⟨source.id, source.geometry, index⟩ : PcmChunkKey D)]? = some chunk → pcm.Cuts index chunk

open BoundedMediaStore

theorem sampleOffset_val {geometry : PcmChunkGeometry} {start point : U64} (after : start ≤ point)
    (near : point.val ≤ start.val + geometry.framesPerChunk.val) :
    ((point - start) * Fin.ofNat 0x10000000000000000 geometry.channels.val).val = (point.val - start.val) * geometry.channels.val := by
  have frames : point.val - start.val ≤ 0xffffffff := by
    have bounded := geometry.framesPerChunk.isLt
    omega
  have channels : geometry.channels.val ≤ 0xffff := le_of_lt_succ geometry.channels.isLt
  have product : (point.val - start.val) * geometry.channels.val ≤ 0xffffffff * 0xffff := Nat.mul_le_mul frames channels
  have channelsVal : (Fin.ofNat 0x10000000000000000 geometry.channels.val).val = geometry.channels.val :=
    mod_eq_of_lt (by omega)
  rw [Fin.val_mul, Fin.sub_val_of_le after, channelsVal]
  exact mod_eq_of_lt (by omega)

theorem copyFrom_chunk {chunk : PcmChunk D} {stop cursor : U64} (width : source.geometry.framesPerChunk ≠ 0)
    (held : residents[source.chunkHolding cursor.val]? = some chunk) (cuts : pcm.Cuts (source.chunkHolding cursor.val).index chunk)
    (started : chunk.span.start ≤ cursor) (before : cursor < min stop chunk.span.stop)
    (near : chunk.span.stop.val ≤ chunk.span.start.val + source.geometry.framesPerChunk.val)
    (inside : chunk.span.stop ≤ source.frameCount) :
    copyFrom residents source stop cursor =
      .ok (source.chunkHolding cursor.val, pcm.frames cursor.val (min stop chunk.span.stop).val, min stop chunk.span.stop) := by
  have indexed : source.geometry.chunkIndex cursor = .ok (source.chunkHolding cursor.val).index := by
    rw [PcmChunkGeometry.chunkIndex, if_neg width]
    rfl
  have keyed : lift (source.chunkKey (source.chunkHolding cursor.val).index) = .ok (source.chunkHolding cursor.val) := by
    rw [chunkKey, cuts.span]
    rfl
  have below : (min stop chunk.span.stop).val ≤ chunk.span.stop.val := min_le_right stop chunk.span.stop
  have ahead : cursor.val < (min stop chunk.span.stop).val := before
  have localStart := @sampleOffset_val source.geometry _ _ started (by omega)
  have localEnd := @sampleOffset_val source.geometry _ _ (started.trans before.le) (by omega)
  have length : (pcm.frames chunk.span.start.val chunk.span.stop.val).length = _ := pcm.frames_length inside
  have first : chunk.span.start.val ≤ cursor.val := started
  have copied := @Pcm.frames_within _ _ pcm _ _ (min stop chunk.span.stop).val _ first below
  refine bind_ok.mpr ⟨_, indexed, bind_ok.mpr ⟨_, keyed, ?_⟩⟩
  rw [held]
  dsimp only
  rw [if_pos, cuts.samples, localStart, localEnd, copied]
  · rfl
  · rw [Fin.le_def, cuts.samples, length, localStart, localEnd]
    exact ⟨mul_le_mul_right _ (by omega), mul_le_mul_right _ (by omega)⟩

inductive CopyOutcome (pcm : Pcm source) (residents : ExtTreeMap (PcmChunkKey D) (PcmChunk D)) (stop cursor : U64) :
    Except (Stop StreamingMediaError) (PcmChunkKey D × List Float32 × U64) → Prop where
  | overflow (far : ¬ source.geometry.EndsWithin cursor.val) : CopyOutcome pcm residents stop cursor (.error (.error .arithmeticOverflow))
  | missing (index : U64) (absent : residents[source.chunkHolding cursor.val]? = none) :
    CopyOutcome pcm residents stop cursor (.error (.error (.missingChunk index)))
  | copied (copyEnd : U64) (ahead : cursor < copyEnd) (below : copyEnd ≤ stop)
    (same : copyEnd.val ≤ (cursor.val / source.geometry.framesPerChunk.val + 1) * source.geometry.framesPerChunk.val)
    (held : residents[source.chunkHolding cursor.val]? ≠ none) :
    CopyOutcome pcm residents stop cursor (.ok (source.chunkHolding cursor.val, pcm.frames cursor.val copyEnd.val, copyEnd))

theorem copyFrom_step (resident : pcm.Resident residents) (width : 0 < source.geometry.framesPerChunk.val)
    {stop cursor : U64} (before : cursor < stop) (inside : stop ≤ source.frameCount) :
    CopyOutcome pcm residents stop cursor (copyFrom residents source stop cursor) := by
  have nonzero : source.geometry.framesPerChunk ≠ 0 := by
    intro zero
    rw [zero] at width
    exact absurd width (lt_irrefl 0)
  have indexed : source.geometry.chunkIndex cursor = .ok (source.chunkHolding cursor.val).index := by
    rw [PcmChunkGeometry.chunkIndex, if_neg nonzero]
    rfl
  rcases PcmChunkGeometry.chunkSpan_holding (before.trans_le inside) width with ⟨far, failed⟩ | ⟨span, near, made, startVal, stopVal⟩
  · have stopped : copyFrom residents source stop cursor = .error (.error .arithmeticOverflow) := by
      rw [copyFrom, indexed]
      change (lift (source.chunkKey (source.chunkHolding cursor.val).index) >>= _) = _
      rw [chunkKey]
      change (lift (source.geometry.chunkSpan (Fin.ofNat _ (cursor.val / source.geometry.framesPerChunk.val)) _ >>= _) >>= _) = _
      rw [failed]
      rfl
    rw [stopped]
    exact .overflow far
  · cases held : residents[source.chunkHolding cursor.val]? with
    | none =>
      have stopped : copyFrom residents source stop cursor = .error (.error (.missingChunk (source.chunkHolding cursor.val).index)) := by
        have keyed : lift (source.chunkKey (source.chunkHolding cursor.val).index) = .ok (source.chunkHolding cursor.val) := by
          rw [chunkKey]
          change lift (source.geometry.chunkSpan (Fin.ofNat _ (cursor.val / source.geometry.framesPerChunk.val)) _ >>= _) = _
          rw [made]
          rfl
        rw [copyFrom, indexed]
        change (lift (source.chunkKey (source.chunkHolding cursor.val).index) >>= _) = _
        rw [keyed]
        dsimp only [bind, Except.bind]
        rw [held]
      rw [stopped]
      exact .missing _ held
    | some chunk =>
      have cuts := resident _ _ held
      obtain rfl : span = chunk.span := Except.ok.inj (made.symm.trans cuts.span)
      have started : cursor.val / source.geometry.framesPerChunk.val * source.geometry.framesPerChunk.val ≤ cursor.val := div_mul_le_self _ _
      have within : cursor.val < (cursor.val / source.geometry.framesPerChunk.val + 1) * source.geometry.framesPerChunk.val :=
        lt_mul_of_div_lt (lt_succ_self _) width
      have next : (cursor.val / source.geometry.framesPerChunk.val + 1) * source.geometry.framesPerChunk.val =
          cursor.val / source.geometry.framesPerChunk.val * source.geometry.framesPerChunk.val + source.geometry.framesPerChunk.val :=
        succ_mul _ _
      have inStream : cursor.val < source.frameCount.val := before.trans_le inside
      have ahead : cursor < min stop chunk.span.stop := by
        rw [lt_min_iff, Fin.lt_def (b := chunk.span.stop), stopVal, lt_min_iff]
        exact ⟨before, within, inStream⟩
      rw [copyFrom_chunk nonzero held cuts]
      · refine .copied _ ahead (min_le_left _ _) ?_ (by rw [held]; exact Option.some_ne_none _)
        have below : (min stop chunk.span.stop).val ≤ chunk.span.stop.val := min_le_right stop chunk.span.stop
        omega
      · rw [Fin.le_def, startVal]
        exact started
      · exact ahead
      · omega
      · rw [Fin.le_def, stopVal]
        exact min_le_right _ _

inductive ReadOutcome (pcm : Pcm source) (residents : ExtTreeMap (PcmChunkKey D) (PcmChunk D)) (stop cursor : U64) (output : List Float32) :
    Reading → Prop where
  | overflow (frame : Nat) (after : cursor.val ≤ frame) (before : frame < stop.val) (far : ¬ source.geometry.EndsWithin frame) :
    ReadOutcome pcm residents stop cursor output (.returned (.error (.error .arithmeticOverflow)))
  | missing (index : U64) (frame : Nat) (after : cursor.val ≤ frame) (before : frame < stop.val)
    (absent : residents[source.chunkHolding frame]? = none) :
    ReadOutcome pcm residents stop cursor output (.returned (.error (.error (.missingChunk index))))
  | complete (held : ∀ frame, cursor.val ≤ frame → frame < stop.val → residents[source.chunkHolding frame]? ≠ none) :
    ReadOutcome pcm residents stop cursor output (.returned (.ok (output ++ pcm.frames cursor.val stop.val)))

theorem readFrom_outcome (resident : pcm.Resident residents) (width : 0 < source.geometry.framesPerChunk.val) {stop : U64}
    (inside : stop ≤ source.frameCount) (fuel : Nat) (cursor : U64) (output : List Float32) (ordered : cursor ≤ stop)
    (enough : stop.val - cursor.val < fuel) :
    ReadOutcome pcm residents stop cursor output (readFrom residents source stop fuel cursor output).2 := by
  induction fuel generalizing cursor output with
  | zero => exact absurd enough (not_lt_zero _)
  | succ fuel shorter =>
    unfold readFrom
    split
    · rename_i reached
      obtain rfl : cursor = stop := le_antisymm ordered reached
      have nothing : ReadOutcome pcm residents cursor cursor output _ := .complete fun frame after before => absurd after (not_le.mpr before)
      rwa [pcm.frames_self, append_nil] at nothing
    · rename_i unread
      have before : cursor < stop := not_le.mp unread
      have step := copyFrom_step resident width before inside
      generalize copyFrom residents source stop cursor = result at step
      cases step with
      | overflow far => exact .overflow cursor.val le_rfl before far
      | missing index absent => exact .missing index cursor.val le_rfl before absent
      | copied copyEnd ahead below same held =>
        have further : cursor.val < copyEnd.val := ahead
        have started : cursor.val < stop.val := before
        have rest := shorter copyEnd (output ++ pcm.frames cursor.val copyEnd.val) below (by omega)
        dsimp only
        generalize (readFrom residents source stop fuel copyEnd (output ++ pcm.frames cursor.val copyEnd.val)).2 = result at rest
        cases rest with
        | overflow frame after before far => exact .overflow frame (further.le.trans after) before far
        | missing index frame after before absent => exact .missing index frame (further.le.trans after) before absent
        | complete later =>
          rw [append_assoc, pcm.frames_append ahead.le below]
          refine .complete fun frame after before => ?_
          by_cases here : frame < copyEnd.val
          · rw [chunkHolding_eq after (here.trans_le same)]
            exact held
          · exact later frame (not_lt.mp here) before

variable {frameCount relativeStart : U64} {slice : VirtualSliceRef D} {store : BoundedMediaStore D}

section

variable (valid : slice.Valid)
  (inside : relativeStart.val + frameCount.val ≤ slice.range.stop.val - slice.range.start.val)
include valid inside

theorem reads_inside :
    store.reads slice relativeStart frameCount =
      if 0x10000000000000000 ≤ frameCount.val * slice.source.geometry.channels.val then ([], .returned (.error (.error .arithmeticOverflow)))
      else if isizeMax < frameCount.val * slice.source.geometry.channels.val * sampleSize then ([], .returned (.error .panic))
      else readFrom store.residents slice.source (slice.part relativeStart frameCount).range.stop 0x10000000000000000
        (slice.part relativeStart frameCount).range.start [] := by
  have bounded := slice.range.stop.isLt
  have length : (slice.range.stop - slice.range.start).val = slice.range.stop.val - slice.range.start.val :=
    Fin.sub_val_of_le valid.ordered.le
  have fits : relativeStart.val + frameCount.val < 0x10000000000000000 := by omega
  have within : ¬ slice.range.stop - slice.range.start < (⟨relativeStart.val + frameCount.val, fits⟩ : U64) := by
    rw [Fin.lt_def, length]
    exact not_lt.mpr inside
  rw [reads, dif_pos fits]
  dsimp only
  rw [if_neg within, interleavedSamples]
  by_cases counted : frameCount.val * slice.source.geometry.channels.val < 0x10000000000000000
  · rw [if_pos counted, if_neg (not_le.mpr counted)]
    rfl
  · rw [if_neg counted, if_pos (not_lt.mp counted)]

theorem readSlice_outcome {pcm : Pcm slice.source} (resident : pcm.Resident store.residents)
    (reserved : frameCount.val * slice.source.geometry.channels.val * sampleSize ≤ isizeMax) :
    ReadOutcome pcm store.residents (slice.part relativeStart frameCount).range.stop (slice.part relativeStart frameCount).range.start []
      (store.readSlice slice relativeStart frameCount).2 := by
  obtain ⟨startVal, stopVal⟩ := valid.part_val inside
  have ordered : slice.range.start.val < slice.range.stop.val := valid.ordered
  have inStream : slice.range.stop.val ≤ slice.source.frameCount.val := valid.inside
  have bounded := slice.range.stop.isLt
  have counted : ¬ 0x10000000000000000 ≤ frameCount.val * slice.source.geometry.channels.val := by
    rw [sampleSize, isizeMax] at reserved
    omega
  rw [readSlice, reads_inside valid inside, if_neg counted, if_neg (not_lt.mpr reserved)]
  refine readFrom_outcome resident valid.width_pos ?_ _ _ _ ?_ ?_
  · rw [Fin.le_def, stopVal]
    omega
  · rw [Fin.le_def, startVal, stopVal]
    omega
  · omega

theorem readSlice_ends {pcm : Pcm slice.source} (resident : pcm.Resident store.residents) :
    (store.readSlice slice relativeStart frameCount).2 ≠ .diverges := by
  by_cases reserved : frameCount.val * slice.source.geometry.channels.val * sampleSize ≤ isizeMax
  · have outcome := readSlice_outcome valid inside resident reserved
    intro diverging
    rw [diverging] at outcome
    cases outcome
  · rw [readSlice, reads_inside valid inside]
    split
    · exact fun diverging => nomatch diverging
    · rw [if_pos (not_le.mp reserved)]
      exact fun diverging => nomatch diverging

end

/-- A slice read does what a read of the whole stream would: it ends, it gives the samples of the frames asked for
    when their chunks are resident, and it fails for a missing chunk exactly when one of them is. -/
structure ReadsFlat {slice : VirtualSliceRef D} (store : BoundedMediaStore D) (pcm : Pcm slice.source) (relativeStart frameCount : U64) : Prop where
  ends : (store.readSlice slice relativeStart frameCount).2 ≠ .diverges
  samples : (∀ key ∈ (slice.part relativeStart frameCount).coveringChunks, store.residents[key]? ≠ none) →
    (store.readSlice slice relativeStart frameCount).2 = .returned (.ok (pcm.frames (slice.range.start.val + relativeStart.val)
      (slice.range.start.val + relativeStart.val + frameCount.val)))
  missing : (∃ index, (store.readSlice slice relativeStart frameCount).2 = .returned (.error (.error (.missingChunk index)))) ↔
    ∃ frame, slice.range.start.val + relativeStart.val ≤ frame ∧ frame < slice.range.start.val + relativeStart.val + frameCount.val ∧
      store.residents[slice.source.chunkHolding frame]? = none

/-- A read of more samples than can be counted is refused. Any other whose output can be reserved and whose chunks
    all end below the last 64-bit number reads as the whole stream does. -/
theorem read_slice_flat {store : BoundedMediaStore D} {slice : VirtualSliceRef D} {pcm : Pcm slice.source} (valid : slice.Valid)
    (resident : pcm.Resident store.residents) {relativeStart frameCount : U64}
    (inside : relativeStart.val + frameCount.val ≤ slice.range.stop.val - slice.range.start.val) :
    (store.readSlice slice relativeStart frameCount).2 ≠ .diverges ∧
    (0x10000000000000000 ≤ frameCount.val * slice.source.geometry.channels.val →
      (store.readSlice slice relativeStart frameCount).2 = .returned (.error (.error .arithmeticOverflow))) ∧
    (frameCount.val * slice.source.geometry.channels.val * sampleSize ≤ isizeMax →
      (∀ frame, slice.range.start.val + relativeStart.val ≤ frame →
        frame < slice.range.start.val + relativeStart.val + frameCount.val → slice.source.geometry.EndsWithin frame) →
      ReadsFlat store pcm relativeStart frameCount) := by
  obtain ⟨startVal, stopVal⟩ := valid.part_val inside
  have terminates := readSlice_ends valid inside resident
  refine ⟨terminates, fun uncounted => ?_, fun reserved ends => ?_⟩
  · rw [readSlice, reads_inside valid inside, if_pos uncounted]
  · have outcome := readSlice_outcome valid inside resident reserved
    refine ⟨terminates, ?_, ?_⟩ <;> generalize (store.readSlice slice relativeStart frameCount).2 = result at outcome ⊢
    · intro covered
      cases outcome with
      | overflow frame after before far => exact absurd (ends frame (startVal ▸ after) (stopVal ▸ before)) far
      | missing index frame after before absent =>
        have nonempty : (slice.part relativeStart frameCount).range.start < (slice.part relativeStart frameCount).range.stop :=
          Fin.lt_def.mpr (after.trans_lt before)
        have width : 0 < (slice.part relativeStart frameCount).source.geometry.framesPerChunk.val := valid.width_pos
        exact absurd absent (covered _ ((VirtualSliceRef.mem_coveringChunks width nonempty).mpr ⟨frame, after, before, rfl⟩))
      | complete held => rw [startVal, stopVal, List.nil_append]
    · cases outcome with
      | overflow frame after before far => exact absurd (ends frame (startVal ▸ after) (stopVal ▸ before)) far
      | missing index frame after before absent =>
        rw [startVal] at after
        rw [stopVal] at before
        exact iff_of_true ⟨index, rfl⟩ ⟨frame, after, before, absent⟩
      | complete held =>
        rw [startVal, stopVal] at held
        refine iff_of_false ?_ ?_
        · rintro ⟨index, missing⟩
          cases missing
        · rintro ⟨frame, after, before, absent⟩
          exact held frame after before absent

end Reads

def sixFrames : DecodedPcmDescriptor Nat := ⟨⟨1⟩, ⟨48000, 1, 4⟩, 6⟩

def sixSamples : Pcm sixFrames := ⟨[0, 1, 2, 3, 4, 5], by decide⟩

def sixChunk (index : U64) (span : FrameSpan) : PcmChunk Nat :=
  ⟨⟨⟨1⟩, ⟨48000, 1, 4⟩, index⟩, span, sixSamples.frames span.start.val span.stop.val, ⟨⟨⟨1⟩, ⟨48000, 1, 4⟩, index⟩, 2, []⟩⟩

def sixStore : BoundedMediaStore Nat where
  memory := .new 1000
  diskTier := .new 1000
  residents := (ExtTreeMap.empty.insert ⟨⟨1⟩, ⟨48000, 1, 4⟩, 0⟩ (sixChunk 0 ⟨0, 4⟩)).insert ⟨⟨1⟩, ⟨48000, 1, 4⟩, 1⟩ (sixChunk 1 ⟨4, 6⟩)
  disk := ∅
  leases := ∅
  pinCounts := ∅
  nextLease := 1

def sixSlice : VirtualSliceRef Nat := ⟨sixFrames, ⟨1, 6⟩⟩

theorem sixSlice_valid : sixSlice.Valid := ⟨rfl, rfl, rfl, rfl⟩

theorem sixStore_resident : sixSamples.Resident sixStore.residents := by
  intro index chunk held
  simp only [sixStore, ExtTreeMap.getElem?_insert] at held
  split at held
  · rename_i same
    cases held
    have last : (1 : U64) = index := congrArg PcmChunkKey.index (compare_eq_iff_eq.mp same)
    subst last
    exact ⟨rfl, rfl⟩
  · split at held
    · rename_i same
      cases held
      have first : (0 : U64) = index := congrArg PcmChunkKey.index (compare_eq_iff_eq.mp same)
      subst first
      exact ⟨rfl, rfl⟩
    · rw [ExtTreeMap.empty_eq_emptyc, ExtTreeMap.getElem?_empty] at held
      cases held

/-- A read from the end of one chunk into the next. -/
theorem six_read_flat : (sixStore.readSlice sixSlice 1 3).2 = .returned (.ok [2, 3, 4]) := by
  have inside : (1 : U64).val + (3 : U64).val ≤ sixSlice.range.stop.val - sixSlice.range.start.val := by decide
  have flat := (read_slice_flat sixSlice_valid sixStore_resident inside).2.2 (by decide) ?_
  · exact flat.samples (by decide +kernel)
  · intro frame after before
    have bounded : frame < 5 := before
    rw [PcmChunkGeometry.EndsWithin]
    change (frame / 4 + 1) * 4 < _
    omega

/-- A stereo stream of more samples than can be counted. -/
def vastFrames : DecodedPcmDescriptor Nat := ⟨⟨1⟩, ⟨48000, 2, 4⟩, 0x8000000000000000⟩

def vastSlice : VirtualSliceRef Nat := ⟨vastFrames, ⟨0, 0x8000000000000000⟩⟩

def silence : Pcm vastSlice.source := ⟨List.replicate 0x10000000000000000 0, List.length_replicate⟩

def emptyStore : BoundedMediaStore Nat := ⟨.new 1000, .new 1000, ∅, ∅, ∅, ∅, 1⟩

/-- With nothing resident, the read of the whole stream does not report a missing chunk. -/
theorem vast_read_refused : vastSlice.Valid ∧ silence.Resident emptyStore.residents ∧
    ¬ ReadsFlat emptyStore silence 0 0x8000000000000000 := by
  refine ⟨⟨rfl, rfl, rfl, rfl⟩, ?_, ?_⟩
  · intro index chunk held
    rw [emptyStore, ExtTreeMap.getElem?_empty] at held
    cases held
  · intro flat
    have absent : ∃ frame, 0 ≤ frame ∧ frame < 0x8000000000000000 ∧ emptyStore.residents[vastFrames.chunkHolding frame]? = none :=
      ⟨0, le_rfl, by decide, ExtTreeMap.getElem?_empty⟩
    obtain ⟨index, missing⟩ := flat.missing.mpr absent
    have refused : (emptyStore.readSlice vastSlice 0 0x8000000000000000).2 = .returned (.error (.error .arithmeticOverflow)) := rfl
    rw [refused] at missing
    cases missing

end Audec.Media

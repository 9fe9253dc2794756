import Audec.Arrangement.Valid
import Audec.Lib.Coalesce

/-! The audio clips of a render schedule: where they are in their sources, which source frames a window reads for
    them, and which it demands of the media beforehand. -/

open Machine Checked
open Std (ExtTreeMap)

namespace Audec.DawRender

open Arrangement

structure RenderWindow where
  start : Frame
  stop : Frame
  deriving DecidableEq

namespace RenderWindow

def intersects (window other : RenderWindow) : Prop := window.start < other.stop ∧ other.start < window.stop

instance (window other : RenderWindow) : Decidable (window.intersects other) := inferInstanceAs (Decidable (_ ∧ _))

def intersection (window other : RenderWindow) : Option RenderWindow :=
  let start := max window.start other.start
  let stop := min window.stop other.stop
  if start < stop then some ⟨start, stop⟩ else none

/-- `start..end` -/
def frames (window : RenderWindow) : List Int :=
  (List.range (window.stop.val - window.start.val).toNat).map fun index : Nat => window.start.val + index

end RenderWindow

structure CompiledAudioClip where
  id : ClipId
  track : TrackId
  placement : RenderWindow
  asset : AssetId
  sourceStart : U64
  sourceEnd : U64
  ratioSourceFrames : U64
  ratioProjectFrames : U64
  reverse : Bool
  channels : ChannelMapping
  loopMode : AudioLoopMode
  renderable : Bool

structure RenderSchedule where
  window : RenderWindow
  sampleRate : U32
  audioClips : List CompiledAudioClip

def unity : StretchRatio := ⟨1, 1⟩

def supportedPcmTransform (audio : AudioRegion) : Bool × Option String :=
  if !audio.playback.warpMarkers.isEmpty then (false, some "warp-marker DSP is not implemented")
  else if audio.playback.pitchSemitones != 0.0 then (false, some "pitch-shift DSP is not implemented")
  else if audio.playback.ratio = unity then (true, none)
  else if audio.playback.algorithm = .resample ∧ audio.playback.preservePitch = false then (true, none)
  else (false, some "pitch-preserving time-stretch DSP is not implemented")

def compileClip (window : RenderWindow) (trackAudible : Bool) (trackId : TrackId) (clip : Clip) : Option CompiledAudioClip :=
  if clip.muted || !trackAudible then none
  else
    let placement : RenderWindow := ⟨clip.placement.start, clip.placement.stop⟩
    if ¬ placement.intersects window then none
    else
      match clip.content with
      | .audio audio => some
          { id := clip.id, track := trackId, placement := placement, asset := audio.asset,
            sourceStart := audio.source.start, sourceEnd := audio.source.stop,
            ratioSourceFrames := audio.playback.ratio.sourceFrames,
            ratioProjectFrames := audio.playback.ratio.projectFrames,
            reverse := audio.playback.reverse, channels := audio.channels, loopMode := audio.loopMode,
            renderable := (supportedPcmTransform audio).1 }
      | _ => none

def clipsOnTrack (arrangement : ArrangementState) (track : Track) : List Clip :=
  track.clipIds.filterMap (arrangement.clips[·]?)

def compileTrack (arrangement : ArrangementState) (window : RenderWindow) (anyTrackSolo : Bool) (trackId : TrackId)
    (track : Track) : List CompiledAudioClip :=
  let trackAudible := !track.muted && (!anyTrackSolo || track.solo)
  (clipsOnTrack arrangement track).filterMap (compileClip window trackAudible trackId)

inductive CompileError where
  | emptyWindow (start stop : Frame)
  | arrangement (error : ArrangementError)

def compileRenderSchedule (arrangement : ArrangementState) (window : RenderWindow) : Except CompileError RenderSchedule := do
  ensure (window.start < window.stop) (.emptyWindow window.start window.stop)
  arrangement.validate.mapError .arrangement
  let anyTrackSolo := arrangement.tracks.toList.any fun entry => entry.2.solo
  let clips := arrangement.trackOrder.flatMap fun trackId =>
    arrangement.tracks[trackId]?.toList.flatMap (compileTrack arrangement window anyTrackSolo trackId)
  return { window := window, sampleRate := arrangement.sampleRate,
           audioClips := clips.insertionSort fun a b =>
             toLex (a.placement.start, toLex (a.track, a.id)) ≤ toLex (b.placement.start, toLex (b.track, b.id)) }

/-- A floating-point quantity taken exactly: a rational, or not a number. -/
abbrev Quantity := Option ℚ

/-- `x % d` for an `x` that is not negative: not a number where the divisor is zero. -/
def remainder (x d : ℚ) : Quantity := if d = 0 then none else some (x - d * ⌊x / d⌋)

/-- `floor() as u64`: zero for what is not a number. -/
def floorFrame : Quantity → Nat
  | none => 0
  | some x => min ⌊x⌋.toNat 0xffffffffffffffff

def saturatingAdd (a b : Nat) : Nat := min (a + b) 0xffffffffffffffff

def reflectReversePosition (first last position : ℚ) : ℚ := first + last - position

def clamp (lower upper x : ℚ) : ℚ := if x < lower then lower else if upper < x then upper else x

namespace CompiledAudioClip

section

variable (clip : CompiledAudioClip)

/-- The position of the source that loops of the clip bring `absolute` to. -/
def looped (absolute : ℚ) : Quantity :=
  match clip.loopMode with
  | .off => some absolute
  | .forward range =>
    if absolute < range.start.val then some absolute
    else (remainder (absolute - range.start.val) range.len).map fun phase => range.start.val + phase
  | .pingPong range =>
    if absolute < range.start.val then some absolute
    else
      let span : Nat := range.len - 1
      if span = 0 then some range.start.val
      else (remainder (absolute - range.start.val) (2 * span)).map fun phase : ℚ =>
        range.start.val + if phase ≤ span then phase else 2 * span - phase

def first : ℚ := clip.sourceStart.val

def last : ℚ := clip.sourceEnd.val - 1

def relative (projectOffset : Nat) : ℚ :=
  projectOffset * clip.ratioSourceFrames.val / clip.ratioProjectFrames.val

def sourcePosition (projectOffset : Nat) : Option Quantity :=
  if clip.sourceEnd < clip.sourceStart then none
  else if (clip.sourceEnd.val - clip.sourceStart.val : ℚ) ≤ clip.relative projectOffset then none
  else
    let absolute := clip.looped (clip.sourceStart.val + clip.relative projectOffset)
    let absolute := if clip.reverse then absolute.map (reflectReversePosition clip.first clip.last) else absolute
    some (absolute.map (clamp clip.first clip.last))

/-- `(project_frame - placement.start) as u64` -/
def projectOffset (projectFrame : Int) : Nat :=
  ((projectFrame - clip.placement.start.val) % 0x10000000000000000).toNat

def positionAt (projectFrame : Int) : Option Quantity :=
  clip.sourcePosition (clip.projectOffset projectFrame)

end

end CompiledAudioClip

structure AudioFormat where
  sampleRate : U32
  channels : Fin 0x10000
  audible : channels ≠ 0

structure MediaAssetDescriptor where
  format : AudioFormat
  frameCount : U64

inductive MediaReadFailure where
  | unknownAsset | frameUnavailable | frameOutsideAsset | channelOutsideAsset

structure MediaReadError where
  asset : AssetId
  frame : Nat
  channel : Fin 0x10000
  failure : MediaReadFailure

structure MediaBlockProvider where
  descriptor : AssetId → Option MediaAssetDescriptor
  sample : AssetId → Nat → Fin 0x10000 → Except MediaReadError Float32

def validChannelMap (mapping : ChannelMapping) (format : AudioFormat) : Prop :=
  match mapping with
  | .all | .monoSum => True
  | .channels selected => ∀ channel ∈ selected, channel < format.channels
  | .mid | .side => 2 ≤ format.channels.val

instance : ∀ (mapping : ChannelMapping) (format : AudioFormat), Decidable (validChannelMap mapping format)
  | .all, _ | .monoSum, _ => .isTrue trivial
  | .channels selected, format => inferInstanceAs (Decidable (∀ channel ∈ selected, channel < format.channels))
  | .mid, format | .side, format => inferInstanceAs (Decidable (2 ≤ format.channels.val))

def invalidReason (render : RenderSchedule) (clip : CompiledAudioClip) (descriptor : MediaAssetDescriptor) : Option String :=
  if descriptor.format.sampleRate ≠ render.sampleRate then some "asset and project sample rates differ"
  else if descriptor.frameCount < clip.sourceEnd ∨ ¬ validChannelMap clip.channels descriptor.format then
    some "source range or channel map exceeds the asset"
  else none

inductive RenderDiagnostic where
  | missingAsset (clip : ClipId) (asset : AssetId)
  | invalidAssetFormat (clip : ClipId) (asset : AssetId) (reason : String)

/-- What the graph compiler reports of the clips against a table of descriptors. -/
def mediaDiagnostics (render : RenderSchedule) (descriptors : AssetId → Option MediaAssetDescriptor) : List RenderDiagnostic :=
  (render.audioClips.filter (·.renderable)).filterMap fun clip =>
    match descriptors clip.asset with
    | none => some (.missingAsset clip.id clip.asset)
    | some descriptor => (invalidReason render clip descriptor).map (.invalidAssetFormat clip.id clip.asset)

def upperNeighbour (descriptor : MediaAssetDescriptor) (lower : Nat) : Nat :=
  min (saturatingAdd lower 1) (descriptor.frameCount.val - 1)

def channelsRead (mapping : ChannelMapping) (sourceChannels : Fin 0x10000) : List (Fin 0x10000) :=
  match mapping with
  | .all => if sourceChannels = 1 then [0] else [0, 1]
  | .channels [] => []
  | .channels [only] => [only]
  | .channels (left :: right :: _) => [left, right]
  | .monoSum => (List.range sourceChannels.val).map (Fin.ofNat 0x10000)
  | .mid | .side => [0, 1]

def readSourceStereoFromProvider (provider : MediaBlockProvider) (asset : AssetId) (descriptor : MediaAssetDescriptor)
    (mapping : ChannelMapping) (position : Quantity) : Except MediaReadError (List (Float32 × Float32)) :=
  let lower := floorFrame position
  let upper := upperNeighbour descriptor lower
  (channelsRead mapping descriptor.format.channels).mapM fun channel => do
    -- an error names the position whose reconstruction failed
    let first ← (provider.sample asset lower channel).mapError fun error => { error with frame := lower }
    let second ← (provider.sample asset upper channel).mapError fun error => { error with frame := lower }
    return (first, second)

structure MediaRenderReport where
  unavailableSourceFrames : Nat
  firstError : Option MediaReadError

def MediaRenderReport.empty : MediaRenderReport := ⟨0, none⟩

namespace CompiledAudioClip

def readFrame (clip : CompiledAudioClip) (descriptor : MediaAssetDescriptor) (provider : MediaBlockProvider)
    (report : MediaRenderReport) (projectFrame : Int) : MediaRenderReport :=
  match clip.positionAt projectFrame with
  | none => report
  | some position =>
    match readSourceStereoFromProvider provider clip.asset descriptor clip.channels position with
    | .ok _ => report
    | .error error =>
      { unavailableSourceFrames := saturatingAdd report.unavailableSourceFrames 1,
        firstError := report.firstError.orElse fun _ => some error }

def renderFromProviderInto (clip : CompiledAudioClip) (descriptor : MediaAssetDescriptor) (provider : MediaBlockProvider)
    (window : RenderWindow) : MediaRenderReport :=
  match clip.placement.intersection window with
  | none => .empty
  | some overlap => overlap.frames.foldl (clip.readFrame descriptor provider) .empty

end CompiledAudioClip

structure MediaBlockDemand where
  asset : AssetId
  startFrame : Nat
  endFrame : Nat
  ordered : startFrame < endFrame

inductive MediaPreparationError where
  | invalidDemand (asset : AssetId) (startFrame endFrame : Nat)

namespace MediaBlockDemand

def new (asset : AssetId) (startFrame endFrame : Nat) : Except MediaPreparationError MediaBlockDemand :=
  if ordered : startFrame < endFrame then .ok ⟨asset, startFrame, endFrame, ordered⟩
  else .error (.invalidDemand asset startFrame endFrame)

def extend (demand : MediaBlockDemand) (endFrame : Nat) : MediaBlockDemand :=
  ⟨demand.asset, demand.startFrame, max demand.endFrame endFrame, lt_max_of_lt_left demand.ordered⟩

def ranges : Coalesce.Ranges MediaBlockDemand AssetId Nat where
  key := asset
  start := startFrame
  stop := endFrame
  extend := extend
  extend_key _ _ := rfl
  extend_start _ _ := rfl
  extend_stop _ _ := rfl

def sortKey (demand : MediaBlockDemand) : AssetId ×ₗ Nat ×ₗ Nat :=
  toLex (demand.asset, toLex (demand.startFrame, demand.endFrame))

end MediaBlockDemand

namespace CompiledAudioClip

section

variable (clip : CompiledAudioClip)

def spanDemand (first last : Quantity) : Except MediaPreparationError MediaBlockDemand :=
  let start := floorFrame (Option.merge min first last)
  let stop := saturatingAdd (max (floorFrame (Option.merge max first last)) start) 2
  MediaBlockDemand.new clip.asset (max start clip.sourceStart.val) (min stop clip.sourceEnd.val)

def frameDemand (position : Quantity) : Except MediaPreparationError MediaBlockDemand :=
  let start := floorFrame position
  MediaBlockDemand.new clip.asset start (min (saturatingAdd start 2) clip.sourceEnd.val)

def demandsOver (overlap : RenderWindow) : List MediaBlockDemand :=
  match clip.loopMode with
  | .off =>
    match clip.positionAt overlap.start.val, clip.positionAt (overlap.stop.val - 1) with
    | some first, some last => (clip.spanDemand first last).toOption.toList
    | _, _ => []
  | .forward _ | .pingPong _ =>
    overlap.frames.flatMap fun projectFrame =>
      (clip.positionAt projectFrame).toList.flatMap fun position => (clip.frameDemand position).toOption.toList

def demandsFor (window : RenderWindow) : List MediaBlockDemand :=
  match clip.placement.intersection window with
  | none => []
  | some overlap => clip.demandsOver overlap

end

end CompiledAudioClip

def mediaDemandsForWindow (schedule : RenderSchedule) (window : RenderWindow) : List MediaBlockDemand :=
  let clips := schedule.audioClips.filter fun clip => clip.renderable ∧ clip.placement.intersects window
  let demands := clips.flatMap (·.demandsFor window)
  MediaBlockDemand.ranges.merge (demands.insertionSort fun a b => a.sortKey ≤ b.sortKey)

end Audec.DawRender

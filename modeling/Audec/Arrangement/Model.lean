import Audec.Lib.Machine
import Audec.Lib.Checked
import Audec.Lib.PartialEquality

/-! The persistent arrangement: tracks, clips, order and markers, with the checks of
    `ArrangementState::validate`. -/

open Machine Checked
open Std (ExtTreeMap)

namespace Audec.Arrangement

inductive IdKind where
  | track | clip | asset | pattern | parameter

/-- The identifiers of the `typed_id!` macro. -/
structure TypedId (kind : IdKind) where
  raw : U64
  deriving DecidableEq

namespace TypedId

variable {kind : IdKind}

theorem raw_injective : Function.Injective (fun id : TypedId kind => id.raw) := by
  rintro ⟨a⟩ ⟨b⟩ same
  cases same
  rfl

instance linearOrder : LinearOrder (TypedId kind) := LinearOrder.lift' (fun id => id.raw) raw_injective

instance transOrd : Std.TransOrd (TypedId kind) := inferInstance

instance lawfulEqOrd : Std.LawfulEqOrd (TypedId kind) := ⟨compare_eq_iff_eq.mp⟩

end TypedId

abbrev TrackId := TypedId .track
abbrev ClipId := TypedId .clip
abbrev AssetId := TypedId .asset
abbrev PatternId := TypedId .pattern
abbrev ParameterId := TypedId .parameter

/-- A signed project-frame coordinate. -/
abbrev Frame := I64

structure FrameRange where
  start : Frame
  stop : Frame
  deriving DecidableEq

namespace FrameRange

/-- `end.saturating_sub(start) as u64`: a reversed range wraps. -/
def len (range : FrameRange) : Nat :=
  ((I64.saturatingSub range.stop range.start).val % 0x10000000000000000).toNat

def intersects (range other : FrameRange) : Prop :=
  range.start < other.stop ∧ other.start < range.stop

instance (range other : FrameRange) : Decidable (range.intersects other) :=
  inferInstanceAs (Decidable (_ ∧ _))

end FrameRange

structure SourceRange where
  start : U64
  stop : U64
  deriving DecidableEq

/-- `end - start` with release arithmetic. -/
def SourceRange.len (range : SourceRange) : Nat := (range.stop - range.start).val

inductive TrackKind where
  | audio | pattern | automation | hybrid | group
  deriving DecidableEq

inductive OverlapPolicy where
  | mix | reject | crossfade
  deriving DecidableEq

/-- A 24-bit colour as persisted, before its range is checked. -/
structure Rgb where
  raw : U32
  deriving DecidableEq

def Rgb.isValid (color : Rgb) : Prop := color.raw.val ≤ 0x00ffffff

instance (color : Rgb) : Decidable color.isValid := inferInstanceAs (Decidable (_ ≤ _))

structure Track where
  id : TrackId
  name : String
  kind : TrackKind
  overlap : OverlapPolicy
  clipIds : List ClipId
  muted : Bool
  solo : Bool
  locked : Bool
  gainDb : Float32
  pan : Float32
  color : Option Rgb
  deriving BEq

structure Marker where
  name : String
  deriving DecidableEq

namespace Marker

def maxNameChars : Nat := 64

/-- The characters `str::trim` removes: Unicode `White_Space`. -/
def isWhitespace (c : Char) : Bool :=
  let code := c.toNat
  (0x9 ≤ code && code ≤ 0xd) || code == 0x20 || code == 0x85 || code == 0xa0 || code == 0x1680 ||
    (0x2000 ≤ code && code ≤ 0x200a) || code == 0x2028 || code == 0x2029 || code == 0x202f ||
    code == 0x205f || code == 0x3000

def isControl (c : Char) : Bool := c.toNat < 0x20 || (0x7f ≤ c.toNat && c.toNat ≤ 0x9f)

def trim (name : List Char) : List Char :=
  ((name.dropWhile isWhitespace).reverse.dropWhile isWhitespace).reverse

def isValid (marker : Marker) : Bool :=
  let trimmed := trim marker.name.toList
  !trimmed.isEmpty && trimmed.length ≤ maxNameChars && !marker.name.toList.any isControl

end Marker

inductive StretchAlgorithm where
  | resample | preservePitch | phaseVocoder | granular
  | external (plugin : U32)
  deriving DecidableEq

structure StretchRatio where
  sourceFrames : U64
  projectFrames : U64
  deriving DecidableEq

structure WarpMarker where
  projectOffset : U64
  sourceFrame : U64
  deriving DecidableEq

structure PlaybackTransform where
  ratio : StretchRatio
  preservePitch : Bool
  pitchSemitones : Float
  reverse : Bool
  algorithm : StretchAlgorithm
  warpMarkers : List WarpMarker
  deriving BEq

inductive FadeCurve where
  | linear | equalPower | smoothStep
  deriving DecidableEq

structure Fade where
  duration : U64
  curve : FadeCurve
  phaseStart : Float
  phaseEnd : Float
  deriving BEq

structure ClipFades where
  fadeIn : Option Fade
  fadeOut : Option Fade
  deriving BEq

inductive ChannelMapping where
  | all
  | channels (selected : List (Fin (0x10000)))
  | monoSum | mid | side
  deriving DecidableEq

inductive AudioLoopMode where
  | off
  | forward (range : SourceRange)
  | pingPong (range : SourceRange)
  deriving DecidableEq

structure AudioRegion where
  asset : AssetId
  source : SourceRange
  playback : PlaybackTransform
  channels : ChannelMapping
  loopMode : AudioLoopMode
  deriving BEq

structure PatternRegion where
  pattern : PatternId
  contentOffsetFrames : U64
  looped : Bool
  deriving DecidableEq

structure AutomationRegion where
  parameter : ParameterId
  contentOffsetFrames : U64
  looped : Bool
  deriving DecidableEq

inductive ClipContent where
  | audio (region : AudioRegion)
  | pattern (region : PatternRegion)
  | automation (region : AutomationRegion)
  deriving BEq

def ClipContent.kind : ClipContent → TrackKind
  | .audio _ => .audio
  | .pattern _ => .pattern
  | .automation _ => .automation

structure Clip where
  id : ClipId
  trackId : TrackId
  name : String
  placement : FrameRange
  content : ClipContent
  fades : ClipFades
  gainDb : Float32
  muted : Bool
  locked : Bool
  deriving BEq

/-- The key by which a track lists its clips. -/
def Clip.position (clip : Clip) : Frame ×ₗ ClipId := toLex (clip.placement.start, clip.id)

inductive ArrangementError where
  | emptyTransaction | emptyOperation
  | staleOperation (label : String)
  | missingTrack (track : TrackId)
  | lockedClip (clip : ClipId)
  | warpedEditRequiresCompiler | invalidTrim | invalidSplit
  | idOverflow | timeOverflow | revisionOverflow
  | unsupportedSchema (version : U32)
  | invalidSampleRate | invalidIdCounter
  | invalidOrder (label : String)
  | invalidMarker (frame : Frame)
  | invalidTrack (track : TrackId)
  | missingClip (clip : ClipId)
  | overlap (track : TrackId) (first second : ClipId)
  | invalidClip (clip : ClipId)
  | incompatibleTrack (track : TrackId) (clip : ClipId)
  | invalidFade | invalidStretch | nonIntegralSourceBoundary | sourceDurationMismatch
  | invalidWarpMarkers | invalidAudioLoop | invalidChannelMapping
  deriving DecidableEq

structure ArrangementState where
  schemaVersion : U32
  sampleRate : U32
  tracks : ExtTreeMap TrackId Track
  clips : ExtTreeMap ClipId Clip
  trackOrder : List TrackId
  nextTrackId : U64
  nextClipId : U64
  markers : ExtTreeMap Frame Marker

end Audec.Arrangement

open Machine Checked FloatEquality

namespace Audec.Arrangement

def StretchRatio.sourceOffset (ratio : StretchRatio) (projectOffset : Nat) : Except ArrangementError Nat := do
  let numerator := projectOffset * ratio.sourceFrames.val
  let denominator := ratio.projectFrames.val
  ensure (numerator % denominator = 0) .nonIntegralSourceBoundary
  ensure (numerator / denominator < 0x10000000000000000) .timeOverflow
  return numerator / denominator

def validateOrder {α : Type} [DecidableEq α] (order expected : List α) (label : String) :
    Except ArrangementError Unit :=
  ensure (order.toFinset = expected.toFinset ∧ order.toFinset.card = order.length) (.invalidOrder label)

def validateWarpMarkers (audio : AudioRegion) (placementLen : Nat) :
    Option U64 → List WarpMarker → Except ArrangementError Unit
  | _, [] => .ok ()
  | previous, marker :: markers => do
    ensure (marker.projectOffset.val ≤ placementLen ∧ audio.source.start ≤ marker.sourceFrame ∧
      marker.sourceFrame ≤ audio.source.stop ∧ ∀ prior ∈ previous, prior < marker.projectOffset)
      .invalidWarpMarkers
    validateWarpMarkers audio placementLen (some marker.projectOffset) markers

def validateLoop (source : SourceRange) : AudioLoopMode → Except ArrangementError Unit
  | .off => .ok ()
  | .forward range | .pingPong range =>
    ensure (source.start ≤ range.start ∧ range.stop ≤ source.stop) .invalidAudioLoop

def validateChannels : ChannelMapping → Except ArrangementError Unit
  | .channels selected =>
    ensure (selected ≠ [] ∧ selected.toFinset.card = selected.length) .invalidChannelMapping
  | _ => .ok ()

def validateAudio (audio : AudioRegion) (placementLen : Nat) : Except ArrangementError Unit := do
  ensure (audio.playback.pitchSemitones.isFinite = true ∧ audio.playback.ratio.sourceFrames ≠ 0 ∧
    audio.playback.ratio.projectFrames ≠ 0) .invalidStretch
  let mapped ← audio.playback.ratio.sourceOffset placementLen
  ensure (mapped = audio.source.len) .sourceDurationMismatch
  validateWarpMarkers audio placementLen none audio.playback.warpMarkers
  validateLoop audio.source audio.loopMode
  validateChannels audio.channels

def validateContent (content : ClipContent) (placementLen : Nat) : Except ArrangementError Unit :=
  match content with
  | .audio audio => validateAudio audio placementLen
  | _ => .ok ()

def validateFade (clipLen : Nat) (fade : Fade) : Except ArrangementError Unit :=
  ensure (fade.duration ≠ 0 ∧ fade.duration.val ≤ clipLen ∧ fade.phaseStart.isFinite = true ∧
    fade.phaseEnd.isFinite = true ∧ (0.0 ≤ fade.phaseStart ∧ fade.phaseStart ≤ 1.0) ∧
    (0.0 ≤ fade.phaseEnd ∧ fade.phaseEnd ≤ 1.0) ∧ ¬ fade.phaseEnd ≤ fade.phaseStart) .invalidFade

def validateFades (fades : ClipFades) (clipLen : Nat) : Except ArrangementError Unit :=
  (fades.fadeIn.toList ++ fades.fadeOut.toList).forM (validateFade clipLen)

def validDb (value : Float32) : Prop := value.isFinite = true ∧ -144.0 ≤ value ∧ value ≤ 48.0

instance (value : Float32) : Decidable (validDb value) := inferInstanceAs (Decidable (_ ∧ _))

namespace ArrangementState

def currentSchemaVersion : U32 := 1

def listedClips (clips : ExtTreeMap ClipId Clip) (track : TrackId) : List ClipId :=
  ((clips.toList.map Prod.snd).filter (·.trackId = track)).map Clip.id

def validateNeighbours (id : TrackId) (track : Track) (clip : Clip) : Option Clip → Except ArrangementError Unit
  | none => .ok ()
  | some prior => do
    ensure (prior.position ≤ clip.position) (.invalidOrder "track clip index")
    ensure (¬ (track.overlap = .reject ∧ prior.placement.intersects clip.placement))
      (.overlap id prior.id clip.id)

def validateIndex (state : ArrangementState) (id : TrackId) (track : Track) :
    Option Clip → List ClipId → Except ArrangementError Unit
  | _, [] => .ok ()
  | previous, clipId :: rest =>
    match state.clips[clipId]? with
    | none => .error (.missingClip clipId)
    | some clip => do
      validateNeighbours id track clip previous
      validateIndex state id track (some clip) rest

section

variable (state : ArrangementState)

def validateTrack (id : TrackId) (track : Track) : Except ArrangementError Unit := do
  ensure (id = track.id ∧ validDb track.gainDb ∧ (-1.0 ≤ track.pan ∧ track.pan ≤ 1.0) ∧
    ∀ color ∈ track.color, color.isValid) (.invalidTrack id)
  validateOrder track.clipIds (listedClips state.clips id) "track clip index"
  validateIndex state id track none track.clipIds

def validateClip (id : ClipId) (clip : Clip) : Except ArrangementError Unit :=
  match state.tracks[clip.trackId]? with
  | none => .error (.invalidClip id)
  | some track => do
    ensure (id = clip.id) (.invalidClip id)
    ensure (validDb clip.gainDb) (.invalidClip id)
    ensure (track.kind = .hybrid ∨ track.kind = clip.content.kind) (.incompatibleTrack clip.trackId id)
    validateFades clip.fades clip.placement.len
    validateContent clip.content clip.placement.len

def validate : Except ArrangementError Unit := do
  ensure (state.schemaVersion = currentSchemaVersion) (.unsupportedSchema state.schemaVersion)
  ensure (state.sampleRate ≠ 0) .invalidSampleRate
  validateOrder state.trackOrder state.tracks.keys "track order"
  ensure (state.nextTrackId ≠ 0 ∧ state.nextClipId ≠ 0 ∧
    (∀ id ∈ state.tracks.keys, id.raw ≠ 0 ∧ id.raw < state.nextTrackId) ∧
    (∀ id ∈ state.clips.keys, id.raw ≠ 0 ∧ id.raw < state.nextClipId)) .invalidIdCounter
  state.markers.toList.forM fun entry => ensure (entry.2.isValid = true) (.invalidMarker entry.1)
  state.tracks.toList.forM fun entry => state.validateTrack entry.1 entry.2
  state.clips.toList.forM fun entry => state.validateClip entry.1 entry.2

end

end ArrangementState

end Audec.Arrangement

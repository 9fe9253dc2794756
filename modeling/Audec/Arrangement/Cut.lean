import Audec.Arrangement.Editor

/-! Trimming and splitting a clip. -/

open Machine Checked

namespace Audec.Arrangement

/-- `last.saturating_sub(first) as u64`. -/
def framesBetween (first last : Frame) : U64 :=
  ⟨((I64.saturatingSub last first).val % 0x10000000000000000).toNat, by omega⟩

namespace FrameRange

def contains (range : FrameRange) (frame : Frame) : Prop := range.start ≤ frame ∧ frame < range.stop

instance (range : FrameRange) (frame : Frame) : Decidable (range.contains frame) :=
  inferInstanceAs (Decidable (_ ∧ _))

/-- The placement's length as the edits measure it. -/
def measured (range : FrameRange) : U64 := framesBetween range.start range.stop

theorem measured_val (range : FrameRange) : range.measured.val = range.len := rfl

end FrameRange

def checkedAdd (value : U64) (delta : Nat) : Except ArrangementError U64 :=
  if fits : value.val + delta < 0x10000000000000000 then .ok ⟨value.val + delta, fits⟩ else .error .timeOverflow

def checkedSub (value : U64) (delta : Nat) : Except ArrangementError U64 :=
  if delta ≤ value.val then .ok ⟨value.val - delta, by omega⟩ else .error .timeOverflow

def rejectWarped (audio : AudioRegion) : Except ArrangementError Unit :=
  ensure (audio.playback.warpMarkers.isEmpty = true) .warpedEditRequiresCompiler

def advanceContent (projectDelta : U64) : ClipContent → Except ArrangementError ClipContent
  | .audio audio => do
    rejectWarped audio
    let sourceDelta ← audio.playback.ratio.sourceOffset projectDelta.val
    ensure (sourceDelta < audio.source.len) .invalidTrim
    if audio.playback.reverse then
      let stop ← checkedSub audio.source.stop sourceDelta
      return .audio { audio with source := { audio.source with stop } }
    else
      let start ← checkedAdd audio.source.start sourceDelta
      return .audio { audio with source := { audio.source with start } }
  | .pattern region => do
    let contentOffsetFrames ← checkedAdd region.contentOffsetFrames projectDelta.val
    return .pattern { region with contentOffsetFrames }
  | .automation region => do
    let contentOffsetFrames ← checkedAdd region.contentOffsetFrames projectDelta.val
    return .automation { region with contentOffsetFrames }

def retreatContentEnd (projectDelta : U64) : ClipContent → Except ArrangementError ClipContent
  | .audio audio => do
    rejectWarped audio
    let sourceDelta ← audio.playback.ratio.sourceOffset projectDelta.val
    ensure (sourceDelta < audio.source.len) .invalidTrim
    if audio.playback.reverse then
      let start ← checkedAdd audio.source.start sourceDelta
      return .audio { audio with source := { audio.source with start } }
    else
      let stop ← checkedSub audio.source.stop sourceDelta
      return .audio { audio with source := { audio.source with stop } }
  | content => .ok content

def splitContent (projectOffset : U64) : ClipContent → Except ArrangementError (ClipContent × ClipContent)
  | .audio original => do
    rejectWarped original
    let sourceOffset ← original.playback.ratio.sourceOffset projectOffset.val
    if original.playback.reverse then
      let boundary := original.source.stop - Fin.ofNat _ sourceOffset
      return (.audio { original with source := { original.source with start := boundary } },
        .audio { original with source := { original.source with stop := boundary } })
    else
      let boundary := original.source.start + Fin.ofNat _ sourceOffset
      return (.audio { original with source := { original.source with stop := boundary } },
        .audio { original with source := { original.source with start := boundary } })
  | content => do
    let right ← advanceContent projectOffset content
    return (content, right)

/-- An `f64` holding a count, rounded to the nearest. -/
def asFloat (count : U64) : Float := Float.ofNat count.val

def lerp (left right amount : Float) : Float := left + (right - left) * amount

def splitFadeIn (leftLen : U64) (fade : Fade) : Option Fade × Option Fade :=
  if fade.duration ≤ leftLen then (some fade, none)
  else
    let fraction := asFloat leftLen / asFloat fade.duration
    let phase := lerp fade.phaseStart fade.phaseEnd fraction
    (some { fade with duration := leftLen, phaseEnd := phase },
      some { fade with duration := fade.duration - leftLen, phaseStart := phase })

def splitFadeOut (total leftLen : U64) (fade : Fade) : Option Fade × Option Fade :=
  let fadeStart := total - fade.duration
  if leftLen ≤ fadeStart then (none, some fade)
  else
    let elapsed := leftLen - fadeStart
    let fraction := asFloat elapsed / asFloat fade.duration
    let phase := lerp fade.phaseStart fade.phaseEnd fraction
    (some { fade with duration := fade.duration - (total - leftLen), phaseEnd := phase },
      some { fade with duration := total - leftLen, phaseStart := phase })

def cutFade (cut : Fade → Option Fade × Option Fade) (fade : Option Fade) : Option Fade × Option Fade :=
  fade.elim (none, none) cut

def splitFades (fades : ClipFades) (total leftLen : U64) : ClipFades × ClipFades :=
  let fadeIn := cutFade (splitFadeIn leftLen) fades.fadeIn
  let fadeOut := cutFade (splitFadeOut total leftLen) fades.fadeOut
  (⟨fadeIn.1, fadeOut.1⟩, ⟨fadeIn.2, fadeOut.2⟩)

def trimFadesLeft (fades : ClipFades) (total removed : U64) : ClipFades := (splitFades fades total removed).2

def trimFadesRight (fades : ClipFades) (total removed : U64) : ClipFades :=
  (splitFades fades total (total - removed)).1

namespace ArrangementState

section

variable (state : ArrangementState)

def requireTrack (id : TrackId) : Except ArrangementError Track :=
  match state.tracks[id]? with
  | some track => .ok track
  | none => .error (.missingTrack id)

def requireClip (id : ClipId) : Except ArrangementError Clip :=
  match state.clips[id]? with
  | some clip => .ok clip
  | none => .error (.missingClip id)

def editableClip (id : ClipId) : Except ArrangementError Clip := do
  let clip ← state.requireClip id
  ensure (clip.locked = false) (.lockedClip id)
  let track ← state.requireTrack clip.trackId
  ensure (track.locked = false) (.lockedClip id)
  return clip

def allocateClipId : Except ArrangementError ClipId :=
  match checkedSucc state.nextClipId with
  | some _ => .ok ⟨state.nextClipId⟩
  | none => .error .idOverflow

def trimmedLeft (id : ClipId) (newStart : Frame) : Except ArrangementError (Clip × Clip) := do
  let before ← state.editableClip id
  ensure (¬ (newStart < before.placement.start ∨ before.placement.stop ≤ newStart)) .invalidTrim
  let delta := framesBetween before.placement.start newStart
  let content ← advanceContent delta before.content
  return (before, { before with
    placement := { before.placement with start := newStart }
    content
    fades := trimFadesLeft before.fades before.placement.measured delta })

def trimmedRight (id : ClipId) (newEnd : Frame) : Except ArrangementError (Clip × Clip) := do
  let before ← state.editableClip id
  ensure (¬ (newEnd ≤ before.placement.start ∨ before.placement.stop < newEnd)) .invalidTrim
  let removed := framesBetween newEnd before.placement.stop
  let content ← retreatContentEnd removed before.content
  return (before, { before with
    placement := { before.placement with stop := newEnd }
    content
    fades := trimFadesRight before.fades before.placement.measured removed })

def halves (id : ClipId) (boundary : Frame) :
    Except ArrangementError (Clip × Clip × Clip) := do
  let before ← state.editableClip id
  ensure (¬ (¬ before.placement.contains boundary ∨ boundary = before.placement.start)) .invalidSplit
  let leftLen := framesBetween before.placement.start boundary
  let rightId ← state.allocateClipId
  let contents ← splitContent leftLen before.content
  let fades := splitFades before.fades before.placement.measured leftLen
  return (before,
    { before with
      placement := { before.placement with stop := boundary }
      content := contents.1
      fades := fades.1 },
    { before with
      id := rightId
      placement := { before.placement with start := boundary }
      content := contents.2
      fades := fades.2 })

end

end ArrangementState

namespace ArrangementEditor

section

variable (editor : ArrangementEditor)

def replaceClip (label : String) (before after : Clip) :
    ArrangementEditor × Except (Stop ArrangementError) Unit :=
  let applied := editor.apply ⟨label, [.putClip (some before) (some after)]⟩
  (applied.1, applied.2.map fun _ => ())

def trimLeft (id : ClipId) (newStart : Frame) :
    ArrangementEditor × Except (Stop ArrangementError) Unit :=
  match editor.state.trimmedLeft id newStart with
  | .error error => (editor, .error (.error error))
  | .ok (before, after) => editor.replaceClip "Trim clip left" before after

def trimRight (id : ClipId) (newEnd : Frame) :
    ArrangementEditor × Except (Stop ArrangementError) Unit :=
  match editor.state.trimmedRight id newEnd with
  | .error error => (editor, .error (.error error))
  | .ok (before, after) => editor.replaceClip "Trim clip right" before after

/-- The right half gets a fresh identity, which is returned. -/
def splitClip (id : ClipId) (boundary : Frame) :
    ArrangementEditor × Except (Stop ArrangementError) ClipId :=
  match editor.state.halves id boundary with
  | .error error => (editor, .error (.error error))
  | .ok (before, left, right) =>
    let applied := editor.apply ⟨"Split clip", [.putClip (some before) (some left), .putClip none (some right)]⟩
    (applied.1, applied.2.map fun _ => right.id)

end

end ArrangementEditor

end Audec.Arrangement

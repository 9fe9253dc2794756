import Audec.Arrangement.Editor
import Audec.Lib.GuardedStore

/-! The arrangement's content as a keyed store, and its operations as guarded puts on that store. -/

open Machine Checked OrderedKeys FloatEquality GuardedStore Std.ExtTreeMap Option
open Std (ExtTreeMap)

namespace Audec.Arrangement

theorem Track.beq_iff (a b : Track) : (a == b) = true ↔ a.id = b.id ∧ a.name = b.name ∧ a.kind = b.kind ∧
    a.overlap = b.overlap ∧ a.clipIds = b.clipIds ∧ a.muted = b.muted ∧ a.solo = b.solo ∧
    a.locked = b.locked ∧ (a.gainDb == b.gainDb) = true ∧ (a.pan == b.pan) = true ∧ a.color = b.color := by
  cases a
  cases b
  change instBEqTrack.beq _ _ = true ↔ _
  simp [instBEqTrack.beq]

theorem PlaybackTransform.beq_iff (a b : PlaybackTransform) : (a == b) = true ↔ a.ratio = b.ratio ∧
    a.preservePitch = b.preservePitch ∧ (a.pitchSemitones == b.pitchSemitones) = true ∧
    a.reverse = b.reverse ∧ a.algorithm = b.algorithm ∧ a.warpMarkers = b.warpMarkers := by
  cases a
  cases b
  change instBEqPlaybackTransform.beq _ _ = true ↔ _
  simp [instBEqPlaybackTransform.beq]

theorem Fade.beq_iff (a b : Fade) : (a == b) = true ↔ a.duration = b.duration ∧ a.curve = b.curve ∧
    (a.phaseStart == b.phaseStart) = true ∧ (a.phaseEnd == b.phaseEnd) = true := by
  cases a
  cases b
  change instBEqFade.beq _ _ = true ↔ _
  simp [instBEqFade.beq]

theorem ClipFades.beq_iff (a b : ClipFades) : (a == b) = true ↔ (a.fadeIn == b.fadeIn) = true ∧
    (a.fadeOut == b.fadeOut) = true := by
  cases a
  cases b
  change instBEqClipFades.beq _ _ = true ↔ _
  simp [instBEqClipFades.beq]

theorem AudioRegion.beq_iff (a b : AudioRegion) : (a == b) = true ↔ a.asset = b.asset ∧
    a.source = b.source ∧ (a.playback == b.playback) = true ∧ a.channels = b.channels ∧
    a.loopMode = b.loopMode := by
  cases a
  cases b
  change instBEqAudioRegion.beq _ _ = true ↔ _
  simp [instBEqAudioRegion.beq]

theorem Clip.beq_iff (a b : Clip) : (a == b) = true ↔ a.id = b.id ∧ a.trackId = b.trackId ∧ a.name = b.name ∧
    a.placement = b.placement ∧ (a.content == b.content) = true ∧ (a.fades == b.fades) = true ∧
    (a.gainDb == b.gainDb) = true ∧ a.muted = b.muted ∧ a.locked = b.locked := by
  cases a
  cases b
  change instBEqClip.beq _ _ = true ↔ _
  simp [instBEqClip.beq]

instance : PartialEquivBEq Track where
  symm same := by
    rw [Track.beq_iff] at same ⊢
    grind [BEq.symm]
  trans first second := by
    rw [Track.beq_iff] at first second ⊢
    grind [BEq.trans]

instance : PartialEquivBEq PlaybackTransform where
  symm same := by
    rw [PlaybackTransform.beq_iff] at same ⊢
    grind [BEq.symm]
  trans first second := by
    rw [PlaybackTransform.beq_iff] at first second ⊢
    grind [BEq.trans]

instance : PartialEquivBEq Fade where
  symm same := by
    rw [Fade.beq_iff] at same ⊢
    grind [BEq.symm]
  trans first second := by
    rw [Fade.beq_iff] at first second ⊢
    grind [BEq.trans]

instance : PartialEquivBEq ClipFades where
  symm same := by
    rw [ClipFades.beq_iff] at same ⊢
    exact ⟨BEq.symm same.1, BEq.symm same.2⟩
  trans first second := by
    rw [ClipFades.beq_iff] at first second ⊢
    exact ⟨BEq.trans first.1 second.1, BEq.trans first.2 second.2⟩

instance : PartialEquivBEq AudioRegion where
  symm same := by
    rw [AudioRegion.beq_iff] at same ⊢
    grind [BEq.symm]
  trans first second := by
    rw [AudioRegion.beq_iff] at first second ⊢
    grind [BEq.trans]

instance : PartialEquivBEq ClipContent where
  symm {a b} same := by
    cases a <;> cases b
    case audio.audio a b => exact BEq.symm (α := AudioRegion) same
    case pattern.pattern a b => exact BEq.symm (α := PatternRegion) same
    case automation.automation a b => exact BEq.symm (α := AutomationRegion) same
    all_goals cases same
  trans {a b c} first second := by
    cases a <;> cases b <;> cases c
    case audio.audio.audio a b c => exact BEq.trans (α := AudioRegion) first second
    case pattern.pattern.pattern a b c => exact BEq.trans (α := PatternRegion) first second
    case automation.automation.automation a b c => exact BEq.trans (α := AutomationRegion) first second
    all_goals try cases first
    all_goals cases second

instance : PartialEquivBEq Clip where
  symm same := by
    rw [Clip.beq_iff] at same ⊢
    grind [BEq.symm]
  trans first second := by
    rw [Clip.beq_iff] at first second ⊢
    grind [BEq.trans]

inductive ContentKey where
  | track (id : TrackId)
  | clip (id : ClipId)
  | order
  | marker (frame : Frame)
  deriving DecidableEq

abbrev ContentValue : ContentKey → Type
  | .track _ => Option Track
  | .clip _ => Option Clip
  | .order => List TrackId
  | .marker _ => Option Marker

instance : (key : ContentKey) → BEq (ContentValue key)
  | .track _ => inferInstanceAs (BEq (Option Track))
  | .clip _ => inferInstanceAs (BEq (Option Clip))
  | .order => inferInstanceAs (BEq (List TrackId))
  | .marker _ => inferInstanceAs (BEq (Option Marker))

instance : (key : ContentKey) → PartialEquivBEq (ContentValue key)
  | .track _ => inferInstanceAs (PartialEquivBEq (Option Track))
  | .clip _ => inferInstanceAs (PartialEquivBEq (Option Clip))
  | .order => inferInstanceAs (PartialEquivBEq (List TrackId))
  | .marker _ => inferInstanceAs (PartialEquivBEq (Option Marker))

abbrev ContentStore : Type := (key : ContentKey) → ContentValue key

namespace ArrangementState

def content (state : ArrangementState) : ContentStore
  | .track id => state.tracks[id]?
  | .clip id => state.clips[id]?
  | .order => state.trackOrder
  | .marker frame => state.markers[frame]?

/-- Equal content, in the sense of the derived `PartialEq`. -/
def SameContent (state other : ArrangementState) : Prop :=
  ∀ key, (state.content key == other.content key) = true

theorem SameContent.symm {state other : ArrangementState} (same : SameContent state other) :
    SameContent other state := fun key => BEq.symm (same key)

theorem SameContent.trans {state middle other : ArrangementState} (first : SameContent state middle)
    (second : SameContent middle other) : SameContent state other :=
  fun key => BEq.trans (first key) (second key)

end ArrangementState

namespace ArrangementOperation

def put : ArrangementOperation → Option (Put ContentKey ContentValue)
  | .putTrack before after => (before.or after).map fun probe => ⟨.track probe.id, before, after⟩
  | .putClip before after => (before.or after).map fun probe => ⟨.clip probe.id, before, after⟩
  | .setTrackOrder before after => some ⟨.order, before, after⟩
  | .putMarker frame before after =>
    if before.isNone && after.isNone then none else some ⟨.marker frame, before, after⟩

def KeepsIdentity : ArrangementOperation → Prop
  | .putTrack (some before) (some after) => before.id = after.id
  | .putClip (some before) (some after) => before.id = after.id
  | _ => True

/-- The identity written leaves room for the next one. -/
def Representable : ArrangementOperation → Prop
  | .putTrack _ (some after) => after.id.raw.val + 1 < 0x10000000000000000
  | .putClip _ (some after) => after.id.raw.val + 1 < 0x10000000000000000
  | _ => True

theorem put_inverse {operation : ArrangementOperation} (keeps : operation.KeepsIdentity) :
    operation.inverse.put = operation.put.map Put.inverse := by
  cases operation with
  | putTrack before after =>
    cases before <;> cases after <;> simp_all [put, inverse, Put.inverse, KeepsIdentity]
  | putClip before after =>
    cases before <;> cases after <;> simp_all [put, inverse, Put.inverse, KeepsIdentity]
  | setTrackOrder before after => rfl
  | putMarker frame before after =>
    cases before <;> cases after <;> simp [put, inverse, Put.inverse]

theorem checkExisting_ok {α : Type} [BEq α] {label : String} {before after : Option α} {lookup : α → Option α}
    {probe : α} : checkExisting label before after lookup = .ok probe ↔
      before.or after = some probe ∧ (lookup probe == before) = true := by
  unfold checkExisting
  cases before.or after with
  | none => simp
  | some found =>
    simp only [bind_unit_ok, ensure_ok, some.injEq, pure, Except.pure, Except.ok.injEq]
    constructor
    · rintro ⟨ready, rfl⟩
      exact ⟨rfl, ready⟩
    · rintro ⟨rfl, ready⟩
      exact ⟨ready, rfl⟩

end ArrangementOperation

namespace ArrangementState

section Writes

variable {state result : ArrangementState}

theorem content_write_track {id : TrackId} (before : Option Track) {after : Option Track}
    (tracks : ∀ other, result.tracks[other]? = if id = other then after else state.tracks[other]?)
    (clips : result.clips = state.clips) (order : result.trackOrder = state.trackOrder)
    (markers : result.markers = state.markers) :
    result.content = write ⟨.track id, before, after⟩ state.content := by
  funext key
  cases key with
  | track other =>
    by_cases hit : id = other
    · subst hit
      simp [content, tracks, write]
    · simp [content, tracks, write, Ne.symm hit, hit]
  | clip => simp [content, write, clips]
  | order => simp [content, write, order]
  | marker => simp [content, write, markers]

theorem content_write_clip {id : ClipId} (before : Option Clip) {after : Option Clip}
    (clips : ∀ other, result.clips[other]? = if id = other then after else state.clips[other]?)
    (tracks : result.tracks = state.tracks) (order : result.trackOrder = state.trackOrder)
    (markers : result.markers = state.markers) :
    result.content = write ⟨.clip id, before, after⟩ state.content := by
  funext key
  cases key with
  | clip other =>
    by_cases hit : id = other
    · subst hit
      simp [content, clips, write]
    · simp [content, clips, write, Ne.symm hit, hit]
  | track => simp [content, write, tracks]
  | order => simp [content, write, order]
  | marker => simp [content, write, markers]

theorem content_write_marker {frame : Frame} (before : Option Marker) {after : Option Marker}
    (markers : ∀ other, result.markers[other]? = if frame = other then after else state.markers[other]?)
    (tracks : result.tracks = state.tracks) (clips : result.clips = state.clips)
    (order : result.trackOrder = state.trackOrder) :
    result.content = write ⟨.marker frame, before, after⟩ state.content := by
  funext key
  cases key with
  | marker other =>
    by_cases hit : frame = other
    · subst hit
      simp [content, markers, write]
    · simp [content, markers, write, Ne.symm hit, hit]
  | track => simp [content, write, tracks]
  | clip => simp [content, write, clips]
  | order => simp [content, write, order]

end Writes

/-- What an operation leaves alone: the format, and every identity already handed out. -/
structure Advances (state result : ArrangementState) : Prop where
  schema : result.schemaVersion = state.schemaVersion
  sampleRate : result.sampleRate = state.sampleRate
  trackIds : state.nextTrackId ≤ result.nextTrackId
  clipIds : state.nextClipId ≤ result.nextClipId

/-- A stored entity's identity is one the state has already handed out. -/
def Counted (state : ArrangementState) : (key : ContentKey) → ContentValue key → Prop
  | .track _, some track => track.id.raw < state.nextTrackId
  | .clip _, some clip => clip.id.raw < state.nextClipId
  | _, _ => True

variable {key : ContentKey} {state : ArrangementState}

theorem Counted.congr {value other : ContentValue key}
    (counted : Counted state key value) (same : (value == other) = true) : Counted state key other := by
  cases key with
  | track id =>
    cases value <;> cases other
    · trivial
    · cases same
    · trivial
    · rename_i left right
      rw [some_beq_some, Track.beq_iff] at same
      change right.id.raw < state.nextTrackId
      rw [← same.1]
      exact counted
  | clip id =>
    cases value <;> cases other
    · trivial
    · cases same
    · trivial
    · rename_i left right
      rw [some_beq_some, Clip.beq_iff] at same
      change right.id.raw < state.nextClipId
      rw [← same.1]
      exact counted
  | order => trivial
  | marker => trivial

theorem Counted.mono {value : ContentValue key} {result : ArrangementState}
    (counted : Counted state key value) (advances : Advances state result) : Counted result key value := by
  cases key with
  | track id =>
    cases value with
    | none => trivial
    | some track => exact lt_of_lt_of_le counted advances.trackIds
  | clip id =>
    cases value with
    | none => trivial
    | some clip => exact lt_of_lt_of_le counted advances.clipIds
  | order => trivial
  | marker => trivial

/-- The part of validity that is not about content: the format and the identity counters. -/
structure Header (state : ArrangementState) : Prop where
  schema : state.schemaVersion = currentSchemaVersion
  sampleRate : state.sampleRate ≠ 0
  trackCounter : state.nextTrackId ≠ 0
  clipCounter : state.nextClipId ≠ 0
  counted : ∀ key, Counted state key (state.content key)

end ArrangementState

namespace ArrangementOperation

open ArrangementState

structure Effect (state : ArrangementState) (operation : ArrangementOperation) (result : ArrangementState)
    (put : Put ContentKey ContentValue) : Prop where
  addressed : operation.put = some put
  ready : Ready put state.content
  content : result.content = write put state.content
  representable : operation.Representable
  advances : Advances state result
  counted : Counted result put.key put.after

variable {result state : ArrangementState} {operation : ArrangementOperation}

theorem putTrack_effect {before after : Option Track}
    (done : (putTrack before after).apply state = .ok result) :
    ∃ put, Effect state (.putTrack before after) result put := by
  simp only [apply, bind_ok, checkExisting_ok] at done
  obtain ⟨probe, ⟨found, ready⟩, done⟩ := done
  have addressed : (putTrack before after).put = some ⟨.track probe.id, before, after⟩ := by simp [put, found]
  cases after with
  | none =>
    cases done
    refine ⟨_, addressed, ready, content_write_track _ (fun other => ?_) rfl rfl rfl, trivial,
      ⟨rfl, rfl, le_rfl, le_rfl⟩, trivial⟩
    simp [getElem?_erase]
  | some track =>
    cases fits : checkedSucc track.id.raw with
    | none => simp [fits] at done
    | some next =>
      simp only [fits, pure, Except.pure, Except.ok.injEq] at done
      subst done
      have bound := next.isLt
      rw [checkedSucc_eq_some] at fits
      refine ⟨_, addressed, ready, content_write_track _ (fun other => ?_) rfl rfl rfl, ?_,
        ⟨rfl, rfl, le_max_left _ _, le_rfl⟩, ?_⟩
      · simp [getElem?_insert]
      · rw [Representable]
        omega
      · have above : track.id.raw < next := by
          rw [Fin.lt_def]
          omega
        exact lt_of_lt_of_le above (le_max_right _ _)

theorem putClip_effect {before after : Option Clip}
    (done : (putClip before after).apply state = .ok result) :
    ∃ put, Effect state (.putClip before after) result put := by
  simp only [apply, bind_ok, checkExisting_ok] at done
  obtain ⟨probe, ⟨found, ready⟩, done⟩ := done
  have addressed : (putClip before after).put = some ⟨.clip probe.id, before, after⟩ := by simp [put, found]
  cases after with
  | none =>
    cases done
    refine ⟨_, addressed, ready, content_write_clip _ (fun other => ?_) rfl rfl rfl, trivial,
      ⟨rfl, rfl, le_rfl, le_rfl⟩, trivial⟩
    simp [getElem?_erase]
  | some clip =>
    cases fits : checkedSucc clip.id.raw with
    | none => simp [fits] at done
    | some next =>
      simp only [fits, pure, Except.pure, Except.ok.injEq] at done
      subst done
      have bound := next.isLt
      rw [checkedSucc_eq_some] at fits
      refine ⟨_, addressed, ready, content_write_clip _ (fun other => ?_) rfl rfl rfl, ?_,
        ⟨rfl, rfl, le_rfl, le_max_left _ _⟩, ?_⟩
      · simp [getElem?_insert]
      · rw [Representable]
        omega
      · have above : clip.id.raw < next := by
          rw [Fin.lt_def]
          omega
        exact lt_of_lt_of_le above (le_max_right _ _)

theorem setTrackOrder_effect {before after : List TrackId}
    (done : (setTrackOrder before after).apply state = .ok result) :
    ∃ put, Effect state (.setTrackOrder before after) result put := by
  simp only [apply, bind_unit_ok, ensure_ok] at done
  obtain ⟨held, done⟩ := done
  cases done
  refine ⟨⟨.order, before, after⟩, rfl, beq_iff_eq.mpr held, ?_, trivial, ⟨rfl, rfl, le_rfl, le_rfl⟩, trivial⟩
  funext key
  cases key <;> simp [ArrangementState.content, write]

theorem putMarker_effect {frame : Frame} {before after : Option Marker}
    (done : (putMarker frame before after).apply state = .ok result) :
    ∃ put, Effect state (.putMarker frame before after) result put := by
  simp only [apply, bind_unit_ok, ensure_ok] at done
  obtain ⟨present, held, done⟩ := done
  have addressed : (putMarker frame before after).put = some ⟨.marker frame, before, after⟩ := by
    simpa [put] using present
  cases after with
  | none =>
    cases done
    refine ⟨_, addressed, beq_iff_eq.mpr held, content_write_marker _ (fun other => ?_) rfl rfl rfl, trivial,
      ⟨rfl, rfl, le_rfl, le_rfl⟩, trivial⟩
    simp [getElem?_erase]
  | some marker =>
    cases done
    refine ⟨_, addressed, beq_iff_eq.mpr held, content_write_marker _ (fun other => ?_) rfl rfl rfl, trivial,
      ⟨rfl, rfl, le_rfl, le_rfl⟩, trivial⟩
    simp [getElem?_insert]

variable {put : Put ContentKey ContentValue}

theorem Effect.header
    (effect : Effect state operation result put) (header : Header state) :
    Header result := by
  have trackRoom := effect.advances.trackIds
  have clipRoom := effect.advances.clipIds
  refine ⟨?_, ?_, fun zero => ?_, fun zero => ?_, fun key => ?_⟩
  · rw [effect.advances.schema, header.schema]
  · rw [effect.advances.sampleRate]
    exact header.sampleRate
  · rw [zero] at trackRoom
    exact header.trackCounter (le_antisymm trackRoom (Fin.zero_le _))
  · rw [zero] at clipRoom
    exact header.clipCounter (le_antisymm clipRoom (Fin.zero_le _))
  · rw [effect.content]
    by_cases hit : key = put.key
    · subst hit
      rw [write_key]
      exact effect.counted
    · rw [write_other _ _ hit]
      exact (header.counted key).mono effect.advances

theorem apply_effect
    (done : operation.apply state = .ok result) : ∃ put, Effect state operation result put := by
  cases operation with
  | putTrack => exact putTrack_effect done
  | putClip => exact putClip_effect done
  | setTrackOrder => exact setTrackOrder_effect done
  | putMarker => exact putMarker_effect done

theorem apply_of_ready
    (addressed : operation.put = some put) (ready : Ready put state.content)
    (representable : operation.Representable) : ∃ result, operation.apply state = .ok result := by
  cases operation with
  | putTrack before after =>
    simp only [ArrangementOperation.put, map_eq_some_iff] at addressed
    obtain ⟨probe, found, rfl⟩ := addressed
    have checked : checkExisting "track" before after (fun track => state.tracks[track.id]?) = .ok probe :=
      checkExisting_ok.mpr ⟨found, ready⟩
    cases after with
    | none => exact ⟨_, by simp only [apply, checked]; rfl⟩
    | some track =>
      have fits : checkedSucc track.id.raw = some ⟨track.id.raw.val + 1, representable⟩ :=
        checkedSucc_eq_some.mpr rfl
      exact ⟨_, by simp only [apply, checked, fits]; rfl⟩
  | putClip before after =>
    simp only [ArrangementOperation.put, map_eq_some_iff] at addressed
    obtain ⟨probe, found, rfl⟩ := addressed
    have checked : checkExisting "clip" before after (fun clip => state.clips[clip.id]?) = .ok probe :=
      checkExisting_ok.mpr ⟨found, ready⟩
    cases after with
    | none => exact ⟨_, by simp only [apply, checked]; rfl⟩
    | some clip =>
      have fits : checkedSucc clip.id.raw = some ⟨clip.id.raw.val + 1, representable⟩ :=
        checkedSucc_eq_some.mpr rfl
      exact ⟨_, by simp only [apply, checked, fits]; rfl⟩
  | setTrackOrder before after =>
    cases addressed
    have held : state.trackOrder = before := beq_iff_eq.mp ready
    exact ⟨_, by simp only [apply, held, ensure, if_true]; rfl⟩
  | putMarker frame before after =>
    by_cases absent : before.isNone = true ∧ after.isNone = true
    · simp [ArrangementOperation.put, absent] at addressed
    · simp only [ArrangementOperation.put, Bool.and_eq_true, absent, if_false, some.injEq] at addressed
      subst addressed
      have held : state.markers[frame]? = before := beq_iff_eq.mp ready
      cases after with
      | none => exact ⟨_, by simp only [apply, ensure, absent, held, not_false_eq_true, if_true]; rfl⟩
      | some marker => exact ⟨_, by simp only [apply, ensure, absent, held, not_false_eq_true, if_true]; rfl⟩

end ArrangementOperation

end Audec.Arrangement

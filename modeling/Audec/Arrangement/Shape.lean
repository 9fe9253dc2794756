import Audec.Arrangement.Valid
import Audec.Lib.Intervals

/-! The documented shape of an arrangement, and which accepted arrangements have it. -/

open Machine Checked OrderedKeys Intervals Std.ExtTreeMap
open Std (ExtTreeMap)

namespace Audec.Arrangement

namespace FrameRange

def Disjoint (range other : FrameRange) : Prop := Intervals.Disjoint range.start range.stop other.start other.stop

def extent (range : FrameRange) : Int := range.stop.val - range.start.val

theorem len_of_fits {range : FrameRange} (ordered : range.start ≤ range.stop) (fits : range.extent < 0x8000000000000000) :
    (range.len : Int) = range.extent := by
  rw [I64.le_iff] at ordered
  unfold extent at fits ⊢
  unfold len I64.saturatingSub
  rw [I64.saturate_val _ (by omega) fits]
  omega

theorem len_of_long {range : FrameRange} (long : 0x8000000000000000 ≤ range.extent) :
    range.len = 0x8000000000000000 - 1 := by
  unfold extent at long
  simp only [len, I64.saturatingSub, I64.saturate]
  omega

end FrameRange

def SourceRange.extent (range : SourceRange) : Int := range.stop.val - range.start.val

theorem SourceRange.len_of_ordered {range : SourceRange} (ordered : range.start ≤ range.stop) :
    (range.len : Int) = range.extent := by
  unfold len extent
  rw [Fin.sub_val_of_le ordered]
  have := Fin.le_def.mp ordered
  omega

namespace ArrangementState

structure Shaped (state : ArrangementState) : Prop where
  /-- Every clip covers a frame. -/
  placements : ∀ (id : ClipId) (clip : Clip), state.clips[id]? = some clip → clip.placement.start < clip.placement.stop
  /-- Every audio source range covers a frame. -/
  sources : ∀ (id : ClipId) (clip : Clip) (region : AudioRegion), state.clips[id]? = some clip →
    clip.content = .audio region → region.source.start < region.source.stop
  /-- The frames of the source are those of the placement times the ratio. -/
  mapped : ∀ (id : ClipId) (clip : Clip) (region : AudioRegion), state.clips[id]? = some clip →
    clip.content = .audio region → region.playback.ratio.projectFrames ≠ 0 ∧
      region.source.extent * region.playback.ratio.projectFrames.val =
        clip.placement.extent * region.playback.ratio.sourceFrames.val
  listed : ∀ (id : ClipId) (clip : Clip), state.clips[id]? = some clip →
    ∃! owner : TrackId, ∃ track : Track, state.tracks[owner]? = some track ∧ id ∈ track.clipIds
  /-- An index names clips in ascending position, each once. -/
  sorted : ∀ (owner : TrackId) (track : Track), state.tracks[owner]? = some track →
    (∀ id ∈ track.clipIds, ∃ clip : Clip, state.clips[id]? = some clip) ∧
      track.clipIds.Pairwise fun a b => clipPosition state.clips a < clipPosition state.clips b
  /-- Two clips of a track that rejects overlaps share no frame. -/
  disjoint : ∀ (owner : TrackId) (track : Track), state.tracks[owner]? = some track → track.overlap = .reject →
    ∀ (a b : ClipId) (clip other : Clip), a ≠ b → state.clips[a]? = some clip → state.clips[b]? = some other →
      clip.trackId = owner → other.trackId = owner → clip.placement.Disjoint other.placement

/-- The ranges that `validate` takes for granted: every placement covers a frame, and a clip of audio has a source
    range that is not reversed and a placement whose length fits a signed integer. -/
def ProperRanges (state : ArrangementState) : Prop :=
  ∀ (id : ClipId) (clip : Clip), state.clips[id]? = some clip → clip.placement.start < clip.placement.stop ∧
    ∀ region, clip.content = .audio region →
      region.source.start ≤ region.source.stop ∧ clip.placement.extent < 0x8000000000000000

variable {owner : TrackId} {state : ArrangementState} {track : Track} {clip : Clip} {id : ClipId}

section

variable (valid : Valid state)
include valid

theorem clipIds_members
    (held : state.tracks[owner]? = some track) (id : ClipId) :
    id ∈ track.clipIds ↔ ∃ clip : Clip, state.clips[id]? = some clip ∧ clip.trackId = owner := by
  have checked := valid.tracks owner track held
  simp only [validateTrack, bind_unit_ok, validateOrder_ok] at checked
  rw [checked.2.1.2, mem_listedClips valid.clipsFiled]

theorem Valid.clip_track
    (held : state.clips[id]? = some clip) : ∃ track, state.tracks[clip.trackId]? = some track := by
  have checked := valid.clips id clip held
  unfold validateClip at checked
  split at checked
  · cases checked
  · exact ⟨_, ‹_›⟩

theorem Valid.listed
    (held : state.clips[id]? = some clip) : ∃! owner : TrackId, ∃ track : Track, state.tracks[owner]? = some track ∧ id ∈ track.clipIds := by
  obtain ⟨track, track'⟩ := valid.clip_track held
  refine ⟨clip.trackId, ⟨track, track', (clipIds_members valid track' id).mpr ⟨clip, held, rfl⟩⟩, ?_⟩
  rintro owner ⟨other, other', inside⟩
  obtain ⟨same, held', placed⟩ := (clipIds_members valid other' id).mp inside
  rw [held] at held'
  cases held'
  exact placed.symm

theorem Valid.sorted
    (held : state.tracks[owner]? = some track) :
    (∀ id ∈ track.clipIds, ∃ clip : Clip, state.clips[id]? = some clip) ∧
      track.clipIds.Pairwise fun a b => clipPosition state.clips a < clipPosition state.clips b := by
  have checked := valid.tracks owner track held
  simp only [validateTrack, bind_unit_ok, validateOrder_ok] at checked
  obtain ⟨-, ⟨once, -⟩, walked⟩ := checked
  have present : ∀ id ∈ track.clipIds, ∃ clip : Clip, state.clips[id]? = some clip := by
    intro id inside
    obtain ⟨clip, held', -⟩ := (clipIds_members valid held id).mp inside
    exact ⟨clip, held'⟩
  refine ⟨present, ?_⟩
  have ascending := List.pairwise_and_iff.mpr ⟨(validateIndex_sorted walked).2, once⟩
  refine ascending.imp_of_mem ?_
  rintro a b inside - ⟨ordered, different⟩
  obtain ⟨clip, held'⟩ := present a inside
  refine lt_of_le_of_ne ordered ?_
  intro same
  exact different (clipPosition_injective valid.clipsFiled held' same)

end

theorem start_le_of_position {a b : Clip} (ordered : a.position ≤ b.position) : a.placement.start ≤ b.placement.start := by
  rcases Prod.Lex.le_iff.mp ordered with before | ⟨same, -⟩
  · exact before.le
  · exact same.le

theorem validateIndex_neighbours
    (rejects : track.overlap = .reject) {previous : Option Clip} {index : List ClipId}
    (checked : state.validateIndex owner track previous index = .ok ()) :
    (previous.toList ++ index.filterMap (state.clips[·]?)).IsChain fun a b =>
      a.placement.start ≤ b.placement.start ∧
        ¬ Meets a.placement.start a.placement.stop b.placement.start b.placement.stop := by
  induction index generalizing previous with
  | nil =>
    cases previous with
    | none => exact List.isChain_nil
    | some prior => exact List.isChain_singleton prior
  | cons clipId rest ih =>
    unfold validateIndex at checked
    cases held : state.clips[clipId]? with
    | none => simp [held] at checked
    | some clip =>
      simp only [held, bind_unit_ok] at checked
      have later := ih checked.2
      rw [List.filterMap_cons_some held]
      cases previous with
      | none => exact later
      | some prior =>
        have ordered := checked.1
        simp only [validateNeighbours, bind_unit_ok, ensure_ok, not_and] at ordered
        exact List.isChain_cons_cons.mpr ⟨⟨start_le_of_position ordered.1, ordered.2 rejects⟩, later⟩

theorem Valid.disjoint (valid : Valid state)
    (nonempty : ∀ (id : ClipId) (clip : Clip), state.clips[id]? = some clip → clip.placement.start < clip.placement.stop)
    (held : state.tracks[owner]? = some track) (rejects : track.overlap = .reject)
    {a b : ClipId} {other : Clip} (different : a ≠ b) (clip' : state.clips[a]? = some clip)
    (other' : state.clips[b]? = some other) (placed : clip.trackId = owner) (placed' : other.trackId = owner) :
    clip.placement.Disjoint other.placement := by
  have checked := valid.tracks owner track held
  simp only [validateTrack, bind_unit_ok] at checked
  have chain := validateIndex_neighbours rejects checked.2.2
  rw [Option.toList_none, List.nil_append] at chain
  have covered : ∀ item ∈ track.clipIds.filterMap (state.clips[·]?), item.placement.start < item.placement.stop := by
    intro item inside
    obtain ⟨id, -, found⟩ := List.mem_filterMap.mp inside
    exact nonempty id item found
  have apart : (track.clipIds.filterMap (state.clips[·]?)).Pairwise fun a b => a.placement.Disjoint b.placement :=
    (pairwise_of_neighbours (fun item : Clip => item.placement.start) (fun item => item.placement.stop)
      covered chain).imp fun before => disjoint_of_le before
  have distinct : clip ≠ other := by
    rintro rfl
    exact different ((valid.clipsFiled a clip clip').symm.trans (valid.clipsFiled b clip other'))
  have first : clip ∈ track.clipIds.filterMap (state.clips[·]?) :=
    List.mem_filterMap.mpr ⟨a, (clipIds_members valid held a).mpr ⟨clip, clip', placed⟩, clip'⟩
  have second : other ∈ track.clipIds.filterMap (state.clips[·]?) :=
    List.mem_filterMap.mpr ⟨b, (clipIds_members valid held b).mpr ⟨other, other', placed'⟩, other'⟩
  have : Std.Symm fun a b : Clip => a.placement.Disjoint b.placement := ⟨fun _ _ => disjoint_symm⟩
  exact apart.forall first second distinct

theorem sourceOffset_ok {ratio : StretchRatio} {offset mapped : Nat} (done : ratio.sourceOffset offset = .ok mapped) :
    mapped * ratio.projectFrames.val = offset * ratio.sourceFrames.val := by
  simp only [StretchRatio.sourceOffset, bind_unit_ok, ensure_ok] at done
  obtain ⟨exact, -, same⟩ := done
  cases same
  exact Nat.div_mul_cancel (Nat.dvd_of_mod_eq_zero exact)

section

variable (valid : Valid state)
include valid

theorem Valid.content
    (held : state.clips[id]? = some clip) : validateContent clip.content clip.placement.len = .ok () := by
  have checked := valid.clips id clip held
  unfold validateClip at checked
  split at checked
  · cases checked
  · simp only [bind_unit_ok] at checked
    exact checked.2.2.2.2

theorem Valid.sourceLength
    {region : AudioRegion} (held : state.clips[id]? = some clip) (audio : clip.content = .audio region) :
    region.playback.ratio.sourceFrames ≠ 0 ∧ region.playback.ratio.projectFrames ≠ 0 ∧
      region.source.len * region.playback.ratio.projectFrames.val =
        clip.placement.len * region.playback.ratio.sourceFrames.val := by
  have checked := valid.content held
  rw [audio] at checked
  rw [validateContent, validateAudio, bind_unit_ok, ensure_ok, bind_ok] at checked
  obtain ⟨⟨-, source, project⟩, mapped, offset, later⟩ := checked
  rw [bind_unit_ok, ensure_ok] at later
  have same := later.1
  refine ⟨source, project, ?_⟩
  rw [← same]
  exact sourceOffset_ok offset

theorem Valid.shaped (proper : ProperRanges state) : Shaped state := by
  have placements : ∀ (id : ClipId) (clip : Clip), state.clips[id]? = some clip →
      clip.placement.start < clip.placement.stop := fun id clip held => (proper id clip held).1
  have mapped : ∀ (id : ClipId) (clip : Clip) (region : AudioRegion), state.clips[id]? = some clip →
      clip.content = .audio region → region.playback.ratio.projectFrames ≠ 0 ∧
        region.source.extent * region.playback.ratio.projectFrames.val =
          clip.placement.extent * region.playback.ratio.sourceFrames.val := by
    intro id clip region held audio
    obtain ⟨covers, ranges⟩ := proper id clip held
    obtain ⟨ordered, fits⟩ := ranges region audio
    obtain ⟨-, project, same⟩ := valid.sourceLength held audio
    refine ⟨project, ?_⟩
    rw [← SourceRange.len_of_ordered ordered, ← FrameRange.len_of_fits covers.le fits]
    exact_mod_cast same
  refine ⟨placements, ?_, mapped, fun id clip held => valid.listed held, fun owner track held => valid.sorted held, ?_⟩
  · intro id clip region held audio
    have source := (valid.sourceLength held audio).1
    have covers := placements id clip held
    have ordered := ((proper id clip held).2 region audio).1
    refine lt_of_le_of_ne ordered ?_
    intro empty
    -- an empty source would make the mapped length zero
    have length := (mapped id clip region held audio).2
    have nothing : region.source.extent = 0 := by
      unfold SourceRange.extent
      rw [empty]
      omega
    rw [nothing, zero_mul, eq_comm, mul_eq_zero] at length
    rw [I64.lt_iff] at covers
    unfold FrameRange.extent at length
    rcases length with none | none
    · omega
    · exact source (Fin.val_eq_zero_iff.mp (by exact_mod_cast none))
  · intro owner track held rejects a b clip other different clip' other' placed placed'
    exact valid.disjoint placements held rejects different clip' other' placed placed'

theorem Shaped.proper (shaped : Shaped state) : ProperRanges state := by
  intro id clip held
  refine ⟨shaped.placements id clip held, ?_⟩
  intro region audio
  have ordered := (shaped.sources id clip region held audio).le
  refine ⟨ordered, ?_⟩
  by_contra long
  push Not at long
  -- a longer placement is measured as the greatest signed integer
  obtain ⟨source, project, measured⟩ := valid.sourceLength held audio
  have exact := (shaped.mapped id clip region held audio).2
  have same : (region.source.len : Int) * region.playback.ratio.projectFrames.val =
      (clip.placement.len : Int) * region.playback.ratio.sourceFrames.val := by exact_mod_cast measured
  rw [SourceRange.len_of_ordered ordered, exact, FrameRange.len_of_long long] at same
  have nonzero : (region.playback.ratio.sourceFrames.val : Int) ≠ 0 := by
    intro zero
    exact source (Fin.val_eq_zero_iff.mp (by exact_mod_cast zero))
  have extent := mul_right_cancel₀ nonzero same
  omega

end

/-- An accepted arrangement has the documented shape exactly when its ranges are proper. -/
theorem validate_shaped_iff {state : ArrangementState} (accepted : state.validate = .ok ()) :
    Shaped state ↔ ProperRanges state := by
  have valid := (validate_ok_iff state).mp accepted
  constructor
  · exact Shaped.proper valid
  · exact valid.shaped

end ArrangementState

def withClip (placement : FrameRange) : ArrangementState where
  schemaVersion := 1
  sampleRate := 48000
  tracks := (∅ : ExtTreeMap TrackId Track).insert ⟨1⟩
    { id := ⟨1⟩, name := "Track", kind := .pattern, overlap := .reject, clipIds := [⟨1⟩], muted := false, solo := false,
      locked := false, gainDb := 0, pan := 0, color := none }
  clips := (∅ : ExtTreeMap ClipId Clip).insert ⟨1⟩
    { id := ⟨1⟩, trackId := ⟨1⟩, name := "Clip", placement := placement,
      content := .pattern { pattern := ⟨1⟩, contentOffsetFrames := 0, looped := false },
      fades := { fadeIn := none, fadeOut := none }, gainDb := 0, muted := false, locked := false }
  trackOrder := [⟨1⟩]
  nextTrackId := 2
  nextClipId := 2
  markers := ∅

def oneFrame : FrameRange := ⟨I64.zero, ⟨1, by decide, by decide⟩⟩

theorem one_frame_clip_shaped : (withClip oneFrame).validate = .ok () ∧ (withClip oneFrame).Shaped := by
  have accepted : (withClip oneFrame).validate = .ok () := by decide
  refine ⟨accepted, (ArrangementState.validate_shaped_iff accepted).mpr ?_⟩
  intro id clip held
  have only : clip.placement = oneFrame ∧ ∀ region, clip.content ≠ .audio region := by
    rw [withClip, ExtTreeMap.getElem?_insert] at held
    split at held
    · cases held
      exact ⟨rfl, fun _ => nofun⟩
    · rw [ExtTreeMap.getElem?_empty] at held
      cases held
  rw [only.1]
  exact ⟨by decide, fun region audio => absurd audio (only.2 region)⟩

/-- A clip that covers no frame is accepted. -/
theorem empty_clip_accepted : ¬ ∀ state : ArrangementState, state.validate = .ok () → state.Shaped := by
  intro always
  have accepted : (withClip ⟨I64.zero, I64.zero⟩).validate = .ok () := by decide
  have covers := (always _ accepted).placements ⟨1⟩ _ rfl
  exact absurd covers (by decide)

end Audec.Arrangement

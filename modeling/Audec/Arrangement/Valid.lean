import Audec.Arrangement.Content

/-! What an accepted arrangement looks like, and that acceptance depends on content alone. -/

open Machine Checked OrderedKeys FloatEquality Std.ExtTreeMap
open Std (ExtTreeMap)

namespace Audec.Arrangement

theorem validateOrder_ok {α : Type} [DecidableEq α] {order expected : List α} {label : String} :
    validateOrder order expected label = .ok () ↔ order.Nodup ∧ ∀ id, id ∈ order ↔ id ∈ expected := by
  have once : order.toFinset.card = order.length ↔ order.Nodup :=
    Multiset.toFinset_card_eq_card_iff_nodup (m := (order : Multiset α))
  rw [validateOrder, ensure_ok, once, and_comm, Finset.ext_iff]
  simp only [List.mem_toFinset]

namespace ArrangementState

/-- Clips are stored under their own identities. -/
def ClipsFiled (clips : ExtTreeMap ClipId Clip) : Prop :=
  ∀ (key : ClipId) (clip : Clip), clips[key]? = some clip → clip.id = key

variable {clips : ExtTreeMap ClipId Clip}

section

variable (filed : ClipsFiled clips) (track : TrackId)
include filed track

theorem listedClips_eq_keys :
    listedClips clips track = (clips.toList.filter fun entry => decide (entry.2.trackId = track)).map Prod.fst := by
  rw [listedClips, List.filter_map, List.map_map]
  refine List.map_congr_left fun entry member => ?_
  exact filed _ _ (mem_toList_iff_getElem?_eq_some.mp (List.mem_of_mem_filter member))

theorem nodup_listedClips :
    (listedClips clips track).Nodup := by
  rw [listedClips_eq_keys filed]
  have keys : (clips.toList.map Prod.fst).Nodup := by
    rw [map_fst_toList_eq_keys]
    exact nodup_keys
  exact keys.sublist (List.filter_sublist.map _)

theorem mem_listedClips
    (id : ClipId) : id ∈ listedClips clips track ↔ ∃ clip : Clip, clips[id]? = some clip ∧ clip.trackId = track := by
  rw [listedClips_eq_keys filed]
  simp only [List.mem_map, List.mem_filter, decide_eq_true_eq, Prod.exists,
    mem_toList_iff_getElem?_eq_some]
  constructor
  · rintro ⟨key, clip, ⟨held, placed⟩, rfl⟩
    exact ⟨clip, held, placed⟩
  · rintro ⟨clip, held, placed⟩
    exact ⟨id, clip, ⟨held, placed⟩, rfl⟩

end

/-- The shape `validate` accepts. -/
structure Valid (state : ArrangementState) : Prop where
  schema : state.schemaVersion = currentSchemaVersion
  sampleRate : state.sampleRate ≠ 0
  orderOnce : state.trackOrder.Nodup
  orderMembers : ∀ id, id ∈ state.trackOrder ↔ id ∈ state.tracks.keys
  trackCounter : state.nextTrackId ≠ 0
  clipCounter : state.nextClipId ≠ 0
  trackIds : ∀ id ∈ state.tracks.keys, id.raw ≠ 0 ∧ id.raw < state.nextTrackId
  clipIds : ∀ id ∈ state.clips.keys, id.raw ≠ 0 ∧ id.raw < state.nextClipId
  markers : ∀ (frame : Frame) (marker : Marker), state.markers[frame]? = some marker → marker.isValid = true
  tracks : ∀ (id : TrackId) (track : Track), state.tracks[id]? = some track → state.validateTrack id track = .ok ()
  clips : ∀ (id : ClipId) (clip : Clip), state.clips[id]? = some clip → state.validateClip id clip = .ok ()

theorem validate_ok_iff (state : ArrangementState) : state.validate = .ok () ↔ Valid state := by
  simp only [validate, bind_unit_ok, ensure_ok, validateOrder_ok, forM_ok, Prod.forall,
    mem_toList_iff_getElem?_eq_some]
  constructor
  · rintro ⟨schema, rate, ⟨once, members⟩, ⟨trackCounter, clipCounter, trackIds, clipIds⟩, markers, tracks, clips⟩
    exact ⟨schema, rate, once, members, trackCounter, clipCounter, trackIds, clipIds, markers, tracks, clips⟩
  · rintro ⟨schema, rate, once, members, trackCounter, clipCounter, trackIds, clipIds, markers, tracks, clips⟩
    exact ⟨schema, rate, ⟨once, members⟩, ⟨trackCounter, clipCounter, trackIds, clipIds⟩, markers, tracks, clips⟩

theorem mem_keys_iff {κ ν : Type} [LinearOrder κ] [Std.LawfulEqOrd κ] (map : ExtTreeMap κ ν) (key : κ) :
    key ∈ map.keys ↔ ∃ value, map[key]? = some value := by
  rw [mem_keys, mem_iff_isSome_getElem?, Option.isSome_iff_exists]

variable {clip : Clip} {id : TrackId} {index : List ClipId} {state : ArrangementState} {track : Track} {α : Type}
  {clipLen : Nat}

theorem clipPosition_of_held {id : ClipId}
    (held : clips[id]? = some clip) : clipPosition clips id = (clip.position : WithBot _) := by
  rw [clipPosition, held]
  rfl

theorem validateIndex_sorted {previous : Option Clip}
    (checked : state.validateIndex id track previous index = .ok ()) :
    (∀ prior ∈ previous, ∀ later ∈ index, (prior.position : WithBot _) ≤ clipPosition state.clips later) ∧
    index.Pairwise fun a b => clipPosition state.clips a ≤ clipPosition state.clips b := by
  induction index generalizing previous with
  | nil => simp
  | cons clipId rest tail =>
    unfold validateIndex at checked
    cases held : state.clips[clipId]? with
    | none => simp [held] at checked
    | some clip =>
      simp only [held, bind_unit_ok] at checked
      obtain ⟨ordered, checked⟩ := checked
      obtain ⟨above, sorted⟩ := tail checked
      have position := clipPosition_of_held held
      have lead : ∀ prior ∈ previous, prior.position ≤ clip.position := by
        rintro prior rfl
        simp only [validateNeighbours, bind_unit_ok, ensure_ok] at ordered
        exact ordered.1
      constructor
      · intro prior member later found
        have low : (prior.position : WithBot (Frame ×ₗ ClipId)) ≤ clip.position :=
          WithBot.coe_le_coe.mpr (lead prior member)
        rcases List.mem_cons.mp found with rfl | found
        · rwa [position]
        · exact low.trans (above clip rfl later found)
      · refine List.Pairwise.cons (fun later found => ?_) sorted
        rw [position]
        exact above clip rfl later found

namespace Valid

theorem track_id (valid : Valid state) {id : TrackId} {track : Track} (held : state.tracks[id]? = some track) :
    track.id = id := by
  have checked := valid.tracks _ _ held
  simp only [validateTrack, bind_unit_ok, ensure_ok] at checked
  exact checked.1.1.symm

theorem clipsFiled (valid : Valid state) : ClipsFiled state.clips := by
  intro id clip held
  have checked := valid.clips _ _ held
  unfold validateClip at checked
  split at checked
  · cases checked
  · simp only [bind_unit_ok, ensure_ok] at checked
    exact checked.1.symm

end Valid

theorem clipPosition_injective (filed : ClipsFiled clips) {a b : ClipId}
    (held : clips[a]? = some clip) (same : clipPosition clips a = clipPosition clips b) : a = b := by
  rw [clipPosition_of_held held] at same
  cases other : clips[b]? with
  | none =>
    rw [clipPosition, other] at same
    cases same
  | some found =>
    rw [clipPosition_of_held other, WithBot.coe_inj] at same
    have ids : clip.id = found.id := congrArg (fun position => (ofLex position).2) same
    rw [← filed _ _ held, ← filed _ _ other, ids]

theorem eq_derivedClipIds (filed : ClipsFiled clips) {track : TrackId}
    (once : index.Nodup) (members : ∀ id, id ∈ index ↔ id ∈ listedClips clips track)
    (sorted : index.Pairwise fun a b => clipPosition clips a ≤ clipPosition clips b) :
    index = derivedClipIds clips track := by
  refine eq_sortByPosition _ once (nodup_listedClips filed track) members sorted ?_
  intro a found b _ same
  obtain ⟨clip, held, -⟩ := (mem_listedClips filed track a).mp ((members a).mp found)
  exact clipPosition_injective filed held same

theorem Valid.index_eq_derived (valid : Valid state)
    (held : state.tracks[id]? = some track) : track.clipIds = derivedClipIds state.clips id := by
  have checked := valid.tracks _ _ held
  simp only [validateTrack, bind_unit_ok, validateOrder_ok] at checked
  obtain ⟨-, ⟨once, members⟩, walked⟩ := checked
  exact eq_derivedClipIds valid.clipsFiled once members (validateIndex_sorted walked).2

/-! Acceptance depends on content alone, up to the equality the source compares it by. -/

theorem keys_congr {κ ν : Type} [LinearOrder κ] [Std.LawfulEqOrd κ] {map other : ExtTreeMap κ ν}
    (same : ∀ key : κ, map[key]?.isSome = other[key]?.isSome) : map.keys = other.keys := by
  have shapes : map.map (fun _ _ => ()) = other.map fun _ _ => () := by
    refine ext_getElem? fun key => ?_
    rw [getElem?_map, getElem?_map]
    have both := same key
    cases held : map[key]? <;> cases kept : other[key]? <;> simp_all
  rw [← keys_map (f := fun _ _ => ()), shapes, keys_map]

theorem isSome_congr [BEq α] {a b : Option α} (same : (a == b) = true) : a.isSome = b.isSome := by
  cases a <;> cases b <;> first | rfl | cases same

theorem none_congr [BEq α] {a b : Option α} (same : (a == b) = true) (absent : b = none) :
    a = none := by
  subst absent
  cases a
  · rfl
  · cases same

theorem some_congr [BEq α] [PartialEquivBEq α] {a b : Option α} {value : α}
    (same : (a == b) = true) (held : b = some value) : ∃ other, a = some other ∧ (other == value) = true := by
  subst held
  cases a with
  | none => cases same
  | some other => exact ⟨other, rfl, by rwa [Option.some_beq_some] at same⟩

section Congruence

variable {other : ArrangementState}

variable {others : ExtTreeMap ClipId Clip}

section

variable (same : ∀ id : ClipId, (clips[id]? == others[id]?) = true)
include same

theorem listedClips_congr (track : TrackId) :
    listedClips clips track = listedClips others track := by
  have entries (map : ExtTreeMap ClipId Clip) : listedClips map track =
      (((map.map fun _ clip => (clip.trackId, clip.id)).toList.map Prod.snd).filter
        fun entry => decide (entry.1 = track)).map Prod.snd := by
    rw [listedClips, toList_map]
    simp only [List.map_map, List.filter_map]
    rfl
  have shapes : clips.map (fun _ clip => (clip.trackId, clip.id)) =
      others.map fun _ clip => (clip.trackId, clip.id) := by
    refine ext_getElem? fun key => ?_
    rw [getElem?_map, getElem?_map]
    cases kept : others[key]? with
    | none => rw [none_congr (same key) kept]
    | some clip =>
      obtain ⟨found, held, alike⟩ := some_congr (same key) kept
      rw [Clip.beq_iff] at alike
      rw [held, Option.map_some, Option.map_some, alike.1, alike.2.1]
  rw [entries, entries, shapes]

theorem clipPosition_congr (id : ClipId) :
    clipPosition clips id = clipPosition others id := by
  cases kept : others[id]? with
  | none => rw [clipPosition, clipPosition, none_congr (same id) kept, kept]
  | some clip =>
    obtain ⟨found, held, alike⟩ := some_congr (same id) kept
    rw [Clip.beq_iff] at alike
    rw [clipPosition_of_held held, clipPosition_of_held kept, Clip.position, Clip.position, alike.1,
      alike.2.2.2.1]

theorem derivedClipIds_congr (track : TrackId) :
    derivedClipIds clips track = derivedClipIds others track := by
  have positions : clipPosition clips = clipPosition others := funext (clipPosition_congr same)
  rw [derivedClipIds, derivedClipIds, listedClips_congr same, positions]

end

variable {prior' : Option Clip} {track' : Track} {content content' : ClipContent}

theorem validateNeighbours_congr {clip clip' : Clip}
    {prior : Option Clip} (overlap : track.overlap = track'.overlap) (same : (clip == clip') = true)
    (before : (prior == prior') = true) :
    validateNeighbours id track clip prior = validateNeighbours id track' clip' prior' := by
  cases prior' with
  | none =>
    rw [none_congr before rfl]
    rfl
  | some last' =>
    obtain ⟨last, rfl, alike⟩ := some_congr before rfl
    rw [Clip.beq_iff] at same alike
    have ordered : last.position ≤ clip.position ↔ last'.position ≤ clip'.position := by
      rw [Clip.position, Clip.position, Clip.position, Clip.position, same.1, same.2.2.2.1, alike.1, alike.2.2.2.1]
    have apart : ¬ (track.overlap = .reject ∧ last.placement.intersects clip.placement) ↔
        ¬ (track'.overlap = .reject ∧ last'.placement.intersects clip'.placement) := by
      rw [overlap, same.2.2.2.1, alike.2.2.2.1]
    rw [validateNeighbours, validateNeighbours, ensure_congr ordered, ensure_congr apart, same.1, alike.1]

theorem validateIndex_congr (same : SameContent state other)
    (overlap : track.overlap = track'.overlap) {prior : Option Clip} (before : (prior == prior') = true)
    (index : List ClipId) :
    state.validateIndex id track prior index = other.validateIndex id track' prior' index := by
  induction index generalizing prior prior' with
  | nil => rfl
  | cons clipId rest tail =>
    have lookup : (state.clips[clipId]? == other.clips[clipId]?) = true := same (.clip clipId)
    unfold validateIndex
    cases kept : other.clips[clipId]? with
    | none => rw [none_congr lookup kept]
    | some clip' =>
      obtain ⟨clip, held, alike⟩ := some_congr lookup kept
      rw [held]
      simp only [validateNeighbours_congr overlap alike before, tail (show (some clip == some clip') = true from alike)]

theorem validDb_congr {a b : Float32} (same : (a == b) = true) : validDb a ↔ validDb b := by
  have low : ((-144.0 : Float32) == -144.0) = true := by decide
  have high : ((48.0 : Float32) == 48.0) = true := by decide
  rw [validDb, validDb, float32_isFinite_congr same, float32_le_congr low same, float32_le_congr same high]

theorem validateTrack_congr (same : SameContent state other)
    (alike : (track == track') = true) : state.validateTrack id track = other.validateTrack id track' := by
  rw [Track.beq_iff] at alike
  obtain ⟨ids, -, -, overlap, index, -, -, -, gain, pan, color⟩ := alike
  have low : ((-1.0 : Float32) == -1.0) = true := by decide
  have high : ((1.0 : Float32) == 1.0) = true := by decide
  have header : (id = track.id ∧ validDb track.gainDb ∧ (-1.0 ≤ track.pan ∧ track.pan ≤ 1.0) ∧
      ∀ color ∈ track.color, color.isValid) ↔ (id = track'.id ∧ validDb track'.gainDb ∧
      (-1.0 ≤ track'.pan ∧ track'.pan ≤ 1.0) ∧ ∀ color ∈ track'.color, color.isValid) := by
    rw [ids, validDb_congr gain, float32_le_congr low pan, float32_le_congr pan high, color]
  have lookups : ∀ key : ClipId, (state.clips[key]? == other.clips[key]?) = true := fun key => same (.clip key)
  rw [validateTrack, validateTrack, ensure_congr header, listedClips_congr lookups, index,
    validateIndex_congr same overlap (show ((none : Option Clip) == none) = true from rfl)]

theorem validateFade_congr {fade fade' : Fade} (alike : (fade == fade') = true) (clipLen : Nat) :
    validateFade clipLen fade = validateFade clipLen fade' := by
  rw [Fade.beq_iff] at alike
  obtain ⟨duration, -, start, stop⟩ := alike
  have zero : ((0.0 : Float) == 0.0) = true := by decide
  have one : ((1.0 : Float) == 1.0) = true := by decide
  rw [validateFade, validateFade]
  refine ensure_congr ?_ _
  rw [duration, float_isFinite_congr start, float_isFinite_congr stop, float_le_congr zero start,
    float_le_congr start one, float_le_congr zero stop, float_le_congr stop one, float_le_congr stop start]

theorem validateFades_congr {fades fades' : ClipFades} (alike : (fades == fades') = true) (clipLen : Nat) :
    validateFades fades clipLen = validateFades fades' clipLen := by
  rw [ClipFades.beq_iff] at alike
  have mapped {a b : Option Fade} (same : (a == b) = true) :
      a.map (validateFade clipLen) = b.map (validateFade clipLen) := by
    cases kept : b with
    | none => rw [none_congr same kept]
    | some fade' =>
      obtain ⟨fade, rfl, alike⟩ := some_congr same kept
      rw [Option.map_some, Option.map_some, validateFade_congr alike]
  have run (fades : ClipFades) : validateFades fades clipLen =
      ((fades.fadeIn.map (validateFade clipLen)).toList ++ (fades.fadeOut.map (validateFade clipLen)).toList).forM id := by
    rw [validateFades]
    cases fades.fadeIn <;> cases fades.fadeOut <;> rfl
  rw [run, run, mapped alike.1, mapped alike.2]

theorem validateAudio_congr {audio audio' : AudioRegion} (alike : (audio == audio') = true) (placementLen : Nat) :
    validateAudio audio placementLen = validateAudio audio' placementLen := by
  rw [AudioRegion.beq_iff] at alike
  obtain ⟨-, source, playback, channels, loopMode⟩ := alike
  rw [PlaybackTransform.beq_iff] at playback
  obtain ⟨ratio, -, pitch, -, -, markers⟩ := playback
  have walk (previous : Option U64) (rest : List WarpMarker) :
      validateWarpMarkers audio placementLen previous rest =
        validateWarpMarkers audio' placementLen previous rest := by
    induction rest generalizing previous with
    | nil => rfl
    | cons marker rest tail => simp only [validateWarpMarkers, source, tail]
  simp only [validateAudio, ratio, float_isFinite_congr pitch, source, channels, loopMode, markers, walk]

theorem kind_congr (alike : (content == content') = true) :
    content.kind = content'.kind := by
  cases content <;> cases content' <;> first | rfl | cases alike

theorem validateContent_congr (alike : (content == content') = true)
    (placementLen : Nat) : validateContent content placementLen = validateContent content' placementLen := by
  cases content <;> cases content'
  case audio.audio => exact validateAudio_congr alike placementLen
  all_goals first | rfl | cases alike

theorem validateClip_congr (same : SameContent state other) {id : ClipId} {clip clip' : Clip}
    (alike : (clip == clip') = true) : state.validateClip id clip = other.validateClip id clip' := by
  rw [Clip.beq_iff] at alike
  obtain ⟨ids, track, -, placement, content, fades, gain, -, -⟩ := alike
  have lookup : (state.tracks[clip'.trackId]? == other.tracks[clip'.trackId]?) = true :=
    same (.track clip'.trackId)
  unfold validateClip
  rw [track]
  cases kept : other.tracks[clip'.trackId]? with
  | none => rw [none_congr lookup kept]
  | some owner' =>
    obtain ⟨owner, held, owners⟩ := some_congr lookup kept
    rw [Track.beq_iff] at owners
    rw [held]
    have suits : owner.kind = .hybrid ∨ owner.kind = clip.content.kind ↔
        owner'.kind = .hybrid ∨ owner'.kind = clip'.content.kind := by
      rw [owners.2.2.1, kind_congr content]
    have named : id = clip.id ↔ id = clip'.id := by rw [ids]
    simp only [ensure_congr named, ensure_congr (validDb_congr gain), ensure_congr suits,
      validateFades_congr fades, validateContent_congr content, placement]

theorem Valid.congr (valid : Valid state) (same : SameContent state other) (header : Header other) :
    Valid other := by
  have tracks : other.tracks.keys = state.tracks.keys :=
    keys_congr fun key => (isSome_congr (same (.track key))).symm
  have clips : other.clips.keys = state.clips.keys :=
    keys_congr fun key => (isSome_congr (same (.clip key))).symm
  have order : other.trackOrder = state.trackOrder := (beq_iff_eq.mp (same .order)).symm
  refine ⟨header.schema, header.sampleRate, order ▸ valid.orderOnce, ?_, header.trackCounter, header.clipCounter,
    ?_, ?_, ?_, ?_, ?_⟩
  · rw [order, tracks]
    exact valid.orderMembers
  · intro id member
    obtain ⟨track', held⟩ := (mem_keys_iff _ _).mp member
    obtain ⟨track, kept, alike⟩ := some_congr (same (.track id)) held
    have counted := header.counted (.track id)
    change Counted other (.track id) other.tracks[id]? at counted
    rw [held] at counted
    rw [tracks] at member
    have named : track'.id = id := ((Track.beq_iff _ _).mp alike).1.symm.trans (valid.track_id kept)
    exact ⟨(valid.trackIds id member).1, named ▸ counted⟩
  · intro id member
    obtain ⟨clip', held⟩ := (mem_keys_iff _ _).mp member
    obtain ⟨clip, kept, alike⟩ := some_congr (same (.clip id)) held
    have counted := header.counted (.clip id)
    change Counted other (.clip id) other.clips[id]? at counted
    rw [held] at counted
    rw [clips] at member
    have named : clip'.id = id := ((Clip.beq_iff _ _).mp alike).1.symm.trans (valid.clipsFiled id clip kept)
    exact ⟨(valid.clipIds id member).1, named ▸ counted⟩
  · intro frame marker held
    exact valid.markers frame marker ((beq_iff_eq.mp (same (.marker frame))).trans held)
  · intro id track' held
    obtain ⟨track, kept, alike⟩ := some_congr (same (.track id)) held
    rw [← validateTrack_congr same alike]
    exact valid.tracks id track kept
  · intro id clip' held
    obtain ⟨clip, kept, alike⟩ := some_congr (same (.clip id)) held
    rw [← validateClip_congr same alike]
    exact valid.clips id clip kept

theorem Valid.header (valid : Valid state) : Header state := by
  refine ⟨valid.schema, valid.sampleRate, valid.trackCounter, valid.clipCounter, fun key => ?_⟩
  cases key with
  | track id =>
    change Counted state (.track id) state.tracks[id]?
    cases held : state.tracks[id]? with
    | none => trivial
    | some track =>
      have below := (valid.trackIds id ((mem_keys_iff _ _).mpr ⟨track, held⟩)).2
      rwa [← valid.track_id held] at below
  | clip id =>
    change Counted state (.clip id) state.clips[id]?
    cases held : state.clips[id]? with
    | none => trivial
    | some clip =>
      have below := (valid.clipIds id ((mem_keys_iff _ _).mpr ⟨clip, held⟩)).2
      rwa [← valid.clipsFiled id clip held] at below
  | order => trivial
  | marker => trivial

end Congruence

/-! An accepted arrangement holds no NaN, so that it is equal to itself. -/

theorem fade_beq_self {fade : Fade} (checked : validateFade clipLen fade = .ok ()) :
    (fade == fade) = true := by
  rw [validateFade, ensure_ok] at checked
  obtain ⟨-, -, start, stop, -⟩ := checked
  exact (Fade.beq_iff _ _).mpr ⟨rfl, rfl, float_beq_self start, float_beq_self stop⟩

theorem fades_beq_self {fades : ClipFades} (checked : validateFades fades clipLen = .ok ()) :
    (fades == fades) = true := by
  rw [validateFades, forM_ok] at checked
  rw [ClipFades.beq_iff]
  constructor
  · cases edge : fades.fadeIn with
    | none => rfl
    | some fade => exact fade_beq_self (checked fade (by simp [edge]))
  · cases edge : fades.fadeOut with
    | none => rfl
    | some fade => exact fade_beq_self (checked fade (by simp [edge]))

theorem content_beq_self {content : ClipContent} {placementLen : Nat}
    (checked : validateContent content placementLen = .ok ()) : (content == content) = true := by
  cases content with
  | audio audio =>
    simp only [validateContent, validateAudio, bind_unit_ok, ensure_ok] at checked
    obtain ⟨⟨pitch, -⟩, -⟩ := checked
    have playback : (audio.playback == audio.playback) = true :=
      (PlaybackTransform.beq_iff _ _).mpr ⟨rfl, rfl, float_beq_self pitch, rfl, rfl, rfl⟩
    exact (AudioRegion.beq_iff _ _).mpr ⟨rfl, rfl, playback, rfl, rfl⟩
  | pattern region => exact beq_self_eq_true region
  | automation region => exact beq_self_eq_true region

namespace Valid

theorem track_beq_self (valid : Valid state) {id : TrackId} {track : Track} (held : state.tracks[id]? = some track) :
    (track == track) = true := by
  have checked := valid.tracks _ _ held
  simp only [validateTrack, bind_unit_ok, ensure_ok] at checked
  obtain ⟨⟨-, gain, pan, -⟩, -⟩ := checked
  exact (Track.beq_iff _ _).mpr ⟨rfl, rfl, rfl, rfl, rfl, rfl, rfl, rfl, float32_beq_self gain.1,
    float32_beq_self_of_le pan.1, rfl⟩

theorem clip_beq_self (valid : Valid state) {id : ClipId} {clip : Clip} (held : state.clips[id]? = some clip) :
    (clip == clip) = true := by
  have checked := valid.clips _ _ held
  unfold validateClip at checked
  split at checked
  · cases checked
  · simp only [bind_unit_ok, ensure_ok] at checked
    obtain ⟨-, gain, -, fades, content⟩ := checked
    exact (Clip.beq_iff _ _).mpr ⟨rfl, rfl, rfl, rfl, content_beq_self content, fades_beq_self fades,
      float32_beq_self gain.1, rfl, rfl⟩

theorem sameContent_self (valid : Valid state) : SameContent state state := by
  intro key
  cases key with
  | track id =>
    change (state.tracks[id]? == state.tracks[id]?) = true
    cases held : state.tracks[id]? with
    | none => rfl
    | some track => exact valid.track_beq_self held
  | clip id =>
    change (state.clips[id]? == state.clips[id]?) = true
    cases held : state.clips[id]? with
    | none => rfl
    | some clip => exact valid.clip_beq_self held
  | order => exact beq_self_eq_true state.trackOrder
  | marker frame => exact beq_self_eq_true state.markers[frame]?

end Valid

end ArrangementState

end Audec.Arrangement

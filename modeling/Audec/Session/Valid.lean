import Audec.Session.Content

/-! The checks of an arrangement, as facts about its entities: equal contents pass together. -/

open Machine Checked FloatEquality PartialEquality Entries Option
open Std (ExtTreeMap)

namespace Audec.Session

theorem validGain_congr {gain other : Float32} (same : (gain == other) = true) (valid : validGain gain = true) :
    validGain other = true := by
  rw [validGain, Bool.and_eq_true, decide_eq_true_eq] at valid ⊢
  refine ⟨(float32_isFinite_congr same).symm.trans valid.1, ?_⟩
  exact (float32_le_congr (float32_beq_self (by decide)) same).mp valid.2

theorem validGain_self {gain : Float32} (valid : validGain gain = true) : (gain == gain) = true := by
  rw [validGain, Bool.and_eq_true] at valid
  exact float32_beq_self valid.1

namespace Arrangement

/-- What `validate` checks. -/
structure Valid (arrangement : Arrangement) : Prop where
  tracks : ∀ (id : TrackId) (track : Track), arrangement.tracks[id]? = some track →
    id = track.id ∧ validGain track.gain = true ∧
      ∀ laneId ∈ track.laneIds, ∃ lane, arrangement.lanes[laneId]? = some lane ∧ lane.trackId = id
  lanes : ∀ (id : LaneId) (lane : Lane), arrangement.lanes[id]? = some lane →
    ∃ owner, arrangement.tracks[lane.trackId]? = some owner ∧ id = lane.id ∧ owner.laneIds.count id = 1 ∧
      ∀ clipId ∈ lane.clipIds, ∃ clip, arrangement.clips[clipId]? = some clip ∧ clip.laneId = id
  clips : ∀ (id : ClipId) (clip : Clip), arrangement.clips[id]? = some clip →
    (id = clip.id ∧ clip.timeline.isEmpty = false ∧ validGain clip.gain = true) ∧
      ∃ lane, arrangement.lanes[clip.laneId]? = some lane ∧ lane.clipIds.count id = 1
  clusters : ∀ (id : ClusterId) (cluster : Cluster), arrangement.clusters[id]? = some cluster →
    id = cluster.id ∧ validGain cluster.gain = true
  events : ∀ (id : EventId) (event : Event), arrangement.events[id]? = some event →
    (id = event.id ∧ validGain event.gain = true) ∧ (∃ lane, arrangement.lanes[event.laneId]? = some lane) ∧
      ∃ cluster, arrangement.clusters[event.clusterId]? = some cluster

theorem mem_iff_some {κ ν : Type} [LinearOrder κ] {map : ExtTreeMap κ ν} {key : κ} : key ∈ map ↔ ∃ value, map[key]? = some value := by
  rw [ExtTreeMap.mem_iff_isSome_getElem?, isSome_iff_exists]

variable {arrangement other : Arrangement}

theorem validateLaneId_ok {id : TrackId} {laneId : LaneId} : arrangement.validateLaneId id laneId = .ok () ↔
    ∃ lane, arrangement.lanes[laneId]? = some lane ∧ lane.trackId = id := by
  unfold validateLaneId
  cases arrangement.lanes[laneId]? <;> simp

theorem validateClipId_ok {id : LaneId} {clipId : ClipId} : arrangement.validateClipId id clipId = .ok () ↔
    ∃ clip, arrangement.clips[clipId]? = some clip ∧ clip.laneId = id := by
  unfold validateClipId
  cases arrangement.clips[clipId]? <;> simp

theorem validateTrack_ok {id : TrackId} {track : Track} : arrangement.validateTrack id track = .ok () ↔
    id = track.id ∧ validGain track.gain = true ∧
      ∀ laneId ∈ track.laneIds, ∃ lane, arrangement.lanes[laneId]? = some lane ∧ lane.trackId = id := by
  simp only [validateTrack, bind_unit_ok, ensure_ok, forM_ok, validateLaneId_ok, and_assoc]

theorem validateLane_ok {id : LaneId} {lane : Lane} : arrangement.validateLane id lane = .ok () ↔
    ∃ owner, arrangement.tracks[lane.trackId]? = some owner ∧ id = lane.id ∧ owner.laneIds.count id = 1 ∧
      ∀ clipId ∈ lane.clipIds, ∃ clip, arrangement.clips[clipId]? = some clip ∧ clip.laneId = id := by
  unfold validateLane
  cases arrangement.tracks[lane.trackId]? with
  | none => simp
  | some owner => simp only [bind_unit_ok, ensure_ok, forM_ok, validateClipId_ok, some.injEq, exists_eq_left']

theorem validateClip_ok {id : ClipId} {clip : Clip} : arrangement.validateClip id clip = .ok () ↔
    (id = clip.id ∧ clip.timeline.isEmpty = false ∧ validGain clip.gain = true) ∧
      ∃ lane, arrangement.lanes[clip.laneId]? = some lane ∧ lane.clipIds.count id = 1 := by
  simp only [validateClip, bind_unit_ok, ensure_ok]
  cases arrangement.lanes[clip.laneId]? <;> simp

theorem validateCluster_ok {id : ClusterId} {cluster : Cluster} : validateCluster id cluster = .ok () ↔
    id = cluster.id ∧ validGain cluster.gain = true := by
  rw [validateCluster, ensure_ok]

theorem validateEvent_ok {id : EventId} {event : Event} : arrangement.validateEvent id event = .ok () ↔
    (id = event.id ∧ validGain event.gain = true) ∧ (∃ lane, arrangement.lanes[event.laneId]? = some lane) ∧
      ∃ cluster, arrangement.clusters[event.clusterId]? = some cluster := by
  simp only [validateEvent, bind_unit_ok, ensure_ok, mem_iff_some]

theorem validate_ok : arrangement.validate = .ok () ↔ arrangement.Valid := by
  simp only [validate, bind_unit_ok, forM_entries_ok, validateTrack_ok, validateLane_ok, validateClip_ok, validateCluster_ok,
    validateEvent_ok]
  constructor
  · rintro ⟨tracks, lanes, clips, clusters, events⟩
    exact ⟨tracks, lanes, clips, clusters, events⟩
  · rintro ⟨tracks, lanes, clips, clusters, events⟩
    exact ⟨tracks, lanes, clips, clusters, events⟩

section Lookups

variable (same : Same arrangement other)
include same

theorem Same.track {id : TrackId} {track : Track} (held : other.tracks[id]? = some track) :
    ∃ found, arrangement.tracks[id]? = some found ∧ (found == track) = true :=
  some_of_same (held ▸ same (.track id))

theorem Same.lane {id : LaneId} {lane : Lane} (held : other.lanes[id]? = some lane) : arrangement.lanes[id]? = some lane := by
  have equal := same (.lane id)
  exact (beq_iff_eq.mp (equal : (arrangement.lanes[id]? == other.lanes[id]?) = true)).trans held

theorem Same.clip {id : ClipId} {clip : Clip} (held : other.clips[id]? = some clip) :
    ∃ found, arrangement.clips[id]? = some found ∧ (found == clip) = true :=
  some_of_same (held ▸ same (.clip id))

theorem Same.cluster {id : ClusterId} {cluster : Cluster} (held : other.clusters[id]? = some cluster) :
    ∃ found, arrangement.clusters[id]? = some found ∧ (found == cluster) = true :=
  some_of_same (held ▸ same (.cluster id))

theorem Same.event {id : EventId} {event : Event} (held : other.events[id]? = some event) :
    ∃ found, arrangement.events[id]? = some found ∧ (found == event) = true :=
  some_of_same (held ▸ same (.event id))

end Lookups

theorem Valid.congr (valid : arrangement.Valid) (same : Same arrangement other) : other.Valid where
  tracks id track held := by
    obtain ⟨found, there, equal⟩ := same.track held
    obtain ⟨identity, gain, lanes⟩ := valid.tracks id found there
    obtain ⟨ids, -, -, laneIds, gains, -, -⟩ := (Track.beq_iff _ _).mp equal
    refine ⟨identity.trans ids, validGain_congr gains gain, ?_⟩
    intro laneId inside
    obtain ⟨lane, present, owned⟩ := lanes laneId (laneIds ▸ inside)
    exact ⟨lane, same.symm.lane present, owned⟩
  lanes id lane held := by
    obtain ⟨owner, present, identity, once, clips⟩ := valid.lanes id lane (same.lane held)
    obtain ⟨owner', present', equal⟩ := same.symm.track present
    obtain ⟨-, -, -, laneIds, -, -, -⟩ := (Track.beq_iff _ _).mp equal
    refine ⟨owner', present', identity, laneIds ▸ once, ?_⟩
    intro clipId inside
    obtain ⟨clip, there, owned⟩ := clips clipId inside
    obtain ⟨clip', there', equal'⟩ := same.symm.clip there
    exact ⟨clip', there', ((Clip.beq_iff _ _).mp equal').2.1.trans owned⟩
  clips id clip held := by
    obtain ⟨found, there, equal⟩ := same.clip held
    obtain ⟨⟨identity, nonempty, gain⟩, lane, present, once⟩ := valid.clips id found there
    obtain ⟨ids, laneId, -, timeline, -, gains, -, -⟩ := (Clip.beq_iff _ _).mp equal
    exact ⟨⟨identity.trans ids, timeline ▸ nonempty, validGain_congr gains gain⟩, lane, laneId ▸ same.symm.lane present, once⟩
  clusters id cluster held := by
    obtain ⟨found, there, equal⟩ := same.cluster held
    obtain ⟨identity, gain⟩ := valid.clusters id found there
    obtain ⟨ids, -, gains, -⟩ := (Cluster.beq_iff _ _).mp equal
    exact ⟨identity.trans ids, validGain_congr gains gain⟩
  events id event held := by
    obtain ⟨found, there, equal⟩ := same.event held
    obtain ⟨⟨identity, gain⟩, ⟨lane, present⟩, cluster, clusterPresent⟩ := valid.events id found there
    obtain ⟨ids, laneId, clusterId, -, -, gains, -⟩ := (Event.beq_iff _ _).mp equal
    obtain ⟨cluster', clusterPresent', -⟩ := same.symm.cluster clusterPresent
    exact ⟨⟨identity.trans ids, validGain_congr gains gain⟩, ⟨lane, laneId ▸ same.symm.lane present⟩, cluster', clusterId ▸ clusterPresent'⟩

theorem Valid.refl (valid : arrangement.Valid) : Same arrangement arrangement := by
  intro key
  cases key with
  | track id =>
    cases held : arrangement.tracks[id]? with
    | none => simp only [store, held]; rfl
    | some track =>
      simp only [store, held]
      exact (Track.beq_iff track track).mpr ⟨rfl, rfl, rfl, rfl, validGain_self (valid.tracks id track held).2.1, rfl, rfl⟩
  | lane id => exact beq_self_eq_true (arrangement.lanes[id]?)
  | clip id =>
    cases held : arrangement.clips[id]? with
    | none => simp only [store, held]; rfl
    | some clip =>
      simp only [store, held]
      exact (Clip.beq_iff clip clip).mpr ⟨rfl, rfl, rfl, rfl, rfl, validGain_self (valid.clips id clip held).1.2.2, rfl, rfl⟩
  | cluster id =>
    cases held : arrangement.clusters[id]? with
    | none => simp only [store, held]; rfl
    | some cluster =>
      simp only [store, held]
      exact (Cluster.beq_iff cluster cluster).mpr ⟨rfl, rfl, validGain_self (valid.clusters id cluster held).2, rfl⟩
  | event id =>
    cases held : arrangement.events[id]? with
    | none => simp only [store, held]; rfl
    | some event =>
      simp only [store, held]
      exact (Event.beq_iff event event).mpr ⟨rfl, rfl, rfl, rfl, rfl, validGain_self (valid.events id event held).1.2, rfl⟩

theorem valid_empty : empty.Valid := by
  constructor <;>
    · intro id entity held
      exact absurd held (by simp [empty])

end Arrangement

end Audec.Session

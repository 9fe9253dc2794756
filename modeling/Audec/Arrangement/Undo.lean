import Audec.Arrangement.Valid

/-! What a batch of operations does to the content before and after its indexes are normalized. -/

open Machine Checked OrderedKeys GuardedStore List Std.ExtTreeMap
open Std (ExtTreeMap)

namespace Audec.Arrangement

open ArrangementOperation

/-- An entity stored under another identity than its own. -/
def Stray : (key : ContentKey) → ContentValue key → Prop
  | .track id, some track => track.id ≠ id
  | .clip id, some clip => clip.id ≠ id
  | _, _ => False

theorem Stray.congr {key : ContentKey} {value other : ContentValue key} (stray : Stray key value)
    (same : (value == other) = true) : Stray key other := by
  cases key with
  | track id =>
    cases value with
    | none => cases stray
    | some track =>
      obtain ⟨found, rfl, alike⟩ := ArrangementState.some_congr (BEq.symm same) rfl
      change found.id ≠ id
      rw [((Track.beq_iff _ _).mp alike).1]
      exact stray
  | clip id =>
    cases value with
    | none => cases stray
    | some clip =>
      obtain ⟨found, rfl, alike⟩ := ArrangementState.some_congr (BEq.symm same) rfl
      change found.id ≠ id
      rw [((Clip.beq_iff _ _).mp alike).1]
      exact stray
  | order => cases stray
  | marker => cases stray

namespace ArrangementOperation

open ArrangementState

variable {operation : ArrangementOperation} {state result : ArrangementState} {put : Put ContentKey ContentValue}

theorem before_filed (addressed : operation.put = some put) : ¬ Stray put.key put.before := by
  cases operation with
  | putTrack before after =>
    cases before <;> cases after <;> simp_all [ArrangementOperation.put] <;> subst addressed <;> simp [Stray]
  | putClip before after =>
    cases before <;> cases after <;> simp_all [ArrangementOperation.put] <;> subst addressed <;> simp [Stray]
  | setTrackOrder before after =>
    cases addressed
    exact id
  | putMarker frame before after =>
    simp only [ArrangementOperation.put] at addressed
    split at addressed
    · cases addressed
    · cases addressed
      exact id

theorem after_stray_iff (addressed : operation.put = some put) :
    Stray put.key put.after ↔ ¬ operation.KeepsIdentity := by
  cases operation with
  | putTrack before after =>
    cases before <;> cases after <;> simp_all [ArrangementOperation.put] <;> subst addressed <;>
      simp [Stray, KeepsIdentity, eq_comm]
  | putClip before after =>
    cases before <;> cases after <;> simp_all [ArrangementOperation.put] <;> subst addressed <;>
      simp [Stray, KeepsIdentity, eq_comm]
  | setTrackOrder before after =>
    cases addressed
    simp [Stray, KeepsIdentity]
  | putMarker frame before after =>
    simp only [ArrangementOperation.put] at addressed
    split at addressed
    · cases addressed
    · cases addressed
      simp [Stray, KeepsIdentity]

theorem Effect.stray (effect : Effect state operation result put) {key : ContentKey}
    (stray : Stray key (state.content key)) : Stray key (result.content key) := by
  rw [effect.content]
  by_cases hit : key = put.key
  · subst hit
    exact absurd (stray.congr effect.ready) (before_filed effect.addressed)
  · rwa [write_other _ _ hit]

end ArrangementOperation

/-- The puts a batch makes, in order. -/
def puts (operations : List ArrangementOperation) : List (Put ContentKey ContentValue) :=
  operations.filterMap ArrangementOperation.put

theorem puts_inverse {operations : List ArrangementOperation}
    (keeps : ∀ operation ∈ operations, operation.KeepsIdentity) :
    puts (operations.reverse.map inverse) = undo (puts operations) := by
  rw [puts, filterMap_map, filterMap_reverse, undo, puts, map_filterMap]
  refine congrArg List.reverse (filterMap_congr fun operation member => ?_)
  exact put_inverse (keeps operation member)

namespace ArrangementState

structure BatchEffect (state : ArrangementState) (operations : List ArrangementOperation)
    (result : ArrangementState) : Prop where
  accepted : Accepts (puts operations) state.content
  content : result.content = writes (puts operations) state.content
  identities : (∀ operation ∈ operations, operation.KeepsIdentity) ∨ ∃ key, Stray key (result.content key)
  addressed : ∀ operation ∈ operations, operation.put.isSome
  representable : ∀ operation ∈ operations, operation.Representable
  header : Header state → Header result
  persists : ∀ key, Stray key (state.content key) → Stray key (result.content key)

variable {operations : List ArrangementOperation} {state : ArrangementState}

theorem batch_effect {result : ArrangementState}
    (done : operations.foldlM apply state = .ok result) :
    BatchEffect state operations result := by
  induction operations generalizing state with
  | nil =>
    cases done
    exact ⟨trivial, rfl, Or.inl (by simp), by simp, by simp, id, fun _ stray => stray⟩
  | cons operation rest tail =>
    rw [foldlM_cons, bind_ok] at done
    obtain ⟨middle, first, done⟩ := done
    obtain ⟨put, effect⟩ := apply_effect first
    have later := tail done
    have split : puts (operation :: rest) = put :: puts rest := filterMap_cons_some effect.addressed
    have persists : ∀ key, Stray key (state.content key) → Stray key (result.content key) :=
      fun key stray => later.persists key (effect.stray stray)
    refine ⟨?_, ?_, ?_, ?_, ?_, fun header => later.header (effect.header header), persists⟩
    · rw [split]
      exact ⟨effect.ready, effect.content ▸ later.accepted⟩
    · rw [split, writes_cons, ← effect.content]
      exact later.content
    · by_cases keeps : operation.KeepsIdentity
      · exact later.identities.imp_left fun others => forall_mem_cons.mpr ⟨keeps, others⟩
      · refine Or.inr ⟨put.key, later.persists put.key ?_⟩
        rw [effect.content, write_key]
        exact (after_stray_iff effect.addressed).mpr keeps
    · exact forall_mem_cons.mpr ⟨by rw [effect.addressed]; rfl, later.addressed⟩
    · exact forall_mem_cons.mpr ⟨effect.representable, later.representable⟩

theorem batch_of_accepts
    (accepted : Accepts (puts operations) state.content) (addressed : ∀ operation ∈ operations, operation.put.isSome)
    (representable : ∀ operation ∈ operations, operation.Representable) :
    ∃ result, operations.foldlM apply state = .ok result := by
  induction operations generalizing state with
  | nil => exact ⟨state, rfl⟩
  | cons operation rest tail =>
    rw [forall_mem_cons] at addressed representable
    obtain ⟨put, target⟩ := Option.isSome_iff_exists.mp addressed.1
    rw [show puts (operation :: rest) = put :: puts rest from filterMap_cons_some target] at accepted
    obtain ⟨middle, first⟩ := apply_of_ready target accepted.1 representable.1
    obtain ⟨put', effect⟩ := apply_effect first
    obtain rfl : put' = put := Option.some.inj (effect.addressed.symm.trans target)
    obtain ⟨result, done⟩ := tail (effect.content ▸ accepted.2) addressed.2 representable.2
    exact ⟨result, by rw [foldlM_cons, first]; exact done⟩

end ArrangementState

end Audec.Arrangement

/-! When undo and redo of an accepted transaction restore the content around it. -/

namespace Audec.Arrangement

namespace ArrangementState

theorem reindexed_tracks (state : ArrangementState) (id : TrackId) :
    state.reindexed.tracks[id]? =
      state.tracks[id]?.map fun track => { track with clipIds := derivedClipIds state.clips track.id } := by
  rw [reindexed, ExtTreeMap.getElem?_map]

theorem reindexed_keys (state : ArrangementState) : state.reindexed.tracks.keys = state.tracks.keys :=
  keys_map

variable {state : ArrangementState} {operations : List ArrangementOperation}

theorem Header.reindexed (header : Header state) : Header state.reindexed := by
  refine ⟨header.schema, header.sampleRate, header.trackCounter, header.clipCounter, fun key => ?_⟩
  cases key with
  | track id =>
    have counted := header.counted (.track id)
    change Counted state (.track id) state.tracks[id]? at counted
    change Counted state (.track id) state.reindexed.tracks[id]?
    rw [reindexed_tracks]
    cases held : state.tracks[id]? with
    | none => trivial
    | some track => exact (held ▸ counted : Counted state (.track id) (some track))
  | clip id => exact header.counted (.clip id)
  | order => trivial
  | marker => trivial

theorem Valid.reindexed_eq (valid : Valid state) : state.reindexed = state := by
  have tracks : state.reindexed.tracks = state.tracks := by
    refine ExtTreeMap.ext_getElem? fun id => ?_
    rw [reindexed_tracks]
    cases held : state.tracks[id]? with
    | none => rfl
    | some track =>
      have index : derivedClipIds state.clips track.id = track.clipIds := by
        rw [valid.track_id held, valid.index_eq_derived held]
      rw [Option.map_some, index]
  have order : state.reindexed.trackOrder = state.trackOrder :=
    (reindex_eq_self_iff nodup_keys _).mpr ⟨valid.orderOnce, valid.orderMembers⟩
  have split : state.reindexed =
      { state with tracks := state.reindexed.tracks, trackOrder := state.reindexed.trackOrder } := rfl
  rw [split, tracks, order]

theorem sortPanics_eq_false {clips : ExtTreeMap ClipId Clip} (filed : ClipsFiled clips) (track : TrackId) :
    sortPanics clips track = false := by
  rw [sortPanics, Bool.and_eq_false_iff]
  right
  rw [any_eq_false]
  intro id listed
  obtain ⟨clip, held, -⟩ := (mem_listedClips filed track id).mp listed
  simp [held]

theorem normalizeIndexes_of_filed (filed : ClipsFiled state.clips) :
    state.normalizeIndexes = .ok state.reindexed := by
  rw [normalizeIndexes, if_neg]
  simp [sortPanics_eq_false filed]

variable {result edited other : ArrangementState}

theorem normalizeIndexes_ok (done : state.normalizeIndexes = .ok result) :
    result = state.reindexed := by
  unfold normalizeIndexes at done
  split at done
  · cases done
  · exact (Except.ok.inj done).symm

theorem commit_ok
    (done : state.commit operations = .ok result) :
    ∃ edited, BatchEffect state operations edited ∧ result = edited.reindexed ∧ Valid result := by
  simp only [commit, bind_ok, lift_ok] at done
  obtain ⟨edited, batch, candidate, normalized, _, checked, done⟩ := done
  cases done
  exact ⟨edited, batch_effect batch, normalizeIndexes_ok normalized, (validate_ok_iff _).mp checked⟩

theorem commit_of_valid
    (batch : operations.foldlM ArrangementOperation.apply state = .ok edited) (filed : ClipsFiled edited.clips)
    (valid : Valid edited.reindexed) : state.commit operations = .ok edited.reindexed := by
  simp only [commit, bind_ok, lift_ok]
  exact ⟨edited, batch, _, normalizeIndexes_of_filed filed, (), (validate_ok_iff _).mpr valid, rfl⟩

/-- A track with its derived index left out. -/
def unindexed (track : Track) : Track := { track with clipIds := [] }

theorem unindexed_congr {track track' : Option Track} (same : (track == track') = true) :
    (track.map unindexed == track'.map unindexed) = true := by
  cases held : track' with
  | none => rw [none_congr same held]; rfl
  | some right =>
    obtain ⟨left, rfl, alike⟩ := some_congr same held
    rw [Track.beq_iff] at alike
    change (unindexed left == unindexed right) = true
    rw [Track.beq_iff]
    obtain ⟨ids, name, kind, overlap, -, rest⟩ := alike
    exact ⟨ids, name, kind, overlap, rfl, rest⟩

structure Rebuilds (state other : ArrangementState) : Prop where
  tracks : ∀ id : TrackId, (state.tracks[id]?.map unindexed == other.tracks[id]?.map unindexed) = true
  clips : ∀ id : ClipId, (state.clips[id]? == other.clips[id]?) = true
  order : reindex state.tracks.keys state.trackOrder = reindex other.tracks.keys other.trackOrder
  markers : ∀ frame : Frame, state.markers[frame]? = other.markers[frame]?

theorem Rebuilds.sameContent (rebuilds : Rebuilds state other) :
    SameContent state.reindexed other.reindexed := by
  intro key
  cases key with
  | track id =>
    change (state.reindexed.tracks[id]? == other.reindexed.tracks[id]?) = true
    rw [reindexed_tracks, reindexed_tracks]
    have same := rebuilds.tracks id
    cases held : other.tracks[id]? with
    | none =>
      rw [held] at same
      rw [Option.map_eq_none_iff.mp (none_congr same rfl)]
      rfl
    | some right =>
      rw [held] at same
      obtain ⟨left, kept, alike⟩ := some_congr same rfl
      obtain ⟨track, found, rfl⟩ := Option.map_eq_some_iff.mp kept
      rw [Track.beq_iff] at alike
      obtain ⟨ids, name, kind, overlap, -, rest⟩ := alike
      rw [found, Option.map_some, Option.map_some, Option.some_beq_some, Track.beq_iff]
      refine ⟨ids, name, kind, overlap, ?_, rest⟩
      change derivedClipIds state.clips (unindexed track).id = derivedClipIds other.clips (unindexed right).id
      rw [ids, derivedClipIds_congr rebuilds.clips]
  | clip id => exact rebuilds.clips id
  | order => exact beq_iff_eq.mpr rebuilds.order
  | marker frame => exact beq_iff_eq.mpr (rebuilds.markers frame)

theorem commit_of_rebuilds
    (batch : operations.foldlM ArrangementOperation.apply state = .ok edited) (rebuilds : Rebuilds edited other)
    (valid : Valid other.reindexed) (header : Header edited) :
    state.commit operations = .ok edited.reindexed ∧ SameContent edited.reindexed other.reindexed := by
  have same := rebuilds.sameContent
  have accepted : Valid edited.reindexed := valid.congr same.symm header.reindexed
  exact ⟨commit_of_valid batch accepted.clipsFiled accepted, same⟩

theorem room_below {id next : U64} (below : id < next) : id.val + 1 < 0x10000000000000000 := by
  have limit := next.isLt
  rw [Fin.lt_def] at below
  omega

theorem inverse_representable {operation : ArrangementOperation}
    {put : Put ContentKey ContentValue} (addressed : operation.put = some put)
    (counted : Counted state put.key put.before) : operation.inverse.Representable := by
  cases operation with
  | putTrack before after =>
    cases before <;> cases after <;> simp_all [ArrangementOperation.put] <;> subst addressed <;>
      first | trivial | exact room_below counted
  | putClip before after =>
    cases before <;> cases after <;> simp_all [ArrangementOperation.put] <;> subst addressed <;>
      first | trivial | exact room_below counted
  | setTrackOrder before after => trivial
  | putMarker frame before after => trivial

theorem batch_inverse_representable
    (done : operations.foldlM ArrangementOperation.apply state = .ok result) (header : Header state) :
    ∀ operation ∈ operations, operation.inverse.Representable := by
  induction operations generalizing state with
  | nil => simp
  | cons operation rest tail =>
    rw [foldlM_cons, bind_ok] at done
    obtain ⟨middle, first, done⟩ := done
    obtain ⟨put, effect⟩ := ArrangementOperation.apply_effect first
    refine forall_mem_cons.mpr ⟨?_, tail done (effect.header header)⟩
    exact inverse_representable effect.addressed ((header.counted put.key).congr effect.ready)

end ArrangementState

end Audec.Arrangement

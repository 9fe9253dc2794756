import Audec.Arrangement.Undo

/-! Undo followed by redo: the exact condition under which an accepted transaction is undone. -/

open Machine Checked OrderedKeys GuardedStore Option
open Std (ExtTreeMap)

namespace Audec.Arrangement

open ArrangementState ContentKey

def described (state : ArrangementState) (operations : List ArrangementOperation) : ContentStore :=
  writes (puts operations) state.content

def describedPosition (store : ContentStore) (id : ClipId) : WithBot (Frame ×ₗ ClipId) :=
  positionOf (store (.clip id))

structure IndexesTrack (store : ContentStore) (track : TrackId) (index : List ClipId) : Prop where
  once : index.Nodup
  members : ∀ id, id ∈ index ↔ ∃ clip, store (.clip id) = some clip ∧ clip.trackId = track
  sorted : index.Pairwise fun a b => describedPosition store a ≤ describedPosition store b

/-- The batches whose inverse still fits after normalization: each track they write carries its own
    clips, the order they set lists the tracks, and a batch that sets no order only removes tracks
    standing last in ascending identity. -/
structure Reversible (state : ArrangementState) (operations : List ArrangementOperation) : Prop where
  indexes : ∀ id, ContentKey.track id ∈ keys (puts operations) → ∀ track,
    described state operations (.track id) = some track →
    IndexesTrack (described state operations) id track.clipIds
  orderSet : ContentKey.order ∈ keys (puts operations) →
    (described state operations .order).Nodup ∧
    ∀ id, id ∈ described state operations .order ↔ (described state operations (.track id)).isSome
  orderKept : ContentKey.order ∉ keys (puts operations) →
    state.trackOrder = state.trackOrder.filter (fun id => (described state operations (.track id)).isSome) ++
      state.tracks.keys.filter fun id => !(described state operations (.track id)).isSome

section Transaction

variable {state edited : ArrangementState} {operations : List ArrangementOperation}

theorem reindexed_track_id (valid : Valid edited.reindexed) {id : TrackId} {track : Track}
    (found : edited.tracks[id]? = some track) : track.id = id := by
  have kept := reindexed_tracks edited id
  rw [found, map_some] at kept
  have named := valid.track_id kept
  exact named

theorem not_stray_of_valid (valid : Valid edited.reindexed) (key : ContentKey) :
    ¬ Stray key (edited.content key) := by
  cases key with
  | track id =>
    change ¬ Stray (.track id) edited.tracks[id]?
    cases held : edited.tracks[id]? with
    | none => exact fun stray => stray
    | some track =>
      exact fun stray => stray (reindexed_track_id valid held)
  | clip id =>
    change ¬ Stray (.clip id) edited.clips[id]?
    cases held : edited.clips[id]? with
    | none => exact fun stray => stray
    | some clip => exact fun stray => stray (valid.clipsFiled id clip held)
  | order => exact fun stray => stray
  | marker => exact fun stray => stray

section

variable (effect : BatchEffect state operations edited)
include effect

theorem keepsIdentity_of_valid (valid : Valid edited.reindexed) :
    ∀ operation ∈ operations, operation.KeepsIdentity := by
  rcases effect.identities with keeps | ⟨key, stray⟩
  · exact keeps
  · exact absurd stray (not_stray_of_valid valid key)

theorem indexesTrack_iff (filed : ClipsFiled edited.clips)
    (id : TrackId) (index : List ClipId) :
    IndexesTrack (described state operations) id index ↔ index = derivedClipIds edited.clips id := by
  have clips (key : ClipId) : described state operations (.clip key) = edited.clips[key]? :=
    (congrFun effect.content (.clip key)).symm
  have positions : describedPosition (described state operations) = clipPosition edited.clips := by
    funext key
    rw [describedPosition, clips, clipPosition]
  constructor
  · rintro ⟨once, members, sorted⟩
    rw [positions] at sorted
    refine eq_derivedClipIds filed once (fun key => ?_) sorted
    rw [members, mem_listedClips filed]
    simp only [clips]
  · rintro rfl
    have perm := sortByPosition_perm (clipPosition edited.clips) (listedClips edited.clips id)
    refine ⟨perm.nodup_iff.mpr (nodup_listedClips filed id), fun key => ?_, ?_⟩
    · rw [derivedClipIds, perm.mem_iff, mem_listedClips filed]
      simp only [clips]
    · rw [positions]
      exact sortByPosition_sorted _ _

theorem described_order_iff :
    (described state operations .order).Nodup ∧
      (∀ id, id ∈ described state operations .order ↔ (described state operations (.track id)).isSome) ↔
    reindex edited.tracks.keys edited.trackOrder = edited.trackOrder := by
  have order : described state operations .order = edited.trackOrder := (congrFun effect.content .order).symm
  have tracks (id : TrackId) : (described state operations (.track id)).isSome ↔ id ∈ edited.tracks.keys := by
    rw [mem_keys_iff, ← isSome_iff_exists]
    exact iff_of_eq (congrArg (·.isSome = true) (congrFun effect.content (.track id)).symm)
  rw [reindex_eq_self_iff ExtTreeMap.nodup_keys, order]
  simp only [tracks]

end

theorem keptOrder_iff (valid : Valid state) (effect : BatchEffect state operations edited) :
    state.trackOrder = state.trackOrder.filter (fun id => (described state operations (.track id)).isSome) ++
      state.tracks.keys.filter (fun id => !(described state operations (.track id)).isSome) ↔
    reindex state.tracks.keys (reindex edited.tracks.keys state.trackOrder) = state.trackOrder := by
  have present : (fun id => (described state operations (.track id)).isSome) =
      fun id => edited.tracks.keys.contains id := by
    funext id
    rw [Bool.eq_iff_iff, List.contains_iff_mem, mem_keys_iff, ← isSome_iff_exists]
    exact iff_of_eq (congrArg (·.isSome = true) (congrFun effect.content (.track id)).symm)
  have absent : (fun id => !(described state operations (.track id)).isSome) =
      fun id => !edited.tracks.keys.contains id := by
    funext id
    rw [congrFun present id]
  rw [reindex_reindex ExtTreeMap.nodup_keys valid.orderOnce valid.orderMembers, present, absent]
  exact eq_comm

theorem guards_hold_iff (effect : BatchEffect state operations edited) (valid : Valid edited.reindexed) :
    (∀ key ∈ keys (puts operations), (edited.reindexed.content key == edited.content key) = true) ↔
      (∀ id, track id ∈ keys (puts operations) → ∀ track,
        described state operations (.track id) = some track →
        IndexesTrack (described state operations) id track.clipIds) ∧
      (order ∈ keys (puts operations) →
        (described state operations .order).Nodup ∧
        ∀ id, id ∈ described state operations .order ↔ (described state operations (.track id)).isSome) := by
  have filed : ClipsFiled edited.clips := valid.clipsFiled
  have tracks (id : TrackId) : described state operations (.track id) = edited.tracks[id]? :=
    (congrFun effect.content (.track id)).symm
  constructor
  · intro held
    refine ⟨fun id written track found => ?_, fun written => ?_⟩
    · rw [tracks] at found
      have same := held _ written
      change (edited.reindexed.tracks[id]? == edited.tracks[id]?) = true at same
      have kept := reindexed_tracks edited id
      rw [found, map_some] at kept
      have named := reindexed_track_id valid found
      rw [kept, found, some_beq_some, Track.beq_iff] at same
      rw [indexesTrack_iff effect filed, ← same.2.2.2.2.1, named]
    · rw [described_order_iff effect]
      exact beq_iff_eq.mp (held _ written)
  · rintro ⟨indexes, order⟩ key written
    have self := valid.sameContent_self key
    cases key with
    | track id =>
      change (edited.reindexed.tracks[id]? == edited.tracks[id]?) = true
      change (edited.reindexed.tracks[id]? == edited.reindexed.tracks[id]?) = true at self
      have kept := reindexed_tracks edited id
      cases found : edited.tracks[id]? with
      | none =>
        rw [kept, found]
        rfl
      | some track =>
        rw [found, map_some] at kept
        have named := reindexed_track_id valid found
        have index := indexes id written track (by rw [tracks, found])
        rw [indexesTrack_iff effect filed, ← named] at index
        rwa [kept, ← index] at self ⊢
    | clip id => exact self
    | order => exact beq_iff_eq.mpr ((described_order_iff effect).mp (order written))
    | marker frame => exact self

theorem isSome_map_unindexed (track : Option Track) : (track.map unindexed).isSome = track.isSome := by
  cases track <;> rfl

variable {restored committed : ArrangementState}

theorem inverse_rebuilds (valid : Valid state) (effect : BatchEffect state operations edited)
    (accepted : Valid edited.reindexed)
    (content : restored.content = writes (undo (puts operations)) edited.reindexed.content)
    (kept : order ∉ keys (puts operations) →
      reindex state.tracks.keys (reindex edited.tracks.keys state.trackOrder) = state.trackOrder) :
    Rebuilds restored state := by
  have self := valid.sameContent_self
  have touched {key : ContentKey} (written : key ∈ keys (puts operations)) :
      (restored.content key == state.content key) = true := by
    rw [content]
    exact writes_undo _ effect.accepted written
  have untouched {key : ContentKey} (unwritten : key ∉ keys (puts operations)) :
      restored.content key = edited.reindexed.content key ∧ edited.content key = state.content key := by
    rw [content, effect.content, writes_other _ _ unwritten, writes_other _ _ (by rwa [mem_keys_undo])]
    exact ⟨rfl, rfl⟩
  have tracks (id : TrackId) : (restored.tracks[id]?.map unindexed == state.tracks[id]?.map unindexed) = true := by
    by_cases written : track id ∈ keys (puts operations)
    · exact unindexed_congr (touched written)
    · obtain ⟨left, right⟩ := untouched written
      change restored.tracks[id]? = edited.reindexed.tracks[id]? at left
      change edited.tracks[id]? = state.tracks[id]? at right
      have same := unindexed_congr (self (.track id))
      change (state.tracks[id]?.map unindexed == state.tracks[id]?.map unindexed) = true at same
      rw [left, reindexed_tracks, right, map_map]
      exact same
  refine ⟨tracks, fun id => ?_, ?_, fun frame => ?_⟩
  · by_cases written : clip id ∈ keys (puts operations)
    · exact touched written
    · obtain ⟨left, right⟩ := untouched written
      change restored.clips[id]? = edited.clips[id]? at left
      change edited.clips[id]? = state.clips[id]? at right
      rw [left, right]
      exact self (.clip id)
  · have members : restored.tracks.keys = state.tracks.keys := by
      refine keys_congr fun id => ?_
      rw [← isSome_map_unindexed, isSome_congr (tracks id), isSome_map_unindexed]
    have ordered : reindex state.tracks.keys state.trackOrder = state.trackOrder :=
      (reindex_eq_self_iff ExtTreeMap.nodup_keys _).mpr ⟨valid.orderOnce, valid.orderMembers⟩
    rw [members]
    by_cases written : order ∈ keys (puts operations)
    · have same : restored.trackOrder = state.trackOrder := beq_iff_eq.mp (touched written)
      rw [same]
    · obtain ⟨left, right⟩ := untouched written
      have same : restored.trackOrder = reindex edited.tracks.keys state.trackOrder :=
        left.trans (congrArg (reindex edited.tracks.keys) right)
      rw [same, kept written, ordered]
  · by_cases written : marker frame ∈ keys (puts operations)
    · exact beq_iff_eq.mp (touched written)
    · obtain ⟨left, right⟩ := untouched written
      exact left.trans right

theorem inverse_addressed (effect : BatchEffect state operations edited)
    (keeps : ∀ operation ∈ operations, operation.KeepsIdentity) :
    ∀ operation ∈ operations.reverse.map ArrangementOperation.inverse, operation.put.isSome := by
  intro inverse listed
  obtain ⟨operation, member, rfl⟩ := List.mem_map.mp listed
  rw [List.mem_reverse] at member
  rw [ArrangementOperation.put_inverse (keeps operation member), isSome_map]
  exact effect.addressed operation member

theorem undo_commit_iff (valid : Valid state)
    (done : state.commit operations = .ok committed) :
    (∃ restored, committed.commit (operations.reverse.map ArrangementOperation.inverse) = .ok restored ∧
      SameContent restored state) ↔ Reversible state operations := by
  have run := done
  simp only [commit, bind_ok, lift_ok] at run
  obtain ⟨edited, batch, candidate, normalized, _, checked, returned⟩ := run
  cases returned
  obtain rfl := normalizeIndexes_ok normalized
  have accepted : Valid edited.reindexed := (validate_ok_iff _).mp checked
  have effect := batch_effect batch
  have keeps := keepsIdentity_of_valid effect accepted
  have guards : Accepts (undo (puts operations)) edited.reindexed.content ↔
      ∀ key ∈ keys (puts operations), (edited.reindexed.content key == edited.content key) = true := by
    rw [accepts_undo_iff effect.accepted, effect.content]
  constructor
  · rintro ⟨restored, undone, same⟩
    obtain ⟨reverted, reversal, rfl, _⟩ := commit_ok undone
    have held := reversal.accepted
    rw [puts_inverse keeps, guards, guards_hold_iff effect accepted] at held
    refine ⟨held.1, held.2, fun unwritten => ?_⟩
    rw [keptOrder_iff valid effect]
    have members : reverted.tracks.keys = state.tracks.keys := by
      rw [← reindexed_keys reverted]
      exact keys_congr fun id => isSome_congr (same (.track id))
    have order : reverted.trackOrder = reindex edited.tracks.keys state.trackOrder := by
      have left := congrFun reversal.content .order
      rw [puts_inverse keeps, writes_other _ _ (by rwa [mem_keys_undo])] at left
      have right := congrFun effect.content .order
      rw [writes_other _ _ unwritten] at right
      exact left.trans (congrArg (reindex edited.tracks.keys) right)
    have restoredOrder : reindex reverted.tracks.keys reverted.trackOrder = state.trackOrder :=
      beq_iff_eq.mp (same .order)
    rwa [members, order] at restoredOrder
  · intro reversible
    have held := guards.mpr ((guards_hold_iff effect accepted).mpr ⟨reversible.indexes, reversible.orderSet⟩)
    rw [← puts_inverse keeps] at held
    have representable : ∀ operation ∈ operations.reverse.map ArrangementOperation.inverse,
        operation.Representable := by
      intro inverse listed
      obtain ⟨operation, member, rfl⟩ := List.mem_map.mp listed
      exact batch_inverse_representable batch valid.header operation (List.mem_reverse.mp member)
    obtain ⟨reverted, reversal⟩ := batch_of_accepts held (inverse_addressed effect keeps) representable
    have back := batch_effect reversal
    have content := back.content
    rw [puts_inverse keeps] at content
    have rebuilds := inverse_rebuilds valid effect accepted content
      fun unwritten => (keptOrder_iff valid effect).mp (reversible.orderKept unwritten)
    have normalized : Valid state.reindexed := by
      rw [valid.reindexed_eq]
      exact valid
    obtain ⟨undone, same⟩ := commit_of_rebuilds reversal rebuilds normalized (back.header accepted.header)
    rw [valid.reindexed_eq] at same
    exact ⟨reverted.reindexed, undone, same⟩

theorem redo_commit (done : state.commit operations = .ok committed)
    (same : SameContent restored state) (valid : Valid restored) :
    ∃ repeated, restored.commit operations = .ok repeated ∧ SameContent repeated committed := by
  obtain ⟨edited, effect, rfl, accepted⟩ := commit_ok done
  have self := accepted.sameContent_self
  have ready : Accepts (puts operations) restored.content :=
    effect.accepted.congr fun key _ => Or.inr (BEq.symm (same key))
  obtain ⟨again, rebatch⟩ := batch_of_accepts ready effect.addressed effect.representable
  have reeffect := batch_effect rebatch
  have alike (key : ContentKey) : again.content key = edited.content key ∨
      (again.content key == edited.content key) = true := by
    rw [reeffect.content, effect.content]
    by_cases written : key ∈ keys (puts operations)
    · exact Or.inl (writes_touched _ _ _ written)
    · rw [writes_other _ _ written, writes_other _ _ written]
      exact Or.inr (same key)
  have tracks (id : TrackId) : (again.tracks[id]?.map unindexed == edited.tracks[id]?.map unindexed) = true := by
    rcases alike (.track id) with equal | equal
    · change again.tracks[id]? = edited.tracks[id]? at equal
      have kept := unindexed_congr (self (.track id))
      change (edited.reindexed.tracks[id]?.map unindexed == edited.reindexed.tracks[id]?.map unindexed) = true at kept
      rw [reindexed_tracks, map_map] at kept
      rw [equal]
      exact kept
    · exact unindexed_congr equal
  have rebuilds : Rebuilds again edited := by
    refine ⟨tracks, fun id => ?_, ?_, fun frame => ?_⟩
    · rcases alike (.clip id) with equal | equal
      · change again.clips[id]? = edited.clips[id]? at equal
        rw [equal]
        exact self (.clip id)
      · exact equal
    · have members : again.tracks.keys = edited.tracks.keys := by
        refine keys_congr fun id => ?_
        rw [← isSome_map_unindexed, isSome_congr (tracks id), isSome_map_unindexed]
      have order : again.trackOrder = edited.trackOrder := by
        rcases alike .order with equal | equal
        · exact equal
        · exact beq_iff_eq.mp equal
      rw [members, order]
    · rcases alike (.marker frame) with equal | equal
      · exact equal
      · exact beq_iff_eq.mp equal
  obtain ⟨redone, result⟩ := commit_of_rebuilds rebatch rebuilds accepted (reeffect.header valid.header)
  exact ⟨again.reindexed, redone, result⟩

end Transaction

namespace ArrangementEditor

def UndoesAndRedoes (editor edited : ArrangementEditor) : Prop :=
  ∃ undone redone before after, edited.undo = (undone, .ok (some before)) ∧
    SameContent undone.state editor.state ∧ undone.redo = (redone, .ok (some after)) ∧
    SameContent redone.state edited.state

variable {editor : ArrangementEditor} {revision : U64} {entry : HistoryEntry}

theorem apply_change {edited : ArrangementEditor} {transaction : ArrangementTransaction}
    (accepted : editor.apply transaction = (edited, .ok revision)) (change : transaction.isNoop = false) :
    editor.state.commit transaction.operations = .ok edited.state ∧ edited.historyLimit = editor.historyLimit ∧
      edited.redoStack = [] ∧ checkedSucc editor.revision = some revision ∧ edited.revision = revision ∧
      edited.savedRevision = editor.savedRevision ∧
      edited.undoStack = if editor.historyLimit > 0 then
        newest editor.historyLimit (editor.undoStack ++ [⟨transaction, transaction.inverse, editor.revision, revision⟩])
        else editor.undoStack := by
  unfold apply at accepted
  rw [change] at accepted
  split at accepted
  · cases accepted
  · simp only [Bool.false_eq_true, if_false] at accepted
    cases run : editor.state.commit transaction.operations with
    | error stop => simp [run] at accepted
    | ok candidate =>
      cases next : checkedSucc editor.revision with
      | none => simp [run, next] at accepted
      | some successor =>
        simp only [run, next, Prod.mk.injEq, Except.ok.injEq] at accepted
        obtain ⟨rfl, rfl⟩ := accepted
        exact ⟨rfl, rfl, rfl, rfl, rfl, rfl, rfl⟩

theorem newest_concat {limit : Nat} (room : 0 < limit) (entries : List HistoryEntry) (entry : HistoryEntry) :
    (newest limit (entries ++ [entry])).getLast? = some entry := by
  rw [newest, List.drop_append_of_le_length (by simp; omega), List.getLast?_concat]

theorem undo_of_commit {restored : ArrangementState}
    (last : editor.undoStack.getLast? = some entry)
    (done : editor.state.commit entry.inverse.operations = .ok restored) :
    ∃ undone, editor.undo = (undone, .ok (some entry.beforeRevision)) ∧ undone.state = restored ∧
      undone.redoStack = editor.redoStack ++ [entry] ∧ undone.undoStack = editor.undoStack.dropLast ∧
      undone.revision = entry.beforeRevision ∧ undone.savedRevision = editor.savedRevision ∧
      undone.historyLimit = editor.historyLimit := by
  unfold undo
  split
  · rename_i empty
    rw [last] at empty
    cases empty
  · rename_i found newest
    obtain rfl : entry = found := some.inj (last.symm.trans newest)
    simp only [done]
    exact ⟨_, rfl, rfl, rfl, rfl, rfl, rfl, rfl⟩

theorem undo_ok {undone : ArrangementEditor}
    (last : editor.undoStack.getLast? = some entry) (done : editor.undo = (undone, .ok (some revision))) :
    editor.state.commit entry.inverse.operations = .ok undone.state := by
  unfold undo at done
  split at done
  · rename_i empty
    rw [last] at empty
    cases empty
  · rename_i found newest
    obtain rfl : entry = found := some.inj (last.symm.trans newest)
    cases run : editor.state.commit entry.inverse.operations with
    | error stop => simp [run] at done
    | ok restored =>
      simp only [run, Prod.mk.injEq] at done
      rw [← done.1]

theorem redo_of_commit {repeated : ArrangementState}
    (last : editor.redoStack.getLast? = some entry)
    (done : editor.state.commit entry.forward.operations = .ok repeated) :
    ∃ redone, editor.redo = (redone, .ok (some entry.afterRevision)) ∧ redone.state = repeated ∧
      redone.undoStack = editor.undoStack ++ [entry] ∧ redone.redoStack = editor.redoStack.dropLast ∧
      redone.revision = entry.afterRevision ∧ redone.savedRevision = editor.savedRevision ∧
      redone.historyLimit = editor.historyLimit := by
  unfold redo
  split
  · rename_i empty
    rw [last] at empty
    cases empty
  · rename_i found newest
    obtain rfl : entry = found := some.inj (last.symm.trans newest)
    simp only [done]
    exact ⟨_, rfl, rfl, rfl, rfl, rfl, rfl, rfl⟩

/-- Undo and redo after an accepted change restore the content on both sides exactly when the editor keeps
    history and the transaction is reversible. -/
theorem undoesAndRedoes_iff (editor edited : ArrangementEditor) (transaction : ArrangementTransaction)
    (revision : U64) (valid : editor.state.validate = .ok ())
    (accepted : editor.apply transaction = (edited, .ok revision)) (change : transaction.isNoop = false) :
    UndoesAndRedoes editor edited ↔
      0 < editor.historyLimit ∧ Reversible editor.state transaction.operations := by
  obtain ⟨committed, limit, redoStack, -, -, -, undoStack⟩ := apply_change accepted change
  rw [validate_ok_iff] at valid
  by_cases recording : 0 < editor.historyLimit
  · rw [if_pos recording] at undoStack
    have last : edited.undoStack.getLast? =
        some ⟨transaction, transaction.inverse, editor.revision, revision⟩ := by
      rw [undoStack, newest_concat recording]
    rw [← undo_commit_iff valid committed]
    constructor
    · rintro ⟨undone, redone, before, after, undo, same, -, -⟩
      exact ⟨recording, undone.state, undo_ok last undo, same⟩
    · rintro ⟨-, restored, run, same⟩
      obtain ⟨undone, undo, state, redos, -⟩ := undo_of_commit last run
      obtain ⟨-, -, -, revalid⟩ := commit_ok run
      obtain ⟨repeated, rerun, again⟩ := redo_commit committed same revalid
      rw [redoStack, List.nil_append] at redos
      rw [← state] at rerun
      have newest : undone.redoStack.getLast? =
          some ⟨transaction, transaction.inverse, editor.revision, revision⟩ := by
        rw [redos]
        rfl
      obtain ⟨redone, redo, result, -⟩ := redo_of_commit newest rerun
      exact ⟨undone, redone, _, _, undo, state ▸ same, redo, result ▸ again⟩
  · have unlimited : editor.historyLimit = 0 := by omega
    have empty := (edited.unrecorded (limit.trans unlimited)).1
    constructor
    · rintro ⟨undone, redone, before, after, undo, -⟩
      unfold ArrangementEditor.undo at undo
      split at undo
      · cases undo
      · rename_i found newest
        rw [empty] at newest
        cases newest
    · rintro ⟨positive, -⟩
      exact absurd positive recording

end ArrangementEditor

/-! A one-track arrangement, a transaction that renames the track while placing a clip on it, and one that only
    places the clip. -/

def bareTrack : Track where
  id := ⟨1⟩
  name := "keys"
  kind := .pattern
  overlap := .mix
  clipIds := []
  muted := false
  solo := false
  locked := false
  gainDb := 0.0
  pan := 0.0
  color := none

def bareClip : Clip where
  id := ⟨1⟩
  trackId := ⟨1⟩
  name := "verse"
  placement := ⟨I64.saturate 0, I64.saturate 48000⟩
  content := .pattern ⟨⟨1⟩, 0, true⟩
  fades := ⟨none, none⟩
  gainDb := 0.0
  muted := false
  locked := false

def bareState : ArrangementState where
  schemaVersion := 1
  sampleRate := 48000
  tracks := (∅ : Std.ExtTreeMap TrackId Track).insert ⟨1⟩ bareTrack
  clips := ∅
  trackOrder := [⟨1⟩]
  nextTrackId := 2
  nextClipId := 1
  markers := ∅

def bareEditor : ArrangementEditor := .opened bareState

def renameAndPlace : ArrangementTransaction where
  label := "rename and place"
  operations := [.putTrack (some bareTrack) (some { bareTrack with name := "lead" }), .putClip none (some bareClip)]

def placeClip : ArrangementTransaction where
  label := "place"
  operations := [.putClip none (some bareClip)]

/-- Renaming a track and placing a clip on it in one transaction leaves an entry that undo rejects. -/
theorem rename_and_place_not_undone :
    bareEditor.state.validate = .ok () ∧ renameAndPlace.isNoop = false ∧
      (bareEditor.apply renameAndPlace).2 = .ok 1 ∧
      (bareEditor.apply renameAndPlace).1.undo.2 = .error (.error (.staleOperation "track")) ∧
      ¬ ArrangementEditor.UndoesAndRedoes bareEditor (bareEditor.apply renameAndPlace).1 := by
  have rejected : (bareEditor.apply renameAndPlace).1.undo.2 = .error (.error (.staleOperation "track")) := by rfl
  refine ⟨by rfl, by rfl, by rfl, rejected, ?_⟩
  rintro ⟨undone, redone, before, after, undo, -⟩
  rw [undo] at rejected
  cases rejected

theorem place_clip_reversible : Reversible bareState placeClip.operations := by
  have written : keys (puts placeClip.operations) = [.clip ⟨1⟩] := rfl
  refine ⟨fun id member => ?_, fun member => ?_, fun _ => by rfl⟩
  · rw [written, List.mem_singleton] at member
    cases member
  · rw [written, List.mem_singleton] at member
    cases member

theorem place_clip_undoes_and_redoes :
    ArrangementEditor.UndoesAndRedoes bareEditor (bareEditor.apply placeClip).1 :=
  (ArrangementEditor.undoesAndRedoes_iff bareEditor (bareEditor.apply placeClip).1 placeClip 1 (by rfl) (by rfl)
    (by rfl)).mpr ⟨by decide, place_clip_reversible⟩

end Audec.Arrangement

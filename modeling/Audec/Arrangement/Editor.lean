import Audec.Arrangement.Model
import Audec.Lib.OrderedKeys

open Machine Checked OrderedKeys
open Std (ExtTreeMap)

namespace Audec.Arrangement

inductive ArrangementOperation where
  | putTrack (before after : Option Track)
  | putClip (before after : Option Clip)
  | setTrackOrder (before after : List TrackId)
  | putMarker (frame : Frame) (before after : Option Marker)

namespace ArrangementOperation

def inverse : ArrangementOperation → ArrangementOperation
  | .putTrack before after => .putTrack after before
  | .putClip before after => .putClip after before
  | .setTrackOrder before after => .setTrackOrder after before
  | .putMarker frame before after => .putMarker frame after before

def isNoop : ArrangementOperation → Bool
  | .putTrack before after => before == after
  | .putClip before after => before == after
  | .setTrackOrder before after => before == after
  | .putMarker _ before after => before == after

/-- The entity a replacement is about, once the value stored under it is the one expected. -/
def checkExisting {α : Type} [BEq α] (label : String) (before after : Option α) (lookup : α → Option α) :
    Except ArrangementError α :=
  match before.or after with
  | none => .error .emptyOperation
  | some probe => do
    ensure ((lookup probe == before) = true) (.staleOperation label)
    return probe

def apply (state : ArrangementState) : ArrangementOperation → Except ArrangementError ArrangementState
  | .putTrack before after => do
    let probe ← checkExisting "track" before after fun track => state.tracks[track.id]?
    match after with
    | some track =>
      match checkedSucc track.id.raw with
      | none => .error .idOverflow
      | some next =>
        return { state with
          nextTrackId := max state.nextTrackId next
          tracks := state.tracks.insert probe.id track }
    | none => return { state with tracks := state.tracks.erase probe.id }
  | .putClip before after => do
    let probe ← checkExisting "clip" before after fun clip => state.clips[clip.id]?
    match after with
    | some clip =>
      match checkedSucc clip.id.raw with
      | none => .error .idOverflow
      | some next =>
        return { state with
          nextClipId := max state.nextClipId next
          clips := state.clips.insert probe.id clip }
    | none => return { state with clips := state.clips.erase probe.id }
  | .setTrackOrder before after => do
    ensure (state.trackOrder = before) (.staleOperation "track order")
    return { state with trackOrder := after }
  | .putMarker frame before after => do
    ensure (¬ (before.isNone = true ∧ after.isNone = true)) .emptyOperation
    ensure (state.markers[frame]? = before) (.staleOperation "marker")
    match after with
    | some marker => return { state with markers := state.markers.insert frame marker }
    | none => return { state with markers := state.markers.erase frame }

end ArrangementOperation

namespace ArrangementState

def positionOf : Option Clip → WithBot (Frame ×ₗ ClipId)
  | some clip => some clip.position
  | none => none

section

variable (clips : ExtTreeMap ClipId Clip)

def clipPosition (id : ClipId) : WithBot (Frame ×ₗ ClipId) := positionOf clips[id]?

/-- The clip index of a track as `normalize_indexes` rebuilds it. -/
def derivedClipIds (track : TrackId) : List ClipId :=
  sortByPosition (clipPosition clips) (listedClips clips track)

/-- Sorting two or more identities looks each of them up, which panics when one is missing. -/
def sortPanics (track : TrackId) : Bool :=
  2 ≤ (listedClips clips track).length && (listedClips clips track).any fun id => clips[id]?.isNone

end

section

variable (state : ArrangementState)

def reindexed : ArrangementState :=
  { state with
    trackOrder := reindex state.tracks.keys state.trackOrder
    tracks := state.tracks.map fun _ track => { track with clipIds := derivedClipIds state.clips track.id } }

def normalizeIndexes : Except (Stop ArrangementError) ArrangementState :=
  if state.tracks.toList.any fun entry => sortPanics state.clips entry.2.id then .error .panic
  else .ok state.reindexed

def commit (operations : List ArrangementOperation) :
    Except (Stop ArrangementError) ArrangementState := do
  let edited ← lift (operations.foldlM ArrangementOperation.apply state)
  let candidate ← edited.normalizeIndexes
  lift candidate.validate
  return candidate

def applyOperations (operations : List ArrangementOperation) :
    Except (Stop ArrangementError) ArrangementState :=
  if operations.isEmpty then .error (.error .emptyTransaction) else state.commit operations

end

end ArrangementState

end Audec.Arrangement

open Machine Checked

namespace Audec.Arrangement

structure ArrangementTransaction where
  label : String
  operations : List ArrangementOperation

namespace ArrangementTransaction

def inverse (transaction : ArrangementTransaction) : ArrangementTransaction where
  label := transaction.label
  operations := transaction.operations.reverse.map ArrangementOperation.inverse

def isNoop (transaction : ArrangementTransaction) : Bool :=
  transaction.operations.all ArrangementOperation.isNoop

end ArrangementTransaction

structure HistoryEntry where
  forward : ArrangementTransaction
  inverse : ArrangementTransaction
  beforeRevision : U64
  afterRevision : U64

structure Selection where
  clips : Finset ClipId
  tracks : Finset TrackId
  time : Option FrameRange

def Selection.empty : Selection := ⟨∅, ∅, none⟩

def Selection.retainValid (selection : Selection) (state : ArrangementState) : Selection :=
  { selection with
    clips := selection.clips.filter fun id => state.clips[id]?.isSome
    tracks := selection.tracks.filter fun id => state.tracks[id]?.isSome }

/-- The editing façade. `undoStack` and `redoStack` hold their most recent entry last, and an editor
    that keeps no history has none. -/
structure ArrangementEditor where
  state : ArrangementState
  selection : Selection
  undoStack : List HistoryEntry
  redoStack : List HistoryEntry
  revision : U64
  savedRevision : U64
  historyLimit : Nat
  unrecorded : historyLimit = 0 → undoStack = [] ∧ redoStack = []

namespace ArrangementEditor

def opened (state : ArrangementState) : ArrangementEditor where
  state := state
  selection := .empty
  undoStack := []
  redoStack := []
  revision := 0
  savedRevision := 0
  historyLimit := 256
  unrecorded := by simp

def fromState (state : ArrangementState) : Except ArrangementError ArrangementEditor := do
  state.validate
  return opened state

def isDirty (editor : ArrangementEditor) : Bool := editor.revision != editor.savedRevision

def markSaved (editor : ArrangementEditor) : ArrangementEditor := { editor with savedRevision := editor.revision }

def newest (limit : Nat) (entries : List HistoryEntry) : List HistoryEntry :=
  entries.drop (entries.length - limit)

def setHistoryLimit (editor : ArrangementEditor) (limit : Nat) : ArrangementEditor :=
  { editor with
    historyLimit := limit
    undoStack := newest limit editor.undoStack
    redoStack := newest limit editor.redoStack
    unrecorded := by
      rintro rfl
      simp [newest] }

def apply (editor : ArrangementEditor) (transaction : ArrangementTransaction) :
    ArrangementEditor × Except (Stop ArrangementError) U64 :=
  if transaction.operations.isEmpty then (editor, .error (.error .emptyTransaction))
  else if transaction.isNoop then (editor, .ok editor.revision)
  else
    match editor.state.commit transaction.operations with
    | .error stop => (editor, .error stop)
    | .ok candidate =>
      match checkedSucc editor.revision with
      | none => (editor, .error (.error .revisionOverflow))
      | some revision =>
        let entry : HistoryEntry :=
          { forward := transaction, inverse := transaction.inverse, beforeRevision := editor.revision,
            afterRevision := revision }
        ({ editor with
            state := candidate
            revision
            redoStack := []
            undoStack := if editor.historyLimit > 0 then newest editor.historyLimit (editor.undoStack ++ [entry])
              else editor.undoStack
            selection := editor.selection.retainValid candidate
            unrecorded := by
              intro unlimited
              simp [unlimited, (editor.unrecorded unlimited).1] }, .ok revision)

variable {editor : ArrangementEditor} {entry : HistoryEntry}

theorem recording_of_undo
    (last : editor.undoStack.getLast? = some entry) : editor.historyLimit ≠ 0 := by
  intro unlimited
  rw [(editor.unrecorded unlimited).1] at last
  cases last

theorem recording_of_redo
    (last : editor.redoStack.getLast? = some entry) : editor.historyLimit ≠ 0 := by
  intro unlimited
  rw [(editor.unrecorded unlimited).2] at last
  cases last

def undo (editor : ArrangementEditor) : ArrangementEditor × Except (Stop ArrangementError) (Option U64) :=
  match last : editor.undoStack.getLast? with
  | none => (editor, .ok none)
  | some entry =>
    let popped : ArrangementEditor :=
      { editor with
        undoStack := editor.undoStack.dropLast
        unrecorded := fun unlimited => absurd unlimited (recording_of_undo last) }
    match editor.state.commit entry.inverse.operations with
    | .error stop => (popped, .error stop)
    | .ok candidate =>
      ({ popped with
          state := candidate
          revision := entry.beforeRevision
          redoStack := editor.redoStack ++ [entry]
          selection := editor.selection.retainValid candidate
          unrecorded := fun unlimited => absurd (show editor.historyLimit = 0 from unlimited) (recording_of_undo last) },
        .ok (some entry.beforeRevision))

def redo (editor : ArrangementEditor) : ArrangementEditor × Except (Stop ArrangementError) (Option U64) :=
  match last : editor.redoStack.getLast? with
  | none => (editor, .ok none)
  | some entry =>
    let popped : ArrangementEditor :=
      { editor with
        redoStack := editor.redoStack.dropLast
        unrecorded := fun unlimited => absurd unlimited (recording_of_redo last) }
    match editor.state.commit entry.forward.operations with
    | .error stop => (popped, .error stop)
    | .ok candidate =>
      ({ popped with
          state := candidate
          revision := entry.afterRevision
          undoStack := editor.undoStack ++ [entry]
          selection := editor.selection.retainValid candidate
          unrecorded := fun unlimited => absurd (show editor.historyLimit = 0 from unlimited) (recording_of_redo last) },
        .ok (some entry.afterRevision))

end ArrangementEditor

end Audec.Arrangement

import Audec.Arrangement.RoundTrip

/-! What undo and redo do with a history entry that can no longer be applied. -/

open Machine Checked OrderedKeys GuardedStore Option
open Std (ExtTreeMap)

namespace Audec.Arrangement

namespace ArrangementOperation

/-- What an operation leaves behind when no check stops it. -/
def overwrite (state : ArrangementState) : ArrangementOperation → ArrangementState
  | .putTrack before (some track) =>
    { state with
      nextTrackId := max state.nextTrackId (track.id.raw + 1)
      tracks := state.tracks.insert (before.getD track).id track }
  | .putTrack (some track) none => { state with tracks := state.tracks.erase track.id }
  | .putTrack none none => state
  | .putClip before (some clip) =>
    { state with
      nextClipId := max state.nextClipId (clip.id.raw + 1)
      clips := state.clips.insert (before.getD clip).id clip }
  | .putClip (some clip) none => { state with clips := state.clips.erase clip.id }
  | .putClip none none => state
  | .setTrackOrder _ after => { state with trackOrder := after }
  | .putMarker frame _ (some marker) => { state with markers := state.markers.insert frame marker }
  | .putMarker frame _ none => { state with markers := state.markers.erase frame }

theorem checkedSucc_eq_succ {id next : U64} (fits : checkedSucc id = some next) : next = id + 1 := by
  rw [checkedSucc_eq_some] at fits
  have limit := next.isLt
  apply Fin.ext
  rw [Fin.val_add_one_of_lt']
  · exact fits
  · omega

theorem apply_eq_overwrite {state result : ArrangementState} {operation : ArrangementOperation}
    (done : operation.apply state = .ok result) : result = operation.overwrite state := by
  cases operation with
  | putTrack before after =>
    simp only [apply, bind_ok, checkExisting_ok] at done
    obtain ⟨probe, ⟨found, -⟩, done⟩ := done
    cases after with
    | none =>
      cases before with
      | none => cases found
      | some track =>
        cases found
        cases done
        rfl
    | some track =>
      cases fits : checkedSucc track.id.raw with
      | none => simp [fits] at done
      | some next =>
        simp only [fits] at done
        cases done
        rw [checkedSucc_eq_succ fits]
        cases before <;> cases found <;> rfl
  | putClip before after =>
    simp only [apply, bind_ok, checkExisting_ok] at done
    obtain ⟨probe, ⟨found, -⟩, done⟩ := done
    cases after with
    | none =>
      cases before with
      | none => cases found
      | some clip =>
        cases found
        cases done
        rfl
    | some clip =>
      cases fits : checkedSucc clip.id.raw with
      | none => simp [fits] at done
      | some next =>
        simp only [fits] at done
        cases done
        rw [checkedSucc_eq_succ fits]
        cases before <;> cases found <;> rfl
  | setTrackOrder before after =>
    simp only [apply, bind_unit_ok] at done
    cases done.2
    rfl
  | putMarker frame before after =>
    simp only [apply, bind_unit_ok] at done
    obtain ⟨-, -, done⟩ := done
    cases after with
    | none =>
      cases done
      rfl
    | some marker =>
      cases done
      rfl

end ArrangementOperation

namespace ArrangementState

def overwritten (state : ArrangementState) (operations : List ArrangementOperation) : ArrangementState :=
  operations.foldl ArrangementOperation.overwrite state

variable {state : ArrangementState}

variable {operations : List ArrangementOperation}

theorem batch_eq_overwritten {result : ArrangementState}
    (done : operations.foldlM ArrangementOperation.apply state = .ok result) :
    result = state.overwritten operations := by
  induction operations generalizing state with
  | nil =>
    cases done
    rfl
  | cons operation rest tail =>
    rw [List.foldlM_cons, bind_ok] at done
    obtain ⟨middle, first, done⟩ := done
    rw [tail done, ArrangementOperation.apply_eq_overwrite first]
    rfl

/-- The operations that can still be applied in turn: each replaces the value it expects, every identity it
    stores has a successor, and what they leave behind is valid once its indexes are rebuilt. -/
structure Replayable (state : ArrangementState) (operations : List ArrangementOperation) : Prop where
  addressed : ∀ operation ∈ operations, operation.put.isSome
  representable : ∀ operation ∈ operations, operation.Representable
  current : Accepts (puts operations) state.content
  lawful : ∀ candidate, (state.overwritten operations).normalizeIndexes = .ok candidate → Valid candidate

theorem normalizeIndexes_not_error (error : ArrangementError) :
    state.normalizeIndexes ≠ .error (.error error) := by
  intro stopped
  unfold normalizeIndexes at stopped
  split at stopped <;> cases stopped

theorem commit_not_error_iff :
    (∀ error, state.commit operations ≠ .error (.error error)) ↔ Replayable state operations := by
  constructor
  · intro never
    cases batch : operations.foldlM ArrangementOperation.apply state with
    | error error =>
      refine absurd ?_ (never error)
      simp only [commit, batch]
      rfl
    | ok edited =>
      have effect := batch_effect batch
      obtain rfl := batch_eq_overwritten batch
      refine ⟨effect.addressed, effect.representable, effect.accepted, fun candidate normalized => ?_⟩
      rw [← validate_ok_iff]
      cases checked : candidate.validate with
      | ok done => rfl
      | error error =>
        refine absurd ?_ (never error)
        simp only [commit, batch, lift, Except.mapError, bind, Except.bind, normalized, checked]
  · intro replayable error stopped
    obtain ⟨edited, batch⟩ :=
      batch_of_accepts replayable.current replayable.addressed replayable.representable
    have same := batch_eq_overwritten batch
    cases normalized : edited.normalizeIndexes with
    | error stop =>
      simp only [commit, batch, lift, Except.mapError, bind, Except.bind, normalized] at stopped
      cases stop with
      | panic => cases stopped
      | error other => exact normalizeIndexes_not_error other normalized
    | ok candidate =>
      have valid := replayable.lawful candidate (same ▸ normalized)
      have done : state.commit operations = .ok candidate := by
        simp only [commit, bind_ok, lift_ok]
        exact ⟨edited, batch, candidate, normalized, (), (validate_ok_iff _).mpr valid, rfl⟩
      rw [done] at stopped
      cases stopped

end ArrangementState

namespace ArrangementEditor

open ArrangementState

def FailsUntouched (editor : ArrangementEditor)
    (called : ArrangementEditor × Except (Stop ArrangementError) (Option U64)) : Prop :=
  ∀ error, called.2 = .error (.error error) → called.1 = editor

variable {editor : ArrangementEditor} {entry : HistoryEntry}

variable {stop : Stop ArrangementError} {error : ArrangementError}

theorem undo_of_error
    (last : editor.undoStack.getLast? = some entry)
    (failed : editor.state.commit entry.inverse.operations = .error stop) :
    editor.undo.2 = .error stop ∧ editor.undo.1.undoStack = editor.undoStack.dropLast := by
  unfold undo
  split
  · rename_i empty
    rw [last] at empty
    cases empty
  · rename_i found newest
    obtain rfl : entry = found := some.inj (last.symm.trans newest)
    simp [failed]

theorem redo_of_error
    (last : editor.redoStack.getLast? = some entry)
    (failed : editor.state.commit entry.forward.operations = .error stop) :
    editor.redo.2 = .error stop ∧ editor.redo.1.redoStack = editor.redoStack.dropLast := by
  unfold redo
  split
  · rename_i empty
    rw [last] at empty
    cases empty
  · rename_i found newest
    obtain rfl : entry = found := some.inj (last.symm.trans newest)
    simp [failed]

theorem undo_error
    (failed : editor.undo.2 = .error (.error error)) : ∃ entry, editor.undoStack.getLast? = some entry ∧
      editor.state.commit entry.inverse.operations = .error (.error error) := by
  cases last : editor.undoStack.getLast? with
  | none =>
    unfold undo at failed
    split at failed
    · cases failed
    · rename_i found newest
      rw [last] at newest
      cases newest
  | some entry =>
    cases run : editor.state.commit entry.inverse.operations with
    | ok restored =>
      obtain ⟨undone, undo, -⟩ := undo_of_commit last run
      rw [undo] at failed
      cases failed
    | error stop =>
      rw [(undo_of_error last run).1] at failed
      cases failed
      exact ⟨entry, rfl, run⟩

theorem redo_error
    (failed : editor.redo.2 = .error (.error error)) : ∃ entry, editor.redoStack.getLast? = some entry ∧
      editor.state.commit entry.forward.operations = .error (.error error) := by
  cases last : editor.redoStack.getLast? with
  | none =>
    unfold redo at failed
    split at failed
    · cases failed
    · rename_i found newest
      rw [last] at newest
      cases newest
  | some entry =>
    cases run : editor.state.commit entry.forward.operations with
    | ok repeated =>
      obtain ⟨redone, redo, -⟩ := redo_of_commit last run
      rw [redo] at failed
      cases failed
    | error stop =>
      rw [(redo_of_error last run).1] at failed
      cases failed
      exact ⟨entry, rfl, run⟩

theorem dropLast_ne {entries : List HistoryEntry} (last : entries.getLast? = some entry) :
    entries.dropLast ≠ entries := by
  intro same
  have length := congrArg List.length same
  cases entries with
  | nil => cases last
  | cons head tail => simp at length

theorem undo_untouched_iff (editor : ArrangementEditor) : editor.FailsUntouched editor.undo ↔
    ∀ entry, editor.undoStack.getLast? = some entry → Replayable editor.state entry.inverse.operations := by
  constructor
  · intro untouched entry last
    rw [← commit_not_error_iff]
    intro error failed
    obtain ⟨stopped, popped⟩ := undo_of_error last failed
    rw [untouched error stopped] at popped
    exact dropLast_ne last popped.symm
  · intro replayable error failed
    obtain ⟨entry, last, stopped⟩ := undo_error failed
    exact absurd stopped (commit_not_error_iff.mpr (replayable entry last) error)

theorem redo_untouched_iff (editor : ArrangementEditor) : editor.FailsUntouched editor.redo ↔
    ∀ entry, editor.redoStack.getLast? = some entry → Replayable editor.state entry.forward.operations := by
  constructor
  · intro untouched entry last
    rw [← commit_not_error_iff]
    intro error failed
    obtain ⟨stopped, popped⟩ := redo_of_error last failed
    rw [untouched error stopped] at popped
    exact dropLast_ne last popped.symm
  · intro replayable error failed
    obtain ⟨entry, last, stopped⟩ := redo_error failed
    exact absurd stopped (commit_not_error_iff.mpr (replayable entry last) error)

/-- A failing undo or redo leaves the editor alone exactly when neither can fail: the entry is taken off its
    stack before its operations are tried. -/
theorem failing_history_untouched_iff (editor : ArrangementEditor) :
    editor.FailsUntouched editor.undo ∧ editor.FailsUntouched editor.redo ↔
      (∀ entry, editor.undoStack.getLast? = some entry →
        Replayable editor.state entry.inverse.operations) ∧
      ∀ entry, editor.redoStack.getLast? = some entry →
        Replayable editor.state entry.forward.operations := by
  rw [undo_untouched_iff, redo_untouched_iff]

end ArrangementEditor

/-- The entry that undo cannot apply is gone after the attempt. -/
theorem rename_and_place_lost :
    bareEditor.state.validate = .ok () ∧ (bareEditor.apply renameAndPlace).2 = .ok 1 ∧
      (bareEditor.apply renameAndPlace).1.undo.2 = .error (.error (.staleOperation "track")) ∧
      (bareEditor.apply renameAndPlace).1.undoStack.length = 1 ∧
      (bareEditor.apply renameAndPlace).1.undo.1.undoStack.length = 0 ∧
      ¬ (bareEditor.apply renameAndPlace).1.FailsUntouched (bareEditor.apply renameAndPlace).1.undo := by
  have held : (bareEditor.apply renameAndPlace).1.undoStack.length = 1 := by rfl
  have lost : (bareEditor.apply renameAndPlace).1.undo.1.undoStack.length = 0 := by rfl
  refine ⟨by rfl, by rfl, by rfl, held, lost, fun untouched => ?_⟩
  rw [untouched (.staleOperation "track") (by rfl), held] at lost
  cases lost

end Audec.Arrangement

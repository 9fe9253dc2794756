import Audec.Arrangement.RoundTrip

/-! Runs of the editor, and when equal revisions mean equal content. -/

open Machine Checked List
open Std (ExtTreeMap)

namespace Audec.Arrangement

open ArrangementState ArrangementEditor

inductive EditorStep where
  | apply (transaction : ArrangementTransaction)
  | undo
  | redo
  | markSaved

namespace ArrangementEditor

def step (editor : ArrangementEditor) : EditorStep → ArrangementEditor
  | .apply transaction => (editor.apply transaction).1
  | .undo => editor.undo.1
  | .redo => editor.redo.1
  | .markSaved => editor.markSaved

end ArrangementEditor

/-- An editor with what an observer of its run remembers: the arrangement last saved, and every revision
    and arrangement passed through. -/
structure EditorRun where
  editor : ArrangementEditor
  saved : ArrangementState
  seen : List (U64 × ArrangementState)

namespace EditorRun

def start (editor : ArrangementEditor) : EditorRun :=
  ⟨editor, editor.state, [(editor.revision, editor.state)]⟩

def step (run : EditorRun) (action : EditorStep) : EditorRun where
  editor := run.editor.step action
  saved := match action with
    | .markSaved => run.editor.state
    | _ => run.saved
  seen := ((run.editor.step action).revision, (run.editor.step action).state) :: run.seen

def steps (run : EditorRun) (actions : List EditorStep) : EditorRun := actions.foldl step run

/-- A change made with nothing left to redo, by a transaction that undo restores. -/
def Linear (run : EditorRun) : EditorStep → Prop
  | .apply transaction => transaction.isNoop = false →
    (∃ edited revision, run.editor.apply transaction = (edited, .ok revision)) →
    run.editor.redoStack = [] ∧ Reversible run.editor.state transaction.operations
  | _ => True

def AllLinear : EditorRun → List EditorStep → Prop
  | _, [] => True
  | run, action :: rest => run.Linear action ∧ AllLinear (run.step action) rest

structure Faithful (run : EditorRun) : Prop where
  clean : run.editor.isDirty = false → SameContent run.editor.state run.saved
  revisions : ∀ visit ∈ run.seen, visit.1 = run.editor.revision → SameContent run.editor.state visit.2

end EditorRun

def Links (content : Nat → ArrangementState) (entry : HistoryEntry) : Prop :=
  entry.inverse = entry.forward.inverse ∧ ∃ source target restored,
    SameContent source (content entry.beforeRevision.val) ∧ SameContent target (content entry.afterRevision.val) ∧
    source.commit entry.forward.operations = .ok target ∧
    target.commit entry.forward.inverse.operations = .ok restored ∧ SameContent restored source

def Past (content : Nat → ArrangementState) : Nat → List HistoryEntry → Prop
  | _, [] => True
  | revision, entry :: rest =>
    entry.afterRevision.val = revision ∧ entry.beforeRevision.val + 1 = revision ∧ Links content entry ∧
      Past content entry.beforeRevision.val rest

def Future (content : Nat → ArrangementState) : Nat → List HistoryEntry → Prop
  | _, [] => True
  | revision, entry :: rest =>
    entry.beforeRevision.val = revision ∧ entry.afterRevision.val = revision + 1 ∧ Links content entry ∧
      Future content (revision + 1) rest

variable {content : Nat → ArrangementState} {entries : List HistoryEntry} {revision : Nat} {other : Nat → ArrangementState}

theorem Links.congr {entry : HistoryEntry} (links : Links content entry)
    (before : content entry.beforeRevision.val = other entry.beforeRevision.val)
    (after : content entry.afterRevision.val = other entry.afterRevision.val) : Links other entry := by
  rwa [Links, before, after] at links

theorem Past.congr
    (past : Past content revision entries) (same : ∀ n ≤ revision, content n = other n) :
    Past other revision entries := by
  induction entries generalizing revision with
  | nil => trivial
  | cons entry rest tail =>
    obtain ⟨after, before, links, past⟩ := past
    refine ⟨after, before, links.congr (same _ (by omega)) (same _ (by omega)), tail past fun n below => ?_⟩
    exact same n (by omega)

theorem Past.take
    (past : Past content revision entries) (count : Nat) : Past content revision (entries.take count) := by
  induction entries generalizing revision count with
  | nil => rwa [take_nil]
  | cons entry rest tail =>
    cases count with
    | zero => trivial
    | succ count =>
      obtain ⟨after, before, links, past⟩ := past
      exact ⟨after, before, links, tail past count⟩

structure Timeline (content : Nat → ArrangementState) (run : EditorRun) : Prop where
  valid : Valid run.editor.state
  current : SameContent run.editor.state (content run.editor.revision.val)
  past : Past content run.editor.revision.val run.editor.undoStack.reverse
  future : Future content run.editor.revision.val run.editor.redoStack.reverse
  savedRevision : run.editor.savedRevision.val ≤ run.editor.revision.val + run.editor.redoStack.length
  saved : SameContent run.saved (content run.editor.savedRevision.val)
  seen : ∀ visit ∈ run.seen, visit.1.val ≤ run.editor.revision.val + run.editor.redoStack.length ∧
    SameContent visit.2 (content visit.1.val)

theorem Timeline.faithful {run : EditorRun} (timeline : Timeline content run) :
    run.Faithful := by
  constructor
  · intro clean
    have same : run.editor.revision = run.editor.savedRevision := by
      simpa [isDirty] using clean
    have saved := timeline.saved
    rw [← same] at saved
    exact timeline.current.trans saved.symm
  · intro visit member same
    have seen := (timeline.seen visit member).2
    rw [same] at seen
    exact timeline.current.trans seen.symm

namespace ArrangementEditor

variable {editor : ArrangementEditor}

theorem apply_unchanged {transaction : ArrangementTransaction}
    (inert : ¬ (transaction.isNoop = false ∧ ∃ edited revision, editor.apply transaction = (edited, .ok revision))) :
    (editor.apply transaction).1 = editor := by
  unfold apply at inert ⊢
  split
  · rfl
  · rename_i nonempty
    split
    · rfl
    · rename_i change
      rw [if_neg nonempty, if_neg change] at inert
      cases run : editor.state.commit transaction.operations with
      | error stop => rfl
      | ok candidate =>
        cases next : checkedSucc editor.revision with
        | none => rfl
        | some successor =>
          simp only [run, next] at inert
          exact absurd ⟨by simpa using change, _, _, rfl⟩ inert

theorem undo_empty (empty : editor.undoStack = []) : editor.undo.1 = editor := by
  unfold undo
  split
  · rfl
  · rename_i entry last
    rw [empty] at last
    cases last

theorem redo_empty (empty : editor.redoStack = []) : editor.redo.1 = editor := by
  unfold redo
  split
  · rfl
  · rename_i entry last
    rw [empty] at last
    cases last

theorem reverse_newest (limit : Nat) (entries : List HistoryEntry) :
    (newest limit entries).reverse = entries.reverse.take limit := by
  rw [newest, reverse_drop]
  by_cases short : entries.length ≤ limit
  · rw [take_of_length_le (by simp; omega), take_of_length_le (by simp; omega)]
  · rw [show entries.length - (entries.length - limit) = limit by omega]

end ArrangementEditor

section

variable (content : Nat → ArrangementState)

def extend (revision : Nat) (state : ArrangementState) : Nat → ArrangementState :=
  fun n => if n = revision then state else content n

theorem extend_self (revision : Nat) (state : ArrangementState) :
    extend content revision state revision = state := if_pos rfl

theorem extend_below {n : Nat} (state : ArrangementState)
    (below : n < revision) : extend content revision state n = content n := if_neg (by omega)

end

namespace Timeline

variable {run : EditorRun}

variable {editor : ArrangementEditor} {action : EditorStep}

theorem visit (timeline : Timeline content run) (valid : Valid editor.state)
    (current : SameContent editor.state (content editor.revision.val))
    (past : Past content editor.revision.val editor.undoStack.reverse)
    (future : Future content editor.revision.val editor.redoStack.reverse)
    (top : editor.revision.val + editor.redoStack.length = run.editor.revision.val + run.editor.redoStack.length)
    (saved : editor.savedRevision = run.editor.savedRevision) :
    Timeline content ⟨editor, run.saved, (editor.revision, editor.state) :: run.seen⟩ := by
  refine ⟨valid, current, past, future, ?_, ?_, ?_⟩
  · rw [saved, top]
    exact timeline.savedRevision
  · change SameContent run.saved (content editor.savedRevision.val)
    rw [saved]
    exact timeline.saved
  · refine forall_mem_cons.mpr ⟨⟨Nat.le_add_right _ _, current⟩, fun visit member => ?_⟩
    change visit.1.val ≤ editor.revision.val + editor.redoStack.length ∧ _
    rw [top]
    exact timeline.seen visit member

section

variable (timeline : Timeline content run)
include timeline

theorem markSaved : Timeline content (run.step .markSaved) := by
  refine ⟨timeline.valid, timeline.current, timeline.past, timeline.future, Nat.le_add_right _ _, timeline.current, ?_⟩
  exact forall_mem_cons.mpr ⟨⟨Nat.le_add_right _ _, timeline.current⟩, timeline.seen⟩

theorem stay (same : run.editor.step action = run.editor)
    (unsaved : action ≠ .markSaved) : Timeline content (run.step action) := by
  have kept : run.step action = ⟨run.editor, run.saved, (run.editor.revision, run.editor.state) :: run.seen⟩ := by
    cases action with
    | markSaved => exact absurd rfl unsaved
    | _ => simp only [EditorRun.step, same]
  rw [kept]
  exact timeline.visit timeline.valid timeline.current timeline.past timeline.future rfl rfl

theorem undo : Timeline content (run.step .undo) := by
  rcases eq_nil_or_concat' run.editor.undoStack with empty | ⟨older, entry, stack⟩
  · exact timeline.stay (ArrangementEditor.undo_empty empty) (by simp)
  · have past := timeline.past
    rw [stack, reverse_concat] at past
    obtain ⟨after, before, links, past⟩ := past
    obtain ⟨inverse, source, target, restored, sourceSame, targetSame, forth, back, returned⟩ := links
    have here : SameContent run.editor.state target := by
      refine timeline.current.trans ?_
      rw [← after]
      exact targetSame.symm
    obtain ⟨reached, undone, same⟩ := redo_commit back here timeline.valid
    rw [show entry.forward.inverse.operations = entry.inverse.operations by rw [inverse]] at undone
    have last : run.editor.undoStack.getLast? = some entry := by rw [stack, getLast?_concat]
    obtain ⟨editor, step, state, redoStack, undoStack, revision, saved, -⟩ :=
      ArrangementEditor.undo_of_commit last undone
    have next : run.step .undo = ⟨editor, run.saved, (editor.revision, editor.state) :: run.seen⟩ := by
      simp only [EditorRun.step, ArrangementEditor.step, step]
    obtain ⟨-, -, -, valid⟩ := commit_ok undone
    rw [next]
    refine timeline.visit (state ▸ valid) ?_ ?_ ?_ ?_ saved
    · rw [state, revision]
      exact same.trans (returned.trans sourceSame)
    · rw [undoStack, stack, dropLast_concat, revision]
      exact past
    · rw [redoStack, reverse_concat, revision]
      refine ⟨rfl, by omega, ⟨inverse, source, target, restored, sourceSame, targetSame, forth, back, returned⟩, ?_⟩
      rw [before]
      exact timeline.future
    · rw [redoStack, revision, length_append, length_singleton]
      omega

theorem redo : Timeline content (run.step .redo) := by
  rcases eq_nil_or_concat' run.editor.redoStack with empty | ⟨later, entry, stack⟩
  · exact timeline.stay (ArrangementEditor.redo_empty empty) (by simp)
  · have future := timeline.future
    rw [stack, reverse_concat] at future
    obtain ⟨before, after, links, future⟩ := future
    obtain ⟨inverse, source, target, restored, sourceSame, targetSame, forth, back, returned⟩ := links
    have here : SameContent run.editor.state source := by
      refine timeline.current.trans ?_
      rw [← before]
      exact sourceSame.symm
    obtain ⟨reached, redone, same⟩ := redo_commit forth here timeline.valid
    have last : run.editor.redoStack.getLast? = some entry := by rw [stack, getLast?_concat]
    obtain ⟨editor, step, state, undoStack, redoStack, revision, saved, -⟩ :=
      ArrangementEditor.redo_of_commit last redone
    have next : run.step .redo = ⟨editor, run.saved, (editor.revision, editor.state) :: run.seen⟩ := by
      simp only [EditorRun.step, ArrangementEditor.step, step]
    obtain ⟨-, -, -, valid⟩ := commit_ok redone
    rw [next]
    refine timeline.visit (state ▸ valid) ?_ ?_ ?_ ?_ saved
    · rw [state, revision]
      exact same.trans targetSame
    · rw [undoStack, reverse_concat, revision]
      refine ⟨rfl, by omega, ⟨inverse, source, target, restored, sourceSame, targetSame, forth, back, returned⟩, ?_⟩
      rw [before]
      exact timeline.past
    · rw [redoStack, stack, dropLast_concat, revision, after]
      exact future
    · rw [redoStack, stack, dropLast_concat, revision, length_append, length_singleton]
      omega

theorem apply {transaction : ArrangementTransaction}
    (linear : run.Linear (.apply transaction)) : ∃ content, Timeline content (run.step (.apply transaction)) := by
  by_cases change : transaction.isNoop = false ∧
      ∃ edited revision, run.editor.apply transaction = (edited, .ok revision)
  · obtain ⟨change, edited, revision, accepted⟩ := change
    obtain ⟨linearRedo, reversible⟩ := linear change ⟨edited, revision, accepted⟩
    obtain ⟨committed, limit, redoStack, successor, current, saved, undoStack⟩ :=
      apply_change accepted change
    rw [checkedSucc_eq_some, ← current] at successor
    obtain ⟨restored, back, returned⟩ := (undo_commit_iff timeline.valid committed).mpr reversible
    obtain ⟨-, -, -, valid⟩ := commit_ok committed
    have self := valid.sameContent_self
    have next : run.step (.apply transaction) =
        ⟨edited, run.saved, (edited.revision, edited.state) :: run.seen⟩ := by
      simp only [EditorRun.step, step, accepted]
    have top : run.editor.revision.val + run.editor.redoStack.length = run.editor.revision.val := by
      rw [linearRedo]
      rfl
    have known {n : Nat} (below : n ≤ run.editor.revision.val) :
        extend content edited.revision.val edited.state n = content n := extend_below _ _ (by omega)
    have here := extend_self content edited.revision.val edited.state
    refine ⟨extend content edited.revision.val edited.state, ?_⟩
    rw [next]
    refine ⟨valid, ?_, ?_, ?_, ?_, ?_, ?_⟩
    · rw [here]
      exact self
    · have older := timeline.past.congr fun n below => (known below).symm
      have links : Links (extend content edited.revision.val edited.state)
          ⟨transaction, transaction.inverse, run.editor.revision, revision⟩ := by
        refine ⟨rfl, run.editor.state, edited.state, restored, ?_, ?_, committed, back, returned⟩
        · rw [known le_rfl]
          exact timeline.current
        · rw [← current, here]
          exact self
      have entryPast : Past (extend content edited.revision.val edited.state) edited.revision.val
          (run.editor.undoStack ++
            [(⟨transaction, transaction.inverse, run.editor.revision, revision⟩ : HistoryEntry)]).reverse := by
        rw [reverse_concat]
        exact ⟨congrArg Fin.val current.symm, successor.symm, links, older⟩
      change Past _ edited.revision.val edited.undoStack.reverse
      rw [undoStack]
      split
      · rw [reverse_newest]
        exact entryPast.take _
      · rename_i unlimited
        rw [(run.editor.unrecorded (by omega)).1]
        trivial
    · change Future _ edited.revision.val edited.redoStack.reverse
      rw [redoStack]
      trivial
    · have bound := timeline.savedRevision
      change edited.savedRevision.val ≤ edited.revision.val + _
      rw [saved]
      omega
    · have bound := timeline.savedRevision
      change SameContent run.saved (extend content edited.revision.val edited.state edited.savedRevision.val)
      rw [saved, known (by omega)]
      exact timeline.saved
    · intro visit member
      rcases mem_cons.mp member with rfl | member
      · rw [here]
        exact ⟨Nat.le_add_right _ _, self⟩
      · obtain ⟨bound, same⟩ := timeline.seen visit member
        rw [known (by omega)]
        refine ⟨?_, same⟩
        change visit.1.val ≤ edited.revision.val + _
        omega
  · exact ⟨content, timeline.stay (apply_unchanged change) (by simp)⟩

theorem step (linear : run.Linear action) :
    ∃ content, Timeline content (run.step action) := by
  cases action with
  | apply transaction => exact timeline.apply linear
  | undo => exact ⟨content, timeline.undo⟩
  | redo => exact ⟨content, timeline.redo⟩
  | markSaved => exact ⟨content, timeline.markSaved⟩

end

theorem steps {content : Nat → ArrangementState} {run : EditorRun} (timeline : Timeline content run)
    {actions : List EditorStep} (linear : run.AllLinear actions) :
    ∃ content, Timeline content (run.steps actions) := by
  induction actions generalizing run content with
  | nil => exact ⟨content, timeline⟩
  | cons action rest tail =>
    obtain ⟨content', next⟩ := timeline.step linear.1
    exact tail next linear.2

theorem start {state : ArrangementState}
    (opened : fromState state = .ok editor) :
    Timeline (fun _ => editor.state) (EditorRun.start editor) := by
  simp only [fromState, bind_unit_ok, validate_ok_iff] at opened
  obtain ⟨valid, opened⟩ := opened
  cases opened
  have self := valid.sameContent_self
  refine ⟨valid, self, trivial, trivial, Nat.zero_le _, self, fun visit member => ?_⟩
  rw [EditorRun.start, mem_singleton] at member
  subst member
  exact ⟨Nat.zero_le _, self⟩

end Timeline

/-- A run whose changes are made with nothing left to redo, each of them one that undo restores, is never
    clean at another content than the one saved, and never shows one revision with two contents. -/
theorem linear_run_faithful (state : ArrangementState) (editor : ArrangementEditor)
    (opened : ArrangementEditor.fromState state = .ok editor) (actions : List EditorStep)
    (linear : (EditorRun.start editor).AllLinear actions) : ((EditorRun.start editor).steps actions).Faithful := by
  obtain ⟨content, timeline⟩ := (Timeline.start opened).steps linear
  exact timeline.faithful

def markVerse : ArrangementTransaction where
  label := "verse"
  operations := [.putMarker I64.zero none (some ⟨"verse"⟩)]

def markChorus : ArrangementTransaction where
  label := "chorus"
  operations := [.putMarker I64.zero none (some ⟨"chorus"⟩)]

/-- Saving one edit, undoing it and making another shows the other edit as saved. -/
theorem branch_after_save_shows_clean :
    ArrangementEditor.fromState bareState = .ok bareEditor ∧
      ((EditorRun.start bareEditor).steps [.apply markVerse, .markSaved, .undo, .apply markChorus]).editor.isDirty =
        false ∧
      ¬ ((EditorRun.start bareEditor).steps [.apply markVerse, .markSaved, .undo, .apply markChorus]).Faithful := by
  have clean : ((EditorRun.start bareEditor).steps
      [.apply markVerse, .markSaved, .undo, .apply markChorus]).editor.isDirty = false := by rfl
  refine ⟨by rfl, clean, fun faithful => ?_⟩
  have markers := faithful.clean clean (.marker I64.zero)
  revert markers
  decide

theorem place_save_undo_redo_faithful :
    ((EditorRun.start bareEditor).steps [.apply placeClip, .markSaved, .undo, .redo]).Faithful :=
  linear_run_faithful bareState bareEditor (by rfl) [.apply placeClip, .markSaved, .undo, .redo]
    ⟨fun _ _ => ⟨rfl, place_clip_reversible⟩, trivial, trivial, trivial, trivial⟩

end Audec.Arrangement

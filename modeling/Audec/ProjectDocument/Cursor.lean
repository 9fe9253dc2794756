import Audec.ProjectDocument.Completions

/-! The journal of a session: its records lie after the cursor, in order, and the cursor only moves
    over records that an acknowledged delta carried. -/

open Checked List

namespace Audec.ProjectDocument

open Lifecycle

variable {Content Workspace Batch Place : Type}

section Sequenced

structure Session.Sequenced (session : Session Content Batch) : Prop where
  sorted : session.journal.Pairwise fun first second => first.sequence < second.sequence
  pending : ∀ record ∈ session.journal, session.journalCheckpoint.throughSequence < record.sequence
  before : ∀ record ∈ session.journal, record.sequence < session.nextJournalSequence
  cursor : session.journalCheckpoint.throughSequence < session.nextJournalSequence

variable {session : Session Content Batch}

theorem sequenced_empty (empty : session.journal = []) (cursor : session.journalCheckpoint.throughSequence < session.nextJournalSequence) :
    session.Sequenced := by
  constructor
  case cursor => exact cursor
  all_goals simp [empty]

theorem sequenced_execute (sequenced : session.Sequenced) (batch : Batch) (next : Content) : (session.execute batch next).Sequenced := by
  unfold Session.execute
  split
  · have sorted : List.Pairwise (fun first second : Record Batch => first.sequence < second.sequence)
        (session.journal ++ [⟨session.nextJournalSequence, session.revision, session.revision + 1, batch⟩]) := by
      rw [pairwise_append]
      refine ⟨sequenced.sorted, pairwise_singleton _ _, ?_⟩
      intro record inside last single
      rw [mem_singleton.mp single]
      exact sequenced.before record inside
    constructor
    case sorted => exact sorted
    case cursor => exact Nat.lt_succ_of_lt sequenced.cursor
    case pending =>
      intro record inside
      rcases mem_append.mp inside with inside | inside
      · exact sequenced.pending record inside
      · rw [mem_singleton.mp inside]
        exact sequenced.cursor
    case before =>
      intro record inside
      show record.sequence < session.nextJournalSequence + 1
      rcases mem_append.mp inside with inside | inside
      · exact Nat.lt_succ_of_lt (sequenced.before record inside)
      · rw [mem_singleton.mp inside]
        exact Nat.lt_succ_self _
  · exact sequenced

theorem Session.Sequenced.recordsFrom (sequenced : session.Sequenced) :
    session.journalRecordsFrom (min (session.journalCheckpoint.throughSequence + 1) u64Max) = session.journal := by
  unfold Session.journalRecordsFrom
  cases held : session.journal with
  | nil => rfl
  | cons record rest =>
    have after := sequenced.pending record (held ▸ mem_cons_self)
    have least := min_le_left (session.journalCheckpoint.throughSequence + 1) u64Max
    rw [dropWhile_cons_of_neg]
    simp only [decide_eq_true_eq]
    omega

theorem dropWhile_after {records : List (Record Batch)} (sorted : records.Pairwise fun first second => first.sequence < second.sequence) (sequence : Nat)
    {record : Record Batch} (inside : record ∈ records.dropWhile fun record => record.sequence ≤ sequence) : sequence < record.sequence := by
  induction records with
  | nil => cases inside
  | cons first rest held =>
    rw [pairwise_cons] at sorted
    rw [dropWhile_cons] at inside
    split at inside
    · exact held sorted.2 inside
    · rename_i late
      simp only [decide_eq_true_eq, not_le] at late
      rcases mem_cons.mp inside with rfl | inside
      · exact late
      · exact lt_trans late (sorted.1 record inside)

variable [DecidableEq Batch]

theorem acknowledged_sequenced (sequenced : session.Sequenced) {delta : JournalDelta Batch} {next : Session Content Batch}
    (accepted : session.acknowledgeJournalDelta delta = .ok next) :
    next.Sequenced ∧ session.journalCheckpoint.throughSequence ≤ next.journalCheckpoint.throughSequence ∧
      ∀ record ∈ session.journal, record.sequence ≤ next.journalCheckpoint.throughSequence → record ∈ delta.records := by
  unfold Session.acknowledgeJournalDelta at accepted
  simp only [bind_unit_ok, ensure_ok] at accepted
  obtain ⟨checkpoint, ⟨cut, ends⟩, same⟩ := accepted
  rw [checkpoint, sequenced.recordsFrom] at cut
  obtain ⟨rest, whole⟩ := cut
  obtain ⟨last, final, reached⟩ := Option.map_eq_some_iff.mp ends
  rw [Prod.mk.injEq] at reached
  have carried := mem_of_getLast? final
  have inside : last ∈ session.journal := whole ▸ mem_append_left _ carried
  have forward := sequenced.pending last inside
  have bound := sequenced.before last inside
  have sorted := sequenced.sorted
  rw [← whole, pairwise_append] at sorted
  cases same
  have kept : ∀ record, (record ∈ session.journal.dropWhile fun record => record.sequence ≤ delta.throughSequence) → record ∈ session.journal :=
    fun record inside => (dropWhile_sublist _).subset inside
  refine ⟨⟨?sorted, ?pending, ?before, ?cursor⟩, ?forward, ?records⟩
  case sorted => exact sequenced.sorted.sublist (dropWhile_sublist _)
  case pending => exact fun record inside => dropWhile_after sequenced.sorted delta.throughSequence inside
  case before => exact fun record inside => sequenced.before record (kept record inside)
  case cursor =>
    show delta.throughSequence < session.nextJournalSequence
    omega
  case forward =>
    show session.journalCheckpoint.throughSequence ≤ delta.throughSequence
    omega
  case records =>
    intro record there reached
    have limit : record.sequence ≤ delta.throughSequence := reached
    rw [← whole] at there
    rcases mem_append.mp there with there | there
    · exact there
    · have late := sorted.2.2 last carried record there
      omega

theorem sequenced_markSaved (sequenced : session.Sequenced) (revision : Nat) : (session.markSavedIfRevision revision).1.Sequenced := by
  unfold Session.markSavedIfRevision
  split
  · exact ⟨sequenced.sorted, sequenced.pending, sequenced.before, sequenced.cursor⟩
  · exact sequenced

theorem replay_sequenced (session : Session Content Batch) (records : List (Record Batch × Option Content)) (empty : session.journal = [])
    (cursor : session.journalCheckpoint.throughSequence < session.nextJournalSequence) : (session.replay records).Sequenced := by
  induction records generalizing session with
  | nil => exact sequenced_empty empty cursor
  | cons entry rest held =>
    obtain ⟨record, applied⟩ := entry
    unfold Session.replay
    cases applied with
    | none => exact sequenced_empty empty cursor
    | some content =>
      dsimp only
      split
      · exact held _ empty (Nat.lt_succ_self _)
      · exact sequenced_empty empty cursor

theorem openedSession_sequenced (loaded : LoadedDocument Content Workspace Batch) : (openedSession loaded).Sequenced := by
  have fresh : (Session.install loaded.opened.content loaded.opened.revision : Session Content Batch).Sequenced := sequenced_empty rfl Nat.zero_lt_one
  unfold openedSession
  dsimp only
  split
  · exact fresh
  · rename_i sequence _
    split
    · exact fresh
    · rename_i positive
      exact replay_sequenced _ _ rfl (Nat.sub_lt (Nat.pos_of_ne_zero positive) Nat.zero_lt_one)

end Sequenced

section Completions

variable [DecidableEq Workspace] [DecidableEq Batch] [DecidableEq Place] {lifecycle : Lifecycle Workspace Place} {session : Session Content Batch}

theorem acknowledge_sequenced (sequenced : session.Sequenced) (request : SaveRequest Content Workspace Batch Place) (journal : Persistence) :
    (acknowledge session request journal).1.Sequenced ∧
      session.journalCheckpoint.throughSequence ≤ (acknowledge session request journal).1.journalCheckpoint.throughSequence ∧
      ∀ record ∈ session.journal,
        record.sequence ≤ (acknowledge session request journal).1.journalCheckpoint.throughSequence →
          ∃ delta, request.journalDelta = some delta ∧ journal = .persisted ∧ record ∈ delta.records := by
  have unmoved : ∀ record ∈ session.journal, ¬ record.sequence ≤ session.journalCheckpoint.throughSequence :=
    fun record inside => not_le.mpr (sequenced.pending record inside)
  have same : session.Sequenced ∧ session.journalCheckpoint.throughSequence ≤ session.journalCheckpoint.throughSequence ∧
      ∀ record ∈ session.journal, record.sequence ≤ session.journalCheckpoint.throughSequence →
        ∃ delta, request.journalDelta = some delta ∧ journal = .persisted ∧ record ∈ delta.records :=
    ⟨sequenced, le_refl _, fun record inside reached => absurd reached (unmoved record inside)⟩
  unfold acknowledge
  split
  · exact same
  · rename_i delta carried
    split
    · rename_i persisted
      split
      · rename_i next accepted
        obtain ⟨kept, forward, records⟩ := acknowledged_sequenced sequenced accepted
        exact ⟨kept, forward, fun record inside reached => ⟨delta, carried, persisted, records record inside reached⟩⟩
      · exact same
    · exact same

/-- A completion that is refused leaves everything as it was; one that is accepted belongs to the document
    that is open, and its session is the one that has acknowledged its journal, marked or not. -/
theorem finishSave_cases (lifecycle : Lifecycle Workspace Place) (session : Session Content Batch) (request : SaveRequest Content Workspace Batch Place)
    (result : SaveResult) :
    (∃ error, lifecycle.finishSave session request result = ⟨lifecycle, session, .error error⟩) ∨
      request.documentEpoch = lifecycle.documentEpoch ∧
        ∃ outcome,
          (request.kind ≠ .primary ∧
            lifecycle.finishSave session request result = ⟨lifecycle, (acknowledge session request result.journal).1, .ok outcome⟩) ∨
          (request.kind = .primary ∧
            ∃ next, next.files = some request.files ∧
              lifecycle.finishSave session request result =
                ⟨next, ((acknowledge session request result.journal).1.markSavedIfRevision request.revision).1, .ok outcome⟩) := by
  unfold finishSave
  by_cases own : request.documentEpoch = lifecycle.documentEpoch
  · rw [if_neg (not_not.mpr own)]
    split
    · exact .inl ⟨_, rfl⟩
    · split
      · exact .inl ⟨_, rfl⟩
      · right
        refine ⟨own, ?_⟩
        cases kind : request.kind with
        | autosave savedUnixMs => exact ⟨_, .inl ⟨nofun, rfl⟩⟩
        | primary =>
          refine ⟨_, .inr ⟨rfl, _, ?files, rfl⟩⟩
          case files => split <;> rfl
  · rw [if_pos own]
    exact .inl ⟨_, rfl⟩

theorem sequenced_finishSave (sequenced : session.Sequenced) (request : SaveRequest Content Workspace Batch Place) (result : SaveResult) :
    (lifecycle.finishSave session request result).session.Sequenced := by
  have acknowledged := (acknowledge_sequenced sequenced request result.journal).1
  rcases finishSave_cases lifecycle session request result with ⟨_, same⟩ | ⟨_, _, ⟨_, same⟩ | ⟨_, _, _, same⟩⟩
  · rw [same]
    exact sequenced
  · rw [same]
    exact acknowledged
  · rw [same]
    exact sequenced_markSaved acknowledged request.revision

theorem sequenced_finishOpen (sequenced : session.Sequenced) (flight : OpenFlight Content Workspace Batch Place)
    (loaded : Option (LoadedDocument Content Workspace Batch)) (installs : Bool) :
    (lifecycle.finishOpen session flight loaded installs).session.Sequenced := by
  unfold finishOpen
  split
  · exact sequenced
  · split
    · exact sequenced
    · split
      · exact sequenced
      · exact openedSession_sequenced _

theorem sequenced_step {system : System Content Workspace Batch Place} (sequenced : system.session.Sequenced)
    (action : Action Content Workspace Batch Place) : (system.step action).session.Sequenced := by
  have begun : ∀ started, (system.begun started).session = system.session := by
    intro started
    unfold System.begun
    split <;> rfl
  cases action with
  | edit batch next => exact sequenced_execute sequenced batch next
  | replaceWorkspace workspace => exact sequenced
  | adoptRecoveryRepository files => exact sequenced
  | beginSave => exact begun _ ▸ sequenced
  | beginSaveAs files => exact begun (.ok (system.lifecycle.beginPrimarySave system.session files)) ▸ sequenced
  | beginAutosave savedUnixMs => exact begun _ ▸ sequenced
  | persist index stored write =>
    show (system.persist index stored write).session.Sequenced
    unfold System.persist
    split <;> exact sequenced
  | finishSave index =>
    show (system.finishSave index).session.Sequenced
    unfold System.finishSave
    split
    · exact sequenced_finishSave sequenced _ _
    · exact sequenced
    · exact sequenced
  | beginOpen discarding files origin =>
    show (system.beginOpen discarding files origin).session.Sequenced
    unfold System.beginOpen
    split <;> exact sequenced
  | load index readable anchor records =>
    show (system.load index readable anchor records).session.Sequenced
    unfold System.load
    split <;> exact sequenced
  | finishOpen index installs =>
    show (system.finishOpen index installs).session.Sequenced
    unfold System.finishOpen
    split
    · exact sequenced_finishOpen sequenced _ _ _
    · exact sequenced
    · exact sequenced

theorem sequenced_run {system : System Content Workspace Batch Place} (sequenced : system.session.Sequenced)
    (actions : List (Action Content Workspace Batch Place)) : (system.run actions).session.Sequenced := by
  induction actions generalizing system with
  | nil => exact sequenced
  | cons action actions held => exact held (sequenced_step sequenced action)

end Completions
end Audec.ProjectDocument

/-! What an orderly run comes to: a clean document is on disk, a refused completion changes nothing,
    and what a completion acknowledges is in the journal of the open package. -/

namespace Audec.ProjectDocument

variable {Content Workspace Batch Place : Type} [DecidableEq Workspace] [DecidableEq Batch] [DecidableEq Place]

section Stored

section

variable (system : System Content Workspace Batch Place)

/-- The checkpoint that the document is named after is the document. -/
def System.CleanOnDisk : Prop :=
  ¬ system.lifecycle.isDirty system.session → ∃ manifest, system.lifecycle.manifestPath = some manifest ∧
    System.checkpointAt system.packages manifest = some ⟨system.session.content, system.session.revision, system.lifecycle.workspace⟩

def System.RefusesQuietly : Prop :=
  (∀ request result, (system.lifecycle.finishSave system.session request result).result = .error .documentChangedDuringOperation ∨
      (system.lifecycle.finishSave system.session request result).result = .error .supersededSaveCompletion →
    (system.lifecycle.finishSave system.session request result).lifecycle = system.lifecycle ∧
      (system.lifecycle.finishSave system.session request result).session = system.session) ∧
  ∀ flight loaded installs, (system.lifecycle.finishOpen system.session flight loaded installs).result = .error .staleOpenCompletion →
    (system.lifecycle.finishOpen system.session flight loaded installs).lifecycle = system.lifecycle ∧
      (system.lifecycle.finishOpen system.session flight loaded installs).session = system.session

/-- The completion of a save that a worker has persisted never moves the cursor backwards, and moves
    it only over records in the journal of the package that is open then. -/
def System.AcknowledgesStored : Prop :=
  ∀ flight ∈ system.saves, ∀ result, flight.result = some result →
    system.session.journalCheckpoint.throughSequence ≤
        (system.lifecycle.finishSave system.session flight.request result).session.journalCheckpoint.throughSequence ∧
      ∀ record ∈ system.session.journal,
        record.sequence ≤ (system.lifecycle.finishSave system.session flight.request result).session.journalCheckpoint.throughSequence →
          ∃ files, (system.lifecycle.finishSave system.session flight.request result).lifecycle.files = some files ∧
            record ∈ (system.packages files).journal

end

variable {system : System Content Workspace Batch Place}

theorem Settled.cleanOnDisk (settled : Settled system) : system.CleanOnDisk := by
  intro clean
  obtain ⟨recovery, named, _, _⟩ := Lifecycle.not_dirty.mp clean
  obtain ⟨manifest, held⟩ := Option.ne_none_iff_exists'.mp named
  have plain : manifest.candidate = none := by
    by_contra candidate
    exact recovery ((settled.manifest manifest held).2 candidate)
  refine ⟨manifest, held, ?_⟩
  unfold System.checkpointAt
  rw [plain]
  exact settled.clean clean manifest held

theorem refusesQuietly (system : System Content Workspace Batch Place) : system.RefusesQuietly := by
  constructor
  · intro request result refused
    rcases finishSave_cases system.lifecycle system.session request result with ⟨_, same⟩ | ⟨_, _, ⟨_, same⟩ | ⟨_, _, _, same⟩⟩
    · rw [same]
      exact ⟨rfl, rfl⟩
    · rw [same] at refused
      rcases refused with refused | refused <;> cases refused
    · rw [same] at refused
      rcases refused with refused | refused <;> cases refused
  · intro flight loaded installs refused
    unfold Lifecycle.finishOpen at refused ⊢
    split
    · exact ⟨rfl, rfl⟩
    · rename_i pending
      rw [if_neg pending] at refused
      split at refused
      · cases refused
      · split at refused <;> cases refused

theorem markSaved_cursor (session : Session Content Batch) (revision : Nat) :
    (session.markSavedIfRevision revision).1.journalCheckpoint = session.journalCheckpoint := by
  unfold Session.markSavedIfRevision
  split <;> rfl

theorem Settled.acknowledgesStored (settled : Settled system) (sequenced : system.session.Sequenced) : system.AcknowledgesStored := by
  intro flight inside result done
  obtain ⟨_, forward, records⟩ := acknowledge_sequenced sequenced flight.request result.journal
  -- a record below the new cursor was carried by the save, and written to its package
  have stored : ∀ record ∈ system.session.journal,
      record.sequence ≤ (Lifecycle.acknowledge system.session flight.request result.journal).1.journalCheckpoint.throughSequence →
        record ∈ (system.packages flight.request.files).journal := by
    intro record there reached
    obtain ⟨delta, carried, persisted, held⟩ := records record there reached
    exact settled.durable flight inside result done persisted delta carried held
  rcases finishSave_cases system.lifecycle system.session flight.request result with
    ⟨_, same⟩ | ⟨own, _, ⟨kind, same⟩ | ⟨_, next, files, same⟩⟩
  · rw [same]
    exact ⟨le_refl _, fun record there reached => absurd reached (not_le.mpr (sequenced.pending record there))⟩
  · rw [same]
    have files := (settled.captured flight inside).autosave kind own
    exact ⟨forward, fun record there reached => ⟨_, files, stored record there reached⟩⟩
  · rw [same]
    dsimp only
    rw [markSaved_cursor]
    exact ⟨forward, fun record there reached => ⟨_, files, stored record there reached⟩⟩

/-- In every state of an orderly run. -/
theorem clean_document_on_disk (content : Content) (revision : Nat) (packages : Place → Package Content Workspace Batch)
    (actions : List (Action Content Workspace Batch Place)) (orderly : (System.start content revision packages).OrderlyRun actions) :
    ((System.start content revision packages).run actions).CleanOnDisk ∧
      ((System.start content revision packages).run actions).RefusesQuietly ∧
      ((System.start content revision packages).run actions).AcknowledgesStored := by
  have settled := settled_run (settled_start content revision packages) orderly
  have start : (System.start content revision packages).session.Sequenced := sequenced_empty rfl Nat.zero_lt_one
  exact ⟨settled.cleanOnDisk, refusesQuietly _, settled.acknowledgesStored (sequenced_run start actions)⟩

end Stored

section Runs

def untouched : Nat → Package Nat Nat Nat := fun _ => ⟨none, [], []⟩

def savedOnce : List (Action Nat Nat Nat Nat) := [.edit 1 11, .beginSaveAs 7, .persist 0 true .written, .finishSave 0]

theorem savedOnce_on_disk :
    ((System.start 10 0 untouched).run savedOnce).CleanOnDisk ∧ ((System.start 10 0 untouched).run savedOnce).RefusesQuietly ∧
      ((System.start 10 0 untouched).run savedOnce).AcknowledgesStored := by
  apply clean_document_on_disk
  refine ⟨trivial, ⟨by decide, by decide⟩, ?_, show 0 < u64Max by decide, trivial⟩
  intro request found _ _
  cases found
  exact ⟨fun _ => by decide, nofun, nofun⟩

/-- Two saves of one document: the worker of the first one reaches the package last. -/
def lateWorker : List (Action Nat Nat Nat Nat) :=
  [.beginSaveAs 7, .persist 0 true .unasked, .finishSave 0, .edit 1 11, .beginSave, .edit 2 12, .beginSave, .persist 1 true .unasked, .finishSave 1,
    .persist 0 true .unasked]

theorem lateWorker_loses_document : ¬ ((System.start 10 0 untouched).run lateWorker).CleanOnDisk := by
  intro stored
  obtain ⟨manifest, named, held⟩ := stored (by decide)
  cases named
  revert held
  decide

end Runs
end Audec.ProjectDocument

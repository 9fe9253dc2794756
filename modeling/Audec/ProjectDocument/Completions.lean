import Audec.ProjectDocument.Workers

/-! Completions keep the invariant: of saves that were persisted, and of opens that were read. -/

open Checked List

namespace Audec.ProjectDocument

open Lifecycle

variable {Content Workspace Batch Place : Type} [DecidableEq Workspace] [DecidableEq Batch] [DecidableEq Place]

section Saves

variable {system : System Content Workspace Batch Place}

theorem Settled.eraseSave (settled : Settled system) (index : Nat) : Settled { system with saves := system.saves.eraseIdx index } := by
  have kept : ∀ flight ∈ system.saves.eraseIdx index, flight ∈ system.saves := fun flight inside => mem_of_mem_eraseIdx inside
  exact { settled with
    captured := fun flight inside => settled.captured flight (kept flight inside)
    tokens := settled.tokens.sublist ((eraseIdx_sublist _ _).map _)
    ordered := fun flight inside other there => settled.ordered flight (kept flight inside) other (kept other there)
    ahead := fun flight inside => settled.ahead flight (kept flight inside)
    stored := fun flight inside => settled.stored flight (kept flight inside)
    durable := fun flight inside => settled.durable flight (kept flight inside) }

theorem Settled.journal (settled : Settled system) (next : Session Content Batch) (content : next.content = system.session.content)
    (revision : next.revision = system.session.revision) (saved : next.savedRevision = system.session.savedRevision) :
    Settled { system with session := next } := by
  have captured : ∀ flight ∈ system.saves, Captured system.lifecycle next flight.request := by
    intro flight inside
    have held := settled.captured flight inside
    have bound := held.revision
    have same := held.content
    have front := held.front
    rw [← revision] at bound same
    rw [← content] at same
    rw [← saved] at front
    exact ⟨held.token, held.epoch, bound, same, held.workspaceRevision, held.workspace, held.plain, held.latest, front, held.autosave⟩
  have bound := settled.saved
  rw [← revision, ← saved] at bound
  have ahead := settled.ahead
  rw [← saved] at ahead
  have clean := settled.clean
  rw [← content, ← revision] at clean
  exact { settled with
    saved := bound
    captured := captured
    ahead := ahead
    clean := by
      intro still
      apply clean
      rw [not_dirty] at still ⊢
      rw [← revision, ← saved]
      exact still }

theorem acknowledge_keeps (session : Session Content Batch) (request : SaveRequest Content Workspace Batch Place) (journal : Persistence) :
    (acknowledge session request journal).1.content = session.content ∧
      (acknowledge session request journal).1.revision = session.revision ∧
      (acknowledge session request journal).1.savedRevision = session.savedRevision := by
  unfold acknowledge
  split
  · exact ⟨rfl, rfl, rfl⟩
  · split
    · split
      · rename_i next accepted
        unfold Session.acknowledgeJournalDelta at accepted
        simp only [bind_unit_ok] at accepted
        obtain ⟨_, _, same⟩ := accepted
        cases same
        exact ⟨rfl, rfl, rfl⟩
      · exact ⟨rfl, rfl, rfl⟩
    · exact ⟨rfl, rfl, rfl⟩

structure Accepted (system : System Content Workspace Batch Place) (request : SaveRequest Content Workspace Batch Place) : Prop where
  captured : Captured system.lifecycle system.session request
  own : request.documentEpoch = system.lifecycle.documentEpoch
  kind : request.kind = .primary
  current : system.lifecycle.latestPrimarySave = some request.token
  written : request.token ≤ system.written request.files
  stored : (system.packages request.files).primary = some request.checkpoint
  ordered : ∀ flight ∈ system.saves, flight.request.documentEpoch = system.lifecycle.documentEpoch → request.token ≤ flight.request.token →
    request.revision ≤ flight.request.revision ∧ request.workspaceRevision ≤ flight.request.workspaceRevision

def markedRevision (current saved captured : Nat) : Nat := if captured = current then captured else saved

theorem markedRevision_le {current saved captured : Nat} (bound : saved ≤ captured ∧ captured ≤ current) :
    markedRevision current saved captured ≤ captured ∧ (current = markedRevision current saved captured → captured = current) := by
  unfold markedRevision
  split <;> omega

theorem markSaved_keeps (session : Session Content Batch) (revision : Nat) :
    (session.markSavedIfRevision revision).1.content = session.content ∧ (session.markSavedIfRevision revision).1.revision = session.revision ∧
      (session.markSavedIfRevision revision).1.savedRevision = markedRevision session.revision session.savedRevision revision := by
  unfold Session.markSavedIfRevision markedRevision
  split
  · rename_i same
    rw [if_pos same.symm]
    exact ⟨rfl, rfl, rfl⟩
  · rename_i other
    rw [if_neg (Ne.symm other)]
    exact ⟨rfl, rfl, rfl⟩

def Lifecycle.identified (lifecycle : Lifecycle Workspace Place) (request : SaveRequest Content Workspace Batch Place) : Lifecycle Workspace Place :=
  { lifecycle with
    latestPrimarySave := none
    files := some request.files
    manifestPath := some ⟨request.files, none⟩
    origin := some .primary
    savedWorkspaceRevision := markedRevision lifecycle.workspaceRevision lifecycle.savedWorkspaceRevision request.workspaceRevision }

variable {request : SaveRequest Content Workspace Batch Place}

theorem Accepted.bounds (accepted : Accepted system request) :
    (system.session.savedRevision ≤ request.revision ∧ request.revision ≤ system.session.revision) ∧
      system.lifecycle.savedWorkspaceRevision ≤ request.workspaceRevision ∧ request.workspaceRevision ≤ system.lifecycle.workspaceRevision := by
  have front := accepted.captured.front accepted.own accepted.current
  exact ⟨⟨front.1, accepted.captured.revision accepted.own⟩, front.2, accepted.captured.workspaceRevision accepted.own⟩

theorem Accepted.clean (accepted : Accepted system request)
    (revision : system.session.revision = markedRevision system.session.revision system.session.savedRevision request.revision)
    (workspace : system.lifecycle.workspaceRevision =
      markedRevision system.lifecycle.workspaceRevision system.lifecycle.savedWorkspaceRevision request.workspaceRevision) :
    (system.packages request.files).primary = some ⟨system.session.content, system.session.revision, system.lifecycle.workspace⟩ := by
  have bounds := accepted.bounds
  have current := (markedRevision_le bounds.1).2 revision
  have counter := (markedRevision_le bounds.2).2 workspace
  have content := accepted.captured.content accepted.own current
  have kept := accepted.captured.workspace accepted.own counter
  have plain := accepted.captured.plain accepted.kind
  rw [accepted.stored]
  unfold SaveRequest.checkpoint
  rw [plain, content, current, kept]

theorem settled_identified (settled : Settled system) (accepted : Accepted system request)
    (stays : system.lifecycle.manifestPath = some ⟨request.files, none⟩) :
    Settled { system with
      lifecycle := system.lifecycle.identified request
      session := (system.session.markSavedIfRevision request.revision).1 } := by
  obtain ⟨content, revision, saved⟩ := markSaved_keeps system.session request.revision
  have bounds := accepted.bounds
  have least := (markedRevision_le bounds.1).1
  have lowest := (markedRevision_le bounds.2).1
  have files := (settled.manifest _ stays).1
  exact { settled with
    saved := by
      rw [revision, saved]
      exact ⟨le_trans least bounds.1.2, le_trans lowest bounds.2.2⟩
    latest := by
      intro token current
      cases current
    manifest := by
      intro manifest named
      cases named
      exact ⟨rfl, fun candidate => absurd rfl candidate⟩
    captured := by
      intro flight inside
      have held := settled.captured flight inside
      have bound := held.revision
      have same := held.content
      rw [← revision] at bound same
      rw [← content] at same
      have autosave : flight.request.kind ≠ .primary → flight.request.documentEpoch = system.lifecycle.documentEpoch →
          some request.files = some flight.request.files := fun other own => files.symm.trans (held.autosave other own)
      exact ⟨held.token, held.epoch, bound, same, held.workspaceRevision, held.workspace, held.plain, fun _ _ => nofun, fun _ => nofun, autosave⟩
    ahead := by
      intro flight inside own named late
      have place : request.files = flight.request.files := by
        have same : (some ⟨request.files, none⟩ : Option (ManifestPath Place)) = some ⟨flight.request.files, none⟩ := named
        exact congrArg ManifestPath.package (Option.some.inj same)
      have later := accepted.written
      rw [place] at later
      have after := accepted.ordered flight inside own (le_of_lt (lt_of_le_of_lt later late))
      rw [saved]
      exact ⟨le_trans least after.1, le_trans lowest after.2⟩
    stored := fun _ _ _ _ _ _ => nofun
    clean := by
      intro clean manifest named
      cases named
      obtain ⟨_, _, same, counter⟩ := not_dirty.mp clean
      rw [revision, saved] at same
      rw [content, revision]
      exact accepted.clean same counter }

/-- No save that is under way belongs to the next epoch. -/
theorem Settled.foreign (settled : Settled system) (room : system.lifecycle.documentEpoch < u64Max) :
    ∀ flight ∈ system.saves, flight.request.documentEpoch < nextCounter system.lifecycle.documentEpoch := by
  intro flight inside
  rw [nextCounter_of_lt room]
  exact Nat.lt_succ_of_le (settled.captured flight inside).epoch

theorem Captured.closed {lifecycle next : Lifecycle Workspace Place} {session session' : Session Content Batch}
    (held : Captured lifecycle session request) (sequence : next.operationSequence = lifecycle.operationSequence)
    (epoch : request.documentEpoch < next.documentEpoch) (none : next.latestPrimarySave = none) : Captured next session' request := by
  have other := epoch.ne
  refine ⟨sequence ▸ held.token, epoch.le, fun own => absurd own other, fun own => absurd own other, fun own => absurd own other,
    fun own => absurd own other, held.plain, fun _ _ same => ?_, fun own => absurd own other, fun _ own => absurd own other⟩
  rw [none] at same
  cases same

theorem settled_moved (settled : Settled system) (room : system.lifecycle.documentEpoch < u64Max)
    (accepted : Accepted system request) :
    Settled { system with
      lifecycle := (system.lifecycle.identified request).advanceDocumentEpoch
      session := (system.session.markSavedIfRevision request.revision).1 } := by
  obtain ⟨content, revision, saved⟩ := markSaved_keeps system.session request.revision
  have bounds := accepted.bounds
  have least := (markedRevision_le bounds.1).1
  have lowest := (markedRevision_le bounds.2).1
  have foreign := settled.foreign room
  exact { settled with
    saved := by
      rw [revision, saved]
      exact ⟨le_trans least bounds.1.2, le_trans lowest bounds.2.2⟩
    latest := by
      intro token current
      cases current
    manifest := by
      intro manifest named
      cases named
      exact ⟨rfl, fun candidate => absurd rfl candidate⟩
    captured := fun flight inside => (settled.captured flight inside).closed rfl (foreign flight inside) rfl
    ordered := fun flight inside _ _ own => absurd own (foreign flight inside).ne
    ahead := fun flight inside own => absurd own (foreign flight inside).ne
    stored := fun _ _ _ _ _ _ => nofun
    clean := by
      intro clean manifest named
      cases named
      obtain ⟨_, _, same, counter⟩ := not_dirty.mp clean
      rw [revision, saved] at same
      rw [content, revision]
      exact accepted.clean same counter }

theorem Settled.accepted (settled : Settled system) {result : SaveResult} {index : Nat}
    (found : system.saves[index]? = some ⟨request, some result⟩) (stored : result.stored = true) (kind : request.kind = .primary)
    (own : request.documentEpoch = system.lifecycle.documentEpoch) (current : system.lifecycle.latestPrimarySave = some request.token) :
    Accepted { system with saves := system.saves.eraseIdx index } request := by
  have inside := mem_of_getElem? found
  have kept := settled.stored _ inside result rfl stored kind current
  have captured : Captured system.lifecycle system.session request := settled.captured _ inside
  have ordered : ∀ flight ∈ system.saves.eraseIdx index, flight.request.documentEpoch = system.lifecycle.documentEpoch →
      request.token ≤ flight.request.token → request.revision ≤ flight.request.revision ∧ request.workspaceRevision ≤ flight.request.workspaceRevision :=
    fun flight there same later => settled.ordered _ inside flight (mem_of_mem_eraseIdx there) own same later
  exact ⟨captured, own, kind, current, kept.1, kept.2, ordered⟩

theorem settled_finishSave (settled : Settled system) (room : system.lifecycle.documentEpoch < u64Max) (index : Nat) :
    Settled (system.step (.finishSave index)) := by
  show Settled (system.finishSave index)
  unfold System.finishSave
  split
  · rename_i request result found
    have erased := settled.eraseSave index
    unfold finishSave
    by_cases own : request.documentEpoch = system.lifecycle.documentEpoch
    · rw [if_neg (not_not.mpr own)]
      split
      · exact erased
      · rename_i current
        split
        · exact erased
        · rename_i stored
          obtain ⟨content, revision, saved⟩ := acknowledge_keeps system.session request result.journal
          have acknowledged := settled.journal _ content revision saved
          have left := acknowledged.eraseSave index
          split
          · exact left
          · rename_i kind
            have latest : system.lifecycle.latestPrimarySave = some request.token := by
              by_contra other
              exact current ⟨kind, other⟩
            have accepted := acknowledged.accepted found (Bool.not_eq_false _ ▸ stored) kind own latest
            unfold finishPrimary
            dsimp only
            split
            · exact settled_moved left room accepted
            · rename_i stays
              exact settled_identified left accepted (not_not.mp stays)
    · rw [if_pos own]
      exact erased
  · exact settled
  · exact settled

end Saves

section Opens

variable {system : System Content Workspace Batch Place}

/-- Replayed records only add to a revision; a session that is at the revision it started from has not changed. -/
theorem replay_keeps (session : Session Content Batch) (records : List (Record Batch × Option Content)) :
    (session.replay records).savedRevision = session.savedRevision ∧ session.revision ≤ (session.replay records).revision ∧
      ((session.replay records).revision = session.revision → (session.replay records).content = session.content) := by
  induction records generalizing session with
  | nil => exact ⟨rfl, le_refl _, fun _ => rfl⟩
  | cons entry rest held =>
    obtain ⟨record, applied⟩ := entry
    unfold Session.replay
    cases applied with
    | none => exact ⟨rfl, le_refl _, fun _ => rfl⟩
    | some content =>
      dsimp only
      split
      · rename_i connects
        have later := held
          { session with
            content := content, revision := record.resultingRevision, nextJournalSequence := record.sequence + 1,
            journalCheckpoint := ⟨record.sequence, record.resultingRevision⟩ }
        obtain ⟨saved, bound, _⟩ := later
        dsimp only at saved bound
        have grows := connects.2.2.2
        exact ⟨saved, by omega, by omega⟩
      · exact ⟨rfl, le_refl _, fun _ => rfl⟩

theorem openedSession_keeps (loaded : LoadedDocument Content Workspace Batch) :
    (openedSession loaded).savedRevision ≤ (openedSession loaded).revision ∧
      ((openedSession loaded).revision = (openedSession loaded).savedRevision →
        (openedSession loaded).content = loaded.opened.content ∧ (openedSession loaded).revision = loaded.opened.revision) := by
  unfold openedSession
  dsimp only
  split
  · exact ⟨le_refl _, fun _ => ⟨rfl, rfl⟩⟩
  · rename_i sequence _
    split
    · exact ⟨le_refl _, fun _ => ⟨rfl, rfl⟩⟩
    · obtain ⟨saved, bound, same⟩ :=
        replay_keeps ((Session.install loaded.opened.content loaded.opened.revision : Session Content Batch).beginJournalReplay sequence) loaded.records
      have start : ((Session.install loaded.opened.content loaded.opened.revision : Session Content Batch).beginJournalReplay sequence).savedRevision =
          ((Session.install loaded.opened.content loaded.opened.revision : Session Content Batch).beginJournalReplay sequence).revision := rfl
      rw [saved, start]
      exact ⟨bound, fun equal => ⟨same equal, equal⟩⟩

theorem Settled.eraseOpen (settled : Settled system) (index : Nat) : Settled { system with opens := system.opens.eraseIdx index } := by
  have kept : ∀ flight ∈ system.opens.eraseIdx index, flight ∈ system.opens := fun flight inside => mem_of_mem_eraseIdx inside
  exact { settled with
    opens := fun flight inside => settled.opens flight (kept flight inside)
    loaded := fun flight inside => settled.loaded flight (kept flight inside) }

theorem Settled.unopened (settled : Settled system) : Settled { system with lifecycle := { system.lifecycle with pendingOpen := none } } := by
  have captured : ∀ flight ∈ system.saves, Captured { system.lifecycle with pendingOpen := none } system.session flight.request := by
    intro flight inside
    have held := settled.captured flight inside
    exact ⟨held.token, held.epoch, held.revision, held.content, held.workspaceRevision, held.workspace, held.plain, held.latest, held.front, held.autosave⟩
  exact { settled with
    captured := captured
    loaded := fun _ _ _ => nofun }

def Lifecycle.installed (lifecycle : Lifecycle Workspace Place) (files : Place) (origin : Origin) (workspace : Option Workspace) : Lifecycle Workspace Place :=
  { lifecycle with
    pendingOpen := none
    files := some files
    manifestPath := some ⟨files, Lifecycle.Origin.candidate origin⟩
    origin := some origin
    preserved := workspace
    workspace := workspace
    workspaceRevision := 0
    savedWorkspaceRevision := 0
    latestPrimarySave := none }

section

variable (settled : Settled system) (room : system.lifecycle.documentEpoch < u64Max)
include settled room

theorem settled_installed {files : Place} {origin : Origin}
    {loaded : LoadedDocument Content Workspace Batch} (read : origin = .primary → (system.packages files).primary = some loaded.opened) :
    Settled { system with
      lifecycle := (system.lifecycle.installed files origin loaded.opened.workspace).advanceDocumentEpoch
      session := openedSession loaded } := by
  obtain ⟨saved, unchanged⟩ := openedSession_keeps loaded
  have foreign := settled.foreign room
  exact { settled with
    saved := ⟨saved, le_refl _⟩
    latest := by
      intro token current
      cases current
    manifest := by
      intro manifest named
      cases named
      refine ⟨rfl, fun candidate => ?_⟩
      cases origin with
      | primary => exact absurd rfl candidate
      | recovery _ => trivial
    captured := fun flight inside => (settled.captured flight inside).closed rfl (foreign flight inside) rfl
    ordered := fun flight inside _ _ own => absurd own (foreign flight inside).ne
    ahead := fun flight inside own => absurd own (foreign flight inside).ne
    stored := fun _ _ _ _ _ _ => nofun
    loaded := fun _ _ _ => nofun
    clean := by
      intro clean manifest named
      cases named
      obtain ⟨recovery, _, same, _⟩ := not_dirty.mp clean
      have primary : origin = .primary := by
        cases origin with
        | primary => rfl
        | recovery _ => exact absurd trivial recovery
      obtain ⟨content, revision⟩ := unchanged same
      rw [content, revision]
      exact read primary }

theorem settled_finishOpen (index : Nat) (installs : Bool) :
    Settled (system.step (.finishOpen index installs)) := by
  show Settled (system.finishOpen index installs)
  unfold System.finishOpen
  split
  · rename_i token files origin result found
    have inside := mem_of_getElem? found
    have erased := settled.eraseOpen index
    unfold finishOpen
    by_cases pending : system.lifecycle.pendingOpen = some token
    · rw [if_neg (not_not.mpr pending)]
      cases result with
      | none => exact erased.unopened
      | some loaded =>
        dsimp only
        split
        · exact erased.unopened
        · have read : origin = .primary → (system.packages files).primary = some loaded.opened := fun primary =>
            settled.loaded _ inside primary pending loaded rfl
          exact settled_installed erased room read
    · rw [if_pos pending]
      exact erased
  · exact settled
  · exact settled

end

end Opens

theorem settled_step {system : System Content Workspace Batch Place} (settled : Settled system) (action : Action Content Workspace Batch Place)
    (orderly : system.Orderly action) : Settled (system.step action) := by
  cases action with
  | edit batch next => exact settled_edit settled batch next
  | replaceWorkspace workspace => exact settled_replaceWorkspace settled orderly workspace
  | adoptRecoveryRepository files => exact settled_adopt settled files
  | beginSave => exact settled_beginSave settled orderly.1 orderly.2
  | beginSaveAs files => exact settled_beginPrimary settled orderly.1 orderly.2 files
  | beginAutosave savedUnixMs => exact settled_beginAutosave settled orderly savedUnixMs
  | persist index stored write => exact settled_persist settled write orderly
  | finishSave index => exact settled_finishSave settled orderly index
  | beginOpen discarding files origin => exact settled_beginOpen settled orderly discarding files origin
  | load index readable anchor records => exact settled_load settled index readable anchor records
  | finishOpen index installs => exact settled_finishOpen settled orderly index installs

theorem settled_run {system : System Content Workspace Batch Place} (settled : Settled system) {actions : List (Action Content Workspace Batch Place)}
    (orderly : system.OrderlyRun actions) : Settled (system.run actions) := by
  induction actions generalizing system with
  | nil => exact settled
  | cons action actions held => exact held (settled_step settled action orderly.1) orderly.2

end Audec.ProjectDocument

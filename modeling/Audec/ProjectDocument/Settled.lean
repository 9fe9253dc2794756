import Audec.ProjectDocument.Model

/-! Which orders of work keep a clean document on disk, and the invariant that shows it. -/

open Checked List

namespace Audec.ProjectDocument

open Lifecycle

variable {Content Workspace Batch Place : Type} [DecidableEq Workspace] [DecidableEq Batch] [DecidableEq Place]

/-- A primary save that reaches its package in time: for a package that is open, or holds the latest
    save, no save begun after it has reached the package; it is of the document that is open there; and
    it does not fall between the reading of an open and its end. -/
structure Timely (system : System Content Workspace Batch Place) (request : SaveRequest Content Workspace Batch Place) : Prop where
  inOrder : (system.lifecycle.manifestPath = some ⟨request.files, none⟩ ∨
      ∃ flight ∈ system.saves, flight.request.files = request.files ∧ system.lifecycle.latestPrimarySave = some flight.request.token ∧
        ∃ result, flight.result = some result ∧ result.stored = true) →
    system.written request.files < request.token
  own : system.lifecycle.manifestPath = some ⟨request.files, none⟩ → request.documentEpoch = system.lifecycle.documentEpoch
  unread : ∀ flight ∈ system.opens, flight.files = request.files → flight.origin = .primary →
    system.lifecycle.pendingOpen = some flight.token → flight.loaded = none

/-- What an action has to meet: saves are timely, a save is not begun without a workspace where one
    is carried over, and no counter is used up. -/
def System.Orderly (system : System Content Workspace Batch Place) : Action Content Workspace Batch Place → Prop
  | .edit _ _ => True
  | .replaceWorkspace _ => system.lifecycle.workspaceRevision < u64Max
  | .adoptRecoveryRepository _ => True
  | .beginSave => system.lifecycle.operationSequence < u64Max ∧ (system.lifecycle.workspace = none → system.lifecycle.preserved = none)
  | .beginSaveAs _ => system.lifecycle.operationSequence < u64Max ∧ (system.lifecycle.workspace = none → system.lifecycle.preserved = none)
  | .beginAutosave _ => system.lifecycle.operationSequence < u64Max
  | .persist index stored _ => ∀ request, system.saves[index]? = some ⟨request, none⟩ → stored = true → request.kind = .primary → Timely system request
  | .finishSave _ => system.lifecycle.documentEpoch < u64Max
  | .beginOpen _ _ _ => system.lifecycle.operationSequence < u64Max
  | .load _ _ _ _ => True
  | .finishOpen _ _ => system.lifecycle.documentEpoch < u64Max

def System.OrderlyRun : System Content Workspace Batch Place → List (Action Content Workspace Batch Place) → Prop
  | _, [] => True
  | system, action :: actions => system.Orderly action ∧ OrderlyRun (system.step action) actions

structure Captured (lifecycle : Lifecycle Workspace Place) (session : Session Content Batch) (request : SaveRequest Content Workspace Batch Place) : Prop where
  token : request.token ≤ lifecycle.operationSequence
  epoch : request.documentEpoch ≤ lifecycle.documentEpoch
  revision : request.documentEpoch = lifecycle.documentEpoch → request.revision ≤ session.revision
  content : request.documentEpoch = lifecycle.documentEpoch → request.revision = session.revision → request.content = session.content
  workspaceRevision : request.documentEpoch = lifecycle.documentEpoch → request.workspaceRevision ≤ lifecycle.workspaceRevision
  workspace : request.documentEpoch = lifecycle.documentEpoch → request.workspaceRevision = lifecycle.workspaceRevision →
    request.workspace = lifecycle.workspace
  plain : request.kind = .primary → request.workspace.or request.preserved = request.workspace
  latest : request.kind = .primary → ∀ token, lifecycle.latestPrimarySave = some token → request.token ≤ token
  front : request.documentEpoch = lifecycle.documentEpoch → lifecycle.latestPrimarySave = some request.token →
    session.savedRevision ≤ request.revision ∧ lifecycle.savedWorkspaceRevision ≤ request.workspaceRevision
  autosave : request.kind ≠ .primary → request.documentEpoch = lifecycle.documentEpoch → lifecycle.files = some request.files

structure Settled (system : System Content Workspace Batch Place) : Prop where
  saved : system.session.savedRevision ≤ system.session.revision ∧
    system.lifecycle.savedWorkspaceRevision ≤ system.lifecycle.workspaceRevision
  latest : ∀ token, system.lifecycle.latestPrimarySave = some token → token ≤ system.lifecycle.operationSequence
  manifest : ∀ manifest, system.lifecycle.manifestPath = some manifest →
    system.lifecycle.files = some manifest.package ∧ (manifest.candidate ≠ none → Lifecycle.isRecovery system.lifecycle.origin)
  captured : ∀ flight ∈ system.saves, Captured system.lifecycle system.session flight.request
  tokens : (system.saves.map fun flight => flight.request.token).Nodup
  ordered : ∀ flight ∈ system.saves, ∀ other ∈ system.saves, flight.request.documentEpoch = system.lifecycle.documentEpoch →
    other.request.documentEpoch = system.lifecycle.documentEpoch → flight.request.token ≤ other.request.token →
      flight.request.revision ≤ other.request.revision ∧ flight.request.workspaceRevision ≤ other.request.workspaceRevision
  ahead : ∀ flight ∈ system.saves, flight.request.documentEpoch = system.lifecycle.documentEpoch →
    system.lifecycle.manifestPath = some ⟨flight.request.files, none⟩ → system.written flight.request.files < flight.request.token →
      system.session.savedRevision ≤ flight.request.revision ∧ system.lifecycle.savedWorkspaceRevision ≤ flight.request.workspaceRevision
  stored : ∀ flight ∈ system.saves, ∀ result, flight.result = some result → result.stored = true → flight.request.kind = .primary →
    system.lifecycle.latestPrimarySave = some flight.request.token →
      flight.request.token ≤ system.written flight.request.files ∧
        (system.packages flight.request.files).primary = some flight.request.checkpoint
  durable : ∀ flight ∈ system.saves, ∀ result, flight.result = some result → result.journal = .persisted → ∀ delta,
    flight.request.journalDelta = some delta → delta.records ⊆ (system.packages flight.request.files).journal
  opens : ∀ flight ∈ system.opens, flight.token ≤ system.lifecycle.operationSequence
  loaded : ∀ flight ∈ system.opens, flight.origin = .primary → system.lifecycle.pendingOpen = some flight.token → ∀ document,
    flight.loaded = some (some document) → (system.packages flight.files).primary = some document.opened
  clean : ¬ system.lifecycle.isDirty system.session → ∀ manifest, system.lifecycle.manifestPath = some manifest →
    (system.packages manifest.package).primary = some ⟨system.session.content, system.session.revision, system.lifecycle.workspace⟩

theorem settled_start (content : Content) (revision : Nat) (packages : Place → Package Content Workspace Batch) :
    Settled (System.start content revision packages) := by
  constructor
  case saved => exact ⟨le_refl _, le_refl _⟩
  case tokens => exact nodup_nil
  all_goals simp [System.start, new]

variable {counter : Nat}

theorem wrappingSucc_of_lt (room : counter < u64Max) : wrappingSucc counter = counter + 1 := by
  unfold wrappingSucc
  unfold u64Max at room
  omega

theorem nextCounter_of_lt (room : counter < u64Max) : nextCounter counter = counter + 1 := by
  unfold nextCounter
  rw [wrappingSucc_of_lt room, if_neg (by omega)]

theorem Lifecycle.not_dirty {lifecycle : Lifecycle Workspace Place} {session : Session Content Batch} :
    ¬ lifecycle.isDirty session ↔ ¬ isRecovery lifecycle.origin ∧ lifecycle.manifestPath ≠ none ∧
      session.revision = session.savedRevision ∧ lifecycle.workspaceRevision = lifecycle.savedWorkspaceRevision := by
  unfold isDirty Session.isDirty
  tauto

section Edits

variable {system : System Content Workspace Batch Place}

theorem Captured.later {lifecycle : Lifecycle Workspace Place} {session : Session Content Batch} {request : SaveRequest Content Workspace Batch Place}
    (captured : Captured lifecycle session request) (next : Session Content Batch) (revision : session.revision < next.revision) (saved : next.savedRevision = session.savedRevision) :
    Captured lifecycle next request := by
  have bound : request.documentEpoch = lifecycle.documentEpoch → request.revision ≤ next.revision := fun own =>
    le_trans (captured.revision own) (le_of_lt revision)
  have content : request.documentEpoch = lifecycle.documentEpoch → request.revision = next.revision → request.content = next.content := by
    intro own same
    have held := captured.revision own
    omega
  have front := captured.front
  rw [← saved] at front
  exact ⟨captured.token, captured.epoch, bound, content, captured.workspaceRevision, captured.workspace, captured.plain, captured.latest, front, captured.autosave⟩

theorem settled_edit (settled : Settled system) (batch : Batch) (next : Content) : Settled (system.step (.edit batch next)) := by
  show Settled { system with session := system.session.execute batch next }
  unfold Session.execute
  split
  · have captured := fun flight inside => (settled.captured flight inside).later
        { system.session with
          content := next, revision := system.session.revision + 1,
          journal := system.session.journal ++ [⟨system.session.nextJournalSequence, system.session.revision, system.session.revision + 1, batch⟩],
          nextJournalSequence := system.session.nextJournalSequence + 1 } (Nat.lt_succ_self _) rfl
    have bound := settled.saved.1
    exact { settled with
      saved := ⟨Nat.le_succ_of_le settled.saved.1, settled.saved.2⟩
      captured := captured
      clean := by
        intro clean
        have same : system.session.revision + 1 = system.session.savedRevision := (not_dirty.mp clean).2.2.1
        omega }
  · exact settled

theorem settled_replaceWorkspace (settled : Settled system) (room : system.lifecycle.workspaceRevision < u64Max) (workspace : Option Workspace) :
    Settled (system.step (.replaceWorkspace workspace)) := by
  show Settled { system with lifecycle := system.lifecycle.replaceWorkspace workspace }
  unfold replaceWorkspace
  split
  · exact settled
  · rw [wrappingSucc_of_lt room]
    have bound := settled.saved.2
    have captured : ∀ flight ∈ system.saves, Captured
        { system.lifecycle with workspace := workspace, workspaceRevision := system.lifecycle.workspaceRevision + 1 } system.session flight.request := by
      intro flight inside
      have held := settled.captured flight inside
      have revision : flight.request.documentEpoch = system.lifecycle.documentEpoch →
          flight.request.workspaceRevision ≤ system.lifecycle.workspaceRevision + 1 := fun own => Nat.le_succ_of_le (held.workspaceRevision own)
      have same : flight.request.documentEpoch = system.lifecycle.documentEpoch →
          flight.request.workspaceRevision = system.lifecycle.workspaceRevision + 1 → flight.request.workspace = workspace := by
        intro own equal
        have before := held.workspaceRevision own
        omega
      exact ⟨held.token, held.epoch, held.revision, held.content, revision, same, held.plain, held.latest, held.front, held.autosave⟩
    exact { settled with
      saved := ⟨settled.saved.1, Nat.le_succ_of_le settled.saved.2⟩
      captured := captured
      clean := by
        intro clean
        have same : system.lifecycle.workspaceRevision + 1 = system.lifecycle.savedWorkspaceRevision := (not_dirty.mp clean).2.2.2
        omega }

theorem settled_adopt (settled : Settled system) (files : Place) : Settled (system.step (.adoptRecoveryRepository files)) := by
  show Settled { system with lifecycle := system.lifecycle.adoptRecoveryRepository files }
  unfold adoptRecoveryRepository
  split
  · rename_i absent
    have unnamed : ∀ manifest, system.lifecycle.manifestPath ≠ some manifest := by
      intro manifest named
      have held := (settled.manifest manifest named).1
      rw [absent] at held
      cases held
    have captured : ∀ flight ∈ system.saves, Captured { system.lifecycle with files := some files } system.session flight.request := by
      intro flight inside
      have held := settled.captured flight inside
      have autosave : flight.request.kind ≠ .primary → flight.request.documentEpoch = system.lifecycle.documentEpoch → some files = some flight.request.files := by
        intro kind own
        have found := held.autosave kind own
        rw [absent] at found
        cases found
      exact ⟨held.token, held.epoch, held.revision, held.content, held.workspaceRevision, held.workspace, held.plain, held.latest, held.front, autosave⟩
    exact { settled with
      manifest := fun manifest named => absurd named (unnamed manifest)
      captured := captured }
  · exact settled

end Edits

section Begin

variable {system : System Content Workspace Batch Place}

def Lifecycle.numbered (lifecycle : Lifecycle Workspace Place) (kind : SaveKind) : Lifecycle Workspace Place :=
  { lifecycle with
    operationSequence := lifecycle.operationSequence + 1
    latestPrimarySave := if kind = .primary then some (lifecycle.operationSequence + 1) else lifecycle.latestPrimarySave }

variable {lifecycle : Lifecycle Workspace Place} {session : Session Content Batch}

theorem Captured.numbered {request : SaveRequest Content Workspace Batch Place}
    (captured : Captured lifecycle session request) (kind : SaveKind) : Captured (lifecycle.numbered kind) session request := by
  have older : request.token < lifecycle.operationSequence + 1 := Nat.lt_succ_of_le captured.token
  have latest : request.kind = .primary → ∀ token, (lifecycle.numbered kind).latestPrimarySave = some token → request.token ≤ token := by
    intro primary token current
    unfold Lifecycle.numbered at current
    dsimp only at current
    split at current
    · cases current
      exact le_of_lt older
    · exact captured.latest primary token current
  have front : request.documentEpoch = lifecycle.documentEpoch → (lifecycle.numbered kind).latestPrimarySave = some request.token →
      session.savedRevision ≤ request.revision ∧ lifecycle.savedWorkspaceRevision ≤ request.workspaceRevision := by
    intro own current
    unfold Lifecycle.numbered at current
    dsimp only at current
    split at current
    · rw [Option.some.injEq] at current
      omega
    · exact captured.front own current
  exact ⟨le_of_lt older, captured.epoch, captured.revision, captured.content, captured.workspaceRevision, captured.workspace, captured.plain, latest, front,
    captured.autosave⟩

theorem captured_new {files : Place} {kind : SaveKind}
    (saved : session.savedRevision ≤ session.revision ∧ lifecycle.savedWorkspaceRevision ≤ lifecycle.workspaceRevision)
    (plain : kind = .primary → lifecycle.workspace = none → lifecycle.preserved = none) (autosave : kind ≠ .primary → lifecycle.files = some files) :
    Captured (lifecycle.numbered kind) session (lifecycle.captureSave session files (lifecycle.operationSequence + 1) kind) := by
  constructor
  case token => exact le_refl _
  case epoch => exact le_refl _
  case revision => exact fun _ => le_refl _
  case content => exact fun _ _ => rfl
  case workspaceRevision => exact fun _ => le_refl _
  case workspace => exact fun _ _ => rfl
  case plain =>
    intro primary
    show lifecycle.workspace.or lifecycle.preserved = lifecycle.workspace
    cases held : lifecycle.workspace with
    | none => exact plain primary held
    | some workspace => rfl
  case latest =>
    intro primary token current
    have kept : kind = .primary := primary
    subst kept
    cases current
    exact le_refl _
  case front => exact fun _ _ => saved
  case autosave => exact fun other _ => autosave other

theorem settled_captured (settled : Settled system) (files : Place) (kind : SaveKind)
    (plain : kind = .primary → system.lifecycle.workspace = none → system.lifecycle.preserved = none)
    (autosave : kind ≠ .primary → system.lifecycle.files = some files) :
    Settled { system with
      lifecycle := system.lifecycle.numbered kind
      saves := system.saves ++ [⟨system.lifecycle.captureSave system.session files (system.lifecycle.operationSequence + 1) kind, none⟩] } := by
  have older : ∀ flight ∈ system.saves, flight.request.token < system.lifecycle.operationSequence + 1 :=
    fun flight inside => Nat.lt_succ_of_le (settled.captured flight inside).token
  have latest : ∀ flight ∈ system.saves, (system.lifecycle.numbered kind).latestPrimarySave = some flight.request.token →
      system.lifecycle.latestPrimarySave = some flight.request.token := by
    intro flight inside current
    unfold numbered at current
    dsimp only at current
    split at current
    · rw [Option.some.injEq] at current
      have before := older flight inside
      omega
    · exact current
  exact { settled with
    latest := by
      intro token current
      unfold numbered at current ⊢
      dsimp only at current ⊢
      split at current
      · cases current
        exact le_refl _
      · exact Nat.le_succ_of_le (settled.latest token current)
    captured := by
      intro flight inside
      rcases mem_append.mp inside with inside | inside
      · exact (settled.captured flight inside).numbered kind
      · rw [mem_singleton.mp inside]
        exact captured_new settled.saved plain autosave
    tokens := by
      rw [map_append, nodup_append]
      refine ⟨settled.tokens, nodup_singleton _, ?_⟩
      intro token inside other single
      obtain ⟨flight, there, rfl⟩ := mem_map.mp inside
      have same : other = system.lifecycle.operationSequence + 1 := mem_singleton.mp single
      have before := older flight there
      omega
    ordered := by
      intro flight inside other there own again before
      rcases mem_append.mp inside with inside | inside
      · rcases mem_append.mp there with there | there
        · exact settled.ordered flight inside other there own again before
        · rw [mem_singleton.mp there]
          have held := settled.captured flight inside
          exact ⟨held.revision own, held.workspaceRevision own⟩
      · rw [mem_singleton.mp inside] at before ⊢
        rcases mem_append.mp there with there | there
        · have later := older other there
          have first : system.lifecycle.operationSequence + 1 ≤ other.request.token := before
          omega
        · rw [mem_singleton.mp there]
          exact ⟨le_refl _, le_refl _⟩
    ahead := by
      intro flight inside own named late
      rcases mem_append.mp inside with inside | inside
      · exact settled.ahead flight inside own named late
      · rw [mem_singleton.mp inside]
        exact settled.saved
    stored := by
      intro flight inside result done
      rcases mem_append.mp inside with inside | inside
      · intro kept primary current
        exact settled.stored flight inside result done kept primary (latest flight inside current)
      · rw [mem_singleton.mp inside] at done
        cases done
    durable := by
      intro flight inside result done
      rcases mem_append.mp inside with inside | inside
      · exact settled.durable flight inside result done
      · rw [mem_singleton.mp inside] at done
        cases done
    opens := fun flight inside => Nat.le_succ_of_le (settled.opens flight inside) }

section

variable (settled : Settled system) (room : system.lifecycle.operationSequence < u64Max)
include settled room

section

variable (plain : system.lifecycle.workspace = none → system.lifecycle.preserved = none)
include plain

theorem settled_beginPrimary (files : Place) :
    Settled (system.begun (.ok (system.lifecycle.beginPrimarySave system.session files))) := by
  have next := settled_captured settled files .primary (fun _ => plain) (fun other => absurd rfl other)
  unfold System.begun beginPrimarySave nextOperation
  rw [nextCounter_of_lt room]
  exact next

theorem settled_beginSave : Settled (system.step .beginSave) := by
  show Settled (system.begun (system.lifecycle.beginSave system.session))
  unfold beginSave
  split
  · exact settled
  · exact settled_beginPrimary settled room plain _

end

theorem settled_beginAutosave (savedUnixMs : Nat) :
    Settled (system.step (.beginAutosave savedUnixMs)) := by
  show Settled (system.begun (system.lifecycle.beginAutosave system.session savedUnixMs))
  unfold beginAutosave
  split
  · exact settled
  · rename_i files named
    have next := settled_captured settled files (.autosave savedUnixMs) (fun primary => by cases primary) (fun _ => named)
    unfold System.begun nextOperation
    rw [nextCounter_of_lt room]
    exact next

theorem settled_beginOpen (discarding : Bool) (files : Place) (origin : Origin) :
    Settled (system.step (.beginOpen discarding files origin)) := by
  show Settled (system.beginOpen discarding files origin)
  unfold System.beginOpen beginOpen
  split
  · rename_i lifecycle flight begun
    split at begun
    · cases begun
    · rw [Except.ok.injEq, Prod.mk.injEq] at begun
      obtain ⟨rfl, rfl⟩ := begun
      unfold nextOperation
      rw [nextCounter_of_lt room]
      exact { settled with
        latest := fun token current => Nat.le_succ_of_le (settled.latest token current)
        captured := by
          intro save inside
          have held := settled.captured save inside
          exact ⟨Nat.le_succ_of_le held.token, held.epoch, held.revision, held.content, held.workspaceRevision, held.workspace, held.plain, held.latest,
            held.front, held.autosave⟩
        opens := by
          intro open' inside
          rcases mem_append.mp inside with inside | inside
          · exact Nat.le_succ_of_le (settled.opens open' inside)
          · rw [mem_singleton.mp inside]
        loaded := by
          intro other inside primary pending document found
          rcases mem_append.mp inside with inside | inside
          · have before := settled.opens other inside
            have same : system.lifecycle.operationSequence + 1 = other.token := Option.some.inj pending
            omega
          · rw [mem_singleton.mp inside] at found
            cases found }
  · exact settled

end

end Begin
end Audec.ProjectDocument

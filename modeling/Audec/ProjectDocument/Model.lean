import Audec.Lib.Checked

/-! A document between its session and its packages: what a save captures, what workers write and
    read in their own time, and what their completions do to the lifecycle and the session. -/

open Checked

namespace Audec.ProjectDocument

def u64Max : Nat := 0xffffffffffffffff

def wrappingSucc (counter : Nat) : Nat := (counter + 1) % 0x10000000000000000

/-- Counters of operations and documents skip zero. -/
def nextCounter (counter : Nat) : Nat := if wrappingSucc counter = 0 then 1 else wrappingSucc counter

section Session

variable {Content Batch : Type}

structure JournalCheckpoint where
  throughSequence : Nat
  projectRevision : Nat
  deriving DecidableEq

structure Record (Batch : Type) where
  sequence : Nat
  baseRevision : Nat
  resultingRevision : Nat
  batch : Batch
  deriving DecidableEq

structure JournalDelta (Batch : Type) where
  checkpoint : JournalCheckpoint
  throughSequence : Nat
  resultingRevision : Nat
  records : List (Record Batch)

/-- The controller of a project. `content` is all that a checkpoint keeps of it. -/
structure Session (Content Batch : Type) where
  content : Content
  revision : Nat
  savedRevision : Nat
  journal : List (Record Batch)
  nextJournalSequence : Nat
  journalCheckpoint : JournalCheckpoint

namespace Session

def install (content : Content) (revision : Nat) : Session Content Batch :=
  ⟨content, revision, revision, [], 1, ⟨0, revision⟩⟩

variable (session : Session Content Batch)

def isDirty (session : Session Content Batch) : Prop := session.revision ≠ session.savedRevision

instance (session : Session Content Batch) : Decidable session.isDirty := inferInstanceAs (Decidable (_ ≠ _))

/-- A command, an undo or a redo that the project accepts. -/
def execute (batch : Batch) (next : Content) : Session Content Batch :=
  if session.revision < u64Max ∧ session.nextJournalSequence < u64Max then
    { session with
      content := next
      revision := session.revision + 1
      journal := session.journal ++ [⟨session.nextJournalSequence, session.revision, session.revision + 1, batch⟩]
      nextJournalSequence := session.nextJournalSequence + 1 }
  else session

def journalRecordsFrom (sequence : Nat) : List (Record Batch) :=
  session.journal.dropWhile fun record => record.sequence < sequence

def pendingJournalDelta : Option (JournalDelta Batch) :=
  let records := session.journalRecordsFrom (min (session.journalCheckpoint.throughSequence + 1) u64Max)
  records.getLast?.map fun last => ⟨session.journalCheckpoint, last.sequence, last.resultingRevision, records⟩

inductive JournalError where
  | checkpoint (expected actual : JournalCheckpoint)
  | deltaMismatch

variable [DecidableEq Batch]

def acknowledgeJournalDelta (session : Session Content Batch) (delta : JournalDelta Batch) : Except JournalError (Session Content Batch) := do
  ensure (delta.checkpoint = session.journalCheckpoint) (.checkpoint session.journalCheckpoint delta.checkpoint)
  let current := session.journalRecordsFrom (min (delta.checkpoint.throughSequence + 1) u64Max)
  ensure (delta.records <+: current ∧
    (delta.records.getLast?.map fun last => (last.sequence, last.resultingRevision)) = some (delta.throughSequence, delta.resultingRevision)) .deltaMismatch
  .ok { session with
    journalCheckpoint := ⟨delta.throughSequence, delta.resultingRevision⟩
    journal := session.journal.dropWhile fun record => record.sequence ≤ delta.throughSequence }

def markSavedIfRevision (session : Session Content Batch) (revision : Nat) : Session Content Batch × Bool :=
  if session.revision = revision then ({ session with savedRevision := revision }, true) else (session, false)

def beginJournalReplay (session : Session Content Batch) (nextSequence : Nat) : Session Content Batch :=
  { session with nextJournalSequence := nextSequence, journalCheckpoint := ⟨nextSequence - 1, session.revision⟩ }

/-- Replays records until one does not connect or is refused; `none` is a refused batch. -/
def replay : Session Content Batch → List (Record Batch × Option Content) → Session Content Batch
  | session, [] => session
  | session, (record, applied) :: rest =>
    match applied with
    | none => session
    | some content =>
      if record.sequence = session.nextJournalSequence ∧ record.baseRevision = session.revision ∧ record.sequence < u64Max ∧
          record.resultingRevision = session.revision + 1 then
        replay
          { session with
            content := content
            revision := record.resultingRevision
            nextJournalSequence := record.sequence + 1
            journalCheckpoint := ⟨record.sequence, record.resultingRevision⟩ }
          rest
      else session

end Session

end Session

variable {Content Workspace Batch Place : Type}

/-- A checkpoint in a package. -/
structure Saved (Content Workspace : Type) where
  content : Content
  revision : Nat
  workspace : Option Workspace
  deriving DecidableEq

structure Candidate where
  revision : Nat
  savedUnixMs : Nat
  deriving DecidableEq

structure Package (Content Workspace Batch : Type) where
  primary : Option (Saved Content Workspace)
  recovery : List (Candidate × Saved Content Workspace)
  journal : List (Record Batch)

/-- The file a document was loaded from or saved to: the manifest of a package or a recovery checkpoint in it. -/
structure ManifestPath (Place : Type) where
  package : Place
  candidate : Option Candidate
  deriving DecidableEq

inductive Origin where
  | primary
  | recovery (candidate : Candidate)

inductive SaveKind where
  | primary
  | autosave (savedUnixMs : Nat)
  deriving DecidableEq

/-- `preserved` is the workspace among the envelope data carried over from the package that was opened. -/
structure SaveRequest (Content Workspace Batch Place : Type) where
  token : Nat
  documentEpoch : Nat
  files : Place
  kind : SaveKind
  content : Content
  revision : Nat
  workspace : Option Workspace
  workspaceRevision : Nat
  preserved : Option Workspace
  journalDelta : Option (JournalDelta Batch)

inductive Persistence where
  | noPending
  | notWritten
  | persisted
  | failed
  | durableSuperseded
  deriving DecidableEq

inductive JournalWrite where
  | unasked
  | refused
  | written

structure SaveResult where
  stored : Bool
  journal : Persistence

/-- A save between its capture and its completion; `result` is there once a worker has persisted it. -/
structure SaveFlight (Content Workspace Batch Place : Type) where
  request : SaveRequest Content Workspace Batch Place
  result : Option SaveResult

namespace SaveRequest

section

variable (request : SaveRequest Content Workspace Batch Place)

/-- The checkpoint that is built: without a workspace of its own it keeps the one carried over. -/
def checkpoint : Saved Content Workspace :=
  ⟨request.content, request.revision, request.workspace.or request.preserved⟩

def journalState (stored : Bool) (write : JournalWrite) : Persistence :=
  match request.journalDelta with
  | none => .noPending
  | some _ =>
    match write with
    | .unasked => .notWritten
    | .refused => .failed
    | .written => if stored then .persisted else .failed

def store (stored : Bool) (write : JournalWrite)
    (package : Package Content Workspace Batch) : Package Content Workspace Batch :=
  let kept := if request.journalState stored write = .persisted then (request.journalDelta.elim [] JournalDelta.records) else []
  { primary := if stored ∧ request.kind = .primary then some request.checkpoint else package.primary
    recovery :=
      match request.kind with
      | .primary => package.recovery
      | .autosave savedUnixMs => if stored then (⟨request.revision, savedUnixMs⟩, request.checkpoint) :: package.recovery else package.recovery
    journal := package.journal ++ kept }

end

end SaveRequest

/-- What was read for an open: a checkpoint and the journal records that may extend it, each with
    what its batch makes of the project. -/
structure LoadedDocument (Content Workspace Batch : Type) where
  opened : Saved Content Workspace
  anchorSequence : Option Nat
  records : List (Record Batch × Option Content)

/-- An open between its request and its completion; `loaded` is there once a worker has read the package. -/
structure OpenFlight (Content Workspace Batch Place : Type) where
  token : Nat
  files : Place
  origin : Origin
  loaded : Option (Option (LoadedDocument Content Workspace Batch))

inductive LifecycleError where
  | noRepository
  | unsavedChanges
  | staleOpenCompletion
  | documentChangedDuringOperation
  | supersededSaveCompletion
  | repository
  | liveProject

structure Lifecycle (Workspace Place : Type) where
  files : Option Place
  manifestPath : Option (ManifestPath Place)
  origin : Option Origin
  preserved : Option Workspace
  workspace : Option Workspace
  workspaceRevision : Nat
  savedWorkspaceRevision : Nat
  documentEpoch : Nat
  operationSequence : Nat
  pendingOpen : Option Nat
  latestPrimarySave : Option Nat

structure SaveOutcome where
  revision : Nat
  projectMarkedSaved : Bool
  workspaceMarkedSaved : Bool
  documentClean : Bool
  journal : Persistence

structure Ended (Content Workspace Batch Place α : Type) where
  lifecycle : Lifecycle Workspace Place
  session : Session Content Batch
  result : Except LifecycleError α

namespace Lifecycle

variable [DecidableEq Workspace] [DecidableEq Batch] [DecidableEq Place]

def new : Lifecycle Workspace Place := ⟨none, none, none, none, none, 0, 0, 0, 0, none, none⟩

def isRecovery : Option Origin → Prop
  | some (.recovery _) => True
  | some .primary => False
  | none => False

instance : DecidablePred isRecovery := fun origin =>
  match origin with
  | some (.recovery _) => .isTrue trivial
  | some .primary => .isFalse id
  | none => .isFalse id

variable (lifecycle : Lifecycle Workspace Place)

variable (session : Session Content Batch)

def isDirty (lifecycle : Lifecycle Workspace Place) (session : Session Content Batch) : Prop :=
  isRecovery lifecycle.origin ∨ (lifecycle.manifestPath = none ∨ session.isDirty) ∨ lifecycle.workspaceRevision ≠ lifecycle.savedWorkspaceRevision

instance (lifecycle : Lifecycle Workspace Place) (session : Session Content Batch) : Decidable (lifecycle.isDirty session) :=
  inferInstanceAs (Decidable (_ ∨ (_ ∨ _) ∨ _))

def replaceWorkspace (lifecycle : Lifecycle Workspace Place) (workspace : Option Workspace) : Lifecycle Workspace Place :=
  if lifecycle.workspace = workspace then lifecycle
  else { lifecycle with workspace := workspace, workspaceRevision := wrappingSucc lifecycle.workspaceRevision }

def nextOperation (lifecycle : Lifecycle Workspace Place) : Lifecycle Workspace Place :=
  { lifecycle with operationSequence := nextCounter lifecycle.operationSequence }

def adoptRecoveryRepository (lifecycle : Lifecycle Workspace Place) (files : Place) : Lifecycle Workspace Place :=
  if lifecycle.files = none then { lifecycle with files := some files } else lifecycle

def captureSave (lifecycle : Lifecycle Workspace Place) (session : Session Content Batch) (files : Place) (token : Nat) (kind : SaveKind) :
    SaveRequest Content Workspace Batch Place :=
  ⟨token, lifecycle.documentEpoch, files, kind, session.content, session.revision, lifecycle.workspace, lifecycle.workspaceRevision,
    lifecycle.preserved, session.pendingJournalDelta⟩

def beginPrimarySave (lifecycle : Lifecycle Workspace Place) (session : Session Content Batch) (files : Place) :
    Lifecycle Workspace Place × SaveRequest Content Workspace Batch Place :=
  let lifecycle := lifecycle.nextOperation
  ({ lifecycle with latestPrimarySave := some lifecycle.operationSequence }, lifecycle.captureSave session files lifecycle.operationSequence .primary)

def beginSave (lifecycle : Lifecycle Workspace Place) (session : Session Content Batch) :
    Except LifecycleError (Lifecycle Workspace Place × SaveRequest Content Workspace Batch Place) :=
  match lifecycle.files with
  | none => .error .noRepository
  | some files => .ok (lifecycle.beginPrimarySave session files)

def beginAutosave (lifecycle : Lifecycle Workspace Place) (session : Session Content Batch) (savedUnixMs : Nat) :
    Except LifecycleError (Lifecycle Workspace Place × SaveRequest Content Workspace Batch Place) :=
  match lifecycle.files with
  | none => .error .noRepository
  | some files => .ok (lifecycle.nextOperation, lifecycle.captureSave session files lifecycle.nextOperation.operationSequence (.autosave savedUnixMs))

def advanceDocumentEpoch (lifecycle : Lifecycle Workspace Place) : Lifecycle Workspace Place :=
  { lifecycle with documentEpoch := nextCounter lifecycle.documentEpoch }

def acknowledge (session : Session Content Batch) (request : SaveRequest Content Workspace Batch Place) (journal : Persistence) :
    Session Content Batch × Persistence :=
  match request.journalDelta with
  | none => (session, journal)
  | some delta =>
    if journal = .persisted then
      match session.acknowledgeJournalDelta delta with
      | .ok session => (session, journal)
      | .error _ => (session, if session.journalCheckpoint ≠ delta.checkpoint then .durableSuperseded else .failed)
    else (session, journal)

section

variable (request : SaveRequest Content Workspace Batch Place)

def finishAutosave (request : SaveRequest Content Workspace Batch Place)
    (journal : Persistence) : Ended Content Workspace Batch Place SaveOutcome :=
  ⟨lifecycle, session, .ok ⟨request.revision, false, false, decide (¬ lifecycle.isDirty session), journal⟩⟩

def finishPrimary (request : SaveRequest Content Workspace Batch Place)
    (journal : Persistence) : Ended Content Workspace Batch Place SaveOutcome :=
  let manifest : ManifestPath Place := ⟨request.files, none⟩
  let marked := session.markSavedIfRevision request.revision
  let named : Lifecycle Workspace Place :=
    { lifecycle with
      latestPrimarySave := none
      files := some request.files
      manifestPath := some manifest
      origin := some .primary
      savedWorkspaceRevision :=
        if request.workspaceRevision = lifecycle.workspaceRevision then request.workspaceRevision else lifecycle.savedWorkspaceRevision }
  let moved := if lifecycle.manifestPath ≠ some manifest then named.advanceDocumentEpoch else named
  ⟨moved, marked.1,
    .ok ⟨request.revision, marked.2, decide (request.workspaceRevision = lifecycle.workspaceRevision), decide (¬ moved.isDirty marked.1), journal⟩⟩

def finishSave (request : SaveRequest Content Workspace Batch Place)
    (result : SaveResult) : Ended Content Workspace Batch Place SaveOutcome :=
  if request.documentEpoch ≠ lifecycle.documentEpoch then ⟨lifecycle, session, .error .documentChangedDuringOperation⟩
  else if request.kind = .primary ∧ lifecycle.latestPrimarySave ≠ some request.token then ⟨lifecycle, session, .error .supersededSaveCompletion⟩
  else if result.stored = false then ⟨lifecycle, session, .error .repository⟩
  else
    let acknowledged := acknowledge session request result.journal
    match request.kind with
    | .autosave _ => lifecycle.finishAutosave acknowledged.1 request acknowledged.2
    | .primary => lifecycle.finishPrimary acknowledged.1 request acknowledged.2

end

/-- An open that has not been told to discard is refused while there is something to lose. -/
def beginOpen (lifecycle : Lifecycle Workspace Place) (session : Session Content Batch) (discarding : Bool) (files : Place) (origin : Origin) :
    Except LifecycleError (Lifecycle Workspace Place × OpenFlight Content Workspace Batch Place) :=
  if discarding = false ∧ lifecycle.isDirty session then .error .unsavedChanges
  else
    let lifecycle := lifecycle.nextOperation
    .ok ({ lifecycle with pendingOpen := some lifecycle.operationSequence }, ⟨lifecycle.operationSequence, files, origin, none⟩)

def openedSession (loaded : LoadedDocument Content Workspace Batch) : Session Content Batch :=
  let fresh : Session Content Batch := .install loaded.opened.content loaded.opened.revision
  let next := (loaded.anchorSequence.bind fun sequence => if sequence < u64Max then some (sequence + 1) else none).or
    (loaded.records.head?.map fun first => first.1.sequence)
  match next with
  | none => fresh
  | some sequence => if sequence = 0 then fresh else (fresh.beginJournalReplay sequence).replay loaded.records

def Origin.candidate : Origin → Option Candidate
  | .primary => none
  | .recovery candidate => some candidate

/-- `installs` is whether the decoded project makes a valid live project. -/
def finishOpen (lifecycle : Lifecycle Workspace Place) (session : Session Content Batch) (flight : OpenFlight Content Workspace Batch Place)
    (loaded : Option (LoadedDocument Content Workspace Batch)) (installs : Bool) : Ended Content Workspace Batch Place Unit :=
  if lifecycle.pendingOpen ≠ some flight.token then ⟨lifecycle, session, .error .staleOpenCompletion⟩
  else
    let settled := { lifecycle with pendingOpen := none }
    match loaded with
    | none => ⟨settled, session, .error .repository⟩
    | some loaded =>
      if installs = false then ⟨settled, session, .error .liveProject⟩
      else
        let installed : Lifecycle Workspace Place :=
          { settled with
            files := some flight.files
            manifestPath := some ⟨flight.files, Origin.candidate flight.origin⟩
            origin := some flight.origin
            preserved := loaded.opened.workspace
            workspace := loaded.opened.workspace
            workspaceRevision := 0
            savedWorkspaceRevision := 0
            latestPrimarySave := none }
        ⟨installed.advanceDocumentEpoch, openedSession loaded, .ok ()⟩

end Lifecycle

/-- A document with its packages, and the saves and opens that are under way. `written` keeps the
    token of the last primary save that reached each package; nothing in the program reads it. -/
structure System (Content Workspace Batch Place : Type) where
  lifecycle : Lifecycle Workspace Place
  session : Session Content Batch
  packages : Place → Package Content Workspace Batch
  saves : List (SaveFlight Content Workspace Batch Place)
  opens : List (OpenFlight Content Workspace Batch Place)
  written : Place → Nat

inductive Action (Content Workspace Batch Place : Type) where
  | edit (batch : Batch) (next : Content)
  | replaceWorkspace (workspace : Option Workspace)
  | adoptRecoveryRepository (files : Place)
  | beginSave
  | beginSaveAs (files : Place)
  | beginAutosave (savedUnixMs : Nat)
  | persist (index : Nat) (stored : Bool) (write : JournalWrite)
  | finishSave (index : Nat)
  | beginOpen (discarding : Bool) (files : Place) (origin : Origin)
  /-- A worker reads a package; `readable` is whether the checkpoint decodes. -/
  | load (index : Nat) (readable : Bool) (anchor : Option Nat) (records : List (Record Batch × Option Content))
  | finishOpen (index : Nat) (installs : Bool)

namespace System

variable [DecidableEq Workspace] [DecidableEq Batch] [DecidableEq Place]

def checkpointAt (packages : Place → Package Content Workspace Batch) (manifest : ManifestPath Place) : Option (Saved Content Workspace) :=
  match manifest.candidate with
  | none => (packages manifest.package).primary
  | some candidate => ((packages manifest.package).recovery.find? fun entry => entry.1 = candidate).map Prod.snd

variable (system : System Content Workspace Batch Place)

def begun (system : System Content Workspace Batch Place)
    (started : Except LifecycleError (Lifecycle Workspace Place × SaveRequest Content Workspace Batch Place)) : System Content Workspace Batch Place :=
  match started with
  | .ok (lifecycle, request) => { system with lifecycle := lifecycle, saves := system.saves ++ [⟨request, none⟩] }
  | .error _ => system

def persist (system : System Content Workspace Batch Place) (index : Nat) (stored : Bool) (write : JournalWrite) : System Content Workspace Batch Place :=
  match system.saves[index]? with
  | some ⟨request, none⟩ =>
    { system with
      packages := Function.update system.packages request.files (request.store stored write (system.packages request.files))
      saves := system.saves.set index ⟨request, some ⟨stored, request.journalState stored write⟩⟩
      written :=
        if stored ∧ request.kind = .primary then Function.update system.written request.files request.token else system.written }
  | some ⟨_, some _⟩ => system
  | none => system

def finishSave (system : System Content Workspace Batch Place) (index : Nat) : System Content Workspace Batch Place :=
  match system.saves[index]? with
  | some ⟨request, some result⟩ =>
    let ended := system.lifecycle.finishSave system.session request result
    { system with lifecycle := ended.lifecycle, session := ended.session, saves := system.saves.eraseIdx index }
  | some ⟨_, none⟩ => system
  | none => system

def beginOpen (system : System Content Workspace Batch Place) (discarding : Bool) (files : Place) (origin : Origin) : System Content Workspace Batch Place :=
  match system.lifecycle.beginOpen system.session discarding files origin with
  | .ok (lifecycle, flight) => { system with lifecycle := lifecycle, opens := system.opens ++ [flight] }
  | .error _ => system

def load (system : System Content Workspace Batch Place) (index : Nat) (readable : Bool) (anchor : Option Nat)
    (records : List (Record Batch × Option Content)) : System Content Workspace Batch Place :=
  match system.opens[index]? with
  | some ⟨token, files, origin, none⟩ =>
    let found := checkpointAt system.packages ⟨files, Lifecycle.Origin.candidate origin⟩
    let loaded := if readable then found.map fun opened => ⟨opened, anchor, records⟩ else none
    { system with opens := system.opens.set index ⟨token, files, origin, some loaded⟩ }
  | some ⟨_, _, _, some _⟩ => system
  | none => system

def finishOpen (system : System Content Workspace Batch Place) (index : Nat) (installs : Bool) : System Content Workspace Batch Place :=
  match system.opens[index]? with
  | some ⟨token, files, origin, some loaded⟩ =>
    let ended := system.lifecycle.finishOpen system.session ⟨token, files, origin, some loaded⟩ loaded installs
    { system with lifecycle := ended.lifecycle, session := ended.session, opens := system.opens.eraseIdx index }
  | some ⟨_, _, _, none⟩ => system
  | none => system

def step (system : System Content Workspace Batch Place) : Action Content Workspace Batch Place → System Content Workspace Batch Place
  | .edit batch next => { system with session := system.session.execute batch next }
  | .replaceWorkspace workspace => { system with lifecycle := system.lifecycle.replaceWorkspace workspace }
  | .adoptRecoveryRepository files => { system with lifecycle := system.lifecycle.adoptRecoveryRepository files }
  | .beginSave => system.begun (system.lifecycle.beginSave system.session)
  | .beginSaveAs files => system.begun (.ok (system.lifecycle.beginPrimarySave system.session files))
  | .beginAutosave savedUnixMs => system.begun (system.lifecycle.beginAutosave system.session savedUnixMs)
  | .persist index stored write => system.persist index stored write
  | .finishSave index => system.finishSave index
  | .beginOpen discarding files origin => system.beginOpen discarding files origin
  | .load index readable anchor records => system.load index readable anchor records
  | .finishOpen index installs => system.finishOpen index installs

def run (system : System Content Workspace Batch Place) (actions : List (Action Content Workspace Batch Place)) : System Content Workspace Batch Place :=
  actions.foldl step system

/-- A new project over packages that hold whatever they hold. -/
def start (content : Content) (revision : Nat) (packages : Place → Package Content Workspace Batch) : System Content Workspace Batch Place :=
  ⟨.new, .install content revision, packages, [], [], fun _ => 0⟩

end System
end Audec.ProjectDocument

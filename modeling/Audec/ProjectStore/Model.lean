import Audec.Lib.Checked
import Audec.Lib.Interrupted
import Audec.Lib.Machine
import Audec.Lib.Machine

/-! The package of a project on disk: its envelopes and payloads, how a checkpoint is saved by atomic
    file operations, and how it is found and loaded again. Temporary files and directories are left
    out, since nothing that reads a package looks at them. -/

open Machine Checked Interrupted
open Std (ExtTreeMap)

namespace Audec.ProjectStore

/-- A path inside the package, by its components. -/
abbrev Path := List String

abbrev Bytes := List UInt8

structure DomainSectionRecord where
  domain : String
  schemaVersion : U32
  revision : U64
  payloadKey : Path
  encoding : String
  deriving DecidableEq

structure RecoveryMetadata where
  isAutosave : Bool
  savedUnixMs : U64
  baseProjectRevision : U64
  primaryFileName : Option String
  deriving DecidableEq

def RecoveryMetadata.default : RecoveryMetadata := ⟨false, 0, 0, none⟩

/-- `carried` is what the store does not read of an envelope: bindings, assets, the legacy workspace
    and the extensions. -/
structure ProjectFile (Carried : Type) where
  format : String
  version : U32
  projectName : String
  aggregateRevision : U64
  sections : List DomainSectionRecord
  carried : Carried
  recovery : RecoveryMetadata
  deriving DecidableEq

def projectFileFormat : String := "audec-project"

def projectFileVersion : U32 := 1

inductive ProjectIoError where
  | invalid (message : String)
  | unsupportedVersion (found supported : U32)
  deriving DecidableEq

inductive ProjectFormatError where
  | envelope (error : ProjectIoError)
  | invalidPayloadKey (key : Path)
  | missingPayload (key : Path)
  | unreferencedPayload (key : Path)
  | payloadCollision (key : Path)
  | duplicateSection (domain : String)
  deriving DecidableEq

inductive ProjectStoreError where
  | format (error : ProjectFormatError)
  | envelope (error : ProjectIoError)
  | revisionMismatch (expected checkpoint : U64)
  | invalidRecoveryRetention (max : Nat)
  | invalidRecoveryCheckpoint (path : Path)
  | recoveryCheckpointMismatch (path : Path) (expectedSavedUnixMs expectedBaseRevision actualSavedUnixMs actualBaseRevision : U64)
      (isAutosave : Bool)
  | duplicatePayload (key : Path)
  | immutablePayloadConflict (path : Path)
  | io (path : Path)

/-- The checks an envelope's carried parts make of themselves. -/
class CarriedChecks (Carried : Type) where
  check : Carried → Except ProjectIoError Unit

/-- No component leads out of the package. -/
def safeRelativePath (path : Path) : Prop := path ≠ [] ∧ ".." ∉ path

instance (path : Path) : Decidable (safeRelativePath path) := inferInstanceAs (Decidable (_ ∧ _))

def validatePayloadKey (key : Path) : Except ProjectFormatError Unit := ensure (safeRelativePath key) (.invalidPayloadKey key)

/-- The last component, unless it leads upwards. -/
def fileName (path : Path) : Option String := path.getLast?.filter (· ≠ "..")

def validateDomains : List DomainSectionRecord → List String → Except ProjectIoError Unit
  | [], _ => .ok ()
  | record :: rest, domains => do
    ensure (¬ (Unicode.isBlank record.domain ∨ record.schemaVersion = 0 ∨ Unicode.isBlank record.encoding ∨ ¬ safeRelativePath record.payloadKey))
      (.invalid ("invalid domain section " ++ record.domain))
    ensure (record.domain ∉ domains) (.invalid ("duplicate domain section " ++ record.domain))
    validateDomains rest (record.domain :: domains)

namespace ProjectFile

variable {Carried : Type} [CarriedChecks Carried]

def validate (file : ProjectFile Carried) : Except ProjectIoError Unit := do
  ensure (file.format = projectFileFormat) (.invalid ("unsupported project format " ++ file.format))
  ensure (file.version = projectFileVersion) (.unsupportedVersion file.version projectFileVersion)
  ensure (¬ Unicode.isBlank file.projectName) (.invalid "project name is empty")
  validateDomains file.sections []
  CarriedChecks.check file.carried
  ensure (¬ (file.recovery.isAutosave ∧ file.recovery.primaryFileName.getD "" = "")) (.invalid "autosave lacks its primary filename")

end ProjectFile

abbrev DomainPayloads := ExtTreeMap Path Bytes

structure ProjectCheckpoint (Carried : Type) where
  file : ProjectFile Carried
  payloads : DomainPayloads

def validateSections (payloads : DomainPayloads) : List DomainSectionRecord → List String → List Path → Except ProjectFormatError Unit
  | [], _, _ => .ok ()
  | record :: rest, domains, keys => do
    ensure (record.domain ∉ domains) (.duplicateSection record.domain)
    validatePayloadKey record.payloadKey
    ensure (record.payloadKey ∉ keys) (.payloadCollision record.payloadKey)
    ensure (payloads.contains record.payloadKey) (.missingPayload record.payloadKey)
    validateSections payloads rest (record.domain :: domains) (record.payloadKey :: keys)

def validatePayloads (keys : List Path) : List Path → Except ProjectFormatError Unit
  | [] => .ok ()
  | key :: rest => do
    validatePayloadKey key
    ensure (key ∈ keys) (.unreferencedPayload key)
    validatePayloads keys rest

def payloadDirectory : String := "payloads"

def revisionDirectory (revision : U64) : String := "r" ++ toString revision.val

def revisionKey (revision : U64) (leaf : String) : Path := [payloadDirectory, revisionDirectory revision, leaf]

def scopeSections (revision : U64) (held : DomainPayloads) :
    List DomainSectionRecord → DomainPayloads → Except ProjectFormatError (List DomainSectionRecord × DomainPayloads)
  | [], payloads => .ok ([], payloads)
  | record :: rest, payloads =>
    match fileName record.payloadKey with
    | none => .error (.invalidPayloadKey record.payloadKey)
    | some leaf =>
      match held[record.payloadKey]? with
      | none => .error (.missingPayload record.payloadKey)
      | some bytes =>
        if payloads.contains (revisionKey revision leaf) then .error (.payloadCollision (revisionKey revision leaf))
        else do
          let rescoped ← scopeSections revision held rest (payloads.insert (revisionKey revision leaf) bytes)
          .ok ({ record with payloadKey := revisionKey revision leaf } :: rescoped.1, rescoped.2)

namespace ProjectCheckpoint

variable {Carried : Type} [CarriedChecks Carried]

def revision (checkpoint : ProjectCheckpoint Carried) : U64 := checkpoint.file.aggregateRevision

def validate (checkpoint : ProjectCheckpoint Carried) : Except ProjectFormatError Unit := do
  checkpoint.file.validate.mapError .envelope
  validateSections checkpoint.payloads checkpoint.file.sections [] []
  validatePayloads (checkpoint.file.sections.map DomainSectionRecord.payloadKey) checkpoint.payloads.keys

def byDomain (left right : DomainSectionRecord) : Prop := left.domain ≤ right.domain

instance : DecidableRel byDomain := fun left right => inferInstanceAs (Decidable (left.domain ≤ right.domain))

/-- A checkpoint with no preserved foreign data. -/
def new (file : ProjectFile Carried) (payloads : DomainPayloads) : Except ProjectFormatError (ProjectCheckpoint Carried) := do
  let checkpoint : ProjectCheckpoint Carried := ⟨{ file with sections := file.sections.insertionSort byDomain }, payloads⟩
  checkpoint.validate
  .ok checkpoint

def revisionScoped (checkpoint : ProjectCheckpoint Carried) : Except ProjectFormatError (ProjectCheckpoint Carried) := do
  let rescoped ← scopeSections checkpoint.revision checkpoint.payloads checkpoint.file.sections ∅
  new { checkpoint.file with sections := rescoped.1 } rescoped.2

end ProjectCheckpoint

/-- What a file of the package holds. An envelope stands for the text that `encode_pretty` writes of it. -/
inductive FileData (Carried : Type) where
  | payload (bytes : Bytes)
  | envelope (file : ProjectFile Carried)
  deriving DecidableEq

abbrev Files (Carried : Type) := ExtTreeMap Path (FileData Carried)

/-- The steps that other processes, and a crash, can see. -/
inductive Effect (Carried : Type) where
  | hardLink (path : Path) (data : FileData Carried)
  | rename (path : Path) (data : FileData Carried)
  | removeFile (path : Path)

def Effect.apply {Carried : Type} (files : Files Carried) : Effect Carried → Files Carried
  | .hardLink path data => files.insert path data
  | .rename path data => files.insert path data
  | .removeFile path => files.erase path

instance (Carried : Type) : Device (Files Carried) (Effect Carried) := ⟨Effect.apply⟩

abbrev Io (Carried : Type) := Program (Files Carried) (Effect Carried) ProjectStoreError

structure ProjectPackage where
  /-- The last component of the root, when it has one that is Unicode text. -/
  rootFileName : Option String

def manifestPath : Path := ["project.json"]

def recoveryDirectory : String := "recovery"

def recoveryPath (revision savedUnixMs : U64) : Path :=
  [recoveryDirectory, "r" ++ toString revision.val ++ "-" ++ toString savedUnixMs.val ++ ".json"]

/-- The characters after the last dot of a name that does not begin with it. -/
def extension (leaf : String) : Option String :=
  let stem := (leaf.toList.reverse.dropWhile (· ≠ '.')).drop 1
  if stem = [] then none else some (String.ofList (leaf.toList.reverse.takeWhile (· ≠ '.')).reverse)

inductive CheckpointKind where
  | primary
  | autosave

structure RecoveryCheckpoint where
  manifestPath : Path
  savedUnixMs : U64
  baseProjectRevision : U64
  deriving DecidableEq

structure StoreDiagnostic where
  path : Path
  code : String
  error : ProjectStoreError

structure SaveResult where
  kind : CheckpointKind
  manifestPath : Path
  revision : U64
  payloadsPublished : Nat
  recoveryCheckpointsPruned : Nat
  maintenanceDiagnostics : List StoreDiagnostic

section Disk

variable {Carried : Type} [DecidableEq Carried] [CarriedChecks Carried]

/-- `write_immutable`: an existing file is confirmed, never replaced. -/
def writeImmutable (path : Path) (data : FileData Carried) : Io Carried Bool := do
  let files ← Program.read
  match files[path]? with
  | some existing => if existing = data then pure false else .ofExcept (.error (.immutablePayloadConflict path))
  | none => do
    Program.perform (.hardLink path data)
    pure true

def atomicReplace (path : Path) (data : FileData Carried) : Io Carried Unit := Program.perform (.rename path data)

def FileData.decode : FileData Carried → Except ProjectIoError (ProjectFile Carried)
  | .payload _ => .error (.invalid "not an envelope")
  | .envelope file => do
    file.validate
    .ok file

def readFile (files : Files Carried) (path : Path) : Except ProjectStoreError (ProjectFile Carried) :=
  match files[path]? with
  | some data => data.decode.mapError .envelope
  | none => .error (.io path)

def inRecoveryDirectory : Path → Bool
  | [directory, leaf] => directory = recoveryDirectory ∧ extension leaf = some "json"
  | _ => false

def recoveryCandidate (path : Path) (data : FileData Carried) : Option RecoveryCheckpoint :=
  if inRecoveryDirectory path then
    match data.decode with
    | .ok file => if file.recovery.isAutosave then some ⟨path, file.recovery.savedUnixMs, file.recovery.baseProjectRevision⟩ else none
    | .error _ => none
  else none

/-- Newest first. -/
def RecoveryCheckpoint.order (left right : RecoveryCheckpoint) : Ordering :=
  (compare right.baseProjectRevision left.baseProjectRevision).then
    ((compare right.savedUnixMs left.savedUnixMs).then (compare left.manifestPath right.manifestPath))

def RecoveryCheckpoint.notAfter (left right : RecoveryCheckpoint) : Prop := left.order right ≠ .gt

instance : DecidableRel RecoveryCheckpoint.notAfter := fun left right => inferInstanceAs (Decidable (left.order right ≠ .gt))

def discoverRecovery (files : Files Carried) : List RecoveryCheckpoint :=
  (files.toList.filterMap fun entry => recoveryCandidate entry.1 entry.2).insertionSort RecoveryCheckpoint.notAfter

def removeCheckpoints : List RecoveryCheckpoint → Io Carried (List Path)
  | [] => pure []
  | checkpoint :: rest => do
    let files ← Program.read
    if files.contains checkpoint.manifestPath then do
      Program.perform (.removeFile checkpoint.manifestPath)
      let removed ← removeCheckpoints rest
      pure (checkpoint.manifestPath :: removed)
    else removeCheckpoints rest

def rotateRecoveryCheckpoints (maxCheckpoints : Nat) : Io Carried (List Path) := do
  let files ← Program.read
  if maxCheckpoints = 0 then .ofExcept (.error (.invalidRecoveryRetention 0))
  else removeCheckpoints ((discoverRecovery files).drop maxCheckpoints)

def defaultMaxRecoveryCheckpoints : Nat := 8

def publishPayloads : List (Path × Bytes) → Nat → Io Carried Nat
  | [], published => pure published
  | (key, bytes) :: rest, published => do
    Program.ofExcept ((validatePayloadKey key).mapError .format)
    let fresh ← writeImmutable key (.payload bytes)
    publishPayloads rest (if fresh then published + 1 else published)

/-- How a checkpoint is kept: as the primary, or as an autosave of some time. -/
inductive SaveKind where
  | primary
  | autosave (savedUnixMs : U64)
  deriving DecidableEq

def SaveKind.checkpointKind : SaveKind → CheckpointKind
  | .primary => .primary
  | .autosave _ => .autosave

def SaveKind.manifestPath (revision : U64) : SaveKind → Path
  | .primary => ProjectStore.manifestPath
  | .autosave savedUnixMs => recoveryPath revision savedUnixMs

def SaveKind.recovery (package : ProjectPackage) (revision : U64) : SaveKind → RecoveryMetadata
  | .primary => .default
  | .autosave savedUnixMs => ⟨true, savedUnixMs, revision, package.rootFileName⟩

def publishManifest (kind : SaveKind) (path : Path) (file : ProjectFile Carried) : Io Carried Unit :=
  match kind with
  | .primary => atomicReplace path (.envelope file)
  | .autosave _ => do
    let _ ← writeImmutable path (.envelope file)
    pure ()

def maintain (kind : SaveKind) : Io Carried (Nat × List StoreDiagnostic) :=
  match kind with
  | .primary => pure (0, [])
  | .autosave _ => do
    let rotated ← (rotateRecoveryCheckpoints defaultMaxRecoveryCheckpoints).attempt
    match rotated with
    | .ok removed => pure (removed.length, [])
    | .error error => pure (0, [⟨[recoveryDirectory], "recovery-rotation-failed", error⟩])

def save (package : ProjectPackage) (checkpoint : ProjectCheckpoint Carried) (expectedRevision : U64) (kind : SaveKind) :
    Io Carried SaveResult := do
  Program.ofExcept (ensure (checkpoint.revision = expectedRevision) (.revisionMismatch expectedRevision checkpoint.revision))
  Program.ofExcept (checkpoint.validate.mapError .format)
  let rescoped ← Program.ofExcept (checkpoint.revisionScoped.mapError .format)
  let file := { rescoped.file with recovery := kind.recovery package expectedRevision }
  let published ← publishPayloads rescoped.payloads.toList 0
  Program.ofExcept (file.validate.mapError .envelope)
  publishManifest kind (kind.manifestPath expectedRevision) file
  let maintenance ← maintain kind
  pure ⟨kind.checkpointKind, kind.manifestPath expectedRevision, expectedRevision, published, maintenance.1, maintenance.2⟩

structure LoadedCheckpoint (Carried : Type) where
  checkpoint : ProjectCheckpoint Carried
  manifestPath : Path

def loadPayloads (files : Files Carried) : List DomainSectionRecord → DomainPayloads → Except ProjectStoreError DomainPayloads
  | [], payloads => .ok payloads
  | record :: rest, payloads => do
    (validatePayloadKey record.payloadKey).mapError .format
    match files[record.payloadKey]? with
    | some (.payload bytes) =>
      if payloads.contains record.payloadKey then .error (.duplicatePayload record.payloadKey)
      else loadPayloads files rest (payloads.insert record.payloadKey bytes)
    | some (.envelope _) => .error (.io record.payloadKey)
    | none => .error (.io record.payloadKey)

def loadManifest (files : Files Carried) (path : Path) : Except ProjectStoreError (LoadedCheckpoint Carried) := do
  let file ← readFile files path
  let payloads ← loadPayloads files file.sections ∅
  let checkpoint ← (ProjectCheckpoint.new file payloads).mapError .format
  .ok ⟨checkpoint, path⟩

def loadPrimary (files : Files Carried) : Except ProjectStoreError (LoadedCheckpoint Carried) := loadManifest files manifestPath

def safeLeafName (leaf : String) : Prop := leaf ≠ "" ∧ leaf ≠ ".." ∧ leaf ≠ "." ∧ '/' ∉ leaf.toList ∧ '\\' ∉ leaf.toList

instance (leaf : String) : Decidable (safeLeafName leaf) := inferInstanceAs (Decidable (_ ∧ _ ∧ _ ∧ _ ∧ _))

def isRecoveryPath (path : Path) : Prop := inRecoveryDirectory path = true ∧ safeLeafName (path.getLastD "")

instance (path : Path) : Decidable (isRecoveryPath path) := inferInstanceAs (Decidable (_ ∧ _))

def loadRecovery (files : Files Carried) (candidate : RecoveryCheckpoint) : Except ProjectStoreError (LoadedCheckpoint Carried) := do
  ensure (isRecoveryPath candidate.manifestPath) (.invalidRecoveryCheckpoint candidate.manifestPath)
  let loaded ← loadManifest files candidate.manifestPath
  let recovery := loaded.checkpoint.file.recovery
  ensure (recovery.isAutosave ∧ recovery.savedUnixMs = candidate.savedUnixMs ∧ recovery.baseProjectRevision = candidate.baseProjectRevision)
    (.recoveryCheckpointMismatch candidate.manifestPath candidate.savedUnixMs candidate.baseProjectRevision
      recovery.savedUnixMs recovery.baseProjectRevision recovery.isAutosave)
  .ok loaded

end Disk
end Audec.ProjectStore

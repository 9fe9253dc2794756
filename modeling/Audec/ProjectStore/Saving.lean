import Audec.ProjectStore.Rotation

/-! When a save succeeds, and what it leaves in the package. -/

open Machine Checked Interrupted Ranking Std.ExtTreeMap
open Std (ExtTreeMap)

namespace Audec.ProjectStore

open Interrupted.Program ProjectStoreError

section Steps

variable {Carried : Type} [DecidableEq Carried] [CarriedChecks Carried]

def SaveKind.Confirms (kind : SaveKind) (files : Files Carried) (path : Path) (file : ProjectFile Carried) : Prop :=
  kind = .primary ∨ Agrees files path (.envelope file)

variable {file : ProjectFile Carried} {files : Files Carried} {kind : SaveKind} {path : Path}

omit [CarriedChecks Carried] in
theorem publishManifest_ok :
    (publishManifest kind path file).result files = .ok () ↔ kind.Confirms files path file := by
  cases kind with
  | primary => simp [publishManifest, atomicReplace, SaveKind.Confirms]
  | autosave savedUnixMs =>
    unfold publishManifest SaveKind.Confirms
    rw [← writeImmutable_ok, Program.bind_ok]
    simp

omit [CarriedChecks Carried] in
theorem publishManifest_finished
    (confirms : kind.Confirms files path file) : (publishManifest kind path file).finished files = files.insert path (.envelope file) := by
  cases kind with
  | primary => rfl
  | autosave savedUnixMs =>
    have agrees : Agrees files path (.envelope file) := confirms.resolve_left (by simp)
    obtain ⟨fresh, done⟩ := writeImmutable_ok.mpr agrees
    unfold publishManifest
    rw [finished_bind_ok done, finished_pure, writeImmutable_finished agrees]

omit [DecidableEq Carried] in
theorem maintain_ok (kind : SaveKind) (files : Files Carried) : ∃ kept, (maintain kind).result files = .ok kept := by
  cases kind with
  | primary => exact ⟨_, rfl⟩
  | autosave savedUnixMs =>
    obtain ⟨removed, done⟩ := rotate_ok files
    unfold maintain
    rw [result_bind_ok (result_attempt _ _), done]
    exact ⟨_, rfl⟩

omit [DecidableEq Carried] in
theorem maintain_lookup (kind : SaveKind) (files : Files Carried) (path : Path) :
    ((maintain kind).finished files)[path]? = if kind ≠ .primary ∧ path ∈ rotatedPaths files then none else files[path]? := by
  cases kind with
  | primary =>
    rw [if_neg (by simp)]
    rfl
  | autosave savedUnixMs =>
    obtain ⟨removed, done⟩ := rotate_ok files
    unfold maintain
    rw [finished_bind_ok (result_attempt _ _), done, finished_attempt]
    simp only [finished_pure, rotate_lookup, ne_eq, reduceCtorEq, not_false_eq_true, true_and]

end Steps

section Save

variable {Carried : Type} [DecidableEq Carried] [CarriedChecks Carried] (package : ProjectPackage) (document : Document Carried) (kind : SaveKind)

def savedFile : ProjectFile Carried := { document.rescoped.file with recovery := kind.recovery package document.revision }

def SaveKind.Named : SaveKind → Prop
  | .primary => True
  | .autosave _ => package.rootFileName.getD "" ≠ ""

def withPayloads (files : Files Carried) : Files Carried := insertEntries (payloadFiles document.rescoped.payloads.toList) files

def withManifest (files : Files Carried) : Files Carried :=
  (withPayloads document files).insert (kind.manifestPath document.revision) (.envelope (savedFile package document kind))

omit [DecidableEq Carried] in
theorem savedFile_valid : (savedFile package document kind).Valid ↔ kind.Named package := by
  have held := document.rescoped_valid.file
  constructor
  · intro valid
    cases kind with
    | primary => trivial
    | autosave savedUnixMs =>
      have named := valid.recovery
      simpa [savedFile, SaveKind.recovery, SaveKind.Named] using named
  · intro named
    have recovery : ¬ ((kind.recovery package document.revision).isAutosave ∧ (kind.recovery package document.revision).primaryFileName.getD "" = "") := by
      cases kind with
      | primary => simp [SaveKind.recovery, RecoveryMetadata.default]
      | autosave savedUnixMs => simpa [SaveKind.recovery, SaveKind.Named] using named
    exact ⟨held.format, held.version, held.named, held.good, held.domains, held.carried, recovery⟩

variable {entry : Path × Bytes} {files : Files Carried}

omit [DecidableEq Carried] in
theorem mem_payloads : entry ∈ document.rescoped.payloads.toList ↔ entry ∈ document.entries := by
  rw [Entries.mem_toList]
  exact insertEntries_empty document.entries_distinct

omit [DecidableEq Carried] in
theorem payloads_distinct : (document.rescoped.payloads.toList.map Prod.fst).Nodup := by
  rw [map_fst_toList_eq_keys]
  exact nodup_keys

omit [DecidableEq Carried] in
theorem mem_entries :
    entry ∈ document.entries ↔ ∃ record ∈ document.sections, (scopedKey document.revision record.payloadKey, record.bytes document.checkpoint.payloads) = entry :=
  List.mem_map

omit [DecidableEq Carried] in
theorem entry_safe (inside : entry ∈ document.entries) : safeRelativePath entry.1 := by
  obtain ⟨record, held, rfl⟩ := (mem_entries document).mp inside
  exact scopedKey_safe document.revision (document.good held).safe

theorem publishing_ok :
    (∃ count, (publishPayloads document.rescoped.payloads.toList 0).result files = .ok count) ↔
      ∀ entry ∈ document.entries, Agrees files entry.1 (.payload entry.2) := by
  rw [publishPayloads_ok (fun _ inside => entry_safe document ((mem_payloads document).mp inside)) (payloads_distinct document)]
  constructor
  · intro all entry inside
    exact all entry ((mem_payloads document).mpr inside)
  · intro all entry inside
    exact all entry ((mem_payloads document).mp inside)

theorem publishing_finished (agrees : ∀ entry ∈ document.entries, Agrees files entry.1 (.payload entry.2)) :
    (publishPayloads document.rescoped.payloads.toList 0).finished files = withPayloads document files :=
  publishPayloads_finished (fun _ inside => entry_safe document ((mem_payloads document).mp inside)) (payloads_distinct document)
    (fun _ inside => agrees _ ((mem_payloads document).mp inside))

theorem save_eq : save package document.checkpoint document.revision kind = (do
    let published ← publishPayloads document.rescoped.payloads.toList 0
    ofExcept ((savedFile package document kind).validate.mapError .envelope)
    publishManifest kind (kind.manifestPath document.revision) (savedFile package document kind)
    let maintenance ← maintain kind
    pure ⟨kind.checkpointKind, kind.manifestPath document.revision, document.revision, published, maintenance.1, maintenance.2⟩) := by
  have same : ensure (document.checkpoint.revision = document.revision)
      (revisionMismatch document.revision document.checkpoint.revision) = .ok () := ensure_ok.mpr rfl
  have valid : document.checkpoint.validate.mapError format = .ok () := by
    rw [mapError_ok, ProjectCheckpoint.validate_ok]
    exact document.valid
  have renamed : document.checkpoint.revisionScoped.mapError format = .ok document.rescoped := by
    rw [mapError_ok]
    exact document.revisionScoped_ok
  unfold save
  rw [same, valid, renamed, ofExcept_ok_bind, ofExcept_ok_bind, ofExcept_ok_bind]
  rfl

theorem save_ok :
    (∃ saved, (save package document.checkpoint document.revision kind).result files = .ok saved) ↔
      (∀ entry ∈ document.entries, Agrees files entry.1 (.payload entry.2)) ∧ kind.Named package ∧
        kind.Confirms (withPayloads document files) (kind.manifestPath document.revision) (savedFile package document kind) := by
  rw [save_eq]
  simp only [Program.bind_ok, Program.finished_ofExcept, Program.result_ofExcept]
  constructor
  · intro ⟨saved, published, done, _, checked, _, placed, _⟩
    have agrees := (publishing_ok document).mp ⟨published, done⟩
    rw [publishing_finished document agrees] at placed
    rw [mapError_ok, ProjectFile.validate_ok, savedFile_valid] at checked
    exact ⟨agrees, checked, publishManifest_ok.mp placed⟩
  · intro ⟨agrees, named, confirms⟩
    obtain ⟨published, done⟩ := (publishing_ok document).mpr agrees
    have checked : (savedFile package document kind).validate.mapError envelope = .ok () := by
      rw [mapError_ok, ProjectFile.validate_ok, savedFile_valid]
      exact named
    have placed := publishManifest_ok.mpr confirms
    rw [← publishing_finished document agrees] at placed
    obtain ⟨kept, last⟩ := maintain_ok kind ((publishManifest kind (kind.manifestPath document.revision) (savedFile package document kind)).finished
      ((publishPayloads document.rescoped.payloads.toList 0).finished files))
    exact ⟨_, published, done, (), checked, (), placed, kept, last, rfl⟩

theorem save_finished (agrees : ∀ entry ∈ document.entries, Agrees files entry.1 (.payload entry.2)) (named : kind.Named package)
    (confirms : kind.Confirms (withPayloads document files) (kind.manifestPath document.revision) (savedFile package document kind)) :
    (save package document.checkpoint document.revision kind).finished files = (maintain kind).finished (withManifest package document kind files) := by
  obtain ⟨published, done⟩ := (publishing_ok document).mpr agrees
  have checked : (savedFile package document kind).validate.mapError envelope = .ok () := by
    rw [mapError_ok, ProjectFile.validate_ok, savedFile_valid]
    exact named
  have placed := publishManifest_ok.mpr confirms
  rw [save_eq, finished_bind_ok done, publishing_finished document agrees, checked, ofExcept_ok_bind, finished_bind_ok placed,
    publishManifest_finished confirms]
  obtain ⟨kept, last⟩ := maintain_ok kind ((withPayloads document files).insert (kind.manifestPath document.revision) (.envelope (savedFile package document kind)))
  rw [finished_bind_ok last, finished_pure]
  rfl

theorem save_reports {saved : SaveResult} (done : (save package document.checkpoint document.revision kind).result files = .ok saved) :
    saved.manifestPath = kind.manifestPath document.revision ∧ saved.revision = document.revision := by
  rw [save_eq] at done
  simp only [Program.bind_ok] at done
  obtain ⟨_, _, _, _, _, _, _, _, same⟩ := done
  cases same
  exact ⟨rfl, rfl⟩

end Save
end Audec.ProjectStore

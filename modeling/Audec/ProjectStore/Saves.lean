import Audec.ProjectStore.Loading

/-! A save of a document, and what it takes for it to succeed and load back. -/

open Machine Checked Interrupted Ranking List
open Std (ExtTreeMap)

namespace Audec.ProjectStore

open SaveKind

section Contents

variable {Carried : Type} [CarriedChecks Carried]

def ProjectCheckpoint.contents (checkpoint : ProjectCheckpoint Carried) : List (DomainSectionRecord × Option Bytes) :=
  checkpoint.file.sections.map fun record => ({ record with payloadKey := (fileName record.payloadKey).toList }, checkpoint.payloads[record.payloadKey]?)

def ProjectFile.remainder (file : ProjectFile Carried) : ProjectFile Carried := { file with sections := [], recovery := .default }

/-- Two checkpoints agree in everything but the directories of their payloads and what they say about recovery. -/
def SameContent (left right : ProjectCheckpoint Carried) : Prop :=
  left.contents.Perm right.contents ∧ left.file.remainder = right.file.remainder

theorem savedCheckpoint_content (package : ProjectPackage) (document : Document Carried) (kind : SaveKind) :
    SameContent (savedCheckpoint package document kind) document.checkpoint := by
  constructor
  · have shuffled := document.rescopedSections_perm.map fun record =>
      (({ record with payloadKey := (fileName record.payloadKey).toList } : DomainSectionRecord), document.rescoped.payloads[record.payloadKey]?)
    apply shuffled.trans
    rw [map_map]
    apply Perm.of_eq
    apply map_congr_left
    intro record inside
    have safe := (document.good inside).safe
    have there := document.valid.present record inside
    obtain ⟨bytes, found⟩ := Entries.held_of_mem (ExtTreeMap.contains_iff_mem.mp there)
    have written : document.rescoped.payloads[scopedKey document.revision record.payloadKey]? = some bytes := by
      apply (insertEntries_empty document.entries_distinct).mpr
      rw [mem_entries]
      exact ⟨record, inside, by simp [DomainSectionRecord.bytes, found]⟩
    show (({ record with payloadKey := (fileName (scopedKey document.revision record.payloadKey)).toList } : DomainSectionRecord),
      document.rescoped.payloads[scopedKey document.revision record.payloadKey]?) = _
    rw [fileName_scopedKey safe, written, found]
  · rfl

end Contents

section Saving

variable {Carried : Type} [DecidableEq Carried] [CarriedChecks Carried]

def SaveKind.load (kind : SaveKind) (files : Files Carried) (saved : SaveResult) : Except ProjectStoreError (LoadedCheckpoint Carried) :=
  match kind with
  | .primary => loadPrimary files
  | .autosave savedUnixMs => loadRecovery files ⟨saved.manifestPath, savedUnixMs, saved.revision⟩

def Saves (package : ProjectPackage) (files : Files Carried) (document : Document Carried) (kind : SaveKind) : Prop :=
  ∃ saved loaded, (save package document.checkpoint document.revision kind).result files = .ok saved ∧
    kind.load ((save package document.checkpoint document.revision kind).finished files) saved = .ok loaded ∧
    SameContent loaded.checkpoint document.checkpoint

/-- Nothing in the package stands in the way of an envelope: the primary is replaced, an autosave needs
    a package with a name, a free name of its own, and a place among the newest. -/
def SaveKind.Free (kind : SaveKind) (package : ProjectPackage) (files : Files Carried) (document : Document Carried) : Prop :=
  match kind with
  | .primary => True
  | .autosave savedUnixMs =>
    package.rootFileName.getD "" ≠ "" ∧
      Agrees files (recoveryPath document.revision savedUnixMs) (.envelope (savedFile package document (.autosave savedUnixMs))) ∧
      newer files ⟨recoveryPath document.revision savedUnixMs, savedUnixMs, document.revision⟩ < defaultMaxRecoveryCheckpoints

def Unclaimed (files : Files Carried) (document : Document Carried) : Prop :=
  ∀ record ∈ document.sections, Agrees files (scopedKey document.revision record.payloadKey) (.payload (record.bytes document.checkpoint.payloads))

omit [DecidableEq Carried] in
theorem unclaimed_iff {files : Files Carried} {document : Document Carried} :
    Unclaimed files document ↔ ∀ entry ∈ document.entries, Agrees files entry.1 (.payload entry.2) := by
  unfold Unclaimed
  constructor
  · intro all entry inside
    obtain ⟨record, held, rfl⟩ := (mem_entries document).mp inside
    exact all record held
  · intro all record held
    exact all _ ((mem_entries document).mpr ⟨record, held, rfl⟩)

omit [DecidableEq Carried] in
theorem SaveKind.free_split {kind : SaveKind} {package : ProjectPackage} {files : Files Carried} {document : Document Carried} :
    kind.Free package files document ↔
      (kind.Named package ∧ kind.Confirms (withPayloads document files) (kind.manifestPath document.revision) (savedFile package document kind)) ∧
        ∀ savedUnixMs, kind = .autosave savedUnixMs → newer files (autosaved document savedUnixMs) < defaultMaxRecoveryCheckpoints := by
  unfold SaveKind.Confirms Agrees
  rw [withPayloads_manifest]
  cases kind with
  | primary => simp [SaveKind.Free, SaveKind.Named]
  | autosave savedUnixMs =>
    simp only [SaveKind.Free, SaveKind.Named, manifestPath, reduceCtorEq, false_or, autosave.injEq, forall_eq', Agrees, autosaved, and_assoc]

variable {package : ProjectPackage} {files : Files Carried} {document : Document Carried} {kind : SaveKind}

variable {entry : Path × Bytes} {savedUnixMs : U64}

omit [DecidableEq Carried] in
theorem entry_written (inside : entry ∈ document.entries) :
    (entry.1, FileData.payload entry.2) ∈ (payloadFiles document.rescoped.payloads.toList : List (Path × FileData Carried)) :=
  mem_map.mpr ⟨entry, (mem_payloads document).mpr inside, rfl⟩

omit [DecidableEq Carried] in
theorem withManifest_payload (inside : entry ∈ document.entries) :
    (withManifest package document kind files)[entry.1]? = some (.payload entry.2) := by
  have distinct : ((payloadFiles document.rescoped.payloads.toList : List (Path × FileData Carried)).map Prod.fst).Nodup := by
    unfold payloadFiles
    rw [map_map]
    exact payloads_distinct document
  have placed := insertEntries_present distinct (entry_written inside) files
  have apart : kind.manifestPath document.revision ≠ entry.1 := by
    obtain ⟨record, held, rfl⟩ := (mem_entries document).mp inside
    obtain ⟨leaf, named⟩ := fileName_of_safe (document.good held).safe
    show kind.manifestPath document.revision ≠ scopedKey document.revision record.payloadKey
    rw [scopedKey_of_named document.revision named]
    cases kind <;> simp [revisionKey, SaveKind.manifestPath, manifestPath, recoveryPath]
  unfold withManifest
  rw [lookup_insert, if_neg apart]
  exact placed

omit [DecidableEq Carried] in
theorem payload_kept (inside : entry ∈ document.entries) :
    ((maintain kind).finished (withManifest package document kind files))[entry.1]? = some (.payload entry.2) := by
  rw [maintain_lookup, if_neg, withManifest_payload inside]
  intro ⟨_, rotated⟩
  have recovery := rotatedPaths_recovery rotated
  rw [payloadFiles_apart document _ (entry_written inside)] at recovery
  cases recovery

omit [DecidableEq Carried] in
theorem autosave_rotated (named : (autosave savedUnixMs).Named package)
    (agrees : Agrees files (recoveryPath document.revision savedUnixMs) (.envelope (savedFile package document (.autosave savedUnixMs)))) :
    recoveryPath document.revision savedUnixMs ∈ rotatedPaths (withManifest package document (.autosave savedUnixMs) files) ↔
      defaultMaxRecoveryCheckpoints ≤ newer files (autosaved document savedUnixMs) := by
  have published : (withManifest package document (.autosave savedUnixMs) files)[recoveryPath document.revision savedUnixMs]? =
      some (.envelope (savedFile package document (.autosave savedUnixMs))) := by
    unfold withManifest
    exact ExtTreeMap.getElem?_insert_self
  have candidate := autosaved_candidate package document named
  have inside : autosaved document savedUnixMs ∈ candidates (withManifest package document (.autosave savedUnixMs) files) :=
    mem_candidates.mpr ⟨_, published, candidate⟩
  have later : Agrees (withPayloads document files) (recoveryPath document.revision savedUnixMs)
      (.envelope (savedFile package document (.autosave savedUnixMs))) := by
    intro held found
    have same := withPayloads_manifest document (.autosave savedUnixMs) files
    rw [SaveKind.manifestPath] at same
    rw [same] at found
    exact agrees held found
  have count : newer (withManifest package document (.autosave savedUnixMs) files) (autosaved document savedUnixMs) =
      newer files (autosaved document savedUnixMs) :=
    (newer_insert_self package document named later).trans (newer_insertEntries (payloadFiles_apart document) files _)
  rw [← count, ← rotated_iff inside]
  constructor
  · intro rotated
    obtain ⟨other, dropped, path⟩ := mem_map.mp rotated
    have found := (discoverRecovery_perm _).mem_iff.mp (mem_of_mem_drop dropped)
    obtain ⟨data, held, again⟩ := mem_candidates.mp found
    rw [path, published, Option.some.injEq] at held
    rw [path, ← held, candidate, Option.some.injEq] at again
    rw [again]
    exact dropped
  · intro dropped
    exact mem_map.mpr ⟨_, dropped, rfl⟩

omit [DecidableEq Carried] in
theorem confirmed_autosave
    (confirms : (autosave savedUnixMs).Confirms (withPayloads document files) ((autosave savedUnixMs).manifestPath document.revision)
      (savedFile package document (.autosave savedUnixMs))) :
    Agrees files (recoveryPath document.revision savedUnixMs) (.envelope (savedFile package document (.autosave savedUnixMs))) := by
  have held := confirms.resolve_left (by simp)
  unfold Agrees at held
  rw [withPayloads_manifest] at held
  exact held

omit [DecidableEq Carried] in
theorem primary_loads :
    loadPrimary ((maintain .primary).finished (withManifest package document .primary files)) =
      .ok ⟨savedCheckpoint package document .primary, manifestPath⟩ := by
  apply loadManifest_ok package document .primary trivial
  · show (withManifest package document .primary files)[manifestPath]? = _
    exact ExtTreeMap.getElem?_insert_self
  · intro entry inside
    exact payload_kept inside

omit [DecidableEq Carried] in
theorem autosave_loads (named : (autosave savedUnixMs).Named package)
    (kept : recoveryPath document.revision savedUnixMs ∉ rotatedPaths (withManifest package document (.autosave savedUnixMs) files)) :
    loadRecovery ((maintain (.autosave savedUnixMs)).finished (withManifest package document (.autosave savedUnixMs) files)) (autosaved document savedUnixMs) =
      .ok ⟨savedCheckpoint package document (.autosave savedUnixMs), recoveryPath document.revision savedUnixMs⟩ := by
  have manifest : ((maintain (.autosave savedUnixMs)).finished (withManifest package document (.autosave savedUnixMs) files))[recoveryPath document.revision savedUnixMs]? =
      some (.envelope (savedFile package document (.autosave savedUnixMs))) := by
    rw [maintain_lookup, if_neg fun rotated => kept rotated.2]
    exact ExtTreeMap.getElem?_insert_self
  have loaded := loadManifest_ok package document (.autosave savedUnixMs) named manifest (fun entry inside => payload_kept inside)
  unfold loadRecovery
  show (ensure (isRecoveryPath (recoveryPath document.revision savedUnixMs)) _ >>= fun _ =>
    loadManifest _ (recoveryPath document.revision savedUnixMs) >>= _) = _
  rw [ensure_ok.mpr (recoveryPath_recovery _ _), loaded]
  show (ensure (true = true ∧ savedUnixMs = savedUnixMs ∧ document.revision = document.revision) _ >>= _) = _
  rw [ensure_ok.mpr ⟨rfl, rfl, rfl⟩]
  rfl

omit [DecidableEq Carried] in
theorem autosave_lost {loaded : LoadedCheckpoint Carried}
    (rotated : recoveryPath document.revision savedUnixMs ∈ rotatedPaths (withManifest package document (.autosave savedUnixMs) files)) :
    loadRecovery ((maintain (.autosave savedUnixMs)).finished (withManifest package document (.autosave savedUnixMs) files)) (autosaved document savedUnixMs) ≠
      .ok loaded := by
  have gone : ((maintain (.autosave savedUnixMs)).finished (withManifest package document (.autosave savedUnixMs) files))[recoveryPath document.revision savedUnixMs]? =
      none := by
    rw [maintain_lookup, if_pos ⟨by simp, rotated⟩]
  intro found
  unfold loadRecovery loadManifest readFile at found
  simp only [bind_ok] at found
  obtain ⟨_, _, _, ⟨_, opened, _⟩, _⟩ := found
  rw [show (autosaved document savedUnixMs).manifestPath = recoveryPath document.revision savedUnixMs from rfl, gone] at opened
  cases opened

theorem saves_iff_free : Saves package files document kind ↔ Unclaimed files document ∧ kind.Free package files document := by
  rw [unclaimed_iff, free_split]
  constructor
  · intro ⟨saved, loaded, done, found, _⟩
    obtain ⟨agrees, named, confirms⟩ := (save_ok package document kind).mp ⟨saved, done⟩
    refine ⟨agrees, ⟨named, confirms⟩, ?_⟩
    intro savedUnixMs same
    subst same
    rw [save_finished package document _ agrees named confirms] at found
    obtain ⟨path, revision⟩ := save_reports package document _ done
    have lost : recoveryPath document.revision savedUnixMs ∉ rotatedPaths (withManifest package document (.autosave savedUnixMs) files) := by
      intro rotated
      apply autosave_lost rotated
      have again : load (.autosave savedUnixMs) _ saved = .ok loaded := found
      unfold load at again
      rw [path, revision] at again
      exact again
    have free := confirmed_autosave confirms
    rw [autosave_rotated named free] at lost
    omega
  · intro ⟨agrees, ⟨named, confirms⟩, few⟩
    obtain ⟨saved, done⟩ := (save_ok package document kind).mpr ⟨agrees, named, confirms⟩
    obtain ⟨path, revision⟩ := save_reports package document _ done
    refine ⟨saved, ⟨savedCheckpoint package document kind, kind.manifestPath document.revision⟩, done, ?_, savedCheckpoint_content package document kind⟩
    rw [save_finished package document _ agrees named confirms]
    cases kind with
    | primary => exact primary_loads
    | autosave savedUnixMs =>
      have free := confirmed_autosave confirms
      have kept : recoveryPath document.revision savedUnixMs ∉ rotatedPaths (withManifest package document (.autosave savedUnixMs) files) := by
        rw [autosave_rotated named free]
        have bound := few savedUnixMs rfl
        omega
      unfold load
      rw [path, revision]
      exact autosave_loads named kept

end Saving
end Audec.ProjectStore

/-! What the file operations of a save may do to a package. -/

open Machine Checked Interrupted

namespace Audec.ProjectStore

section Discipline

variable {Carried : Type}

def Effect.Allowed (files : Files Carried) : Effect Carried → Prop
  | .hardLink path _ => files[path]? = none
  | .rename path _ => path = manifestPath
  | .removeFile path => inRecoveryDirectory path = true

theorem payload_iff_linked {made : List (Effect Carried)} {files : Files Carried} (along : Along Effect.Allowed made files) {path : Path}
    (payload : path ≠ manifestPath ∧ inRecoveryDirectory path = false) {data : FileData Carried} :
    (made.foldl Effect.apply files)[path]? = some data ↔ files[path]? = some data ∨ .hardLink path data ∈ made := by
  induction made generalizing files with
  | nil => simp
  | cons effect made ih =>
    have allowed : effect.Allowed files := along.1
    have later : Along Effect.Allowed made (Effect.apply files effect) := along.2
    rw [foldl_cons, ih later, mem_cons]
    cases effect with
    | hardLink target written =>
      have absent : files[target]? = none := allowed
      show (files.insert target written)[path]? = some data ∨ _ ↔ _
      rw [lookup_insert]
      by_cases same : target = path
      · subst same
        rw [if_pos rfl, absent]
        simp [eq_comm]
      · rw [if_neg same]
        simp [Ne.symm same]
    | rename target written =>
      have primary : target = manifestPath := allowed
      have apart : target ≠ path := fun same => payload.1 (same.symm.trans primary)
      show (files.insert target written)[path]? = some data ∨ _ ↔ _
      rw [lookup_insert, if_neg apart]
      simp
    | removeFile target =>
      have recovery : inRecoveryDirectory target = true := allowed
      have apart : target ≠ path := by
        intro same
        rw [same, payload.2] at recovery
        cases recovery
      show (files.erase target)[path]? = some data ∨ _ ↔ _
      rw [Entries.lookup_erase, if_neg apart]
      simp

end Discipline

section Save

variable {Carried : Type} [DecidableEq Carried] [CarriedChecks Carried]

omit [CarriedChecks Carried] in
theorem writeImmutable_along (path : Path) (data : FileData Carried) (files : Files Carried) :
    Along Effect.Allowed ((writeImmutable path data).effects files) files := by
  unfold writeImmutable
  rw [Program.effects_read]
  cases held : files[path]? with
  | none => exact ⟨held, trivial⟩
  | some existing =>
    by_cases same : existing = data
    · simp [same, Along]
    · simp [same, Along]

omit [CarriedChecks Carried] in
theorem publishPayloads_along (entries : List (Path × Bytes)) (published : Nat) (files : Files Carried) :
    Along Effect.Allowed ((publishPayloads entries published).effects files) files := by
  induction entries generalizing files published with
  | nil => trivial
  | cons entry rest ih =>
    apply along_bind
    · trivial
    · intro _ _
      apply along_bind (writeImmutable_along _ _ _)
      intro fresh _
      exact ih _ _

omit [CarriedChecks Carried] in
theorem publishManifest_along (kind : SaveKind) (revision : U64) (file : ProjectFile Carried) (files : Files Carried) :
    Along Effect.Allowed ((publishManifest kind (kind.manifestPath revision) file).effects files) files := by
  cases kind with
  | primary => exact ⟨rfl, trivial⟩
  | autosave savedUnixMs =>
    apply along_bind (writeImmutable_along _ _ _)
    intro _ _
    trivial

omit [DecidableEq Carried] [CarriedChecks Carried] in
theorem removeCheckpoints_along {checkpoints : List RecoveryCheckpoint} (recovery : ∀ checkpoint ∈ checkpoints, inRecoveryDirectory checkpoint.manifestPath = true)
    (files : Files Carried) : Along Effect.Allowed ((removeCheckpoints checkpoints).effects files) files := by
  induction checkpoints generalizing files with
  | nil => trivial
  | cons checkpoint rest ih =>
    have tail := ih fun other inside => recovery other (mem_cons_of_mem _ inside)
    unfold removeCheckpoints
    rw [Program.effects_read]
    split
    · apply along_bind
      · exact ⟨recovery checkpoint mem_cons_self, trivial⟩
      · intro _ _
        apply along_bind (tail _)
        intro _ _
        trivial
    · exact tail files

omit [DecidableEq Carried] in
theorem maintain_along (kind : SaveKind) (files : Files Carried) : Along Effect.Allowed ((maintain kind).effects files) files := by
  cases kind with
  | primary => trivial
  | autosave savedUnixMs =>
    have recovery : ∀ checkpoint ∈ (discoverRecovery files).drop defaultMaxRecoveryCheckpoints, inRecoveryDirectory checkpoint.manifestPath = true := by
      intro checkpoint dropped
      exact rotatedPaths_recovery (mem_map_of_mem dropped)
    apply along_bind
    · exact removeCheckpoints_along recovery files
    · intro outcome _
      cases outcome <;> trivial

theorem save_along (package : ProjectPackage) (document : Document Carried) (kind : SaveKind) (files : Files Carried) :
    Along Effect.Allowed ((save package document.checkpoint document.revision kind).effects files) files := by
  rw [save_eq]
  apply along_bind (publishPayloads_along _ _ _)
  intro published _
  apply along_bind
  · trivial
  · intro _ _
    apply along_bind (publishManifest_along kind document.revision _ _)
    intro _ _
    apply along_bind (maintain_along kind _)
    intro _ _
    trivial

end Save
end Audec.ProjectStore

import Audec.ProjectStore.Saving

/-! What is loaded from a package after a save. -/

open Machine Checked Interrupted Ranking List Entries
open Std (ExtTreeMap)

namespace Audec.ProjectStore

open ProjectCheckpoint

section Names

theorem revisionKey_not_recovery (revision : U64) (leaf : String) : inRecoveryDirectory (revisionKey revision leaf) = false := rfl

theorem extension_json (stem : String) (nonempty : stem.toList ≠ []) : extension (stem ++ ".json") = some "json" := by
  have letters : (stem ++ ".json").toList.reverse = 'n' :: 'o' :: 's' :: 'j' :: '.' :: stem.toList.reverse := by
    rw [String.toList_append, reverse_append]
    rfl
  unfold extension
  rw [letters]
  simp [nonempty]

def recoveryLeaf (revision savedUnixMs : U64) : String := "r" ++ toString revision.val ++ "-" ++ toString savedUnixMs.val ++ ".json"

theorem recoveryLeaf_letters (revision savedUnixMs : U64) :
    (recoveryLeaf revision savedUnixMs).toList =
      'r' :: ((toString revision.val).toList ++ '-' :: ((toString savedUnixMs.val).toList ++ ['.', 'j', 's', 'o', 'n'])) := by
  unfold recoveryLeaf
  rw [String.toList_append, String.toList_append, String.toList_append, String.toList_append]
  simp

variable {c : Char} {revision savedUnixMs : U64}

theorem not_digit_mem_toString (value : Nat) (other : c.isDigit = false) : c ∉ (toString value).toList := by
  have same : (toString value).toList = Nat.toDigits 10 value := Nat.toList_repr
  intro inside
  rw [same] at inside
  rw [Nat.isDigit_of_mem_toDigits (by decide) (by decide) inside] at other
  cases other

theorem not_mem_recoveryLeaf (other : c.isDigit = false) (apart : c ∉ ['r', '-', '.', 'j', 's', 'o', 'n']) :
    c ∉ (recoveryLeaf revision savedUnixMs).toList := by
  rw [recoveryLeaf_letters, mem_cons, mem_append, mem_cons, mem_append]
  have first := not_digit_mem_toString revision.val other
  have second := not_digit_mem_toString savedUnixMs.val other
  simp only [mem_cons, not_or] at apart ⊢
  tauto

theorem recoveryLeaf_ne {other : String} (first : other.toList.head? ≠ some 'r') : recoveryLeaf revision savedUnixMs ≠ other := by
  intro same
  apply first
  rw [← same, recoveryLeaf_letters]
  rfl

theorem recoveryPath_recovery (revision savedUnixMs : U64) : isRecoveryPath (recoveryPath revision savedUnixMs) := by
  have text : ("r" ++ toString revision.val ++ "-" ++ toString savedUnixMs.val).toList ≠ [] := by
    rw [String.toList_append, String.toList_append, String.toList_append]
    simp
  have named : extension (recoveryLeaf revision savedUnixMs) = some "json" := extension_json _ text
  constructor
  · show decide (recoveryDirectory = recoveryDirectory ∧ extension (recoveryLeaf revision savedUnixMs) = some "json") = true
    rw [named]
    rfl
  · exact ⟨recoveryLeaf_ne (by decide), recoveryLeaf_ne (by decide), recoveryLeaf_ne (by decide), not_mem_recoveryLeaf (by decide) (by decide),
      not_mem_recoveryLeaf (by decide) (by decide)⟩

end Names

section Kept

variable {Carried : Type} [DecidableEq Carried] [CarriedChecks Carried] (package : ProjectPackage) (document : Document Carried)

def listedBefore (checkpoint : RecoveryCheckpoint) (path : Path) (data : FileData Carried) : Bool :=
  (recoveryCandidate path data).any fun other => decide (RecoveryCheckpoint.Before other checkpoint)

omit [DecidableEq Carried] in
theorem newer_eq_count (files : Files Carried) (checkpoint : RecoveryCheckpoint) : newer files checkpoint = Entries.count (listedBefore checkpoint) files := by
  unfold newer rank candidates Entries.count
  rw [countP_filterMap]
  apply countP_congr
  intro entry _
  unfold listedBefore
  cases recoveryCandidate entry.1 entry.2 <;> simp

variable {files : Files Carried} {savedUnixMs : U64}

omit [DecidableEq Carried] in
theorem newer_insert_payload {path : Path} (apart : inRecoveryDirectory path = false) (data : FileData Carried)
    (checkpoint : RecoveryCheckpoint) : newer (files.insert path data) checkpoint = newer files checkpoint := by
  have ignored : ∀ data : FileData Carried, listedBefore checkpoint path data = false := by
    intro data
    simp [listedBefore, recoveryCandidate, apart]
  rw [newer_eq_count, newer_eq_count, Entries.count_insert, ignored]
  cases held : files[path]? with
  | none => rw [erase_absent held]; simp
  | some old => rw [count_held _ held, ignored]

omit [DecidableEq Carried] in
theorem newer_insertEntries {entries : List (Path × FileData Carried)} (apart : ∀ entry ∈ entries, inRecoveryDirectory entry.1 = false) (files : Files Carried)
    (checkpoint : RecoveryCheckpoint) : newer (insertEntries entries files) checkpoint = newer files checkpoint := by
  induction entries generalizing files with
  | nil => rfl
  | cons entry rest ih =>
    have tail := ih (fun other inside => apart other (mem_cons_of_mem _ inside)) (files.insert entry.1 entry.2)
    rw [newer_insert_payload (apart entry mem_cons_self)] at tail
    exact tail

omit [DecidableEq Carried] in
theorem decode_ok {file : ProjectFile Carried} (valid : file.Valid) : (FileData.envelope file).decode = .ok file := by
  show (file.validate >>= fun _ => Except.ok file) = .ok file
  rw [ProjectFile.validate_ok.mpr valid]
  rfl

def autosaved (savedUnixMs : U64) : RecoveryCheckpoint := ⟨recoveryPath document.revision savedUnixMs, savedUnixMs, document.revision⟩

omit [DecidableEq Carried] in
theorem autosaved_candidate (named : (SaveKind.autosave savedUnixMs).Named package) :
    recoveryCandidate (recoveryPath document.revision savedUnixMs) (.envelope (savedFile package document (.autosave savedUnixMs))) =
      some (autosaved document savedUnixMs) := by
  have decoded : (FileData.envelope (savedFile package document (.autosave savedUnixMs))).decode = .ok (savedFile package document (.autosave savedUnixMs)) :=
    decode_ok ((savedFile_valid package document (.autosave savedUnixMs)).mpr named)
  unfold recoveryCandidate
  rw [if_pos (recoveryPath_recovery _ _).1, decoded]
  rfl

omit [DecidableEq Carried] in
theorem newer_insert_self (named : (SaveKind.autosave savedUnixMs).Named package)
    (agrees : Agrees files (recoveryPath document.revision savedUnixMs) (.envelope (savedFile package document (.autosave savedUnixMs)))) :
    newer (files.insert (recoveryPath document.revision savedUnixMs) (.envelope (savedFile package document (.autosave savedUnixMs))))
      (autosaved document savedUnixMs) = newer files (autosaved document savedUnixMs) := by
  have alone : listedBefore (autosaved document savedUnixMs) (recoveryPath document.revision savedUnixMs)
      (.envelope (savedFile package document (.autosave savedUnixMs))) = false := by
    unfold listedBefore
    rw [autosaved_candidate package document named]
    simp [RecoveryCheckpoint.not_before_self]
  rw [newer_eq_count, newer_eq_count]
  cases held : files[recoveryPath document.revision savedUnixMs]? with
  | none =>
    rw [count_insert_new _ _ held, alone]
    simp
  | some old =>
    have same := agrees old held
    apply Entries.count_replace _ held
    rw [same]

omit [DecidableEq Carried] in
theorem payloadFiles_apart : ∀ entry ∈ (payloadFiles document.rescoped.payloads.toList : List (Path × FileData Carried)), inRecoveryDirectory entry.1 = false := by
  intro entry inside
  obtain ⟨written, there, rfl⟩ := mem_map.mp inside
  obtain ⟨record, held, rfl⟩ := (mem_entries document).mp ((mem_payloads document).mp there)
  obtain ⟨leaf, named⟩ := fileName_of_safe (document.good held).safe
  show inRecoveryDirectory (scopedKey document.revision record.payloadKey) = false
  rw [scopedKey_of_named document.revision named]
  exact revisionKey_not_recovery _ _

omit [DecidableEq Carried] in
theorem withPayloads_manifest (kind : SaveKind) (files : Files Carried) :
    (withPayloads document files)[kind.manifestPath document.revision]? = files[kind.manifestPath document.revision]? := by
  apply insertEntries_absent
  intro inside
  obtain ⟨entry, there, same⟩ := mem_map.mp inside
  obtain ⟨written, found, rfl⟩ := mem_map.mp there
  obtain ⟨record, held, rfl⟩ := (mem_entries document).mp ((mem_payloads document).mp found)
  obtain ⟨leaf, named⟩ := fileName_of_safe (document.good held).safe
  rw [show (scopedKey document.revision record.payloadKey) = _ from scopedKey_of_named document.revision named] at same
  cases kind <;> simp [revisionKey, SaveKind.manifestPath, manifestPath, recoveryPath] at same

end Kept

section Load

variable {Carried : Type} [DecidableEq Carried] [CarriedChecks Carried]

variable {files : Files Carried} {checkpoint : ProjectCheckpoint Carried}

omit [DecidableEq Carried] [CarriedChecks Carried] in
theorem loadPayloads_ok {payloads : DomainPayloads} {records : List DomainSectionRecord}
    (safe : ∀ record ∈ records, safeRelativePath record.payloadKey) (distinct : (records.map DomainSectionRecord.payloadKey).Nodup)
    (held : ∀ record ∈ records, files[record.payloadKey]? = some (.payload (record.bytes payloads))) {collected : DomainPayloads}
    (fresh : ∀ record ∈ records, collected.contains record.payloadKey = false) :
    loadPayloads files records collected = .ok (insertEntries (records.map fun record => (record.payloadKey, record.bytes payloads)) collected) := by
  induction records generalizing collected with
  | nil => rfl
  | cons record rest ih =>
    rw [map_cons, nodup_cons] at distinct
    have allowed : (validatePayloadKey record.payloadKey).mapError ProjectStoreError.format = .ok () := by
      rw [mapError_ok, validatePayloadKey_ok]
      exact safe record mem_cons_self
    have later : ∀ other ∈ rest, (collected.insert record.payloadKey (record.bytes payloads)).contains other.payloadKey = false := by
      intro other inside
      rw [ExtTreeMap.contains_insert, fresh other (mem_cons_of_mem _ inside), Bool.or_false, beq_eq_false_iff_ne]
      intro same
      rw [Std.LawfulEqCmp.compare_eq_iff_eq] at same
      exact distinct.1 (mem_map.mpr ⟨other, inside, same.symm⟩)
    have tail := ih (fun other inside => safe other (mem_cons_of_mem _ inside)) distinct.2
      (fun other inside => held other (mem_cons_of_mem _ inside)) later
    unfold loadPayloads
    rw [allowed, held record mem_cons_self]
    simp only [fresh record mem_cons_self, Bool.false_eq_true, if_false, bind, Except.bind]
    exact tail

omit [DecidableEq Carried] in
theorem ProjectCheckpoint.Valid.payloads_eq (valid : checkpoint.Valid) :
    insertEntries (checkpoint.file.sections.map fun record => (record.payloadKey, record.bytes checkpoint.payloads)) ∅ = checkpoint.payloads := by
  have distinct : ((checkpoint.file.sections.map fun record => (record.payloadKey, record.bytes checkpoint.payloads)).map Prod.fst).Nodup := by
    rw [map_map]
    exact valid.keys
  apply ExtTreeMap.ext_getElem?
  intro key
  ext bytes
  rw [insertEntries_empty distinct, mem_map]
  constructor
  · intro ⟨record, inside, same⟩
    cases same
    have there := valid.present record inside
    obtain ⟨bytes, found⟩ := held_of_mem (ExtTreeMap.contains_iff_mem.mp there)
    simp [DomainSectionRecord.bytes, found]
  · intro found
    have inside : key ∈ checkpoint.payloads.keys := by
      rw [ExtTreeMap.mem_keys, ExtTreeMap.mem_iff_isSome_getElem?, found]
      rfl
    obtain ⟨record, there, rfl⟩ := mem_map.mp (valid.referenced key inside)
    exact ⟨record, there, by simp [DomainSectionRecord.bytes, found]⟩

instance : Std.Total ProjectCheckpoint.byDomain := ⟨fun left right => le_total left.domain right.domain⟩

instance : IsTrans DomainSectionRecord ProjectCheckpoint.byDomain := ⟨fun _ _ _ first second => le_trans first second⟩

omit [DecidableEq Carried] in
theorem ProjectCheckpoint.new_ok (valid : checkpoint.Valid)
    (ordered : checkpoint.file.sections.Pairwise byDomain) :
    new checkpoint.file checkpoint.payloads = .ok checkpoint := by
  unfold new
  rw [ordered.insertionSort_eq]
  show (checkpoint.validate >>= fun _ => Except.ok checkpoint) = .ok checkpoint
  rw [validate_ok.mpr valid]
  rfl

variable (package : ProjectPackage) (document : Document Carried) (kind : SaveKind)

def savedCheckpoint : ProjectCheckpoint Carried := ⟨savedFile package document kind, document.rescoped.payloads⟩

omit [DecidableEq Carried] in
theorem savedCheckpoint_valid (named : kind.Named package) : (savedCheckpoint package document kind).Valid := by
  have held := document.rescoped_valid
  exact ⟨(savedFile_valid package document kind).mpr named, held.keys, held.present, held.referenced⟩

omit [DecidableEq Carried] in
theorem entry_of_section {record : DomainSectionRecord} (inside : record ∈ document.rescopedSections) :
    (record.payloadKey, record.bytes document.rescoped.payloads) ∈ document.entries := by
  have there := document.rescoped_valid.present record inside
  obtain ⟨bytes, found⟩ := held_of_mem (ExtTreeMap.contains_iff_mem.mp there)
  have present := (insertEntries_empty document.entries_distinct).mp found
  simpa [DomainSectionRecord.bytes, found] using present

omit [DecidableEq Carried] in
theorem loadManifest_ok {path : Path} (named : kind.Named package)
    (manifest : files[path]? = some (.envelope (savedFile package document kind)))
    (payloads : ∀ entry ∈ document.entries, files[entry.1]? = some (.payload entry.2)) :
    loadManifest files path = .ok ⟨savedCheckpoint package document kind, path⟩ := by
  have decoded := decode_ok ((savedFile_valid package document kind).mpr named)
  have file : readFile files path = .ok (savedFile package document kind) := by
    unfold readFile
    rw [manifest]
    show (FileData.envelope (savedFile package document kind)).decode.mapError ProjectStoreError.envelope = _
    rw [decoded]
    rfl
  have read : loadPayloads files document.rescopedSections ∅ = .ok document.rescoped.payloads := by
    have valid := document.rescoped_valid
    have loaded : loadPayloads files document.rescopedSections ∅ =
        .ok (insertEntries (document.rescopedSections.map fun record => (record.payloadKey, record.bytes document.rescoped.payloads)) ∅) :=
      loadPayloads_ok (fun record inside => (valid.file.good record inside).safe) valid.keys
      (fun record inside => payloads _ (entry_of_section document inside)) (fun record _ => ExtTreeMap.contains_empty)
    rw [loaded]
    exact congrArg Except.ok valid.payloads_eq
  unfold loadManifest
  rw [file]
  show (loadPayloads files document.rescopedSections ∅ >>= _) = _
  rw [read]
  have ordered : document.rescopedSections.Pairwise byDomain := pairwise_insertionSort _ _
  have made := new_ok (savedCheckpoint_valid package document kind named) ordered
  show ((new (savedCheckpoint package document kind).file (savedCheckpoint package document kind).payloads).mapError
    ProjectStoreError.format >>= _) = _
  rw [made]
  rfl

end Load
end Audec.ProjectStore

import Audec.ProjectStore.Model
import Audec.Lib.SortedSlice

/-! What a checkpoint that passes its checks is made of, and its form under revision-scoped names. -/

open Machine Checked Interrupted List
open Std (ExtTreeMap)

namespace Audec.ProjectStore

open DomainSectionRecord ProjectCheckpoint

@[simp] theorem mapError_ok {ε δ α : Type} {checked : Except ε α} {wrap : ε → δ} {value : α} :
    checked.mapError wrap = .ok value ↔ checked = .ok value := by
  cases checked <;> simp [Except.mapError]

variable {key : Path} {records : List DomainSectionRecord} {leaf : String}

@[simp] theorem validatePayloadKey_ok : validatePayloadKey key = .ok () ↔ safeRelativePath key := ensure_ok

def DomainSectionRecord.Good (record : DomainSectionRecord) : Prop :=
  ¬ (Unicode.isBlank record.domain ∨ record.schemaVersion = 0 ∨ Unicode.isBlank record.encoding ∨ ¬ safeRelativePath record.payloadKey)

variable {domains : List String} {keys : List Path} {payloads : DomainPayloads}

theorem validateDomains_ok :
    validateDomains records domains = .ok () ↔
      (∀ record ∈ records, record.Good ∧ record.domain ∉ domains) ∧ (records.map domain).Nodup := by
  induction records generalizing domains with
  | nil => simp [validateDomains]
  | cons record rest ih =>
    simp only [validateDomains, bind_unit_ok, ensure_ok, ih, mem_cons, not_or, forall_eq_or_imp, map_cons, nodup_cons,
      mem_map, not_exists, not_and]
    unfold DomainSectionRecord.Good
    grind

theorem validateSections_ok :
    validateSections payloads records domains keys = .ok () ↔
      (∀ record ∈ records, record.domain ∉ domains ∧ safeRelativePath record.payloadKey ∧ record.payloadKey ∉ keys ∧
        payloads.contains record.payloadKey = true) ∧
      (records.map domain).Nodup ∧ (records.map payloadKey).Nodup := by
  induction records generalizing domains keys with
  | nil => simp [validateSections]
  | cons record rest ih =>
    simp only [validateSections, bind_unit_ok, ensure_ok, validatePayloadKey_ok, ih, mem_cons, not_or, forall_eq_or_imp, map_cons,
      nodup_cons, mem_map, not_exists, not_and]
    grind

theorem validatePayloads_ok {found : List Path} :
    validatePayloads keys found = .ok () ↔ ∀ key ∈ found, safeRelativePath key ∧ key ∈ keys := by
  induction found with
  | nil => simp [validatePayloads]
  | cons key rest ih =>
    simp only [validatePayloads, bind_unit_ok, ensure_ok, validatePayloadKey_ok, ih, mem_cons, forall_eq_or_imp]
    tauto

section Validity

variable {Carried : Type} [CarriedChecks Carried]

/-- What `ProjectFile::validate` accepts. -/
structure ProjectFile.Valid (file : ProjectFile Carried) : Prop where
  format : file.format = projectFileFormat
  version : file.version = projectFileVersion
  named : ¬ Unicode.isBlank file.projectName
  good : ∀ record ∈ file.sections, record.Good
  domains : (file.sections.map DomainSectionRecord.domain).Nodup
  carried : CarriedChecks.check file.carried = .ok ()
  recovery : ¬ (file.recovery.isAutosave ∧ file.recovery.primaryFileName.getD "" = "")

theorem ProjectFile.validate_ok {file : ProjectFile Carried} : file.validate = .ok () ↔ file.Valid := by
  unfold ProjectFile.validate
  simp only [bind_unit_ok, ensure_ok, validateDomains_ok, not_mem_nil, not_false_eq_true, and_true]
  constructor
  · intro accepted
    obtain ⟨format, version, named, ⟨good, domains⟩, carried, recovery⟩ := accepted
    exact ⟨format, version, named, good, domains, carried, recovery⟩
  · intro valid
    exact ⟨valid.format, valid.version, valid.named, ⟨valid.good, valid.domains⟩, valid.carried, valid.recovery⟩

/-- What `ProjectCheckpoint::validate` accepts. -/
structure ProjectCheckpoint.Valid (checkpoint : ProjectCheckpoint Carried) : Prop where
  file : checkpoint.file.Valid
  keys : (checkpoint.file.sections.map DomainSectionRecord.payloadKey).Nodup
  present : ∀ record ∈ checkpoint.file.sections, checkpoint.payloads.contains record.payloadKey = true
  referenced : ∀ key ∈ checkpoint.payloads.keys, key ∈ checkpoint.file.sections.map DomainSectionRecord.payloadKey

theorem DomainSectionRecord.Good.safe {record : DomainSectionRecord} (good : record.Good) : safeRelativePath record.payloadKey := by
  unfold DomainSectionRecord.Good at good
  tauto

theorem ProjectCheckpoint.validate_ok {checkpoint : ProjectCheckpoint Carried} : checkpoint.validate = .ok () ↔ checkpoint.Valid := by
  unfold validate
  simp only [bind_unit_ok, mapError_ok, ProjectFile.validate_ok, validateSections_ok, validatePayloads_ok, not_mem_nil, not_false_eq_true,
    true_and]
  constructor
  · intro accepted
    obtain ⟨file, ⟨each, _, keys⟩, referenced⟩ := accepted
    exact ⟨file, keys, fun record inside => (each record inside).2, fun key inside => (referenced key inside).2⟩
  · intro valid
    have safe : ∀ record ∈ checkpoint.file.sections, safeRelativePath record.payloadKey :=
      fun record inside => (valid.file.good record inside).safe
    have referenced : ∀ key ∈ checkpoint.payloads.keys, safeRelativePath key ∧ key ∈ checkpoint.file.sections.map payloadKey := by
      intro key inside
      have named := valid.referenced key inside
      obtain ⟨record, held, rfl⟩ := mem_map.mp named
      exact ⟨safe record held, named⟩
    exact ⟨valid.file, ⟨fun record inside => ⟨safe record inside, valid.present record inside⟩, valid.file.domains, valid.keys⟩, referenced⟩

end Validity

def scopedKey (revision : U64) (key : Path) : Path := [payloadDirectory, revisionDirectory revision] ++ (fileName key).toList

def DomainSectionRecord.rescoped (revision : U64) (record : DomainSectionRecord) : DomainSectionRecord :=
  { record with payloadKey := scopedKey revision record.payloadKey }

theorem fileName_ne_parent (named : fileName key = some leaf) : leaf ≠ ".." := by
  unfold fileName at named
  rw [Option.filter_eq_some_iff] at named
  simpa using named.2

theorem fileName_of_safe (safe : safeRelativePath key) : ∃ leaf, fileName key = some leaf := by
  refine ⟨key.getLast safe.1, ?_⟩
  unfold fileName
  rw [getLast?_eq_getLast_of_ne_nil safe.1, Option.filter_some, if_pos]
  have other : key.getLast safe.1 ≠ ".." := fun same => safe.2 (same ▸ getLast_mem safe.1)
  simpa using other

theorem scopedKey_of_named (revision : U64) (named : fileName key = some leaf) :
    scopedKey revision key = revisionKey revision leaf := by
  simp [scopedKey, revisionKey, named]

theorem revisionDirectory_ne_parent (revision : U64) : revisionDirectory revision ≠ ".." := by
  intro same
  have first := congrArg (fun text => text.toList.head?) same
  simp [revisionDirectory] at first

theorem revisionKey_safe {revision : U64} (other : leaf ≠ "..") : safeRelativePath (revisionKey revision leaf) := by
  unfold safeRelativePath revisionKey
  have directory : payloadDirectory ≠ ".." := by decide
  simp [Ne.symm directory, Ne.symm (revisionDirectory_ne_parent revision), Ne.symm other]

theorem scopedKey_safe (revision : U64) (safe : safeRelativePath key) : safeRelativePath (scopedKey revision key) := by
  obtain ⟨leaf, named⟩ := fileName_of_safe safe
  rw [scopedKey_of_named revision named]
  exact revisionKey_safe (fileName_ne_parent named)

theorem fileName_scopedKey {revision : U64} (safe : safeRelativePath key) : fileName (scopedKey revision key) = fileName key := by
  obtain ⟨leaf, named⟩ := fileName_of_safe safe
  rw [scopedKey_of_named revision named, named]
  simp [fileName, revisionKey, fileName_ne_parent named]

theorem DomainSectionRecord.Good.rescoped {record : DomainSectionRecord} (good : record.Good) (revision : U64) : (record.rescoped revision).Good := by
  have safe := scopedKey_safe revision good.safe
  unfold DomainSectionRecord.Good at good ⊢
  simp only [DomainSectionRecord.rescoped]
  tauto

def DomainSectionRecord.bytes (payloads : DomainPayloads) (record : DomainSectionRecord) : Bytes := payloads[record.payloadKey]?.getD []

def scopedEntries (revision : U64) (held : DomainPayloads) (records : List DomainSectionRecord) : List (Path × Bytes) :=
  records.map fun record => (scopedKey revision record.payloadKey, record.bytes held)

def insertEntries {ν : Type} (entries : List (Path × ν)) (map : ExtTreeMap Path ν) : ExtTreeMap Path ν :=
  entries.foldl (fun map entry => map.insert entry.1 entry.2) map

section Entries

variable {ν : Type} {entries : List (Path × ν)}

theorem lookup_insert (map : ExtTreeMap Path ν) (key : Path) (value : ν) (other : Path) :
    (map.insert key value)[other]? = if key = other then some value else map[other]? := Entries.lookup_insert map key other value

theorem insertEntries_absent (absent : key ∉ entries.map Prod.fst) (map : ExtTreeMap Path ν) : (insertEntries entries map)[key]? = map[key]? :=
  Entries.lookup_foldl_absent (fun map key value => map.insert key value) (fun _ value => some value) lookup_insert map absent

variable {value : ν}

theorem insertEntries_present (distinct : (entries.map Prod.fst).Nodup) (present : (key, value) ∈ entries) (map : ExtTreeMap Path ν) :
    (insertEntries entries map)[key]? = some value :=
  Entries.lookup_foldl_present (fun map key value => map.insert key value) (fun _ value => some value) lookup_insert distinct map present

theorem insertEntries_empty (distinct : (entries.map Prod.fst).Nodup) :
    (insertEntries entries ∅)[key]? = some value ↔ (key, value) ∈ entries := by
  constructor
  · intro held
    by_cases inside : key ∈ entries.map Prod.fst
    · obtain ⟨⟨same, other⟩, present, rfl⟩ := mem_map.mp inside
      rw [insertEntries_present distinct present, Option.some.injEq] at held
      subst held
      exact present
    · rw [insertEntries_absent inside] at held
      simp at held
  · intro present
    exact insertEntries_present distinct present ∅

end Entries

theorem scopeSections_ok {revision : U64} {held : DomainPayloads}
    (safe : ∀ record ∈ records, safeRelativePath record.payloadKey)
    (present : ∀ record ∈ records, held.contains record.payloadKey = true)
    (distinct : (records.map fun record => scopedKey revision record.payloadKey).Nodup)
    (fresh : ∀ record ∈ records, payloads.contains (scopedKey revision record.payloadKey) = false) :
    scopeSections revision held records payloads =
      .ok (records.map (·.rescoped revision), insertEntries (scopedEntries revision held records) payloads) := by
  induction records generalizing payloads with
  | nil => rfl
  | cons record rest ih =>
    have named := fileName_of_safe (safe record mem_cons_self)
    obtain ⟨leaf, named⟩ := named
    have there := present record mem_cons_self
    obtain ⟨bytes, there⟩ := Entries.held_of_mem (ExtTreeMap.contains_iff_mem.mp there)
    have place := scopedKey_of_named revision named
    have unused := fresh record mem_cons_self
    rw [place] at unused
    rw [map_cons, nodup_cons] at distinct
    have later : ∀ other ∈ rest, (payloads.insert (revisionKey revision leaf) bytes).contains (scopedKey revision other.payloadKey) = false := by
      intro other inside
      rw [ExtTreeMap.contains_insert, fresh other (mem_cons_of_mem _ inside), Bool.or_false]
      rw [beq_eq_false_iff_ne]
      intro same
      apply distinct.1
      rw [mem_map]
      rw [Std.LawfulEqCmp.compare_eq_iff_eq, ← place] at same
      exact ⟨other, inside, same.symm⟩
    have tail := ih (fun other inside => safe other (mem_cons_of_mem _ inside))
      (fun other inside => present other (mem_cons_of_mem _ inside)) distinct.2 later
    simp only [scopeSections, named, there, unused, Bool.false_eq_true, if_false, tail, bind, Except.bind]
    simp [DomainSectionRecord.rescoped, place, scopedEntries, insertEntries, DomainSectionRecord.bytes, there]

/-- An open document as its package sees it. No two of its sections have one file name: the domains
    of a project each have their own, and a section carried over came out of one directory. -/
structure Document (Carried : Type) [CarriedChecks Carried] where
  checkpoint : ProjectCheckpoint Carried
  valid : checkpoint.Valid
  leaves : (checkpoint.file.sections.map fun record => fileName record.payloadKey).Nodup

namespace Document

variable {Carried : Type} [CarriedChecks Carried] (document : Document Carried)

def revision : U64 := document.checkpoint.revision

def sections : List DomainSectionRecord := document.checkpoint.file.sections

def entries : List (Path × Bytes) := scopedEntries document.revision document.checkpoint.payloads document.sections

def rescopedSections : List DomainSectionRecord := (document.sections.map (·.rescoped document.revision)).insertionSort ProjectCheckpoint.byDomain

/-- The checkpoint under the names it is saved with. -/
def rescoped : ProjectCheckpoint Carried :=
  ⟨{ document.checkpoint.file with sections := document.rescopedSections }, insertEntries document.entries ∅⟩

variable {record : DomainSectionRecord}

theorem good (inside : record ∈ document.sections) : record.Good := document.valid.file.good record inside

theorem scopedKeys_distinct : (document.sections.map fun record => scopedKey document.revision record.payloadKey).Nodup := by
  have same : (document.sections.map fun record => scopedKey document.revision record.payloadKey) =
      (document.sections.map fun record => fileName record.payloadKey).map
        fun leaf => [payloadDirectory, revisionDirectory document.revision] ++ leaf.toList := by
    rw [map_map]
    rfl
  rw [same]
  apply document.leaves.map
  intro left right equal
  have tails := append_cancel_left equal
  cases left <;> cases right <;> simp_all

theorem entries_keys : document.entries.map Prod.fst = document.sections.map fun record => scopedKey document.revision record.payloadKey := by
  unfold entries scopedEntries
  rw [map_map]
  rfl

theorem entries_distinct : (document.entries.map Prod.fst).Nodup := by
  rw [entries_keys]
  exact document.scopedKeys_distinct

theorem rescopedSections_perm : document.rescopedSections.Perm (document.sections.map (·.rescoped document.revision)) :=
  perm_insertionSort _ _

theorem mem_rescopedSections :
    record ∈ document.rescopedSections ↔ ∃ original ∈ document.sections, original.rescoped document.revision = record := by
  rw [document.rescopedSections_perm.mem_iff, mem_map]

theorem rescoped_domains : (document.rescopedSections.map domain).Nodup := by
  have same := document.rescopedSections_perm.map domain
  rw [same.nodup_iff, map_map]
  exact document.valid.file.domains

theorem rescoped_keys : (document.rescopedSections.map payloadKey).Perm (document.entries.map Prod.fst) := by
  have same := document.rescopedSections_perm.map payloadKey
  rw [entries_keys]
  rw [map_map] at same
  exact same

theorem rescoped_valid : document.rescoped.Valid := by
  have file : document.rescoped.file.Valid := by
    have held := document.valid.file
    have good : ∀ record ∈ document.rescopedSections, record.Good := by
      intro record inside
      obtain ⟨original, there, rfl⟩ := document.mem_rescopedSections.mp inside
      exact (document.good there).rescoped document.revision
    exact ⟨held.format, held.version, held.named, good, document.rescoped_domains, held.carried, held.recovery⟩
  have keys : (document.rescopedSections.map payloadKey).Nodup := document.rescoped_keys.nodup_iff.mpr document.entries_distinct
  apply ProjectCheckpoint.Valid.mk file keys
  · intro record inside
    have named : record.payloadKey ∈ document.entries.map Prod.fst :=
      document.rescoped_keys.mem_iff.mp (mem_map_of_mem inside)
    obtain ⟨⟨key, bytes⟩, present, same⟩ := mem_map.mp named
    have held := insertEntries_present document.entries_distinct present (∅ : DomainPayloads)
    rw [ExtTreeMap.contains_iff_mem, ExtTreeMap.mem_iff_isSome_getElem?, ← same]
    show ((insertEntries document.entries ∅)[key]?).isSome = true
    rw [held]
    rfl
  · intro key inside
    rw [ExtTreeMap.mem_keys, ExtTreeMap.mem_iff_isSome_getElem?] at inside
    obtain ⟨bytes, held⟩ := Option.isSome_iff_exists.mp inside
    have present := (insertEntries_empty document.entries_distinct).mp held
    exact document.rescoped_keys.mem_iff.mpr (mem_map_of_mem present)

theorem revisionScoped_ok : document.checkpoint.revisionScoped = .ok document.rescoped := by
  have collected : scopeSections document.revision document.checkpoint.payloads document.sections ∅ =
      .ok (document.sections.map (·.rescoped document.revision), insertEntries document.entries ∅) :=
    scopeSections_ok (fun record inside => (document.good inside).safe) document.valid.present
    document.scopedKeys_distinct (fun record _ => ExtTreeMap.contains_empty)
  have accepted := validate_ok.mpr document.rescoped_valid
  unfold revisionScoped
  show (scopeSections document.revision document.checkpoint.payloads document.sections ∅ >>= fun made =>
    new { document.checkpoint.file with sections := made.1 } made.2) = .ok document.rescoped
  rw [collected]
  show (document.rescoped.validate >>= fun _ => Except.ok document.rescoped) = .ok document.rescoped
  rw [accepted]
  rfl

end Document
end Audec.ProjectStore

/-! What each step of a save does to the files of a package. -/

namespace Audec.ProjectStore

variable {Carried : Type} [DecidableEq Carried]

/-- Nothing else is held under a name. -/
def Agrees (files : Files Carried) (path : Path) (data : FileData Carried) : Prop := ∀ held, files[path]? = some held → held = data

variable {data : FileData Carried} {files : Files Carried}

variable {path : Path} {entries : List (Path × Bytes)} {published : Nat}

theorem writeImmutable_ok :
    (∃ fresh, (writeImmutable path data).result files = .ok fresh) ↔ Agrees files path data := by
  unfold writeImmutable Agrees
  rw [Program.result_read]
  cases held : files[path]? with
  | none =>
    rw [Program.result_bind_ok (Program.result_perform _ _)]
    simp
  | some existing =>
    by_cases same : existing = data
    · simp [same]
    · simp [same]

theorem writeImmutable_finished (agrees : Agrees files path data) :
    (writeImmutable path data).finished files = files.insert path data := by
  unfold writeImmutable
  rw [Program.finished_read]
  cases held : files[path]? with
  | none =>
    rw [Program.finished_bind_ok (Program.result_perform _ _)]
    rfl
  | some existing =>
    have same := agrees existing held
    subst same
    simp only [if_true, Program.finished_pure]
    apply ExtTreeMap.ext_getElem?
    intro other
    rw [lookup_insert]
    split
    · rename_i same
      rw [← same, held]
    · rfl

def payloadFiles (entries : List (Path × Bytes)) : List (Path × FileData Carried) := entries.map fun entry => (entry.1, .payload entry.2)

omit [DecidableEq Carried] in
theorem Agrees.insert_other {other : Path} {written : FileData Carried} (apart : other ≠ path) :
    Agrees (files.insert other written) path data ↔ Agrees files path data := by
  unfold Agrees
  rw [lookup_insert, if_neg apart]

section

variable (safe : ∀ entry ∈ entries, safeRelativePath entry.1) (distinct : (entries.map Prod.fst).Nodup)
include safe distinct

theorem publishPayloads_ok :
    (∃ count, (publishPayloads entries published).result files = .ok count) ↔ ∀ entry ∈ entries, Agrees files entry.1 (.payload entry.2) := by
  induction entries generalizing files published with
  | nil => simp [publishPayloads]
  | cons entry rest ih =>
    obtain ⟨key, bytes⟩ := entry
    rw [map_cons, nodup_cons] at distinct
    have allowed : (validatePayloadKey key).mapError ProjectStoreError.format = .ok () := by
      rw [mapError_ok, validatePayloadKey_ok]
      exact safe (key, bytes) mem_cons_self
    have others : ∀ entry ∈ rest, key ≠ entry.1 := by
      intro entry inside same
      exact distinct.1 (mem_map.mpr ⟨entry, inside, same.symm⟩)
    have tail : ∀ fresh : Bool, Agrees files key (.payload bytes) →
        ((∃ count, (publishPayloads rest (if fresh then published + 1 else published)).result ((writeImmutable key (.payload bytes)).finished files) = .ok count) ↔
          ∀ entry ∈ rest, Agrees files entry.1 (.payload entry.2)) := by
      intro fresh agrees
      rw [writeImmutable_finished agrees, ih (fun entry inside => safe entry (mem_cons_of_mem _ inside)) distinct.2]
      constructor
      · intro all entry inside
        exact (Agrees.insert_other (others entry inside)).mp (all entry inside)
      · intro all entry inside
        exact (Agrees.insert_other (others entry inside)).mpr (all entry inside)
    unfold publishPayloads
    rw [Program.result_bind_ok (by exact allowed), forall_mem_cons]
    simp only [Program.bind_ok, Program.finished_ofExcept]
    constructor
    · intro ⟨count, fresh, done, after⟩
      have agrees := writeImmutable_ok.mp ⟨fresh, done⟩
      exact ⟨agrees, (tail fresh agrees).mp ⟨count, after⟩⟩
    · intro ⟨agrees, all⟩
      obtain ⟨fresh, done⟩ := writeImmutable_ok.mpr agrees
      obtain ⟨count, after⟩ := (tail fresh agrees).mpr all
      exact ⟨count, fresh, done, after⟩

theorem publishPayloads_finished (agrees : ∀ entry ∈ entries, Agrees files entry.1 (.payload entry.2))
    :
    (publishPayloads entries published).finished files = insertEntries (payloadFiles entries) files := by
  induction entries generalizing files published with
  | nil => rfl
  | cons entry rest ih =>
    obtain ⟨key, bytes⟩ := entry
    rw [map_cons, nodup_cons] at distinct
    rw [forall_mem_cons] at agrees
    have allowed : (validatePayloadKey key).mapError ProjectStoreError.format = .ok () := by
      rw [mapError_ok, validatePayloadKey_ok]
      exact safe (key, bytes) mem_cons_self
    obtain ⟨fresh, done⟩ := writeImmutable_ok.mpr agrees.1
    unfold publishPayloads
    rw [Program.finished_bind_ok (by exact allowed), Program.finished_bind_ok (by exact done), Program.finished_ofExcept,
      writeImmutable_finished agrees.1, ih (fun entry inside => safe entry (mem_cons_of_mem _ inside)) distinct.2]
    · rfl
    · intro entry inside
      apply (Agrees.insert_other _).mpr (agrees.2 entry inside)
      intro same
      exact distinct.1 (mem_map.mpr ⟨entry, inside, same.symm⟩)

end

end Audec.ProjectStore

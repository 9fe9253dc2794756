import Audec.ProjectStore.Checkpoint

/-! Which recovery checkpoints a package keeps after an autosave. -/

open Machine Checked Interrupted Ranking List Entries
open Std (ExtTreeMap)

namespace Audec.ProjectStore

namespace RecoveryCheckpoint

variable {left right third : RecoveryCheckpoint}

def Before (left right : RecoveryCheckpoint) : Prop := left.order right = .lt

instance : DecidableRel Before := fun left right => inferInstanceAs (Decidable (left.order right = .lt))

theorem before_iff : Before left right ↔
    right.baseProjectRevision < left.baseProjectRevision ∨ right.baseProjectRevision = left.baseProjectRevision ∧
      (right.savedUnixMs < left.savedUnixMs ∨ right.savedUnixMs = left.savedUnixMs ∧ compare left.manifestPath right.manifestPath = .lt) := by
  unfold Before order
  rw [Ordering.then_eq_lt, Ordering.then_eq_lt, compare_lt_iff_lt, compare_lt_iff_lt, compare_eq_iff_eq, compare_eq_iff_eq]

theorem order_eq : left.order right = .eq ↔ left = right := by
  unfold order
  rw [Ordering.then_eq_eq, Ordering.then_eq_eq, compare_eq_iff_eq, compare_eq_iff_eq, Std.LawfulEqCmp.compare_eq_iff_eq]
  constructor
  · intro ⟨revision, saved, path⟩
    cases left
    cases right
    simp_all
  · intro same
    simp [same]

theorem order_swap : left.order right = (right.order left).swap := by
  unfold order
  rw [Ordering.swap_then, Ordering.swap_then]
  congr 1
  · exact Std.OrientedCmp.eq_swap
  · congr 1
    · exact Std.OrientedCmp.eq_swap
    · exact Std.OrientedCmp.eq_swap

theorem not_before_self (checkpoint : RecoveryCheckpoint) : ¬ Before checkpoint checkpoint := by
  unfold Before
  rw [order_eq.mpr rfl]
  simp

theorem Before.not_before (before : Before left right) : ¬ Before right left := by
  unfold Before at before ⊢
  rw [order_swap, before]
  simp

theorem Before.trans (first : Before left right) (second : Before right third) : Before left third := by
  rw [before_iff] at first second ⊢
  rcases first with first | ⟨revision, first⟩
  · rcases second with second | ⟨same, _⟩
    · exact .inl (lt_trans second first)
    · exact .inl (same ▸ first)
  · rcases second with second | ⟨same, second⟩
    · exact .inl (revision ▸ second)
    · right
      constructor
      · exact same.trans revision
      · rcases first with first | ⟨saved, first⟩
        · rcases second with second | ⟨again, _⟩
          · exact .inl (lt_trans second first)
          · exact .inl (again ▸ first)
        · rcases second with second | ⟨again, second⟩
          · exact .inl (saved ▸ second)
          · exact .inr ⟨again.trans saved, Std.TransCmp.lt_trans first second⟩

theorem notAfter_iff : notAfter left right ↔ Before left right ∨ left = right := by
  unfold notAfter Before
  rw [← order_eq]
  cases left.order right <;> simp

instance : Std.Total notAfter where
  total left right := by
    rw [notAfter_iff, notAfter_iff]
    cases order : left.order right with
    | lt => exact .inl (.inl order)
    | eq => exact .inl (.inr (order_eq.mp order))
    | gt =>
      right
      left
      unfold Before
      rw [order_swap, order]
      rfl

instance : IsTrans RecoveryCheckpoint notAfter where
  trans left right third first second := by
    rw [notAfter_iff] at first second ⊢
    rcases first with first | rfl
    · rcases second with second | rfl
      · exact .inl (first.trans second)
      · exact .inl first
    · exact second

end RecoveryCheckpoint

open RecoveryCheckpoint

section Discovery

variable {Carried : Type} [CarriedChecks Carried]

variable {checkpoint : RecoveryCheckpoint} {files : Files Carried}

theorem recoveryCandidate_path {path : Path} {data : FileData Carried}
    (found : recoveryCandidate path data = some checkpoint) : checkpoint.manifestPath = path ∧ inRecoveryDirectory path = true := by
  unfold recoveryCandidate at found
  split at found
  · rename_i inside
    split at found
    · split at found
      · cases found
        exact ⟨rfl, inside⟩
      · cases found
    · cases found
  · cases found

def candidates (files : Files Carried) : List RecoveryCheckpoint := files.toList.filterMap fun entry => recoveryCandidate entry.1 entry.2

theorem discoverRecovery_perm (files : Files Carried) : (discoverRecovery files).Perm (candidates files) := perm_insertionSort _ _

theorem mem_candidates :
    checkpoint ∈ candidates files ↔ ∃ data, files[checkpoint.manifestPath]? = some data ∧ recoveryCandidate checkpoint.manifestPath data = some checkpoint := by
  unfold candidates
  rw [mem_filterMap]
  constructor
  · intro ⟨⟨path, data⟩, held, found⟩
    have named := (recoveryCandidate_path found).1
    dsimp at found
    subst named
    exact ⟨data, mem_toList.mp held, found⟩
  · intro ⟨data, held, found⟩
    exact ⟨(checkpoint.manifestPath, data), mem_toList.mpr held, found⟩

section

variable (files : Files Carried)

theorem candidates_distinct : (candidates files).Pairwise fun left right => left.manifestPath ≠ right.manifestPath := by
  unfold candidates
  have apart : files.toList.Pairwise fun left right => left.1 ≠ right.1 := by
    have keys : (files.toList.map Prod.fst).Nodup := by
      rw [ExtTreeMap.map_fst_toList_eq_keys]
      exact ExtTreeMap.nodup_keys
    exact pairwise_map.mp keys
  apply List.Pairwise.filterMap _ _ apart
  intro left right distinct first found second again same
  apply distinct
  rw [← (recoveryCandidate_path found).1, ← (recoveryCandidate_path again).1]
  exact same

theorem discoverRecovery_sorted : (discoverRecovery files).Pairwise Before := by
  have ordered : (discoverRecovery files).Pairwise notAfter := pairwise_insertionSort _ _
  have distinct : (discoverRecovery files).Pairwise fun left right => left.manifestPath ≠ right.manifestPath :=
    (Perm.pairwise_iff (fun apart => Ne.symm apart) (discoverRecovery_perm files)).mpr (candidates_distinct files)
  apply (ordered.and distinct).imp
  intro left right ⟨before, apart⟩
  rcases notAfter_iff.mp before with before | rfl
  · exact before
  · exact absurd rfl apart

def newer (checkpoint : RecoveryCheckpoint) : Nat := rank Before (candidates files) checkpoint

end

theorem rotated_iff (inside : checkpoint ∈ candidates files) (count : Nat) :
    checkpoint ∈ (discoverRecovery files).drop count ↔ count ≤ newer files checkpoint := by
  rw [mem_drop_iff not_before_self (fun _ _ before => before.not_before) (discoverRecovery_sorted files)
    ((discoverRecovery_perm files).mem_iff.mpr inside), rank_perm (discoverRecovery_perm files)]
  rfl

end Discovery

section Removal

variable {Carried : Type} [DecidableEq Carried] [CarriedChecks Carried]

omit [DecidableEq Carried] [CarriedChecks Carried] in
theorem removeCheckpoints_ok (checkpoints : List RecoveryCheckpoint) (files : Files Carried) :
    ∃ removed, (removeCheckpoints checkpoints).result files = .ok removed := by
  induction checkpoints generalizing files with
  | nil => exact ⟨[], rfl⟩
  | cons checkpoint rest ih =>
    unfold removeCheckpoints
    rw [Program.result_read]
    split
    · obtain ⟨removed, done⟩ := ih (files.erase checkpoint.manifestPath)
      rw [Program.result_bind_ok (Program.result_perform _ _)]
      exact ⟨checkpoint.manifestPath :: removed, Program.result_bind_ok done⟩
    · exact ih files

omit [DecidableEq Carried] [CarriedChecks Carried] in
theorem removeCheckpoints_finished (checkpoints : List RecoveryCheckpoint) (files : Files Carried) :
    (removeCheckpoints checkpoints).finished files = (checkpoints.map RecoveryCheckpoint.manifestPath).foldl (fun files path => files.erase path) files := by
  induction checkpoints generalizing files with
  | nil => rfl
  | cons checkpoint rest ih =>
    rw [map_cons, foldl_cons]
    unfold removeCheckpoints
    rw [Program.finished_read]
    split
    · obtain ⟨removed, done⟩ := removeCheckpoints_ok rest (files.erase checkpoint.manifestPath)
      rw [Program.finished_bind_ok (Program.result_perform _ _), ← ih]
      exact Program.finished_bind_ok done
    · rename_i absent
      rw [ih, erase_absent]
      rw [ExtTreeMap.contains_iff_mem, ExtTreeMap.mem_iff_isSome_getElem?] at absent
      simpa using absent

omit [DecidableEq Carried] [CarriedChecks Carried] in
/-- The paths an autosave's rotation removes. -/
def rotatedPaths (files : Files Carried) : List Path :=
  ((discoverRecovery files).drop defaultMaxRecoveryCheckpoints).map RecoveryCheckpoint.manifestPath

omit [DecidableEq Carried] in
theorem rotate_ok (files : Files Carried) :
    ∃ removed, (rotateRecoveryCheckpoints defaultMaxRecoveryCheckpoints : Io Carried (List Path)).result files = .ok removed :=
  removeCheckpoints_ok _ _

omit [DecidableEq Carried] in
theorem rotate_lookup (files : Files Carried) (path : Path) :
    ((rotateRecoveryCheckpoints defaultMaxRecoveryCheckpoints).finished files)[path]? = if path ∈ rotatedPaths files then none else files[path]? := by
  show ((removeCheckpoints ((discoverRecovery files).drop defaultMaxRecoveryCheckpoints)).finished files)[path]? = _
  rw [removeCheckpoints_finished, lookup_foldl_erase]
  unfold rotatedPaths
  congr

omit [DecidableEq Carried] in
theorem rotatedPaths_recovery {files : Files Carried} {path : Path} (inside : path ∈ rotatedPaths files) : inRecoveryDirectory path = true := by
  obtain ⟨checkpoint, dropped, rfl⟩ := mem_map.mp inside
  have found := (discoverRecovery_perm files).mem_iff.mp (mem_of_mem_drop dropped)
  obtain ⟨data, _, candidate⟩ := mem_candidates.mp found
  exact (recoveryCandidate_path candidate).2

end Removal

end Audec.ProjectStore

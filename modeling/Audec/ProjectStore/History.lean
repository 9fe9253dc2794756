import Audec.ProjectStore.Saves

/-! The history of a package: checkpoints opened, edited and saved, with crashes in between. -/

open Machine Checked Interrupted Ranking
open Std (ExtTreeMap)

namespace Audec.ProjectStore

variable {Carried : Type} [DecidableEq Carried] [CarriedChecks Carried]

instance (checkpoint : ProjectCheckpoint Carried) : Decidable checkpoint.Valid := decidable_of_iff _ ProjectCheckpoint.validate_ok

def ProjectCheckpoint.opened (checkpoint : ProjectCheckpoint Carried) : Option (Document Carried) :=
  let content : ProjectCheckpoint Carried := ⟨{ checkpoint.file with recovery := .default }, checkpoint.payloads⟩
  if accepted : content.Valid ∧ (content.file.sections.map fun record => fileName record.payloadKey).Nodup then
    some ⟨content, accepted.1, accepted.2⟩
  else none

/-- What a session does to its document: an edit, an undo, a redo and a replayed record are commands
    that raise the revision by one; a change of the workspace keeps revision and payloads. -/
def Document.Follows (next document : Document Carried) : Prop :=
  next.revision.val = document.revision.val + 1 ∨
    next.revision = document.revision ∧ next.sections = document.sections ∧ next.checkpoint.payloads.toList = document.checkpoint.payloads.toList

instance (next document : Document Carried) : Decidable (next.Follows document) := inferInstanceAs (Decidable (_ ∨ _ ∧ _ ∧ _))

structure History (Carried : Type) [CarriedChecks Carried] where
  files : Files Carried
  document : Option (Document Carried)

inductive Action (Carried : Type) [CarriedChecks Carried] where
  | openPrimary
  | openRecovery (candidate : RecoveryCheckpoint)
  | edit (next : Document Carried)
  | save (kind : SaveKind)
  /-- A save that the process does not survive. -/
  | crashedSave (kind : SaveKind) (count : Nat)
  | crash

def History.opening (history : History Carried) (loaded : Except ProjectStoreError (LoadedCheckpoint Carried)) : Option (Document Carried) :=
  match loaded with
  | .ok loaded => loaded.checkpoint.opened
  | .error _ => history.document

def History.effects (package : ProjectPackage) (history : History Carried) : Action Carried → List (Effect Carried)
  | .save kind =>
    match history.document with
    | some document => (ProjectStore.save package document.checkpoint document.revision kind).effects history.files
    | none => []
  | .crashedSave kind count =>
    match history.document with
    | some document => ((ProjectStore.save package document.checkpoint document.revision kind).effects history.files).take count
    | none => []
  | _ => []

def History.next (history : History Carried) : Action Carried → Option (Document Carried)
  | .openPrimary => history.opening (loadPrimary history.files)
  | .openRecovery candidate =>
    if candidate ∈ discoverRecovery history.files then history.opening (loadRecovery history.files candidate) else history.document
  | .edit next => history.document.map fun document => if next.Follows document then next else document
  | .save _ => history.document
  | .crashedSave _ _ => none
  | .crash => none

variable (package : ProjectPackage)

def History.step (package : ProjectPackage) (history : History Carried) (action : Action Carried) : History Carried :=
  ⟨(history.effects package action).foldl Effect.apply history.files, history.next action⟩

/-- A new document over an empty package. -/
def History.begin (first : Document Carried) : History Carried := ⟨∅, some first⟩

def History.run (package : ProjectPackage) (history : History Carried) (actions : List (Action Carried)) : History Carried :=
  actions.foldl (History.step package) history

/-- Every file operation of a history, in order. -/
def History.trace (package : ProjectPackage) (history : History Carried) : List (Action Carried) → List (Effect Carried)
  | [] => []
  | action :: actions => history.effects package action ++ History.trace package (history.step package action) actions

section

variable (history : History Carried)
include package history

theorem History.step_along (action : Action Carried) :
    Along Effect.Allowed (history.effects package action) history.files := by
  cases action with
  | save kind =>
    unfold History.effects
    cases history.document with
    | none => trivial
    | some document => exact save_along package document kind history.files
  | crashedSave kind count =>
    unfold History.effects
    cases history.document with
    | none => trivial
    | some document => exact along_take (save_along package document kind history.files) count
  | openPrimary => trivial
  | openRecovery candidate => trivial
  | edit next => trivial
  | crash => trivial

theorem History.trace_along (actions : List (Action Carried)) :
    Along Effect.Allowed (history.trace package actions) history.files := by
  induction actions generalizing history with
  | nil => trivial
  | cons action actions ih =>
    unfold History.trace
    rw [along_append]
    exact ⟨history.step_along package action, ih (history.step package action)⟩

theorem History.run_files (actions : List (Action Carried)) :
    (history.run package actions).files = (history.trace package actions).foldl Effect.apply history.files := by
  induction actions generalizing history with
  | nil => rfl
  | cons action actions ih =>
    unfold History.trace
    rw [List.foldl_append]
    exact ih (history.step package action)

end

def Unrivalled (package : ProjectPackage) (first : Document Carried) (actions : List (Action Carried)) (document : Document Carried) : Prop :=
  ∀ record ∈ document.sections, ∀ data, .hardLink (scopedKey document.revision record.payloadKey) data ∈ (History.begin first).trace package actions →
    data = .payload (record.bytes document.checkpoint.payloads)

theorem unclaimed_iff_unrivalled {package : ProjectPackage} {first : Document Carried} {actions : List (Action Carried)} {document : Document Carried} :
    Unclaimed ((History.begin first).run package actions).files document ↔ Unrivalled package first actions document := by
  have linked : ∀ record ∈ document.sections, ∀ data,
      ((History.begin first).run package actions).files[scopedKey document.revision record.payloadKey]? = some data ↔
        .hardLink (scopedKey document.revision record.payloadKey) data ∈ (History.begin first).trace package actions := by
    intro record inside data
    obtain ⟨leaf, named⟩ := fileName_of_safe (document.good inside).safe
    have payload : scopedKey document.revision record.payloadKey ≠ manifestPath ∧ inRecoveryDirectory (scopedKey document.revision record.payloadKey) = false := by
      rw [scopedKey_of_named document.revision named]
      exact ⟨by simp [revisionKey, manifestPath], revisionKey_not_recovery _ _⟩
    rw [History.run_files, payload_iff_linked (History.trace_along package (History.begin first) actions) payload]
    simp [History.begin]
  unfold Unclaimed Unrivalled Agrees
  constructor
  · intro free record inside data made
    exact free record inside data ((linked record inside data).mpr made)
  · intro free record inside data held
    exact free record inside data ((linked record inside data).mp held)

/-- After any history, a save of a document succeeds and loads back exactly when no save of the history
    has put other bytes under the document's revision, and nothing stands in the envelope's way. -/
theorem saves_iff (package : ProjectPackage) (first : Document Carried) (actions : List (Action Carried)) (document : Document Carried) (kind : SaveKind) :
    Saves package ((History.begin first).run package actions).files document kind ↔
      Unrivalled package first actions document ∧ kind.Free package ((History.begin first).run package actions).files document := by
  rw [saves_iff_free, unclaimed_iff_unrivalled]

section Abandoned

instance demoChecks : CarriedChecks Unit := ⟨fun _ => .ok ()⟩

def demoPackage : ProjectPackage := ⟨some "demo.audec"⟩

def demoCheckpoint (revision : U64) (tempo : UInt8) : ProjectCheckpoint Unit :=
  ⟨⟨projectFileFormat, projectFileVersion, "Demo", revision, [⟨"sequencer", 1, revision, ["sequencer.json"], "json"⟩], (), .default⟩,
    (∅ : DomainPayloads).insert ["sequencer.json"] [tempo]⟩

def demoDocument (revision : U64) (tempo : UInt8) (valid : (demoCheckpoint revision tempo).validate = .ok ()) : Document Unit :=
  ⟨demoCheckpoint revision tempo, ProjectCheckpoint.validate_ok.mp valid, List.nodup_singleton _⟩

def original : Document Unit := demoDocument 0 120 (by decide)

def abandoned : Document Unit := demoDocument 1 130 (by decide)

def rival : Document Unit := demoDocument 1 140 (by decide)

def abandonedLine : List (Action Unit) := [.save .primary, .edit abandoned, .save (.autosave 5), .crash, .openPrimary, .edit rival]

set_option maxRecDepth 8000 in
theorem abandoned_line_conflicts :
    ((save demoPackage rival.checkpoint rival.revision .primary).result ((History.begin original).run demoPackage abandonedLine).files).isOk = false := by
  decide

set_option maxRecDepth 8000 in
/-- The bytes that the abandoned line left under revision one keep the open document from being saved. -/
theorem abandoned_line_blocks :
    ((History.begin original).run demoPackage abandonedLine).document = some rival ∧
      ¬ Saves demoPackage ((History.begin original).run demoPackage abandonedLine).files rival .primary := by
  constructor
  · rfl
  · intro ⟨saved, _, done, _⟩
    have failed := abandoned_line_conflicts
    rw [done] at failed
    cases failed

end Abandoned
end Audec.ProjectStore

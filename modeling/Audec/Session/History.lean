import Audec.Lib.Runs
import Audec.Session.Valid

/-! The history of a session: every revision it returns to has the content it had before. -/

open Machine Checked GuardedStore FloatEquality Runs
open Std (ExtTreeMap)

namespace Audec.Session

open Arrangement (Same Valid)

abbrev Past := List (Runs.Event Session Session.Action)

def moments (events : Past) (session : Session) : List (ProjectRevision × Arrangement) :=
  events.map (fun event => (event.before.revision, event.before.arrangement)) ++ [(session.revision, session.arrangement)]

def commitCount (events : Past) : Nat := events.countP fun event => event.before.commits event.action

def saves : Session.Action → Bool
  | .markSaved => true
  | _ => false

def lastSaved (events : Past) : Arrangement :=
  events.foldl (fun saved event => if saves event.action then event.before.arrangement else saved) .empty

section Links

structure Link (content : ProjectRevision → Arrangement) (count : Nat) (entry : HistoryEntry) : Prop where
  before_le : entry.beforeRevision.val ≤ count
  after_le : entry.afterRevision.val ≤ count
  before_valid : (content entry.beforeRevision).Valid
  after_valid : (content entry.afterRevision).Valid
  leads : ∃ puts, putsOf entry.command.changes = some puts ∧ Accepts puts (content entry.beforeRevision).store ∧
    ∀ key, (writes puts (content entry.beforeRevision).store key == (content entry.afterRevision).store key) = true

def Backward (content : ProjectRevision → Arrangement) (count : Nat) : ProjectRevision → List HistoryEntry → Prop
  | _, [] => True
  | revision, entry :: entries =>
    entry.afterRevision = revision ∧ Link content count entry ∧ Backward content count entry.beforeRevision entries

def Forward (content : ProjectRevision → Arrangement) (count : Nat) : ProjectRevision → List HistoryEntry → Prop
  | _, [] => True
  | revision, entry :: entries =>
    entry.beforeRevision = revision ∧ Link content count entry ∧ Forward content count entry.afterRevision entries

variable {content content' : ProjectRevision → Arrangement} {count count' : Nat}

variable {entry : HistoryEntry} {entries : List HistoryEntry} {revision : ProjectRevision} {arrangement : Arrangement}

theorem Link.mono (link : Link content count entry) (more : count ≤ count')
    (kept : ∀ revision : ProjectRevision, revision.val ≤ count → content' revision = content revision) : Link content' count' entry := by
  obtain ⟨before_le, after_le, before_valid, after_valid, leads⟩ := link
  refine ⟨before_le.trans more, after_le.trans more, ?_, ?_, ?_⟩ <;>
    simpa only [kept _ before_le, kept _ after_le]

theorem Backward.mono (chain : Backward content count revision entries)
    (more : count ≤ count') (kept : ∀ revision : ProjectRevision, revision.val ≤ count → content' revision = content revision) :
    Backward content' count' revision entries := by
  induction entries generalizing revision with
  | nil => trivial
  | cons entry entries ih => exact ⟨chain.1, chain.2.1.mono more kept, ih chain.2.2⟩

theorem Backward.take (chain : Backward content count revision entries)
    (limit : Nat) : Backward content count revision (entries.take limit) := by
  induction entries generalizing revision limit with
  | nil =>
    rw [List.take_nil]
    trivial
  | cons entry entries ih =>
    cases limit with
    | zero => trivial
    | succ limit => exact ⟨chain.1, chain.2.1, ih chain.2.2 limit⟩

theorem Forward.take (chain : Forward content count revision entries)
    (limit : Nat) : Forward content count revision (entries.take limit) := by
  induction entries generalizing revision limit with
  | nil =>
    rw [List.take_nil]
    trivial
  | cons entry entries ih =>
    cases limit with
    | zero => trivial
    | succ limit => exact ⟨chain.1, chain.2.1, ih chain.2.2 limit⟩

open Session (attempt)

theorem attempt_ok {changes : List ProjectChange} {after : Arrangement} {forward : Bool} :
    attempt changes arrangement forward = .ok after ↔ applyChanges changes arrangement forward = .ok after ∧ after.Valid := by
  unfold attempt
  rw [bind_ok]
  simp only [bind_unit_ok, Arrangement.validate_ok]
  constructor
  · rintro ⟨result, applied, valid, same⟩
    cases same
    exact ⟨applied, valid⟩
  · rintro ⟨applied, valid⟩
    exact ⟨after, applied, valid, rfl⟩

theorem Link.undone (link : Link content count entry)
    (now : Same arrangement (content entry.afterRevision)) :
    ∃ before, attempt entry.command.changes arrangement false = .ok before ∧ before.Valid ∧ Same before (content entry.beforeRevision) := by
  obtain ⟨puts, made, accepts, leads⟩ := link.leads
  have ready : Accepts (undo puts) arrangement.store :=
    (accepts_undo_iff accepts).mpr fun key _ => BEq.trans (now key) (BEq.symm (leads key))
  have undoing := putsOf_undo made
  obtain ⟨before, applied⟩ := applyAll_accepts undoing ready
  obtain ⟨puts', made', -, stored⟩ := applyAll_ok applied
  rw [undoing] at made'
  cases made'
  have same : Same before (content entry.beforeRevision) := by
    intro key
    rw [stored]
    by_cases touched : key ∈ keys puts
    · exact writes_undo _ accepts touched
    · have unchanged := leads key
      rw [writes_other _ _ touched] at unchanged
      rw [writes_other _ _ (by rwa [mem_keys_undo])]
      exact BEq.trans (now key) (BEq.symm unchanged)
  have valid := link.before_valid.congr same.symm
  exact ⟨before, attempt_ok.mpr ⟨by rw [applyChanges_backward, applied], valid⟩, valid, same⟩

theorem Link.redone (link : Link content count entry)
    (now : Same arrangement (content entry.beforeRevision)) :
    ∃ after, attempt entry.command.changes arrangement true = .ok after ∧ after.Valid ∧ Same after (content entry.afterRevision) := by
  obtain ⟨puts, made, accepts, leads⟩ := link.leads
  have ready : Accepts puts arrangement.store := accepts.congr fun key _ => .inr (BEq.symm (now key))
  obtain ⟨after, applied⟩ := applyAll_accepts made ready
  obtain ⟨puts', made', -, stored⟩ := applyAll_ok applied
  rw [made] at made'
  cases made'
  have same : Same after (content entry.afterRevision) := by
    intro key
    rw [stored]
    exact BEq.trans (writes_alike now (fun key => BEq.trans (leads key) (BEq.symm (leads key))) key) (leads key)
  have valid := link.after_valid.congr same.symm
  exact ⟨after, attempt_ok.mpr ⟨by rw [applyChanges_forward, applied], valid⟩, valid, same⟩

theorem link_of_attempt {command : SessionCommand} {before after : ProjectRevision} {changed : Arrangement}
    (attempted : attempt command.changes arrangement true = .ok changed) (before_le : before.val ≤ count) (after_le : after.val ≤ count)
    (valid : arrangement.Valid) (here : Same arrangement (content before)) (there : Same changed (content after)) :
    Link content count ⟨command, before, after⟩ := by
  obtain ⟨applied, changedValid⟩ := attempt_ok.mp attempted
  obtain ⟨puts, made, accepts, stored⟩ := applyAll_ok applied
  refine ⟨before_le, after_le, valid.congr here, changedValid.congr there, puts, made, ?_, ?_⟩
  · exact accepts.congr fun key _ => .inr (here key)
  · intro key
    have alike := writes_alike here.symm (fun key => by rw [← stored]; exact changedValid.refl key) key
    rw [← stored] at alike
    exact BEq.trans alike (there key)

end Links

end Audec.Session

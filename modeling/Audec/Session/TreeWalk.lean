import Audec.Session.History

/-! Runs of a session: what every action keeps of its history, and from it what holds throughout. -/

open Machine Checked Runs List Option Function

namespace Audec.Session

open Session

open Arrangement (Same Valid)

structure Tracked (content : ProjectRevision → Arrangement) (events : Past) (session : Session) : Prop where
  recorded : ∀ moment ∈ moments events session, moment.1.val ≤ commitCount events ∧ Same moment.2 (content moment.1)
  valid : session.arrangement.Valid
  undo : Backward content (commitCount events) session.revision session.undo
  redo : Forward content (commitCount events) session.revision session.redo
  next : session.nextRevision.val = min (commitCount events + 1) 0xffffffffffffffff
  saved : session.savedRevision.val ≤ commitCount events ∧ Same (lastSaved events) (content session.savedRevision)
  limited : session.undo.length + session.redo.length ≤ session.historyLimit

def Permitted (earlier : Past) (event : Runs.Event Session Session.Action) : Prop :=
  (∀ limit, event.action = .setHistoryLimit limit →
    min limit event.before.undo.length + min limit event.before.redo.length ≤ limit) ∧
  (event.before.commits event.action = true → commitCount earlier + 1 < 0x10000000000000000)

theorem moments_concat (events : Past) (session after : Session) (action : Session.Action) :
    moments (events ++ [⟨session, action⟩]) after = moments events session ++ [(after.revision, after.arrangement)] := by
  simp [moments]

theorem commitCount_concat (events : Past) (session : Session) (action : Session.Action) :
    commitCount (events ++ [⟨session, action⟩]) = commitCount events + if session.commits action = true then 1 else 0 := by
  simp [commitCount, countP_append, countP_cons]

theorem lastSaved_concat (events : Past) (session : Session) (action : Session.Action) :
    lastSaved (events ++ [⟨session, action⟩]) = if saves action then session.arrangement else lastSaved events := by
  simp [lastSaved]

theorem saturatingSucc_val (count : U64) : (saturatingSucc count).val = min (count.val + 1) 0xffffffffffffffff := by
  unfold saturatingSucc
  cases next : checkedSucc count with
  | some following =>
    have := following.isLt
    rw [getD_some, checkedSucc_eq_some.mp next]
    have := checkedSucc_eq_some.mp next
    omega
  | none =>
    unfold checkedSucc at next
    split at next
    · cases next
    · have := count.isLt
      rw [getD_none]
      omega

variable {content : ProjectRevision → Arrangement} {events : Past} {session after : Session} {action : Session.Action}

section

variable (tracked : Tracked content events session)
include tracked

theorem Tracked.moved (quiet : session.commits action = false)
    (valid : after.arrangement.Valid) (known : after.revision.val ≤ commitCount events)
    (now : Same after.arrangement (content after.revision))
    (undo : Backward content (commitCount events) after.revision after.undo)
    (redo : Forward content (commitCount events) after.revision after.redo) (next : after.nextRevision = session.nextRevision)
    (saved : if saves action then after.savedRevision = session.revision else after.savedRevision = session.savedRevision)
    (limited : after.undo.length + after.redo.length ≤ after.historyLimit) :
    Tracked content (events ++ [⟨session, action⟩]) after := by
  have count : commitCount (events ++ [⟨session, action⟩]) = commitCount events := by
    rw [commitCount_concat, quiet]
    rfl
  have here := tracked.recorded (session.revision, session.arrangement) (mem_append_right _ (mem_singleton_self _))
  refine ⟨?_, valid, count ▸ undo, count ▸ redo, by rw [count, next, tracked.next], ?_, limited⟩
  · intro moment inside
    rw [moments_concat] at inside
    rw [count]
    rcases mem_append.mp inside with earlier | last
    · exact tracked.recorded moment earlier
    · cases mem_singleton.mp last
      exact ⟨known, now⟩
  · rw [count, lastSaved_concat]
    by_cases saving : saves action = true
    · rw [if_pos saving] at saved ⊢
      rw [saved]
      exact here
    · rw [if_neg saving] at saved ⊢
      rw [saved]
      exact tracked.saved

theorem Tracked.now :
    session.revision.val ≤ commitCount events ∧ Same session.arrangement (content session.revision) :=
  tracked.recorded (session.revision, session.arrangement) (mem_append_right _ (mem_singleton_self _))

theorem Tracked.unchanged (quiet : session.commits action = false)
    (other : saves action = false) (arrangement : after.arrangement = session.arrangement) (revision : after.revision = session.revision)
    (undo : after.undo = session.undo) (redo : after.redo = session.redo) (next : after.nextRevision = session.nextRevision)
    (saved : after.savedRevision = session.savedRevision) (limit : after.historyLimit = session.historyLimit) :
    Tracked content (events ++ [⟨session, action⟩]) after := by
  apply tracked.moved quiet
  · rw [arrangement]
    exact tracked.valid
  · rw [revision]
    exact tracked.now.1
  · rw [arrangement, revision]
    exact tracked.now.2
  · rw [undo, revision]
    exact tracked.undo
  · rw [redo, revision]
    exact tracked.redo
  · exact next
  · rw [other]
    exact saved
  · rw [undo, redo, limit]
    exact tracked.limited

theorem Tracked.undone :
    (∃ revision, session.undoCommand.1 = .ok revision) ∧ Tracked content (events ++ [⟨session, .undo⟩]) session.undoCommand.2 := by
  unfold undoCommand
  cases entries : session.undo with
  | nil => exact ⟨⟨none, rfl⟩, tracked.unchanged rfl rfl rfl rfl rfl rfl rfl rfl rfl⟩
  | cons entry undo =>
    have chain := tracked.undo
    rw [entries] at chain
    obtain ⟨after_eq, link, rest⟩ := chain
    obtain ⟨before, attempted, valid, same⟩ := link.undone (after_eq ▸ tracked.now.2)
    simp only [attempted]
    refine ⟨⟨_, rfl⟩, ?_⟩
    refine tracked.moved rfl valid link.before_le same rest ⟨rfl, link, after_eq ▸ tracked.redo⟩ rfl rfl ?_
    have limited := tracked.limited
    rw [entries, length_cons] at limited
    simp only [length_cons]
    omega

theorem Tracked.redone :
    (∃ revision, session.redoCommand.1 = .ok revision) ∧ Tracked content (events ++ [⟨session, .redo⟩]) session.redoCommand.2 := by
  unfold redoCommand
  cases entries : session.redo with
  | nil => exact ⟨⟨none, rfl⟩, tracked.unchanged rfl rfl rfl rfl rfl rfl rfl rfl rfl⟩
  | cons entry redo =>
    have chain := tracked.redo
    rw [entries] at chain
    obtain ⟨before_eq, link, rest⟩ := chain
    obtain ⟨after, attempted, valid, same⟩ := link.redone (before_eq ▸ tracked.now.2)
    simp only [attempted]
    refine ⟨⟨_, rfl⟩, ?_⟩
    refine tracked.moved rfl valid link.after_le same ?_ rest rfl rfl ?_
    · have grown : Backward content (commitCount events) entry.afterRevision (entry :: session.undo) :=
        ⟨rfl, link, before_eq ▸ tracked.undo⟩
      exact grown.take _
    · have limited := tracked.limited
      rw [entries, length_cons] at limited
      have cut : (trim (entry :: session.undo) session.historyLimit).length ≤ session.undo.length + 1 := by
        rw [trim, length_take, length_cons]
        omega
      simp only
      omega

theorem Tracked.committed {command : SessionCommand} {arrangement : Arrangement}
    (attempted : attempt command.changes session.arrangement true = .ok arrangement) (commits : session.commits action = true)
    (other : saves action = false) (room : commitCount events + 1 < 0x10000000000000000) (ids : IdAllocator) :
    ∃ content', Tracked content' (events ++ [⟨session, action⟩]) (commit { session with ids := ids } command arrangement) := by
  have fresh : session.nextRevision.val = commitCount events + 1 := by
    rw [tracked.next]
    omega
  have count : commitCount (events ++ [⟨session, action⟩]) = commitCount events + 1 := by
    rw [commitCount_concat, commits]
    rfl
  have valid := (attempt_ok.mp attempted).2
  have kept : ∀ revision : ProjectRevision, revision.val ≤ commitCount events →
      update content session.nextRevision arrangement revision = content revision := by
    intro revision known
    apply update_of_ne
    rintro rfl
    omega
  have now : update content session.nextRevision arrangement session.nextRevision = arrangement := update_self _ _ _
  have link : Link (update content session.nextRevision arrangement) (commitCount events + 1)
      ⟨command, session.revision, session.nextRevision⟩ := by
    refine link_of_attempt attempted (tracked.now.1.trans (Nat.le_succ _)) fresh.le tracked.valid ?_ ?_
    · rw [kept _ tracked.now.1]
      exact tracked.now.2
    · rw [now]
      exact valid.refl
  have chain : Backward (update content session.nextRevision arrangement) (commitCount events + 1) session.nextRevision
      (⟨command, session.revision, session.nextRevision⟩ :: session.undo) :=
    ⟨rfl, link, tracked.undo.mono (Nat.le_succ _) kept⟩
  refine ⟨update content session.nextRevision arrangement, ?_, valid, ?_, trivial, ?_, ?_, ?_⟩
  · intro moment inside
    rw [moments_concat] at inside
    rw [count]
    rcases mem_append.mp inside with earlier | last
    · have before := tracked.recorded moment earlier
      rw [kept _ before.1]
      exact ⟨before.1.trans (Nat.le_succ _), before.2⟩
    · cases mem_singleton.mp last
      refine ⟨fresh.le, ?_⟩
      change Same arrangement (update content session.nextRevision arrangement session.nextRevision)
      rw [now]
      exact valid.refl
  · rw [count]
    unfold commit
    simp only
    split
    · exact chain.take _
    · have limited := tracked.limited
      have empty : session.undo = [] := length_eq_zero_iff.mp (by omega)
      rw [empty]
      trivial
  · rw [count]
    change (saturatingSucc session.nextRevision).val = _
    rw [saturatingSucc_val, fresh]
  · rw [count, lastSaved_concat, other]
    have before := tracked.saved
    change session.savedRevision.val ≤ _ ∧ Same (lastSaved events) (update content session.nextRevision arrangement session.savedRevision)
    rw [kept _ before.1]
    exact ⟨before.1.trans (Nat.le_succ _), before.2⟩
  · have limited := tracked.limited
    unfold commit
    simp only [length_nil]
    split
    · rw [trim, length_take]
      omega
    · omega

end

def changed (outcome : Except SessionError CommandOutcome) : Bool := (outcome.map (·.changed)).toOption = some true

theorem Tracked.executed (tracked : Tracked content events session) (command : SessionCommand) (ids : IdAllocator)
    (other : saves action = false) (commits : session.commits action = changed ({ session with ids := ids }.execute command).1)
    (room : session.commits action = true → commitCount events + 1 < 0x10000000000000000) :
    ∃ content', Tracked content' (events ++ [⟨session, action⟩]) ({ session with ids := ids }.execute command).2 := by
  unfold execute at commits ⊢
  by_cases empty : command.isEmpty = true
  · rw [if_pos empty] at commits ⊢
    exact ⟨content, tracked.unchanged commits other rfl rfl rfl rfl rfl rfl rfl⟩
  · rw [if_neg empty] at commits ⊢
    simp only at commits ⊢
    cases attempted : attempt command.changes session.arrangement true with
    | error error =>
      rw [attempted] at commits
      exact ⟨content, tracked.unchanged commits other rfl rfl rfl rfl rfl rfl rfl⟩
    | ok arrangement =>
      rw [attempted] at commits
      have committed : session.commits action = true := commits
      exact tracked.committed attempted committed other (room committed) ids

theorem takeId_ids (session : Session) (kind : IdKind) : ∃ ids, (session.takeId kind).2 = { session with ids := ids } := by
  cases kind <;> exact ⟨_, rfl⟩

theorem creating_not_empty {creation : Session.Creation} {raw : U64} {command : SessionCommand}
    (creates : session.creating creation raw = .ok command) : command.isEmpty = false := by
  unfold creating at creates
  split at creates
  · cases creates
    rfl
  · split at creates
    · cases creates
    · cases creates
      exact Bool.and_false _
  · split at creates
    · cases creates
    · split at creates
      · cases creates
      · cases creates
        exact Bool.and_false _
  · cases creates
    rfl
  · split at creates
    · cases creates
    · split at creates
      · cases creates
      · cases creates
        rfl

/-- A creation that is rejected changes nothing but the identities; one that is not executes a command that changes something. -/
theorem create_cases (session : Session) (creation : Session.Creation) :
    (∃ error, session.create creation = (.error error, session)) ∨
      ∃ command ids, (session.create creation).2 = ({ session with ids := ids }.execute command).2 ∧
        (session.create creation).1.isOk = changed ({ session with ids := ids }.execute command).1 ∧
        ((session.create creation).1.isOk = false → (session.create creation).2 = { session with ids := ids }) := by
  obtain ⟨ids, taken⟩ := takeId_ids session creation.kind
  unfold create
  simp only [taken]
  cases creates : session.creating creation (session.takeId creation.kind).1 with
  | error error => exact .inl ⟨error, rfl⟩
  | ok command =>
    refine .inr ⟨command, ids, rfl, ?_⟩
    simp only
    unfold execute
    rw [if_neg (Bool.eq_false_iff.mp (creating_not_empty creates))]
    simp only
    cases attempt command.changes session.arrangement true with
    | error error => exact ⟨rfl, fun _ => rfl⟩
    | ok arrangement =>
      refine ⟨rfl, ?_⟩
      intro rejected
      cases rejected

theorem Tracked.limitedTo (tracked : Tracked content events session) {limit : Nat}
    (fits : min limit session.undo.length + min limit session.redo.length ≤ limit) :
    Tracked content (events ++ [⟨session, .setHistoryLimit limit⟩]) (session.setHistoryLimit limit) := by
  refine tracked.moved rfl tracked.valid tracked.now.1 tracked.now.2 (tracked.undo.take limit) (tracked.redo.take limit) rfl rfl ?_
  simp only [setHistoryLimit, trim, length_take]
  exact fits

theorem Tracked.performed (tracked : Tracked content events session) (action : Session.Action)
    (permitted : Permitted events ⟨session, action⟩) :
    ∃ content', Tracked content' (events ++ [⟨session, action⟩]) (session.perform action) := by
  cases action with
  | execute command => exact tracked.executed command session.ids rfl rfl permitted.2
  | create creation =>
    rcases create_cases session creation with ⟨error, rejected⟩ | ⟨command, ids, after, commits, -⟩
    · have quiet : session.commits (.create creation) = false := by
        rw [commits, rejected]
        rfl
      rw [perform, rejected]
      exact ⟨content, tracked.unchanged quiet rfl rfl rfl rfl rfl rfl rfl rfl⟩
    · rw [perform, after]
      exact tracked.executed command ids rfl commits permitted.2
  | undo => exact ⟨content, tracked.undone.2⟩
  | redo => exact ⟨content, tracked.redone.2⟩
  | markSaved => exact ⟨content, tracked.moved rfl tracked.valid tracked.now.1 tracked.now.2 tracked.undo tracked.redo rfl rfl tracked.limited⟩
  | setHistoryLimit limit => exact ⟨content, tracked.limitedTo (permitted.1 limit rfl)⟩

theorem tracked_new : Tracked (fun _ => .empty) [] new where
  recorded moment inside := by
    cases mem_singleton.mp inside
    exact ⟨le_rfl, Arrangement.valid_empty.refl⟩
  valid := Arrangement.valid_empty
  undo := trivial
  redo := trivial
  next := rfl
  saved := ⟨le_rfl, Arrangement.valid_empty.refl⟩
  limited := Nat.zero_le _

theorem run_tracked (run : Run perform (· = new) events session) (permitted : Run.Allowed Permitted events) :
    ∃ content, Tracked content events session := by
  refine run.history (fun events session => ∃ content, Tracked content events session) ?_ ?_ permitted
  · rintro _ rfl
    exact ⟨_, tracked_new⟩
  · rintro events session action ⟨content, tracked⟩ permitted
    exact tracked.performed action permitted

structure FaithfulWalk (events : Past) (session : Session) : Prop where
  valid : session.arrangement.validate = .ok ()
  undo_succeeds : ∃ revision, session.undoCommand.1 = .ok revision
  redo_succeeds : ∃ revision, session.redoCommand.1 = .ok revision
  revisions : ∀ first ∈ moments events session, ∀ second ∈ moments events session, first.1 = second.1 → Same first.2 second.2
  clean : session.isDirty = false → Same session.arrangement (lastSaved events)
  rejected : ∀ command error, (session.execute command).1 = .error error → (session.execute command).2 = session
  rejected_creation : ∀ creation, (session.create creation).1.isOk = false → ∃ ids, (session.create creation).2 = { session with ids := ids }
  limited : session.undo.length + session.redo.length ≤ session.historyLimit

theorem Tracked.faithful (tracked : Tracked content events session) : FaithfulWalk events session where
  valid := Arrangement.validate_ok.mpr tracked.valid
  undo_succeeds := tracked.undone.1
  redo_succeeds := tracked.redone.1
  revisions first firstInside second secondInside same := by
    have before := (tracked.recorded first firstInside).2
    have later := (tracked.recorded second secondInside).2
    rw [← same] at later
    exact before.trans later.symm
  clean clean := by
    have same : session.revision = session.savedRevision := by simpa [isDirty] using clean
    have now := tracked.now.2
    rw [same] at now
    exact now.trans tracked.saved.2.symm
  rejected command error failed := by
    unfold execute at failed ⊢
    by_cases empty : command.isEmpty = true
    · rw [if_pos empty]
    · rw [if_neg empty] at failed ⊢
      cases attempted : attempt command.changes session.arrangement true with
      | error error => rfl
      | ok arrangement =>
        rw [attempted] at failed
        cases failed
  rejected_creation creation failed := by
    rcases create_cases session creation with ⟨error, rejected⟩ | ⟨-, ids, -, -, unchanged⟩
    · exact ⟨session.ids, by rw [rejected]⟩
    · exact ⟨ids, unchanged failed⟩
  limited := tracked.limited

/-- In every run that sets no limit below the entries it leaves, and commits fewer than 2^64 commands, the history is a
    faithful tree walk at every moment. -/
theorem history_walk_faithful (run : Run Session.perform (· = Session.new) events session) (permitted : Run.Allowed Permitted events) :
    FaithfulWalk events session := by
  obtain ⟨content, tracked⟩ := run_tracked run permitted
  exact tracked.faithful

def createCluster : Session.Action := .create (.cluster "a")

theorem undone_cluster_walk_faithful :
    ∃ events session, Run Session.perform (· = Session.new) events session ∧
      events.map Runs.Event.action = [createCluster, .undo, .setHistoryLimit 1] ∧ Run.Allowed Permitted events ∧
      FaithfulWalk events session := by
  have opened : Run Session.perform (· = Session.new) [] Session.new := .start rfl
  have run := ((opened.step createCluster).step .undo).step (.setHistoryLimit 1)
  have created : Permitted [] ⟨Session.new, createCluster⟩ := by
    refine ⟨?_, fun _ => by decide⟩
    intro limit impossible
    cases impossible
  have undone : Permitted [⟨Session.new, createCluster⟩] ⟨Session.new.perform createCluster, .undo⟩ := by
    refine ⟨?_, fun _ => by decide⟩
    intro limit impossible
    cases impossible
  have limited : Permitted [⟨Session.new, createCluster⟩, ⟨Session.new.perform createCluster, .undo⟩]
      ⟨(Session.new.perform createCluster).perform .undo, .setHistoryLimit 1⟩ := by
    refine ⟨?_, fun _ => by decide⟩
    intro limit same
    cases same
    decide
  have permitted := ((Run.Allowed.nil.concat created).concat undone).concat limited
  exact ⟨_, _, run, rfl, permitted, history_walk_faithful run permitted⟩

def halvedHistory : List Session.Action :=
  [.create (.cluster "a"), .create (.cluster "b"), .create (.cluster "c"), .create (.cluster "d"), .undo, .undo, .setHistoryLimit 2]

/-- Both lists keep as many entries as the limit allows for them together. -/
theorem halved_history_exceeds_limit :
    ∃ events session, Run Session.perform (· = Session.new) events session ∧ events.map Runs.Event.action = halvedHistory ∧
      ¬ FaithfulWalk events session := by
  obtain ⟨events, run, actions⟩ := @Run.taking _ _ Session.perform (· = Session.new) Session.new rfl halvedHistory
  refine ⟨events, _, run, actions, ?_⟩
  intro walk
  have exceeds : ¬ (halvedHistory.foldl Session.perform Session.new).undo.length + (halvedHistory.foldl Session.perform Session.new).redo.length ≤
      (halvedHistory.foldl Session.perform Session.new).historyLimit := by
    decide
  exact exceeds walk.limited

end Audec.Session

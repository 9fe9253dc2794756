import Audec.Playback.Interleaving

/-! The audible audition is the one last asked for, unless a clear replaces a set that the renderer has not read. -/

open Machine Runs List

namespace Audec.Playback.Host

open Render

variable {host : Host}

def heard (host : Host) : Option TimelineAuditionId := host.renderer.activeAudition.map TimelineAudition.id

def outcome (host : Host) : Option TimelineAuditionId :=
  match host.mailbox.auditionIncoming with
  | none => host.heard
  | some envelope => (host.obey envelope).1.map TimelineAudition.id

def Quiet : HostAction → Prop
  | .setAudition _ | .clearAudition _ => False
  | _ => True

theorem same_outcome {after : Host} (incoming : after.mailbox.auditionIncoming = host.mailbox.auditionIncoming)
    (active : after.renderer.activeAudition = host.renderer.activeAudition)
    (desired : after.mailbox.desiredAudition = host.mailbox.desiredAudition) :
    after.outcome = host.outcome ∧ after.mailbox.desiredAudition = host.mailbox.desiredAudition := by
  refine ⟨?_, desired⟩
  unfold outcome heard obey
  rw [incoming, active]

section

variable (host : Host)

theorem renderFrame_auditions : (host.renderFrame.1).mailbox = host.mailbox ∧
    host.renderFrame.1.renderer.activeAudition = host.renderer.activeAudition := by
  simp only [renderFrame, selectProduct, reselect, noteSound, noteStarvation]
  grind

theorem resolve_auditions (boundary : PublicationBoundary) : (host.resolve boundary).mailbox = host.mailbox ∧
    (host.resolve boundary).renderer.activeAudition = host.renderer.activeAudition := by
  simp only [resolve, withdraw, activate]
  grind

theorem armTicket_auditions (ticket : PublicationTicket) :
    (host.armTicket ticket).1.mailbox.auditionIncoming = host.mailbox.auditionIncoming ∧
      (host.armTicket ticket).1.renderer.activeAudition = host.renderer.activeAudition ∧
        (host.armTicket ticket).1.mailbox.desiredAudition = host.mailbox.desiredAudition := by
  simp only [armTicket]
  grind

theorem takeAudition_outcome : host.takeAudition.outcome = host.outcome ∧
    host.takeAudition.mailbox.desiredAudition = host.mailbox.desiredAudition := by
  unfold takeAudition
  split
  · rename_i envelope _ incoming
    refine ⟨?_, rfl⟩
    rw [outcome, outcome, incoming]
    rfl
  · exact ⟨rfl, rfl⟩

theorem perform_outcome {action : HostAction} (quiet : Quiet action) :
    (host.perform action).outcome = host.outcome ∧
      (host.perform action).mailbox.desiredAudition = host.mailbox.desiredAudition := by
  cases action with
  | setAudition audition => exact quiet.elim
  | clearAudition audition => exact quiet.elim
  | takeAudition => exact host.takeAudition_outcome
  | armTicket ticket =>
    obtain ⟨incoming, active, desired⟩ := host.armTicket_auditions ticket
    exact same_outcome incoming active desired
  | resolve boundary =>
    obtain ⟨mailbox, active⟩ := host.resolve_auditions boundary
    exact same_outcome (congrArg _ mailbox) active (congrArg _ mailbox)
  | renderFrame =>
    obtain ⟨mailbox, active⟩ := host.renderFrame_auditions
    exact same_outcome (congrArg _ mailbox) active (congrArg _ mailbox)
  | flushReceipt =>
    refine same_outcome ?_ ?_ ?_ <;> simp only [perform, flushReceipt] <;> split <;> rfl
  | takeTicket =>
    refine same_outcome ?_ ?_ ?_ <;> simp only [perform, takeTicket] <;> split <;> rfl
  | flushAuditionReceipt =>
    refine same_outcome ?_ ?_ ?_ <;> simp only [perform, flushAuditionReceipt] <;> split <;> rfl
  | _ => exact ⟨rfl, rfl⟩

end

theorem quiet_outcome {actions : List HostAction} (quiet : ∀ action ∈ actions, Quiet action) (host : Host) :
    (actions.foldl perform host).outcome = host.outcome ∧
      (actions.foldl perform host).mailbox.desiredAudition = host.mailbox.desiredAudition := by
  induction actions generalizing host with
  | nil => exact ⟨rfl, rfl⟩
  | cons action actions tail =>
    obtain ⟨same, desired⟩ := host.perform_outcome (quiet action mem_cons_self)
    obtain ⟨same', desired'⟩ := tail (fun other later => quiet other (mem_cons_of_mem _ later)) (host.perform action)
    exact ⟨same'.trans same, desired'.trans desired⟩

theorem outcome_applied (applied : host.mailbox.auditionIncoming = none) : host.outcome = host.heard := by
  rw [outcome, applied]

/-- The steps that let the renderer read the command in the mailbox. -/
def settleSteps : List HostAction := [.drainAuditionReceipt, .flushAuditionReceipt, .takeAudition]

theorem settled (host : Host) : (settleSteps.foldl perform host).mailbox.auditionIncoming = none := by
  obtain ⟨⟨incoming, receipt, sequence, auditionIncoming, auditionReceipt, desired⟩, counters,
    ⟨active, fallback, stamp, timeline, position, product, previous, audition, ticket, pending, pendingAudition, starving⟩⟩ := host
  cases pendingAudition <;> cases auditionIncoming <;> rfl

theorem settleSteps_quiet : ∀ action ∈ settleSteps, Quiet action := by
  intro action member
  rcases mem_cons.mp member with rfl | member
  · trivial
  rcases mem_cons.mp member with rfl | member
  · trivial
  cases mem_singleton.mp member
  trivial

def Agrees (host : Host) : Prop :=
  ∀ actions : List HostAction, (∀ action ∈ actions, Quiet action) → (actions.foldl perform host).mailbox.auditionIncoming = none →
    (actions.foldl perform host).heard = (actions.foldl perform host).mailbox.desiredAudition

theorem agrees_iff : host.Agrees ↔ host.outcome = host.mailbox.desiredAudition := by
  constructor
  · intro agrees
    obtain ⟨same, desired⟩ := quiet_outcome settleSteps_quiet host
    rw [← same, ← desired, outcome_applied host.settled]
    exact agrees settleSteps settleSteps_quiet host.settled
  · intro same actions quiet applied
    obtain ⟨same', desired⟩ := quiet_outcome quiet host
    rw [← outcome_applied applied, same', desired]
    exact same

def Careful (host : Host) : HostAction → Prop
  | .clearAudition audition =>
    host.mailbox.desiredAudition = some audition → host.heard = none ∨ host.heard = some audition
  | _ => True

theorem setTimelineAudition_agrees (agrees : host.Agrees) (audition : TimelineAudition) :
    (host.setTimelineAudition audition).1.Agrees := by
  unfold setTimelineAudition
  split
  · exact agrees
  · split
    · exact agrees
    · exact agrees_iff.mpr rfl

theorem clear_other {audition : TimelineAuditionId} (other : host.mailbox.desiredAudition ≠ some audition) :
    host.clearTimelineAudition audition = host :=
  if_pos other

theorem obey_clear (host : Host) (audition : TimelineAuditionId) (applied : Bool) (active : Option TimelineAuditionId)
    (retired : Option TimelineAudition) : (host.obey ⟨.clearIfActive audition, applied, active, retired⟩).1.map TimelineAudition.id =
      if host.heard = some audition then none else host.heard := by
  unfold obey heard
  cases held : host.renderer.activeAudition with
  | none => simp
  | some current =>
    by_cases same : current.id = audition
    · simp [same]
    · simp [same]

theorem clear_outcome {audition : TimelineAuditionId} (desired : host.mailbox.desiredAudition = some audition) :
    (host.clearTimelineAudition audition).outcome = (if host.heard = some audition then none else host.heard) ∧
      (host.clearTimelineAudition audition).mailbox.desiredAudition = none := by
  rw [clearTimelineAudition, if_neg (not_not.mpr desired)]
  exact ⟨obey_clear host audition false none none, rfl⟩

theorem perform_agrees (agrees : host.Agrees) (action : HostAction) : (host.perform action).Agrees ↔ host.Careful action := by
  have quietly (quiet : Quiet action) : (host.perform action).Agrees := by
    obtain ⟨same, desired⟩ := host.perform_outcome quiet
    rw [agrees_iff, same, desired]
    exact agrees_iff.mp agrees
  cases action with
  | setAudition audition => exact iff_of_true (setTimelineAudition_agrees agrees audition) trivial
  | clearAudition audition =>
    by_cases desired : host.mailbox.desiredAudition = some audition
    · obtain ⟨same, wanted⟩ := clear_outcome desired
      rw [agrees_iff, Careful]
      show (host.clearTimelineAudition audition).outcome = (host.clearTimelineAudition audition).mailbox.desiredAudition ↔ _
      rw [same, wanted]
      split
      · rename_i own
        exact iff_of_true rfl fun _ => .inr own
      · rename_i other
        exact ⟨fun silent _ => .inl silent, fun careful => (careful desired).resolve_right other⟩
    · refine iff_of_true ?_ fun same => absurd same desired
      show (host.clearTimelineAudition audition).Agrees
      rw [clear_other desired]
      exact agrees
  | _ => exact iff_of_true (quietly trivial) trivial

theorem started_agrees (started : Started host) : host.Agrees := by
  obtain ⟨cohort, -, rfl⟩ := started_iff.mp started
  exact agrees_iff.mpr rfl

theorem agreement_exact : Exact perform Started Agrees Agrees Careful where
  base _ started := started_agrees started
  step _ action agrees := perform_agrees agrees action
  keep _ _ _ agrees := agrees

/-- The audible audition is the one last asked for along a run exactly when no clear of it replaces an unread set while another is heard.
    A clear of any other audition changes nothing, and the queued command can always be applied. -/
theorem agrees_iff_careful {events : List (Event Host HostAction)} (run : Run perform Started events host) :
    ((∀ event ∈ events, (event.before.perform event.action).Agrees) ↔ ∀ event ∈ events, event.before.Careful event.action) ∧
      (∀ audition, host.mailbox.desiredAudition ≠ some audition → host.perform (.clearAudition audition) = host) ∧
      ∃ actions : List HostAction, (∀ action ∈ actions, Quiet action) ∧
        (actions.foldl perform host).mailbox.auditionIncoming = none := by
  exact ⟨agreement_exact.everywhere run, fun _ other => clear_other other, settleSteps, settleSteps_quiet, host.settled⟩

section Example

def auditionOf (number : U64) : TimelineAudition :=
  ⟨⟨⟨0, number⟩, 0, plainRecipe⟩, .replace, ⟨.saturate 0, .saturate 1⟩, plainEngine.format, [0, 0]⟩

def takenOver : List HostAction :=
  [.setAudition (auditionOf 1), .takeAudition, .drainAuditionReceipt, .flushAuditionReceipt, .setAudition (auditionOf 2),
    .clearAudition (auditionOf 2).id]

/-- The first pane stays audible when every command has been applied, and no clear has any effect. -/
theorem takenOver_stranded : ∃ events host, Run perform Started events host ∧ host.mailbox.auditionIncoming = none ∧
    host.mailbox.desiredAudition = none ∧ host.heard = some (auditionOf 1).id ∧
      ∀ audition, host.perform (.clearAudition audition) = host := by
  refine ⟨_, _, Run.tracing (bounce_started 0) (takenOver ++ [.drainAuditionReceipt, .flushAuditionReceipt, .takeAudition]), ?_, ?_, ?_, ?_⟩
  · rfl
  · rfl
  · rfl
  · intro audition
    exact clear_other nofun

def clearedInTime : List HostAction :=
  [.setAudition (auditionOf 1), .takeAudition, .drainAuditionReceipt, .flushAuditionReceipt, .clearAudition (auditionOf 1).id]

theorem clearedInTime_agrees :
    (trace perform (.fresh (bounce 0)) clearedInTime).Forall fun event => (event.before.perform event.action).Agrees := by
  refine List.forall_iff_forall_mem.mpr ?_
  refine (agrees_iff_careful (Run.tracing (bounce_started 0) clearedInTime)).1.mpr fun event member => ?_
  rcases List.mem_cons.mp member with rfl | member
  · trivial
  rcases List.mem_cons.mp member with rfl | member
  · trivial
  rcases List.mem_cons.mp member with rfl | member
  · trivial
  rcases List.mem_cons.mp member with rfl | member
  · trivial
  cases List.mem_singleton.mp member
  exact fun _ => .inr rfl

end Example

end Audec.Playback.Host

import Audec.Playback.Interleaving
import Audec.Playback.Service

/-! Cohorts of one plan are published in the order of their sequences, unless a late one is staged. -/

open Machine Checked Runs List Option

namespace Audec.Playback

open Render

namespace RenderService

def default : RenderService := ⟨⟨false, none⟩, fun _ => none, none, none, none, none, none⟩

/-- Obsolete failures are ignored, which the answer tells. -/
def recordFailure (service : RenderService) (failure : RenderFailure) : RenderService × Bool :=
  if service.target = some failure.plan then ({ service with staged := none, targetFailure := some failure }, true)
  else (service, false)

end RenderService

inductive ServiceAction where
  | submitTarget (plan : RenderPlan)
  | stageCohort (cohort : PlaybackCohort)
  | updateTransport (transport : PublicationTransport)
  | armStaged
  | acknowledgePublication (cohort : PlaybackCohortId)
  | cancelPublication (cohort : PlaybackCohortId)
  | rejectPublication (cohort : PlaybackCohortId) (message : String)
  | recordFailure (failure : RenderFailure)

namespace RenderService

variable (service : RenderService)

def respond : ServiceAction → RenderService × PublicationAction
  | .submitTarget plan => ((service.submitTarget plan).toOption.getD service, .none)
  | .stageCohort cohort => (service.stageCohort cohort).toOption.getD (service, .none)
  | .updateTransport transport => service.updateTransport transport
  | .armStaged => service.armStaged
  | .acknowledgePublication cohort => (((service.acknowledgePublication cohort).map Prod.fst).toOption.getD service, .none)
  | .cancelPublication cohort => ((service.cancelPublication cohort).toOption.getD service, .none)
  | .rejectPublication cohort message => ((service.rejectPublication cohort message).toOption.getD service, .none)
  | .recordFailure failure => ((service.recordFailure failure).1, .none)

def perform (action : ServiceAction) : RenderService := (service.respond action).1

def takesBack : ServiceAction → Bool
  | .cancelPublication cohort => (service.cancelPublication cohort).isOk
  | .rejectPublication cohort message => (service.rejectPublication cohort message).isOk
  | _ => false

def activates : ServiceAction → Option PlaybackCohort
  | .acknowledgePublication cohort => (service.acknowledgePublication cohort).toOption.bind fun answer => answer.1.active
  | _ => none

def Offered (action : ServiceAction) (cohort : PlaybackCohort) : Prop :=
  service.staged = some cohort ∨
    action = .stageCohort cohort ∧ service.target = some cohort.id.plan ∧ (cohort.isReady = true ∨ service.active.isSome = true)

inductive Responded (action : ServiceAction) : RenderService → Option PlaybackCohort → Bool → Prop
  | kept {after : RenderService} (flight : after.publicationInFlight = service.publicationInFlight) (active : after.active = service.active)
      (staged : ∀ cohort, after.staged = some cohort →
        service.Offered action cohort ∧ (after.target = service.target ∨ after.target = some cohort.id.plan)) :
      Responded action after none false
  | armed {after : RenderService} {cohort : PlaybackCohort} (idle : service.publicationInFlight = none)
      (offered : service.Offered action cohort) (flight : after.publicationInFlight = some cohort) (active : after.active = service.active)
      (target : after.target = service.target) (staged : after.staged = none) : Responded action after (some cohort) false
  | acknowledged {after : RenderService} {cohort : PlaybackCohort} (flying : service.publicationInFlight = some cohort)
      (idle : after.publicationInFlight = none) (active : after.active = some cohort) (target : after.target = service.target)
      (staged : after.staged = service.staged) : Responded action after none false
  | takenBack {after : RenderService} {cohort : PlaybackCohort} (flying : service.publicationInFlight = some cohort)
      (idle : after.publicationInFlight = none) (active : after.active = service.active) (target : after.target = service.target)
      (staged : after.staged = service.staged) : Responded action after none true

variable {service}

theorem Responded.same {action : ServiceAction} : Responded service action service none false :=
  .kept rfl rfl fun _ staged => ⟨.inl staged, .inl rfl⟩

theorem armStaged_responded {before : RenderService} {action : ServiceAction} (flight : before.publicationInFlight = service.publicationInFlight)
    (active : before.active = service.active) (target : before.target = service.target)
    (staged : ∀ cohort, before.staged = some cohort → service.Offered action cohort) :
    Responded service action before.armStaged.1 before.armStaged.2.cohort false := by
  have kept : Responded service action before none false := .kept flight active fun cohort held => ⟨staged cohort held, .inl target⟩
  unfold armStaged
  cases flying : before.publicationInFlight with
  | some cohort => exact kept
  | none =>
    cases held : before.staged with
    | none => exact kept
    | some cohort =>
      dsimp only
      cases before.gateFor cohort with
      | none => exact kept
      | some gate => exact .armed (flight.symm.trans flying) (staged cohort held) rfl active target rfl

variable {cohort : PlaybackCohort}

theorem stageCohort_ok {answer : RenderService × PublicationAction}
    (done : service.stageCohort cohort = .ok answer) :
    service.target = some cohort.id.plan ∧ (cohort.isReady = true ∨ service.active.isSome = true) ∧
      (answer = (service, .none) ∨ answer = { service with staged := some cohort, targetFailure := none }.armStaged) := by
  unfold stageCohort at done
  split at done
  · cases done
  next target held =>
    obtain ⟨same, done⟩ := bind_unit_ok.mp done
    obtain ⟨backed, done⟩ := bind_unit_ok.mp done
    refine ⟨(ensure_ok.mp same) ▸ held, ensure_ok.mp backed, ?_⟩
    split at done
    · cases done
      exact .inl rfl
    · cases done
      exact .inr rfl

theorem inFlight_ok {id : PlaybackCohortId} (done : service.inFlight id = .ok cohort) :
    service.publicationInFlight = some cohort := by
  unfold inFlight at done
  split at done
  · cases done
  next flying =>
    split at done
    · cases done
    · cases done
      exact flying

theorem respond_spec (service : RenderService) (action : ServiceAction) :
    Responded service action (service.respond action).1 (service.respond action).2.cohort (service.takesBack action) := by
  cases action with
  | submitTarget plan =>
    dsimp only [respond, takesBack]
    unfold submitTarget
    split
    · exact .same
    · refine .kept rfl rfl fun cohort held => ?_
      obtain ⟨staged, same⟩ := filter_eq_some_iff.mp held
      exact ⟨.inl staged, .inr (congrArg some (of_decide_eq_true same).symm)⟩
  | stageCohort cohort =>
    dsimp only [respond, takesBack]
    cases done : service.stageCohort cohort with
    | error error => exact .same
    | ok answer =>
      obtain ⟨target, backed, rfl | rfl⟩ := stageCohort_ok done
      · exact .same
      · have offered : ∀ staged, some cohort = some staged → service.Offered (.stageCohort cohort) staged := by
          intro staged held
          cases held
          exact .inr ⟨rfl, target, backed⟩
        exact @armStaged_responded service { service with staged := some cohort, targetFailure := none } _ rfl rfl rfl offered
  | updateTransport transport => exact @armStaged_responded service _ _ rfl rfl rfl fun _ => .inl
  | armStaged => exact armStaged_responded rfl rfl rfl fun _ => .inl
  | acknowledgePublication id =>
    dsimp only [respond, takesBack]
    unfold acknowledgePublication
    cases flying : service.inFlight id with
    | error error => exact .same
    | ok cohort => exact .acknowledged (inFlight_ok flying) rfl rfl rfl rfl
  | cancelPublication id =>
    dsimp only [respond, takesBack]
    unfold cancelPublication
    cases flying : service.inFlight id with
    | error error => exact .same
    | ok cohort => exact .takenBack (inFlight_ok flying) rfl rfl rfl rfl
  | rejectPublication id message =>
    dsimp only [respond, takesBack]
    unfold rejectPublication
    cases flying : service.inFlight id with
    | error error => exact .same
    | ok cohort => exact .takenBack (inFlight_ok flying) rfl rfl rfl rfl
  | recordFailure failure =>
    dsimp only [respond, takesBack]
    unfold recordFailure
    split
    · exact .kept rfl rfl fun cohort held => by cases held
    · exact .same

theorem activates_inFlight {action : ServiceAction} (activated : service.activates action = some cohort) :
    service.publicationInFlight = some cohort := by
  cases action with
  | acknowledgePublication id =>
    dsimp only [activates, acknowledgePublication] at activated
    cases flying : service.inFlight id with
    | error error =>
      rw [flying] at activated
      cases activated
    | ok held =>
      rw [flying] at activated
      cases activated
      exact inFlight_ok flying
  | _ => cases activated

end RenderService

open RenderService

abbrev ServiceEvent := Event RenderService ServiceAction

namespace ServiceEvent

def arms (event : ServiceEvent) : Option PlaybackCohort := (event.before.respond event.action).2.cohort

def activates (event : ServiceEvent) : Option PlaybackCohort := event.before.activates event.action

def stand (standing : List PlaybackCohort) (event : ServiceEvent) : List PlaybackCohort :=
  if event.before.takesBack event.action then standing.dropLast else standing ++ event.arms.toList

end ServiceEvent

open ServiceEvent

def standing (events : List ServiceEvent) : List PlaybackCohort := events.foldl stand []

def UpToDate (standing : List PlaybackCohort) (cohort : PlaybackCohort) : Prop :=
  ∀ older ∈ standing, older.id.plan = cohort.id.plan → ¬ cohort.id.sequence < older.id.sequence

def Forward (events : List ServiceEvent) : Prop :=
  ∀ earlier event later, events = earlier ++ event :: later →
    ∀ cohort, event.arms = some cohort ∨ event.activates = some cohort → UpToDate (standing earlier) cohort

def InTurn (earlier : List ServiceEvent) (event : ServiceEvent) : Prop :=
  ∀ cohort, event.action = .stageCohort cohort → event.before.target = some cohort.id.plan → UpToDate (standing earlier) cohort

structure Staged (service : RenderService) : Prop where
  target : ∀ cohort, service.staged = some cohort → service.target = some cohort.id.plan
  backed : ∀ cohort, service.staged = some cohort → cohort.isReady = true ∨ service.active.isSome = true

namespace Staged

variable {service : RenderService} (staged : Staged service) {action : ServiceAction}

include staged

theorem offered_target {cohort : PlaybackCohort} (offered : service.Offered action cohort) : service.target = some cohort.id.plan := by
  rcases offered with held | ⟨-, target, -⟩
  · exact staged.target cohort held
  · exact target

theorem offered_backed {cohort : PlaybackCohort} (offered : service.Offered action cohort) :
    cohort.isReady = true ∨ service.active.isSome = true := by
  rcases offered with held | ⟨-, -, backed⟩
  · exact staged.backed cohort held
  · exact backed

theorem perform (action : ServiceAction) : Staged (service.perform action) := by
  unfold RenderService.perform
  have responded := respond_spec service action
  generalize service.respond action = answer at responded ⊢
  generalize answer.2.cohort = armed at responded
  generalize service.takesBack action = back at responded
  cases responded with
  | kept _ active held =>
    refine ⟨fun cohort here => ?_, fun cohort here => ?_⟩
    · obtain ⟨offered, target | target⟩ := held cohort here
      · exact target.trans (staged.offered_target offered)
      · exact target
    · rw [active]
      exact staged.offered_backed (held cohort here).1
  | armed _ _ _ _ _ empty => exact ⟨fun _ here => (by cases empty.symm.trans here), fun _ here => (by cases empty.symm.trans here)⟩
  | acknowledged _ _ active target same =>
    refine ⟨fun cohort here => target.trans (staged.target cohort (same ▸ here)), fun _ _ => .inr ?_⟩
    rw [active]
    rfl
  | takenBack _ _ active target same =>
    refine ⟨fun cohort here => target.trans (staged.target cohort (same ▸ here)), fun cohort here => ?_⟩
    rw [active]
    exact staged.backed cohort (same ▸ here)

theorem arms {cohort : PlaybackCohort} (armed : (service.respond action).2.cohort = some cohort) :
    (service.perform action).target = some cohort.id.plan ∧ (cohort.isReady = false → service.active.isSome = true) := by
  unfold RenderService.perform
  have responded := respond_spec service action
  rw [armed] at responded
  generalize service.takesBack action = back at responded
  cases responded with
  | armed _ offered _ _ target _ =>
    refine ⟨target.trans (staged.offered_target offered), fun incomplete => ?_⟩
    exact (staged.offered_backed offered).resolve_left (Bool.eq_false_iff.mp incomplete)

end Staged

/-- The cohorts standing are in order within each plan, the one in flight is the last of them, and the one staged may follow. -/
structure Ordered (events : List ServiceEvent) (service : RenderService) : Prop where
  pairwise : (standing events).Pairwise fun older newer => older.id.plan = newer.id.plan → ¬ newer.id.sequence < older.id.sequence
  flight : ∀ cohort, service.publicationInFlight = some cohort → ∃ front, standing events = front ++ [cohort]
  staged : ∀ cohort, service.staged = some cohort → UpToDate (standing events) cohort

namespace Ordered

variable {events : List ServiceEvent} {service : RenderService} (ordered : Ordered events service) {action : ServiceAction}

include ordered

theorem offered (inTurn : InTurn events ⟨service, action⟩) {cohort : PlaybackCohort} (offered : service.Offered action cohort) :
    UpToDate (standing events) cohort := by
  rcases offered with held | ⟨rfl, target, -⟩
  · exact ordered.staged cohort held
  · exact inTurn cohort rfl target

theorem perform (inTurn : InTurn events ⟨service, action⟩) : Ordered (events ++ [⟨service, action⟩]) (service.perform action) := by
  have stands : standing (events ++ [⟨service, action⟩]) =
      if service.takesBack action then (standing events).dropLast else standing events ++ (service.respond action).2.cohort.toList :=
    foldl_concat ..
  have upToDate : ∀ cohort, service.Offered action cohort → UpToDate (standing events) cohort := fun _ => ordered.offered inTurn
  have responded := respond_spec service action
  unfold RenderService.perform
  generalize service.respond action = answer at responded stands ⊢
  generalize answer.2.cohort = armed at responded stands
  generalize service.takesBack action = back at responded stands
  cases responded with
  | kept flight _ held =>
    rw [if_neg Bool.false_ne_true, toList_none, append_nil] at stands
    refine ⟨stands ▸ ordered.pairwise, fun cohort flying => ?_, fun cohort here => ?_⟩
    · rw [stands]
      exact ordered.flight cohort (flight ▸ flying)
    · rw [stands]
      exact upToDate cohort (held cohort here).1
  | @armed cohort _ offered flight _ _ empty =>
    rw [if_neg Bool.false_ne_true, toList_some] at stands
    refine ⟨?_, fun flying here => ?_, fun _ here => (by cases empty.symm.trans here)⟩
    · rw [stands, pairwise_append]
      refine ⟨ordered.pairwise, pairwise_singleton _ _, fun older member newer last => ?_⟩
      cases mem_singleton.mp last
      exact upToDate cohort offered older member
    · cases flight.symm.trans here
      exact ⟨_, stands⟩
  | acknowledged _ idle _ _ same =>
    rw [if_neg Bool.false_ne_true, toList_none, append_nil] at stands
    refine ⟨stands ▸ ordered.pairwise, fun _ flying => (by cases idle.symm.trans flying), fun cohort here => ?_⟩
    rw [stands]
    exact ordered.staged cohort (same ▸ here)
  | takenBack _ idle _ _ same =>
    rw [if_pos rfl] at stands
    refine ⟨?_, fun _ flying => (by cases idle.symm.trans flying), fun cohort here older member => ?_⟩
    · rw [stands]
      exact ordered.pairwise.sublist (dropLast_sublist _)
    · rw [stands] at member
      exact ordered.staged cohort (same ▸ here) older (dropLast_subset _ member)

theorem upToDate (inTurn : InTurn events ⟨service, action⟩) {cohort : PlaybackCohort}
    (published : ServiceEvent.arms ⟨service, action⟩ = some cohort ∨ ServiceEvent.activates ⟨service, action⟩ = some cohort) :
    UpToDate (standing events) cohort := by
  rcases published with armed | activated
  · have responded := respond_spec service action
    rw [show (service.respond action).2.cohort = some cohort from armed] at responded
    generalize service.takesBack action = back at responded
    cases responded with
    | armed _ offered => exact ordered.offered inTurn offered
  · obtain ⟨front, stands⟩ := ordered.flight cohort (activates_inFlight activated)
    intro older member same
    have pairwise := ordered.pairwise
    rw [stands] at member pairwise
    rcases mem_append.mp member with before | last
    · exact (pairwise_append.mp pairwise).2.2 older before cohort mem_cons_self same
    · cases mem_singleton.mp last
      exact lt_irrefl _

end Ordered

variable {events : List ServiceEvent} {service : RenderService}

theorem staged_run (run : Run perform (· = .default) events service) : Staged service :=
  @Run.invariant _ _ _ _ _ _ Staged (fun _ => True)
    (fun _ init => ⟨fun _ held => (by rw [init] at held; cases held), fun _ held => (by rw [init] at held; cases held)⟩)
    (fun _ action staged _ => staged.perform action) run fun _ _ => trivial

theorem ordered_run (run : Run perform (· = .default) events service) (inTurn : Run.Allowed InTurn events) : Ordered events service := by
  refine run.history Ordered (fun state init => ?_) (fun _ _ _ ordered now => ordered.perform now) inTurn
  cases init
  exact ⟨List.Pairwise.nil, fun _ held => (by cases held), fun _ held => (by cases held)⟩

section Example

def shortRenderPlan : RenderPlan := ⟨shortPlan, .bitExact, .stateless⟩

/-- The whole timeline in one product, at a place in the order of publication. -/
def bounceAt (sequence : U64) : PlaybackCohort := madeCohort sequence [masterSlot 0 4] [masterEntry .wholeBounce 0 4 0]

def inTurn : List ServiceAction :=
  [.submitTarget shortRenderPlan, .stageCohort (bounceAt 1), .acknowledgePublication ⟨shortPlan, 1⟩]

/-- The first cohort arrives while the second is in flight, and is armed when that has become active. -/
def late : List ServiceAction :=
  [.submitTarget shortRenderPlan, .stageCohort (bounceAt 2), .stageCohort (bounceAt 1), .acknowledgePublication ⟨shortPlan, 2⟩]

end Example

end Audec.Playback

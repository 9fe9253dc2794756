import Audec.Playback.Audition
import Audec.Playback.Service

/-! The publication handshake: the control side and the renderer agree on the active cohort, and every ticket is answered once. -/

open Machine Checked Runs List Option

namespace Audec.Playback

open Render Host RenderRuntime

inductive RendererStep where
  | flushReceipt
  | takeTicket
  | resolve (boundary : PublicationBoundary)
  | flushAuditionReceipt
  | takeAudition
  | locate (frame : U64)
  | renderFrame

def RendererStep.action : RendererStep → HostAction
  | flushReceipt => .flushReceipt
  | takeTicket => .takeTicket
  | resolve boundary => .resolve boundary
  | flushAuditionReceipt => .flushAuditionReceipt
  | takeAudition => .takeAudition
  | locate frame => .locate frame
  | renderFrame => .renderFrame

/-- Both sides, and the action that the controller has been handed but not got accepted. -/
structure Controller where
  runtime : RenderRuntime
  host : Host
  held : Option PublicationTicket
  refused : Bool

inductive Move where
  | submitTarget (plan : RenderPlan)
  | stageWholeBounce (plan : RenderPlanId) (product : RenderProduct) (transport : PublicationTransport)
      (evicted : RenderProductId → List RenderProductId)
  | stageTileCohort (draft : TileCohortDraft) (transport : PublicationTransport) (evicted : RenderProductId → List RenderProductId)
  | updateTransport (transport : PublicationTransport)
  | armStaged
  | armAction
  | cancelPublication (cohort : PlaybackCohortId)
  | pollPublication
  | rejectPublication (message : String)
  | renderer (step : RendererStep)

namespace Controller

variable (controller : Controller)

def call : Move → RenderRuntime × PublicationAction
  | .submitTarget plan => ((controller.runtime.submitTarget plan).1, .none)
  | .stageWholeBounce plan product transport evicted =>
    let staged := controller.runtime.stageWholeBounce plan product transport evicted
    (staged.1, staged.2.toOption.getD .none)
  | .stageTileCohort draft transport evicted =>
    let staged := controller.runtime.stageTileCohort draft transport evicted
    (staged.1, staged.2.toOption.getD .none)
  | .updateTransport transport =>
    let armed := controller.runtime.service.updateTransport transport
    ({ controller.runtime with service := armed.1 }, armed.2)
  | .armStaged =>
    let armed := controller.runtime.service.armStaged
    ({ controller.runtime with service := armed.1 }, armed.2)
  | _ => (controller.runtime, .none)

def receive (runtime : RenderRuntime) : PublicationAction → Controller
  | .none => { controller with runtime }
  | .arm ticket => { controller with runtime, held := some ticket, refused := false }

def perform : Move → Controller
  | .armAction =>
    match controller.held with
    | none => controller
    | some ticket =>
      match controller.host.armTicket ticket with
      | (host, .ok ()) => { controller with host, held := none, refused := false }
      | (host, .error _) => { controller with host, refused := true }
  | .cancelPublication cohort => { controller with host := controller.host.cancelPublication cohort }
  | .pollPublication =>
    let polled := controller.runtime.pollPublication controller.host
    { controller with runtime := polled.1, host := polled.2.1 }
  | .rejectPublication message =>
    match controller.held, controller.refused with
    | some ticket, true =>
      match controller.runtime.service.rejectPublication ticket.cohort.id message with
      | .ok service => { controller with runtime.service := service, held := none, refused := false }
      | .error _ => controller
    | _, _ => controller
  | .renderer step => { controller with host := controller.host.perform step.action }
  | move => controller.receive (controller.call move).1 (controller.call move).2

end Controller

def PublicationCompletion.cohort : PublicationCompletion → PlaybackCohortId
  | activated active _ => active
  | cancelled cohort => cohort

def Bootstrapped (controller : Controller) : Prop :=
  controller.held = none ∧ ∃ (runtime staged : RenderRuntime) (action : PublicationAction),
    ((∃ plan product evicted, runtime.stageWholeBounce plan product ⟨false, none⟩ evicted = (staged, .ok action)) ∨
      ∃ draft evicted, runtime.stageTileCohort draft ⟨false, none⟩ evicted = (staged, .ok action)) ∧
    staged.bootstrapStagedAction action = .ok (controller.runtime, controller.host)

section Service

/-- What a call does to the handshake's part of the service: nothing, or it puts the cohort of the ticket it hands out in flight. -/
def Hands (service after : RenderService) (action : PublicationAction) : Prop :=
  after.active = service.active ∧
    ((action = .none ∧ after.publicationInFlight = service.publicationInFlight) ∨
      ∃ ticket, action = .arm ticket ∧ service.publicationInFlight = none ∧ after.publicationInFlight = some ticket.cohort ∧
        ∀ region, service.active.isSome → after.transport = ⟨true, some region⟩ → ticket.gate = .loopWrap region)

variable {service : RenderService}

theorem Hands.nothing : Hands service service .none := ⟨rfl, .inl ⟨rfl, rfl⟩⟩

theorem gateFor_loop {cohort : PlaybackCohort} {gate : PublicationGate} {region : RenderSpan}
    (active : service.active.isSome = true) (rolling : service.transport = ⟨true, some region⟩) (chosen : service.gateFor cohort = some gate) :
    gate = .loopWrap region := by
  unfold RenderService.gateFor at chosen
  rw [rolling, if_neg Bool.noConfusion, if_neg (by simpa using isSome_iff_ne_none.mp active)] at chosen
  dsimp only at chosen
  split at chosen
  · cases chosen
  · cases chosen
    exact rfl

theorem armStaged_hands (service : RenderService) : Hands service service.armStaged.1 service.armStaged.2 := by
  unfold RenderService.armStaged
  cases flying : service.publicationInFlight with
  | some cohort => exact .nothing
  | none =>
    cases staged : service.staged with
    | none => exact .nothing
    | some cohort =>
      dsimp only
      cases chosen : service.gateFor cohort with
      | none => exact .nothing
      | some gate =>
        refine ⟨rfl, .inr ⟨_, rfl, flying, rfl, fun region active rolling => ?_⟩⟩
        exact gateFor_loop active rolling chosen

theorem Hands.of_same {before after : RenderService} {action : PublicationAction} (hands : Hands before after action)
    (active : before.active = service.active) (flying : before.publicationInFlight = service.publicationInFlight) :
    Hands service after action := by
  unfold Hands at hands ⊢
  rw [← active, ← flying]
  exact hands

theorem stageCohortForTransport_hands (service : RenderService) (cohort : PlaybackCohort) (transport : PublicationTransport) :
    Hands service (service.stageCohortForTransport cohort transport).1
      ((service.stageCohortForTransport cohort transport).2.toOption.getD .none) := by
  unfold RenderService.stageCohortForTransport
  dsimp only
  cases result : ({ service with transport } : RenderService).stageCohort cohort with
  | error error => exact Hands.nothing.of_same (rfl) (rfl)
  | ok staged =>
    unfold RenderService.stageCohort at result
    split at result
    · cases result
    · obtain ⟨-, result⟩ := bind_unit_ok.mp result
      obtain ⟨-, result⟩ := bind_unit_ok.mp result
      split at result
      · cases result
        exact Hands.nothing.of_same (rfl) (rfl)
      · cases result
        exact (armStaged_hands _).of_same (rfl) (rfl)

theorem submitTarget_hands (runtime : RenderRuntime) (plan : RenderPlan) :
    Hands runtime.service (runtime.submitTarget plan).1.service .none := by
  unfold submitTarget
  split
  · exact .nothing
  · dsimp only
    cases result : runtime.service.submitTarget plan with
    | error error => exact .nothing
    | ok service =>
      unfold RenderService.submitTarget at result
      split at result
      · cases result
      · cases result
        exact Hands.nothing.of_same (rfl) (rfl)

theorem stageNext_hands (runtime : RenderRuntime) (plan : RenderPlanId) (required : List RenderSlot) (products : List CohortProduct)
    (transport : PublicationTransport) (check : PlaybackCohort → Except RenderRuntimeError Unit) :
    Hands runtime.service (runtime.stageNext plan required products transport check).1.service
      ((runtime.stageNext plan required products transport check).2.toOption.getD .none) := by
  unfold stageNext
  split
  · exact .nothing
  · rename_i sequence _
    dsimp only
    split
    · exact .nothing
    · rename_i cohort _
      split
      · exact .nothing
      · have staged := stageCohortForTransport_hands runtime.service cohort transport
        cases result : (runtime.service.stageCohortForTransport cohort transport).2 with
        | ok action =>
          rw [result] at staged
          exact staged
        | error error =>
          rw [result] at staged
          exact staged

theorem adoptProduct_service {runtime after : RenderRuntime} {product adopted : RenderProduct} {evicted : List RenderProductId}
    (done : runtime.adoptProduct product evicted = .ok (after, adopted)) : after.service = runtime.service := by
  unfold adoptProduct at done
  split at done
  · split at done
    · cases done
    · split at done <;> (cases done; exact rfl)
  · cases done
    exact rfl

theorem adoptProducts_service (evicted : RenderProductId → List RenderProductId) (runtime : RenderRuntime) (products : List CohortProduct) :
    (adoptProducts evicted runtime products).1.service = runtime.service := by
  induction products generalizing runtime with
  | nil => exact rfl
  | cons entry rest tail =>
    unfold adoptProducts
    split
    · exact rfl
    · rename_i after product adopted
      exact (tail after).trans (adoptProduct_service adopted)

theorem stageWholeBounce_hands (runtime : RenderRuntime) (plan : RenderPlanId) (product : RenderProduct) (transport : PublicationTransport)
    (evicted : RenderProductId → List RenderProductId) :
    Hands runtime.service (runtime.stageWholeBounce plan product transport evicted).1.service
      ((runtime.stageWholeBounce plan product transport evicted).2.toOption.getD .none) := by
  unfold stageWholeBounce
  dsimp only
  split
  · exact .nothing
  · split
    · exact .nothing
    · rename_i after adopted result
      have same := adoptProduct_service result
      split
      · exact Hands.nothing.of_same (congrArg _ same) (congrArg _ same)
      · exact (stageNext_hands after _ _ _ _ _).of_same (congrArg _ same) (congrArg _ same)

theorem stageTileCohort_hands (runtime : RenderRuntime) (draft : TileCohortDraft) (transport : PublicationTransport)
    (evicted : RenderProductId → List RenderProductId) :
    Hands runtime.service (runtime.stageTileCohort draft transport evicted).1.service
      ((runtime.stageTileCohort draft transport evicted).2.toOption.getD .none) := by
  unfold stageTileCohort
  have same := adoptProducts_service evicted runtime draft.products
  split
  · exact .nothing
  · cases adopted : adoptProducts evicted runtime draft.products with
    | mk after result =>
      rw [adopted] at same
      cases result with
      | error error => exact Hands.nothing.of_same (congrArg _ same) (congrArg _ same)
      | ok products => exact (stageNext_hands after _ _ _ _ _).of_same (congrArg _ same) (congrArg _ same)

theorem call_hands (controller : Controller) (move : Move) :
    Hands controller.runtime.service (controller.call move).1.service (controller.call move).2 := by
  cases move with
  | submitTarget plan => exact submitTarget_hands _ plan
  | stageWholeBounce plan product transport evicted => exact stageWholeBounce_hands _ plan product transport evicted
  | stageTileCohort draft transport evicted => exact stageTileCohort_hands _ draft transport evicted
  | updateTransport transport => exact (armStaged_hands _).of_same (rfl) (rfl)
  | armStaged => exact armStaged_hands _
  | _ => exact .nothing

end Service

section Agreement

/-- What the handshake is about: the cohorts of both sides, and where the one in flight is. -/
structure View where
  active : Option PlaybackCohort
  flying : Option PlaybackCohort
  held : Option PublicationTicket
  incoming : Option PublicationEnvelope
  taken : Option PublicationEnvelope
  answered : Option PublicationEnvelope
  returned : Option PublicationEnvelope
  playing : PlaybackCohort

def Controller.view (controller : Controller) : View where
  active := controller.runtime.service.active
  flying := controller.runtime.service.publicationInFlight
  held := controller.held
  incoming := controller.host.mailbox.incoming
  taken := controller.host.renderer.pendingTicket
  answered := controller.host.renderer.pendingReceipt
  returned := controller.host.mailbox.receipt
  playing := controller.host.renderer.active

def PublicationTicket.sent (ticket : PublicationTicket) : PublicationEnvelope := ⟨ticket, none, none, .pending⟩

def Answers (cohort : PlaybackCohort) (envelope : PublicationEnvelope) (playing : PlaybackCohort) : Prop :=
  (envelope.outcome = .cancelled ∧ envelope.retired = none ∧ playing = cohort) ∨
    (envelope.outcome = .activated ∧ envelope.retired = some cohort ∧ playing = envelope.ticket.cohort)

inductive Agreed : View → Prop where
  | idle (cohort : PlaybackCohort) : Agreed ⟨some cohort, none, none, none, none, none, none, cohort⟩
  | held (cohort : PlaybackCohort) (ticket : PublicationTicket) :
      Agreed ⟨some cohort, some ticket.cohort, some ticket, none, none, none, none, cohort⟩
  | incoming (cohort : PlaybackCohort) (ticket : PublicationTicket) :
      Agreed ⟨some cohort, some ticket.cohort, none, some ticket.sent, none, none, none, cohort⟩
  | taken (cohort : PlaybackCohort) (ticket : PublicationTicket) :
      Agreed ⟨some cohort, some ticket.cohort, none, none, some ticket.sent, none, none, cohort⟩
  | answered (cohort : PlaybackCohort) (envelope : PublicationEnvelope) (playing : PlaybackCohort)
      (answer : Answers cohort envelope playing) :
      Agreed ⟨some cohort, some envelope.ticket.cohort, none, none, none, some envelope, none, playing⟩
  | returned (cohort : PlaybackCohort) (envelope : PublicationEnvelope) (playing : PlaybackCohort)
      (answer : Answers cohort envelope playing) :
      Agreed ⟨some cohort, some envelope.ticket.cohort, none, none, none, none, some envelope, playing⟩

namespace Agreed

variable {view : View}

theorem of_free (agreed : Agreed view) (free : view.flying = none) :
    ∃ cohort, view = ⟨some cohort, none, none, none, none, none, none, cohort⟩ := by
  cases agreed with
  | idle cohort => exact ⟨cohort, rfl⟩
  | _ => cases free

theorem of_held (agreed : Agreed view) {ticket : PublicationTicket} (held : view.held = some ticket) :
    ∃ cohort, view = ⟨some cohort, some ticket.cohort, some ticket, none, none, none, none, cohort⟩ := by
  cases agreed with
  | held cohort other =>
    cases held
    exact ⟨cohort, rfl⟩
  | _ => cases held

variable {envelope : PublicationEnvelope}

section

variable (agreed : Agreed view)
include agreed

theorem of_incoming (arrived : view.incoming = some envelope) :
    ∃ (cohort : PlaybackCohort) (ticket : PublicationTicket), envelope = ticket.sent ∧
      view = ⟨some cohort, some ticket.cohort, none, some ticket.sent, none, none, none, cohort⟩ := by
  cases agreed with
  | incoming cohort ticket =>
    cases arrived
    exact ⟨cohort, ticket, rfl, rfl⟩
  | _ => cases arrived

theorem of_taken (taken : view.taken = some envelope) :
    ∃ (cohort : PlaybackCohort) (ticket : PublicationTicket), envelope = ticket.sent ∧
      view = ⟨some cohort, some ticket.cohort, none, none, some ticket.sent, none, none, cohort⟩ := by
  cases agreed with
  | taken cohort ticket =>
    cases taken
    exact ⟨cohort, ticket, rfl, rfl⟩
  | _ => cases taken

theorem of_answered (answered : view.answered = some envelope) :
    ∃ cohort playing, Answers cohort envelope playing ∧
      view = ⟨some cohort, some envelope.ticket.cohort, none, none, none, some envelope, none, playing⟩ := by
  cases agreed with
  | answered cohort other playing answer =>
    cases answered
    exact ⟨cohort, playing, answer, rfl⟩
  | _ => cases answered

theorem of_returned (returned : view.returned = some envelope) :
    ∃ cohort playing, Answers cohort envelope playing ∧
      view = ⟨some cohort, some envelope.ticket.cohort, none, none, none, none, some envelope, playing⟩ := by
  cases agreed with
  | returned cohort other playing answer =>
    cases returned
    exact ⟨cohort, playing, answer, rfl⟩
  | _ => cases returned

theorem active_some : view.active.isSome = true := by
  cases agreed <;> rfl

end

end Agreed

namespace Controller

variable {controller : Controller}

theorem receive_agreed (agreed : Agreed controller.view) {runtime : RenderRuntime} {action : PublicationAction}
    (hands : Hands controller.runtime.service runtime.service action) : Agreed (controller.receive runtime action).view := by
  obtain ⟨active, ⟨rfl, flying⟩ | ⟨ticket, rfl, free, flying, -⟩⟩ := hands
  · have same : (controller.receive runtime .none).view = controller.view := by
      simp only [receive, view, active, flying]
    rw [same]
    exact agreed
  · obtain ⟨cohort, same⟩ := agreed.of_free free
    simp only [view, View.mk.injEq] at same
    have after : (controller.receive runtime (.arm ticket)).view =
        ⟨some cohort, some ticket.cohort, some ticket, none, none, none, none, cohort⟩ := by
      simp only [receive, view, active, flying, same]
    rw [after]
    exact .held cohort ticket

theorem armAction_agreed (agreed : Agreed controller.view) : Agreed (controller.perform .armAction).view := by
  cases held : controller.held with
  | none =>
    simp only [perform, held]
    exact agreed
  | some ticket =>
    obtain ⟨cohort, same⟩ := agreed.of_held held
    have fields := same
    simp only [view, View.mk.injEq] at fields
    cases valid : controller.host.validateTicket ticket with
    | error error =>
      have after : (controller.perform .armAction).view = controller.view := by
        simp only [perform, held, armTicket, valid, view]
      rw [after]
      exact agreed
    | ok done =>
      have after : (controller.perform .armAction).view =
          ⟨some cohort, some ticket.cohort, none, some ticket.sent, none, none, none, cohort⟩ := by
        simp only [perform, held, armTicket, valid, fields, view]
        rfl
      rw [after]
      exact .incoming cohort ticket

variable {cohort : PlaybackCohort}

theorem inFlight_self {service : RenderService} (flying : service.publicationInFlight = some cohort) :
    service.inFlight cohort.id = .ok cohort := by
  rw [RenderService.inFlight, flying]
  exact if_neg (not_not.mpr rfl)

theorem rejectPublication_agreed (agreed : Agreed controller.view) (message : String) :
    Agreed (controller.perform (.rejectPublication message)).view := by
  simp only [perform]
  split
  · rename_i ticket held refused
    obtain ⟨cohort, same⟩ := agreed.of_held held
    simp only [view, View.mk.injEq] at same
    rw [RenderService.rejectPublication, inFlight_self same.2.1]
    have after : ({ controller with
        runtime.service := { controller.runtime.service with
          publicationInFlight := none
          targetFailure :=
            if controller.runtime.service.target = some ticket.cohort.id.plan then
              some ⟨ticket.cohort.id.plan, .publication, message⟩
            else controller.runtime.service.targetFailure }
        held := none
        refused := false } : Controller).view = ⟨some cohort, none, none, none, none, none, none, cohort⟩ := by
      simp only [view, same]
    exact after ▸ .idle cohort
  · exact agreed

theorem complete_returned {envelope : PublicationEnvelope} {playing : PlaybackCohort} (runtime : RenderRuntime)
    (active : runtime.service.active = some cohort) (flying : runtime.service.publicationInFlight = some envelope.ticket.cohort)
    (answer : Answers cohort envelope playing) :
    (∃ completion, (runtime.complete ⟨envelope.ticket.cohort.id, envelope.outcome, envelope.retired⟩).2 = .ok completion ∧
        completion.cohort = envelope.ticket.cohort.id) ∧
      (runtime.complete ⟨envelope.ticket.cohort.id, envelope.outcome, envelope.retired⟩).1.service.active = some playing ∧
      (runtime.complete ⟨envelope.ticket.cohort.id, envelope.outcome, envelope.retired⟩).1.service.publicationInFlight = none := by
  obtain ⟨outcome, retired, rfl⟩ | ⟨outcome, retired, rfl⟩ := answer
  · simp only [complete, outcome, retired, RenderService.cancelPublication, inFlight_self flying]
    exact ⟨⟨_, rfl, rfl⟩, active, rfl⟩
  · simp only [complete, outcome, retired, RenderService.acknowledgePublication, inFlight_self flying]
    refine ⟨⟨.activated envelope.ticket.cohort.id (some cohort.id), ?_, rfl⟩, rfl, rfl⟩
    show (if (runtime.service.active.map PlaybackCohort.id) ≠ some cohort.id then _ else _) = _
    rw [active]
    exact if_neg (not_not.mpr rfl)

theorem pollPublication_agreed (agreed : Agreed controller.view) : Agreed (controller.perform .pollPublication).view := by
  cases returned : controller.host.mailbox.receipt with
  | none =>
    have after : (controller.perform .pollPublication).view = controller.view := by
      simp only [perform, pollPublication, drainReceipt, returned, map_none, view]
    rw [after]
    exact agreed
  | some envelope =>
    obtain ⟨cohort, playing, answer, same⟩ := agreed.of_returned returned
    simp only [view, View.mk.injEq] at same
    obtain ⟨-, active, flying⟩ := complete_returned controller.runtime same.1 same.2.1 answer
    have after : (controller.perform .pollPublication).view = ⟨some playing, none, none, none, none, none, none, playing⟩ := by
      simp only [perform, pollPublication, drainReceipt, returned, map_some, view, active, flying, same]
    rw [after]
    exact .idle playing

theorem pollPublication_ok (agreed : Agreed controller.view) :
    ∃ completion, (controller.runtime.pollPublication controller.host).2.2 = .ok completion := by
  cases returned : controller.host.mailbox.receipt with
  | none =>
    simp only [pollPublication, drainReceipt, returned, map_none]
    exact ⟨none, rfl⟩
  | some envelope =>
    obtain ⟨cohort, playing, answer, same⟩ := agreed.of_returned returned
    simp only [view, View.mk.injEq] at same
    obtain ⟨⟨completion, done, -⟩, -⟩ := complete_returned controller.runtime same.1 same.2.1 answer
    simp only [pollPublication, drainReceipt, returned, map_some, done]
    exact ⟨some completion, rfl⟩

theorem host_view {host : Host} (incoming : host.mailbox.incoming = controller.host.mailbox.incoming)
    (receipt : host.mailbox.receipt = controller.host.mailbox.receipt)
    (taken : host.renderer.pendingTicket = controller.host.renderer.pendingTicket)
    (answered : host.renderer.pendingReceipt = controller.host.renderer.pendingReceipt)
    (playing : host.renderer.active = controller.host.renderer.active) :
    ({ controller with host } : Controller).view = controller.view := by
  simp only [view, incoming, receipt, taken, answered, playing]

section

variable (agreed : Agreed controller.view)
include agreed

theorem flushReceipt_agreed :
    Agreed ({ controller with host := controller.host.flushReceipt } : Controller).view := by
  cases answered : controller.host.renderer.pendingReceipt with
  | none =>
    have same : controller.host.flushReceipt = controller.host := by
      rw [flushReceipt, answered]
    rw [same]
    exact agreed
  | some envelope =>
    obtain ⟨cohort, playing, answer, same⟩ := agreed.of_answered answered
    simp only [view, View.mk.injEq] at same
    have after : ({ controller with host := controller.host.flushReceipt } : Controller).view =
        ⟨some cohort, some envelope.ticket.cohort, none, none, none, none, some envelope, playing⟩ := by
      simp only [view, flushReceipt, same]
    rw [after]
    exact .returned cohort envelope playing answer

theorem takeTicket_agreed :
    Agreed ({ controller with host := controller.host.takeTicket } : Controller).view := by
  cases taken : controller.host.renderer.pendingTicket with
  | some envelope =>
    have same : controller.host.takeTicket = controller.host := by
      rw [takeTicket, taken]
    rw [same]
    exact agreed
  | none =>
    cases arrived : controller.host.mailbox.incoming with
    | none =>
      have same : ({ controller with host := controller.host.takeTicket } : Controller).view = controller.view := by
        simp only [view, takeTicket, taken, arrived]
      rw [same]
      exact agreed
    | some envelope =>
      obtain ⟨cohort, ticket, rfl, same⟩ := agreed.of_incoming arrived
      simp only [view, View.mk.injEq] at same
      have after : ({ controller with host := controller.host.takeTicket } : Controller).view =
          ⟨some cohort, some ticket.cohort, none, none, some ticket.sent, none, none, cohort⟩ := by
        simp only [view, takeTicket, same]
      rw [after]
      exact .taken cohort ticket

theorem resolve_agreed (boundary : PublicationBoundary) :
    Agreed ({ controller with host := controller.host.resolve boundary } : Controller).view := by
  cases pending : controller.host.renderer.pendingTicket with
  | none =>
    have same : controller.host.resolve boundary = controller.host := by
      rw [resolve, pending]
    rw [same]
    exact agreed
  | some envelope =>
    obtain ⟨cohort, ticket, rfl, same⟩ := agreed.of_taken pending
    have fields := same
    simp only [view, View.mk.injEq] at fields
    rw [resolve, pending]
    dsimp only
    split
    · have after : ({ controller with host := controller.host.withdraw ticket.sent } : Controller).view =
          ⟨some cohort, some ticket.cohort, none, none, none, some { ticket.sent with outcome := .cancelled }, none, cohort⟩ := by
        simp only [view, withdraw, fields]
      rw [after]
      exact .answered cohort { ticket.sent with outcome := .cancelled } cohort (.inl ⟨rfl, rfl, rfl⟩)
    · split
      · have after : ({ controller with host := controller.host.activate ticket.sent } : Controller).view =
            ⟨some cohort, some ticket.cohort, none, none, none,
              some ⟨ticket, some cohort, (controller.host.succession ticket.cohort).2, .activated⟩, none, ticket.cohort⟩ := by
          simp only [view, activate, fields, PublicationTicket.sent]
        rw [after]
        exact .answered cohort ⟨ticket, some cohort, (controller.host.succession ticket.cohort).2, .activated⟩ ticket.cohort
          (.inr ⟨rfl, rfl, rfl⟩)
      · exact agreed

theorem renderer_agreed (step : RendererStep) :
    Agreed (controller.perform (.renderer step)).view := by
  cases step with
  | flushReceipt => exact flushReceipt_agreed agreed
  | takeTicket => exact takeTicket_agreed agreed
  | resolve boundary => exact resolve_agreed agreed boundary
  | flushAuditionReceipt =>
    have same : (controller.perform (.renderer .flushAuditionReceipt)).view = controller.view := by
      refine host_view ?_ ?_ ?_ ?_ ?_ <;> simp only [RendererStep.action, Host.perform, Host.flushAuditionReceipt] <;> split <;> rfl
    rw [same]
    exact agreed
  | takeAudition =>
    have same : (controller.perform (.renderer .takeAudition)).view = controller.view := by
      refine host_view ?_ ?_ ?_ ?_ ?_ <;> simp only [RendererStep.action, Host.perform, Host.takeAudition] <;> split <;> rfl
    rw [same]
    exact agreed
  | locate frame => exact agreed
  | renderFrame =>
    have same : (controller.perform (.renderer .renderFrame)).view = controller.view := by
      obtain ⟨mailbox, -⟩ := controller.host.renderFrame_auditions
      refine host_view (congrArg _ mailbox) (congrArg _ mailbox) ?_ ?_ ?_ <;>
        simp only [RendererStep.action, Host.perform, Host.renderFrame, Host.selectProduct, Host.reselect, Host.noteSound,
          Host.noteStarvation] <;> grind
    rw [same]
    exact agreed

theorem perform_agreed (move : Move) : Agreed (controller.perform move).view := by
  cases move with
  | armAction => exact armAction_agreed agreed
  | cancelPublication cohort => exact agreed
  | pollPublication => exact pollPublication_agreed agreed
  | rejectPublication message => exact rejectPublication_agreed agreed message
  | renderer step => exact renderer_agreed agreed step
  | submitTarget plan => exact receive_agreed agreed (call_hands controller (.submitTarget plan))
  | stageWholeBounce plan product transport evicted =>
    exact receive_agreed agreed (call_hands controller (.stageWholeBounce plan product transport evicted))
  | stageTileCohort draft transport evicted =>
    exact receive_agreed agreed (call_hands controller (.stageTileCohort draft transport evicted))
  | updateTransport transport => exact receive_agreed agreed (call_hands controller (.updateTransport transport))
  | armStaged => exact receive_agreed agreed (call_hands controller .armStaged)

end

theorem bootstrapped_idle (bootstrapped : Bootstrapped controller) :
    ∃ cohort, controller.view = ⟨some cohort, none, none, none, none, none, none, cohort⟩ := by
  obtain ⟨unheld, runtime, staged, action, stage, boot⟩ := bootstrapped
  have hands : Hands runtime.service staged.service action := by
    rcases stage with ⟨plan, product, evicted, result⟩ | ⟨draft, evicted, result⟩
    · have hands := stageWholeBounce_hands runtime plan product ⟨false, none⟩ evicted
      rw [result] at hands
      exact hands
    · have hands := stageTileCohort_hands runtime draft ⟨false, none⟩ evicted
      rw [result] at hands
      exact hands
  cases action with
  | none => cases boot
  | arm ticket =>
    obtain ⟨-, ⟨impossible, -⟩ | ⟨other, same, -, flying, -⟩⟩ := hands
    · cases impossible
    cases same
    obtain ⟨host, new, boot⟩ := bind_ok.mp boot
    obtain ⟨⟨service, retired⟩, acknowledged, boot⟩ := bind_ok.mp boot
    obtain ⟨-, boot⟩ := bind_unit_ok.mp boot
    obtain ⟨runs, hosts⟩ := Prod.mk.inj (Except.ok.inj boot)
    have fresh : host = .fresh ticket.cohort := by
      cases made : CohortRenderer.new ticket.cohort with
      | error error =>
        rw [made] at new
        cases new
      | ok first =>
        rw [made] at new
        cases new
        obtain ⟨-, rest⟩ := bind_unit_ok.mp made
        obtain ⟨-, rest⟩ := bind_unit_ok.mp rest
        exact (Except.ok.inj rest).symm
    have served : service.active = some ticket.cohort ∧ service.publicationInFlight = none := by
      rw [RenderService.acknowledgePublication, inFlight_self flying] at acknowledged
      cases acknowledged
      exact ⟨rfl, rfl⟩
    refine ⟨ticket.cohort, ?_⟩
    simp only [view, unheld, ← runs, ← hosts, fresh, served]
    rfl

end Controller

end Agreement

section Waiting

def Host.waiting (host : Host) : List PublicationTicket :=
  (host.mailbox.incoming.map PublicationEnvelope.ticket).toList ++
    (host.renderer.pendingTicket.map PublicationEnvelope.ticket).toList

variable {host : Host} {ticket : PublicationTicket}

theorem Host.same_waiting {after : Host} (incoming : after.mailbox.incoming = host.mailbox.incoming)
    (taken : after.renderer.pendingTicket = host.renderer.pendingTicket) : after.waiting = host.waiting := by
  rw [waiting, waiting, incoming, taken]

theorem Host.takeTicket_waiting (host : Host) : host.takeTicket.waiting = host.waiting := by
  unfold takeTicket
  cases taken : host.renderer.pendingTicket with
  | some envelope => exact rfl
  | none =>
    have after : ({ host with mailbox.incoming := none, renderer.pendingTicket := host.mailbox.incoming } : Host).waiting =
        (host.mailbox.incoming.map PublicationEnvelope.ticket).toList := rfl
    have before : host.waiting = (host.mailbox.incoming.map PublicationEnvelope.ticket).toList := by
      rw [waiting, taken, map_none, toList_none, append_nil]
    exact after.trans before.symm

theorem Host.resolve_waiting {boundary : PublicationBoundary}
    (waits : ticket ∈ (host.resolve boundary).waiting) : ticket ∈ host.waiting := by
  unfold resolve at waits
  split at waits
  · exact waits
  · split at waits
    · exact mem_append_left _ (by simpa [waiting, withdraw] using waits)
    · split at waits
      · exact mem_append_left _ (by simpa [waiting, activate] using waits)
      · exact waits

theorem Host.renderFrame_waiting (host : Host) : host.renderFrame.1.waiting = host.waiting := by
  refine same_waiting (congrArg _ host.renderFrame_auditions.1) ?_
  simp only [renderFrame, selectProduct, reselect, noteSound, noteStarvation]
  grind

theorem Host.renderer_waiting {step : RendererStep}
    (waits : ticket ∈ (host.perform step.action).waiting) : ticket ∈ host.waiting := by
  cases step with
  | takeTicket => exact host.takeTicket_waiting ▸ waits
  | resolve boundary => exact resolve_waiting waits
  | renderFrame => exact host.renderFrame_waiting ▸ waits
  | locate frame => exact waits
  | flushReceipt =>
    have same : host.flushReceipt.waiting = host.waiting := by
      refine same_waiting ?_ ?_ <;> unfold flushReceipt <;> split <;> rfl
    exact same ▸ waits
  | flushAuditionReceipt =>
    have same : host.flushAuditionReceipt.waiting = host.waiting := by
      refine same_waiting ?_ ?_ <;> unfold flushAuditionReceipt <;> split <;> rfl
    exact same ▸ waits
  | takeAudition =>
    have same : host.takeAudition.waiting = host.waiting := by
      refine same_waiting ?_ ?_ <;> unfold takeAudition <;> split <;> rfl
    exact same ▸ waits

namespace Controller

variable {controller : Controller}

def waiting (controller : Controller) : List PublicationTicket := controller.held.toList ++ controller.host.waiting

theorem receive_host (runtime : RenderRuntime) (action : PublicationAction) : (controller.receive runtime action).host = controller.host := by
  cases action <;> rfl

theorem receive_waiting {runtime : RenderRuntime} {action : PublicationAction}
    (waits : ticket ∈ (controller.receive runtime action).waiting) : ticket ∈ controller.waiting ∨ action = .arm ticket := by
  cases action with
  | none => exact .inl waits
  | arm other =>
    rcases mem_append.mp waits with held | sent
    · cases mem_toList.mp held
      exact .inr rfl
    · exact .inl (mem_append_right _ sent)

theorem armAction_waiting (waits : ticket ∈ (controller.perform .armAction).waiting) :
    ticket ∈ controller.waiting := by
  simp only [perform] at waits
  split at waits
  · exact waits
  · rename_i other held
    unfold armTicket at waits
    split at waits
    · rename_i armed
      split at armed
      · cases armed
      · split at armed
        · cases armed
          rcases mem_append.mp waits with none | sent
          · cases none
          rcases mem_append.mp sent with arrived | taken
          · cases mem_toList.mp arrived
            exact mem_append_left _ (held ▸ mem_toList.mpr rfl)
          · exact mem_append_right _ (mem_append_right _ taken)
        · cases armed
    · rename_i armed
      split at armed
      · cases armed
        exact waits
      · split at armed
        · cases armed
        · cases armed
          exact waits

/-- A ticket waits because it waited before, or because this call handed it out. -/
theorem perform_waiting {move : Move} (waits : ticket ∈ (controller.perform move).waiting) :
    ticket ∈ controller.waiting ∨ (controller.call move).2 = .arm ticket := by
  cases move with
  | armAction => exact .inl (armAction_waiting waits)
  | cancelPublication cohort => exact .inl waits
  | pollPublication =>
    have same : (controller.runtime.pollPublication controller.host).2.1.waiting = controller.host.waiting := by
      unfold pollPublication drainReceipt
      cases controller.host.mailbox.receipt <;> rfl
    rcases mem_append.mp waits with held | sent
    · exact .inl (mem_append_left _ held)
    · exact .inl (mem_append_right _ (same ▸ sent))
  | rejectPublication message =>
    simp only [perform] at waits
    split at waits
    · split at waits
      · exact .inl (mem_append_right _ waits)
      · exact .inl waits
    · exact .inl waits
  | renderer step =>
    rcases mem_append.mp waits with held | sent
    · exact .inl (mem_append_left _ held)
    · exact .inl (mem_append_right _ (renderer_waiting sent))
  | _ => exact receive_waiting waits

end Controller

end Waiting

section Ledger

/-- The ticket that `arm_action` accepts at an event. -/
def accepted (event : Event Controller Move) : List PlaybackCohortId :=
  match event.action, event.before.held with
  | .armAction, some ticket => if (event.before.host.armTicket ticket).2 = .ok () then [ticket.cohort.id] else []
  | _, _ => []

def receipted (event : Event Controller Move) : List PlaybackCohortId :=
  match event.action with
  | .pollPublication =>
    match (event.before.runtime.pollPublication event.before.host).2.2 with
    | .ok (some completion) => [completion.cohort]
    | _ => []
  | _ => []

def Final : PublicationBoundary → Prop
  | .stopped | .discontinuity _ => True
  | .renderQuantum _ | .loopWrap _ => False

namespace Controller

variable {controller : Controller}

def outstanding (controller : Controller) : List PlaybackCohortId :=
  (controller.host.mailbox.incoming.toList ++ controller.host.renderer.pendingTicket.toList ++
    controller.host.renderer.pendingReceipt.toList ++ controller.host.mailbox.receipt.toList).map fun envelope =>
      envelope.ticket.cohort.id

section

variable (agreed : Agreed controller.view)
include agreed

theorem outstanding_eq : controller.outstanding =
    match controller.held with
    | some _ => []
    | none => (controller.runtime.service.publicationInFlight.map PlaybackCohort.id).toList := by
  generalize same : controller.view = view at agreed
  cases agreed <;> (simp only [view, View.mk.injEq] at same; simp [outstanding, same]; try rfl)

theorem outstanding_le : controller.outstanding.length ≤ 1 := by
  rw [outstanding_eq agreed]
  cases controller.held <;> cases controller.runtime.service.publicationInFlight <;> simp

theorem renderer_outstanding (step : RendererStep) :
    (controller.perform (.renderer step)).outstanding = controller.outstanding := by
  rw [outstanding_eq (renderer_agreed agreed step), outstanding_eq agreed]
  rfl

end

theorem receive_outstanding (runtime : RenderRuntime) (action : PublicationAction) :
    (controller.receive runtime action).outstanding = controller.outstanding := by
  cases action <;> rfl

theorem rejectPublication_outstanding (message : String) :
    (controller.perform (.rejectPublication message)).outstanding = controller.outstanding := by
  simp only [perform]
  split
  · split <;> rfl
  · rfl

section

variable (agreed : Agreed controller.view)
include agreed

theorem armAction_outstanding :
    (controller.perform .armAction).outstanding = controller.outstanding ++ accepted ⟨controller, .armAction⟩ := by
  cases held : controller.held with
  | none => simp only [perform, accepted, held, append_nil]
  | some ticket =>
    obtain ⟨cohort, same⟩ := agreed.of_held held
    simp only [view, View.mk.injEq] at same
    cases valid : controller.host.validateTicket ticket with
    | error error => simp [perform, accepted, held, armTicket, valid, outstanding]
    | ok done => simp [perform, accepted, held, armTicket, valid, outstanding, same]

theorem pollPublication_outstanding :
    controller.outstanding = receipted ⟨controller, .pollPublication⟩ ++ (controller.perform .pollPublication).outstanding := by
  cases returned : controller.host.mailbox.receipt with
  | none =>
    simp [perform, receipted, pollPublication, drainReceipt, returned, outstanding]
  | some envelope =>
    obtain ⟨cohort, playing, answer, same⟩ := agreed.of_returned returned
    simp only [view, View.mk.injEq] at same
    obtain ⟨⟨completion, done, answered⟩, -⟩ := complete_returned controller.runtime same.1 same.2.1 answer
    have polled : receipted ⟨controller, .pollPublication⟩ = [envelope.ticket.cohort.id] := by
      simp only [receipted, pollPublication, drainReceipt, returned, map_some, done, Except.map, answered]
    have left : (controller.perform .pollPublication).outstanding = [] := by
      simp only [perform, pollPublication, drainReceipt, returned, map_some, outstanding, same]
      rfl
    rw [polled, left]
    simp only [outstanding, same]
    rfl

theorem perform_outstanding (move : Move) :
    controller.outstanding ++ accepted ⟨controller, move⟩ = receipted ⟨controller, move⟩ ++ (controller.perform move).outstanding := by
  cases move with
  | armAction => exact (armAction_outstanding agreed).symm
  | pollPublication => exact (append_nil _).trans (pollPublication_outstanding agreed)
  | renderer step => exact (append_nil _).trans (renderer_outstanding agreed step).symm
  | cancelPublication cohort => exact append_nil _
  | rejectPublication message => exact (append_nil _).trans (rejectPublication_outstanding message).symm
  | _ => exact (append_nil _).trans (receive_outstanding _ _).symm

end

variable {boundary : PublicationBoundary}

theorem accepts_final (ticket : PublicationTicket) (final : Final boundary) :
    ticket.accepts boundary = true := by
  obtain ⟨cohort, gate⟩ := ticket
  cases boundary with
  | stopped => cases gate <;> rfl
  | discontinuity frame => cases gate <;> rfl
  | renderQuantum frame => exact final.elim
  | loopWrap region => exact final.elim

theorem resolve_final {host : Host} {envelope : PublicationEnvelope} (final : Final boundary)
    (pending : host.renderer.pendingTicket = some envelope) (free : host.mailbox.receipt = none) :
    (host.resolve boundary).flushReceipt.mailbox.receipt.map (fun envelope => envelope.ticket.cohort.id) =
      some envelope.ticket.cohort.id := by
  rw [resolve, pending]
  dsimp only
  rw [accepts_final envelope.ticket final, if_pos rfl]
  split
  · simp only [withdraw, flushReceipt, free, map_some]
  · simp only [activate, flushReceipt, free, map_some]

theorem final_answers (agreed : Agreed controller.view) (final : Final boundary) :
    ((controller.host.activateIf boundary).mailbox.receipt.map fun envelope => envelope.ticket.cohort.id).toList =
      controller.outstanding := by
  generalize same : controller.view = view at agreed
  cases agreed with
  | incoming cohort ticket =>
    simp only [view, View.mk.injEq] at same
    have flushed : controller.host.flushReceipt = controller.host := by
      rw [flushReceipt, same.2.2.2.2.2.1]
    have taken : controller.host.pollTicket.renderer.pendingTicket = some ticket.sent ∧ controller.host.pollTicket.mailbox.receipt = none := by
      rw [pollTicket, flushed, takeTicket, same.2.2.2.2.1]
      exact ⟨same.2.2.2.1, same.2.2.2.2.2.2.1⟩
    rw [activateIf, resolve_final final taken.1 taken.2]
    simp [outstanding, same]
  | taken cohort ticket =>
    simp only [view, View.mk.injEq] at same
    have polled : controller.host.pollTicket = controller.host := by
      rw [pollTicket, flushReceipt, same.2.2.2.2.2.1]
      dsimp only
      rw [takeTicket, same.2.2.2.2.1]
    rw [activateIf, polled, resolve_final final same.2.2.2.2.1 same.2.2.2.2.2.2.1]
    simp [outstanding, same]
  | _ =>
    simp only [view, View.mk.injEq] at same
    simp [activateIf, pollTicket, flushReceipt, takeTicket, resolve, same, outstanding]

end Controller

end Ledger

section Handshake

variable {controller : Controller}

/-- A boundary that a ticket for a loop is published at: that loop's wrap, a jump or a stop, but never a rendered buffer. -/
def Breaks (region : RenderSpan) : PublicationBoundary → Prop
  | .loopWrap wrapped => wrapped = region
  | .discontinuity _ | .stopped => True
  | .renderQuantum _ => False

variable {boundary : PublicationBoundary} {region : RenderSpan} {ticket : PublicationTicket}

theorem accepts_breaks
    (gate : ticket.gate = .loopWrap region) (accepts : ticket.accepts boundary = true) : Breaks region boundary := by
  unfold PublicationTicket.accepts at accepts
  rw [gate] at accepts
  cases boundary with
  | renderQuantum frame => cases accepts
  | loopWrap wrapped =>
    show wrapped = region
    simpa using accepts
  | discontinuity frame => trivial
  | stopped => trivial

theorem Host.resolve_switch {host : Host}
    (changes : (host.resolve boundary).renderer.active ≠ host.renderer.active) :
    ∃ envelope, host.renderer.pendingTicket = some envelope ∧ envelope.ticket.accepts boundary = true ∧
      (host.resolve boundary).renderer.active = envelope.ticket.cohort := by
  revert changes
  unfold resolve
  split
  · exact fun changes => absurd rfl changes
  · rename_i envelope pending
    split
    · exact fun changes => absurd rfl changes
    · split
      · rename_i accepts
        exact fun _ => ⟨envelope, pending, accepts, rfl⟩
      · exact fun changes => absurd rfl changes

theorem Controller.perform_switch {move : Move}
    (changes : (controller.perform move).host.renderer.active ≠ controller.host.renderer.active) :
    ∃ boundary ticket, move = .renderer (.resolve boundary) ∧ ticket ∈ controller.waiting ∧ ticket.accepts boundary = true ∧
      (controller.perform move).host.renderer.active = ticket.cohort := by
  cases move with
  | renderer step =>
    cases step with
    | resolve boundary =>
      obtain ⟨envelope, pending, accepts, active⟩ := Host.resolve_switch changes
      refine ⟨boundary, envelope.ticket, rfl, ?_, accepts, active⟩
      refine mem_append_right _ (mem_append_right _ ?_)
      rw [pending]
      exact mem_singleton.mpr rfl
    | renderFrame =>
      refine absurd ?_ changes
      simp only [perform, RendererStep.action, Host.perform, Host.renderFrame, Host.selectProduct, Host.reselect, Host.noteSound,
        Host.noteStarvation]
      grind
    | locate frame => exact absurd rfl changes
    | flushReceipt =>
      refine absurd ?_ changes
      simp only [perform, RendererStep.action, Host.perform, Host.flushReceipt]
      split <;> rfl
    | takeTicket =>
      refine absurd ?_ changes
      simp only [perform, RendererStep.action, Host.perform, Host.takeTicket]
      split <;> rfl
    | flushAuditionReceipt =>
      refine absurd ?_ changes
      simp only [perform, RendererStep.action, Host.perform, Host.flushAuditionReceipt]
      split <;> rfl
    | takeAudition =>
      refine absurd ?_ changes
      simp only [perform, RendererStep.action, Host.perform, Host.takeAudition]
      split <;> rfl
  | armAction =>
    refine absurd ?_ changes
    simp only [perform, Host.armTicket]
    grind
  | pollPublication =>
    refine absurd ?_ changes
    simp only [perform, pollPublication, Host.drainReceipt]
    cases controller.host.mailbox.receipt <;> rfl
  | rejectPublication message =>
    refine absurd ?_ changes
    simp only [perform]
    grind
  | cancelPublication cohort => exact absurd rfl changes
  | _ => exact absurd (congrArg (fun host => host.renderer.active) (receive_host _ _)) changes

def Offers (event : Event Controller Move) (ticket : PublicationTicket) (transport : PublicationTransport) : Prop :=
  (event.before.call event.action).2 = .arm ticket ∧ (event.before.call event.action).1.service.transport = transport

theorem Offers.gate {event : Event Controller Move}
    (offers : Offers event ticket ⟨true, some region⟩) (agreed : Agreed event.before.view) : ticket.gate = .loopWrap region := by
  obtain ⟨armed, transport⟩ := offers
  obtain ⟨-, ⟨none, -⟩ | ⟨other, same, -, -, gate⟩⟩ := call_hands event.before event.action
  · rw [none] at armed
    cases armed
  · rw [same] at armed
    cases armed
    exact gate region agreed.active_some transport

structure Handshake (events : List (Event Controller Move)) (controller : Controller) : Prop where
  agreed : Agreed controller.view
  balance : events.flatMap accepted = events.flatMap receipted ++ controller.outstanding
  origin : ∀ ticket ∈ controller.waiting, ∃ event ∈ events, ∃ transport, Offers event ticket transport

theorem Handshake.start (bootstrapped : Bootstrapped controller) : Handshake [] controller := by
  obtain ⟨cohort, same⟩ := Controller.bootstrapped_idle bootstrapped
  have agreed : Agreed controller.view := same ▸ .idle cohort
  simp only [Controller.view, View.mk.injEq] at same
  have outstanding : controller.outstanding = [] := by
    simp only [Controller.outstanding, same]
    rfl
  have waiting : controller.waiting = [] := by
    simp only [Controller.waiting, waiting, same]
    rfl
  exact ⟨agreed, outstanding ▸ rfl, fun ticket waits => absurd (waiting ▸ waits) not_mem_nil⟩

variable {events : List (Event Controller Move)}

theorem Handshake.next (handshake : Handshake events controller) (move : Move) :
    Handshake (events ++ [⟨controller, move⟩]) (controller.perform move) where
  agreed := Controller.perform_agreed handshake.agreed move
  balance := by
    rw [flatMap_append, flatMap_append, handshake.balance, flatMap_singleton, flatMap_singleton, append_assoc,
      append_assoc, Controller.perform_outstanding handshake.agreed]
  origin := by
    intro ticket waits
    rcases Controller.perform_waiting waits with earlier | offered
    · obtain ⟨event, member, origin⟩ := handshake.origin ticket earlier
      exact ⟨event, mem_append_left _ member, origin⟩
    · exact ⟨_, mem_append_right _ mem_cons_self, _, offered, rfl⟩

theorem run_handshake (run : Run Controller.perform Bootstrapped events controller) :
    Handshake events controller := by
  induction run with
  | start bootstrapped => exact .start bootstrapped
  | step run move tail => exact tail.next move

/-- Every accepted ticket is answered once, no poll fails, both sides agree while nothing is in flight,
    and a cohort that was armed for a rolling loop starts only where a pass of that loop ends: a seek from the loop's end is its wrap. -/
theorem publication_agreement {events : List (Event Controller Move)} (run : Run Controller.perform Bootstrapped events controller) :
    (events.flatMap accepted = events.flatMap receipted ++ controller.outstanding ∧ controller.outstanding.length ≤ 1) ∧
      (∀ boundary, Final boundary →
        ((controller.host.activateIf boundary).mailbox.receipt.map fun envelope => envelope.ticket.cohort.id).toList =
          controller.outstanding) ∧
      (∃ completion, (controller.runtime.pollPublication controller.host).2.2 = .ok completion) ∧
      (controller.runtime.service.publicationInFlight = none →
        controller.runtime.service.active = some controller.host.renderer.active) ∧
      (∀ earlier event later, events = earlier ++ event :: later →
        (event.before.perform event.action).host.renderer.active ≠ event.before.host.renderer.active →
        ∃ boundary ticket transport, event.action = .renderer (.resolve boundary) ∧ (∃ armed ∈ earlier, Offers armed ticket transport) ∧
          (event.before.perform event.action).host.renderer.active = ticket.cohort ∧
          ∀ region, transport = ⟨true, some region⟩ → Breaks region boundary) ∧
      ∀ requested region, controller.host.seekBoundary requested = .loopWrap region → controller.host.projectPosition = region.stop := by
  have handshake := run_handshake run
  refine ⟨⟨handshake.balance, Controller.outstanding_le handshake.agreed⟩, fun boundary final => Controller.final_answers handshake.agreed final,
    Controller.pollPublication_ok handshake.agreed, ?_, ?_, fun _ _ => controller.host.seekBoundary_wrap⟩
  · intro free
    obtain ⟨cohort, same⟩ := handshake.agreed.of_free free
    simp only [Controller.view, View.mk.injEq] at same
    rw [same.1, same.2.2.2.2.2.2.2]
  · intro earlier event later split changes
    have before := run_handshake (run.upto split)
    obtain ⟨boundary, ticket, resolves, waits, accepts, active⟩ := Controller.perform_switch changes
    obtain ⟨armed, member, transport, offers⟩ := before.origin ticket waits
    refine ⟨boundary, ticket, transport, resolves, ⟨armed, member, offers⟩, active, ?_⟩
    rintro region rfl
    obtain ⟨first, last, split'⟩ := List.append_of_mem member
    have agreed := (run_handshake ((run.upto split).upto split')).agreed
    exact accepts_breaks (offers.gate agreed) accepts

section Example

def silentRuntime : RenderRuntime where
  service := ⟨⟨false, none⟩, fun _ => none, some shortPlan, none, none, none, none⟩
  products := fun _ => none
  executable := fun _ => none
  nextCohortSequence := 0

def bounceProduct : RenderProduct := (masterEntry .wholeBounce 0 4 0).product

def firstAction : RenderRuntime × PublicationAction :=
  let staged := silentRuntime.stageWholeBounce shortPlan bounceProduct ⟨false, none⟩ fun _ => []
  (staged.1, staged.2.toOption.getD .none)

def booted : Controller :=
  let made := (firstAction.1.bootstrapStagedAction firstAction.2).toOption.getD (silentRuntime, .fresh (bounce 0))
  ⟨made.1, made.2, none, false⟩

theorem booted_bootstrapped : Bootstrapped booted := by
  refine ⟨rfl, silentRuntime, firstAction.1, firstAction.2, .inl ⟨shortPlan, bounceProduct, fun _ => [], ?_⟩, ?_⟩
  · rfl
  · rfl

def secondLoop : RenderSpan := ⟨.saturate 0, .saturate 4⟩

def secondBounce : List Move :=
  [.stageWholeBounce shortPlan bounceProduct ⟨true, some secondLoop⟩ fun _ => [], .armAction, .renderer .takeTicket,
    .renderer (.resolve (.renderQuantum (.saturate 2))), .renderer (.resolve (.loopWrap secondLoop)), .renderer .flushReceipt,
    .pollPublication]

theorem secondBounce_agreed : (trace Controller.perform booted secondBounce).flatMap accepted =
      (trace Controller.perform booted secondBounce).flatMap receipted ∧
    (secondBounce.foldl Controller.perform booted).runtime.service.active =
      some (secondBounce.foldl Controller.perform booted).host.renderer.active := by
  obtain ⟨⟨balance, -⟩, -, -, agreed, -⟩ := publication_agreement (Run.tracing booted_bootstrapped secondBounce)
  have answered : (secondBounce.foldl Controller.perform booted).outstanding = [] := rfl
  rw [answered, List.append_nil] at balance
  exact ⟨balance, agreed rfl⟩

end Example

end Handshake

end Audec.Playback

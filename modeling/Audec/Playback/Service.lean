import Audec.Playback.Renderer
import Audec.Render.Tiles

/-! The control side of publication: the service that stages and arms cohorts, and the runtime that builds them. -/

open Machine Checked

namespace Audec.Playback

open Render

inductive PublicationAction where
  | none
  | arm (ticket : PublicationTicket)

namespace PublicationAction

def ticket : PublicationAction → Option PublicationTicket
  | none => .none
  | arm ticket => some ticket

def cohort (action : PublicationAction) : Option PlaybackCohort := action.ticket.map PublicationTicket.cohort

end PublicationAction

inductive RenderFailureStage where
  | planCompilation | productRender | productValidation | publication | export

structure RenderFailure where
  plan : RenderPlanId
  stage : RenderFailureStage
  message : String

inductive RenderServiceError where
  | planIdentityCollision (plan : RenderPlanId)
  | noTargetPlan
  | obsoleteCohort (expected actual : RenderPlanId)
  | incompleteCohort (cohort : PlaybackCohortId)
  | noPublicationInFlight
  | publicationAcknowledgementMismatch (expected actual : PlaybackCohortId)

structure RenderService where
  transport : PublicationTransport
  plans : RenderPlanId → Option RenderPlan
  target : Option RenderPlanId
  active : Option PlaybackCohort
  staged : Option PlaybackCohort
  publicationInFlight : Option PlaybackCohort
  targetFailure : Option RenderFailure

namespace RenderService

variable (service : RenderService)

def submitTarget (plan : RenderPlan) : Except RenderServiceError RenderService :=
  if (service.plans plan.id).any (· ≠ plan) then .error (.planIdentityCollision plan.id)
  else
    .ok
      { service with
        plans := Function.update service.plans plan.id (some plan)
        target := some plan.id
        targetFailure := none
        staged := service.staged.filter fun cohort => cohort.id.plan = plan.id }

def gateFor (cohort : PlaybackCohort) : Option PublicationGate :=
  if service.transport.rolling = false then some .immediate
  else if service.active.isNone then some .nextRenderQuantum
  else
    match service.transport.loopRegion with
    | some region => if cohort.publicationLoop ≠ some region then none else some (.loopWrap region)
    | none => some .nextRenderQuantum

def armStaged : RenderService × PublicationAction :=
  match service.publicationInFlight, service.staged with
  | none, some cohort =>
    match service.gateFor cohort with
    | some gate => ({ service with staged := none, publicationInFlight := some cohort }, .arm ⟨cohort, gate⟩)
    | none => (service, .none)
  | _, _ => (service, .none)

def stageCohort (cohort : PlaybackCohort) : Except RenderServiceError (RenderService × PublicationAction) := do
  match service.target with
  | none => .error .noTargetPlan
  | some target =>
    ensure (cohort.id.plan = target) (.obsoleteCohort target cohort.id.plan)
    ensure (cohort.isReady ∨ service.active.isSome) (.incompleteCohort cohort.id)
    if service.staged.any fun staged => staged.id.sequence > cohort.id.sequence then .ok (service, .none)
    else .ok { service with staged := some cohort, targetFailure := none }.armStaged

def stageCohortForTransport (cohort : PlaybackCohort) (transport : PublicationTransport) :
    RenderService × Except RenderServiceError PublicationAction :=
  let service := { service with transport }
  match service.stageCohort cohort with
  | .ok (staged, action) => (staged, .ok action)
  | .error error => (service, .error error)

def updateTransport (transport : PublicationTransport) : RenderService × PublicationAction :=
  { service with transport }.armStaged

section

variable (cohort : PlaybackCohortId)

def inFlight : Except RenderServiceError PlaybackCohort :=
  match service.publicationInFlight with
  | none => .error .noPublicationInFlight
  | some inflight => if inflight.id ≠ cohort then .error (.publicationAcknowledgementMismatch inflight.id cohort) else .ok inflight

def acknowledgePublication : Except RenderServiceError (RenderService × Option PlaybackCohort) := do
  let inflight ← service.inFlight cohort
  .ok ({ service with
    active := some inflight
    publicationInFlight := none
    targetFailure := if service.target = some cohort.plan then none else service.targetFailure }, service.active)

def cancelPublication : Except RenderServiceError RenderService := do
  let _ ← service.inFlight cohort
  .ok { service with publicationInFlight := none }

def rejectPublication (message : String) : Except RenderServiceError RenderService := do
  let _ ← service.inFlight cohort
  .ok { service with
    publicationInFlight := none
    targetFailure :=
      if service.target = some cohort.plan then some ⟨cohort.plan, .publication, message⟩ else service.targetFailure }

end

end RenderService

inductive RenderRuntimeError where
  | executableIdentityCollision (plan : RenderPlanId)
  | notWholeMasterProduct
  | digestCollision (id : RenderProductId)
  | initialCohortWasNotArmed
  | unexpectedInitialRetirement
  | loopOutsidePlan (loop : RenderSpan)
  | cohortSequenceOverflow
  | cohortDoesNotCover (span : RenderSpan)
  | retiredCohortMismatch (service renderer : Option PlaybackCohortId)
  | unexpectedPendingReceipt
  | cancelledPublicationRetiredCohort
  | product (error : RenderProductError)
  | service (error : RenderServiceError)
  | renderer (error : RendererError)

inductive PublicationCompletion where
  | activated (active : PlaybackCohortId) (retired : Option PlaybackCohortId)
  | cancelled (cohort : PlaybackCohortId)

structure RenderRuntime where
  service : RenderService
  products : RenderProductId → Option RenderProduct
  executable : RenderPlanId → Option RenderPlan
  nextCohortSequence : U64

namespace RenderRuntime

variable (runtime : RenderRuntime)

def submitTarget (plan : RenderPlan) : RenderRuntime × Except RenderRuntimeError Unit :=
  if (runtime.executable plan.id).any (· ≠ plan) then (runtime, .error (.executableIdentityCollision plan.id))
  else
    let runtime := { runtime with executable := Function.update runtime.executable plan.id (some plan) }
    match runtime.service.submitTarget plan with
    | .ok service => ({ runtime with service }, .ok ())
    | .error error => (runtime, .error (.service error))

def bitsEqual (product other : RenderProduct) : Bool :=
  product.id = other.id ∧ product.interleaved.map Float32.toBits = other.interleaved.map Float32.toBits

/-- The product of the catalog, which is told what its residency policy lets go. -/
def adoptProduct (product : RenderProduct) (evicted : List RenderProductId) : Except RenderRuntimeError (RenderRuntime × RenderProduct) :=
  match runtime.products product.id with
  | some existing =>
    if bitsEqual existing product = false then .error (.digestCollision product.id)
    else if existing.producedBy = product.producedBy then .ok (runtime, existing)
    else .ok (runtime, ⟨product.id, product.producedBy, existing.interleaved⟩)
  | none =>
    let products := Function.update runtime.products product.id (some product)
    .ok ({ runtime with products := fun id => if id ∈ evicted then none else products id }, product)

def adoptProducts (evicted : RenderProductId → List RenderProductId) :
    RenderRuntime → List CohortProduct → RenderRuntime × Except RenderRuntimeError (List CohortProduct)
  | runtime, [] => (runtime, .ok [])
  | runtime, entry :: rest =>
    match runtime.adoptProduct entry.product (evicted entry.product.id) with
    | .error error => (runtime, .error error)
    | .ok (runtime, product) =>
      let others := adoptProducts evicted runtime rest
      (others.1, others.2.map ({ entry with product } :: ·))

def stageNext (plan : RenderPlanId) (required : List RenderSlot) (products : List CohortProduct) (transport : PublicationTransport)
    (check : PlaybackCohort → Except RenderRuntimeError Unit) : RenderRuntime × Except RenderRuntimeError PublicationAction :=
  match checkedSucc runtime.nextCohortSequence with
  | none => (runtime, .error .cohortSequenceOverflow)
  | some sequence =>
    let runtime := { runtime with nextCohortSequence := sequence }
    match PlaybackCohort.new ⟨plan, sequence⟩ transport.loopRegion required products with
    | .error error => (runtime, .error (.product error))
    | .ok cohort =>
      match check cohort with
      | .error error => (runtime, .error error)
      | .ok () =>
        let staged := runtime.service.stageCohortForTransport cohort transport
        ({ runtime with service := staged.1 }, staged.2.mapError .service)

def loopInside (plan : RenderPlanId) (transport : PublicationTransport) : Except RenderRuntimeError Unit :=
  match transport.loopRegion with
  | none => .ok ()
  | some region => ensure (plan.compiledExtent.containsSpan region) (.loopOutsidePlan region)

def stageWholeBounce (plan : RenderPlanId) (product : RenderProduct) (transport : PublicationTransport)
    (evicted : RenderProductId → List RenderProductId) : RenderRuntime × Except RenderRuntimeError PublicationAction :=
  let key := product.producedBy
  if key.plan ≠ plan ∨ key.scope ≠ .master ∨ key.core ≠ plan.compiledExtent ∨ key.partition ≠ .wholeBounce then
    (runtime, .error .notWholeMasterProduct)
  else
    match runtime.adoptProduct product (evicted product.id) with
    | .error error => (runtime, .error error)
    | .ok (runtime, product) =>
      match loopInside plan transport with
      | .error error => (runtime, .error error)
      | .ok () =>
        let slot : RenderSlot := ⟨.master, plan.compiledExtent⟩
        runtime.stageNext plan [slot] [⟨slot, product, .renderedForTarget⟩] transport fun _ => .ok ()

def stageTileCohort (draft : TileCohortDraft) (transport : PublicationTransport)
    (evicted : RenderProductId → List RenderProductId) : RenderRuntime × Except RenderRuntimeError PublicationAction :=
  match loopInside draft.plan transport with
  | .error error => (runtime, .error error)
  | .ok () =>
    match adoptProducts evicted runtime draft.products with
    | (runtime, .error error) => (runtime, .error error)
    | (runtime, .ok products) =>
      runtime.stageNext draft.plan draft.required products transport fun cohort =>
        ensure (cohort.isReady = false ∨ cohort.covers .master draft.plan.compiledExtent) (.cohortDoesNotCover draft.plan.compiledExtent)

def bootstrapStagedAction (action : PublicationAction) : Except RenderRuntimeError (RenderRuntime × Host) := do
  match action.cohort with
  | none => .error .initialCohortWasNotArmed
  | some cohort =>
    let host ← (CohortRenderer.new cohort).mapError .renderer
    let (service, retired) ← (runtime.service.acknowledgePublication cohort.id).mapError .service
    ensure (retired.isNone) .unexpectedInitialRetirement
    .ok ({ runtime with service }, host)

def complete (receipt : PublicationReceipt) : RenderRuntime × Except RenderRuntimeError PublicationCompletion :=
  match receipt.outcome with
  | .pending => (runtime, .error .unexpectedPendingReceipt)
  | .cancelled =>
    if receipt.retired.isSome then (runtime, .error .cancelledPublicationRetiredCohort)
    else
      match runtime.service.cancelPublication receipt.cohort with
      | .ok service => ({ runtime with service }, .ok (.cancelled receipt.cohort))
      | .error error => (runtime, .error (.service error))
  | .activated =>
    match runtime.service.acknowledgePublication receipt.cohort with
    | .ok (service, retired) =>
      let retired := retired.map PlaybackCohort.id
      let renderer := receipt.retired.map PlaybackCohort.id
      ({ runtime with service },
        if retired ≠ renderer then .error (.retiredCohortMismatch retired renderer) else .ok (.activated receipt.cohort retired))
    | .error error => (runtime, .error (.service error))

def pollPublication (host : Host) : RenderRuntime × Host × Except RenderRuntimeError (Option PublicationCompletion) :=
  match host.drainReceipt with
  | (host, none) => (runtime, host, .ok none)
  | (host, some receipt) =>
    let completed := runtime.complete receipt
    (completed.1, host, completed.2.map some)

end RenderRuntime

end Audec.Playback

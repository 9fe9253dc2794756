import Audec.Render.Products

/-! Persistent playback of published cohorts: the control half, the realtime renderer, and the mailbox between them. -/

open Machine Checked
open Std (ExtTreeMap)

namespace Audec.Render

def RenderSpan.contains (span : RenderSpan) (frame : I64) : Bool := span.start ≤ frame ∧ frame < span.stop

namespace PlaybackCohort

def entryAt (cohort : PlaybackCohort) (scope : RenderScope) (frame : I64) : Option CohortProduct :=
  cohort.products.find? fun entry => entry.slot.scope = scope ∧ entry.slot.span.contains frame

def reaches (span : RenderSpan) : I64 → List CohortProduct → Bool
  | _, [] => false
  | cursor, entry :: rest =>
    match entry.slot.span.intersection span with
    | none => false
    | some overlap =>
      if overlap.start > cursor then false
      else if max cursor overlap.stop ≥ span.stop then true
      else reaches span (max cursor overlap.stop) rest

def covers (cohort : PlaybackCohort) (scope : RenderScope) (span : RenderSpan) : Bool :=
  reaches span span.start (cohort.products.filter fun entry => entry.slot.scope = scope ∧ entry.slot.span.intersects span)

end PlaybackCohort

end Audec.Render

namespace Audec.Playback

open Render

/-- Transport facts needed to choose a coherent publication boundary. -/
structure PublicationTransport where
  rolling : Bool
  loopRegion : Option RenderSpan

/-- A boundary reported by the persistent playback adapter. -/
inductive PublicationBoundary where
  | renderQuantum (nextFrame : I64)
  | loopWrap (region : RenderSpan)
  | discontinuity (nextFrame : I64)
  | stopped

inductive PublicationGate where
  | immediate
  | nextRenderQuantum
  | loopWrap (region : RenderSpan)

/-- One pre-armed table swap. -/
structure PublicationTicket where
  cohort : PlaybackCohort
  gate : PublicationGate

def PublicationTicket.accepts (ticket : PublicationTicket) (boundary : PublicationBoundary) : Bool :=
  match ticket.gate, boundary with
  | _, .stopped => true
  | _, .discontinuity _ => true
  | .immediate, _ => true
  | .nextRenderQuantum, .renderQuantum _ => true
  | .loopWrap expected, .loopWrap region => region = expected
  | _, _ => false

structure AuditionOwner where
  origin : U128
  number : U64
  deriving DecidableEq

inductive AuditionMix where
  | replace | overlay

structure TimelineAuditionId where
  owner : AuditionOwner
  revision : U64
  content : ExactDigest
  deriving DecidableEq

structure TimelineAudition where
  id : TimelineAuditionId
  mix : AuditionMix
  span : RenderSpan
  format : RenderFormat
  interleaved : List Float32

inductive EnvelopeOutcome where
  | pending | activated | cancelled

structure PublicationEnvelope where
  ticket : PublicationTicket
  retired : Option PlaybackCohort
  released : Option PlaybackCohort
  outcome : EnvelopeOutcome

inductive AuditionCommand where
  | set (next : Option TimelineAudition)
  | clearIfActive (audition : TimelineAuditionId)

structure AuditionEnvelope where
  command : AuditionCommand
  applied : Bool
  active : Option TimelineAuditionId
  retired : Option TimelineAudition

/-- Four slots of one envelope each, the cancellation watermark, and the token of the control thread. -/
structure PublicationMailbox where
  incoming : Option PublicationEnvelope
  receipt : Option PublicationEnvelope
  cancelThroughSequence : U64
  auditionIncoming : Option AuditionEnvelope
  auditionReceipt : Option AuditionEnvelope
  desiredAudition : Option TimelineAuditionId

def PublicationMailbox.new : PublicationMailbox := ⟨none, none, 0, none, none, none⟩

structure RendererCounters where
  starvationEvents : U64
  starvedFrames : U64
  publicationPending : Bool
  currentlyStarving : Bool
  fallbackFrames : U64
  currentlyFromPrevious : Bool

def RendererCounters.new : RendererCounters := ⟨0, 0, false, false, 0, false⟩

structure CohortRenderer where
  active : PlaybackCohort
  fallback : Option PlaybackCohort
  formatStamp : RenderFormat
  timeline : RenderSpan
  position : U64
  currentProduct : Option RenderProduct
  currentFromPrevious : Bool
  activeAudition : Option TimelineAudition
  pendingTicket : Option PublicationEnvelope
  pendingReceipt : Option PublicationEnvelope
  pendingAuditionReceipt : Option AuditionEnvelope
  starving : Bool

/-- The renderer with what it shares with the control half, whose format and timeline are the renderer's. -/
structure Host where
  mailbox : PublicationMailbox
  counters : RendererCounters
  renderer : CohortRenderer

inductive RendererError where
  | incompletePlaybackCohort
  | cohortDoesNotCover (timeline : RenderSpan)
  | rendererFormatChanged (expected actual : RenderFormat)
  | rendererTimelineChanged (expected actual : RenderSpan)
  | publicationMailboxBusy
  | auditionFormatChanged (expected actual : RenderFormat)
  | auditionOutsideTimeline (audition timeline : RenderSpan)
  deriving DecidableEq

structure PublicationReceipt where
  cohort : PlaybackCohortId
  outcome : EnvelopeOutcome
  retired : Option PlaybackCohort

structure TimelineAuditionReceipt where
  applied : Bool
  active : Option TimelineAuditionId
  retired : Option TimelineAuditionId

def Host.fresh (active : PlaybackCohort) : Host where
  mailbox := .new
  counters := .new
  renderer :=
    { active
      fallback := none
      formatStamp := active.id.plan.engine.format
      timeline := active.id.plan.compiledExtent
      position := 0
      currentProduct := none
      currentFromPrevious := false
      activeAudition := none
      pendingTicket := none
      pendingReceipt := none
      pendingAuditionReceipt := none
      starving := false }

def CohortRenderer.new (active : PlaybackCohort) : Except RendererError Host := do
  ensure active.isReady .incompletePlaybackCohort
  let timeline := active.id.plan.compiledExtent
  ensure (active.covers .master timeline) (.cohortDoesNotCover timeline)
  .ok (.fresh active)

namespace Host

variable (host : Host)

section Control

def validateTicket (ticket : PublicationTicket) : Except RendererError Unit := do
  let plan := ticket.cohort.id.plan
  ensure (plan.engine.format = host.renderer.formatStamp) (.rendererFormatChanged host.renderer.formatStamp plan.engine.format)
  ensure (plan.compiledExtent = host.renderer.timeline) (.rendererTimelineChanged host.renderer.timeline plan.compiledExtent)

/-- `arm_action` for a ticket. -/
def armTicket (ticket : PublicationTicket) : Host × Except RendererError Unit :=
  match host.validateTicket ticket with
  | .error error => (host, .error error)
  | .ok () =>
    let announced := { host with counters.publicationPending := true }
    match host.mailbox.incoming with
    | none => ({ announced with mailbox.incoming := some ⟨ticket, none, none, .pending⟩ }, .ok ())
    | some _ => (announced, .error .publicationMailboxBusy)

def drainReceipt : Host × Option PublicationReceipt :=
  ({ host with mailbox.receipt := none },
    host.mailbox.receipt.map fun envelope => ⟨envelope.ticket.cohort.id, envelope.outcome, envelope.retired⟩)

def cancelPublication (cohort : PlaybackCohortId) : Host :=
  { host with mailbox.cancelThroughSequence := max host.mailbox.cancelThroughSequence cohort.sequence }

/-- The newer command replaces one that has not been read. -/
def queueAudition (command : AuditionCommand) : Host :=
  { host with mailbox.auditionIncoming := some ⟨command, false, none, none⟩ }

def setTimelineAudition (audition : TimelineAudition) : Host × Except RendererError Unit :=
  if audition.format ≠ host.renderer.formatStamp then
    (host, .error (.auditionFormatChanged host.renderer.formatStamp audition.format))
  else if host.renderer.timeline.containsSpan audition.span = false then
    (host, .error (.auditionOutsideTimeline audition.span host.renderer.timeline))
  else
    (queueAudition { host with mailbox.desiredAudition := some audition.id } (.set (some audition)), .ok ())

def clearTimelineAudition (audition : TimelineAuditionId) : Host :=
  if host.mailbox.desiredAudition ≠ some audition then host
  else queueAudition { host with mailbox.desiredAudition := none } (.clearIfActive audition)

def drainAuditionReceipt : Host × Option TimelineAuditionReceipt :=
  ({ host with mailbox.auditionReceipt := none },
    host.mailbox.auditionReceipt.map fun envelope =>
      ⟨envelope.applied, envelope.active, envelope.retired.map TimelineAudition.id⟩)

end Control

section Publication

def projectPosition : I64 :=
  .saturate (host.renderer.timeline.start.val + min host.renderer.position.val 0x7fffffffffffffff)

def flushReceipt : Host :=
  match host.renderer.pendingReceipt, host.mailbox.receipt with
  | some envelope, none => { host with mailbox.receipt := some envelope, renderer.pendingReceipt := none }
  | _, _ => host

def takeTicket : Host :=
  match host.renderer.pendingTicket with
  | some _ => host
  | none => { host with mailbox.incoming := none, renderer.pendingTicket := host.mailbox.incoming }

def pollTicket : Host := host.flushReceipt.takeTicket

def withdraw (envelope : PublicationEnvelope) : Host :=
  { host with
    counters.publicationPending := false
    renderer.pendingTicket := none
    renderer.pendingReceipt := some { envelope with outcome := .cancelled } }

def succession (next : PlaybackCohort) : Option PlaybackCohort × Option PlaybackCohort :=
  if next.isReady then (none, host.renderer.fallback)
  else if host.renderer.active.isReady then (some host.renderer.active, host.renderer.fallback)
  else (host.renderer.fallback, none)

def activate (envelope : PublicationEnvelope) : Host :=
  let next := envelope.ticket.cohort
  { host with
    counters.currentlyFromPrevious := false
    counters.currentlyStarving := false
    counters.publicationPending := false
    renderer.active := next
    renderer.fallback := (host.succession next).1
    renderer.currentProduct := none
    renderer.currentFromPrevious := false
    renderer.starving := false
    renderer.pendingTicket := none
    renderer.pendingReceipt :=
      some { envelope with released := (host.succession next).2, retired := some host.renderer.active, outcome := .activated } }

def resolve (boundary : PublicationBoundary) : Host :=
  match host.renderer.pendingTicket with
  | none => host
  | some envelope =>
    if envelope.ticket.cohort.id.sequence ≤ host.mailbox.cancelThroughSequence then host.withdraw envelope
    else if envelope.ticket.accepts boundary then host.activate envelope
    else host

/-- Where the ticket stays, the last flush finds what the first one left. -/
def activateIf (boundary : PublicationBoundary) : Host := (host.pollTicket.resolve boundary).flushReceipt

end Publication

section Audible

def selected (frame : I64) : Option (RenderProduct × Bool) :=
  match host.renderer.active.entryAt .master frame with
  | some entry => some (entry.product, false)
  | none => (host.renderer.fallback.bind fun cohort => cohort.entryAt .master frame).map fun entry => (entry.product, true)

def currentMatches (frame : I64) : Bool :=
  host.renderer.currentProduct.any fun product =>
    product.producedBy.scope = .master ∧ product.producedBy.core.contains frame

def reselect (frame : I64) : Host :=
  if host.currentMatches frame then host
  else
    { host with
      renderer.currentProduct := (host.selected frame).map Prod.fst
      renderer.currentFromPrevious := ((host.selected frame).map Prod.snd).getD false }

def selectProduct (frame : I64) : Host :=
  let host := host.reselect frame
  match host.renderer.currentProduct with
  | none => host
  | some _ =>
    { host with
      counters.currentlyFromPrevious := host.renderer.currentFromPrevious
      counters.fallbackFrames := host.counters.fallbackFrames + if host.renderer.currentFromPrevious then 1 else 0 }

def noteStarvation (frames : U64) : Host :=
  { host with
    counters.starvationEvents := host.counters.starvationEvents + if host.renderer.starving then 0 else 1
    counters.currentlyStarving := true
    counters.starvedFrames := host.counters.starvedFrames + frames
    renderer.starving := true }

def noteSound : Host := { host with counters.currentlyStarving := false, renderer.starving := false }

def channels : Nat := host.renderer.formatStamp.channels.val

def productFrame (channels : Nat) (product : RenderProduct) (frame : I64) : List Float32 :=
  (product.interleaved.drop ((frame.val - product.producedBy.core.start.val).toNat * channels)).take channels

def finite (sample : Float32) : Float32 := if sample.isFinite then sample else 0

def mixAuditionFrame (frame : I64) (output : List Float32) : List Float32 :=
  match host.renderer.activeAudition with
  | none => output
  | some audition =>
    if audition.span.contains frame then
      let source := (audition.interleaved.drop ((frame.val - audition.span.start.val).toNat * host.channels)).take host.channels
      match audition.mix with
      | .replace => source
      | .overlay => List.zipWith (fun target addition => finite (target + addition)) output source
    else output

/-- One frame of `render_interleaved`. -/
def renderFrame : Host × List Float32 :=
  let frame := host.projectPosition
  let host := host.selectProduct frame
  let heard :=
    match host.renderer.currentProduct with
    | some product => (host.noteSound, productFrame host.channels product frame)
    | none => (host.noteStarvation 1, List.replicate host.channels 0)
  ({ heard.1 with renderer.position := .ofNat _ (min (heard.1.renderer.position.val + 1) 0xffffffffffffffff) },
    heard.1.mixAuditionFrame frame heard.2)

def renderFrames : Nat → Host → Host × List Float32
  | 0, host => (host, [])
  | frames + 1, host =>
    let first := host.renderFrame
    let rest := renderFrames frames first.1
    (rest.1, first.2 ++ rest.2)

end Audible

section Auditioning

def flushAuditionReceipt : Host :=
  match host.renderer.pendingAuditionReceipt, host.mailbox.auditionReceipt with
  | some envelope, none => { host with mailbox.auditionReceipt := some envelope, renderer.pendingAuditionReceipt := none }
  | _, _ => host

def obey (envelope : AuditionEnvelope) : Option TimelineAudition × AuditionEnvelope :=
  match envelope.command with
  | .set next => (next, ⟨.set none, true, next.map TimelineAudition.id, host.renderer.activeAudition⟩)
  | .clearIfActive audition =>
    if host.renderer.activeAudition.any fun active => active.id = audition then
      (none, ⟨.clearIfActive audition, true, none, host.renderer.activeAudition⟩)
    else (host.renderer.activeAudition, { envelope with active := host.renderer.activeAudition.map TimelineAudition.id })

def takeAudition : Host :=
  match host.renderer.pendingAuditionReceipt, host.mailbox.auditionIncoming with
  | none, some envelope =>
    { host with
      mailbox.auditionIncoming := none
      renderer.activeAudition := (host.obey envelope).1
      renderer.pendingAuditionReceipt := some (host.obey envelope).2 }
  | _, _ => host

def applyAuditionCommand : Host := host.flushAuditionReceipt.takeAudition.flushAuditionReceipt

end Auditioning

section Renderer

def pendingGate : Option PublicationGate := host.renderer.pendingTicket.map fun envelope => envelope.ticket.gate

def seekBoundary (requested : U64) : PublicationBoundary :=
  let target : I64 := .saturate (host.renderer.timeline.start.val + min requested.val 0x7fffffffffffffff)
  match host.pendingGate with
  | some (.loopWrap region) =>
    if host.projectPosition = region.stop ∧ target = region.start then .loopWrap region else .discontinuity target
  | _ => .discontinuity target

def locate (requested : U64) : Host :=
  { host with
    counters.currentlyStarving := false
    renderer.position := requested
    renderer.currentProduct := none
    renderer.currentFromPrevious := false
    renderer.starving := false }

def seek (frame : U64) : Host :=
  let host := host.applyAuditionCommand
  let requested := min frame host.renderer.timeline.len
  (host.activateIf (host.seekBoundary requested)).locate requested

/-- `control_boundary`, told whether the transport rolls. -/
def controlBoundary (rolling : Bool) : Host :=
  let host := host.applyAuditionCommand
  if rolling then host.pollTicket else host.activateIf .stopped

def renderInterleaved (length : Nat) : Host × List Float32 × Nat :=
  let host := host.applyAuditionCommand
  let host := host.activateIf (.renderQuantum host.projectPosition)
  let available := host.renderer.timeline.len.val - host.renderer.position.val
  let frames := min (length / host.channels) available
  let rendered := host.renderFrames frames
  (rendered.1, rendered.2 ++ List.replicate (length - frames * host.channels) 0, frames)

end Renderer

end Host

end Audec.Playback

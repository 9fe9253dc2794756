import Audec.Lib.Runs
import Audec.Playback.Renderer

/-! The atomic steps of both halves of a host. Every call is a sequence of them, so that their runs hold every interleaving. -/

open Machine Checked Runs

namespace Audec.Playback

open Render

/-- What either half does to the mailbox or to its own fields before the other can act. -/
inductive HostAction where
  | armTicket (ticket : PublicationTicket)
  | cancelPublication (cohort : PlaybackCohortId)
  | drainReceipt
  | setAudition (audition : TimelineAudition)
  | clearAudition (audition : TimelineAuditionId)
  | drainAuditionReceipt
  | flushReceipt
  | takeTicket
  | resolve (boundary : PublicationBoundary)
  | flushAuditionReceipt
  | takeAudition
  | locate (frame : U64)
  | renderFrame

def PublicationBoundary.Jump : PublicationBoundary → Prop
  | .loopWrap _ | .discontinuity _ => True
  | .renderQuantum _ | .stopped => False

namespace Host

def perform (host : Host) : HostAction → Host
  | .armTicket ticket => (host.armTicket ticket).1
  | .cancelPublication cohort => host.cancelPublication cohort
  | .drainReceipt => host.drainReceipt.1
  | .setAudition audition => (host.setTimelineAudition audition).1
  | .clearAudition audition => host.clearTimelineAudition audition
  | .drainAuditionReceipt => host.drainAuditionReceipt.1
  | .flushReceipt => host.flushReceipt
  | .takeTicket => host.takeTicket
  | .resolve boundary => host.resolve boundary
  | .flushAuditionReceipt => host.flushAuditionReceipt
  | .takeAudition => host.takeAudition
  | .locate frame => host.locate frame
  | .renderFrame => host.renderFrame.1

def pollSteps : List HostAction := [.flushReceipt, .takeTicket]

def boundarySteps (boundary : PublicationBoundary) : List HostAction := pollSteps ++ [.resolve boundary, .flushReceipt]

def auditionSteps : List HostAction := [.flushAuditionReceipt, .takeAudition, .flushAuditionReceipt]

variable (host : Host)

theorem seekBoundary_wrap {requested : U64} {region : RenderSpan} (wraps : host.seekBoundary requested = .loopWrap region) :
    host.projectPosition = region.stop := by
  simp only [seekBoundary] at wraps
  split at wraps
  · split at wraps
    · rename_i there
      cases wraps
      exact there.1
    · cases wraps
  · cases wraps

end Host

/-- Built by the constructor from slots that are not empty. -/
def Made (cohort : PlaybackCohort) : Prop :=
  ∃ id publicationLoop required products, (∀ slot ∈ required, slot.span.start < slot.span.stop) ∧
    PlaybackCohort.new id publicationLoop required products = .ok cohort

def Started (host : Host) : Prop := ∃ cohort, Made cohort ∧ CohortRenderer.new cohort = .ok host

theorem started_iff {host : Host} : Started host ↔ ∃ cohort, (Made cohort ∧ cohort.isReady ∧
    cohort.covers .master cohort.id.plan.compiledExtent) ∧ host = .fresh cohort := by
  constructor
  · rintro ⟨cohort, made, new⟩
    obtain ⟨ready, rest⟩ := bind_unit_ok.mp new
    obtain ⟨covers, rest⟩ := bind_unit_ok.mp rest
    cases rest
    exact ⟨cohort, ⟨made, ensure_ok.mp ready, ensure_ok.mp covers⟩, rfl⟩
  · rintro ⟨cohort, ⟨made, ready, covers⟩, rfl⟩
    exact ⟨cohort, made, bind_unit_ok.mpr ⟨ensure_ok.mpr ready, bind_unit_ok.mpr ⟨ensure_ok.mpr covers, rfl⟩⟩⟩

namespace Host

/-- Nothing waits that the start of a block would act on: only a ticket for a loop to wrap, or receipts for a full slot. -/
structure Settled (host : Host) : Prop where
  incoming : host.renderer.pendingTicket = none → host.mailbox.incoming = none
  ticket : ∀ envelope, host.renderer.pendingTicket = some envelope →
    host.mailbox.cancelThroughSequence < envelope.ticket.cohort.id.sequence ∧ ∃ region, envelope.ticket.gate = .loopWrap region
  receipt : host.renderer.pendingReceipt = none ∨ host.mailbox.receipt ≠ none
  audition : host.renderer.pendingAuditionReceipt = none → host.mailbox.auditionIncoming = none
  answer : host.renderer.pendingAuditionReceipt = none ∨ host.mailbox.auditionReceipt ≠ none

/-- One callback after another. -/
def renderBlocks : List Nat → Host → Host × List Float32 × Nat
  | [], host => (host, [], 0)
  | length :: lengths, host =>
    let first := host.renderInterleaved length
    let rest := renderBlocks lengths first.1
    (rest.1, first.2.1 ++ rest.2.1, first.2.2 + rest.2.2)

variable {host : Host}

theorem channels_pos (host : Host) : 0 < host.channels :=
  Nat.pos_of_ne_zero fun none => host.renderer.formatStamp.channelsNonzero (Fin.ext none)

theorem Settled.flushReceipt (settled : Settled host) : host.flushReceipt = host := by
  unfold Host.flushReceipt
  split
  · rename_i pending empty
    rcases settled.receipt with idle | full
    · rw [idle] at pending
      cases pending
    · exact absurd empty full
  · rfl

theorem Settled.takeTicket (settled : Settled host) : host.takeTicket = host := by
  unfold Host.takeTicket
  split
  · rfl
  · rename_i idle
    have empty := settled.incoming idle
    obtain ⟨⟨⟩, counters, ⟨⟩⟩ := host
    simp_all

theorem Settled.flushAuditionReceipt (settled : Settled host) : host.flushAuditionReceipt = host := by
  unfold Host.flushAuditionReceipt
  split
  · rename_i pending empty
    rcases settled.answer with idle | full
    · rw [idle] at pending
      cases pending
    · exact absurd empty full
  · rfl

theorem Settled.start (settled : Settled host) (frame : I64) : host.applyAuditionCommand.activateIf (.renderQuantum frame) = host := by
  have taken : host.takeAudition = host := by
    unfold takeAudition
    split
    · rename_i idle command
      rw [settled.audition idle] at command
      cases command
    · rfl
  have resolved : host.resolve (.renderQuantum frame) = host := by
    unfold resolve
    split
    · rfl
    · rename_i envelope pending
      obtain ⟨live, region, gate⟩ := settled.ticket envelope pending
      have waits : envelope.ticket.accepts (.renderQuantum frame) = false := by
        unfold PublicationTicket.accepts
        rw [gate]
      rw [if_neg (not_le.mpr live), if_neg (ne_true_of_eq_false waits)]
  rw [applyAuditionCommand, settled.flushAuditionReceipt, taken, settled.flushAuditionReceipt, activateIf, pollTicket,
    settled.flushReceipt, settled.takeTicket, resolved, settled.flushReceipt]

theorem renderFrame_kept (host : Host) : host.renderFrame.1.mailbox = host.mailbox ∧
    host.renderFrame.1.renderer.pendingTicket = host.renderer.pendingTicket ∧
    host.renderFrame.1.renderer.pendingReceipt = host.renderer.pendingReceipt ∧
    host.renderFrame.1.renderer.pendingAuditionReceipt = host.renderer.pendingAuditionReceipt ∧
    host.renderFrame.1.renderer.formatStamp = host.renderer.formatStamp ∧
    host.renderFrame.1.renderer.timeline = host.renderer.timeline ∧
    host.renderFrame.1.renderer.position = .ofNat _ (min (host.renderer.position.val + 1) 0xffffffffffffffff) := by
  simp only [renderFrame, selectProduct, reselect, noteSound, noteStarvation]
  grind

theorem renderFrames_kept (settled : Settled host) (frames : Nat) : Settled (renderFrames frames host).1 ∧
    (renderFrames frames host).1.channels = host.channels ∧
    (renderFrames frames host).1.renderer.timeline = host.renderer.timeline ∧
    (renderFrames frames host).1.renderer.position.val = min (host.renderer.position.val + frames) 0xffffffffffffffff := by
  induction frames generalizing host with
  | zero => exact ⟨settled, rfl, rfl, by simp only [renderFrames]; omega⟩
  | succ frames tail =>
    obtain ⟨mailbox, ticket, receipt, answer, format, timeline, position⟩ := host.renderFrame_kept
    have settled' : Settled host.renderFrame.1 := by
      obtain ⟨incoming', ticket', receipt', audition', answer'⟩ := settled
      constructor
      · rwa [mailbox, ticket]
      · rwa [mailbox, ticket]
      · rwa [mailbox, receipt]
      · rwa [mailbox, answer]
      · rwa [mailbox, answer]
    obtain ⟨kept, channels', timeline', position'⟩ := tail settled'
    refine ⟨kept, channels'.trans (by rw [channels, channels, format]), timeline'.trans timeline, position'.trans ?_⟩
    rw [position, Fin.val_ofNat]
    omega

theorem renderFrames_add (first second : Nat) : renderFrames (first + second) host =
    ((renderFrames second (renderFrames first host).1).1, (renderFrames first host).2 ++ (renderFrames second (renderFrames first host).1).2) := by
  induction first generalizing host with
  | zero => simp [renderFrames]
  | succ first tail =>
    rw [Nat.succ_add, renderFrames, tail]
    simp [renderFrames]

def available (host : Host) : Nat := host.renderer.timeline.len.val - host.renderer.position.val

theorem Settled.block (settled : Settled host) (length : Nat) : host.renderInterleaved length =
    ((renderFrames (min (length / host.channels) host.available) host).1,
      (renderFrames (min (length / host.channels) host.available) host).2 ++
        List.replicate (length - min (length / host.channels) host.available * host.channels) 0,
      min (length / host.channels) host.available) := by
  unfold renderInterleaved
  dsimp only
  rw [settled.start]
  rfl

theorem Settled.block_append (settled : Settled host) {first : Nat} (whole : host.channels ∣ first) (second : Nat) :
    host.renderInterleaved (first + second) = (((host.renderInterleaved first).1.renderInterleaved second).1,
      (host.renderInterleaved first).2.1 ++ ((host.renderInterleaved first).1.renderInterleaved second).2.1,
      (host.renderInterleaved first).2.2 + ((host.renderInterleaved first).1.renderInterleaved second).2.2) := by
  obtain ⟨frames, rfl⟩ := whole
  have positive := host.channels_pos
  obtain ⟨kept, channels, timeline, position⟩ := renderFrames_kept settled (min frames host.available)
  have rest : (renderFrames (min frames host.available) host).1.available = host.available - min frames host.available := by
    have bound := host.renderer.timeline.len.isLt
    have bound' := host.renderer.position.isLt
    simp only [available] at timeline position ⊢
    rw [timeline, position]
    omega
  have count (more : Nat) : min (frames + more) host.available =
      min frames host.available + min more (host.available - min frames host.available) := by omega
  rw [settled.block, settled.block, Nat.mul_add_div positive, Nat.mul_div_cancel_left _ positive, kept.block, channels, rest, count,
    renderFrames_add]
  refine congrArg (Prod.mk _) (congrArg (Prod.mk · _) ?_)
  rcases le_or_gt frames host.available with inside | beyond
  · rw [min_eq_left inside, Nat.mul_comm, Nat.sub_self, List.replicate_zero, List.append_nil, List.append_assoc, Nat.add_mul,
      Nat.add_sub_add_left]
  · rw [min_eq_right beyond.le, Nat.sub_self, Nat.min_zero, Nat.add_zero, Nat.zero_mul, Nat.sub_zero, renderFrames, List.append_nil,
      List.nil_append, List.append_assoc, List.replicate_append_replicate, Nat.mul_comm host.channels frames,
      Nat.sub_add_comm (Nat.mul_le_mul_right _ beyond.le)]

/-- The sizes of the blocks that the device asks for are not heard. -/
theorem blocks_heard_alike (settled : Settled host) (lengths : List Nat) (whole : ∀ length ∈ lengths, host.channels ∣ length) :
    renderBlocks lengths host = host.renderInterleaved lengths.sum := by
  induction lengths generalizing host with
  | nil => simp [settled.block, renderBlocks, renderFrames]
  | cons length lengths tail =>
    obtain ⟨first, others⟩ := List.forall_mem_cons.mp whole
    obtain ⟨kept, channels, -⟩ := renderFrames_kept settled (min (length / host.channels) host.available)
    have next : (host.renderInterleaved length).1 = (renderFrames (min (length / host.channels) host.available) host).1 := by
      rw [settled.block]
    rw [List.sum_cons, settled.block_append first, renderBlocks, tail]
    · rwa [next]
    · rwa [next, channels]

end Host

section Example

/-- A timeline of four frames. -/
def shortPlan : RenderPlanId :=
  ⟨1, 7, .zero, ⟨0, 0, 0, 0, 0, 0, 0, 0, 0⟩, ⟨.saturate 0, .saturate 4⟩, plainEngine, [], unstamped_sorted⟩

def masterSlot (start stop : Int) : RenderSlot := ⟨.master, ⟨.saturate start, .saturate stop⟩⟩

def masterEntry (partition : ProductPartition) (start stop : Int) (sample : Float32) : CohortProduct where
  slot := masterSlot start stop
  product :=
    { id := ⟨plainRecipe, plainEngine.format, .ofNat _ (stop - start).toNat⟩
      producedBy := ⟨shortPlan, .master, ⟨.saturate start, .saturate stop⟩, partition, plainRecipe⟩
      interleaved := List.replicate (2 * (stop - start).toNat) sample }
  provenance := .renderedForTarget

def cohortOf (sequence : U64) (required : List RenderSlot) (products : List CohortProduct) : Except RenderProductError PlaybackCohort :=
  PlaybackCohort.new ⟨shortPlan, sequence⟩ none required products

def madeCohort (sequence : U64) (required : List RenderSlot) (products : List CohortProduct) : PlaybackCohort :=
  (cohortOf sequence required products).toOption.getD ⟨⟨shortPlan, sequence⟩, none, [], ∅, .ready⟩

theorem madeCohort_made {sequence : U64} {required : List RenderSlot} {products : List CohortProduct}
    (proper : ∀ slot ∈ required, slot.span.start < slot.span.stop)
    (done : (cohortOf sequence required products).toOption.isSome = true) : Made (madeCohort sequence required products) := by
  refine ⟨⟨shortPlan, sequence⟩, none, required, products, proper, ?_⟩
  show cohortOf sequence required products = _
  unfold madeCohort
  cases result : cohortOf sequence required products with
  | ok cohort => rfl
  | error error =>
    rw [result] at done
    cases done

def bounce (sample : Float32) : PlaybackCohort := madeCohort 1 [masterSlot 0 4] [masterEntry .wholeBounce 0 4 sample]

theorem bounce_started (sample : Float32) : Started (.fresh (bounce sample)) := by
  refine started_iff.mpr ⟨bounce sample, ⟨madeCohort_made (by decide) ?_, ?_, ?_⟩, rfl⟩
  · rfl
  · rfl
  · rfl

theorem bounce_blocks : Host.renderBlocks [2, 4] (.fresh (bounce 0)) = Host.renderInterleaved (.fresh (bounce 0)) 6 := by
  refine Host.blocks_heard_alike ⟨fun _ => rfl, ?_, .inl rfl, fun _ => rfl, .inl rfl⟩ [2, 4] (by decide)
  intro envelope pending
  cases pending

end Example

end Audec.Playback

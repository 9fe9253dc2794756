import Audec.Playback.Interleaving
import Audec.Render.SlotOrder

/-! Playback reads each frame from the newest cohort that has it, unless the product that plays still holds the frame. -/

open Machine Checked Filling Runs List
open Std (ExtTreeMap)

namespace Audec.Render

section Slots

theorem RenderSpan.contains_iff {span : RenderSpan} {frame : I64} : span.contains frame = true ↔ span.start ≤ frame ∧ frame < span.stop :=
  decide_eq_true_iff

end Slots

end Audec.Render

namespace Audec.Playback

open Render

section Cohorts

variable {cohort : PlaybackCohort}

structure Laid (cohort : PlaybackCohort) : Prop where
  product : ∀ entry ∈ cohort.products, entry.product.producedBy.scope = entry.slot.scope ∧ entry.product.producedBy.core = entry.slot.span
  alone : ∀ entry ∈ cohort.products, ∀ other ∈ cohort.products, entry.slot.scope = .master → other.slot.scope = .master →
    ∀ frame, entry.slot.span.contains frame = true → other.slot.span.contains frame = true → entry = other

variable {entry : CohortProduct} {frame : I64} {span : RenderSpan}

theorem validateFor_slot {target : RenderPlanId} (valid : entry.validateFor target = .ok ()) :
    entry.product.producedBy.scope = entry.slot.scope ∧ entry.product.producedBy.core = entry.slot.span := by
  unfold CohortProduct.validateFor at valid
  split at valid
  · cases valid
  · rename_i same
    rw [not_or, not_not, not_not] at same
    exact same

theorem Made.laid (made : Made cohort) : Laid cohort := by
  obtain ⟨id, publicationLoop, required, products, proper, new⟩ := made
  unfold PlaybackCohort.new at new
  obtain ⟨-, new⟩ := bind_unit_ok.mp new
  cases apart : overlapping (sortedSlots required) with
  | some pair =>
    rw [apart] at new
    cases new
  | none =>
    rw [apart] at new
    obtain ⟨entries, filled, same⟩ := bind_ok.mp new
    cases same
    obtain ⟨checked, distinct, -, rfl⟩ := (fill_ok enter_ok).mp filled
    have held (entry : CohortProduct) : entry ∈ Entries.values (insertItems (·.slot) ∅ products) ↔ entry ∈ products := by
      rw [Entries.mem_values]
      constructor
      · rintro ⟨slot, found⟩
        exact ((lookup_filled distinct).mp found).1
      · exact fun member => ⟨entry.slot, (lookup_filled distinct).mpr ⟨member, rfl⟩⟩
    have spaced := scopes_apart (sortedSlots_pairwise required) apart fun slot member => proper slot (mem_of_mem_sortedSlots member)
    refine ⟨fun entry member => validateFor_slot (checked entry ((held entry).mp member)).2, ?_⟩
    intro entry member other member' master master' frame inside inside'
    rw [RenderSpan.contains_iff] at inside inside'
    have member := (held entry).mp member
    have member' := (held other).mp member'
    have same : entry.slot = other.slot := by
      by_contra different
      have either := apart_slots spaced (checked entry member).1 (checked other member').1 different (master.trans master'.symm)
      rcases either with before | before
      · exact absurd (inside.2.trans_le before) (not_lt.mpr inside'.1)
      · exact absurd (inside'.2.trans_le before) (not_lt.mpr inside.1)
    exact inj_on_of_nodup_map distinct member member' same

variable {scope : RenderScope}

theorem mem_of_entryAt (found : cohort.entryAt scope frame = some entry) :
    entry ∈ cohort.products ∧ entry.slot.scope = scope ∧ entry.slot.span.contains frame = true := by
  unfold PlaybackCohort.entryAt at found
  have passes := find?_some found
  rw [decide_eq_true_eq] at passes
  exact ⟨mem_of_find?_eq_some found, passes.1, passes.2⟩

theorem entryAt_none (absent : cohort.entryAt scope frame = none)
    (member : entry ∈ cohort.products) (inScope : entry.slot.scope = scope) : ¬ entry.slot.span.contains frame = true := by
  intro inside
  unfold PlaybackCohort.entryAt at absent
  exact find?_eq_none.mp absent entry member (decide_eq_true ⟨inScope, inside⟩)

theorem Laid.entryAt (laid : Laid cohort) (member : entry ∈ cohort.products) (master : entry.slot.scope = .master)
    (inside : entry.slot.span.contains frame = true) : cohort.entryAt .master frame = some entry := by
  cases found : cohort.entryAt .master frame with
  | none => exact absurd inside (entryAt_none found member master)
  | some other =>
    obtain ⟨member', master', inside'⟩ := mem_of_entryAt found
    rw [laid.alone other member' entry member master' master frame inside' inside]

theorem reaches_frame {entries : List CohortProduct} {cursor : I64}
    (reached : PlaybackCohort.reaches span cursor entries = true) (start : cursor ≤ frame) (stop : frame < span.stop) :
    ∃ entry ∈ entries, entry.slot.span.contains frame = true := by
  induction entries generalizing cursor with
  | nil => cases reached
  | cons entry rest tail =>
    unfold PlaybackCohort.reaches at reached
    cases overlaps : entry.slot.span.intersection span with
    | none =>
      rw [overlaps] at reached
      cases reached
    | some overlap =>
      rw [overlaps] at reached
      simp only [RenderSpan.intersection, Option.ite_none_right_eq_some, Option.some.injEq] at overlaps
      obtain ⟨-, rfl⟩ := overlaps
      dsimp only at reached
      split at reached
      · cases reached
      · rename_i adjacent
        by_cases own : frame < entry.slot.span.stop
        · have begun : entry.slot.span.start ≤ frame := (le_max_left _ _).trans ((not_lt.mp adjacent).trans start)
          exact ⟨entry, mem_cons_self, RenderSpan.contains_iff.mpr ⟨begun, own⟩⟩
        · have past : max cursor (min entry.slot.span.stop span.stop) ≤ frame :=
            max_le start ((min_le_left _ _).trans (not_lt.mp own))
          split at reached
          · rename_i complete
            exact absurd (lt_of_le_of_lt past stop) (not_lt.mpr complete)
          · obtain ⟨other, member, inside⟩ := tail reached past
            exact ⟨other, mem_cons_of_mem _ member, inside⟩

theorem covers_frame (covers : cohort.covers .master span = true) (inside : span.contains frame = true) :
    (cohort.entryAt .master frame).isSome = true := by
  obtain ⟨start, stop⟩ := RenderSpan.contains_iff.mp inside
  obtain ⟨entry, member, within⟩ := reaches_frame covers start stop
  obtain ⟨member, both⟩ := mem_filter.mp member
  have master := (of_decide_eq_true both).1
  refine Option.isSome_iff_ne_none.mpr fun absent => ?_
  exact entryAt_none absent member master within

theorem covers_nonempty (covers : cohort.covers .master span = true) : span.start < span.stop := by
  unfold PlaybackCohort.covers at covers
  cases held : cohort.products.filter fun entry => entry.slot.scope = .master ∧ entry.slot.span.intersects span with
  | nil =>
    rw [held] at covers
    cases covers
  | cons entry rest =>
    rw [held] at covers
    unfold PlaybackCohort.reaches at covers
    cases overlaps : entry.slot.span.intersection span with
    | none =>
      rw [overlaps] at covers
      cases covers
    | some overlap =>
      simp only [RenderSpan.intersection, Option.ite_none_right_eq_some, Option.some.injEq] at overlaps
      exact lt_of_le_of_lt (le_max_right _ _) (overlaps.1.trans_le (min_le_right _ _))

end Cohorts

def Whole (cohort : PlaybackCohort) : Prop :=
  Made cohort ∧ (cohort.isReady = true → cohort.covers .master cohort.id.plan.compiledExtent = true)

namespace Host

variable {host : Host}

structure Tiled (timeline : RenderSpan) (cohort : PlaybackCohort) : Prop where
  laid : Laid cohort
  full : cohort.isReady = true → ∀ frame, timeline.contains frame = true → (cohort.entryAt .master frame).isSome = true

theorem tiled_of_whole {cohort : PlaybackCohort} (whole : Whole cohort) : Tiled cohort.id.plan.compiledExtent cohort where
  laid := whole.1.laid
  full ready _ inside := covers_frame (whole.2 ready) inside

def source (host : Host) : Option PlaybackCohort :=
  if host.renderer.currentFromPrevious then host.renderer.fallback else some host.renderer.active

structure Sound (host : Host) : Prop where
  proper : host.renderer.timeline.start < host.renderer.timeline.stop
  active : Tiled host.renderer.timeline host.renderer.active
  fallback : ∀ cohort, host.renderer.fallback = some cohort → Tiled host.renderer.timeline cohort ∧ cohort.isReady = true
  backed : host.renderer.active.isReady = false → host.renderer.fallback.isSome = true
  current : ∀ product, host.renderer.currentProduct = some product →
    ∃ cohort entry, host.source = some cohort ∧ entry ∈ cohort.products ∧ entry.product = product
  incoming : ∀ envelope, host.mailbox.incoming = some envelope → Tiled host.renderer.timeline envelope.ticket.cohort
  pending : ∀ envelope, host.renderer.pendingTicket = some envelope → Tiled host.renderer.timeline envelope.ticket.cohort

def InTime (host : Host) : Prop := host.renderer.position.val < host.renderer.timeline.len.val

section

variable (proper : host.renderer.timeline.start < host.renderer.timeline.stop) (inTime : host.InTime)
include proper inTime

theorem projectPosition_val :
    host.projectPosition.val = host.renderer.timeline.start.val + host.renderer.position.val ∧
      host.renderer.timeline.start.val + host.renderer.position.val < host.renderer.timeline.stop.val := by
  have order : host.renderer.timeline.start.val < host.renderer.timeline.stop.val := proper
  have bound : host.renderer.position.val < host.renderer.timeline.len.val := inTime
  have lower := host.renderer.timeline.start.lower
  have upper := host.renderer.timeline.stop.upper
  simp only [RenderSpan.len, I64.saturatingSub, I64.saturate, Fin.val_ofNat] at bound
  have position : (host.renderer.position.val : Int) < host.renderer.timeline.stop.val - host.renderer.timeline.start.val ∧
      host.renderer.position.val < 0x7fffffffffffffff := by omega
  refine ⟨?_, by omega⟩
  rw [projectPosition, I64.saturate_val _ (by omega) (by omega)]
  omega

theorem inTime_contains :
    host.renderer.timeline.contains host.projectPosition = true := by
  obtain ⟨value, inside⟩ := projectPosition_val proper inTime
  rw [RenderSpan.contains_iff, I64.le_iff, I64.lt_iff, value]
  omega

end

structure SlotBySlot (host : Host) : Prop where
  newest : ∀ entry, host.renderer.active.entryAt .master host.projectPosition = some entry →
    host.renderFrame.2 = host.mixAuditionFrame host.projectPosition (productFrame host.channels entry.product host.projectPosition) ∧
      host.renderFrame.1.counters.fallbackFrames = host.counters.fallbackFrames ∧
      host.renderFrame.1.counters.currentlyFromPrevious = false
  previous : host.renderer.active.entryAt .master host.projectPosition = none → ∀ cohort entry,
    host.renderer.fallback = some cohort → cohort.entryAt .master host.projectPosition = some entry →
      host.renderFrame.2 = host.mixAuditionFrame host.projectPosition (productFrame host.channels entry.product host.projectPosition) ∧
        host.renderFrame.1.counters.fallbackFrames = host.counters.fallbackFrames + 1 ∧
        host.renderFrame.1.counters.currentlyFromPrevious = true
  heard : host.renderFrame.1.counters.starvedFrames = host.counters.starvedFrames

/-- The product that plays is not one of the fallback that reaches into an entry of the active cohort. -/
def InSlot (host : Host) : Prop :=
  ¬ (host.renderer.currentFromPrevious = true ∧ host.currentMatches host.projectPosition = true ∧
    (host.renderer.active.entryAt .master host.projectPosition).isSome = true)

variable {previous : Bool} {product : RenderProduct}

theorem renderFrame_playing
    (playing : (host.reselect host.projectPosition).renderer.currentProduct = some product)
    (from' : (host.reselect host.projectPosition).renderer.currentFromPrevious = previous) :
    host.renderFrame.2 = host.mixAuditionFrame host.projectPosition (productFrame host.channels product host.projectPosition) ∧
      host.renderFrame.1.counters.fallbackFrames = host.counters.fallbackFrames + (if previous then 1 else 0) ∧
      host.renderFrame.1.counters.currentlyFromPrevious = previous ∧
      host.renderFrame.1.counters.starvedFrames = host.counters.starvedFrames := by
  have counters : (host.reselect host.projectPosition).counters = host.counters := by
    unfold reselect
    split <;> rfl
  have stamp : (host.reselect host.projectPosition).channels = host.channels := by
    unfold reselect
    split <;> rfl
  have audition : (host.reselect host.projectPosition).mixAuditionFrame = host.mixAuditionFrame := by
    unfold reselect
    split <;> rfl
  simp only [renderFrame, selectProduct, playing, from', counters]
  refine ⟨?_, rfl, rfl, rfl⟩
  rw [← audition, ← stamp]
  rfl

def Newest (host : Host) (product : RenderProduct) (previous : Bool) : Prop :=
  (previous = false ∧ ∃ entry, host.renderer.active.entryAt .master host.projectPosition = some entry ∧ entry.product = product) ∨
    (previous = true ∧ host.renderer.active.entryAt .master host.projectPosition = none ∧ ∃ cohort entry,
      host.renderer.fallback = some cohort ∧ cohort.entryAt .master host.projectPosition = some entry ∧ entry.product = product)

theorem slotBySlot_of_newest
    (playing : (host.reselect host.projectPosition).renderer.currentProduct = some product)
    (from' : (host.reselect host.projectPosition).renderer.currentFromPrevious = previous) (newest : host.Newest product previous) :
    host.SlotBySlot := by
  obtain ⟨output, fallbacks, reported, starved⟩ := renderFrame_playing playing from'
  refine ⟨fun entry held => ?_, fun absent cohort entry kept held => ?_, starved⟩
  · rcases newest with ⟨rfl, other, held', rfl⟩ | ⟨-, absent, -⟩
    · rw [held] at held'
      cases held'
      exact ⟨output, by simpa using fallbacks, reported⟩
    · rw [held] at absent
      cases absent
  · rcases newest with ⟨rfl, other, held', -⟩ | ⟨rfl, -, cohort', other, kept', held', rfl⟩
    · rw [absent] at held'
      cases held'
    · rw [kept] at kept'
      cases kept'
      rw [held] at held'
      cases held'
      exact ⟨output, by simpa using fallbacks, reported⟩

theorem Sound.selected (sound : host.Sound) (inTime : host.InTime) :
    ∃ product previous, host.selected host.projectPosition = some (product, previous) ∧ host.Newest product previous := by
  have inside := inTime_contains sound.proper inTime
  unfold Host.selected Newest
  cases held : host.renderer.active.entryAt .master host.projectPosition with
  | some entry => exact ⟨entry.product, false, rfl, .inl ⟨rfl, entry, rfl, rfl⟩⟩
  | none =>
    have priming : host.renderer.active.isReady = false := by
      by_contra ready
      have present := sound.active.full (Bool.eq_true_of_not_eq_false ready) _ inside
      rw [held] at present
      cases present
    obtain ⟨cohort, kept⟩ := Option.isSome_iff_exists.mp (sound.backed priming)
    obtain ⟨tiled, ready⟩ := sound.fallback cohort kept
    obtain ⟨entry, held'⟩ := Option.isSome_iff_exists.mp (tiled.full ready _ inside)
    refine ⟨entry.product, true, ?_, .inr ⟨rfl, rfl, cohort, entry, kept, held', rfl⟩⟩
    rw [kept, Option.bind_some, held']
    rfl

theorem Sound.matching (sound : host.Sound) (current : host.currentMatches host.projectPosition = true) :
    ∃ product cohort entry, host.renderer.currentProduct = some product ∧ host.source = some cohort ∧
      cohort.entryAt .master host.projectPosition = some entry ∧ entry.product = product := by
  obtain ⟨product, playing, holds⟩ := (Option.any_eq_true _ _).mp current
  obtain ⟨master, inside⟩ := of_decide_eq_true holds
  obtain ⟨cohort, entry, taken, member, rfl⟩ := sound.current product playing
  have laid : Laid cohort := by
    unfold source at taken
    split at taken
    · exact (sound.fallback cohort taken).1.laid
    · cases taken
      exact sound.active.laid
  obtain ⟨scope, core⟩ := laid.product entry member
  exact ⟨entry.product, cohort, entry, playing, taken, laid.entryAt member (scope ▸ master) (core ▸ inside), rfl⟩

variable {frame : I64} {events : List (Event Host HostAction)}

theorem reselect_kept (current : host.currentMatches frame = true) : host.reselect frame = host := if_pos current

theorem reselect_chosen (current : ¬ host.currentMatches frame = true)
    (chosen : host.selected frame = some (product, previous)) : (host.reselect frame).renderer.currentProduct = some product ∧
      (host.reselect frame).renderer.currentFromPrevious = previous := by
  rw [reselect, if_neg current, chosen]
  exact ⟨rfl, rfl⟩

theorem slotBySlot_iff (sound : host.Sound) (inTime : host.InTime) : host.SlotBySlot ↔ host.InSlot := by
  by_cases current : host.currentMatches host.projectPosition = true
  · obtain ⟨product, cohort, entry, playing, taken, held, same⟩ := sound.matching current
    have playing' : (host.reselect host.projectPosition).renderer.currentProduct = some product := by
      rw [reselect_kept current]
      exact playing
    have from' : (host.reselect host.projectPosition).renderer.currentFromPrevious = host.renderer.currentFromPrevious := by
      rw [reselect_kept current]
    cases previous : host.renderer.currentFromPrevious with
    | false =>
      rw [previous] at from'
      rw [source, previous] at taken
      cases taken
      refine iff_of_true (slotBySlot_of_newest playing' from' (.inl ⟨rfl, entry, held, same⟩)) fun outlasts => ?_
      rw [previous] at outlasts
      cases outlasts.1
    | true =>
      rw [previous] at from'
      rw [source, previous, if_pos rfl] at taken
      cases own : host.renderer.active.entryAt .master host.projectPosition with
      | none =>
        refine iff_of_true (slotBySlot_of_newest playing' from' (.inr ⟨rfl, own, cohort, entry, taken, held, same⟩)) fun outlasts => ?_
        rw [own] at outlasts
        cases outlasts.2.2
      | some newer =>
        refine iff_of_false (fun slots => ?_) fun inSlot => inSlot ⟨previous, current, by rw [own]; rfl⟩
        obtain ⟨-, -, reported, -⟩ := renderFrame_playing playing' from'
        rw [(slots.newest newer own).2.2] at reported
        cases reported
  · obtain ⟨product, previous, chosen, newest⟩ := sound.selected inTime
    obtain ⟨playing, from'⟩ := reselect_chosen current chosen
    exact iff_of_true (slotBySlot_of_newest playing from' newest) fun outlasts => current outlasts.2.1

theorem heard_of_sound (sound : host.Sound) (inTime : host.InTime) :
    host.renderFrame.1.counters.starvedFrames = host.counters.starvedFrames := by
  by_cases current : host.currentMatches host.projectPosition = true
  · obtain ⟨product, -, -, playing, -⟩ := sound.matching current
    exact (renderFrame_playing ((reselect_kept current).symm ▸ playing) rfl).2.2.2
  · obtain ⟨product, previous, chosen, -⟩ := sound.selected inTime
    obtain ⟨playing, from'⟩ := reselect_chosen current chosen
    exact (renderFrame_playing playing from').2.2.2

section Kept

theorem Sound.of_same (sound : host.Sound) {after : Host} (timeline : after.renderer.timeline = host.renderer.timeline)
    (active : after.renderer.active = host.renderer.active) (fallback : after.renderer.fallback = host.renderer.fallback)
    (current : ∀ product, after.renderer.currentProduct = some product →
      ∃ cohort entry, after.source = some cohort ∧ entry ∈ cohort.products ∧ entry.product = product)
    (incoming : ∀ envelope, after.mailbox.incoming = some envelope → Tiled host.renderer.timeline envelope.ticket.cohort)
    (pending : ∀ envelope, after.renderer.pendingTicket = some envelope → Tiled host.renderer.timeline envelope.ticket.cohort) :
    after.Sound where
  proper := timeline ▸ sound.proper
  active := by
    rw [timeline, active]
    exact sound.active
  fallback := by
    rw [timeline, fallback]
    exact sound.fallback
  backed := by
    rw [active, fallback]
    exact sound.backed
  current := current
  incoming := timeline ▸ incoming
  pending := timeline ▸ pending

theorem Sound.selected_source (sound : host.Sound) {frame : I64} {product : RenderProduct}
    (playing : (host.reselect frame).renderer.currentProduct = some product) :
    ∃ cohort entry, (host.reselect frame).source = some cohort ∧ entry ∈ cohort.products ∧ entry.product = product := by
  by_cases current : host.currentMatches frame = true
  · rw [reselect_kept current] at playing ⊢
    exact sound.current product playing
  · rw [reselect, if_neg current] at playing ⊢
    obtain ⟨⟨found, previous⟩, chosen, rfl⟩ := Option.map_eq_some_iff.mp playing
    unfold source
    rw [chosen]
    unfold Host.selected at chosen
    cases held : host.renderer.active.entryAt .master frame with
    | some entry =>
      rw [held] at chosen
      cases chosen
      exact ⟨_, entry, rfl, (mem_of_entryAt held).1, rfl⟩
    | none =>
      rw [held] at chosen
      obtain ⟨entry, found, same⟩ := Option.map_eq_some_iff.mp chosen
      obtain ⟨cohort, kept, found⟩ := Option.bind_eq_some_iff.mp found
      cases same
      exact ⟨cohort, entry, kept, (mem_of_entryAt found).1, rfl⟩

theorem renderFrame_fields (host : Host) : host.renderFrame.1.mailbox = host.mailbox ∧
    host.renderFrame.1.renderer.timeline = host.renderer.timeline ∧ host.renderFrame.1.renderer.active = host.renderer.active ∧
    host.renderFrame.1.renderer.fallback = host.renderer.fallback ∧
    host.renderFrame.1.renderer.pendingTicket = host.renderer.pendingTicket ∧
    host.renderFrame.1.renderer.currentProduct = (host.reselect host.projectPosition).renderer.currentProduct ∧
    host.renderFrame.1.source = (host.reselect host.projectPosition).source := by
  simp only [renderFrame, selectProduct, reselect, noteSound, noteStarvation, source]
  grind

section

variable (sound : host.Sound)
include sound

theorem Sound.renderFrame : host.renderFrame.1.Sound := by
  obtain ⟨mailbox, timeline, active, fallback, pending, current, source⟩ := host.renderFrame_fields
  refine sound.of_same timeline active fallback ?_ (mailbox ▸ sound.incoming) (pending ▸ sound.pending)
  rw [current, source]
  exact fun product playing => sound.selected_source playing

theorem Sound.activate {envelope : PublicationEnvelope} (pending : host.renderer.pendingTicket = some envelope) :
    (host.activate envelope).Sound where
  proper := sound.proper
  active := sound.pending envelope pending
  fallback := by
    intro cohort kept
    have kept : (host.succession envelope.ticket.cohort).1 = some cohort := kept
    unfold succession at kept
    split at kept
    · cases kept
    · split at kept
      · rename_i ready
        cases kept
        exact ⟨sound.active, ready⟩
      · exact sound.fallback cohort kept
  backed := by
    intro priming
    have priming : envelope.ticket.cohort.isReady = false := priming
    show (host.succession envelope.ticket.cohort).1.isSome = true
    rw [succession, if_neg (Bool.not_eq_true _ ▸ priming)]
    split
    · rfl
    · rename_i unready
      exact sound.backed (Bool.eq_false_of_not_eq_true unready)
  current _ playing := by cases playing
  incoming := sound.incoming
  pending _ held := by cases held

theorem Sound.resolve (boundary : PublicationBoundary) : (host.resolve boundary).Sound := by
  cases pending : host.renderer.pendingTicket with
  | none =>
    rw [Host.resolve, pending]
    exact sound
  | some envelope =>
    rw [Host.resolve, pending]
    dsimp only
    split
    · exact sound.of_same rfl rfl rfl sound.current sound.incoming fun _ held => by cases held
    · split
      · exact sound.activate pending
      · exact sound

theorem Sound.armTicket {ticket : PublicationTicket} (whole : Whole ticket.cohort) :
    (host.armTicket ticket).1.Sound := by
  unfold Host.armTicket
  cases valid : host.validateTicket ticket with
  | error error => exact sound
  | ok done =>
    obtain ⟨-, timeline⟩ := bind_unit_ok.mp valid
    have tiled : Tiled host.renderer.timeline ticket.cohort := ensure_ok.mp timeline ▸ tiled_of_whole whole
    cases busy : host.mailbox.incoming with
    | some other => exact sound.of_same rfl rfl rfl sound.current sound.incoming sound.pending
    | none =>
      refine sound.of_same rfl rfl rfl sound.current (fun envelope arrives => ?_) sound.pending
      cases arrives
      exact tiled

theorem Sound.takeTicket : host.takeTicket.Sound := by
  unfold Host.takeTicket
  split
  · exact sound
  · exact sound.of_same rfl rfl rfl sound.current (fun _ held => by cases held) sound.incoming

theorem Sound.perform {action : HostAction} (whole : ∀ ticket, action = .armTicket ticket → Whole ticket.cohort) :
    (host.perform action).Sound := by
  have quietly {after : Host} (mailbox : after.mailbox.incoming = host.mailbox.incoming) (timeline : after.renderer.timeline = host.renderer.timeline)
      (active : after.renderer.active = host.renderer.active) (fallback : after.renderer.fallback = host.renderer.fallback)
      (current : after.renderer.currentProduct = host.renderer.currentProduct) (source : after.source = host.source)
      (pending : after.renderer.pendingTicket = host.renderer.pendingTicket) : after.Sound := by
    refine sound.of_same timeline active fallback ?_ (mailbox ▸ sound.incoming) (pending ▸ sound.pending)
    rw [current, source]
    exact sound.current
  cases action with
  | armTicket ticket => exact sound.armTicket (whole ticket rfl)
  | takeTicket => exact sound.takeTicket
  | resolve boundary => exact sound.resolve boundary
  | renderFrame => exact sound.renderFrame
  | locate frame => exact sound.of_same rfl rfl rfl (fun _ playing => by cases playing) sound.incoming sound.pending
  | setAudition audition =>
    apply quietly <;> simp only [Host.perform, setTimelineAudition] <;> split <;> (try split) <;> rfl
  | clearAudition audition =>
    apply quietly <;> simp only [Host.perform, clearTimelineAudition] <;> split <;> rfl
  | flushReceipt =>
    apply quietly <;> simp only [Host.perform, Host.flushReceipt] <;> split <;> rfl
  | flushAuditionReceipt =>
    apply quietly <;> simp only [Host.perform, Host.flushAuditionReceipt] <;> split <;> rfl
  | takeAudition =>
    apply quietly <;> simp only [Host.perform, Host.takeAudition] <;> split <;> rfl
  | _ => exact quietly rfl rfl rfl rfl rfl rfl rfl

end

theorem Started.sound (started : Started host) : host.Sound := by
  obtain ⟨cohort, ⟨made, ready, covers⟩, rfl⟩ := started_iff.mp started
  exact
    { proper := covers_nonempty covers
      active := tiled_of_whole ⟨made, fun _ => covers⟩
      fallback := fun _ held => by cases held
      backed := fun priming => by
        have priming : cohort.isReady = false := priming
        rw [ready] at priming
        cases priming
      current := fun _ playing => by cases playing
      incoming := fun _ held => by cases held
      pending := fun _ held => by cases held }

end Kept

def Provided (event : Event Host HostAction) : Prop := ∀ ticket, event.action = .armTicket ticket → Whole ticket.cohort

theorem run_sound (run : Run perform Started events host)
    (provided : ∀ event ∈ events, Provided event) : host.Sound :=
  run.invariant Sound (fun _ => Started.sound) (fun _ _ sound whole => sound.perform whole) provided

theorem run_sound_before (run : Run perform Started events host)
    (provided : ∀ event ∈ events, Provided event) {event : Event Host HostAction} (member : event ∈ events) : event.before.Sound := by
  obtain ⟨earlier, later, split⟩ := append_of_mem member
  exact run_sound (run.upto split) fun other inside => provided other (split ▸ mem_append_left _ inside)

/-- In every run with whole tickets, a frame of the timeline is played slot by slot exactly when the product that plays does not outlast
    its slot; a sample of one cohort or the other is always found, and a priming cohort always has a complete one behind it. -/
theorem slot_by_slot_iff {events : List (Event Host HostAction)} (run : Run perform Started events host)
    (provided : ∀ event ∈ events, Provided event) :
    (∀ event ∈ events, event.action = .renderFrame → event.before.InTime → (event.before.SlotBySlot ↔ event.before.InSlot)) ∧
      (∀ event ∈ events, event.action = .renderFrame → event.before.InTime →
        (event.before.perform event.action).counters.starvedFrames = event.before.counters.starvedFrames) ∧
      (host.renderer.active.isReady = false → ∃ cohort, host.renderer.fallback = some cohort ∧ cohort.isReady = true) := by
  refine ⟨fun event member _ inTime => slotBySlot_iff (run_sound_before run provided member) inTime, ?_, fun priming => ?_⟩
  · intro event member rendered inTime
    have sound := run_sound_before run provided member
    rw [rendered]
    exact heard_of_sound sound inTime
  · have sound := run_sound run provided
    obtain ⟨cohort, kept⟩ := Option.isSome_iff_exists.mp (sound.backed priming)
    exact ⟨cohort, kept, (sound.fallback cohort kept).2⟩

section Example

theorem two_power : isPowerOfTwo 2 := by decide

def two : TileGrid := ⟨2, two_power⟩

def tileEntry (index : Int) (sample : Float32) : CohortProduct :=
  masterEntry (.tile two (.saturate index)) (2 * index) (2 * index + 2) sample

def halves : List RenderSlot := [masterSlot 0 2, masterSlot 2 4]

def priming (index : Int) (sample : Float32) : PlaybackCohort := madeCohort 2 halves [tileEntry index sample]

def heardFrom (index : Int) (frames : Nat) : List HostAction :=
  [.armTicket ⟨priming index 1, .immediate⟩, .takeTicket, .resolve (.renderQuantum .zero)] ++ List.replicate frames .renderFrame

theorem heardFrom_provided {index : Int} (whole : Whole (priming index 1)) {frames : Nat} {start : Host} :
    ∀ event ∈ trace perform start (heardFrom index frames), Provided event := by
  intro event member ticket arms
  have taken : event.action ∈ heardFrom index frames := trace_actions start (heardFrom index frames) ▸ mem_map_of_mem member
  rw [arms] at taken
  rcases mem_append.mp taken with first | rendered
  · rcases mem_cons.mp first with same | others
    · cases same
      exact whole
    · rcases mem_cons.mp others with same | last
      · cases same
      · cases mem_singleton.mp last
  · cases eq_of_mem_replicate rendered

theorem second_whole : Whole (priming 1 1) := ⟨madeCohort_made (by decide) rfl, by decide⟩

theorem first_whole : Whole (priming 0 1) := ⟨madeCohort_made (by decide) rfl, by decide⟩

/-- The bounce that the first frames are read from plays on over the tile that has been rendered. -/
theorem bounce_outlasts : ¬ ∀ (events : List (Event Host HostAction)) (host : Host), Run perform Started events host →
    (∀ event ∈ events, Provided event) → ∀ event ∈ events, event.action = .renderFrame → event.before.InTime → event.before.SlotBySlot := by
  intro claim
  have run := @Run.tracing _ _ perform _ _ (bounce_started 0) (heardFrom 1 3)
  have last : ⟨(heardFrom 1 2).foldl perform (.fresh (bounce 0)), .renderFrame⟩ ∈ trace perform (.fresh (bounce 0)) (heardFrom 1 3) :=
    trace_concat (Host.fresh (bounce 0)) (heardFrom 1 2) .renderFrame ▸ List.mem_append_right _ List.mem_cons_self
  have inTime : ((heardFrom 1 2).foldl perform (.fresh (bounce 0))).InTime := by
    unfold InTime
    decide
  have slots := claim _ _ run (heardFrom_provided second_whole) _ last rfl inTime
  have sound := run_sound_before run (heardFrom_provided second_whole) last
  exact (slotBySlot_iff sound inTime).mp slots ⟨rfl, rfl, rfl⟩

/-- Where the tile comes first, the rest is read from the bounce. -/
theorem tile_first : (trace perform (.fresh (bounce 0)) (heardFrom 0 4)).Forall fun event =>
    event.action = .renderFrame → event.before.InTime → event.before.SlotBySlot := by
  refine List.forall_iff_forall_mem.mpr ?_
  intro event member rendered inTime
  have run := @Run.tracing _ _ perform _ _ (bounce_started 0) (heardFrom 0 4)
  refine ((slot_by_slot_iff run (heardFrom_provided first_whole)).1 event member rendered inTime).mpr ?_
  have checked : (trace perform (.fresh (bounce 0)) (heardFrom 0 4)).all (fun event => !(event.before.renderer.currentFromPrevious &&
    event.before.currentMatches event.before.projectPosition &&
    (event.before.renderer.active.entryAt .master event.before.projectPosition).isSome)) = true := by decide
  have outlasts := List.all_eq_true.mp checked event member
  rintro ⟨previous, current, own⟩
  rw [previous, current, own] at outlasts
  cases outlasts

end Example

end Host

end Audec.Playback

import Audec.Playback.Slots

/-! What a cohort covers, frame by frame. -/

open Machine Checked Filling Option Std.ExtTreeMap
open Std (ExtTreeMap)

namespace Audec.Render

open PlaybackCohort List

section Dedup

variable {α : Type} [DecidableEq α]

variable {item : α} {items : List α}

theorem mem_destutter' {first : α} :
    item ∈ items.destutter' (· ≠ ·) first ↔ item = first ∨ item ∈ items := by
  induction items generalizing first with
  | nil => simp
  | cons head items tail =>
    by_cases fresh : first ≠ head
    · rw [destutter'_cons_pos _ fresh, mem_cons, tail, mem_cons]
    · rw [destutter'_cons_neg _ fresh, tail, mem_cons]
      rw [not_not] at fresh
      rw [fresh]
      tauto

theorem mem_destutter : item ∈ items.destutter (· ≠ ·) ↔ item ∈ items := by
  cases items with
  | nil => simp
  | cons head items => rw [destutter_cons', mem_destutter', mem_cons]

end Dedup

variable {required : List RenderSlot}

theorem mem_sortedSlots {slot : RenderSlot} : slot ∈ sortedSlots required ↔ slot ∈ required := by
  unfold sortedSlots
  rw [mem_destutter, mem_insertionSort]

namespace PlaybackCohort

def productIdsCovering (cohort : PlaybackCohort) (scope : RenderScope) (span : RenderSpan) : Option (List RenderProductId) :=
  if cohort.covers scope span = false then none
  else
    some ((cohort.products.filter fun entry => entry.slot.scope = scope ∧ entry.slot.span.intersects span).foldl
      (fun ids entry => if ids.getLast? ≠ some entry.product.id then ids ++ [entry.product.id] else ids) [])

end PlaybackCohort

theorem RenderSpan.intersects_iff {span other : RenderSpan} :
    span.intersects other = true ↔ span.start < other.stop ∧ other.start < span.stop := decide_eq_true_iff

structure Accepted (required : List RenderSlot) (cohort : PlaybackCohort) : Prop where
  required : cohort.required = sortedSlots required
  apart : cohort.required.Pairwise fun slot later => later.scope = slot.scope → slot.span.stop ≤ later.span.start
  keyed : ∀ (slot : RenderSlot) (entry : CohortProduct), cohort.entries[slot]? = some entry → entry.slot = slot
  wanted : ∀ entry ∈ cohort.products, entry.slot ∈ cohort.required
  ready : cohort.isReady = true ↔ ∀ slot ∈ cohort.required, slot ∈ cohort.entries

theorem PlaybackCohort.new_accepted {id : PlaybackCohortId} {publicationLoop : Option RenderSpan}
    {products : List CohortProduct} {cohort : PlaybackCohort} (proper : Proper required)
    (made : new id publicationLoop required products = .ok cohort) : Accepted required cohort := by
  unfold new at made
  obtain ⟨-, made⟩ := bind_unit_ok.mp made
  cases apart : overlapping (sortedSlots required) with
  | some pair =>
    rw [apart] at made
    cases made
  | none =>
    rw [apart] at made
    obtain ⟨entries, filled, same⟩ := bind_ok.mp made
    cases same
    obtain ⟨checked, distinct, -, rfl⟩ := (fill_ok enter_ok).mp filled
    refine ⟨rfl, ?_, ?_, ?_, ?_⟩
    · exact scopes_apart (sortedSlots_pairwise required) apart fun slot member => proper slot (mem_of_mem_sortedSlots member)
    · intro slot entry held
      exact ((lookup_filled distinct).mp held).2
    · intro entry member
      obtain ⟨slot, held⟩ := Entries.mem_values.mp member
      exact (checked entry ((lookup_filled distinct).mp held).1).1
    · unfold isReady
      rw [decide_eq_true_eq]
      dsimp only
      constructor
      · intro ready slot member
        split at ready
        · rename_i complete
          by_contra missing
          exact filter_eq_nil_iff.mp complete slot member (decide_eq_true missing)
        · cases ready
      · intro complete
        rw [if_pos (filter_eq_nil_iff.mpr fun slot member missing => (of_decide_eq_true missing : ¬ slot ∈ _) (complete slot member))]

namespace Accepted

variable {cohort : PlaybackCohort} (accepted : Accepted required cohort) (proper : Proper required)
include accepted

variable {slot : RenderSlot}

theorem mem_required : slot ∈ cohort.required ↔ slot ∈ required := by
  rw [accepted.required, mem_sortedSlots]

theorem disjoint {other : RenderSlot} (member : slot ∈ required) (member' : other ∈ required) (different : slot ≠ other)
    (same : slot.scope = other.scope) : slot.span.intersects other.span = false := by
  rw [← Bool.not_eq_true, RenderSpan.intersects_iff]
  rintro ⟨first, second⟩
  rcases apart_slots accepted.apart (accepted.mem_required.mpr member) (accepted.mem_required.mpr member') different same with before | before
  · exact absurd second (not_lt.mpr before)
  · exact absurd first (not_lt.mpr before)

theorem mem_entries : slot ∈ cohort.entries ↔ ∃ entry ∈ cohort.products, entry.slot = slot := by
  rw [mem_iff_isSome_getElem?, isSome_iff_exists]
  constructor
  · rintro ⟨entry, held⟩
    exact ⟨entry, Entries.mem_values.mpr ⟨slot, held⟩, accepted.keyed slot entry held⟩
  · rintro ⟨entry, member, rfl⟩
    obtain ⟨slot, held⟩ := Entries.mem_values.mp member
    have same := accepted.keyed slot entry held
    exact ⟨entry, same ▸ held⟩

include proper

theorem proper_entry {entry : CohortProduct} (member : entry ∈ cohort.products) : entry.slot.span.start < entry.slot.span.stop :=
  proper _ (accepted.mem_required.mp (accepted.wanted entry member))

theorem ordered : cohort.products.Pairwise fun entry later =>
    later.slot.scope = entry.slot.scope → entry.slot.span.stop ≤ later.slot.span.start := by
  have keys : (cohort.products.map (·.slot)).Pairwise (· < ·) := by
    change ((Entries.values cohort.entries).map (·.slot)).Pairwise (· < ·)
    rw [keys_values accepted.keyed]
    exact ordered_keys.imp fun before => compare_lt_iff_lt.mp before
  rw [pairwise_map] at keys
  refine keys.imp_of_mem fun {entry later} member member' before same => ?_
  have different : entry.slot ≠ later.slot := ne_of_lt before
  rcases apart_slots accepted.apart (accepted.wanted entry member) (accepted.wanted later member') different same.symm with apart | apart
  · exact apart
  · have starts := RenderSlot.starts_of_le before.le same
    have lengths := accepted.proper_entry proper member'
    exact absurd (lengths.trans_le apart) (not_lt.mpr starts)

end Accepted

theorem sortedSlots_strict (required : List RenderSlot) : (sortedSlots required).Pairwise (· < ·) := by
  have fresh : (sortedSlots required).IsChain (· ≠ ·) := isChain_destutter _ _
  have sorted := (sortedSlots_pairwise required).isChain
  have strict : (sortedSlots required).IsChain (· < ·) := isChain_iff_getElem.mpr fun index inside =>
    lt_of_le_of_ne (sorted.getElem index inside) (fresh.getElem index inside)
  exact strict.pairwise

theorem sortedSlots_congr {required required' : List RenderSlot} (same : ∀ slot, slot ∈ required ↔ slot ∈ required') :
    sortedSlots required = sortedSlots required' :=
  (sortedSlots_strict required).eq_of_mem_iff (sortedSlots_strict required') fun slot => by
    rw [mem_sortedSlots, mem_sortedSlots, same]

theorem overlapping_of_disjoint {slots : List RenderSlot} (sorted : slots.Pairwise (· < ·))
    (disjoint : ∀ slot ∈ slots, ∀ other ∈ slots, slot ≠ other → slot.scope = other.scope → slot.span.intersects other.span = false) :
    overlapping slots = none := by
  induction slots with
  | nil => rfl
  | cons slot rest tail =>
    obtain ⟨first, sorted⟩ := pairwise_cons.mp sorted
    cases rest with
    | nil => rfl
    | cons next rest =>
      unfold overlapping
      rw [if_neg, tail sorted fun one inside other inside' => disjoint one (.tail _ inside) other (.tail _ inside')]
      rintro ⟨same, meets⟩
      rw [disjoint slot (.head _) next (.tail _ (.head _)) (first next (.head _)).ne same] at meets
      cases meets

/-- What a cohort is made from: slots that do not overlap, and at most one valid product for each. -/
structure Complete (target : RenderPlanId) (required : List RenderSlot) (products : List CohortProduct) : Prop where
  nonempty : required ≠ []
  disjoint : ∀ slot ∈ required, ∀ other ∈ required, slot ≠ other → slot.scope = other.scope → slot.span.intersects other.span = false
  valid : ∀ product ∈ products, product.slot ∈ required ∧ product.validateFor target = .ok ()
  once : (products.map (·.slot)).Nodup

theorem Complete.congr {target : RenderPlanId} {required required' : List RenderSlot} {products products' : List CohortProduct}
    (complete : Complete target required products) (same : ∀ slot, slot ∈ required ↔ slot ∈ required') (perm : products.Perm products') :
    Complete target required' products' where
  nonempty := by
    obtain ⟨slot, member⟩ := exists_mem_of_ne_nil _ complete.nonempty
    exact ne_nil_of_mem ((same slot).mp member)
  disjoint slot member other member' := complete.disjoint slot ((same slot).mpr member) other ((same other).mpr member')
  valid product member := (complete.valid product (perm.mem_iff.mpr member)).imp_left (same _).mp
  once := (perm.map _).nodup_iff.mp complete.once

theorem PlaybackCohort.new_iff {id : PlaybackCohortId} {publicationLoop : Option RenderSpan} {required : List RenderSlot}
    {products : List CohortProduct} {cohort : PlaybackCohort} (proper : Proper required) :
    new id publicationLoop required products = .ok cohort ↔ Complete id.plan required products ∧
      ⟨id, publicationLoop, sortedSlots required, insertItems (·.slot) ∅ products,
        if (sortedSlots required).filter (· ∉ insertItems (·.slot) ∅ products) = [] then .ready
        else .priming ((sortedSlots required).filter (· ∉ insertItems (·.slot) ∅ products))⟩ = cohort := by
  have filled : sortedSlots required ≠ [] ↔ required ≠ [] := by
    simp only [ne_eq, eq_nil_iff_forall_not_mem, mem_sortedSlots]
  constructor
  · intro made
    have accepted := new_accepted proper made
    unfold new at made
    obtain ⟨filled', made⟩ := bind_unit_ok.mp made
    cases apart : overlapping (sortedSlots required) with
    | some pair =>
      rw [apart] at made
      cases made
    | none =>
      rw [apart] at made
      obtain ⟨entries, done, same⟩ := bind_ok.mp made
      obtain ⟨checked, distinct, -, rfl⟩ := (fill_ok enter_ok).mp done
      refine ⟨⟨filled.mp (ensure_ok.mp filled'), fun slot member other member' => accepted.disjoint member member', ?_, distinct⟩, Except.ok.inj same⟩
      exact fun product member => (checked product member).imp_left mem_sortedSlots.mp
  · rintro ⟨complete, rfl⟩
    unfold new
    rw [bind_unit_ok, ensure_ok, overlapping_of_disjoint (sortedSlots_strict required)]
    · refine ⟨filled.mpr complete.nonempty, bind_ok.mpr ⟨_, (fill_ok enter_ok).mpr ⟨?_, complete.once, ?_, rfl⟩, rfl⟩⟩
      · exact fun product member => (complete.valid product member).imp_left mem_sortedSlots.mpr
      · exact fun product _ => ExtTreeMap.not_mem_empty
    · exact fun slot member other member' => complete.disjoint slot (mem_sortedSlots.mp member) other (mem_sortedSlots.mp member')

/-- Tiles may be completed in any order, and slots asked for in any order and more than once. -/
theorem cohort_any_order (id : PlaybackCohortId) (publicationLoop : Option RenderSpan) (required required' : List RenderSlot)
    (products products' : List CohortProduct) (proper : Proper required) (same : ∀ slot, slot ∈ required ↔ slot ∈ required')
    (perm : products.Perm products') :
    ((∃ cohort, new id publicationLoop required products = .ok cohort) ↔ Complete id.plan required products) ∧
      ∀ cohort, new id publicationLoop required products = .ok cohort ↔
        new id publicationLoop required' products' = .ok cohort := by
  have proper' : Proper required' := fun slot member => proper slot ((same slot).mpr member)
  refine ⟨by simp only [new_iff proper, exists_and_left, exists_eq', and_true], fun cohort => ?_⟩
  have complete : Complete id.plan required products ↔ Complete id.plan required' products' :=
    ⟨fun complete => complete.congr same perm, fun complete => complete.congr (fun slot => (same slot).symm) perm.symm⟩
  rw [new_iff proper, new_iff proper', sortedSlots_congr same, ← complete]
  refine and_congr_right fun complete => ?_
  rw [insertItems_perm perm complete.once]

end Audec.Render

namespace Audec.Playback

open Render

variable {cohort : PlaybackCohort}

variable {span : RenderSpan} {required : List RenderSlot}

theorem reaches_iff {entries : List CohortProduct} {cursor : I64}
    (proper : ∀ entry ∈ entries, entry.slot.span.start < entry.slot.span.stop)
    (meets : ∀ entry ∈ entries, entry.slot.span.intersects span = true)
    (ordered : entries.Pairwise fun entry later => entry.slot.span.stop ≤ later.slot.span.start)
    (begun : span.start ≤ cursor) (open' : cursor < span.stop) :
    PlaybackCohort.reaches span cursor entries = true ↔
      ∀ frame, cursor ≤ frame → frame < span.stop → ∃ entry ∈ entries, entry.slot.span.contains frame = true := by
  constructor
  · exact fun reached frame start stop => reaches_frame reached start stop
  · intro covered
    induction entries generalizing cursor with
    | nil =>
      obtain ⟨entry, member, -⟩ := covered cursor le_rfl open'
      cases member
    | cons entry rest tail =>
      obtain ⟨here, proper⟩ := List.forall_mem_cons.mp proper
      obtain ⟨meeting, meets⟩ := List.forall_mem_cons.mp meets
      obtain ⟨later, ordered⟩ := List.pairwise_cons.mp ordered
      obtain ⟨first, second⟩ := RenderSpan.intersects_iff.mp meeting
      have common : max entry.slot.span.start span.start < min entry.slot.span.stop span.stop :=
        max_lt (lt_min here first) (lt_min second (lt_of_le_of_lt begun open'))
      unfold PlaybackCohort.reaches RenderSpan.intersection
      rw [if_pos common]
      dsimp only
      have adjacent : ¬ cursor < max entry.slot.span.start span.start := by
        intro gap
        have before : cursor < entry.slot.span.start := (lt_max_iff.mp gap).resolve_right (not_lt.mpr begun)
        obtain ⟨other, member, inside⟩ := covered cursor le_rfl open'
        have started := (RenderSpan.contains_iff.mp inside).1
        rcases List.mem_cons.mp member with rfl | after
        · exact absurd started (not_le.mpr before)
        · exact absurd (started.trans_lt ((before.trans here).trans_le (later other after))) (lt_irrefl _)
      rw [if_neg adjacent]
      split
      · rfl
      · rename_i short
        rw [ge_iff_le, not_le] at short
        refine tail proper meets ordered (begun.trans (le_max_left _ _)) short fun frame start stop => ?_
        obtain ⟨other, member, inside⟩ := covered frame ((le_max_left _ _).trans start) stop
        rcases List.mem_cons.mp member with rfl | after
        · have past : min other.slot.span.stop span.stop ≤ frame := (le_max_right _ _).trans start
          rcases min_le_iff.mp past with own | beyond
          · exact absurd (RenderSpan.contains_iff.mp inside).2 (not_lt.mpr own)
          · exact absurd stop (not_lt.mpr beyond)
        · exact ⟨other, after, inside⟩

def meeting (cohort : PlaybackCohort) (scope : RenderScope) (span : RenderSpan) : List CohortProduct :=
  cohort.products.filter fun entry => entry.slot.scope = scope ∧ entry.slot.span.intersects span

theorem mem_meeting {scope : RenderScope} {entry : CohortProduct} :
    entry ∈ meeting cohort scope span ↔
      entry ∈ cohort.products ∧ entry.slot.scope = scope ∧ entry.slot.span.intersects span = true := by
  unfold meeting
  rw [List.mem_filter, decide_eq_true_eq]

section

variable (accepted : Accepted required cohort) (proper : Proper required) (scope : RenderScope)
include accepted proper scope

theorem meeting_ordered (span : RenderSpan) :
    (meeting cohort scope span).Pairwise fun entry later => entry.slot.span.stop ≤ later.slot.span.start := by
  have sorted := (accepted.ordered proper).sublist (List.filter_sublist (p := fun entry => decide (entry.slot.scope = scope ∧ entry.slot.span.intersects span = true)))
  refine List.Pairwise.imp_of_mem (fun {entry later} member member' order => ?_) sorted
  exact order ((mem_meeting.mp member').2.1.trans (mem_meeting.mp member).2.1.symm)

theorem covers_iff (nonempty : span.start < span.stop) :
    cohort.covers scope span = true ↔ ∀ frame, span.contains frame = true → (cohort.entryAt scope frame).isSome = true := by
  have reached := reaches_iff (fun entry member => accepted.proper_entry proper (mem_meeting.mp member).1)
    (fun entry member => (mem_meeting.mp member).2.2) (meeting_ordered accepted proper scope span) le_rfl nonempty
  refine reached.trans ⟨fun covered frame inside => ?_, fun covered frame start stop => ?_⟩
  · obtain ⟨start, stop⟩ := RenderSpan.contains_iff.mp inside
    obtain ⟨entry, member, within⟩ := covered frame start stop
    obtain ⟨member, inScope, -⟩ := mem_meeting.mp member
    refine isSome_iff_ne_none.mpr fun absent => ?_
    exact entryAt_none absent member inScope within
  · obtain ⟨entry, found⟩ := isSome_iff_exists.mp (covered frame (RenderSpan.contains_iff.mpr ⟨start, stop⟩))
    obtain ⟨member, inScope, within⟩ := mem_of_entryAt found
    obtain ⟨started, ended⟩ := RenderSpan.contains_iff.mp within
    refine ⟨entry, mem_meeting.mpr ⟨member, inScope, RenderSpan.intersects_iff.mpr ⟨?_, ?_⟩⟩, within⟩
    · exact started.trans_lt stop
    · exact start.trans_lt ended

end

theorem foldl_listed (front : List RenderProductId) (last : RenderProductId) (entries : List CohortProduct) :
    entries.foldl (fun ids entry => if ids.getLast? ≠ some entry.product.id then ids ++ [entry.product.id] else ids) (front ++ [last]) =
      front ++ (entries.map (·.product.id)).destutter' (· ≠ ·) last := by
  induction entries generalizing front last with
  | nil => rfl
  | cons entry entries tail =>
    rw [List.foldl_cons, List.map_cons, List.getLast?_append_of_ne_nil _ (List.cons_ne_nil _ _), List.getLast?_singleton]
    by_cases fresh : last ≠ entry.product.id
    · rw [if_pos (fun same => fresh (some.inj same)), tail, List.destutter'_cons_pos _ fresh, List.append_assoc, List.singleton_append]
    · rw [not_not] at fresh
      rw [if_neg (by rw [fresh]; exact fun other => other rfl), tail, List.destutter'_cons_neg _ (not_not.mpr fresh)]

theorem productIdsCovering_eq (scope : RenderScope) (span : RenderSpan) :
    cohort.productIdsCovering scope span = if cohort.covers scope span = true then
      some (((meeting cohort scope span).map (·.product.id)).destutter (· ≠ ·)) else none := by
  unfold PlaybackCohort.productIdsCovering
  cases cohort.covers scope span with
  | false => rfl
  | true =>
    rw [if_neg (by decide), if_pos rfl]
    change some ((meeting cohort scope span).foldl _ []) = _
    cases meeting cohort scope span with
    | nil => rfl
    | cons entry entries => exact congrArg some (foldl_listed [] entry.product.id entries)

structure FrameExact (required : List RenderSlot) (cohort : PlaybackCohort) : Prop where
  slots : ∀ slot, slot ∈ cohort.required ↔ slot ∈ required
  disjoint : ∀ slot ∈ required, ∀ other ∈ required, slot ≠ other → slot.scope = other.scope →
    slot.span.intersects other.span = false
  covers : ∀ scope span, span.start < span.stop →
    (cohort.covers scope span = true ↔ ∀ frame, span.contains frame = true → (cohort.entryAt scope frame).isSome = true)
  /-- In timeline order, where neighbours that share a product list it once. -/
  products : ∀ scope span, span.start < span.stop → ∃ meeting : List CohortProduct,
    (∀ entry, entry ∈ meeting ↔
      entry ∈ cohort.products ∧ entry.slot.scope = scope ∧ entry.slot.span.intersects span = true) ∧
    (meeting.Pairwise fun entry later => entry.slot.span.stop ≤ later.slot.span.start) ∧
    cohort.productIdsCovering scope span = if cohort.covers scope span = true then
      some ((meeting.map (·.product.id)).destutter (· ≠ ·)) else none
  ready : cohort.isReady = true ↔ ∀ slot ∈ required, ∃ entry ∈ cohort.products, entry.slot = slot

theorem cohort_frame_exact (id : PlaybackCohortId) (publicationLoop : Option RenderSpan) (required : List RenderSlot)
    (products : List CohortProduct) (cohort : PlaybackCohort) (proper : Proper required)
    (made : PlaybackCohort.new id publicationLoop required products = .ok cohort) : FrameExact required cohort where
  slots _ := (PlaybackCohort.new_accepted proper made).mem_required
  disjoint _ member _ member' different same := (PlaybackCohort.new_accepted proper made).disjoint member member' different same
  covers scope _ nonempty := covers_iff (PlaybackCohort.new_accepted proper made) proper scope nonempty
  products scope span _ :=
    ⟨meeting cohort scope span, fun _ => mem_meeting, meeting_ordered (PlaybackCohort.new_accepted proper made) proper scope span,
      productIdsCovering_eq scope span⟩
  ready := by
    have accepted := PlaybackCohort.new_accepted proper made
    rw [accepted.ready]
    constructor
    · intro complete slot member
      exact accepted.mem_entries.mp (complete slot (accepted.mem_required.mpr member))
    · intro complete slot member
      exact accepted.mem_entries.mpr (complete slot (accepted.mem_required.mp member))

/-- Two halves of a timeline, asked for out of order and twice, of which the first is there. -/
theorem half_frame_exact :
    ∃ cohort, cohortOf 1 [masterSlot 2 4, masterSlot 0 2, masterSlot 2 4] [masterEntry .wholeBounce 0 2 0.5] = .ok cohort ∧
      FrameExact [masterSlot 2 4, masterSlot 0 2, masterSlot 2 4] cohort := by
  cases made : cohortOf 1 [masterSlot 2 4, masterSlot 0 2, masterSlot 2 4] [masterEntry .wholeBounce 0 2 0.5] with
  | ok cohort => exact ⟨cohort, rfl, cohort_frame_exact _ _ _ _ cohort (by unfold Proper; decide) made⟩
  | error error =>
    have done : (cohortOf 1 [masterSlot 2 4, masterSlot 0 2, masterSlot 2 4]
      [masterEntry .wholeBounce 0 2 0.5]).toOption.isSome = true := by rfl
    rw [made] at done
    cases done

theorem halves_any_order : ∃ cohort, cohortOf 1 [masterSlot 0 2, masterSlot 2 4] [masterEntry .wholeBounce 0 2 0, masterEntry .wholeBounce 2 4 0] =
    .ok cohort ∧ cohortOf 1 [masterSlot 2 4, masterSlot 0 2] [masterEntry .wholeBounce 2 4 0, masterEntry .wholeBounce 0 2 0] =
      .ok cohort := by
  have any := cohort_any_order ⟨shortPlan, 1⟩ none [masterSlot 0 2, masterSlot 2 4] [masterSlot 2 4, masterSlot 0 2]
    [masterEntry .wholeBounce 0 2 0, masterEntry .wholeBounce 2 4 0] _ (by unfold Proper; decide) (by simp [or_comm]) (.swap _ _ _)
  have complete : Complete shortPlan [masterSlot 0 2, masterSlot 2 4] [masterEntry .wholeBounce 0 2 0, masterEntry .wholeBounce 2 4 0] := by
    refine ⟨by simp, by decide, ?_, by decide⟩
    intro product member
    rcases List.mem_pair.mp member with rfl | rfl
    · exact ⟨by decide, rfl⟩
    · exact ⟨by decide, rfl⟩
  obtain ⟨cohort, made⟩ := any.1.mpr complete
  exact ⟨cohort, made, (any.2 cohort).mp made⟩

end Audec.Playback

import Audec.Render.Publish

/-! Slots in their derived order: those of one scope follow each other along the timeline. -/

open Machine Codes List

namespace Codes

variable {α : Type}

theorem lt_of_append_lt {first second rest rest' : List Int} (order : first ++ rest < second ++ rest') :
    first < second ∨ (∃ more, second = first ++ more) ∨ ∃ more, first = second ++ more := by
  induction first generalizing second with
  | nil => exact .inr (.inl ⟨second, rfl⟩)
  | cons head first tail =>
    cases second with
    | nil => exact .inr (.inr ⟨head :: first, rfl⟩)
    | cons head' second =>
      rw [cons_append, cons_append, cons_lt_cons_iff] at order
      rcases order with before | ⟨rfl, later⟩
      · exact .inl (List.Lex.rel before)
      · rcases tail later with earlier | ⟨more, rfl⟩ | ⟨more, rfl⟩
        · exact .inl (List.Lex.cons earlier)
        · exact .inr (.inl ⟨more, rfl⟩)
        · exact .inr (.inr ⟨more, rfl⟩)

theorem SelfDelimiting.lt_of_append_lt {code : α → List Int} (delimited : SelfDelimiting code) {a b : α} {rest rest' : List Int}
    (different : a ≠ b) (order : code a ++ rest < code b ++ rest') : code a < code b := by
  rcases Codes.lt_of_append_lt order with before | ⟨more, continued⟩ | ⟨more, continued⟩
  · exact before
  · exact absurd (delimited b a [] more (by rw [append_nil, continued])).1.symm different
  · exact absurd (delimited a b [] more (by rw [append_nil, continued])).1 different

end Codes

namespace Audec.Render

namespace RenderSlot

variable {later slot : RenderSlot}

theorem scopes_lt (order : slot ≤ later) (different : slot.scope ≠ later.scope) :
    slot.scope.code < later.scope.code := by
  have distinct : slot ≠ later := fun same => different (congrArg RenderSlot.scope same)
  have before : slot < later := lt_of_le_of_ne order distinct
  exact RenderScope.code_delimited.lt_of_append_lt different before

theorem scope_between {middle : RenderSlot} (first : slot ≤ middle) (second : middle ≤ later)
    (same : later.scope = slot.scope) : middle.scope = slot.scope := by
  by_contra other
  have up := scopes_lt first (Ne.symm other)
  have down := scopes_lt second (fun again => other (again.trans same))
  rw [same] at down
  exact absurd up (not_lt.mpr down.le)

theorem starts_of_le (order : slot ≤ later) (same : later.scope = slot.scope) :
    slot.span.start ≤ later.span.start := by
  by_contra before
  have reversed : RenderSlot.code later < RenderSlot.code slot := by
    unfold RenderSlot.code RenderSpan.code
    rw [same]
    exact append_left_lt (List.Lex.rel (not_le.mp before))
  exact absurd order (not_le.mpr reversed)

end RenderSlot

def Proper (slots : List RenderSlot) : Prop := ∀ slot ∈ slots, slot.span.start < slot.span.stop

variable {slot : RenderSlot} {slots : List RenderSlot}

theorem overlapping_cons {next : RenderSlot} {rest : List RenderSlot} (apart : overlapping (slot :: next :: rest) = none) :
    ¬ (slot.scope = next.scope ∧ slot.span.intersects next.span = true) ∧ overlapping (next :: rest) = none := by
  unfold overlapping at apart
  split at apart
  · cases apart
  · rename_i distinct
    exact ⟨distinct, apart⟩

theorem scopes_apart (sorted : slots.Pairwise (· ≤ ·)) (apart : overlapping slots = none) (proper : Proper slots) :
    slots.Pairwise fun slot later => later.scope = slot.scope → slot.span.stop ≤ later.span.start := by
  induction slots with
  | nil => exact .nil
  | cons slot rest tail =>
    obtain ⟨first, sorted'⟩ := pairwise_cons.mp sorted
    cases rest with
    | nil => exact pairwise_singleton _ _
    | cons next rest =>
      obtain ⟨distinct, apart'⟩ := overlapping_cons apart
      have others := tail sorted' apart' fun slot member => proper slot (mem_cons_of_mem _ member)
      have length := proper next (mem_cons_of_mem _ mem_cons_self)
      have adjacent : next.scope = slot.scope → slot.span.stop ≤ next.span.start := by
        intro same
        have before := RenderSlot.starts_of_le (first next mem_cons_self) same
        by_contra overlap
        exact distinct ⟨same.symm, decide_eq_true ⟨lt_of_le_of_lt before length, not_le.mp overlap⟩⟩
      refine pairwise_cons.mpr ⟨fun later member same => ?_, others⟩
      rcases mem_cons.mp member with rfl | after
      · exact adjacent same
      · have between := RenderSlot.scope_between (first next mem_cons_self) ((pairwise_cons.mp sorted').1 later after) same
        have step := (pairwise_cons.mp others).1 later after (same.trans between.symm)
        exact (adjacent between).trans (length.le.trans step)

theorem apart_slots
    (spaced : slots.Pairwise fun slot later => later.scope = slot.scope → slot.span.stop ≤ later.span.start) {other : RenderSlot}
    (member : slot ∈ slots) (member' : other ∈ slots) (different : slot ≠ other) (same : slot.scope = other.scope) :
    slot.span.stop ≤ other.span.start ∨ other.span.stop ≤ slot.span.start := by
  induction spaced with
  | nil => cases member
  | @cons first rest before _ tail =>
    rcases mem_cons.mp member with rfl | later
    · rcases mem_cons.mp member' with rfl | later'
      · exact absurd rfl different
      · exact .inl (before other later' same.symm)
    · rcases mem_cons.mp member' with rfl | later'
      · exact .inr (before slot later same)
      · exact tail later later'

theorem sortedSlots_sublist (required : List RenderSlot) : (sortedSlots required).Sublist (required.insertionSort (· ≤ ·)) :=
  destutter_sublist _ _

theorem sortedSlots_pairwise (required : List RenderSlot) : (sortedSlots required).Pairwise (· ≤ ·) :=
  (pairwise_insertionSort _ _).sublist (sortedSlots_sublist required)

theorem mem_of_mem_sortedSlots {required : List RenderSlot} (member : slot ∈ sortedSlots required) : slot ∈ required :=
  (mem_insertionSort _).mp ((sortedSlots_sublist required).subset member)

end Audec.Render

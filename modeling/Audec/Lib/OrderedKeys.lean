import Mathlib

/-! Keeping a user-ordered list of keys in step with the keys that exist, and an index sorted by a
    key in step with its members. -/

open List

namespace OrderedKeys

variable {α β : Type} [DecidableEq α]

def keepFirst (present : α → Bool) : List α → List α → List α
  | _, [] => []
  | seen, key :: rest =>
    if present key && !seen.contains key then key :: keepFirst present (key :: seen) rest
    else keepFirst present seen rest

def reindex (keys order : List α) : List α :=
  let kept := keepFirst keys.contains [] order
  kept ++ keys.filter fun key => !kept.contains key

section

variable (present : α → Bool) (seen order : List α)
include present seen order

@[simp] theorem mem_keepFirst (key : α) :
    key ∈ keepFirst present seen order ↔ key ∈ order ∧ present key = true ∧ key ∉ seen := by
  induction order generalizing seen with
  | nil => simp [keepFirst]
  | cons head rest tail =>
    unfold keepFirst
    split
    · rename_i kept
      rw [mem_cons, tail, mem_cons]
      by_cases same : key = head
      · subst same
        simpa using kept
      · simp [same]
    · rename_i dropped
      rw [tail, mem_cons]
      by_cases same : key = head
      · subst same
        simp only [true_or, true_and]
        constructor
        · exact And.right
        · intro kept
          exact absurd (by simpa using kept) dropped
      · simp [same]

theorem nodup_keepFirst : (keepFirst present seen order).Nodup := by
  induction order generalizing seen with
  | nil => exact nodup_nil
  | cons head rest tail =>
    unfold keepFirst
    split
    · exact nodup_cons.mpr ⟨by simp, tail _⟩
    · exact tail _

theorem keepFirst_of_nodup (nodup : order.Nodup)
    (fresh : ∀ key ∈ order, key ∉ seen) : keepFirst present seen order = order.filter present := by
  induction order generalizing seen with
  | nil => rfl
  | cons head rest tail =>
    rw [nodup_cons] at nodup
    have unseen : head ∉ seen := fresh head (by simp)
    have later : ∀ key ∈ rest, key ∉ head :: seen := by
      intro key member
      rw [mem_cons, not_or]
      refine ⟨?_, fresh key (mem_cons_of_mem _ member)⟩
      rintro rfl
      exact nodup.1 member
    unfold keepFirst
    by_cases here : present head = true
    · simp only [here, contains_eq_mem, unseen, decide_false, Bool.not_false, Bool.and_self, if_true,
        filter_cons_of_pos]
      rw [tail _ nodup.2 later]
    · simp only [here, Bool.false_and, Bool.false_eq_true, if_false]
      rw [tail _ nodup.2 fun key member => fresh key (mem_cons_of_mem _ member),
        filter_cons_of_neg here]

end

@[simp] theorem mem_reindex (keys order : List α) (key : α) : key ∈ reindex keys order ↔ key ∈ keys := by
  simp only [reindex, mem_append, mem_keepFirst, contains_eq_mem, mem_filter,
    decide_eq_true_eq, Bool.not_eq_true', decide_eq_false_iff_not, not_mem_nil, not_false_eq_true,
    and_true]
  tauto

theorem nodup_reindex {keys : List α} (nodup : keys.Nodup) (order : List α) : (reindex keys order).Nodup := by
  refine List.Nodup.append (nodup_keepFirst _ _ _) (nodup.filter _) ?_
  intro key kept added
  simp only [mem_filter, contains_eq_mem, Bool.not_eq_true', decide_eq_false_iff_not] at added
  exact added.2 kept

theorem reindex_eq_self_iff {keys : List α} (nodup : keys.Nodup) (order : List α) :
    reindex keys order = order ↔ order.Nodup ∧ ∀ key, key ∈ order ↔ key ∈ keys := by
  constructor
  · intro same
    rw [← same]
    exact ⟨nodup_reindex nodup order, mem_reindex keys order⟩
  · rintro ⟨once, members⟩
    have kept : keepFirst keys.contains [] order = order := by
      rw [keepFirst_of_nodup _ _ _ once (by simp), filter_eq_self]
      intro key member
      simpa using (members key).mp member
    rw [reindex, kept]
    have rest : keys.filter (fun key => !order.contains key) = [] := by
      rw [filter_eq_nil_iff]
      intro key member
      simpa using (members key).mpr member
    rw [rest, append_nil]

theorem reindex_of_nodup (keys : List α) {order : List α} (once : order.Nodup) :
    reindex keys order =
      order.filter (fun key => keys.contains key) ++ keys.filter fun key => !order.contains key := by
  rw [reindex, keepFirst_of_nodup _ _ _ once (by simp)]
  refine congrArg (order.filter _ ++ ·) (filter_congr fun key member => ?_)
  simp [member]

/-- Following a change of the key set and its reversal, the surviving keys keep their order and the keys
    that were absent in between stand at the end, in key order. -/
theorem reindex_reindex {old new base : List α} (newOnce : new.Nodup) (once : base.Nodup)
    (members : ∀ key, key ∈ base ↔ key ∈ old) :
    reindex old (reindex new base) =
      base.filter (fun key => new.contains key) ++ old.filter fun key => !new.contains key := by
  rw [reindex_of_nodup old (nodup_reindex newOnce base)]
  have survivors : (reindex new base).filter (fun key => old.contains key) =
      base.filter fun key => new.contains key := by
    rw [reindex_of_nodup new once, filter_append, filter_filter]
    have kept : base.filter (fun key => old.contains key && new.contains key) =
        base.filter fun key => new.contains key := by
      refine filter_congr fun key member => ?_
      simp [(members key).mp member]
    have added : (new.filter fun key => !base.contains key).filter (fun key => old.contains key) = [] := by
      rw [filter_eq_nil_iff]
      intro key member
      simpa [members] using (mem_filter.mp member).2
    rw [kept, added, append_nil]
  rw [survivors]
  refine congrArg (_ ++ ·) (filter_congr fun key _ => ?_)
  simp

section Sorting

variable [LinearOrder β] (position : α → β)

def sortByPosition (members : List α) : List α :=
  members.insertionSort fun a b => position a ≤ position b

theorem sortByPosition_perm (members : List α) : (sortByPosition position members).Perm members :=
  perm_insertionSort _ _

theorem sortByPosition_sorted (members : List α) :
    (sortByPosition position members).Pairwise fun a b => position a ≤ position b := by
  let _ : Std.Total fun a b => position a ≤ position b := ⟨fun a b => le_total _ _⟩
  let _ : IsTrans α fun a b => position a ≤ position b := ⟨fun _ _ _ => le_trans⟩
  exact pairwise_insertionSort _ _

theorem eq_sortByPosition {members index : List α} (once : index.Nodup) (memberOnce : members.Nodup)
    (same : ∀ key, key ∈ index ↔ key ∈ members) (sorted : index.Pairwise fun a b => position a ≤ position b)
    (injective : ∀ a ∈ index, ∀ b ∈ index, position a = position b → a = b) :
    index = sortByPosition position members := by
  have perm : index.Perm (sortByPosition position members) :=
    ((perm_ext_iff_of_nodup once memberOnce).mpr same).trans (sortByPosition_perm position members).symm
  refine Perm.eq_of_pairwise (fun a b left right low high => ?_) sorted
    (sortByPosition_sorted position members) perm
  exact injective a left b (perm.mem_iff.mpr right) (le_antisymm low high)

end Sorting

end OrderedKeys

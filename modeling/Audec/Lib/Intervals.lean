import Mathlib

/-! Half-open ranges of a linear order, and what a sorted list of them tells from its neighbours. -/

namespace Intervals

variable {α β : Type} [LinearOrder α]

/-- The points from the first bound on and before the second. -/
def Covers (start stop point : α) : Prop := start ≤ point ∧ point < stop

/-- The test by the bounds alone. -/
def Meets (start stop start' stop' : α) : Prop := start < stop' ∧ start' < stop

def Disjoint (start stop start' stop' : α) : Prop := ∀ point, ¬ (Covers start stop point ∧ Covers start' stop' point)

variable {start' stop' : α}

theorem disjoint_of_le {start stop : α} (before : stop ≤ start') : Disjoint start stop start' stop' := by
  rintro point ⟨⟨-, below⟩, ⟨above, -⟩⟩
  exact absurd (below.trans_le (before.trans above)) (lt_irrefl point)

theorem disjoint_symm {start stop : α} (apart : Disjoint start stop start' stop') :
    Disjoint start' stop' start stop :=
  fun point both => apart point ⟨both.2, both.1⟩

theorem le_of_not_meets {start stop : α} (nonempty : start' < stop') (ordered : start ≤ start')
    (apart : ¬ Meets start stop start' stop') : stop ≤ start' := by
  by_contra overlapping
  exact apart ⟨ordered.trans_lt nonempty, lt_of_not_ge overlapping⟩

variable (start stop : β → α)

theorem pairwise_of_neighbours {items : List β} (nonempty : ∀ item ∈ items, start item < stop item)
    (neighbours : items.IsChain fun a b => start a ≤ start b ∧ ¬ Meets (start a) (stop a) (start b) (stop b)) :
    items.Pairwise fun a b => stop a ≤ start b := by
  induction items with
  | nil => exact List.Pairwise.nil
  | cons first rest ih =>
    have inner := ih (fun item inside => nonempty item (List.mem_cons_of_mem _ inside)) neighbours.tail
    refine List.Pairwise.cons ?_ inner
    intro later inside
    cases rest with
    | nil => cases inside
    | cons second more =>
      have second' := nonempty second (List.mem_cons_of_mem _ List.mem_cons_self)
      have next := (List.isChain_cons_cons.mp neighbours).1
      have before := le_of_not_meets second' next.1 next.2
      rcases List.mem_cons.mp inside with rfl | further
      · exact before
      · have beyond := (List.pairwise_cons.mp inner).1 later further
        exact before.trans (second'.le.trans beyond)

end Intervals

/-! Search trees over items that occupy ranges, each node with the bounds of everything below it. -/

namespace IntervalTree

variable {α β : Type}

inductive Tree (α β : Type) where
  | leaf
  | node (item : α) (left right : Tree α β) (minimumStart maximumEnd : β)

namespace Tree

def items : Tree α β → List α
  | .leaf => []
  | .node item left right _ _ => left.items ++ item :: right.items

section Summary

variable [LinearOrder β]

def minimum (start : β) : Tree α β → β
  | .leaf => start
  | .node _ _ _ minimumStart _ => min start minimumStart

def maximum (stop : β) : Tree α β → β
  | .leaf => stop
  | .node _ _ _ _ maximumEnd => max stop maximumEnd

/-- Whether the bounds of a tree leave room for an item that meets the range. -/
def mayMeet (start stop : β) : Tree α β → Bool
  | .leaf => false
  | .node _ _ _ minimumStart maximumEnd => decide (start < maximumEnd ∧ minimumStart < stop)

variable (start stop : α → β)

def join (item : α) (left right : Tree α β) : Tree α β :=
  .node item left right (right.minimum (left.minimum (start item))) (right.maximum (left.maximum (stop item)))

def buildTo : Nat → List α → Tree α β
  | 0, _ => .leaf
  | depth + 1, slice =>
    match slice.drop (slice.length / 2) with
    | [] => .leaf
    | item :: after => join start stop item (buildTo depth (slice.take (slice.length / 2))) (buildTo depth after)

def Bounded : Tree α β → Prop
  | .leaf => True
  | .node item left right minimumStart maximumEnd =>
    left.Bounded ∧ right.Bounded ∧
      ∀ other ∈ left.items ++ item :: right.items, minimumStart ≤ start other ∧ stop other ≤ maximumEnd

theorem items_buildTo {depth : Nat} {slice : List α} (deep : slice.length ≤ depth) :
    (buildTo start stop depth slice).items = slice := by
  induction depth generalizing slice with
  | zero =>
    rw [List.length_eq_zero_iff.mp (Nat.le_zero.mp deep)]
    rfl
  | succ depth ih =>
    have whole := List.take_append_drop (slice.length / 2) slice
    have dropped : (slice.drop (slice.length / 2)).length = slice.length - slice.length / 2 := List.length_drop
    unfold buildTo
    split
    · rename_i rest
      rw [rest, List.length_nil] at dropped
      have empty : slice = [] := List.length_eq_zero_iff.mp (by omega)
      rw [empty]
      rfl
    · rename_i item after rest
      rw [rest] at whole
      rw [rest, List.length_cons] at dropped
      have short : (slice.take (slice.length / 2)).length ≤ depth := by
        rw [List.length_take]
        omega
      simp only [join, items]
      rw [ih short, ih (by omega), whole]

theorem minimum_le (start : β) (tree : Tree α β) : tree.minimum start ≤ start := by
  cases tree with
  | leaf => exact le_rfl
  | node => exact min_le_left _ _

theorem le_maximum (stop : β) (tree : Tree α β) : stop ≤ tree.maximum stop := by
  cases tree with
  | leaf => exact le_rfl
  | node => exact le_max_left _ _

variable {start stop}

variable {item : α} {tree : Tree α β}

section

variable (bounded : tree.Bounded start stop) (other : β) (inside : item ∈ tree.items)
include bounded other inside

theorem Bounded.minimum_le : tree.minimum other ≤ start item := by
  cases tree with
  | leaf => cases inside
  | node => exact (min_le_right _ _).trans (bounded.2.2 item inside).1

theorem Bounded.le_maximum : stop item ≤ tree.maximum other := by
  cases tree with
  | leaf => cases inside
  | node => exact (bounded.2.2 item inside).2.trans (le_max_right _ _)

end

theorem Bounded.join {left right : Tree α β} (item : α) (below : left.Bounded start stop)
    (above : right.Bounded start stop) : (join start stop item left right).Bounded start stop := by
  refine ⟨below, above, ?_⟩
  intro other inside
  simp only [List.mem_append, List.mem_cons] at inside
  constructor
  · rcases inside with inside | rfl | inside
    · exact (Tree.minimum_le _ _).trans (below.minimum_le _ inside)
    · exact (Tree.minimum_le _ _).trans (Tree.minimum_le _ _)
    · exact above.minimum_le _ inside
  · rcases inside with inside | rfl | inside
    · exact (below.le_maximum _ inside).trans (Tree.le_maximum _ _)
    · exact (Tree.le_maximum _ _).trans (Tree.le_maximum _ _)
    · exact above.le_maximum _ inside

theorem bounded_buildTo (depth : Nat) (slice : List α) : (buildTo start stop depth slice).Bounded start stop := by
  induction depth generalizing slice with
  | zero => trivial
  | succ depth ih =>
    unfold buildTo
    split
    · trivial
    · exact (ih _).join _ (ih _)

theorem Bounded.apart (bounded : tree.Bounded start stop) {from_ until_ : β}
    (skipped : tree.mayMeet from_ until_ = false) (inside : item ∈ tree.items) :
    ¬ (start item < until_ ∧ from_ < stop item) := by
  cases tree with
  | leaf => cases inside
  | node =>
    rintro ⟨below, above⟩
    have bounds := bounded.2.2 item inside
    have meets := decide_eq_false_iff_not.mp skipped
    exact meets ⟨above.trans_le bounds.2, bounds.1.trans_lt below⟩

end Summary

end Tree

end IntervalTree

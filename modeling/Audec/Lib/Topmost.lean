import Mathlib

/-! Elements handed out from the top: each time the greatest that is neither reserved nor handed out before. -/

namespace Topmost

variable {α : Type} [LinearOrder α] {reserved given : Set α} {a : α}

/-- Whatever is above a given element is reserved or given. -/
structure Given (reserved given : Set α) : Prop where
  unreserved : Disjoint reserved given
  above : ∀ b ∈ given, ∀ c, b < c → c ∈ reserved ∪ given

theorem Given.empty (reserved : Set α) : Given reserved ∅ :=
  ⟨Set.disjoint_empty _, fun _ absent => absent.elim⟩

section

variable (topmost : Given reserved given)
include topmost

/-- An unreserved element was not given if and only if enough unreserved elements are above it. -/
theorem Given.notMem_iff [Finite α] (free : a ∉ reserved) :
    a ∉ given ↔ given.ncard ≤ {b | a < b ∧ b ∉ reserved}.ncard := by
  constructor
  · intro fresh
    apply Set.ncard_le_ncard _ (Set.toFinite _)
    intro b inside
    refine ⟨?_, fun blocked => Set.disjoint_left.mp topmost.unreserved blocked inside⟩
    rcases lt_trichotomy b a with below | rfl | higher
    · exact ((topmost.above b inside a below).elim free fresh).elim
    · exact (fresh inside).elim
    · exact higher
  · intro enough inside
    have fewer : {b | a < b ∧ b ∉ reserved} ⊂ given := by
      refine ⟨fun b above => (topmost.above a inside b above.1).resolve_left above.2, fun all => ?_⟩
      exact lt_irrefl a (all inside).1
    exact absurd enough (not_le.mpr (Set.ncard_lt_ncard fewer (Set.toFinite _)))

/-- An element is left if and only if more elements are unreserved than were given. -/
theorem Given.exists_iff [Finite α] :
    (∃ a, a ∉ reserved ∪ given) ↔ given.ncard < {b | b ∉ reserved}.ncard := by
  have among : given ⊆ {b | b ∉ reserved} := fun b inside blocked => Set.disjoint_left.mp topmost.unreserved blocked inside
  constructor
  · rintro ⟨a, left⟩
    rw [Set.mem_union, not_or] at left
    exact Set.ncard_lt_ncard ⟨among, fun all => left.2 (all left.1)⟩ (Set.toFinite _)
  · intro more
    by_contra none
    push Not at none
    have all : {b | b ∉ reserved} ⊆ given := fun b free => (none b).resolve_left free
    exact absurd more (not_lt.mpr (Set.ncard_le_ncard all (Set.toFinite _)))

theorem Given.reserve (fresh : a ∉ given) : Given (insert a reserved) given := by
  refine ⟨Set.disjoint_insert_left.mpr ⟨fresh, topmost.unreserved⟩, ?_⟩
  intro b inside c higher
  rw [Set.insert_union]
  exact Set.mem_insert_of_mem _ (topmost.above b inside c higher)

/-- The greatest element that is left may be given next. -/
theorem Given.give (left : a ∉ reserved ∪ given)
    (greatest : ∀ c, a < c → c ∈ reserved ∪ given) : Given reserved (insert a given) := by
  rw [Set.mem_union, not_or] at left
  refine ⟨Set.disjoint_insert_right.mpr ⟨left.1, topmost.unreserved⟩, ?_⟩
  intro b inside c higher
  rw [Set.union_insert]
  apply Set.mem_insert_of_mem
  rcases inside with rfl | inside
  · exact greatest c higher
  · exact topmost.above b inside c higher

end

end Topmost

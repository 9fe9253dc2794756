import Mathlib

/-! Merging half-open ranges, each of one key, that are sorted by key and start: which points the merged ranges cover,
    and that they neither meet nor touch. -/

open List

namespace Coalesce

variable {δ κ α : Type} [LinearOrder κ] [LinearOrder α]

structure Ranges (δ κ α : Type) [LinearOrder α] where
  key : δ → κ
  start : δ → α
  stop : δ → α
  extend : δ → α → δ
  extend_key : ∀ range stop', key (extend range stop') = key range
  extend_start : ∀ range stop', start (extend range stop') = start range
  extend_stop : ∀ range stop', stop (extend range stop') = max (stop range) stop'

namespace Ranges

variable (ranges : Ranges δ κ α)

attribute [simp] extend_key extend_start extend_stop

def Covers (range : δ) (key : κ) (point : α) : Prop :=
  ranges.key range = key ∧ ranges.start range ≤ point ∧ point < ranges.stop range

def position (range : δ) : κ ×ₗ α := toLex (ranges.key range, ranges.start range)

def Touches (previous next : δ) : Prop :=
  ranges.key previous = ranges.key next ∧ ranges.start next ≤ ranges.stop previous

instance (previous next : δ) : Decidable (ranges.Touches previous next) := inferInstanceAs (Decidable (_ ∧ _))

/-- A gap, or another key, is between the two. -/
def Apart (a b : δ) : Prop :=
  ranges.key a < ranges.key b ∨ ranges.key a = ranges.key b ∧ ranges.stop a < ranges.start b

def mergeFrom (previous : δ) : List δ → List δ
  | [] => [previous]
  | range :: rest =>
    if ranges.Touches previous range then mergeFrom (ranges.extend previous (ranges.stop range)) rest
    else previous :: mergeFrom range rest

def merge : List δ → List δ
  | [] => []
  | first :: rest => ranges.mergeFrom first rest

variable {ranges}

theorem position_le_iff {a b : δ} : ranges.position a ≤ ranges.position b ↔
    ranges.key a < ranges.key b ∨ ranges.key a = ranges.key b ∧ ranges.start a ≤ ranges.start b := by
  unfold position
  rw [Prod.Lex.toLex_le_toLex]

@[simp] theorem position_extend (range : δ) (stop' : α) : ranges.position (ranges.extend range stop') = ranges.position range := by
  simp only [position, extend_key, extend_start]

variable {previous range first : δ} {rest items : List δ}

theorem covers_extend {next : δ} (ordered : ranges.position previous ≤ ranges.position next)
    (touches : ranges.Touches previous next) (key : κ) (point : α) :
    ranges.Covers (ranges.extend previous (ranges.stop next)) key point ↔
      ranges.Covers previous key point ∨ ranges.Covers next key point := by
  obtain ⟨same, reaches⟩ := touches
  have starts : ranges.start previous ≤ ranges.start next := by
    rcases position_le_iff.mp ordered with before | ⟨-, starts⟩
    · exact absurd same before.ne
    · exact starts
  simp only [Covers, extend_key, extend_start, extend_stop, ← same, lt_max_iff]
  constructor
  · rintro ⟨held, above, below | below⟩
    · exact .inl ⟨held, above, below⟩
    · rcases lt_or_ge point (ranges.start next) with early | late
      · exact .inl ⟨held, above, early.trans_le reaches⟩
      · exact .inr ⟨held, late, below⟩
  · rintro (⟨held, above, below⟩ | ⟨held, above, below⟩)
    · exact ⟨held, above, .inl below⟩
    · exact ⟨held, starts.trans above, .inr below⟩

theorem mergeFrom_covers
    (sorted : (previous :: rest).Pairwise fun a b => ranges.position a ≤ ranges.position b) (key : κ) (point : α) :
    (∃ range ∈ ranges.mergeFrom previous rest, ranges.Covers range key point) ↔
      ∃ range ∈ previous :: rest, ranges.Covers range key point := by
  induction rest generalizing previous with
  | nil => rfl
  | cons next rest ih =>
    obtain ⟨first, later⟩ := pairwise_cons.mp sorted
    unfold mergeFrom
    split
    next touches =>
      have ordered := first next mem_cons_self
      have still : (ranges.extend previous (ranges.stop next) :: rest).Pairwise
          fun a b => ranges.position a ≤ ranges.position b := by
        refine pairwise_cons.mpr ⟨fun range inside => ?_, later.of_cons⟩
        rw [position_extend]
        exact first range (mem_cons_of_mem _ inside)
      rw [ih still]
      simp only [mem_cons, or_and_right, exists_or, exists_eq_left, covers_extend ordered touches, or_assoc]
    next =>
      simp only [mem_cons, or_and_right, exists_or, exists_eq_left] at ih ⊢
      rw [ih later]

theorem merge_covers (sorted : items.Pairwise fun a b => ranges.position a ≤ ranges.position b)
    (key : κ) (point : α) :
    (∃ range ∈ ranges.merge items, ranges.Covers range key point) ↔ ∃ range ∈ items, ranges.Covers range key point := by
  cases items with
  | nil => rfl
  | cons first rest => exact mergeFrom_covers sorted key point

section

variable (sorted : (previous :: rest).Pairwise fun a b => ranges.position a ≤ ranges.position b)
include sorted

theorem position_le_of_mem_mergeFrom
    (inside : range ∈ ranges.mergeFrom previous rest) : ranges.position previous ≤ ranges.position range := by
  induction rest generalizing previous with
  | nil =>
    cases mem_singleton.mp inside
    exact le_rfl
  | cons next rest ih =>
    obtain ⟨first, later⟩ := pairwise_cons.mp sorted
    unfold mergeFrom at inside
    split at inside
    · have still : (ranges.extend previous (ranges.stop next) :: rest).Pairwise
          fun a b => ranges.position a ≤ ranges.position b := by
        refine pairwise_cons.mpr ⟨fun other among => ?_, later.of_cons⟩
        rw [position_extend]
        exact first other (mem_cons_of_mem _ among)
      have above := ih still inside
      rwa [position_extend] at above
    · rcases mem_cons.mp inside with rfl | inside
      · exact le_rfl
      · exact (first next mem_cons_self).trans (ih later inside)

theorem mergeFrom_apart :
    (ranges.mergeFrom previous rest).Pairwise ranges.Apart := by
  induction rest generalizing previous with
  | nil => exact pairwise_singleton _ _
  | cons next rest ih =>
    obtain ⟨first, later⟩ := pairwise_cons.mp sorted
    unfold mergeFrom
    split
    · refine ih (pairwise_cons.mpr ⟨fun range inside => ?_, later.of_cons⟩)
      rw [position_extend]
      exact first range (mem_cons_of_mem _ inside)
    next gap =>
      refine pairwise_cons.mpr ⟨fun range inside => ?_, ih later⟩
      have beyond := position_le_iff.mp (position_le_of_mem_mergeFrom later inside)
      unfold Apart
      rcases position_le_iff.mp (first next mem_cons_self) with before | ⟨same, -⟩
      · rcases beyond with further | ⟨level, -⟩
        · exact .inl (before.trans further)
        · exact .inl (level ▸ before)
      · have stops : ranges.stop previous < ranges.start next := by
          by_contra reaches
          exact gap ⟨same, not_lt.mp reaches⟩
        rcases beyond with further | ⟨level, starts⟩
        · exact .inl (same ▸ further)
        · exact .inr ⟨same.trans level, stops.trans_le starts⟩

end

theorem merge_apart (sorted : items.Pairwise fun a b => ranges.position a ≤ ranges.position b) :
    (ranges.merge items).Pairwise ranges.Apart := by
  cases items with
  | nil => exact List.Pairwise.nil
  | cons first rest => exact mergeFrom_apart sorted

theorem mergeFrom_stops (inside : range ∈ ranges.mergeFrom previous rest) :
    ∃ item ∈ previous :: rest, ranges.key item = ranges.key range ∧ ranges.stop item = ranges.stop range := by
  induction rest generalizing previous with
  | nil =>
    cases mem_singleton.mp inside
    exact ⟨range, mem_cons_self, rfl, rfl⟩
  | cons next rest ih =>
    unfold mergeFrom at inside
    split at inside
    next touches =>
      obtain ⟨item, among, key, stop⟩ := ih inside
      rcases mem_cons.mp among with rfl | among
      · rw [extend_key] at key
        rw [extend_stop] at stop
        rcases max_choice (ranges.stop previous) (ranges.stop next) with larger | larger
        · exact ⟨previous, mem_cons_self, key, larger ▸ stop⟩
        · exact ⟨next, mem_cons_of_mem _ mem_cons_self, touches.1 ▸ key, larger ▸ stop⟩
      · exact ⟨item, mem_cons_of_mem _ (mem_cons_of_mem _ among), key, stop⟩
    · rcases mem_cons.mp inside with rfl | inside
      · exact ⟨range, mem_cons_self, rfl, rfl⟩
      · obtain ⟨item, among, same⟩ := ih inside
        exact ⟨item, mem_cons_of_mem _ among, same⟩

theorem merge_stops (inside : range ∈ ranges.merge items) :
    ∃ item ∈ items, ranges.key item = ranges.key range ∧ ranges.stop item = ranges.stop range := by
  cases items with
  | nil => cases inside
  | cons first rest => exact mergeFrom_stops inside

theorem mergeFrom_proper
    (proper : ∀ range ∈ previous :: rest, ranges.start range < ranges.stop range) :
    ∀ range ∈ ranges.mergeFrom previous rest, ranges.start range < ranges.stop range := by
  induction rest generalizing previous with
  | nil => exact proper
  | cons next rest ih =>
    obtain ⟨first, later⟩ := forall_mem_cons.mp proper
    unfold mergeFrom
    split
    · apply ih
      refine forall_mem_cons.mpr ⟨?_, fun range inside => later range (mem_cons_of_mem _ inside)⟩
      rw [extend_start, extend_stop]
      exact first.trans_le (le_max_left _ _)
    · exact forall_mem_cons.mpr ⟨first, ih later⟩

theorem merge_proper (proper : ∀ range ∈ items, ranges.start range < ranges.stop range) :
    ∀ range ∈ ranges.merge items, ranges.start range < ranges.stop range := by
  cases items with
  | nil => exact proper
  | cons first rest => exact mergeFrom_proper proper

/-! Ranges that are apart are determined by the points they cover. -/

theorem not_covers_of_apart {a b : δ} (apart : ranges.Apart a b) {key : κ} {point : α} (covered : ranges.Covers a key point) :
    ¬ ranges.Covers b key point := by
  rintro ⟨same, above, -⟩
  obtain ⟨held, -, below⟩ := covered
  rcases apart with before | ⟨-, gap⟩
  · exact absurd (held.trans same.symm) before.ne
  · exact absurd (above.trans_lt below) gap.not_gt

theorem covers_start (proper : ranges.start range < ranges.stop range) :
    ranges.Covers range (ranges.key range) (ranges.start range) :=
  ⟨rfl, le_rfl, proper⟩

theorem position_le_of_covers (proper : ranges.start first < ranges.stop first)
    (apart : (first :: rest).Pairwise ranges.Apart) {key : κ} {point : α}
    (covered : ∃ range ∈ first :: rest, ranges.Covers range key point) : ranges.position first ≤ toLex (key, point) := by
  obtain ⟨range, inside, held, above, -⟩ := covered
  unfold position
  rw [Prod.Lex.toLex_le_toLex]
  dsimp only
  rw [← held]
  rcases mem_cons.mp inside with rfl | later
  · exact .inr ⟨rfl, above⟩
  · rcases (pairwise_cons.mp apart).1 range later with before | ⟨same, gap⟩
    · exact .inl before
    · exact .inr ⟨same, (proper.trans gap).le.trans above⟩

theorem covers_tail_iff (apart : (first :: rest).Pairwise ranges.Apart) (key : κ) (point : α) :
    (∃ range ∈ rest, ranges.Covers range key point) ↔
      (∃ range ∈ first :: rest, ranges.Covers range key point) ∧ ¬ ranges.Covers first key point := by
  constructor
  · rintro ⟨range, later, covered⟩
    refine ⟨⟨range, mem_cons_of_mem _ later, covered⟩, fun held => ?_⟩
    exact not_covers_of_apart ((pairwise_cons.mp apart).1 range later) held covered
  · rintro ⟨⟨range, inside, covered⟩, missed⟩
    rcases mem_cons.mp inside with rfl | later
    · exact absurd covered missed
    · exact ⟨range, later, covered⟩

theorem stop_not_covered (apart : (first :: rest).Pairwise ranges.Apart) :
    ¬ ∃ range ∈ first :: rest, ranges.Covers range (ranges.key first) (ranges.stop first) := by
  rintro ⟨range, inside, held, above, below⟩
  rcases mem_cons.mp inside with rfl | later
  · exact below.false
  · rcases (pairwise_cons.mp apart).1 range later with before | ⟨-, gap⟩
    · exact absurd held.symm before.ne
    · exact absurd above gap.not_ge

theorem eq_of_covers (determined : ∀ a b, ranges.position a = ranges.position b → ranges.stop a = ranges.stop b → a = b)
    {others : List δ} (proper : ∀ range ∈ items, ranges.start range < ranges.stop range)
    (proper' : ∀ range ∈ others, ranges.start range < ranges.stop range) (apart : items.Pairwise ranges.Apart)
    (apart' : others.Pairwise ranges.Apart)
    (same : ∀ key point, (∃ range ∈ items, ranges.Covers range key point) ↔ ∃ range ∈ others, ranges.Covers range key point) :
    items = others := by
  induction items generalizing others with
  | nil =>
    cases others with
    | nil => rfl
    | cons other others =>
      obtain ⟨range, inside, -⟩ := (same _ _).mpr ⟨other, mem_cons_self, covers_start (proper' other mem_cons_self)⟩
      cases inside
  | cons item items ih =>
    have first := covers_start (proper item mem_cons_self)
    cases others with
    | nil =>
      obtain ⟨range, inside, -⟩ := (same _ _).mp ⟨item, mem_cons_self, first⟩
      cases inside
    | cons other others =>
      have first' := covers_start (proper' other mem_cons_self)
      have level : ranges.position item = ranges.position other := by
        apply le_antisymm
        · exact position_le_of_covers (proper item mem_cons_self) apart ((same _ _).mpr ⟨other, mem_cons_self, first'⟩)
        · exact position_le_of_covers (proper' other mem_cons_self) apart' ((same _ _).mp ⟨item, mem_cons_self, first⟩)
      obtain ⟨keys, starts⟩ := Prod.mk.inj (toLex.injective level)
      -- Where one of the two stops earlier, the other covers a point that the first list does not.
      have stops : ranges.stop item = ranges.stop other := by
        rcases lt_trichotomy (ranges.stop item) (ranges.stop other) with less | equal | more
        · have open' : ranges.Covers other (ranges.key item) (ranges.stop item) :=
            ⟨keys.symm, starts ▸ (proper item mem_cons_self).le, less⟩
          exact absurd ((same _ _).mpr ⟨other, mem_cons_self, open'⟩) (stop_not_covered apart)
        · exact equal
        · have open' : ranges.Covers item (ranges.key other) (ranges.stop other) :=
            ⟨keys, starts ▸ (proper' other mem_cons_self).le, more⟩
          exact absurd ((same _ _).mp ⟨item, mem_cons_self, open'⟩) (stop_not_covered apart')
      cases determined item other level stops
      congr 1
      apply ih (fun range later => proper range (mem_cons_of_mem _ later))
        (fun range later => proper' range (mem_cons_of_mem _ later)) apart.of_cons apart'.of_cons
      intro key point
      rw [covers_tail_iff apart, covers_tail_iff apart', same key point]

theorem covers_span_iff (apart : items.Pairwise ranges.Apart) (key : κ) {start stop : α} (some : start < stop) :
    (∃ range ∈ items, ranges.key range = key ∧ ranges.start range ≤ start ∧ stop ≤ ranges.stop range) ↔
      ∀ point, start ≤ point → point < stop → ∃ range ∈ items, ranges.Covers range key point := by
  constructor
  · rintro ⟨range, inside, held, above, below⟩ point after before
    exact ⟨range, inside, held, above.trans after, before.trans_le below⟩
  · intro covered
    obtain ⟨range, inside, held, above, below⟩ := covered start le_rfl some
    refine ⟨range, inside, held, above, ?_⟩
    by_contra beyond
    obtain ⟨next, among, level, reached, passed⟩ := covered (ranges.stop range) below.le (not_le.mp beyond)
    have distinct : range ≠ next := by
      rintro rfl
      exact passed.false
    have either : items.Pairwise fun a b => ranges.Apart a b ∨ ranges.Apart b a := apart.imp .inl
    have : Std.Symm fun a b => ranges.Apart a b ∨ ranges.Apart b a := ⟨fun _ _ => Or.symm⟩
    rcases either.forall inside among distinct with split | split
    · rcases split with before | ⟨-, gap⟩
      · exact absurd (held.trans level.symm) before.ne
      · exact absurd reached gap.not_ge
    · rcases split with before | ⟨-, gap⟩
      · exact absurd (level.trans held.symm) before.ne
      · exact absurd (gap.trans (above.trans_lt below)) passed.not_gt

end Ranges

end Coalesce

import Audec.Lib.Machine

/-! Counting down what each key still waits for. Keys may wait for one another several times over. -/

open Machine List
open Std (ExtTreeMap ExtTreeSet)

namespace Countdown

variable {κ : Type} [LinearOrder κ]

structure Counts (κ : Type) [LinearOrder κ] where
  remaining : ExtTreeMap κ Nat
  ready : ExtTreeSet κ

/-- One less to wait for; `none` if the key is not counted, or waits for nothing. -/
def tick (counts : Counts κ) (key : κ) : Option (Counts κ) :=
  match counts.remaining[key]? with
  | none => none
  | some 0 => none
  | some (degree + 1) => some ⟨counts.remaining.insert key degree, if degree = 0 then counts.ready.insert key else counts.ready⟩

theorem tick_some {counts : Counts κ} {key : κ} {degree : Nat} (counted : counts.remaining[key]? = some (degree + 1)) :
    tick counts key = some ⟨counts.remaining.insert key degree, if degree = 0 then counts.ready.insert key else counts.ready⟩ := by
  unfold tick
  rw [counted]

theorem ticks_some {targets : List κ} {counts : Counts κ}
    (enough : ∀ key ∈ targets, ∃ degree, counts.remaining[key]? = some degree ∧ targets.count key ≤ degree) :
    ∃ after, targets.foldlM tick counts = some after ∧
      (∀ key : κ, after.remaining[key]? = counts.remaining[key]?.map (· - targets.count key)) ∧
      ∀ key, key ∈ after.ready ↔ key ∈ counts.ready ∨ (key ∈ targets ∧ counts.remaining[key]? = some (targets.count key)) := by
  induction targets generalizing counts with
  | nil => exact ⟨counts, rfl, by simp, by simp⟩
  | cons target targets later =>
    obtain ⟨degree, counted, room⟩ := enough target mem_cons_self
    rw [count_cons_self] at room
    obtain ⟨less, rfl⟩ : ∃ less, degree = less + 1 := ⟨degree - 1, by omega⟩
    have first := tick_some counted
    have remaining : ∀ key, (counts.remaining.insert target less)[key]? = if target = key then some less else counts.remaining[key]? := by
      intro key
      rw [ExtTreeMap.getElem?_insert]
      simp only [compare_eq_iff_eq]
    have enough' : ∀ key ∈ targets, ∃ degree, (counts.remaining.insert target less)[key]? = some degree ∧ targets.count key ≤ degree := by
      intro key member
      obtain ⟨degree, held, bound⟩ := enough key (mem_cons_of_mem _ member)
      rw [remaining]
      split
      · rename_i same
        subst same
        exact ⟨less, rfl, by omega⟩
      · rename_i different
        rw [count_cons_of_ne different] at bound
        exact ⟨degree, held, bound⟩
    obtain ⟨after, ends, counts', ready'⟩ :=
      @later ⟨counts.remaining.insert target less, if less = 0 then counts.ready.insert target else counts.ready⟩ enough'
    refine ⟨after, ?_, ?_, ?_⟩
    · rw [foldlM_cons, first]
      exact ends
    · intro key
      rw [counts', remaining]
      split
      · rename_i same
        subst same
        rw [counted, count_cons_self, Option.map_some, Option.map_some]
        congr 1
        omega
      · rename_i different
        rw [count_cons_of_ne different]
    · intro key
      rw [ready', remaining]
      by_cases same : target = key
      · subst same
        rw [if_pos rfl, counted, count_cons_self]
        simp only [mem_cons_self, true_and, Option.some.injEq, Nat.add_right_cancel_iff]
        by_cases member : target ∈ targets
        · have positive := count_pos_iff.mpr member
          split
          · omega
          · simp [member]
        · have zero := count_eq_zero.mpr member
          rw [zero]
          split
          · rename_i last
            simp [last]
          · rename_i more
            simp [member, more]
      · rw [if_neg same, count_cons_of_ne same, mem_cons]
        have other : key ∈ (if less = 0 then counts.ready.insert target else counts.ready) ↔ key ∈ counts.ready := by
          split
          · rw [ExtTreeSet.mem_insert, compare_eq_iff_eq]
            simp [same]
          · rfl
        rw [other]
        simp [Ne.symm same]

section Graph

structure Counting (edges : List (κ × κ)) (nodes taken : Finset κ) (counts : Counts κ) : Prop where
  remaining : ∀ key : κ, counts.remaining[key]? =
    if key ∈ nodes then some (edges.countP fun edge => edge.2 = key ∧ edge.1 ∉ taken) else none
  ready : ∀ key, key ∈ counts.ready ↔ key ∈ nodes ∧ key ∉ taken ∧ ∀ edge ∈ edges, edge.2 = key → edge.1 ∈ taken
  closed : ∀ edge ∈ edges, edge.2 ∈ taken → edge.1 ∈ taken

variable {edges : List (κ × κ)} {nodes taken : Finset κ} {counts : Counts κ}

def targets (edges : List (κ × κ)) (key : κ) : List κ := (edges.filter fun edge => edge.1 = key).map Prod.snd

theorem count_targets (edges : List (κ × κ)) (key target : κ) :
    (targets edges key).count target = edges.countP fun edge => edge.2 = target ∧ edge.1 = key := by
  rw [targets, List.count, countP_map, countP_filter]
  apply countP_congr
  intro edge _
  simp

theorem waits (edges : List (κ × κ)) {key : κ} (fresh : key ∉ taken) (target : κ) :
    (edges.countP fun edge => edge.2 = target ∧ edge.1 ∉ taken) =
      (edges.countP fun edge => edge.2 = target ∧ edge.1 ∉ insert key taken) + (targets edges key).count target := by
  rw [count_targets]
  induction edges with
  | nil => rfl
  | cons edge edges later =>
    simp only [countP_cons, later]
    by_cases into : edge.2 = target
    · by_cases same : edge.1 = key
      · simp [into, same, fresh]
        omega
      · simp [into, same]
        omega
    · simp [into]

theorem Counting.take (counting : Counting edges nodes taken counts) (inside : ∀ edge ∈ edges, edge.2 ∈ nodes) {key : κ} (ready : key ∈ counts.ready) :
    ∃ after, (targets edges key).foldlM tick ⟨counts.remaining, counts.ready.erase key⟩ = some after ∧ Counting edges nodes (insert key taken) after := by
  obtain ⟨node, fresh, first⟩ := (counting.ready key).mp ready
  have leads : ∀ target, target ∈ targets edges key ↔ (key, target) ∈ edges := by
    intro target
    simp only [targets, mem_map, mem_filter, decide_eq_true_eq]
    constructor
    · rintro ⟨edge, ⟨member, rfl⟩, rfl⟩
      exact member
    · exact fun member => ⟨(key, target), ⟨member, rfl⟩, rfl⟩
  have enough : ∀ target ∈ targets edges key, ∃ degree, counts.remaining[target]? = some degree ∧ (targets edges key).count target ≤ degree := by
    intro target member
    have there := inside _ ((leads target).mp member)
    refine ⟨_, by rw [counting.remaining, if_pos there], ?_⟩
    rw [waits edges fresh target]
    omega
  obtain ⟨after, ends, remaining, ready'⟩ := @ticks_some κ _ (targets edges key) ⟨counts.remaining, counts.ready.erase key⟩ enough
  refine ⟨after, ends, ?_⟩
  constructor
  case remaining =>
    intro target
    rw [remaining, counting.remaining]
    split
    · rw [waits edges fresh target, Option.map_some, Nat.add_sub_cancel]
    · rfl
  case closed =>
    intro edge member into
    rw [Finset.mem_insert] at into ⊢
    rcases into with same | into
    · exact .inr (first edge member same)
    · exact .inr (counting.closed edge member into)
  case ready =>
    intro target
    rw [ready', ExtTreeSet.mem_erase, counting.ready, leads, counting.remaining]
    simp only [ne_eq, compare_eq_iff_eq]
    constructor
    · rintro (⟨different, there, out, all⟩ | ⟨member, counted⟩)
      · refine ⟨there, ?_, fun edge member into => Finset.mem_insert_of_mem (all edge member into)⟩
        rw [Finset.mem_insert, not_or]
        exact ⟨Ne.symm different, out⟩
      · have there := inside _ member
        rw [if_pos there, Option.some.injEq, waits edges fresh target, Nat.add_eq_right, countP_eq_zero] at counted
        refine ⟨there, ?_, ?_⟩
        · rw [Finset.mem_insert, not_or]
          constructor
          · rintro rfl
            exact fresh (first _ member rfl)
          · exact fun into => fresh (counting.closed _ member into)
        · intro edge member' into
          by_contra out
          exact counted edge member' (by simp [into, out])
    · rintro ⟨there, out, all⟩
      rw [Finset.mem_insert, not_or] at out
      by_cases member : (key, target) ∈ edges
      · right
        refine ⟨member, ?_⟩
        rw [if_pos there, Option.some.injEq, waits edges fresh target, Nat.add_eq_right, countP_eq_zero]
        intro edge member' held
        simp only [decide_eq_true_eq] at held
        exact held.2 (all edge member' held.1)
      · left
        refine ⟨Ne.symm out.1, there, out.2, ?_⟩
        intro edge member' into
        rcases Finset.mem_insert.mp (all edge member' into) with same | held
        · exfalso
          apply member
          rw [← same, ← into]
          exact member'
        · exact held

theorem Counting.all_taken (counting : Counting edges nodes taken counts) (descends : WellFounded fun source target => (source, target) ∈ edges)
    (inside : ∀ edge ∈ edges, edge.1 ∈ nodes) (stopped : ∀ key, key ∉ counts.ready) {key : κ} (node : key ∈ nodes) : key ∈ taken := by
  induction key using descends.induction with
  | _ key held =>
    by_contra out
    apply stopped key
    refine (counting.ready key).mpr ⟨node, out, ?_⟩
    intro edge member into
    have source : (edge.1, key) ∈ edges := by
      rw [← into]
      exact member
    exact held edge.1 source (inside edge member)

end Graph

end Countdown

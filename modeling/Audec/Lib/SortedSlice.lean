import Mathlib

/-! Bisection for the last number of a window that passes a test, where the test may fail to answer. -/

open List Option

namespace Bisection

/-- The loop `while low < high`, with the upper middle of the window. -/
def last (test : ℤ → Option Bool) (low high : ℤ) : Option ℤ :=
  if low < high then do
    let mid := low + (high - low + 1) / 2
    if ← test mid then last test mid high else last test low (mid - 1)
  else some low
termination_by (high - low).toNat
decreasing_by all_goals omega

variable {test : ℤ → Option Bool} {holds : ℤ → Prop} [DecidablePred holds] {low high : ℤ}

theorem last_spec (answers : ∀ point, low < point → point ≤ high → test point = some (decide (holds point)))
    (falling : ∀ point later, low < point → point ≤ later → later ≤ high → holds later → holds point) (window : low ≤ high) :
    ∃ result, last test low high = some result ∧ low ≤ result ∧ result ≤ high ∧
      ∀ point, low < point → point ≤ high → (holds point ↔ point ≤ result) := by
  fun_induction last test low high with
  | case1 low high open' mid up down =>
    have inside : low < mid ∧ mid ≤ high := by omega
    rw [answers mid inside.1 inside.2, bind_eq_bind, bind_some]
    by_cases passes : holds mid
    · rw [if_pos (decide_eq_true passes)]
      obtain ⟨result, found, above, below, exact'⟩ :=
        up (fun point more => answers point (inside.1.trans more)) (fun point later more => falling point later (inside.1.trans more)) inside.2
      refine ⟨result, found, by omega, below, ?_⟩
      intro point more less
      rcases le_or_gt point mid with early | late
      · exact iff_of_true (falling point mid more early inside.2 passes) (early.trans above)
      · exact exact' point late less
    · rw [if_neg (by simpa using passes)]
      obtain ⟨result, found, above, below, exact'⟩ :=
        down (fun point more less => answers point more (by omega))
          (fun point later more ordered less => falling point later more ordered (by omega)) (by omega)
      refine ⟨result, found, above, by omega, ?_⟩
      intro point more less
      rcases lt_or_ge point mid with early | late
      · exact exact' point more (by omega)
      · exact iff_of_false (fun held => passes (falling mid point inside.1 late less held)) (by omega)
  | case2 low high closed =>
    exact ⟨low, rfl, le_rfl, window, fun point more less => by omega⟩

end Bisection

/-! The position of an item of a list in strictly increasing order. -/

namespace Ranking

variable {α : Type} {before : α → α → Prop} [DecidableRel before]

def rank (before : α → α → Prop) [DecidableRel before] (items : List α) (item : α) : Nat := items.countP fun other => before other item

theorem rank_perm {items others : List α} (same : items.Perm others) (item : α) : rank before items item = rank before others item :=
  same.countP_eq _

theorem mem_drop_iff (irreflexive : ∀ item, ¬ before item item) (asymmetric : ∀ left right, before left right → ¬ before right left)
    {items : List α} (sorted : items.Pairwise before) {item : α} (inside : item ∈ items) (count : Nat) :
    item ∈ items.drop count ↔ count ≤ rank before items item := by
  induction items generalizing count with
  | nil => cases inside
  | cons first rest ih =>
    rw [pairwise_cons] at sorted
    unfold rank at ih ⊢
    rw [countP_cons]
    rcases mem_cons.mp inside with rfl | later
    · -- the first item: nothing after it comes before it
      have absent : item ∉ rest := fun again => irreflexive item (sorted.1 item again)
      have none : rest.countP (fun other => decide (before other item)) = 0 := by
        rw [countP_eq_zero]
        intro other there
        have after := asymmetric item other (sorted.1 other there)
        simp [after]
      cases count with
      | zero => simp
      | succ count =>
        have beyond : item ∉ rest.drop count := fun again => absent (mem_of_mem_drop again)
        simp [none, beyond, irreflexive]
    · have ahead := sorted.1 item later
      cases count with
      | zero => simp [later]
      | succ count =>
        rw [drop_succ_cons, ih sorted.2 later]
        simp [ahead]

end Ranking

/-! Binary search in a slice that is sorted by a key without repetitions. -/

namespace SortedSlice

variable {α κ : Type} [LinearOrder κ]

/-- How many leading elements satisfy a condition. -/
def partitionPoint (values : List α) (holds : α → Bool) : Nat := (values.takeWhile holds).length

def binarySearchByKey (values : List α) (sought : κ) (key : α → κ) : Except Nat Nat :=
  let index := partitionPoint values fun value => key value < sought
  if (values[index]?.map key) = some sought then .ok index else .error index

variable {values : List α} {sought : κ} {key : α → κ} {index : Nat}

theorem cut (values : List α) (holds : α → Bool) :
    ∃ below rest, values = below ++ rest ∧ below.length = partitionPoint values holds ∧ (∀ value ∈ below, holds value = true) ∧
      ∀ value others, rest = value :: others → holds value = false := by
  refine ⟨values.takeWhile holds, values.dropWhile holds, takeWhile_append_dropWhile.symm, rfl, ?_, ?_⟩
  · exact fun value member => mem_takeWhile_imp member
  · intro value others same
    have stopped := head?_dropWhile_not holds values
    rw [same] at stopped
    simpa using stopped

theorem found (search : binarySearchByKey values sought key = .ok index) :
    ∃ below value above, values = below ++ value :: above ∧ below.length = index ∧ key value = sought := by
  obtain ⟨below, rest, same, length, -, -⟩ := cut values fun value => key value < sought
  unfold binarySearchByKey at search
  dsimp only at search
  rw [← length] at search
  split at search
  · rename_i here
    cases search
    rw [same, getElem?_append_right le_rfl, Nat.sub_self] at here
    cases rest with
    | nil => cases here
    | cons value above =>
      simp only [getElem?_cons_zero, map_some, some.injEq] at here
      exact ⟨below, value, above, same, rfl, here⟩
  · cases search

theorem missing (sorted : values.Pairwise fun value later => key value < key later) (search : binarySearchByKey values sought key = .error index) :
    ∃ below above, values = below ++ above ∧ below.length = index ∧ (∀ value ∈ below, key value < sought) ∧
      ∀ value ∈ above, sought < key value := by
  obtain ⟨below, rest, same, length, smaller, larger⟩ := cut values fun value => key value < sought
  unfold binarySearchByKey at search
  dsimp only at search
  rw [← length] at search
  split at search
  · cases search
  · rename_i absent
    cases search
    refine ⟨below, rest, same, rfl, fun value member => of_decide_eq_true (smaller value member), ?_⟩
    rw [same, getElem?_append_right le_rfl, Nat.sub_self] at absent
    cases rest with
    | nil => exact fun value member => absurd member not_mem_nil
    | cons head above =>
      simp only [getElem?_cons_zero, map_some, some.injEq] at absent
      have first : sought < key head := lt_of_le_of_ne (not_lt.mp (of_decide_eq_false (larger head above rfl))) (Ne.symm absent)
      rw [same] at sorted
      have after := (pairwise_append.mp sorted).2.1
      intro value member
      rcases mem_cons.mp member with rfl | member
      · exact first
      · exact first.trans (rel_of_pairwise_cons after member)

theorem modify_found (below : List α) (value : α) (above : List α) (change : α → α) :
    (below ++ value :: above).modify below.length change = below ++ change value :: above := by
  induction below with
  | nil => rfl
  | cons head below tail => rw [cons_append, length_cons, modify_succ_cons, tail, cons_append]

theorem insert_missing (below above : List α) (fresh : α) :
    (below ++ above).insertIdx below.length fresh = below ++ fresh :: above := by
  induction below with
  | nil => rfl
  | cons head below tail => rw [cons_append, length_cons, insertIdx_succ_cons, tail, cons_append]

theorem insert_sorted {below above : List α} {fresh : α} (sorted : (below ++ above).Pairwise fun value later => key value < key later)
    (smaller : ∀ value ∈ below, key value < key fresh) (larger : ∀ value ∈ above, key fresh < key value) :
    (below ++ fresh :: above).Pairwise fun value later => key value < key later := by
  obtain ⟨first, second, between⟩ := pairwise_append.mp sorted
  refine pairwise_append.mpr ⟨first, pairwise_cons.mpr ⟨larger, second⟩, ?_⟩
  intro value member later member'
  rcases mem_cons.mp member' with rfl | member'
  · exact smaller value member
  · exact between value member later member'

theorem replace_sorted {below above : List α} {old fresh : α} (same : key fresh = key old)
    (sorted : (below ++ old :: above).Pairwise fun value later => key value < key later) :
    (below ++ fresh :: above).Pairwise fun value later => key value < key later := by
  have mapped : ((below ++ old :: above).map key).Pairwise (· < ·) := pairwise_map.mpr sorted
  rw [map_append, map_cons, ← same, ← map_cons, ← map_append] at mapped
  exact pairwise_map.mp mapped

end SortedSlice

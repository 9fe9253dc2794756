import Mathlib

/-! Segments of the number line, each from its own start to the start of the next: the segment in
    force at a point, and the area under a rate that is constant on each of them. -/

open List

namespace Segments

variable {α : Type} (start rate : α → ℤ)

def Ascending (segments : List α) : Prop := segments.Pairwise fun segment later => start segment < start later

def inForce (first : α) : List α → ℤ → α
  | [], _ => first
  | next :: rest, point => if start next ≤ point then inForce next rest point else first

def area (first : α) : List α → ℤ → ℤ
  | [], point => (point - start first) * rate first
  | next :: rest, point =>
    if start next < point then (start next - start first) * rate first + area next rest point
    else (point - start first) * rate first

variable {start rate} {first next : α} {rest : List α} {point : ℤ}

theorem Ascending.step (ascending : Ascending start (first :: next :: rest)) : start first < start next :=
  rel_of_pairwise_cons ascending mem_cons_self

theorem Ascending.tail (ascending : Ascending start (first :: rest)) : Ascending start rest :=
  Pairwise.of_cons ascending

theorem inForce_mem : inForce start first rest point ∈ first :: rest := by
  induction rest generalizing first with
  | nil => exact mem_singleton_self first
  | cons next rest tail =>
    unfold inForce
    split
    · exact mem_cons_of_mem first tail
    · exact mem_cons_self

section

variable (ascending : Ascending start (first :: rest))
include ascending

theorem inForce_get :
    (first :: rest)[((first :: rest).takeWhile fun segment => start segment ≤ point).length - 1]? = some (inForce start first rest point) := by
  induction rest generalizing first with
  | nil =>
    have last : ([first].takeWhile fun segment => start segment ≤ point).length - 1 = 0 := by
      have : ([first].takeWhile fun segment => start segment ≤ point).length ≤ [first].length := (takeWhile_sublist _).length_le
      simp only [length_singleton] at this
      omega
    rw [last]
    rfl
  | cons next rest tail =>
    by_cases reached : start next ≤ point
    · have started : start first ≤ point := ascending.step.le.trans reached
      have later := tail ascending.tail
      rw [takeWhile_cons_of_pos (by simpa using reached), length_cons, Nat.add_sub_cancel] at later
      rw [takeWhile_cons_of_pos (by simpa using started), takeWhile_cons_of_pos (by simpa using reached), length_cons,
        length_cons, Nat.add_sub_cancel, getElem?_cons_succ, later, inForce, if_pos reached]
    · have none : (next :: rest).takeWhile (fun segment => start segment ≤ point) = [] :=
        takeWhile_cons_of_neg (by simpa using reached)
      rw [inForce, if_neg reached, takeWhile_cons, none]
      split <;> rfl

theorem area_start : area start rate first rest (start first) = 0 := by
  cases rest with
  | nil => rw [area, sub_self, zero_mul]
  | cons next rest => rw [area, if_neg (not_lt.mpr ascending.step.le), sub_self, zero_mul]

theorem area_succ (point : ℤ) :
    area start rate first rest (point + 1) = area start rate first rest point + rate (inForce start first rest point) := by
  induction rest generalizing first with
  | nil =>
    simp only [area, inForce]
    ring
  | cons next rest tail =>
    rcases lt_trichotomy (start next) point with before | here | after
    · rw [area, if_pos (by omega), area, if_pos before, inForce, if_pos before.le, tail ascending.tail, add_assoc]
    · subst here
      rw [area, if_pos (by omega), area, if_neg (lt_irrefl _), inForce, if_pos le_rfl, tail ascending.tail,
        area_start ascending.tail, zero_add]
    · rw [area, if_neg (by omega), area, if_neg (by omega), inForce, if_neg (by omega)]
      ring

theorem area_eq_sum (started : start first ≤ point) :
    area start rate first rest point = ∑ place ∈ Finset.Ico (start first) point, rate (inForce start first rest place) := by
  induction point, started using Int.leInduction with
  | base => rw [area_start ascending, Finset.Ico_self, Finset.sum_empty]
  | succ point started ih =>
    rw [area_succ ascending, ih, ← Finset.insert_Ico_right_eq_Ico_add_one started, Finset.sum_insert Finset.right_notMem_Ico, add_comm]

theorem area_eq_neg_sum (early : point ≤ start first) :
    area start rate first rest point = -∑ place ∈ Finset.Ico point (start first), rate (inForce start first rest place) := by
  induction point, early using Int.leInductionDown with
  | base => rw [area_start ascending, Finset.Ico_self, Finset.sum_empty, neg_zero]
  | pred point early ih =>
    have grown := @area_succ α start rate first rest ascending (point - 1)
    rw [sub_add_cancel, ih] at grown
    have split : Finset.Ico (point - 1) (start first) = insert (point - 1) (Finset.Ico point (start first)) := by
      ext place
      simp only [Finset.mem_insert, Finset.mem_Ico]
      omega
    rw [split, Finset.sum_insert (by simp [Finset.mem_Ico])]
    omega

theorem area_mono (rising : ∀ segment ∈ first :: rest, 0 ≤ rate segment) :
    Monotone (area start rate first rest) := by
  apply monotone_int_of_le_succ
  intro point
  have := rising _ (@inForce_mem α start first rest point)
  have := @area_succ α start rate first rest ascending point
  omega

end

end Segments

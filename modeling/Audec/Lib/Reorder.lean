import Mathlib

/-! An item of a list that is moved before another one, where no two items have the same key. -/

open List

namespace Reorder

variable {α κ : Type} [DecidableEq κ] (key : α → κ)

/-- Before the first item with the key of the anchor, or last. -/
def place (item : α) (anchor : Option κ) : List α → List α
  | [] => [item]
  | next :: rest => if anchor = some (key next) then item :: next :: rest else next :: place item anchor rest

def without (item : α) (list : List α) : List α := list.filter fun other => key other ≠ key item

def move (item : α) (anchor : Option κ) (list : List α) : List α := place key item anchor (without key item list)

/-- The item that comes next is one of the others. -/
def Anchored (item : α) (anchor : Option κ) (list : List α) : Prop := ∀ target ∈ anchor, ∃ next ∈ without key item list, key next = target

variable {key} {item : α} {anchor : Option κ} {target : κ} {left right list : List α}

theorem place_none : place key item none list = list ++ [item] := by
  induction list with
  | nil => rfl
  | cons next rest ih => rw [place, if_neg (Option.some_ne_none _).symm, ih, cons_append]

theorem place_next (absent : ∀ other ∈ left, key other ≠ target) {next : α} (named : key next = target) :
    place key item (some target) (left ++ next :: right) = left ++ item :: next :: right := by
  induction left with
  | nil => rw [nil_append, place, named, if_pos rfl, nil_append]
  | cons other left ih =>
    obtain ⟨apart, absent⟩ := forall_mem_cons.mp absent
    rw [cons_append, place, if_neg fun same => apart (Option.some.inj same).symm, ih absent, cons_append]

theorem place_split (anchored : ∀ target ∈ anchor, ∃ next ∈ list, key next = target) :
    ∃ first last, list = first ++ last ∧ place key item anchor list = first ++ item :: last ∧ last.head?.map key = anchor := by
  cases anchor with
  | none => exact ⟨list, [], (append_nil _).symm, place_none, rfl⟩
  | some target =>
    obtain ⟨next, member, named⟩ := anchored target rfl
    induction list with
    | nil => cases member
    | cons first rest ih =>
      by_cases here : key first = target
      · exact ⟨[], first :: rest, rfl, by rw [place, here, if_pos rfl, nil_append], congrArg some here⟩
      · have later : next ∈ rest := (mem_cons.mp member).resolve_left fun same => here (same ▸ named)
        obtain ⟨left, last, split, placed, head⟩ := ih (fun _ same => ⟨next, later, named.trans (Option.some.inj same)⟩) later
        exact ⟨first :: left, last, by rw [split, cons_append],
          by rw [place, if_neg fun same => here (Option.some.inj same).symm, placed, cons_append], head⟩

theorem without_between : without key item (left ++ item :: right) = without key item (left ++ right) := by
  unfold without
  rw [filter_append, filter_append, filter_cons, if_neg (by simp)]

theorem without_idem : without key item (without key item list) = without key item list := by
  unfold without
  simp only [filter_filter, Bool.and_self]

theorem getLast?_between (behind : right ≠ []) : (left ++ item :: right).getLast? = (left ++ right).getLast? := by
  cases right with
  | nil => exact absurd rfl behind
  | cons next right => rw [getLast?_append_cons, getLast?_append_cons, getLast?_cons_cons]

/-- What a move does, apart from where it puts the item. -/
theorem move_split (anchored : Anchored key item anchor list) :
    ∃ first last, without key item list = first ++ last ∧ move key item anchor list = first ++ item :: last ∧ last.head?.map key = anchor :=
  place_split anchored

theorem without_move (anchored : Anchored key item anchor list) :
    without key item (move key item anchor list) = without key item list := by
  obtain ⟨first, last, split, placed, -⟩ := move_split anchored
  rw [placed, without_between, ← split, without_idem]

section Distinct

variable (distinct : ((left ++ item :: right).map key).Nodup)
include distinct

theorem without_split : without key item (left ++ item :: right) = left ++ right := by
  rw [without_between]
  refine filter_eq_self.mpr fun other inside => decide_eq_true fun same => ?_
  rw [map_append, map_cons, nodup_middle, ← map_append, nodup_cons] at distinct
  exact distinct.1 (same ▸ mem_map_of_mem inside)

/-- Before what follows it, an item stands already. -/
theorem move_self : move key item (right.head?.map key) (left ++ item :: right) = left ++ item :: right := by
  unfold move
  rw [without_split distinct]
  cases right with
  | nil => rw [append_nil, head?_nil, Option.map_none, place_none]
  | cons next right =>
    rw [map_append, nodup_append] at distinct
    exact place_next (fun other inside => distinct.2.2 _ (mem_map_of_mem inside) _ (mem_map_of_mem (by simp))) rfl

theorem move_back (anchored : Anchored key item anchor (left ++ item :: right)) :
    move key item (right.head?.map key) (move key item anchor (left ++ item :: right)) = left ++ item :: right := by
  rw [move, without_move anchored]
  exact move_self distinct

theorem move_perm (anchored : Anchored key item anchor (left ++ item :: right)) :
    (move key item anchor (left ++ item :: right)).Perm (left ++ item :: right) := by
  obtain ⟨first, last, split, placed, -⟩ := move_split anchored
  rw [without_split distinct] at split
  rw [placed]
  exact perm_middle.trans (split ▸ perm_middle.symm)

theorem findIdx?_split : (left ++ item :: right).findIdx? (fun other => key other = key item) = some left.length := by
  induction left with
  | nil => rw [nil_append, findIdx?_cons, if_pos (decide_eq_true rfl), length_nil]
  | cons first left ih =>
    rw [cons_append, map_cons, nodup_cons] at distinct
    have apart : key first ≠ key item := fun same => distinct.1 (same ▸ mem_map_of_mem (mem_append_right _ mem_cons_self))
    rw [cons_append, findIdx?_cons, if_neg (by rwa [decide_eq_true_eq]), ih distinct.2, Option.map_some, length_cons]

theorem eraseIdx_split : (left ++ item :: right).eraseIdx left.length = without key item (left ++ item :: right) := by
  rw [without_split distinct, eraseIdx_append_of_length_le le_rfl, Nat.sub_self, eraseIdx_cons_zero]

end Distinct

theorem insertIdx_place {position : Nat} (found : list.findIdx? (fun other => key other = target) = some position) :
    list.insertIdx position item = place key item (some target) list := by
  induction list generalizing position with
  | nil => cases found
  | cons next rest ih =>
    rw [findIdx?_cons] at found
    by_cases here : key next = target
    · rw [if_pos (decide_eq_true here)] at found
      cases found
      rw [insertIdx_zero, place, here, if_pos rfl]
    · rw [if_neg (by rwa [decide_eq_true_eq]), Option.map_eq_some_iff] at found
      obtain ⟨position, found, rfl⟩ := found
      rw [insertIdx_succ_cons, ih found, place, if_neg fun same => here (Option.some.inj same).symm]

/-- Where the anchor stands after the item is taken out. -/
theorem findIdx?_erased {index : Nat} (apart : key item ≠ target)
    (found : (left ++ item :: right).findIdx? (fun other => key other = target) = some index) :
    (left ++ right).findIdx? (fun other => key other = target) = some (if left.length < index then index - 1 else index) := by
  rw [findIdx?_append, findIdx?_cons, if_neg (by rwa [decide_eq_true_eq])] at found
  rw [findIdx?_append]
  cases early : left.findIdx? (fun other => key other = target) with
  | some position =>
    rw [early, Option.some_or, Option.some.injEq] at found
    subst found
    have inside := (findIdx?_eq_some_iff_getElem.mp early).1
    rw [Option.some_or, if_neg (Nat.not_lt.mpr inside.le)]
  | none =>
    rw [early, Option.none_or] at found
    rw [Option.none_or]
    cases late : right.findIdx? (fun other => key other = target) with
    | none =>
      rw [late] at found
      cases found
    | some position =>
      rw [late, Option.map_some, Option.map_some, Option.some.injEq] at found
      subst found
      rw [Option.map_some, if_pos (by omega)]
      congr 1
      omega

end Reorder

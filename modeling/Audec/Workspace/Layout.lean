import Audec.Lib.Checked
import Audec.Lib.Machine

/-! The dock tree of a workspace: panes of tabbed views, split in two again and again. -/

open Machine Checked
open Std (ExtTreeMap)

namespace Audec.Workspace

open List

abbrev WorkspaceViewId := U64

abbrev DockPaneId := U64

inductive SplitAxis where
  | horizontal | vertical

structure DockPane (V : Type) where
  paneId : DockPaneId
  items : List WorkspaceViewId
  active : Nat
  extensions : ExtTreeMap String V

inductive DockLayout (V : Type) where
  | pane (pane : DockPane V)
  | split (axis : SplitAxis) (ratio : Float32) (first second : DockLayout V) (extensions : ExtTreeMap String V)

namespace DockPane

variable {V : Type}

def without (pane : DockPane V) (view : WorkspaceViewId) : Option (DockPane V) × Bool :=
  match pane.items.findIdx? (· = view) with
  | none => (some pane, false)
  | some index =>
    let items := pane.items.eraseIdx index
    if items = [] then (none, true)
    else
      let active := if items.length ≤ pane.active then items.length - 1 else if index < pane.active then pane.active - 1 else pane.active
      (some { pane with items, active }, true)

def add (pane : DockPane V) (view : WorkspaceViewId) : DockPane V :=
  { pane with items := pane.items ++ [view], active := pane.items.length }

def Filled (pane : DockPane V) : Prop := pane.active < pane.items.length

def activeItem (pane : DockPane V) : Option WorkspaceViewId := pane.items[pane.active]?

structure Keeps (view : WorkspaceViewId) (pane kept : DockPane V) : Prop where
  paneId : kept.paneId = pane.paneId
  extensions : kept.extensions = pane.extensions
  items : kept.items = pane.items.filter fun item => item ≠ view
  filled : kept.Filled
  active : pane.activeItem ≠ some view → kept.activeItem = pane.activeItem

end DockPane

namespace DockLayout

variable {V : Type}

def primaryPane : DockLayout V → DockPaneId
  | .pane leaf => leaf.paneId
  | .split _ _ first _ _ => first.primaryPane

def without (view : WorkspaceViewId) : DockLayout V → Option (DockLayout V) × Bool
  | .pane leaf => ((leaf.without view).1.map .pane, (leaf.without view).2)
  | .split axis ratio first second extensions =>
    let (first, firstRemoved) := first.without view
    let (second, secondRemoved) := second.without view
    let next := match first, second with
      | some first, some second => some (split axis ratio first second extensions)
      | some remaining, none | none, some remaining => some remaining
      | none, none => none
    (next, firstRemoved || secondRemoved)

def addToPrimary (view : WorkspaceViewId) : DockLayout V → DockLayout V
  | .pane leaf => .pane (leaf.add view)
  | .split axis ratio first second extensions => split axis ratio (first.addToPrimary view) second extensions

def layoutContains (view : WorkspaceViewId) : DockLayout V → Bool
  | .pane leaf => leaf.items.contains view
  | .split _ _ first second _ => first.layoutContains view || second.layoutContains view

def panes : DockLayout V → List (DockPane V)
  | .pane leaf => [leaf]
  | .split _ _ first second _ => first.panes ++ second.panes

def items (layout : DockLayout V) : List WorkspaceViewId := layout.panes.flatMap DockPane.items

structure Division (V : Type) where
  axis : SplitAxis
  ratio : Float32
  extensions : ExtTreeMap String V
  first : List WorkspaceViewId
  second : List WorkspaceViewId

/-- A split whose sides lose a view, as long as both sides have another one. -/
def Division.without (view : WorkspaceViewId) (division : Division V) : Option (Division V) :=
  let first := division.first.filter fun item => item ≠ view
  let second := division.second.filter fun item => item ≠ view
  if first = [] ∨ second = [] then none else some { division with first, second }

/-- The splits, each before those on its sides. -/
def divisions : DockLayout V → List (Division V)
  | .pane _ => []
  | .split axis ratio first second extensions =>
    ⟨axis, ratio, extensions, first.items, second.items⟩ :: (first.divisions ++ second.divisions)

/-- No pane is empty, and every active index is in range. -/
def Filled (layout : DockLayout V) : Prop := ∀ pane ∈ layout.panes, pane.Filled

def Survives (view : WorkspaceViewId) (pane : DockPane V) : Prop := ∃ item ∈ pane.items, item ≠ view

instance (view : WorkspaceViewId) (pane : DockPane V) : Decidable (Survives view pane) :=
  inferInstanceAs (Decidable (∃ item ∈ pane.items, item ≠ view))

structure Without (view : WorkspaceViewId) (layout : DockLayout V) (next : Option (DockLayout V)) (removed : Bool) : Prop where
  removed : removed = true ↔ view ∈ layout.items
  emptied : next = none ↔ layout.items = [view]
  items : ∀ kept ∈ next, kept.items = layout.items.filter fun item => item ≠ view
  panes : ∀ kept ∈ next, List.Forall₂ (DockPane.Keeps view) (layout.panes.filter fun pane => Survives view pane) kept.panes
  divisions : ∀ kept ∈ next, kept.divisions = layout.divisions.filterMap (Division.without view)

section Panes

variable {view : WorkspaceViewId}

variable {index : Nat} {pane : DockPane V}

theorem eraseIdx_eq_filter {items : List WorkspaceViewId} (once : items.count view ≤ 1)
    (found : items.findIdx? (· = view) = some index) : items.eraseIdx index = items.filter fun item => item ≠ view := by
  induction items generalizing index with
  | nil => cases found
  | cons item items ih =>
    rw [findIdx?_cons] at found
    by_cases same : item = view
    · subst same
      rw [if_pos (decide_eq_true rfl)] at found
      cases found
      rw [count_cons_self] at once
      have absent : item ∉ items := count_eq_zero.mp (by omega)
      rw [eraseIdx_cons_zero, filter_cons_of_neg (by simp), eq_comm, filter_eq_self]
      intro other member
      exact decide_eq_true fun alike => absent (alike ▸ member)
    · rw [if_neg (by simpa using same), Option.map_eq_some_iff] at found
      obtain ⟨index, found, rfl⟩ := found
      rw [count_cons_of_ne same] at once
      rw [eraseIdx_cons_succ, ih once found, filter_cons_of_pos (by simpa using same)]

theorem findIdx?_lt {items : List WorkspaceViewId} (found : items.findIdx? (· = view) = some index) :
    ∃ inside : index < items.length, items.get ⟨index, inside⟩ = view := by
  obtain ⟨inside, same, -⟩ := findIdx?_eq_some_iff_getElem.mp found
  exact ⟨inside, of_decide_eq_true same⟩

theorem active_shifts (filled : pane.Filled) (found : pane.items.findIdx? (· = view) = some index) :
    let items := pane.items.eraseIdx index
    let active := if items.length ≤ pane.active then items.length - 1 else if index < pane.active then pane.active - 1 else pane.active
    (items ≠ [] → active < items.length) ∧ (pane.activeItem ≠ some view → items[active]? = pane.activeItem) := by
  obtain ⟨inside, same⟩ := findIdx?_lt found
  have shorter : (pane.items.eraseIdx index).length = pane.items.length - 1 := length_eraseIdx_of_lt inside
  unfold DockPane.Filled at filled
  dsimp only
  constructor
  · intro some
    have length := length_pos_of_ne_nil some
    split
    · omega
    · split <;> omega
  · intro other
    have distinct : index ≠ pane.active := by
      rintro rfl
      apply other
      rw [DockPane.activeItem, getElem?_eq_getElem inside, ← same]
      rfl
    rw [getElem?_eraseIdx, shorter, DockPane.activeItem]
    by_cases before : index < pane.active
    · have shifted : (if pane.items.length - 1 ≤ pane.active then pane.items.length - 1 - 1
          else if index < pane.active then pane.active - 1 else pane.active) = pane.active - 1 := by
        split <;> omega
      rw [shifted, if_neg (by omega), Nat.sub_add_cancel (by omega)]
    · have kept : (if pane.items.length - 1 ≤ pane.active then pane.items.length - 1 - 1
          else if index < pane.active then pane.active - 1 else pane.active) = pane.active := by
        rw [if_neg (by omega), if_neg before]
      rw [kept, if_pos (by omega)]

theorem items_pane (pane : DockPane V) : (DockLayout.pane pane).items = pane.items := by
  rw [items, panes, flatMap_singleton]

theorem filter_survivor (survives : Survives view pane) : [pane].filter (fun pane => Survives view pane) = [pane] := by
  rw [filter_eq_self]
  intro other member
  rw [mem_singleton.mp member]
  exact decide_eq_true survives

theorem without_pane (filled : pane.Filled) (once : pane.items.count view ≤ 1) :
    Without view (.pane pane) ((pane.without view).1.map .pane) (pane.without view).2 := by
  have nonempty : pane.items ≠ [] := ne_nil_of_length_pos (lt_of_le_of_lt (Nat.zero_le _) filled)
  unfold DockPane.without
  cases found : pane.items.findIdx? (· = view) with
  | none =>
    have absent : view ∉ pane.items := by
      intro member
      have differs := findIdx?_eq_none_iff.mp found view member
      exact absurd rfl (of_decide_eq_false differs)
    have all : (pane.items.filter fun item => item ≠ view) = pane.items := by
      rw [filter_eq_self]
      intro item member
      exact decide_eq_true fun same => absent (same ▸ member)
    have survives : Survives view pane := by
      obtain ⟨item, member⟩ := exists_mem_of_ne_nil _ nonempty
      exact ⟨item, member, fun same => absent (same ▸ member)⟩
    refine ⟨?_, ?_, ?_, ?_, ?_⟩
    · rw [items_pane]
      exact ⟨nofun, fun member => absurd member absent⟩
    · rw [items_pane]
      refine ⟨nofun, fun only => absurd ?_ absent⟩
      rw [only]
      exact mem_cons_self
    · rintro kept ⟨⟩
      rw [items_pane, all]
    · rintro kept ⟨⟩
      change List.Forall₂ _ ([pane].filter fun pane => Survives view pane) [pane]
      rw [filter_survivor survives]
      exact .cons ⟨rfl, rfl, all.symm, filled, fun _ => rfl⟩ .nil
    · rintro kept ⟨⟩
      rfl
  | some index =>
    have rest := eraseIdx_eq_filter once found
    obtain ⟨inside, same⟩ := findIdx?_lt found
    have member : view ∈ pane.items := same ▸ get_mem _ _
    have active := active_shifts filled found
    dsimp only at active ⊢
    rw [rest] at active ⊢
    split
    · rename_i empty
      have only : pane.items = [view] := by
        have length : (pane.items.eraseIdx index).length = pane.items.length - 1 := length_eraseIdx_of_lt inside
        rw [rest, empty, length_nil] at length
        obtain ⟨item, only⟩ := length_eq_one_iff.mp (show pane.items.length = 1 by omega)
        rw [only, mem_singleton] at member
        rw [only, member]
      refine ⟨?_, ?_, nofun, nofun, nofun⟩
      · rw [items_pane]
        exact ⟨fun _ => member, fun _ => rfl⟩
      · rw [items_pane]
        exact ⟨fun _ => only, fun _ => rfl⟩
    · rename_i some
      have survives : Survives view pane := by
        obtain ⟨item, kept⟩ := exists_mem_of_ne_nil _ some
        obtain ⟨kept, other⟩ := mem_filter.mp kept
        exact ⟨item, kept, of_decide_eq_true other⟩
      refine ⟨?_, ?_, ?_, ?_, ?_⟩
      · rw [items_pane]
        exact ⟨fun _ => member, fun _ => rfl⟩
      · rw [items_pane]
        refine ⟨nofun, fun only => absurd ?_ some⟩
        rw [only]
        simp
      · rintro kept ⟨⟩
        rw [items_pane, items_pane]
      · rintro kept ⟨⟩
        change List.Forall₂ _ ([pane].filter fun pane => Survives view pane) [_]
        rw [filter_survivor survives]
        exact .cons ⟨rfl, rfl, rfl, active.1 some, active.2⟩ .nil
      · rintro kept ⟨⟩
        rfl

end Panes

section Trees

variable {view : WorkspaceViewId}

theorem items_split (axis : SplitAxis) (ratio : Float32) (first second : DockLayout V) (extensions : ExtTreeMap String V) :
    (DockLayout.split axis ratio first second extensions).items = first.items ++ second.items :=
  flatMap_append

variable {extensions : ExtTreeMap String V}

theorem Filled.first {axis : SplitAxis} {ratio : Float32} {first second : DockLayout V}
    (filled : (DockLayout.split axis ratio first second extensions).Filled) : first.Filled :=
  fun pane member => filled pane (mem_append_left _ member)

theorem Filled.second {axis : SplitAxis} {ratio : Float32} {first second : DockLayout V}
    (filled : (DockLayout.split axis ratio first second extensions).Filled) : second.Filled :=
  fun pane member => filled pane (mem_append_right _ member)

variable {layout : DockLayout V}

theorem Filled.items_ne_nil (filled : layout.Filled) : layout.items ≠ [] := by
  induction layout with
  | pane leaf =>
    rw [items_pane]
    exact ne_nil_of_length_pos (lt_of_le_of_lt (Nat.zero_le _) (filled leaf mem_cons_self))
  | split axis ratio first second extensions ihFirst ihSecond =>
    rw [items_split]
    exact append_ne_nil_of_left_ne_nil (ihFirst filled.first) _

theorem Filled.divisions_single (filled : layout.Filled) (single : layout.items = [view]) : layout.divisions = [] := by
  cases layout with
  | pane leaf => rfl
  | split axis ratio first second extensions =>
    rw [items_split] at single
    have length := congrArg length single
    have left := length_pos_of_ne_nil filled.first.items_ne_nil
    have right := length_pos_of_ne_nil filled.second.items_ne_nil
    rw [length_append, length_singleton] at length
    omega

theorem survivors_single (single : layout.items = [view]) :
    layout.panes.filter (fun pane => Survives view pane) = [] := by
  rw [filter_eq_nil_iff]
  rintro pane member survives
  obtain ⟨item, inside, other⟩ := of_decide_eq_true survives
  have all : item ∈ layout.items := mem_flatMap.mpr ⟨pane, member, inside⟩
  rw [single] at all
  exact other (mem_singleton.mp all)

theorem filter_eq_nil_iff (filled : layout.Filled) (once : layout.items.count view ≤ 1) :
    (layout.items.filter fun item => item ≠ view) = [] ↔ layout.items = [view] := by
  constructor
  · intro none
    have all : ∀ item ∈ layout.items, item = view := by
      intro item member
      have passes := List.filter_eq_nil_iff.mp none item member
      exact of_not_not fun other => passes (decide_eq_true other)
    have many := eq_replicate_of_mem all
    have length := length_pos_of_ne_nil filled.items_ne_nil
    rw [many, count_replicate_self] at once
    rw [many, show layout.items.length = 1 by omega]
    rfl
  · intro single
    rw [single]
    simp

theorem without_spec (layout : DockLayout V) (filled : layout.Filled) (once : layout.items.count view ≤ 1) :
    Without view layout (layout.without view).1 (layout.without view).2 := by
  induction layout with
  | pane leaf =>
    rw [items_pane] at once
    exact without_pane (filled leaf mem_cons_self) once
  | split axis ratio first second extensions ihFirst ihSecond =>
    rw [items_split, count_append] at once
    have onceFirst : first.items.count view ≤ 1 := by omega
    have onceSecond : second.items.count view ≤ 1 := by omega
    have left := ihFirst filled.first onceFirst
    have right := ihSecond filled.second onceSecond
    have nonempty := filled.first.items_ne_nil
    have nonempty' := filled.second.items_ne_nil
    have restFirst := filter_eq_nil_iff filled.first onceFirst
    have restSecond := filter_eq_nil_iff filled.second onceSecond
    unfold without
    generalize first.without view = taken at left
    generalize second.without view = taken' at right
    obtain ⟨next, removed⟩ := taken
    obtain ⟨next', removed'⟩ := taken'
    dsimp only at left right ⊢
    have found : (removed || removed') = true ↔ view ∈ (DockLayout.split axis ratio first second extensions).items := by
      rw [items_split, mem_append, Bool.or_eq_true, left.removed, right.removed]
    have filtered : ((DockLayout.split axis ratio first second extensions).items.filter fun item => item ≠ view) =
        (first.items.filter fun item => item ≠ view) ++ second.items.filter fun item => item ≠ view := by
      rw [items_split, filter_append]
    have survivors : ((DockLayout.split axis ratio first second extensions).panes.filter fun pane => Survives view pane) =
        (first.panes.filter fun pane => Survives view pane) ++ second.panes.filter fun pane => Survives view pane :=
      filter_append _ _
    have several : (DockLayout.split axis ratio first second extensions).items ≠ [view] := by
      intro single
      have length := congrArg length single
      have some := length_pos_of_ne_nil nonempty
      have some' := length_pos_of_ne_nil nonempty'
      rw [items_split, length_append, length_singleton] at length
      omega
    cases next with
    | none =>
      have single := left.emptied.mp rfl
      cases next' with
      | none =>
        have single' := right.emptied.mp rfl
        rw [single, single', count_singleton_self] at once
        omega
      | some kept' =>
        refine ⟨found, ⟨nofun, fun only => absurd only several⟩, ?_, ?_, ?_⟩
        · rintro kept ⟨⟩
          rw [filtered, restFirst.mpr single, right.items _ rfl, nil_append]
        · rintro kept ⟨⟩
          rw [survivors, survivors_single single, nil_append]
          exact right.panes _ rfl
        · rintro kept ⟨⟩
          rw [divisions, filled.first.divisions_single single, nil_append, filterMap_cons_none, right.divisions _ rfl]
          exact if_pos (.inl (restFirst.mpr single))
    | some kept =>
      cases next' with
      | none =>
        have single' := right.emptied.mp rfl
        refine ⟨found, ⟨nofun, fun only => absurd only several⟩, ?_, ?_, ?_⟩
        · rintro kept ⟨⟩
          rw [filtered, restSecond.mpr single', left.items _ rfl, append_nil]
        · rintro kept ⟨⟩
          rw [survivors, survivors_single single', append_nil]
          exact left.panes _ rfl
        · rintro kept ⟨⟩
          rw [divisions, filled.second.divisions_single single', append_nil, filterMap_cons_none, left.divisions _ rfl]
          exact if_pos (.inr (restSecond.mpr single'))
      | some kept' =>
        refine ⟨found, ⟨nofun, fun only => absurd only several⟩, ?_, ?_, ?_⟩
        · rintro _ ⟨⟩
          rw [items_split, filtered, left.items _ rfl, right.items _ rfl]
        · rintro _ ⟨⟩
          rw [survivors]
          exact rel_append (left.panes _ rfl) (right.panes _ rfl)
        · rintro _ ⟨⟩
          have both : ¬((first.items.filter fun item => item ≠ view) = [] ∨ (second.items.filter fun item => item ≠ view) = []) := by
            rw [restFirst, restSecond, ← left.emptied, ← right.emptied]
            rintro (gone | gone) <;> cases gone
          have parted : Division.without view ⟨axis, ratio, extensions, first.items, second.items⟩ =
              some ⟨axis, ratio, extensions, first.items.filter fun item => item ≠ view, second.items.filter fun item => item ≠ view⟩ := if_neg both
          rw [divisions, divisions, filterMap_cons_some parted, filterMap_append, left.items _ rfl, right.items _ rfl,
            left.divisions _ rfl, right.divisions _ rfl]

end Trees

end DockLayout

end Audec.Workspace

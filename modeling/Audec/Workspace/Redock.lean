import Audec.Workspace.Model

/-! A view that is floated and docked again, and what that leaves as it was. -/

open Machine Checked Entries List
open Std (ExtTreeMap ExtTreeSet)

namespace Audec.Workspace

open DockLayout

namespace DockLayout

variable {V : Type} {view : WorkspaceViewId}

theorem layoutContains_iff (layout : DockLayout V) : layout.layoutContains view = true ↔ view ∈ layout.items := by
  induction layout with
  | pane leaf => rw [items_pane, layoutContains, contains_iff_mem]
  | split axis ratio first second extensions ihFirst ihSecond =>
    rw [items_split, mem_append, layoutContains, Bool.or_eq_true, ihFirst, ihSecond]

theorem panes_addToPrimary (layout : DockLayout V) :
    ∃ leaf others, layout.panes = leaf :: others ∧ (layout.addToPrimary view).panes = leaf.add view :: others ∧
      (layout.addToPrimary view).primaryPane = leaf.paneId := by
  induction layout with
  | pane leaf => exact ⟨leaf, [], rfl, rfl, rfl⟩
  | split axis ratio first second extensions ihFirst ihSecond =>
    obtain ⟨leaf, others, panes, added, primary⟩ := ihFirst
    refine ⟨leaf, others ++ second.panes, ?_, ?_, primary⟩
    · rw [DockLayout.panes, panes, cons_append]
    · rw [addToPrimary, DockLayout.panes, added, cons_append]

end DockLayout

section Validated

variable {V : Type} {knownViews : ExtTreeMap WorkspaceViewId (WorkspaceViewDescriptor V)}

theorem placeViews_ok {items : List WorkspaceViewId} {seen after : Seen} (placed : items.foldlM (placeView knownViews) seen = .ok after) :
    items.Nodup ∧ (∀ view ∈ items, view ∉ seen.views) ∧ ∀ view, view ∈ after.views ↔ view ∈ seen.views ∨ view ∈ items := by
  induction items generalizing seen with
  | nil =>
    cases placed
    exact ⟨.nil, nofun, fun view => ⟨.inl, fun either => either.resolve_right not_mem_nil⟩⟩
  | cons item items ih =>
    rw [foldlM_cons] at placed
    obtain ⟨middle, first, rest⟩ := bind_ok.mp placed
    unfold placeView at first
    simp only [bind_unit_ok, ensure_ok] at first
    obtain ⟨-, fresh, first⟩ := first
    cases first
    obtain ⟨distinct, later, members⟩ := ih rest
    have inserted (view : WorkspaceViewId) : view ∈ seen.views.insert item ↔ item = view ∨ view ∈ seen.views := by
      rw [ExtTreeSet.mem_insert, compare_eq_iff_eq]
    refine ⟨nodup_cons.mpr ⟨fun member => later item member ((inserted item).mpr (.inl rfl)), distinct⟩, fun view member => ?_, fun view => ?_⟩
    · rcases mem_cons.mp member with rfl | member
      · exact fresh
      · exact fun before => later view member ((inserted view).mpr (.inr before))
    · rw [members view, mem_cons]
      dsimp only
      rw [inserted view, eq_comm]
      tauto

theorem validateInto_ok {layout : DockLayout V} {seen after : Seen} (valid : layout.validateInto knownViews seen = .ok after) :
    layout.Filled ∧ layout.items.Nodup ∧ (∀ view ∈ layout.items, view ∉ seen.views) ∧
      ∀ view, view ∈ after.views ↔ view ∈ seen.views ∨ view ∈ layout.items := by
  induction layout generalizing seen after with
  | pane leaf =>
    unfold validateInto at valid
    simp only [bind_unit_ok, ensure_ok] at valid
    obtain ⟨-, filled, placed⟩ := valid
    rw [items_pane]
    obtain ⟨distinct, apart, members⟩ := placeViews_ok placed
    refine ⟨fun pane member => ?_, distinct, apart, members⟩
    rw [mem_singleton.mp member]
    exact filled.2
  | split axis ratio first second extensions ihFirst ihSecond =>
    unfold validateInto at valid
    obtain ⟨-, valid⟩ := bind_unit_ok.mp valid
    obtain ⟨middle, left, right⟩ := bind_ok.mp valid
    obtain ⟨filled, distinct, apart, members⟩ := ihFirst left
    obtain ⟨filled', distinct', apart', members'⟩ := ihSecond right
    rw [items_split]
    refine ⟨fun pane member => ?_, ?_, fun view member => ?_, fun view => ?_⟩
    · rcases mem_append.mp member with member | member
      · exact filled pane member
      · exact filled' pane member
    · refine nodup_append.mpr ⟨distinct, distinct', fun view member other member' same => ?_⟩
      subst same
      exact apart' view member' ((members view).mpr (.inr member))
    · rcases mem_append.mp member with member | member
      · exact apart view member
      · exact fun before => apart' view member ((members view).mpr (.inl before))
    · rw [members', members, mem_append, or_assoc]

end Validated

namespace WorkspaceDocument

variable {V : Type} {document : WorkspaceDocument V} {view : WorkspaceViewId}

structure Placed (document : WorkspaceDocument V) : Prop where
  filled : document.mainLayout.Filled
  distinct : document.mainLayout.items.Nodup
  apart : ∀ view ∈ document.mainLayout.items, ∀ window ∈ values document.floatingWindows, view ∉ window.layout.items
  fresh : document.allocators.nextWindow ∉ document.floatingWindows

theorem windows_apart {knownViews : ExtTreeMap WorkspaceViewId (WorkspaceViewDescriptor V)}
    {windows : List (FloatingWindowDescriptor V)} {seen after : Seen}
    (valid : windows.foldlM (fun seen window => window.layout.validateInto knownViews seen) seen = .ok after) (met : view ∈ seen.views) :
    ∀ window ∈ windows, view ∉ window.layout.items := by
  induction windows generalizing seen with
  | nil => nofun
  | cons window windows ih =>
    rw [foldlM_cons] at valid
    obtain ⟨middle, first, rest⟩ := bind_ok.mp valid
    obtain ⟨-, -, apart, members⟩ := validateInto_ok first
    intro other member
    rcases mem_cons.mp member with rfl | member
    · exact fun inside => apart view inside met
    · exact ih rest ((members view).mpr (.inl met)) other member

theorem le_maximumKey {keys : List U64} {key : U64} (member : key ∈ keys) : key ≤ maximumKey keys := by
  have bound : ∀ (keys : List U64) (start : U64), start ≤ keys.foldl max start ∧ ∀ key ∈ keys, key ≤ keys.foldl max start := by
    intro keys
    induction keys with
    | nil => exact fun start => ⟨le_rfl, nofun⟩
    | cons first keys ih =>
      intro start
      obtain ⟨least, all⟩ := ih (max start first)
      refine ⟨(le_max_left _ _).trans least, fun key member => ?_⟩
      rcases mem_cons.mp member with rfl | member
      · exact (le_max_right _ _).trans least
      · exact all key member
  exact (bound keys 0).2 key member

theorem validate_placed (valid : document.validate = .ok ()) : document.Placed := by
  unfold validate at valid
  obtain ⟨-, valid⟩ := bind_unit_ok.mp valid
  obtain ⟨-, valid⟩ := bind_unit_ok.mp valid
  obtain ⟨-, valid⟩ := bind_unit_ok.mp valid
  obtain ⟨-, valid⟩ := bind_unit_ok.mp valid
  obtain ⟨-, valid⟩ := bind_unit_ok.mp valid
  obtain ⟨after, placements, valid⟩ := bind_ok.mp valid
  obtain ⟨-, allocators⟩ := bind_unit_ok.mp valid
  unfold validatePlacements at placements
  obtain ⟨seen, main, windows⟩ := bind_ok.mp placements
  obtain ⟨filled, distinct, -, members⟩ := validateInto_ok main
  refine ⟨filled, distinct, fun view inside => windows_apart windows ((members view).mpr (.inr inside)), fun taken => ?_⟩
  unfold validateAllocators at allocators
  have behind := le_maximumKey (ExtTreeMap.mem_keys.mpr taken)
  exact ensure_ok.mp allocators (.inr (.inr (.inl behind)))

theorem location_ok {place : ViewLocation} (located : document.location view = .ok place) : document.mainLayoutLocation view = place := by
  unfold location at located
  obtain ⟨-, located⟩ := bind_unit_ok.mp located
  exact Except.ok.inj located

structure Redocked (view : WorkspaceViewId) (document after : WorkspaceDocument V) : Prop where
  windows : after.floatingWindows = document.floatingWindows
  panes : ∃ first others first' others',
    (document.mainLayout.panes.filter fun pane => DockLayout.Survives view pane) = first :: others ∧ after.mainLayout.panes = first' :: others' ∧
      List.Forall₂ (DockPane.Keeps view) others others' ∧ after.mainLayout.primaryPane = first'.paneId ∧
      first'.paneId = first.paneId ∧ first'.extensions = first.extensions ∧
      first'.items = (first.items.filter fun item => item ≠ view) ++ [view] ∧ first'.activeItem = some view

def Floated (document : WorkspaceDocument V) (view : WorkspaceViewId) (floated : WorkspaceDocument V) : Prop :=
  ∃ mainLayout placement nextWindow, (document.mainLayout.without view).1 = some mainLayout ∧
    floated = openWindow { document with mainLayout } view placement nextWindow

variable {placement : Option WindowPlacement}

theorem floatView_floated {floated : WorkspaceDocument V} {window : WorkspaceWindowId}
    (docked : document.mainLayoutLocation view = .docked) (done : document.floatView view placement = .ok (floated, window)) :
    document.Floated view floated := by
  unfold floatView at done
  obtain ⟨-, done⟩ := bind_unit_ok.mp done
  obtain ⟨place, located, done⟩ := bind_ok.mp done
  obtain rfl := docked.symm.trans (location_ok located)
  dsimp only at done
  split at done
  · cases done
  · rename_i mainLayout taken
    split at done
    · cases done
    · cases done
      exact ⟨mainLayout, placement, _, taken, rfl⟩

theorem tearOffView_floated {floated : WorkspaceDocument V} {window : WorkspaceWindowId}
    (docked : document.mainLayoutLocation view = .docked) (done : document.tearOffView view placement = .ok (floated, window)) :
    document.Floated view floated := by
  unfold tearOffView at done
  obtain ⟨-, done⟩ := bind_unit_ok.mp done
  obtain ⟨next, removed, done⟩ := bind_ok.mp done
  unfold removePlacement at removed
  obtain ⟨place, located, removed⟩ := bind_ok.mp removed
  obtain rfl := docked.symm.trans (location_ok located)
  dsimp only at removed
  split at removed
  · cases removed
  · rename_i mainLayout taken
    cases removed
    split at done
    · cases done
    · obtain ⟨-, done⟩ := bind_unit_ok.mp done
      cases done
      exact ⟨mainLayout, placement, _, taken, rfl⟩

theorem layoutContains_false {layout : DockLayout V} : layout.layoutContains view = false ↔ view ∉ layout.items := by
  rw [← layoutContains_iff, Bool.not_eq_true]

theorem location_openWindow {mainLayout : DockLayout V} {placement : Option WindowPlacement} {nextWindow : U64}
    (absent : view ∉ mainLayout.items) (apart : ∀ window ∈ values document.floatingWindows, view ∉ window.layout.items) :
    (openWindow { document with mainLayout } view placement nextWindow).mainLayoutLocation view = .floating document.allocators.nextWindow := by
  have mine : (pane (V := V) ⟨floatingPaneId document.allocators.nextWindow, [view], 0, ∅⟩).layoutContains view = true := by
    rw [layoutContains_iff, items_pane]
    exact mem_cons_self
  have opened : (document.allocators.nextWindow, (⟨document.allocators.nextWindow, placement,
      .pane ⟨floatingPaneId document.allocators.nextWindow, [view], 0, ∅⟩⟩ : FloatingWindowDescriptor V)) ∈
        (openWindow { document with mainLayout } view placement nextWindow).floatingWindows.toList := by
    rw [mem_toList]
    exact ExtTreeMap.getElem?_insert_self
  have undocked : (openWindow { document with mainLayout } view placement nextWindow).mainLayout.layoutContains view = false :=
    layoutContains_false.mpr absent
  unfold mainLayoutLocation
  rw [undocked, if_neg Bool.false_ne_true]
  cases search : (openWindow { document with mainLayout } view placement nextWindow).floatingWindows.toList.findSome? fun entry =>
      if entry.2.layout.layoutContains view then some (ViewLocation.floating entry.1) else none with
  | none =>
    have missed := findSome?_eq_none_iff.mp search _ opened
    rw [if_pos mine] at missed
    cases missed
  | some place =>
    obtain ⟨entry, member, found⟩ := exists_of_findSome?_eq_some search
    split at found
    · rename_i holds
      cases found
      rw [Option.getD_some]
      have held := mem_toList.mp member
      change (document.floatingWindows.insert _ _)[entry.1]? = _ at held
      rw [lookup_insert] at held
      split at held
      · rename_i same
        rw [same]
      · exact absurd (layoutContains_iff _ |>.mp holds) (apart entry.2 (mem_values.mpr ⟨entry.1, held⟩))
    · cases found

theorem dockView_redocked {floated docked : WorkspaceDocument V} (placed : document.Placed) (there : view ∈ document.mainLayout.items)
    (moved : document.Floated view floated) (done : floated.dockView view = .ok docked) : Redocked view document docked := by
  obtain ⟨mainLayout, placement, nextWindow, taken, rfl⟩ := moved
  have once : document.mainLayout.items.count view ≤ 1 := nodup_iff_count_le_one.mp placed.distinct view
  have rest := without_spec document.mainLayout placed.filled once
  have absent : view ∉ mainLayout.items := by
    rw [rest.items _ taken, mem_filter]
    exact fun both => absurd rfl (of_decide_eq_true both.2)
  have located := @location_openWindow _ document view mainLayout placement nextWindow absent (placed.apart view there)
  unfold dockView at done
  obtain ⟨place, found, done⟩ := bind_ok.mp done
  obtain rfl := located.symm.trans (location_ok found)
  obtain ⟨next, removed, done⟩ := bind_ok.mp done
  obtain ⟨-, done⟩ := bind_unit_ok.mp done
  cases done
  unfold removePlacement at removed
  obtain ⟨place, found, removed⟩ := bind_ok.mp removed
  obtain rfl := located.symm.trans (location_ok found)
  have opened : (openWindow { document with mainLayout } view placement nextWindow).floatingWindows[document.allocators.nextWindow]? =
      some ⟨document.allocators.nextWindow, placement, .pane ⟨floatingPaneId document.allocators.nextWindow, [view], 0, ∅⟩⟩ :=
    ExtTreeMap.getElem?_insert_self
  have alone : (without view (.pane (V := V) ⟨floatingPaneId document.allocators.nextWindow, [view], 0, ∅⟩)).1 = none := by
    simp [without, DockPane.without]
  dsimp only at removed
  rw [opened] at removed
  dsimp only at removed
  rw [alone] at removed
  cases removed
  have restored : (document.floatingWindows.insert document.allocators.nextWindow
      ⟨document.allocators.nextWindow, placement, .pane ⟨floatingPaneId document.allocators.nextWindow, [view], 0, ∅⟩⟩).erase
        document.allocators.nextWindow = document.floatingWindows := by
    refine ExtTreeMap.ext_getElem? fun window => ?_
    rw [lookup_erase, lookup_insert]
    split
    · rename_i same
      rw [← same, eq_comm, ← Option.not_isSome_iff_eq_none, ← ExtTreeMap.mem_iff_isSome_getElem?]
      exact placed.fresh
    · rfl
  obtain ⟨leaf, others', panes, added, primary⟩ := @panes_addToPrimary _ view mainLayout
  have kept := rest.panes _ taken
  rw [panes] at kept
  obtain ⟨first, others, keeps, same, filtered⟩ := forall₂_cons_right_iff.mp kept
  refine ⟨restored, first, others, leaf.add view, others', filtered, added, same, primary, keeps.paneId, keeps.extensions, ?_, ?_⟩
  · rw [← keeps.items]
    rfl
  · exact getElem?_concat_length

/-- Removing a view disturbs nothing else, and docking it again only the pane that it comes to. -/
theorem removal_disturbs_nothing_else (V : Type) (view : WorkspaceViewId) :
    (∀ layout : DockLayout V, layout.Filled → layout.items.count view ≤ 1 →
      DockLayout.Without view layout (layout.without view).1 (layout.without view).2) ∧
    ∀ (document floated docked : WorkspaceDocument V) (placement : Option WindowPlacement) (window : WorkspaceWindowId),
      document.validate = .ok () → document.mainLayoutLocation view = .docked →
      (document.floatView view placement = .ok (floated, window) ∨ document.tearOffView view placement = .ok (floated, window)) →
      floated.dockView view = .ok docked → Redocked view document docked := by
  refine ⟨DockLayout.without_spec, fun document floated docked placement window valid there moved done => ?_⟩
  have inside : view ∈ document.mainLayout.items := by
    unfold mainLayoutLocation at there
    split at there
    · rename_i holds
      exact (DockLayout.layoutContains_iff _).mp holds
    · cases search : document.floatingWindows.toList.findSome? fun entry =>
          if entry.2.layout.layoutContains view then some (ViewLocation.floating entry.1) else none with
      | none =>
        rw [search] at there
        cases there
      | some place =>
        rw [search, Option.getD_some] at there
        obtain ⟨entry, -, found⟩ := List.exists_of_findSome?_eq_some search
        split at found
        · cases found
          cases there
        · cases found
  have floats : document.Floated view floated := moved.elim (floatView_floated there) (tearOffView_floated there)
  exact dockView_redocked (validate_placed valid) inside floats done

section Examples

def mixerView (id : WorkspaceViewId) : WorkspaceViewDescriptor Unit := ⟨id, .mixer, .mixer none, none, ⟨unlinked, 0⟩, .mixer⟩

def mixerDocument (mainLayout : DockLayout Unit) : WorkspaceDocument Unit :=
  ⟨2, ⟨11, 1, 1⟩, ((ExtTreeMap.empty.insert 8 (mixerView 8)).insert 9 (mixerView 9)).insert 10 (mixerView 10), mainLayout, none, ∅, ∅⟩

def mixerPane (paneId : DockPaneId) (items : List WorkspaceViewId) : DockLayout Unit := .pane ⟨paneId, items, 0, ∅⟩

/-- The view alone in its pane, beside a pane of two others. -/
def dividedDocument : WorkspaceDocument Unit := mixerDocument (.split .horizontal 0.5 (mixerPane 1 [8]) (mixerPane 2 [9, 10]) ∅)

theorem divided_placed : dividedDocument.Placed := by
  refine ⟨fun pane member => ?_, by decide, nofun, by decide⟩
  rcases mem_cons.mp member with rfl | member
  · exact Nat.zero_lt_one
  · cases mem_singleton.mp member
    exact Nat.zero_lt_two

/-- A view listed twice by a pane stays in it, and a view docked again is active in a pane that it did not share. -/
theorem doubled_stays_and_primary_moves :
    (∃ layout : DockLayout Unit, layout.Filled ∧ ¬ DockLayout.Without 8 layout (layout.without 8).1 (layout.without 8).2) ∧
    ∃ (document floated docked : WorkspaceDocument Unit) (window : WorkspaceWindowId), document.Placed ∧
      document.mainLayoutLocation 8 = .docked ∧ document.floatView 8 none = .ok (floated, window) ∧ floated.dockView 8 = .ok docked ∧
        ∃ pane ∈ document.mainLayout.panes, pane.paneId ≠ document.mainLayout.primaryPane ∧ 8 ∉ pane.items ∧
          ∃ after ∈ docked.mainLayout.panes, after.paneId = pane.paneId ∧ after.activeItem ≠ pane.activeItem := by
  constructor
  · refine ⟨mixerPane 1 [8, 8], fun pane member => ?_, fun without => ?_⟩
    · cases List.mem_singleton.mp member
      exact Nat.zero_lt_two
    · exact absurd (without.items _ rfl) (by decide)
  · refine ⟨dividedDocument, _, _, _, divided_placed, rfl, rfl, rfl, ⟨2, [9, 10], 0, ∅⟩, List.mem_cons_of_mem _ List.mem_cons_self, by decide, by decide,
      _, List.mem_cons_self, rfl, by decide⟩

/-- A tab beside two others is floated and docked. -/
theorem tab_redocked : DockLayout.Without 8 (mixerPane 1 [8, 9, 10]) ((mixerPane 1 [8, 9, 10]).without 8).1 ((mixerPane 1 [8, 9, 10]).without 8).2 ∧
    ∃ docked, Redocked 8 (mixerDocument (mixerPane 1 [8, 9, 10])) docked :=
  ⟨(removal_disturbs_nothing_else Unit 8).1 _ (fun pane member => by
      cases List.mem_singleton.mp member
      exact Nat.zero_lt_succ _) (by decide),
    _, (removal_disturbs_nothing_else Unit 8).2 (mixerDocument (mixerPane 1 [8, 9, 10])) _ _ none 1 rfl rfl (.inl rfl) rfl⟩

end Examples

end WorkspaceDocument

end Audec.Workspace

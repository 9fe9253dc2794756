import Audec.Automation.Content
import Audec.Automation.Editing

/-! Points are inserted, removed and pasted: the lane stays canonical, and the points an edit is not about stay. -/

open Machine Checked SortedSlice List
open Std (ExtTreeMap)

namespace Audec.Automation

variable {timeDomain : TimeDomain} {points kept below above : List AutomationPoint} {point : AutomationPoint}

theorem Canonical.sublist (canonical : Canonical timeDomain points) (sublist : kept.Sublist points) : Canonical timeDomain kept where
  domain other inside := canonical.domain other (sublist.subset inside)
  finite other inside := canonical.finite other (sublist.subset inside)
  shaped other inside := canonical.shaped other (sublist.subset inside)
  sorted := canonical.sorted.sublist sublist
  distinct := canonical.distinct.sublist (sublist.map _)

theorem Canonical.placed (others : Canonical timeDomain (below ++ above)) (domain : point.position.domain = timeDomain)
    (finite : point.value.isFinite = true) (shaped : point.outgoing.isFinite = true)
    (sorted : (below ++ point :: above).Pairwise fun point later => point.coordinate < later.coordinate)
    (fresh : ∀ other ∈ below ++ above, other.id ≠ point.id) : Canonical timeDomain (below ++ point :: above) := by
  have perm : (below ++ point :: above).Perm (point :: (below ++ above)) := perm_middle
  have every {holds : AutomationPoint → Prop} (first : holds point) (rest : ∀ other ∈ below ++ above, holds other) :
      ∀ other ∈ below ++ point :: above, holds other :=
    fun other inside => forall_mem_cons.mpr ⟨first, rest⟩ other (perm.mem_iff.mp inside)
  refine ⟨every domain others.domain, every finite others.finite, every shaped others.shaped, sorted, ?_⟩
  rw [(perm.map _).nodup_iff, map_cons, nodup_cons]
  refine ⟨fun member => ?_, others.distinct⟩
  obtain ⟨other, inside, same⟩ := mem_map.mp member
  exact fresh other inside same

theorem mem_placed (within : ∀ other ∈ below ++ above, other ∈ points) (apart : ∀ other ∈ below ++ above, other.coordinate ≠ point.coordinate)
    (covers : ∀ other ∈ points, other ∈ below ++ above ∨ other.coordinate = point.coordinate) (other : AutomationPoint) :
    other ∈ below ++ point :: above ↔ other = point ∨ other ∈ points ∧ other.coordinate ≠ point.coordinate := by
  rw [perm_middle.mem_iff, mem_cons]
  refine or_congr_right ⟨fun inside => ⟨within other inside, apart other inside⟩, fun both => ?_⟩
  exact (covers other both.1).resolve_right both.2

namespace AutomationLane

variable {lane edited : AutomationLane} {id : AutomationPointId} {scale : ValueScale} {position : TimePosition}

structure Edited (lane edited : AutomationLane) : Prop where
  only : edited = { lane with points := edited.points }
  canonical : Canonical lane.timeDomain edited.points

theorem checkInsert_ok : lane.checkInsert point = .ok () ↔ point.position.domain = lane.timeDomain ∧ point.value.isFinite = true ∧
    point.outgoing.isFinite = true ∧ ∀ existing ∈ lane.points, existing.id ≠ point.id := by
  simp only [checkInsert, SegmentShape.validate, bind_unit_ok, ensure_ok]

def Inserted (lane : AutomationLane) (point : AutomationPoint) (edited : AutomationLane) : Prop :=
  ∀ other, other ∈ edited.points ↔ other = point ∨ other ∈ lane.points ∧ other.coordinate ≠ point.coordinate

inductive InsertOutcome (lane : AutomationLane) (point : AutomationPoint) :
    Except AutomationError (Option AutomationPoint) × AutomationLane → Prop where
  | refused {error : AutomationError} (refused : lane.checkInsert point = .error error) : InsertOutcome lane point (.error error, lane)
  | done {old : Option AutomationPoint} {edited : AutomationLane} (checked : lane.checkInsert point = .ok ()) (only : Edited lane edited)
      (inserted : Inserted lane point edited) : InsertOutcome lane point (.ok old, edited)

theorem insertPoint_outcome (canonical : Canonical lane.timeDomain lane.points) (point : AutomationPoint) :
    InsertOutcome lane point (lane.insertPoint point) := by
  unfold insertPoint
  cases checked : lane.checkInsert point with
  | error error => exact .refused checked
  | ok _ =>
    obtain ⟨domain, finite, shaped, fresh⟩ := checkInsert_ok.mp checked
    have sorted := canonical.sorted
    dsimp only
    cases search : binarySearchByKey lane.points point.coordinate AutomationPoint.coordinate with
    | ok index =>
      obtain ⟨below, value, above, split, length, same⟩ := found search
      have placed : (lane.points.modify index fun _ => point) = below ++ point :: above := by
        rw [split, ← length, modify_found]
      rw [split] at sorted
      obtain ⟨-, after, between⟩ := pairwise_append.mp sorted
      have rest : (below ++ above).Sublist lane.points := by
        rw [split]
        exact (List.Sublist.refl below).append (sublist_cons_self value above)
      have apart : ∀ other ∈ below ++ above, other.coordinate ≠ point.coordinate := by
        intro other inside
        rw [← same]
        rcases mem_append.mp inside with inside | inside
        · exact (between other inside value mem_cons_self).ne
        · exact (rel_of_pairwise_cons after inside).ne'
      dsimp only
      rw [placed]
      refine .done checked ⟨rfl, ?_⟩ (mem_placed (fun other inside => rest.subset inside) apart fun other inside => ?_)
      · exact (canonical.sublist rest).placed domain finite shaped (replace_sorted same.symm sorted) fun other inside => fresh other (rest.subset inside)
      · rw [split, perm_middle.mem_iff, mem_cons] at inside
        rcases inside with rfl | inside
        · exact .inr same
        · exact .inl inside
    | error index =>
      obtain ⟨below, above, split, length, smaller, larger⟩ := missing sorted search
      have placed : lane.points.insertIdx index point = below ++ point :: above := by
        rw [split, ← length, insert_missing]
      rw [split] at sorted
      dsimp only
      rw [placed]
      refine .done checked ⟨rfl, ?_⟩ (mem_placed (fun other inside => split ▸ inside) (fun other inside => ?_) fun other inside => .inl (split ▸ inside))
      · exact (split ▸ canonical).placed domain finite shaped (insert_sorted sorted smaller larger) fun other inside => fresh other (split ▸ inside)
      · rcases mem_append.mp inside with inside | inside
        · exact (smaller other inside).ne
        · exact (larger other inside).ne'

theorem removePoint_edited (canonical : Canonical lane.timeDomain lane.points) (id : AutomationPointId) :
    Edited lane (lane.removePoint id).2 ∧ ∀ other, other ∈ (lane.removePoint id).2.points ↔ other ∈ lane.points ∧ other.id ≠ id := by
  unfold removePoint
  cases search : lane.points.findIdx? fun point => point.id = id with
  | none =>
    rw [findIdx?_eq_none_iff] at search
    refine ⟨⟨rfl, canonical⟩, fun other => ⟨fun inside => ⟨inside, ?_⟩, And.left⟩⟩
    have absent := search other inside
    rwa [decide_eq_false_iff_not] at absent
  | some index =>
    obtain ⟨bound, named, -⟩ := findIdx?_eq_some_iff_getElem.mp search
    rw [decide_eq_true_eq] at named
    refine ⟨⟨rfl, canonical.sublist (eraseIdx_sublist lane.points index)⟩, fun other => ?_⟩
    have split : lane.points = lane.points.take index ++ lane.points[index] :: lane.points.drop (index + 1) := by
      rw [getElem_cons_drop, take_append_drop]
    have distinct := canonical.distinct
    rw [split, (perm_middle.map _).nodup_iff, map_cons, nodup_cons] at distinct
    change other ∈ lane.points.eraseIdx index ↔ _
    rw [eraseIdx_eq_take_drop_succ]
    constructor
    · intro inside
      refine ⟨?_, fun same => distinct.1 ?_⟩
      · rw [split, perm_middle.mem_iff]
        exact mem_cons_of_mem _ inside
      · rw [named, ← same]
        exact mem_map_of_mem inside
    · rintro ⟨inside, differs⟩
      rw [split, perm_middle.mem_iff, mem_cons] at inside
      rcases inside with rfl | inside
      · exact absurd named differs
      · exact inside

end AutomationLane

theorem allocateId_ok {next : U64} {allocated : U64 × U64} : allocateId next = .ok allocated ↔
    (next ≠ 0 ∧ next ≠ 0xffffffffffffffff) ∧ allocated = (next, next + 1) := by
  unfold allocateId
  by_cases exhausted : next = 0 ∨ next = 0xffffffffffffffff
  · rw [if_pos exhausted]
    exact ⟨nofun, fun both => absurd exhausted (not_or.mpr both.1)⟩
  · rw [if_neg exhausted]
    exact ⟨fun same => ⟨not_or.mp exhausted, (Except.ok.inj same).symm⟩, fun both => both.2 ▸ rfl⟩

theorem allocated_val {next : U64} (last : next ≠ 0xffffffffffffffff) : (next + 1).val = next.val + 1 := by
  have bound := next.isLt
  have differs : next.val ≠ 0xffffffffffffffff := fun same => last (Fin.ext same)
  rw [Fin.val_add]
  exact Nat.mod_eq_of_lt (by change next.val + 1 < _; omega)

theorem checkedCoordinate_ok {x : Int} {coordinate : I64} : checkedCoordinate x = .ok coordinate ↔ coordinate.val = x := by
  unfold checkedCoordinate
  split
  · constructor
    · intro same
      cases same
      rfl
    · rintro rfl
      rfl
  · rename_i overflow
    constructor
    · intro same
      cases same
    · rintro rfl
      exact absurd ⟨coordinate.lower, coordinate.upper⟩ overflow

theorem inRange_congr {range : I64 × I64} {point other : AutomationPoint} (same : point.coordinate = other.coordinate) :
    inRange range point = inRange range other := by
  unfold inRange
  rw [same]

namespace AutomationLane

variable {lane middle edited : AutomationLane} {clipboard : AutomationClipboard} {scale : ValueScale} {position : TimePosition}

theorem Edited.timeDomain_eq (only : Edited lane edited) : edited.timeDomain = lane.timeDomain := by
  rw [only.only]

theorem Edited.trans (first : Edited lane middle) (second : Edited middle edited) : Edited lane edited := by
  have same : ({ middle with points := edited.points } : AutomationLane) = { lane with points := edited.points } := by
    rw [first.only]
  exact ⟨second.only.trans same, first.timeDomain_eq ▸ second.canonical⟩

structure Pasting (lane : AutomationLane) (range : I64 × I64) (position : TimePosition) (clipboard : AutomationClipboard)
    (scale : ValueScale) (first : U64) (state : AutomationLane × U64) : Prop where
  only : Edited lane state.1
  grows : first ≤ state.2
  below : ∀ point ∈ state.1.points, point.id < state.2
  outside : ∀ point, inRange range point = false → (point ∈ state.1.points ↔ point ∈ lane.points)
  inside : ∀ point ∈ state.1.points, inRange range point = true → first ≤ point.id ∧ ∃ source ∈ clipboard.points,
    point.coordinate.val = position.coordinate.val + source.offset.val ∧
      point.value = mulAdd source.value scale.factor scale.offset ∧ point.outgoing = source.outgoing

theorem pastePoint_pasting {stop : I64} {first : U64} {state after : AutomationLane × U64} {source : ClipboardPoint}
    (reaches : stop.val = position.coordinate.val + clipboard.duration.val) (valid : clipboard.validPoint source = true)
    (member : source ∈ clipboard.points) (before : Pasting lane (position.coordinate, stop) position clipboard scale first state)
    (done : pastePoint position scale state source = .ok after) :
    Pasting lane (position.coordinate, stop) position clipboard scale first after := by
  unfold pastePoint at done
  obtain ⟨coordinate, fits, done⟩ := bind_ok.mp done
  obtain ⟨allocated, fresh, done⟩ := bind_ok.mp done
  obtain ⟨⟨-, last⟩, rfl⟩ := allocateId_ok.mp fresh
  have place := checkedCoordinate_ok.mp fits
  dsimp only at done
  have outcome := insertPoint_outcome (before.only.timeDomain_eq.symm ▸ before.only.canonical)
    ⟨state.2, position.withCoordinate coordinate, mulAdd source.value scale.factor scale.offset, source.outgoing⟩
  generalize state.1.insertPoint _ = inserted at done outcome
  cases outcome with
  | refused refused =>
    obtain ⟨_, impossible, -⟩ := bind_ok.mp done
    cases impossible
  | @done old edited checked only inserted =>
    obtain ⟨_, -, same⟩ := bind_ok.mp done
    cases same
    have next := allocated_val last
    simp only [AutomationClipboard.validPoint, Bool.and_eq_true, decide_eq_true_eq] at valid
    obtain ⟨⟨⟨begins, ends⟩, -⟩, -⟩ := valid
    rw [I64.le_iff] at ends
    have pastes : inRange (position.coordinate, stop)
        ⟨state.2, position.withCoordinate coordinate, mulAdd source.value scale.factor scale.offset, source.outgoing⟩ = true := by
      unfold inRange AutomationPoint.coordinate
      rw [decide_eq_true_eq, TimePosition.coordinate_withCoordinate, I64.le_iff, I64.le_iff]
      dsimp only
      omega
    refine ⟨before.only.trans only, ?_, ?_, ?_, ?_⟩
    · change first.val ≤ (state.2 + 1).val
      rw [next]
      exact Nat.le_succ_of_le before.grows
    · intro other there
      rw [Fin.lt_def, next]
      rcases (inserted other).mp there with rfl | ⟨old, -⟩
      · exact Nat.lt_succ_self _
      · have earlier := before.below other old
        rw [Fin.lt_def] at earlier
        omega
    · intro other away
      rw [← before.outside other away, inserted]
      constructor
      · rintro (rfl | ⟨old, -⟩)
        · rw [pastes] at away
          cases away
        · exact old
      · refine fun old => .inr ⟨old, fun same => ?_⟩
        rw [inRange_congr same, pastes] at away
        cases away
    · intro other there near
      rcases (inserted other).mp there with rfl | ⟨old, -⟩
      · refine ⟨before.grows, source, member, ?_, rfl, rfl⟩
        rw [AutomationPoint.coordinate, TimePosition.coordinate_withCoordinate, place]
      · exact before.inside other old near

theorem pasted_pasting {first : U64} {state : AutomationLane × U64} (canonical : Canonical lane.timeDomain lane.points)
    (below : ∀ point ∈ lane.points, point.id < first) (done : lane.pasted position clipboard scale first = .ok state) :
    ∃ stop : I64, stop.val = position.coordinate.val + clipboard.duration.val ∧
      Pasting lane (position.coordinate, stop) position clipboard scale first state := by
  unfold pasted at done
  rw [bind_unit_ok, ensure_ok, bind_unit_ok, ensure_ok, bind_unit_ok] at done
  obtain ⟨-, valid, -, done⟩ := done
  obtain ⟨stop, fits, done⟩ := bind_ok.mp done
  have reaches := checkedCoordinate_ok.mp fits
  unfold AutomationClipboard.isValid at valid
  rw [Bool.and_eq_true, all_eq_true] at valid
  refine ⟨stop, reaches, foldlM_keeps _ (fun before source after member held step => ?_) ?_ done⟩
  · exact pastePoint_pasting reaches (valid.2 source member) member held step
  · have kept : (lane.points.filter fun point => !inRange (position.coordinate, stop) point).Sublist lane.points := filter_sublist
    refine ⟨⟨rfl, canonical.sublist kept⟩, le_rfl, fun point inside => below point (kept.subset inside), ?_, ?_⟩
    · intro point away
      rw [mem_filter, away]
      exact and_iff_left rfl
    · intro point inside near
      rw [mem_filter, near] at inside
      exact absurd inside.2 Bool.false_ne_true

end AutomationLane

end Audec.Automation

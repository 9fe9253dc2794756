import Audec.Automation.Scaling

/-! Every edit of a lane of a graph: when it keeps the lane canonical, and leaves everything when it fails. -/

open Machine Checked List
open Std (ExtTreeMap)

namespace Audec.Automation

theorem clamp_finite {value minimum maximum : Float} (value' : value.isFinite = true) (minimum' : minimum.isFinite = true)
    (maximum' : maximum.isFinite = true) : (clamp value minimum maximum).isFinite = true := by
  unfold clamp
  dsimp only
  split_ifs
  · exact maximum'
  · exact minimum'
  · exact maximum'
  · exact value'

theorem ParameterDescriptor.constrain_finite {descriptor : ParameterDescriptor} (valid : descriptor.validate = .ok ())
    (unstepped : ∀ values, descriptor.mapping ≠ .stepped values) (value : Float) : (descriptor.constrain value).isFinite = true := by
  obtain ⟨minimum, maximum, default', -, -, -⟩ := validRange_iff.mp (validate_ok.mp valid).2.1
  have plain : (if value.isFinite then clamp value descriptor.minimum descriptor.maximum else descriptor.default).isFinite = true := by
    split
    · rename_i finite
      exact clamp_finite finite minimum maximum
    · exact default'
  unfold constrain
  dsimp only
  split
  · rename_i values stepped
    exact absurd stepped (unstepped values)
  · exact plain

namespace AutomationLane

variable {lane : AutomationLane} {range : I64 × I64} {scale : ValueScale} {descriptor : ParameterDescriptor}

theorem scaleValue_only (range : I64 × I64) (scale : ValueScale) (descriptor : ParameterDescriptor) (point : AutomationPoint) :
    scaleValue range scale descriptor point = { point with value := (scaleValue range scale descriptor point).value } ∧
      (inRange range point = false → scaleValue range scale descriptor point = point) := by
  unfold scaleValue
  split
  · rename_i selected
    exact ⟨rfl, fun unselected => absurd (selected.symm.trans unselected) Bool.false_ne_true.symm⟩
  · exact ⟨rfl, fun _ => rfl⟩

theorem scaleValues_canonical_iff (canonical : Canonical lane.timeDomain lane.points) :
    Canonical lane.timeDomain (lane.points.map (scaleValue range scale descriptor)) ↔ ∀ point ∈ lane.points,
      inRange range point = true → (descriptor.constrain (mulAdd point.value scale.factor scale.offset)).isFinite = true := by
  have kept (point : AutomationPoint) := (scaleValue_only range scale descriptor point).1
  have coordinates (point : AutomationPoint) : (scaleValue range scale descriptor point).coordinate = point.coordinate := by
    rw [kept]
    rfl
  constructor
  · intro scaled point inside selected
    have finite := scaled.finite _ (mem_map_of_mem inside)
    unfold scaleValue at finite
    rwa [if_pos selected] at finite
  · intro finite
    refine ⟨?_, ?_, ?_, ?_, ?_⟩
    · intro scaled inside
      obtain ⟨point, origin, rfl⟩ := mem_map.mp inside
      rw [kept]
      exact canonical.domain point origin
    · intro scaled inside
      obtain ⟨point, origin, rfl⟩ := mem_map.mp inside
      unfold scaleValue
      split
      · rename_i selected
        exact finite point origin selected
      · exact canonical.finite point origin
    · intro scaled inside
      obtain ⟨point, origin, rfl⟩ := mem_map.mp inside
      rw [kept]
      exact canonical.shaped point origin
    · refine pairwise_map.mpr (canonical.sorted.imp fun {point later} before => ?_)
      rw [coordinates, coordinates]
      exact before
    · rw [map_map]
      have same : AutomationPoint.id ∘ scaleValue range scale descriptor = AutomationPoint.id := by
        funext point
        rw [Function.comp_apply, kept]
      rw [same]
      exact canonical.distinct

theorem map_fst_zip_sublist {α β : Type} (xs : List α) (ys : List β) : ((xs.zip ys).map Prod.fst).Sublist xs := by
  induction xs generalizing ys with
  | nil => exact List.Sublist.slnil
  | cons x xs tail =>
    cases ys with
    | nil => exact nil_sublist _
    | cons y ys => exact (tail ys).cons_cons x

theorem simplified_sublist (points : List AutomationPoint) (tolerance : Float) : (simplified points tolerance).Sublist points :=
  (filter_sublist.map Prod.fst).trans (map_fst_zip_sublist points _)

end AutomationLane

inductive Edit where
  | insertPoint (position : TimePosition) (value : Float) (outgoing : SegmentShape)
  | insertLanePoint (point : AutomationPoint)
  | removePoint (id : AutomationPointId)
  | pasteIntoLane (position : TimePosition) (clipboard : AutomationClipboard) (scale : ValueScale)
  | scaleTime (start stop origin : TimePosition) (scale : RationalScale)
  | scaleValues (start stop : TimePosition) (scale : ValueScale)
  | simplify (tolerance : Float)

namespace AutomationGraph

open AutomationLane

variable {graph : AutomationGraph} {id : AutomationLaneId} {lane : AutomationLane} {descriptor : ParameterDescriptor}

structure Holds (graph : AutomationGraph) (id : AutomationLaneId) (lane : AutomationLane) (descriptor : ParameterDescriptor) : Prop where
  held : graph.lanes[id]? = some lane
  registered : graph.descriptors[lane.target]? = some descriptor
  sound : descriptor.validate = .ok ()
  valid : lane.validate descriptor = .ok ()
  covered : ∀ (other : AutomationLaneId) (lane : AutomationLane), graph.lanes[other]? = some lane →
    ∀ point ∈ lane.points, point.id < graph.nextPointId

def Keeps (graph : AutomationGraph) (id : AutomationLaneId) (lane : AutomationLane) (descriptor : ParameterDescriptor) : Edit → Prop
  | .insertPoint position value outgoing =>
    match graph.insertPoint id position value outgoing with
    | (.error _, after) => after = graph
    | (.ok point, after) => ∃ edited,
        after = { graph with lanes := graph.lanes.insert id edited, nextPointId := after.nextPointId } ∧
          Edited lane edited ∧ Inserted lane ⟨point, position, value, outgoing⟩ edited
  | .insertLanePoint point =>
    match lane.insertPoint point with
    | (.error _, after) => after = lane
    | (.ok _, edited) => Edited lane edited ∧ Inserted lane point edited
  | .removePoint point => Edited lane (lane.removePoint point).2 ∧
      ∀ other, other ∈ (lane.removePoint point).2.points ↔ other ∈ lane.points ∧ other.id ≠ point
  | .pasteIntoLane position clipboard scale =>
    match graph.pasteIntoLane id position clipboard scale with
    | (.error _, after) => after = graph
    | (.ok _, after) => ∃ edited, ∃ stop : I64,
        after = { graph with lanes := graph.lanes.insert id edited, nextPointId := after.nextPointId } ∧
          stop.val = position.coordinate.val + clipboard.duration.val ∧
          Pasting lane (position.coordinate, stop) position clipboard scale graph.nextPointId (edited, after.nextPointId)
  | .scaleTime start stop origin scale =>
    match lane.scaleTime start stop origin scale with
    | (.error _, after) => after = lane
    | (.ok _, edited) => Edited lane edited ∧ ∃ moved, edited.points.Perm moved ∧
        List.Forall₂ (Moved (orderedPair start.coordinate stop.coordinate) origin.coordinate scale) lane.points moved
  | .scaleValues start stop scale =>
    match lane.scaleValues start stop scale descriptor with
    | (.error _, after) => after = lane
    | (.ok _, edited) => Edited lane edited ∧ List.Forall₂ (fun point scaled => scaled = { point with value := scaled.value } ∧
        (inRange (orderedPair start.coordinate stop.coordinate) point = false → scaled = point)) lane.points edited.points
  | .simplify tolerance =>
    match lane.simplify tolerance with
    | (.error _, after) => after = lane
    | (.ok removed, edited) => Edited lane edited ∧ edited.points.Sublist lane.points ∧
        edited.points.length + removed = lane.points.length

/-- An identity is not allocated for a point that is then refused, and no selected value is stepped to one that is not finite. -/
def Careful (graph : AutomationGraph) (lane : AutomationLane) (descriptor : ParameterDescriptor) : Edit → Prop
  | .insertPoint position value outgoing => (graph.nextPointId = 0 ∨ graph.nextPointId = 0xffffffffffffffff) ∨
      position.domain = lane.timeDomain ∧ value.isFinite = true ∧ outgoing.isFinite = true
  | .scaleValues start stop scale =>
      ¬ ((start.domain = lane.timeDomain ∧ stop.domain = lane.timeDomain) ∧ scale.factor.isFinite = true ∧ scale.offset.isFinite = true) ∨
        (∀ values, descriptor.mapping ≠ .stepped values) ∨ ∀ point ∈ lane.points,
          inRange (orderedPair start.coordinate stop.coordinate) point = true →
            (descriptor.constrain (mulAdd point.value scale.factor scale.offset)).isFinite = true
  | _ => True

section

variable (holds : graph.Holds id lane descriptor)
include holds

theorem insertPoint_keeps_iff {position : TimePosition} {value : Float} {outgoing : SegmentShape} :
    graph.Keeps id lane descriptor (.insertPoint position value outgoing) ↔
      graph.Careful lane descriptor (.insertPoint position value outgoing) := by
  have canonical := (AutomationLane.validate_ok.mp holds.valid).2.2
  unfold Keeps Careful insertPoint allocatePointId allocateId
  dsimp only
  by_cases exhausted : graph.nextPointId = 0 ∨ graph.nextPointId = 0xffffffffffffffff
  · rw [if_pos exhausted]
    exact ⟨fun _ => .inl exhausted, fun _ => rfl⟩
  · rw [if_neg exhausted]
    dsimp only
    rw [holds.held]
    dsimp only
    have outcome := insertPoint_outcome canonical ⟨graph.nextPointId, position, value, outgoing⟩
    have fresh : ∀ existing ∈ lane.points, existing.id ≠ graph.nextPointId :=
      fun existing inside => (holds.covered id lane holds.held existing inside).ne
    generalize lane.insertPoint ⟨graph.nextPointId, position, value, outgoing⟩ = inserted at outcome ⊢
    cases outcome with
    | refused refused =>
      constructor
      · intro same
        -- the identity is gone although the point was refused
        have allocated : graph.nextPointId + 1 = graph.nextPointId := congrArg AutomationGraph.nextPointId same
        have next := allocated_val (not_or.mp exhausted).2
        rw [allocated] at next
        exact absurd next (Nat.succ_ne_self _).symm
      · rintro (stopped | ⟨domain, finite, shaped⟩)
        · exact absurd stopped exhausted
        · have passes : lane.checkInsert ⟨graph.nextPointId, position, value, outgoing⟩ = .ok () :=
            checkInsert_ok.mpr ⟨domain, finite, shaped, fresh⟩
          rw [passes] at refused
          cases refused
    | done checked only inserted =>
      obtain ⟨domain, finite, shaped, -⟩ := checkInsert_ok.mp checked
      exact ⟨fun _ => .inr ⟨domain, finite, shaped⟩, fun _ => ⟨_, rfl, only, inserted⟩⟩

theorem pasteIntoLane_keeps (position : TimePosition) (clipboard : AutomationClipboard)
    (scale : ValueScale) : graph.Keeps id lane descriptor (.pasteIntoLane position clipboard scale) := by
  have canonical := (AutomationLane.validate_ok.mp holds.valid).2.2
  unfold Keeps pasteIntoLane paste
  dsimp only
  rw [holds.held]
  dsimp only
  cases done : lane.pasted position clipboard scale graph.nextPointId with
  | error error => rfl
  | ok state =>
    obtain ⟨stop, reaches, pasting⟩ := pasted_pasting canonical (holds.covered id lane holds.held) done
    have same : ({ lane with points := state.1.points } : AutomationLane) = state.1 := pasting.only.only.symm
    dsimp only
    rw [same]
    cases graph.validateLane state.1 with
    | error error => rfl
    | ok _ => exact ⟨state.1, stop, rfl, reaches, pasting⟩

theorem scaleValues_keeps_iff {start stop : TimePosition} {scale : ValueScale} :
    graph.Keeps id lane descriptor (.scaleValues start stop scale) ↔ graph.Careful lane descriptor (.scaleValues start stop scale) := by
  have canonical := (AutomationLane.validate_ok.mp holds.valid).2.2
  have checks : lane.checkScaleValues start stop scale = .ok () ↔
      (start.domain = lane.timeDomain ∧ stop.domain = lane.timeDomain) ∧ scale.factor.isFinite = true ∧ scale.offset.isFinite = true := by
    simp only [checkScaleValues, ValueScale.validate, bind_unit_ok, ensure_ok]
  unfold Keeps Careful scaleValues
  dsimp only
  rw [← checks]
  cases checked : lane.checkScaleValues start stop scale with
  | error error =>
    refine ⟨fun _ => .inl fun passes => ?_, fun _ => rfl⟩
    cases passes
  | ok _ =>
    have finite := @scaleValues_canonical_iff lane (orderedPair start.coordinate stop.coordinate) scale descriptor canonical
    have pairs : List.Forall₂ (fun point scaled => scaled = { point with value := scaled.value } ∧
        (inRange (orderedPair start.coordinate stop.coordinate) point = false → scaled = point)) lane.points
        (lane.points.map (scaleValue (orderedPair start.coordinate stop.coordinate) scale descriptor)) := by
      rw [forall₂_map_right_iff, forall₂_same]
      exact fun point _ => scaleValue_only _ scale descriptor point
    dsimp only
    constructor
    · rintro ⟨only, -⟩
      exact .inr (.inr (finite.mp only.canonical))
    · rintro (refused | unstepped | stays)
      · exact absurd rfl refused
      · exact ⟨⟨rfl, finite.mpr fun point _ _ => ParameterDescriptor.constrain_finite holds.sound unstepped _⟩, pairs⟩
      · exact ⟨⟨rfl, finite.mpr stays⟩, pairs⟩

end

/-- For every valid lane of a graph whose allocator is past its points, and every edit. -/
theorem edits_keep_iff (holds : graph.Holds id lane descriptor) (edit : Edit) :
    graph.Keeps id lane descriptor edit ↔ graph.Careful lane descriptor edit := by
  have canonical := (AutomationLane.validate_ok.mp holds.valid).2.2
  cases edit with
  | insertPoint position value outgoing => exact insertPoint_keeps_iff holds
  | scaleValues start stop scale => exact scaleValues_keeps_iff holds
  | pasteIntoLane position clipboard scale => exact iff_of_true (pasteIntoLane_keeps holds position clipboard scale) trivial
  | removePoint point => exact iff_of_true (removePoint_edited canonical point) trivial
  | insertLanePoint point =>
    refine iff_of_true ?_ trivial
    have outcome := insertPoint_outcome canonical point
    unfold Keeps
    dsimp only
    generalize lane.insertPoint point = inserted at outcome ⊢
    cases outcome with
    | refused refused => rfl
    | done checked only inserted => exact ⟨only, inserted⟩
  | scaleTime start stop origin scale =>
    refine iff_of_true ?_ trivial
    unfold Keeps scaleTime
    dsimp only
    cases done : lane.scaledTime start stop origin scale with
    | error error => rfl
    | ok points =>
      obtain ⟨canonical', moved⟩ := scaledTime_canonical canonical done
      exact ⟨⟨rfl, canonical'⟩, moved⟩
  | simplify tolerance =>
    refine iff_of_true ?_ trivial
    unfold Keeps simplify
    dsimp only
    split_ifs
    · exact ⟨⟨rfl, canonical⟩, List.Sublist.refl _, rfl⟩
    · have thinned := simplified_sublist lane.points tolerance
      exact ⟨⟨rfl, canonical.sublist thinned⟩, thinned, Nat.add_sub_of_le thinned.length_le⟩
    · rfl

def fader : ParameterDescriptor := ⟨.mixer (.busGain 7), "Gain", .decibels, -60.0, 12.0, 0.0, .linear, .linearFrames 32⟩

def fade : AutomationLane :=
  { AutomationLane.new 1 "Gain" (.mixer (.busGain 7)) .frames with
    points := [⟨1, .frames (I64.wrap 0), -60.0, .linear⟩, ⟨2, .frames (I64.wrap 10), 0.0, .linear⟩] }

def faded : AutomationGraph :=
  { AutomationGraph.new with
    descriptors := (∅ : ExtTreeMap ParameterAddress ParameterDescriptor).insert (.mixer (.busGain 7)) fader
    lanes := (∅ : ExtTreeMap AutomationLaneId AutomationLane).insert 1 fade
    nextLaneId := 2
    nextPointId := 3 }

theorem faded_holds : faded.Holds 1 fade fader where
  held := ExtTreeMap.getElem?_insert_self
  registered := ExtTreeMap.getElem?_insert_self
  sound := by decide +kernel
  valid := by decide +kernel
  covered other lane held point inside := by
    rw [faded, ExtTreeMap.getElem?_insert] at held
    split at held
    · cases held
      have below : ∀ point ∈ fade.points, point.id < faded.nextPointId := by decide +kernel
      exact below point inside
    · rw [ExtTreeMap.getElem?_empty] at held
      cases held

theorem fade_bent : faded.Keeps 1 fade fader (.insertPoint (.frames (I64.wrap 5)) (-6.0) .linear) :=
  (edits_keep_iff faded_holds _).mpr (.inr ⟨rfl, by decide +kernel, rfl⟩)

/-- A position in beats is refused on a lane in frames, after its identity has been allocated. -/
theorem identity_lost : faded.Holds 1 fade fader ∧
    (faded.insertPoint 1 (.beats (I64.wrap 5)) (-6.0) .linear).1 = .error .timeDomainMismatch ∧
    faded.nextPointId = 3 ∧ (faded.insertPoint 1 (.beats (I64.wrap 5)) (-6.0) .linear).2.nextPointId = 4 ∧
    ¬ faded.Keeps 1 fade fader (.insertPoint (.beats (I64.wrap 5)) (-6.0) .linear) := by
  have advanced : (faded.insertPoint 1 (.beats (I64.wrap 5)) (-6.0) .linear).2.nextPointId = 4 := by decide +kernel
  refine ⟨faded_holds, by decide +kernel, rfl, advanced, fun kept => ?_⟩
  have same : (faded.insertPoint 1 (.beats (I64.wrap 5)) (-6.0) .linear).2 = faded := kept
  rw [same] at advanced
  exact absurd advanced (by decide)

end AutomationGraph

end Audec.Automation

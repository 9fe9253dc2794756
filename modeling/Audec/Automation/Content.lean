import Audec.Lib.GuardedStore
import Audec.Automation.Model

/-! What the checks of a lane and of a descriptor say; they do not tell equal content apart, and what passes them
    equals itself. -/

open Machine Checked GuardedStore FloatEquality PartialEquality Entries
open Std (ExtTreeMap)

namespace Audec.Automation

open AutomationPoint List

theorem SmoothingPolicy.beq_onePole (a b : Float) :
    ((SmoothingPolicy.onePoleMilliseconds a == .onePoleMilliseconds b) = true) ↔ (a == b) = true := by
  change instBEqSmoothingPolicy.beq _ _ = true ↔ _
  simp [instBEqSmoothingPolicy.beq]

theorem SegmentShape.beq_cubicBezier (a b c d : Float) :
    ((SegmentShape.cubicBezier a b == .cubicBezier c d) = true) ↔ (a == c) = true ∧ (b == d) = true := by
  change instBEqSegmentShape.beq _ _ = true ↔ _
  simp [instBEqSegmentShape.beq]

theorem SmoothingPolicy.cases_of_same {a b : SmoothingPolicy} (same : (a == b) = true) :
    (a = b ∧ ∀ value, a ≠ .onePoleMilliseconds value) ∨
      ∃ value other, a = .onePoleMilliseconds value ∧ b = .onePoleMilliseconds other ∧ (value == other) = true := by
  change instBEqSmoothingPolicy.beq _ _ = true at same
  cases a <;> cases b <;> simp_all [instBEqSmoothingPolicy.beq]

theorem SegmentShape.cases_of_same {a b : SegmentShape} (same : (a == b) = true) :
    (a = b ∧ ∀ outgoing incoming, a ≠ .cubicBezier outgoing incoming) ∨
      ∃ outgoing incoming outgoing' incoming', a = .cubicBezier outgoing incoming ∧ b = .cubicBezier outgoing' incoming' ∧
        (outgoing == outgoing') = true ∧ (incoming == incoming') = true := by
  change instBEqSegmentShape.beq _ _ = true at same
  cases a <;> cases b <;> simp_all [instBEqSegmentShape.beq]

instance : PartialEquivBEq SmoothingPolicy where
  symm same := by
    rcases SmoothingPolicy.cases_of_same same with ⟨rfl, -⟩ | ⟨value, other, rfl, rfl, equal⟩
    · exact same
    · exact (SmoothingPolicy.beq_onePole _ _).mpr (BEq.symm equal)
  trans first second := by
    rcases SmoothingPolicy.cases_of_same first with ⟨rfl, -⟩ | ⟨value, other, rfl, rfl, equal⟩
    · exact second
    · rcases SmoothingPolicy.cases_of_same second with ⟨rfl, -⟩ | ⟨value', third, same, rfl, equal'⟩
      · exact first
      · cases same
        exact (SmoothingPolicy.beq_onePole _ _).mpr (BEq.trans equal equal')

instance : PartialEquivBEq SegmentShape where
  symm same := by
    rcases SegmentShape.cases_of_same same with ⟨rfl, -⟩ | ⟨a, b, c, d, rfl, rfl, outgoing, incoming⟩
    · exact same
    · exact (SegmentShape.beq_cubicBezier _ _ _ _).mpr ⟨BEq.symm outgoing, BEq.symm incoming⟩
  trans first second := by
    rcases SegmentShape.cases_of_same first with ⟨rfl, -⟩ | ⟨a, b, c, d, rfl, rfl, outgoing, incoming⟩
    · exact second
    · rcases SegmentShape.cases_of_same second with ⟨rfl, -⟩ | ⟨c', d', e, f, same, rfl, outgoing', incoming'⟩
      · exact first
      · cases same
        exact (SegmentShape.beq_cubicBezier _ _ _ _).mpr ⟨BEq.trans outgoing outgoing', BEq.trans incoming incoming'⟩

theorem ParameterDescriptor.beq_iff (a b : ParameterDescriptor) : (a == b) = true ↔ a.address = b.address ∧ a.name = b.name ∧
    a.unit = b.unit ∧ (a.minimum == b.minimum) = true ∧ (a.maximum == b.maximum) = true ∧ (a.default == b.default) = true ∧
    a.mapping = b.mapping ∧ (a.smoothing == b.smoothing) = true := by
  cases a
  cases b
  change instBEqParameterDescriptor.beq _ _ = true ↔ _
  simp [instBEqParameterDescriptor.beq]

theorem AutomationPoint.beq_iff (a b : AutomationPoint) : (a == b) = true ↔ a.id = b.id ∧ a.position = b.position ∧
    (a.value == b.value) = true ∧ (a.outgoing == b.outgoing) = true := by
  cases a
  cases b
  change instBEqAutomationPoint.beq _ _ = true ↔ _
  simp [instBEqAutomationPoint.beq]

theorem AutomationLane.beq_iff (a b : AutomationLane) : (a == b) = true ↔ a.id = b.id ∧ a.name = b.name ∧ a.target = b.target ∧
    a.timeDomain = b.timeDomain ∧ a.binding = b.binding ∧ a.extrapolation = b.extrapolation ∧ a.enabled = b.enabled ∧
    (a.points == b.points) = true := by
  cases a
  cases b
  change instBEqAutomationLane.beq _ _ = true ↔ _
  simp [instBEqAutomationLane.beq]

instance : PartialEquivBEq ParameterDescriptor where
  symm same := by
    rw [ParameterDescriptor.beq_iff] at same ⊢
    grind [BEq.symm]
  trans first second := by
    rw [ParameterDescriptor.beq_iff] at first second ⊢
    grind [BEq.trans]

instance : PartialEquivBEq AutomationPoint where
  symm same := by
    rw [AutomationPoint.beq_iff] at same ⊢
    grind [BEq.symm]
  trans first second := by
    rw [AutomationPoint.beq_iff] at first second ⊢
    grind [BEq.trans]

instance : PartialEquivBEq AutomationLane where
  symm same := by
    rw [AutomationLane.beq_iff] at same ⊢
    grind [BEq.symm]
  trans first second := by
    rw [AutomationLane.beq_iff] at first second ⊢
    grind [BEq.trans]

namespace ParameterDescriptor

variable {descriptor other : ParameterDescriptor}

theorem validate_ok : descriptor.validate = .ok () ↔ descriptor.name ≠ "" ∧ descriptor.validRange = true ∧
    descriptor.validMapping = true ∧ descriptor.validSmoothing = true := by
  simp only [validate, bind_unit_ok, ensure_ok]

theorem validRange_iff : descriptor.validRange = true ↔ descriptor.minimum.isFinite = true ∧ descriptor.maximum.isFinite = true ∧
    descriptor.default.isFinite = true ∧ ¬ descriptor.maximum ≤ descriptor.minimum ∧ descriptor.minimum ≤ descriptor.default ∧
    descriptor.default ≤ descriptor.maximum := by
  simp only [validRange, Bool.and_eq_true, Bool.not_eq_true', decide_eq_false_iff_not, decide_eq_true_eq, and_assoc]

theorem validSmoothing_congr {smoothing smoothing' : SmoothingPolicy} (same : (smoothing == smoothing') = true)
    (left : descriptor.smoothing = smoothing) (right : other.smoothing = smoothing') :
    descriptor.validSmoothing = other.validSmoothing := by
  unfold validSmoothing
  rw [left, right]
  rcases SmoothingPolicy.cases_of_same same with ⟨rfl, -⟩ | ⟨value, value', rfl, rfl, equal⟩
  · rfl
  · have zero : ((0.0 : Float) == 0.0) = true := by decide
    simp only [float_isFinite_congr equal, float_le_congr equal zero]

theorem validate_congr (same : (descriptor == other) = true) (valid : descriptor.validate = .ok ()) : other.validate = .ok () := by
  obtain ⟨-, names, -, minimum, maximum, default', mapping, smoothing⟩ := (beq_iff _ _).mp same
  obtain ⟨named, range, mapped, smoothed⟩ := validate_ok.mp valid
  have zero : ((0.0 : Float) == 0.0) = true := by decide
  refine validate_ok.mpr ⟨names ▸ named, ?_, ?_, ?_⟩
  · rw [validRange_iff] at range ⊢
    rwa [← float_isFinite_congr minimum, ← float_isFinite_congr maximum, ← float_isFinite_congr default',
      ← float_le_congr maximum minimum, ← float_le_congr minimum default', ← float_le_congr default' maximum]
  · unfold validMapping at mapped ⊢
    rw [← mapping]
    simp only [← float_le_congr minimum zero]
    exact mapped
  · rw [← validSmoothing_congr smoothing rfl rfl]
    exact smoothed

theorem validate_self (valid : descriptor.validate = .ok ()) : (descriptor == descriptor) = true := by
  obtain ⟨-, range, -, smoothed⟩ := validate_ok.mp valid
  obtain ⟨minimum, maximum, default', -, -, -⟩ := validRange_iff.mp range
  refine (beq_iff _ _).mpr ⟨rfl, rfl, rfl, float_beq_self minimum, float_beq_self maximum, float_beq_self default', rfl, ?_⟩
  unfold validSmoothing at smoothed
  cases held : descriptor.smoothing with
  | onePoleMilliseconds value =>
    rw [held, Bool.and_eq_true] at smoothed
    exact (SmoothingPolicy.beq_onePole _ _).mpr (float_beq_self smoothed.1)
  | none => rfl
  | linearFrames frames => exact beq_self_eq_true frames

end ParameterDescriptor

namespace SegmentShape

theorem isFinite_congr {shape other : SegmentShape} (same : (shape == other) = true) : shape.isFinite = other.isFinite := by
  rcases cases_of_same same with ⟨rfl, -⟩ | ⟨a, b, c, d, rfl, rfl, outgoing, incoming⟩
  · rfl
  · rw [isFinite, isFinite, float_isFinite_congr outgoing, float_isFinite_congr incoming]

theorem isFinite_self {shape : SegmentShape} (finite : shape.isFinite = true) : (shape == shape) = true := by
  cases shape with
  | cubicBezier outgoing incoming =>
    rw [isFinite, Bool.and_eq_true] at finite
    exact (beq_cubicBezier _ _ _ _).mpr ⟨float_beq_self finite.1, float_beq_self finite.2⟩
  | _ => rfl

end SegmentShape

structure Canonical (timeDomain : TimeDomain) (points : List AutomationPoint) : Prop where
  domain : ∀ point ∈ points, point.position.domain = timeDomain
  finite : ∀ point ∈ points, point.value.isFinite = true
  shaped : ∀ point ∈ points, point.outgoing.isFinite = true
  sorted : points.Pairwise fun point later => point.coordinate < later.coordinate
  distinct : (points.map AutomationPoint.id).Nodup

variable {points : List AutomationPoint} {timeDomain : TimeDomain}

theorem Canonical.congr {others : List AutomationPoint} (canonical : Canonical timeDomain points)
    (same : (points == others) = true) : Canonical timeDomain others := by
  have pairs := list_beq_iff.mp same
  have ids : points.map AutomationPoint.id = others.map AutomationPoint.id := by
    rw [← forall₂_eq_eq_eq, forall₂_map_left_iff, forall₂_map_right_iff]
    exact pairs.imp fun point other equal => ((beq_iff _ _).mp equal).1
  have places : points.map coordinate = others.map coordinate := by
    rw [← forall₂_eq_eq_eq, forall₂_map_left_iff, forall₂_map_right_iff]
    exact pairs.imp fun point other equal => congrArg TimePosition.coordinate ((beq_iff _ _).mp equal).2.1
  constructor
  · refine all_congr same (fun point other equal within => ?_) canonical.domain
    rw [← ((beq_iff _ _).mp equal).2.1]
    exact within
  · refine all_congr same (fun point other equal finite => ?_) canonical.finite
    rw [← float_isFinite_congr ((beq_iff _ _).mp equal).2.2.1]
    exact finite
  · refine all_congr same (fun point other equal shaped => ?_) canonical.shaped
    rw [← SegmentShape.isFinite_congr ((beq_iff _ _).mp equal).2.2.2]
    exact shaped
  · have sorted := pairwise_map.mpr canonical.sorted
    rw [places] at sorted
    exact pairwise_map.mp sorted
  · rw [← ids]
    exact canonical.distinct

theorem Canonical.self (canonical : Canonical timeDomain points) :
    (points == points) = true :=
  list_beq_self fun point inside => (beq_iff _ _).mpr
    ⟨rfl, rfl, float_beq_self (canonical.finite point inside), SegmentShape.isFinite_self (canonical.shaped point inside)⟩

theorem canonical_nil (timeDomain : TimeDomain) : Canonical timeDomain [] where
  domain _ inside := absurd inside not_mem_nil
  finite _ inside := absurd inside not_mem_nil
  shaped _ inside := absurd inside not_mem_nil
  sorted := .nil
  distinct := .nil

theorem canonical_cons {point : AutomationPoint} :
    Canonical timeDomain (point :: points) ↔ (point.position.domain = timeDomain ∧ point.value.isFinite = true ∧
      point.outgoing.isFinite = true) ∧ Canonical timeDomain points ∧
      ∀ later ∈ points, point.coordinate < later.coordinate ∧ later.id ≠ point.id := by
  constructor
  · rintro ⟨domain, finite, shaped, sorted, distinct⟩
    rw [forall_mem_cons] at domain finite shaped
    rw [pairwise_cons] at sorted
    rw [map_cons, nodup_cons] at distinct
    refine ⟨⟨domain.1, finite.1, shaped.1⟩, ⟨domain.2, finite.2, shaped.2, sorted.2, distinct.2⟩, fun later inside => ⟨sorted.1 later inside, ?_⟩⟩
    intro same
    exact distinct.1 (same ▸ mem_map_of_mem inside)
  · rintro ⟨⟨domain, finite, shaped⟩, rest, apart⟩
    refine ⟨forall_mem_cons.mpr ⟨domain, rest.domain⟩, forall_mem_cons.mpr ⟨finite, rest.finite⟩,
      forall_mem_cons.mpr ⟨shaped, rest.shaped⟩, pairwise_cons.mpr ⟨fun later inside => (apart later inside).1, rest.sorted⟩, ?_⟩
    rw [map_cons, nodup_cons]
    refine ⟨fun member => ?_, rest.distinct⟩
    obtain ⟨later, inside, same⟩ := mem_map.mp member
    exact (apart later inside).2 same

namespace AutomationLane

variable {lane other : AutomationLane} {descriptor : ParameterDescriptor}

theorem validatePoint_ok {timeDomain : TimeDomain} {seen after : Option I64 × List AutomationPointId} {point : AutomationPoint} :
    validatePoint timeDomain seen point = .ok after ↔ (point.position.domain = timeDomain ∧ point.value.isFinite = true ∧
      point.outgoing.isFinite = true) ∧ ((∀ prior ∈ seen.1, prior < point.coordinate) ∧ point.id ∉ seen.2) ∧
      after = (some point.coordinate, point.id :: seen.2) := by
  rw [validatePoint]
  simp only [bind_unit_ok, ensure_ok, SegmentShape.validate, and_assoc]
  refine and_congr_right fun _ => and_congr_right fun _ => and_congr_right fun _ => and_congr_right fun _ => and_congr_right fun _ => ?_
  exact ⟨fun same => (Except.ok.inj same).symm, fun same => same ▸ rfl⟩

theorem validatePoints_ok {timeDomain : TimeDomain} {points : List AutomationPoint} {seen : Option I64 × List AutomationPointId} :
    (∃ after, points.foldlM (validatePoint timeDomain) seen = .ok after) ↔ Canonical timeDomain points ∧
      ∀ point ∈ points, (∀ prior ∈ seen.1, prior < point.coordinate) ∧ point.id ∉ seen.2 := by
  induction points generalizing seen with
  | nil => exact ⟨fun _ => ⟨canonical_nil _, fun point inside => absurd inside not_mem_nil⟩, fun _ => ⟨seen, rfl⟩⟩
  | cons point points tail =>
    have unfolded : (∃ after, (point :: points).foldlM (validatePoint timeDomain) seen = .ok after) ↔
        ∃ middle, validatePoint timeDomain seen point = .ok middle ∧
          ∃ after, points.foldlM (validatePoint timeDomain) middle = .ok after := by
      simp only [foldlM_cons, bind_ok]
      exact ⟨fun ⟨after, middle, first, rest⟩ => ⟨middle, first, after, rest⟩, fun ⟨middle, first, after, rest⟩ => ⟨after, middle, first, rest⟩⟩
    rw [unfolded, canonical_cons, forall_mem_cons]
    constructor
    · rintro ⟨middle, first, rest⟩
      obtain ⟨fine, unseen, rfl⟩ := validatePoint_ok.mp first
      obtain ⟨canonical, beyond⟩ := tail.mp rest
      refine ⟨⟨fine, canonical, fun later inside => ?_⟩, unseen, fun later inside => ?_⟩
      · obtain ⟨after, fresh⟩ := beyond later inside
        exact ⟨after _ rfl, fun same => fresh (same ▸ mem_cons_self)⟩
      · obtain ⟨after, fresh⟩ := beyond later inside
        exact ⟨fun prior held => (unseen.1 prior held).trans (after _ rfl), fun member => fresh (mem_cons_of_mem _ member)⟩
    · rintro ⟨⟨fine, canonical, apart⟩, unseen, beyond⟩
      refine ⟨_, validatePoint_ok.mpr ⟨fine, unseen, rfl⟩, tail.mpr ⟨canonical, fun later inside => ⟨fun prior held => ?_, fun member => ?_⟩⟩⟩
      · cases held
        exact (apart later inside).1
      · rcases mem_cons.mp member with same | member
        · exact (apart later inside).2 same
        · exact (beyond later inside).2 member

theorem validate_ok : lane.validate descriptor = .ok () ↔
    lane.name ≠ "" ∧ lane.target = descriptor.address ∧ Canonical lane.timeDomain lane.points := by
  rw [validate]
  simp only [bind_unit_ok, ensure_ok]
  refine and_congr_right fun _ => and_congr_right fun _ => ?_
  have through := @validatePoints_ok lane.timeDomain lane.points (none, [])
  have fresh : ∀ point ∈ lane.points, (∀ prior ∈ (none : Option I64), prior < point.coordinate) ∧ point.id ∉ ([] : List AutomationPointId) :=
    fun point _ => ⟨fun prior held => absurd held (Option.not_mem_none _), not_mem_nil⟩
  rw [bind_ok]
  constructor
  · rintro ⟨after, done, -⟩
    exact (through.mp ⟨after, done⟩).1
  · intro canonical
    obtain ⟨after, done⟩ := through.mpr ⟨canonical, fresh⟩
    exact ⟨after, done, rfl⟩

theorem validate_congr {descriptor' : ParameterDescriptor} (same : (lane == other) = true) (address : descriptor.address = descriptor'.address)
    (valid : lane.validate descriptor = .ok ()) : other.validate descriptor' = .ok () := by
  obtain ⟨-, names, targets, domains, -, -, -, points⟩ := (beq_iff _ _).mp same
  obtain ⟨named, target, canonical⟩ := validate_ok.mp valid
  exact validate_ok.mpr ⟨names ▸ named, targets.symm.trans (target.trans address), domains ▸ canonical.congr points⟩

theorem validate_self (valid : lane.validate descriptor = .ok ()) : (lane == lane) = true :=
  (beq_iff _ _).mpr ⟨rfl, rfl, rfl, rfl, rfl, rfl, rfl, (validate_ok.mp valid).2.2.self⟩

end AutomationLane

end Audec.Automation

import Audec.Automation.Insertion

/-! Points are moved in time: each to the nearest coordinate of its exact image. -/

open Machine Checked List
open Std (ExtTreeMap)

namespace Audec.Automation

def roundHalfAway (x : ℚ) : ℤ := if 0 ≤ x then ⌊x + 1 / 2⌋ else -⌊-x + 1 / 2⌋

theorem floor_half {n d : ℤ} (positive : 0 < d) : ⌊(n : ℚ) / d + 1 / 2⌋ = if d ≤ n % d * 2 then n / d + 1 else n / d := by
  have low : (0 : ℚ) ≤ (n % d : ℤ) := by exact_mod_cast Int.emod_nonneg n positive.ne'
  have high : ((n % d : ℤ) : ℚ) < d := by exact_mod_cast Int.emod_lt_of_pos n positive
  have positive' : (0 : ℚ) < d := by exact_mod_cast positive
  have split : (n : ℚ) / d = (n / d : ℤ) + ((n % d : ℤ) : ℚ) / d := by
    have whole : (n : ℚ) = d * (n / d : ℤ) + (n % d : ℤ) := by exact_mod_cast (Int.mul_ediv_add_emod n d).symm
    rw [eq_comm, ← sub_eq_zero]
    field_simp
    linarith
  rw [split, add_assoc, Int.floor_intCast_add]
  by_cases up : d ≤ n % d * 2
  · have up' : (d : ℚ) ≤ (n % d : ℤ) * 2 := by exact_mod_cast up
    rw [if_pos up]
    congr 1
    rw [Int.floor_eq_iff]
    push_cast
    constructor
    · rw [← sub_le_iff_le_add, le_div_iff₀ positive']
      linarith
    · rw [← lt_sub_iff_add_lt, div_lt_iff₀ positive']
      linarith
  · have down : ((n % d : ℤ) : ℚ) * 2 < d := by exact_mod_cast not_le.mp up
    rw [if_neg up, add_eq_left, Int.floor_eq_iff]
    push_cast
    constructor
    · have nonneg : 0 ≤ ((n % d : ℤ) : ℚ) / d := div_nonneg low positive'.le
      linarith
    · rw [← lt_sub_iff_add_lt, div_lt_iff₀ positive']
      linarith

theorem roundRatio_neg (n d : ℤ) : roundRatioTiesAway (-n) d = -roundRatioTiesAway n d := by
  unfold roundRatioTiesAway
  dsimp only
  rw [Int.neg_tdiv, Int.neg_tmod, abs_neg, Int.sign_neg]
  split
  · ring
  · rfl

theorem roundRatio_eq {n d : ℤ} (positive : 0 < d) (small : d < 0x8000000000000000) :
    roundRatioTiesAway n d = roundHalfAway ((n : ℚ) / d) := by
  have positive' : (0 : ℚ) < d := by exact_mod_cast positive
  have nonneg (n : ℤ) (nonneg : 0 ≤ n) : roundRatioTiesAway n d = ⌊(n : ℚ) / d + 1 / 2⌋ := by
    have low := Int.emod_nonneg n positive.ne'
    have high := Int.emod_lt_of_pos n positive
    unfold roundRatioTiesAway saturate128
    dsimp only
    rw [floor_half positive, Int.tdiv_eq_ediv_of_nonneg nonneg, Int.tmod_eq_emod_of_nonneg nonneg, abs_of_nonneg low]
    by_cases up : d ≤ n % d * 2
    · have moved : 0 < n := by
        rcases nonneg.lt_or_eq with moved | rfl
        · exact moved
        · rw [Int.zero_emod] at up
          omega
      rw [if_pos up, if_pos (by omega), Int.sign_eq_one_of_pos moved]
    · rw [if_neg up, if_neg (by omega)]
  unfold roundHalfAway
  by_cases sign : 0 ≤ n
  · rw [if_pos (div_nonneg (by exact_mod_cast sign) positive'.le), nonneg n sign]
  · have below : (n : ℚ) / d < 0 := div_neg_of_neg_of_pos (by exact_mod_cast not_le.mp sign) positive'
    have mirrored := nonneg (-n) (by omega)
    rw [roundRatio_neg] at mirrored
    rw [if_neg (not_le.mpr below), ← neg_div, ← Int.cast_neg, ← mirrored, neg_neg]

def scaledCoordinate (origin : I64) (scale : RationalScale) (time : I64) : ℤ :=
  origin.val + roundHalfAway (((time.val - origin.val : ℤ) : ℚ) * scale.numerator.val / scale.denominator.val)

theorem scaleCoordinate_ok {origin time coordinate : I64} {scale : RationalScale} (valid : scale.validate = .ok ())
    (done : AutomationLane.scaleCoordinate origin scale time = .ok coordinate) : coordinate.val = scaledCoordinate origin scale time := by
  unfold RationalScale.validate at valid
  rw [ensure_ok] at valid
  obtain ⟨numerator, denominator⟩ := valid
  unfold AutomationLane.scaleCoordinate at done
  rw [bind_unit_ok, checkedCoordinate_ok] at done
  have exact' : saturate128 ((time.val - origin.val) * scale.numerator.val) = (time.val - origin.val) * scale.numerator.val := by
    have := time.lower
    have := time.upper
    have := origin.lower
    have := origin.upper
    have := scale.numerator.upper
    have bound : |(time.val - origin.val) * scale.numerator.val| ≤ 0xffffffffffffffff * 0x7fffffffffffffff := by
      rw [abs_mul]
      refine mul_le_mul ?_ ?_ (abs_nonneg _) (by decide)
      · rw [abs_le]
        omega
      · rw [abs_of_pos numerator]
        omega
    rw [abs_le] at bound
    unfold saturate128
    omega
  rw [done.2, exact', roundRatio_eq denominator scale.denominator.upper, Int.cast_mul]
  rfl

namespace AutomationLane

variable {lane edited : AutomationLane} {range : I64 × I64} {origin : I64} {scale : RationalScale}

structure Moved (range : I64 × I64) (origin : I64) (scale : RationalScale) (point moved : AutomationPoint) : Prop where
  only : moved = { point with position := point.position.withCoordinate moved.coordinate }
  selected : inRange range point = true → moved.coordinate.val = scaledCoordinate origin scale point.coordinate
  unselected : inRange range point = false → moved = point

variable {point moved : AutomationPoint}

theorem scalePoint_moved (valid : scale.validate = .ok ())
    (done : scalePoint range origin scale point = .ok moved) : Moved range origin scale point moved := by
  unfold scalePoint at done
  split at done
  · rename_i selected
    obtain ⟨coordinate, scaled, same⟩ := bind_ok.mp done
    cases same
    have place : ({ point with position := point.position.withCoordinate coordinate } : AutomationPoint).coordinate = coordinate :=
      TimePosition.coordinate_withCoordinate _ _
    refine ⟨by rw [place], fun _ => ?_, fun unselected => ?_⟩
    · rw [place]
      exact scaleCoordinate_ok valid scaled
    · rw [selected] at unselected
      cases unselected
  · rename_i unselected
    cases done
    refine ⟨?_, fun selected => absurd selected unselected, fun _ => rfl⟩
    cases point with
    | mk id position value outgoing => cases position <;> rfl

theorem Moved.id (made : Moved range origin scale point moved) : moved.id = point.id := by
  rw [made.only]

theorem Moved.value (made : Moved range origin scale point moved) : moved.value = point.value := by
  rw [made.only]

theorem Moved.outgoing (made : Moved range origin scale point moved) :
    moved.outgoing = point.outgoing := by
  rw [made.only]

theorem Moved.domain (made : Moved range origin scale point moved) :
    moved.position.domain = point.position.domain := by
  rw [made.only]
  exact TimePosition.domain_withCoordinate _ _

theorem scaledTime_canonical {start stop origin : TimePosition} {points : List AutomationPoint}
    (canonical : Canonical lane.timeDomain lane.points) (done : lane.scaledTime start stop origin scale = .ok points) :
    Canonical lane.timeDomain points ∧ ∃ moved, points.Perm moved ∧
      List.Forall₂ (Moved (orderedPair start.coordinate stop.coordinate) origin.coordinate scale) lane.points moved := by
  unfold scaledTime at done
  rw [bind_unit_ok, bind_unit_ok] at done
  obtain ⟨-, valid, done⟩ := done
  obtain ⟨replacement, scaled, done⟩ := bind_ok.mp done
  rw [bind_unit_ok, ensure_ok] at done
  obtain ⟨chain, same⟩ := done
  cases same
  have moves : List.Forall₂ (Moved (orderedPair start.coordinate stop.coordinate) origin.coordinate scale) lane.points replacement :=
    (mapM_ok.mp scaled).imp fun point moved step => scalePoint_moved valid step
  have perm := mergeSort_perm replacement fun point later => decide (point.coordinate ≤ later.coordinate)
  have carried {holds : AutomationPoint → Prop} (keeps : ∀ point moved,
      Moved (orderedPair start.coordinate stop.coordinate) origin.coordinate scale point moved → holds point → holds moved)
      (all : ∀ point ∈ lane.points, holds point) : ∀ moved ∈ replacement, holds moved := by
    intro moved inside
    obtain ⟨point, origin', step⟩ := mem_mapM scaled inside
    exact keeps point moved (scalePoint_moved valid step) (all point origin')
  have ids : replacement.map AutomationPoint.id = lane.points.map AutomationPoint.id := by
    rw [← forall₂_eq_eq_eq, forall₂_map_left_iff, forall₂_map_right_iff]
    exact moves.flip.imp fun moved point made => made.id
  refine ⟨⟨fun moved inside => ?_, fun moved inside => ?_, fun moved inside => ?_, ?_, ?_⟩, replacement, perm, moves⟩
  · exact carried (fun point moved made within => made.domain.trans within) canonical.domain moved (perm.mem_iff.mp inside)
  · exact carried (fun point moved made finite => made.value ▸ finite) canonical.finite moved (perm.mem_iff.mp inside)
  · exact carried (fun point moved made shaped => made.outgoing ▸ shaped) canonical.shaped moved (perm.mem_iff.mp inside)
  · have trans : IsTrans AutomationPoint fun point later => point.coordinate < later.coordinate := ⟨fun _ _ _ => lt_trans⟩
    exact isChain_iff_pairwise.mp chain
  · rw [(perm.map _).nodup_iff, ids]
    exact canonical.distinct

end AutomationLane

end Audec.Automation

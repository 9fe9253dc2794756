import Audec.PatternLang.Slots
import Audec.Lib.EvenSpread

/-! Rhythms that spread their hits evenly over the slots of a cycle. -/

open List

namespace Audec.PatternLang

open Machine Checked FloatDebug EvenSpread

def Onsets (slots : U32) (events : List AbstractEvent) : Set ℤ :=
  fun slot => 0 ≤ slot ∧ slot < slots.val ∧ ∃ event ∈ events, event.position.value * slots.val = slot

def AtSlot (slots : U32) (onsets : Set ℤ) (slot : ℤ) : Prop := slot % slots.val ∈ onsets

theorem strikes_iff (hits slots : U32) (nonzero : slots ≠ 0) (rotation : I32) (slot : Nat) :
    strikes hits slots rotation slot = true ↔ Struck slots.val hits.val (slot - rotation.val) := by
  have positive : (0 : ℤ) < slots.val := by exact_mod_cast Fin.pos_iff_ne_zero.mpr nonzero
  have turned : ((((slot : ℤ) - rotation.val) % slots.val).toNat : ℤ) = (slot - rotation.val) % slots.val :=
    Int.toNat_of_nonneg (Int.emod_nonneg _ positive.ne')
  rw [← struck_periodic, ← turned, struck_natCast]
  simp [strikes]

def struckSlots (hits slots : U32) (rotation : I32) : List Nat :=
  (List.range slots.val).filter (strikes hits slots rotation)

theorem length_struckSlots {hits slots : U32} (nonzero : slots ≠ 0) (few : hits ≤ slots) (rotation : I32) :
    (struckSlots hits slots rotation).length = hits.val := by
  have positive : 0 < slots.val := Fin.pos_iff_ne_zero.mpr nonzero
  have once : (struckSlots hits slots rotation).Nodup := nodup_range.filter _
  rw [← toFinset_card_of_nodup once, ← card_shifted positive (Fin.le_def.mp few) rotation.val]
  congr 1
  ext slot
  rw [mem_toFinset, struckSlots, mem_filter, mem_range, strikes_iff hits slots nonzero,
    Finset.mem_filter, Finset.mem_range]

structure PlacedAt (slots : U32) (lane : Text) (slot : Nat) (event : AbstractEvent) : Prop where
  lane : event.lane = lane
  position : event.position.value * slots.val = slot
  width : event.width.value * slots.val = 1

theorem checked_ok {numerator denominator : Nat} (nonzero : denominator ≠ 0) (small : numerator < 0x10000000000000000)
    (small' : denominator < 0x10000000000000000) : ∃ result, Rational.checked numerator denominator = .ok result := by
  have fits : numerator / max (Nat.gcd numerator denominator) 1 < 0x10000000000000000 ∧
      denominator / max (Nat.gcd numerator denominator) 1 < 0x10000000000000000 :=
    ⟨(Nat.div_le_self _ _).trans_lt small, (Nat.div_le_self _ _).trans_lt small'⟩
  unfold Rational.checked
  rw [dif_neg nonzero]
  dsimp only
  rw [dif_pos fits]
  exact ⟨_, rfl⟩

theorem evalEuclid_name {hits slots : U32} (nonzero : slots ≠ 0) (few : hits ≤ slots) (rotation : I32) (binding : Text)
    (variant : Option U32) :
    ∃ events, evalEuclid hits slots rotation (evalName binding variant) = .ok events ∧
      List.Forall₂ (PlacedAt slots (laneKey binding variant)) (struckSlots hits slots rotation) events := by
  have small := slots.isLt
  have positive : 0 < slots.val := Fin.pos_iff_ne_zero.mpr nonzero
  have wide : (Fin.ofNat 0x10000000000000000 slots.val).val = slots.val := Nat.mod_eq_of_lt (by omega)
  obtain ⟨slotWidth, made⟩ := @Rational.new_ok (Fin.ofNat 0x10000000000000000 slots.val) 1 (by rw [wide]; exact positive.ne')
  have whole := (share_value nonzero made).2
  have bounds := Rational.new_le made
  rw [wide, show (1 : U64).val = 1 from rfl] at bounds
  have played : ∀ slot ∈ struckSlots hits slots rotation, ∃ part,
      (do
        let start ← slotWidth.scaleInt slot
        evalName binding variant start slotWidth 1 none none) = .ok part ∧
      ∃ event, part = [event] ∧ PlacedAt slots (laneKey binding variant) slot event := by
    intro slot member
    have below := mem_range.mp (mem_of_mem_filter member)
    have product : slotWidth.numerator.val * slot ≤ 1 * slot := Nat.mul_le_mul_right _ bounds.1
    obtain ⟨start, scaled⟩ := checked_ok slotWidth.positive.ne'
      (show slotWidth.numerator.val * slot < 0x10000000000000000 by omega) slotWidth.denominator.isLt
    have place : start.value * slots.val = slot := by
      rw [Rational.scaleInt_value scaled, mul_right_comm, whole, one_mul]
    refine ⟨_, bind_ok.mpr ⟨start, scaled, rfl⟩, _, rfl, ?_⟩
    exact ⟨rfl, place, whole⟩
  obtain ⟨parts, mapped, all⟩ := exists_mapM played
  refine ⟨parts.flatten, ?_, ?_⟩
  · simp only [evalEuclid, bind_ok]
    refine ⟨(), ensure_ok.mpr ?_, slotWidth, made, parts, mapped, rfl⟩
    rw [not_or, not_lt]
    exact ⟨nonzero, few⟩
  · clear mapped played
    generalize struckSlots hits slots rotation = struck at all ⊢
    induction all with
    | nil => exact .nil
    | cons here later tail =>
      obtain ⟨event, rfl, placed⟩ := here
      exact .cons placed tail

section Rhythm

variable {hits slots : U32} {rotation : I32} {lane : Text} {events : List AbstractEvent}

section

variable (nonzero : slots ≠ 0) (placed : List.Forall₂ (PlacedAt slots lane) (struckSlots hits slots rotation) events) (slot : ℤ)
include nonzero placed slot

theorem mem_onsets_iff :
    slot ∈ Onsets slots events ↔ 0 ≤ slot ∧ slot < slots.val ∧ Struck slots.val hits.val (slot - rotation.val) := by
  constructor
  · rintro ⟨low, high, event, member, position⟩
    refine ⟨low, high, ?_⟩
    obtain ⟨index, inside, rfl⟩ := getElem_of_mem member
    have within : index < (struckSlots hits slots rotation).length := placed.length_eq ▸ inside
    have here := placed.get within inside
    have same : (((struckSlots hits slots rotation).get ⟨index, within⟩ : Nat) : ℤ) = slot := by
      have both := here.position.symm.trans position
      exact_mod_cast both
    have struck := get_mem (struckSlots hits slots rotation) ⟨index, within⟩
    rw [← same, ← strikes_iff hits slots nonzero]
    exact of_mem_filter struck
  · rintro ⟨low, high, struck⟩
    refine ⟨low, high, ?_⟩
    obtain ⟨k, rfl⟩ := Int.eq_ofNat_of_zero_le low
    have listed : k ∈ struckSlots hits slots rotation :=
      mem_filter.mpr ⟨mem_range.mpr (by exact_mod_cast high), (strikes_iff hits slots nonzero rotation k).mpr struck⟩
    obtain ⟨index, inside, same⟩ := getElem_of_mem listed
    have within : index < events.length := placed.length_eq ▸ inside
    have here := placed.get inside within
    refine ⟨events.get ⟨index, within⟩, get_mem _ _, ?_⟩
    rw [here.position, get_eq_getElem, same]
    rfl

theorem atSlot_iff :
    AtSlot slots (Onsets slots events) slot ↔ Struck slots.val hits.val (slot - rotation.val) := by
  have positive : (0 : ℤ) < slots.val := by exact_mod_cast Fin.pos_iff_ne_zero.mpr nonzero
  rw [AtSlot, mem_onsets_iff nonzero placed, ← struck_periodic, Int.emod_sub_emod, struck_periodic]
  exact ⟨fun held => held.2.2, fun held => ⟨Int.emod_nonneg _ positive.ne', Int.emod_lt_of_pos _ positive, held⟩⟩

end

theorem ncard_onsets (nonzero : slots ≠ 0) (few : hits ≤ slots)
    (placed : List.Forall₂ (PlacedAt slots lane) (struckSlots hits slots rotation) events) :
    (Onsets slots events).ncard = hits.val := by
  have positive : 0 < slots.val := Fin.pos_iff_ne_zero.mpr nonzero
  have listed : Onsets slots events =
      Nat.cast '' (((Finset.range slots.val).filter fun k : Nat => Struck slots.val hits.val (k - rotation.val) : Finset Nat) : Set Nat) := by
    ext slot
    rw [mem_onsets_iff nonzero placed]
    simp only [Set.mem_image, Finset.coe_filter, Finset.mem_range, Set.mem_ofPred_eq]
    constructor
    · rintro ⟨low, high, struck⟩
      obtain ⟨k, rfl⟩ := Int.eq_ofNat_of_zero_le low
      exact ⟨k, ⟨by exact_mod_cast high, struck⟩, rfl⟩
    · rintro ⟨k, ⟨high, struck⟩, rfl⟩
      exact ⟨by omega, by exact_mod_cast high, struck⟩
  rw [listed, Set.ncard_image_of_injective _ Nat.cast_injective, Set.ncard_coe_finset,
    card_shifted positive (Fin.le_def.mp few)]

section

variable (nonzero : slots ≠ 0) (placed : List.Forall₂ (PlacedAt slots lane) (struckSlots hits slots rotation) events)
include nonzero placed

theorem onsets_shifted {unrotated : List AbstractEvent}
    (placed' : List.Forall₂ (PlacedAt slots lane) (struckSlots hits slots I32.zero) unrotated) :
    Onsets slots events = (fun slot => (slot + rotation.val) % slots.val) '' Onsets slots unrotated := by
  have positive : (0 : ℤ) < slots.val := by exact_mod_cast Fin.pos_iff_ne_zero.mpr nonzero
  ext slot
  rw [mem_onsets_iff nonzero placed]
  constructor
  · rintro ⟨low, high, struck⟩
    refine ⟨(slot - rotation.val) % slots.val, (atSlot_iff nonzero placed' _).mpr ?_, ?_⟩
    · rw [show I32.zero.val = 0 from rfl, sub_zero]
      exact struck
    · change ((slot - rotation.val) % slots.val + rotation.val) % slots.val = slot
      rw [Int.emod_add_emod, sub_add_cancel, Int.emod_eq_of_lt low high]
  · rintro ⟨source, present, rfl⟩
    rw [mem_onsets_iff nonzero placed', show I32.zero.val = 0 from rfl, sub_zero] at present
    refine ⟨Int.emod_nonneg _ positive.ne', Int.emod_lt_of_pos _ positive, ?_⟩
    rw [← struck_periodic, Int.emod_sub_emod, add_sub_cancel_right, struck_periodic]
    exact present.2.2

theorem gap_iff (slot gap : ℤ) :
    Gap (AtSlot slots (Onsets slots events)) slot gap ↔ Gap (Struck slots.val hits.val) (slot - rotation.val) gap := by
  have moved (j : ℤ) : AtSlot slots (Onsets slots events) (slot + j) ↔
      Struck slots.val hits.val (slot - rotation.val + j) := by
    rw [atSlot_iff nonzero placed, show slot + j - rotation.val = slot - rotation.val + j by ring]
  constructor
  · rintro ⟨positive, lands, clear⟩
    exact ⟨positive, (moved gap).mp lands, fun j first later held => clear j first later ((moved j).mpr held)⟩
  · rintro ⟨positive, lands, clear⟩
    exact ⟨positive, (moved gap).mpr lands, fun j first later held => clear j first later ((moved j).mp held)⟩

end

end Rhythm

/-- A rhythm of one name has exactly its hits as onsets, turned by its rotation, and spread evenly: the distances
    from onsets to the next ones around the circle differ by at most one slot. -/
theorem euclid_even (hits slots : U32) (rotation : I32) (binding : Text) (variant : Option U32) (cycleIndex : U64)
    (nonzero : slots ≠ 0) (few : hits ≤ slots) :
    ∃ events unrotated, evalNorm (.euclid hits slots rotation (.name binding variant)) cycleIndex = .ok events ∧
      evalNorm (.euclid hits slots I32.zero (.name binding variant)) cycleIndex = .ok unrotated ∧
      events.length = hits.val ∧ (Onsets slots events).ncard = hits.val ∧
      Onsets slots events = (fun slot => (slot + rotation.val) % slots.val) '' Onsets slots unrotated ∧
      (∀ slot ∈ Onsets slots events, ∃ gap, Gap (AtSlot slots (Onsets slots events)) slot gap) ∧
      ∀ slot ∈ Onsets slots events, ∀ slot' ∈ Onsets slots events, ∀ gap gap',
        Gap (AtSlot slots (Onsets slots events)) slot gap → Gap (AtSlot slots (Onsets slots events)) slot' gap' →
          gap ≤ gap' + 1 := by
  have circle : (0 : ℤ) < slots.val := by exact_mod_cast Fin.pos_iff_ne_zero.mpr nonzero
  have fewer : (hits.val : ℤ) ≤ slots.val := by exact_mod_cast Fin.le_def.mp few
  obtain ⟨events, done, placed⟩ := evalEuclid_name nonzero few rotation binding variant
  obtain ⟨unrotated, done', placed'⟩ := evalEuclid_name nonzero few I32.zero binding variant
  refine ⟨events, unrotated, ?_, ?_, ?_, ncard_onsets nonzero few placed, onsets_shifted nonzero placed placed', ?_, ?_⟩
  · rw [evalNorm, evalElement]
    exact done
  · rw [evalNorm, evalElement]
    exact done'
  · rw [← placed.length_eq, length_struckSlots nonzero few]
  · intro slot present
    have struck := ((mem_onsets_iff nonzero placed slot).mp present).2.2
    obtain ⟨gap, next⟩ := exists_gap circle fewer struck
    exact ⟨gap, (gap_iff nonzero placed slot gap).mpr next⟩
  · intro slot present slot' present' gap gap' next next'
    have struck := ((mem_onsets_iff nonzero placed slot).mp present).2.2
    have struck' := ((mem_onsets_iff nonzero placed slot').mp present').2.2
    exact Gap.le_succ circle fewer struck struck' ((gap_iff nonzero placed slot gap).mp next)
      ((gap_iff nonzero placed slot' gap').mp next')

/-- Three hits over eight slots. -/
theorem tresillo_even :
    ∃ events, evalNorm (.euclid 3 8 I32.zero (.name ['k'] none)) 0 = .ok events ∧ (Onsets 8 events).ncard = 3 := by
  obtain ⟨events, -, done, -, -, count, -⟩ :=
    euclid_even 3 8 I32.zero ['k'] none 0 (by decide) (by decide)
  exact ⟨events, done, count⟩

end Audec.PatternLang

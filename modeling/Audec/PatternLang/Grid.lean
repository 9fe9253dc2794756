import Audec.PatternLang.Placement
import Audec.PatternLang.Realize

/-! The grid of a realized pattern: rounded ticks, the coarsest exact spacing, and the steps on it. -/

open List

namespace Audec.PatternLang

open Machine Checked FloatDebug
open Std (ExtTreeMap)

/-- Events start before the end of the cycle, wherever they end. -/
def StartsInside (events : List AbstractEvent) : Prop := ∀ event ∈ events, event.position.value < 1

variable {events : List AbstractEvent} {cycleIndex cycleTicks : U64} {factor : U32}
  {inner : U64 → Eval (List AbstractEvent)} {position : Rational}

theorem startsInside_of_within (within : ∀ event ∈ events, Within 0 1 event) :
    StartsInside events := by
  intro event member
  obtain ⟨-, positive, ends⟩ := within event member
  linarith

theorem startsInside_of_places {result : List AbstractEvent}
    (same : result.map AbstractEvent.place = events.map AbstractEvent.place) (inside : StartsInside events) :
    StartsInside result := by
  intro event member
  have listed : event.place ∈ events.map AbstractEvent.place := same ▸ mem_map_of_mem member
  obtain ⟨source, present, place⟩ := mem_map.mp listed
  rw [← (Prod.mk.inj place).1]
  exact inside source present

theorem evalFast_startsInside
    (all : ∀ copy events, inner (fastCycle cycleIndex factor copy) = .ok events → StartsInside events)
    (done : evalFast cycleIndex factor inner = .ok events) : StartsInside events := by
  intro event member
  obtain ⟨copy, innerEvents, source, share, made⟩ := mem_evalFast done member
  have before := all copy innerEvents made.evaluated source made.present
  have below : (copy : ℚ) + 1 ≤ factor.val := by exact_mod_cast made.below
  have sharePos := made.positive
  have ends : share * (copy + source.position.value) < 1 := by
    rw [← made.whole]
    nlinarith
  rw [made.position ends.le]
  exact ends

theorem evalSlow_startsInside
    (done : evalSlow cycleIndex factor inner = .ok events) : StartsInside events := by
  simp only [evalSlow, bind_ok] at done
  obtain ⟨_, valid, innerEvents, -, windowStart, startIs, windowEnd, endIs, mapped⟩ := done
  have valid := ensure_ok.mp valid
  intro event member
  obtain ⟨source, present, played⟩ := mem_mapM mapped member
  simp only [bind_ok] at played
  obtain ⟨⟨position, width⟩, magnified, confined, -, played⟩ := played
  cases played
  exact (magnify_value valid startIs endIs (of_mem_filter present) magnified).1

mutual

theorem evalNorm_startsInside : ∀ (expr : PatternExpr) (cycleIndex : U64) (events : List AbstractEvent),
    evalNorm expr cycleIndex = .ok events → StartsInside events
  | .swing _ _, _, events, done => by
    rw [evalNorm] at done
    cases done
  | .seq steps, cycleIndex, events, done =>
    startsInside_of_within (evalNorm_within (.seq steps) cycleIndex (by rw [WindowsFit]; trivial) events done)
  | .euclid hits slots rotation element, cycleIndex, events, done =>
    startsInside_of_within
      (evalNorm_within (.euclid hits slots rotation element) cycleIndex (by rw [WindowsFit]; trivial) events done)
  | .stack members, cycleIndex, events, done => by
    rw [evalNorm, bind_ok] at done
    obtain ⟨_, -, done⟩ := done
    exact evalMembers_startsInside members cycleIndex events done
  | .every period offset transform inner, cycleIndex, events, done => by
    simp only [evalNorm, bind_ok] at done
    obtain ⟨_, -, innerEvents, evaluated, done⟩ := done
    have inside := evalNorm_startsInside inner cycleIndex innerEvents evaluated
    split at done
    · exact startsInside_of_places (applyTransform_places done) inside
    · cases done
      exact inside
  | .rotate steps inner, cycleIndex, events, done => by
    simp only [evalNorm, bind_ok] at done
    obtain ⟨innerEvents, evaluated, done⟩ := done
    exact startsInside_of_places (rotatePayloads_places done) (evalNorm_startsInside inner cycleIndex innerEvents evaluated)
  | .fast factor inner, cycleIndex, events, done => by
    rw [evalNorm] at done
    exact evalFast_startsInside (fun copy events done => evalNorm_startsInside inner _ events done) done
  | .slow factor inner, cycleIndex, events, done => by
    rw [evalNorm] at done
    exact evalSlow_startsInside done
  | .gain linear inner, cycleIndex, events, done => by
    simp only [evalNorm, bind_ok] at done
    obtain ⟨_, -, innerEvents, evaluated, done⟩ := done
    cases done
    exact startsInside_of_places (by rw [map_map]; rfl) (evalNorm_startsInside inner cycleIndex innerEvents evaluated)
  | .degrade probability inner, cycleIndex, events, done => by
    simp only [evalNorm, bind_ok] at done
    obtain ⟨_, -, innerEvents, evaluated, done⟩ := done
    cases done
    exact startsInside_of_places (by rw [map_map]; rfl) (evalNorm_startsInside inner cycleIndex innerEvents evaluated)

theorem evalMembers_startsInside : ∀ (members : List PatternExpr) (cycleIndex : U64) (events : List AbstractEvent),
    evalMembers members cycleIndex = .ok events → StartsInside events
  | [], _, events, done => by
    rw [evalMembers] at done
    cases done
    simp [StartsInside]
  | member :: rest, cycleIndex, events, done => by
    simp only [evalMembers, bind_ok] at done
    obtain ⟨first, evaluated, later, remaining, done⟩ := done
    cases done
    exact forall_mem_append.mpr ⟨evalNorm_startsInside member cycleIndex first evaluated,
      evalMembers_startsInside rest cycleIndex later remaining⟩

end

def nearestTick (cycleTicks : U64) (position : Rational) : Nat := ⌊position.value * cycleTicks.val + 1 / 2⌋₊

theorem roundTicks_nearest {fraction : Rational} {tick : Nat} {lost : List PatternEvalDiagnostic}
    (done : roundTicks fraction cycleTicks = .ok (tick, lost)) :
    tick = nearestTick cycleTicks fraction ∧ tick ≤ 0x7fffffffffffffff := by
  have positive := fraction.positive
  have rational := fraction.denominator_pos
  set numerator := fraction.numerator.val * cycleTicks.val with numeratorIs
  have scaled : fraction.value * cycleTicks.val = (numerator : ℚ) / fraction.denominator.val := by
    rw [Rational.value, div_mul_eq_mul_div, numeratorIs, Nat.cast_mul]
  have halves : nearestTick cycleTicks fraction = (2 * numerator + fraction.denominator.val) / (2 * fraction.denominator.val) := by
    have sum : fraction.value * cycleTicks.val + 1 / 2 =
        ((2 * numerator + fraction.denominator.val : Nat) : ℚ) / ((2 * fraction.denominator.val : Nat) : ℚ) := by
      rw [scaled]
      push_cast
      field_simp
    rw [nearestTick, sum, Nat.floor_div_eq_div]
  have split := Nat.div_add_mod numerator fraction.denominator.val
  have below := Nat.mod_lt numerator positive
  have rounds : ∀ quotient remainder, fraction.denominator.val * quotient + remainder = numerator →
      remainder < fraction.denominator.val →
      (2 * numerator + fraction.denominator.val) / (2 * fraction.denominator.val) =
        if fraction.denominator.val ≤ remainder * 2 then quotient + 1 else quotient := by
    intro quotient remainder whole short
    have twice : 2 * numerator + fraction.denominator.val =
        2 * fraction.denominator.val * quotient + (2 * remainder + fraction.denominator.val) := by
      rw [← whole]
      ring
    rw [twice, Nat.mul_add_div (by omega)]
    split
    · have half : (2 * remainder + fraction.denominator.val) / (2 * fraction.denominator.val) = 1 :=
        Nat.div_eq_of_lt_le (by omega) (by omega)
      rw [half]
    · rw [Nat.div_eq_of_lt (by omega), Nat.add_zero]
  have chosen := rounds _ _ split below
  rw [halves, chosen]
  unfold roundTicks at done
  dsimp only at done
  rw [← numeratorIs] at done
  by_cases late : fraction.denominator.val ≤ numerator % fraction.denominator.val * 2
  · rw [if_pos late]
    simp only [if_pos late] at done
    split at done
    · cases done
    · rename_i small
      split at done
      · cases done
        exact ⟨rfl, not_lt.mp small⟩
      · cases done
        exact ⟨rfl, not_lt.mp small⟩
  · rw [if_neg late]
    simp only [if_neg late] at done
    split at done
    · cases done
    · rename_i small
      split at done
      · cases done
        exact ⟨rfl, not_lt.mp small⟩
      · cases done
        exact ⟨rfl, not_lt.mp small⟩

theorem nearestTick_le (inside : position.value < 1) :
    nearestTick cycleTicks position ≤ cycleTicks.val := by
  have length : (0 : ℚ) ≤ cycleTicks.val := Nat.cast_nonneg _
  have below : position.value * cycleTicks.val + 1 / 2 < (cycleTicks.val + 1 : Nat) := by
    push_cast
    nlinarith [mul_le_mul_of_nonneg_right inside.le length]
  have := (Nat.floor_lt' (by omega)).mpr below
  unfold nearestTick
  omega

theorem nearestTick_lt_iff (positive : cycleTicks.val ≠ 0) :
    nearestTick cycleTicks position < cycleTicks.val ↔ position.value * cycleTicks.val + 1 / 2 < cycleTicks.val :=
  Nat.floor_lt' positive

def commonDivisor (cycleTicks : Nat) (ticks : List Nat) : Nat := ticks.foldl Nat.gcd cycleTicks

theorem commonDivisor_dvd (cycleTicks : Nat) (ticks : List Nat) :
    commonDivisor cycleTicks ticks ∣ cycleTicks ∧ ∀ tick ∈ ticks, commonDivisor cycleTicks ticks ∣ tick := by
  induction ticks generalizing cycleTicks with
  | nil => exact ⟨dvd_rfl, by simp⟩
  | cons tick ticks tail =>
    obtain ⟨front, back⟩ := tail (Nat.gcd cycleTicks tick)
    refine ⟨front.trans (Nat.gcd_dvd_left _ _), forall_mem_cons.mpr ⟨front.trans (Nat.gcd_dvd_right _ _), back⟩⟩

theorem gridGcd_eq {cycleTicks : Nat} (positive : 0 < cycleTicks) (placed : List Placed) :
    gridGcd cycleTicks placed = commonDivisor cycleTicks (placed.map Placed.tick) := by
  rw [gridGcd, commonDivisor, foldl_map]
  refine max_eq_left ?_
  have divides := (commonDivisor_dvd cycleTicks (placed.map Placed.tick)).1
  rw [commonDivisor, foldl_map] at divides
  exact Nat.pos_of_dvd_of_pos divides positive

structure OnGrid (cycleTicks : Nat) (placed : List Placed) : Prop where
  positive : 0 < cycleTicks
  reach : ∀ event ∈ placed, event.tick ≤ cycleTicks

section Grid

variable {cycleTicks : Nat} {placed : List Placed} (onGrid : OnGrid cycleTicks placed)

include onGrid

theorem chooseGrid_pos : 0 < (chooseGrid cycleTicks placed).1 ∧ (chooseGrid cycleTicks placed).1 ≤ cycleTicks := by
  have divides := (commonDivisor_dvd cycleTicks (placed.map Placed.tick)).1
  have positive := onGrid.positive
  unfold chooseGrid
  split
  · rw [gridGcd_eq positive]
    exact ⟨Nat.pos_of_dvd_of_pos divides positive, Nat.le_of_dvd positive divides⟩
  · have := Nat.div_le_self cycleTicks fallbackSteps
    constructor
    · exact lt_of_lt_of_le Nat.one_pos (le_max_right _ _)
    · exact max_le this positive

theorem stepIndex_exact (exact : cycleTicks / gridGcd cycleTicks placed ≤ maxExactSteps) {event : Placed}
    (member : event ∈ placed) :
    stepIndex (chooseGrid cycleTicks placed) event.tick * (chooseGrid cycleTicks placed).1 = event.tick := by
  have positive := (chooseGrid_pos onGrid).1
  have chosen : chooseGrid cycleTicks placed = (gridGcd cycleTicks placed, false) := if_pos exact
  rw [chosen] at positive ⊢
  have divides := (commonDivisor_dvd cycleTicks (placed.map Placed.tick)).2 event.tick (mem_map_of_mem member)
  rw [← gridGcd_eq onGrid.positive] at divides
  have few : event.tick / gridGcd cycleTicks placed ≤ maxExactSteps :=
    (Nat.div_le_div_right (onGrid.reach event member)).trans exact
  have small : min (event.tick / gridGcd cycleTicks placed) 0xffffffff = event.tick / gridGcd cycleTicks placed := by
    rw [maxExactSteps] at few
    omega
  change min (event.tick / gridGcd cycleTicks placed) 0xffffffff * gridGcd cycleTicks placed = event.tick
  rw [small, Nat.div_mul_cancel divides]

omit onGrid in
theorem stepIndex_fallback (inexact : ¬ cycleTicks / gridGcd cycleTicks placed ≤ maxExactSteps) (tick : Nat) :
    stepIndex (chooseGrid cycleTicks placed) tick * (chooseGrid cycleTicks placed).1 < cycleTicks := by
  have chosen : chooseGrid cycleTicks placed = (max (cycleTicks / fallbackSteps) 1, true) := if_neg inexact
  have long : maxExactSteps < cycleTicks := lt_of_lt_of_le (not_le.mp inexact) (Nat.div_le_self _ _)
  rw [chosen]
  change min (min (tick / max (cycleTicks / fallbackSteps) 1) 0xffffffff) (fallbackSteps - 1) *
    max (cycleTicks / fallbackSteps) 1 < cycleTicks
  have wide : max (cycleTicks / fallbackSteps) 1 = cycleTicks / fallbackSteps := by
    rw [maxExactSteps] at long
    rw [fallbackSteps]
    omega
  rw [wide]
  have index : min (min (tick / (cycleTicks / fallbackSteps)) 0xffffffff) (fallbackSteps - 1) ≤ 15 := by
    rw [fallbackSteps]
    omega
  have whole := Nat.div_mul_le_self cycleTicks fallbackSteps
  have scaled := Nat.mul_le_mul_right (cycleTicks / fallbackSteps) index
  rw [maxExactSteps] at long
  rw [fallbackSteps] at *
  omega

theorem stepIndex_inside_iff :
    (∀ event ∈ placed, stepIndex (chooseGrid cycleTicks placed) event.tick * (chooseGrid cycleTicks placed).1 < cycleTicks) ↔
      (∀ event ∈ placed, event.tick < cycleTicks) ∨
        maxExactSteps < cycleTicks / commonDivisor cycleTicks (placed.map Placed.tick) := by
  rw [← gridGcd_eq onGrid.positive]
  by_cases exact : cycleTicks / gridGcd cycleTicks placed ≤ maxExactSteps
  · have not : ¬ maxExactSteps < cycleTicks / gridGcd cycleTicks placed := not_lt.mpr exact
    simp only [not, or_false]
    refine forall₂_congr fun event member => ?_
    rw [stepIndex_exact onGrid exact member]
  · exact iff_of_true (fun event _ => stepIndex_fallback exact event.tick) (Or.inr (not_le.mp exact))

end Grid

end Audec.PatternLang

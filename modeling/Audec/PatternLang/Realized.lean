import Audec.PatternLang.Grid

/-! The steps of a realized pattern stand where their events round to, on the coarsest exact grid there is. -/

open List Entries

namespace Audec.PatternLang

open Machine Checked FloatDebug
open Std (ExtTreeMap)

namespace Lanes

def Holds (lanes : Lanes) (name : Text) (index : U32) (step : StepEvent) : Prop :=
  ∃ steps, lanes[name]? = some steps ∧ steps[index]? = some step

variable {index : U32} {step : StepEvent}

theorem holds_empty {name : Text} : ¬ Holds ∅ name index step := by
  rintro ⟨steps, held, -⟩
  rw [ExtTreeMap.getElem?_empty] at held
  cases held

theorem holds_insert {lanes : Lanes} {name other : Text} {steps : ExtTreeMap U32 StepEvent}
    :
    Holds (lanes.insert name steps) other index step ↔
      if name = other then steps[index]? = some step else Holds lanes other index step := by
  unfold Holds
  rw [lookup_insert]
  split
  · simp
  · rfl

theorem holds_same {lanes : Lanes} {name : Text} :
    Holds lanes name index step ↔ (lanes[name]?.getD ∅)[index]? = some step := by
  unfold Holds
  cases lanes[name]? with
  | none => simp
  | some steps => simp

end Lanes

structure Lays (grid : Nat × Bool) (event : Placed) (name : Text) (index : U32) (step : StepEvent) : Prop where
  lane : name = event.lane
  place : index.val = stepIndex grid event.tick
  tick : index.val * grid.1 + step.microOffset.val = event.tick

theorem stepIndex_lt (grid : Nat × Bool) (tick : Nat) : stepIndex grid tick < 0x100000000 := by
  unfold stepIndex
  dsimp only
  split <;> omega

theorem toI32_ok {value : Int} {result : I32} (done : toI32 value = .ok result) : result.val = value := by
  unfold toI32 at done
  split at done
  · cases done
    rfl
  · cases done

variable {grid : Nat × Bool} {lanes : Lanes} {bindings : ExtTreeMap Text TriggerTarget} {name : Text}
  {placed : List Placed} {context : EvalContext} {cycle : U64} {events : List AbstractEvent}

variable {after played : Lanes} {index : U32} {other : Text} {step : StepEvent} {id : U64} {lane : StepLane}
  {patternLanes : List (U64 × StepLane)} {results : List (Placed × List PatternEvalDiagnostic)}

theorem lay_ok {event : Placed} (done : lay grid lanes event = .ok after) :
    ∃ index step, Lays grid event event.lane index step ∧ (∀ earlier, ¬ Lanes.Holds lanes event.lane index earlier) ∧
      ∀ name key other, Lanes.Holds after name key other ↔
        Lanes.Holds lanes name key other ∨ (name = event.lane ∧ key = index ∧ other = step) := by
  simp only [lay, bind_ok] at done
  obtain ⟨micro, fits, _, free, done⟩ := done
  have free := ensure_ok.mp free
  cases done
  have place : (Fin.ofNat 0x100000000 (stepIndex grid event.tick)).val = stepIndex grid event.tick :=
    Nat.mod_eq_of_lt (stepIndex_lt grid event.tick)
  generalize (Fin.ofNat 0x100000000 (stepIndex grid event.tick) : U32) = index at place free ⊢
  have free : ∀ earlier, ¬ Lanes.Holds lanes event.lane index earlier := by
    intro earlier held
    rw [Lanes.holds_same.mp held] at free
    cases free
  refine ⟨index, ⟨event.velocity, event.probability, micro, Fin.ofNat _ event.gate, event.ratchets, 0.0, 0.0⟩,
    ⟨rfl, place, ?_⟩, free, fun name key other => ?_⟩
  · rw [place, toI32_ok fits]
    omega
  · rw [Lanes.holds_insert]
    by_cases same : event.lane = name
    · subst same
      rw [if_pos rfl, lookup_insert, Lanes.holds_same]
      by_cases here : index = key
      · subst here
        have nothing : (lanes[event.lane]?.getD ∅)[index]? = none :=
          Option.eq_none_iff_forall_ne_some.mpr fun earlier held => free earlier (Lanes.holds_same.mpr held)
        rw [if_pos rfl, nothing]
        simp [eq_comm]
      · rw [if_neg here]
        simp [Ne.symm here]
    · rw [if_neg same]
      simp [Ne.symm same]

theorem retain_ok
    (done : retain bindings lanes name = .ok after) :
    (∃ target, bindings[name]? = some target) ∧ after = lanes.insert name (lanes[name]?.getD ∅) := by
  simp only [retain, bind_ok] at done
  obtain ⟨_, bound, done⟩ := done
  have bound := ensure_ok.mp bound
  cases done
  exact ⟨Option.isSome_iff_exists.mp bound, rfl⟩

/-- A lane that is kept although nothing plays on it adds no step. -/
theorem retain_holds
    (done : retain bindings lanes name = .ok after) :
    Lanes.Holds after other index step ↔ Lanes.Holds lanes other index step := by
  rw [(retain_ok done).2, Lanes.holds_insert]
  split
  · rename_i same
    rw [← same, ← Lanes.holds_same]
  · rfl

theorem laid_holds
    (done : placed.foldlM (lay grid) ∅ = .ok played) :
    (∀ name index step, Lanes.Holds played name index step → ∃ event ∈ placed, Lays grid event name index step) ∧
      ∀ event ∈ placed, ∃ index step, Lanes.Holds played event.lane index step ∧ Lays grid event event.lane index step := by
  constructor
  · refine foldlM_keeps
      (fun lanes => ∀ name index step, Lanes.Holds lanes name index step → ∃ event ∈ placed, Lays grid event name index step)
      ?_ (fun name index step held => absurd held Lanes.holds_empty) done
    intro before event after member sound laid name index step held
    obtain ⟨index', step', lays, -, same⟩ := lay_ok laid
    rcases (same name index step).mp held with held | ⟨rfl, rfl, rfl⟩
    · exact sound name index step held
    · exact ⟨event, member, lays⟩
  · intro event member
    refine foldlM_reaches
      (fun lanes => ∃ index step, Lanes.Holds lanes event.lane index step ∧ Lays grid event event.lane index step)
      member ?_ ?_ done
    · rintro before other after ⟨index, step, held, lays⟩ laid
      obtain ⟨_, _, -, -, same⟩ := lay_ok laid
      exact ⟨index, step, (same _ _ _).mpr (.inl held), lays⟩
    · intro before after laid
      obtain ⟨index, step, lays, -, same⟩ := lay_ok laid
      exact ⟨index, step, (same _ _ _).mpr (.inr ⟨rfl, rfl, rfl⟩), lays⟩

structure Identifies (bindings : ExtTreeMap Text TriggerTarget) (name : Text) (id : U64) (lane : StepLane) : Prop where
  id_eq : id.val = bindings.keys.idxOf name + 1
  bound : name ∈ bindings.keys
  lane_id : lane.id = id
  lane_name : lane.name = name
  target : bindings[name]? = some lane.target
  choke : lane.chokeGroup = none

theorem toLane_ok {entry : Text × ExtTreeMap U32 StepEvent} {result : U64 × StepLane}
    (done : toLane context.bindings entry = .ok result) :
    Identifies context.bindings entry.1 result.1 result.2 ∧ result.2.steps = entry.2 := by
  unfold toLane at done
  split at done
  · rename_i target ordinal found place
    cases done
    have bound : entry.1 ∈ context.bindings.keys := by
      rw [ExtTreeMap.mem_keys, ExtTreeMap.mem_iff_isSome_getElem?, found]
      rfl
    have ordinalIs : context.bindings.keys.idxOf entry.1 = ordinal := by
      rw [idxOf_eq_getD_idxOf?, place]
      rfl
    have inside := idxOf_lt_length_of_mem bound
    rw [ExtTreeMap.length_keys, ordinalIs] at inside
    have countable := context.countable
    refine ⟨⟨?_, bound, rfl, rfl, found, rfl⟩, rfl⟩
    rw [ordinalIs]
    exact Nat.mod_eq_of_lt (by omega)
  · cases done

theorem Identifies.name_eq {lane' : StepLane}
    (here : Identifies bindings name id lane) (there : Identifies bindings other id lane') : name = other := by
  have same := here.id_eq.symm.trans there.id_eq
  exact (idxOf_inj here.bound).mp (by omega)

theorem collect_lanes
    (done : lanes.toList.mapM (toLane context.bindings) = .ok patternLanes) :
    (Collected.collect patternLanes : ExtTreeMap U64 StepLane)[id]? = some lane ↔
      Identifies context.bindings lane.name id lane ∧ lanes[lane.name]? = some lane.steps := by
  have names : patternLanes.map (fun entry => entry.2.name) = lanes.toList.map Prod.fst := by
    rw [← forall₂_eq_eq_eq, forall₂_map_left_iff, forall₂_map_right_iff]
    exact (mapM_ok.mp done).flip.imp fun _ _ made => (toLane_ok made).1.lane_name
  have distinct : (patternLanes.map Prod.fst).Nodup := by
    have apart : (patternLanes.map fun entry => entry.2.name).Nodup := names ▸ Collected.distinct_keys lanes
    rw [List.Nodup, pairwise_map] at apart ⊢
    refine apart.imp_of_mem fun {a b} first second differ same => ?_
    obtain ⟨entry, -, made⟩ := mem_mapM done first
    obtain ⟨entry', -, made'⟩ := mem_mapM done second
    have here := (toLane_ok made).1
    have there := (toLane_ok made').1
    rw [same] at here
    exact differ (here.lane_name.trans ((here.name_eq there).trans there.lane_name.symm))
  rw [Collected.lookup_collect distinct]
  constructor
  · intro member
    obtain ⟨entry, listed, made⟩ := mem_mapM done member
    obtain ⟨identity, steps⟩ := toLane_ok made
    have name : lane.name = entry.1 := identity.lane_name
    have steps : lane.steps = entry.2 := steps
    rw [name, steps]
    exact ⟨identity, mem_toList.mp listed⟩
  · rintro ⟨identity, held⟩
    obtain ⟨⟨id', lane'⟩, member, made⟩ := mapM_mem done (mem_toList.mpr held)
    obtain ⟨identity', steps⟩ := toLane_ok made
    have sameId : id' = id := Fin.ext (identity'.id_eq.trans identity.id_eq.symm)
    have sameLane : lane' = lane := by
      have target := identity'.target.symm.trans identity.target
      have ids := identity'.lane_id.trans (sameId.trans identity.lane_id.symm)
      have names := identity'.lane_name
      have chokes := identity'.choke.trans identity.choke.symm
      cases lane
      cases lane'
      simp_all
    rw [← sameId, ← sameLane]
    exact member

def StepPattern.Plays (pattern : StepPattern) (name : Text) (index : U32) (step : StepEvent) : Prop :=
  ∃ (id : U64) (lane : StepLane), pattern.lanes[id]? = some lane ∧ lane.name = name ∧ lane.steps[index]? = some step

theorem plays_iff {pattern : StepPattern}
    (collected : pattern.lanes = Collected.collect patternLanes)
    (done : lanes.toList.mapM (toLane context.bindings) = .ok patternLanes)
    : pattern.Plays name index step ↔ Lanes.Holds lanes name index step := by
  unfold StepPattern.Plays
  rw [collected]
  constructor
  · rintro ⟨id, lane, listed, rfl, held⟩
    exact ⟨lane.steps, ((collect_lanes done).mp listed).2, held⟩
  · rintro ⟨steps, listed, held⟩
    obtain ⟨⟨id, lane⟩, -, made⟩ := mapM_mem done (mem_toList.mpr listed)
    obtain ⟨identity, same⟩ := toLane_ok made
    have name : lane.name = name := identity.lane_name
    have same : lane.steps = steps := same
    subst name same
    exact ⟨id, lane, (collect_lanes done).mpr ⟨identity, listed⟩, rfl, held⟩

theorem place_ok {cycleTicks : U64} {event : AbstractEvent} {result : Placed × List PatternEvalDiagnostic}
    (done : place cycleTicks event = .ok result) :
    result.1.lane = event.lane ∧ result.1.tick = nearestTick cycleTicks event.position := by
  simp only [place, bind_ok] at done
  obtain ⟨⟨tick, late⟩, rounded, ⟨gate, long⟩, -, done⟩ := done
  cases done
  exact ⟨rfl, (roundTicks_nearest rounded).1⟩

def nearestTicks (cycleTicks : U64) (events : List AbstractEvent) : List Nat :=
  events.map fun event => nearestTick cycleTicks event.position

structure Realizes (pattern : StepPattern) (cycle : U64) (events : List AbstractEvent) : Prop where
  positive : 0 < pattern.resolution.val
  inside : ∀ name index step, pattern.Plays name index step → index.val * pattern.resolution.val < cycle.val
  sound : ∀ name index step, pattern.Plays name index step → ∃ event ∈ events, event.lane = name ∧
    index.val * pattern.resolution.val + step.microOffset.val = nearestTick cycle event.position
  complete : ∀ event ∈ events, ∃ index step, pattern.Plays event.lane index step ∧
    index.val * pattern.resolution.val + step.microOffset.val = nearestTick cycle event.position
  coarsest : cycle.val / commonDivisor cycle.val (nearestTicks cycle events) ≤ maxExactSteps →
    pattern.resolution.val = commonDivisor cycle.val (nearestTicks cycle events) ∧
      ∀ name index step, pattern.Plays name index step → step.microOffset.val = 0

theorem onGrid_of_placed
    (valid : ¬ (cycle = 0 ∨ 0x7fffffffffffffff < cycle.val)) (inside : StartsInside events)
    (placed : events.mapM (place cycle) = .ok results) : OnGrid cycle.val (results.map Prod.fst) := by
  push Not at valid
  refine ⟨Nat.pos_of_ne_zero fun zero => valid.1 (Fin.ext zero), fun event member => ?_⟩
  obtain ⟨result, listed, rfl⟩ := mem_map.mp member
  obtain ⟨source, present, made⟩ := mem_mapM placed listed
  rw [(place_ok made).2]
  exact nearestTick_le (inside source present)

theorem ticks_of_placed
    (placed : events.mapM (place cycle) = .ok results) :
    (results.map Prod.fst).map Placed.tick = nearestTicks cycle events := by
  rw [map_map, nearestTicks, ← forall₂_eq_eq_eq, forall₂_map_left_iff, forall₂_map_right_iff]
  exact (mapM_ok.mp placed).flip.imp fun _ _ made => (place_ok made).2

theorem resolution_val (onGrid : OnGrid cycle.val placed) :
    (Fin.ofNat 0x10000000000000000 (chooseGrid cycle.val placed).1).val = (chooseGrid cycle.val placed).1 :=
  Nat.mod_eq_of_lt (lt_of_le_of_lt (chooseGrid_pos onGrid).2 cycle.isLt)

theorem laid_inside_iff {cycleTicks : Nat}
    (laid : placed.foldlM (lay grid) ∅ = .ok played) :
    (∀ name index step, Lanes.Holds played name index step → index.val * grid.1 < cycleTicks) ↔
      ∀ event ∈ placed, stepIndex grid event.tick * grid.1 < cycleTicks := by
  obtain ⟨sound, complete⟩ := laid_holds laid
  constructor
  · intro inside event member
    obtain ⟨index, step, held, lays⟩ := complete event member
    rw [← lays.place]
    exact inside event.lane index step held
  · intro inside name index step held
    obtain ⟨event, member, lays⟩ := sound name index step held
    rw [lays.place]
    exact inside event member

theorem placed_before_end_iff
    (nonzero : cycle.val ≠ 0) (ticks : placed.map Placed.tick = nearestTicks cycle events) :
    (∀ event ∈ placed, event.tick < cycle.val) ↔
      ∀ event ∈ events, event.position.value * cycle.val + 1 / 2 < cycle.val := by
  have all : (∀ tick ∈ placed.map Placed.tick, tick < cycle.val) ↔ ∀ tick ∈ nearestTicks cycle events, tick < cycle.val := by
    rw [ticks]
  rw [nearestTicks, forall_mem_map, forall_mem_map] at all
  rw [all]
  refine forall₂_congr fun event _ => ?_
  exact nearestTick_lt_iff nonzero

section Realization

variable {pattern : StepPattern}

theorem realizes_of_inside (onGrid : OnGrid cycle.val (results.map Prod.fst))
    (placed : events.mapM (place cycle) = .ok results)
    (laid : (results.map Prod.fst).foldlM (lay (chooseGrid cycle.val (results.map Prod.fst))) ∅ = .ok played)
    (resolution : pattern.resolution.val = (chooseGrid cycle.val (results.map Prod.fst)).1)
    (plays : ∀ name index step, pattern.Plays name index step ↔ Lanes.Holds played name index step)
    (inside : ∀ name index step, pattern.Plays name index step → index.val * pattern.resolution.val < cycle.val) :
    Realizes pattern cycle events := by
  obtain ⟨sound, complete⟩ := laid_holds laid
  refine ⟨?_, inside, ?_, ?_, ?_⟩
  · rw [resolution]
    exact (chooseGrid_pos onGrid).1
  · intro name index step held
    obtain ⟨event, member, lays⟩ := sound name index step ((plays name index step).mp held)
    obtain ⟨result, listed, rfl⟩ := mem_map.mp member
    obtain ⟨source, present, done⟩ := mem_mapM placed listed
    obtain ⟨lane, tick⟩ := place_ok done
    refine ⟨source, present, ?_, ?_⟩
    · rw [lays.lane, lane]
    · rw [resolution, lays.tick, tick]
  · intro event member
    obtain ⟨result, listed, done⟩ := mapM_mem placed member
    obtain ⟨lane, tick⟩ := place_ok done
    obtain ⟨index, step, held, lays⟩ := complete result.1 (mem_map_of_mem listed)
    rw [lane] at held
    refine ⟨index, step, (plays _ _ _).mpr held, ?_⟩
    rw [resolution, lays.tick, tick]
  · intro few
    rw [← ticks_of_placed placed, ← gridGcd_eq onGrid.positive] at few ⊢
    have exact : chooseGrid cycle.val (results.map Prod.fst) = (gridGcd cycle.val (results.map Prod.fst), false) :=
      if_pos few
    constructor
    · rw [resolution, exact]
    · intro name index step held
      obtain ⟨event, member, lays⟩ := sound name index step ((plays name index step).mp held)
      have begins := stepIndex_exact onGrid few member
      rw [← lays.place] at begins
      have tick := lays.tick
      omega

end Realization

/-- A realized pattern keeps its promises exactly when no event rounds to the end of the cycle, or the grid that
    would be exact has too many steps. -/
theorem realizations_valid_iff (expr : PatternExpr) (context : EvalContext) (output : EvalOutput)
    (done : evalSteps expr context = .ok output) :
    ∃ swing core events, splitSwing expr = .ok (swing, core) ∧ evalNorm core context.cycleIndex = .ok events ∧
      (Realizes output.pattern context.cycle events ↔
        (∀ event ∈ events, event.position.value * context.cycle.val + 1 / 2 < context.cycle.val) ∨
          maxExactSteps < context.cycle.val / commonDivisor context.cycle.val (nearestTicks context.cycle events)) := by
  simp only [evalSteps, bind_ok] at done
  obtain ⟨_, valid, ⟨swing, core⟩, root, events, evaluated, results, placed, played, laid, lanes, retained, patternLanes,
    made, done⟩ := done
  have valid := ensure_ok.mp valid
  have onGrid := onGrid_of_placed valid (evalNorm_startsInside core context.cycleIndex events evaluated) placed
  have ticks := ticks_of_placed placed
  have output_is := (Except.ok.inj done).symm
  have resolution : output.pattern.resolution.val = (chooseGrid context.cycle.val (results.map Prod.fst)).1 := by
    rw [output_is]
    exact resolution_val onGrid
  have plays : ∀ name index step, output.pattern.Plays name index step ↔ Lanes.Holds played name index step := by
    intro name index step
    rw [plays_iff (by rw [output_is]) made]
    refine foldlM_keeps (fun after => Lanes.Holds after name index step ↔ Lanes.Holds played name index step) ?_ Iff.rfl
      retained
    intro before item after _ same kept
    rw [retain_holds kept, same]
  refine ⟨swing, core, events, root, evaluated, ?_⟩
  rw [← placed_before_end_iff onGrid.positive.ne' ticks, ← ticks, ← stepIndex_inside_iff onGrid, ← laid_inside_iff laid,
    ← resolution]
  simp only [← plays]
  exact ⟨Realizes.inside, realizes_of_inside onGrid placed laid resolution plays⟩

def twoPads : EvalContext where
  bindings := (ExtTreeMap.insert ∅ ['a'] (.drumPad 1 0)).insert ['b'] (.drumPad 1 1)
  cycle := 3840
  cycleIndex := 0
  countable := by decide +kernel

theorem two_steps_realized :
    ∃ output swing core events, evalSteps twoSteps twoPads = .ok output ∧ splitSwing twoSteps = .ok (swing, core) ∧
      evalNorm core twoPads.cycleIndex = .ok events ∧
      (Realizes output.pattern twoPads.cycle events ↔
        (∀ event ∈ events, event.position.value * twoPads.cycle.val + 1 / 2 < twoPads.cycle.val) ∨
          maxExactSteps < twoPads.cycle.val / commonDivisor twoPads.cycle.val (nearestTicks twoPads.cycle events)) := by
  obtain ⟨output, done⟩ := exists_of_isOk (show (evalSteps twoSteps twoPads).isOk = true by decide +kernel)
  obtain ⟨swing, core, events, root, evaluated, valid⟩ := realizations_valid_iff twoSteps twoPads output done
  exact ⟨output, swing, core, events, done, root, evaluated, valid⟩

/-- A long step and one that begins less than half a tick before the end of the cycle. -/
def lateStep : PatternExpr := .seq [named ['a'] ⟨7679, 1⟩, named ['b'] ⟨1, 1⟩]

/-- Whether a realization succeeds with a step at the end of its cycle or beyond. -/
def overruns (cycle : U64) : Eval EvalOutput → Bool
  | .ok output => output.pattern.lanes.toList.any fun entry =>
    entry.2.steps.toList.any fun step => cycle.val ≤ step.1.val * output.pattern.resolution.val
  | .error _ => false

theorem exists_of_overruns {realized : Eval EvalOutput} (found : overruns cycle realized = true) :
    ∃ output, realized = .ok output ∧ ∀ events, ¬ Realizes output.pattern cycle events := by
  cases realized with
  | error stop => cases found
  | ok output =>
    refine ⟨output, rfl, fun events realizes => ?_⟩
    obtain ⟨⟨id, lane⟩, listed, found⟩ := any_eq_true.mp found
    obtain ⟨⟨index, step⟩, held, found⟩ := any_eq_true.mp found
    have beyond : cycle.val ≤ index.val * output.pattern.resolution.val := of_decide_eq_true found
    have plays : output.pattern.Plays lane.name index step :=
      ⟨id, lane, mem_toList.mp listed, rfl, mem_toList.mp held⟩
    have inside := realizes.inside lane.name index step plays
    omega

theorem late_step_overruns :
    ¬ ∀ expr context output, evalSteps expr context = .ok output →
      ∃ swing core events, splitSwing expr = .ok (swing, core) ∧ evalNorm core context.cycleIndex = .ok events ∧
        Realizes output.pattern context.cycle events := by
  intro valid
  obtain ⟨output, done, broken⟩ :=
    exists_of_overruns (show overruns twoPads.cycle (evalSteps lateStep twoPads) = true by decide +kernel)
  obtain ⟨_, _, events, -, -, realizes⟩ := valid lateStep twoPads output done
  exact broken events realizes

end Audec.PatternLang

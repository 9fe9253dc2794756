import Audec.PatternLang.Eval
import Audec.Lib.Collected

/-! The step pattern that a term is realized as, on a grid of ticks. -/

namespace Audec.PatternLang

open Machine Checked FloatDebug
open Std (ExtTreeMap ExtTreeSet)

inductive TriggerTarget where
  | instrumentNote (instrument : U64) (key : Fin 0x100)
  | drumPad (rack : U64) (pad : Fin 0x10000)
  | sample (asset : U64)
  | analysisTemplate (index : U64)
  deriving DecidableEq

structure StepEvent where
  velocity : Float32
  probability : Float32
  microOffset : I32
  gate : U64
  ratchets : Fin 0x100
  pitchSemitones : Float32
  pan : Float32

structure StepLane where
  id : U64
  name : Text
  target : TriggerTarget
  chokeGroup : Option U32
  steps : ExtTreeMap U32 StepEvent

structure StepPattern where
  resolution : U64
  swing : Float32
  lanes : ExtTreeMap U64 StepLane

inductive PatternEvalDiagnostic where
  | roundedToTick (atTick : Nat) (errorMilliticks : Nat)
  | ratchetSpacingTruncated (atTick : Nat) (remainderTicks : Nat)

/-- The number of bindings is a `usize`. -/
structure EvalContext where
  bindings : ExtTreeMap Text TriggerTarget
  cycle : U64
  cycleIndex : U64
  countable : bindings.size < 0x10000000000000000

structure EvalOutput where
  pattern : StepPattern
  diagnostics : List PatternEvalDiagnostic

mutual

def collectElementBindings (bindings : ExtTreeSet Text) : Element → ExtTreeSet Text
  | .rest => bindings
  | .name binding variant => bindings.insert (laneKey binding variant)
  | .group steps => collectStepsBindings bindings steps
  | .alternate steps => collectStepsBindings bindings steps

def collectStepsBindings (bindings : ExtTreeSet Text) : List (StepOf Element) → ExtTreeSet Text
  | [] => bindings
  | step :: rest => collectStepsBindings (collectStepBindings bindings step) rest

def collectStepBindings (bindings : ExtTreeSet Text) : StepOf Element → ExtTreeSet Text
  | ⟨element, _, _, _, _, _⟩ => collectElementBindings bindings element

end

mutual

def collectExprBindings (bindings : ExtTreeSet Text) : PatternExpr → ExtTreeSet Text
  | .seq steps => collectStepsBindings bindings steps
  | .stack members => collectMembersBindings bindings members
  | .euclid _ _ _ element => collectElementBindings bindings element
  | .every _ _ _ inner => collectExprBindings bindings inner
  | .rotate _ inner => collectExprBindings bindings inner
  | .fast _ inner => collectExprBindings bindings inner
  | .slow _ inner => collectExprBindings bindings inner
  | .swing _ inner => collectExprBindings bindings inner
  | .gain _ inner => collectExprBindings bindings inner
  | .degrade _ inner => collectExprBindings bindings inner

def collectMembersBindings (bindings : ExtTreeSet Text) : List PatternExpr → ExtTreeSet Text
  | [] => bindings
  | member :: rest => collectMembersBindings (collectExprBindings bindings member) rest

end

/-- Every binding key the term can request on any cycle. -/
def referencedBindings (expr : PatternExpr) : ExtTreeSet Text := collectExprBindings ∅ expr

/-- The nearest tick, the later one of two, and what was lost. -/
def roundTicks (fraction : Rational) (cycleTicks : U64) : Eval (Nat × List PatternEvalDiagnostic) :=
  let numerator := fraction.numerator.val * cycleTicks.val
  let denominator := fraction.denominator.val
  let quotient := numerator / denominator
  let remainder := numerator % denominator
  let rounded : Nat × Nat :=
    if denominator ≤ remainder * 2 then (quotient + 1, denominator - remainder) else (quotient, remainder)
  if 0x7fffffffffffffff < rounded.1 then fails .spanOverflow
  else if rounded.2 = 0 then .ok (rounded.1, [])
  else
    let millis := min (rounded.2 * 1000 / denominator) 0x7fffffff
    .ok (rounded.1, [.roundedToTick rounded.1 (max millis 1)])

structure Placed where
  lane : Text
  tick : Nat
  gate : Nat
  velocity : Float32
  probability : Float32
  ratchets : Fin 0x100

def place (cycleTicks : U64) (event : AbstractEvent) : Eval (Placed × List PatternEvalDiagnostic) := do
  let (tick, late) ← roundTicks event.position cycleTicks
  let (gate, long) ← roundTicks event.width cycleTicks
  let gate := max gate 1
  let remainder := gate % event.ratchets.val
  let truncated : List PatternEvalDiagnostic :=
    if 1 < event.ratchets.val ∧ remainder ≠ 0 then [.ratchetSpacingTruncated tick (min remainder 0xffffffff)] else []
  return (⟨event.lane, tick, gate, event.velocity, event.probability, event.ratchets⟩, late ++ long ++ truncated)

def maxExactSteps : Nat := 64

def fallbackSteps : Nat := 16

def gridGcd (cycleTicks : Nat) (placed : List Placed) : Nat :=
  max (placed.foldl (fun divisor event => Nat.gcd divisor event.tick) cycleTicks) 1

def chooseGrid (cycleTicks : Nat) (placed : List Placed) : Nat × Bool :=
  if cycleTicks / gridGcd cycleTicks placed ≤ maxExactSteps then (gridGcd cycleTicks placed, false)
  else (max (cycleTicks / fallbackSteps) 1, true)

def stepIndex (grid : Nat × Bool) (tick : Nat) : Nat :=
  let index := min (tick / grid.1) 0xffffffff
  if grid.2 then min index (fallbackSteps - 1) else index

/-- `i32::try_from`. -/
def toI32 (value : Int) : Eval I32 :=
  if fits : -0x80000000 ≤ value ∧ value < 0x80000000 then .ok ⟨value, fits.1, fits.2⟩ else fails .spanOverflow

abbrev Lanes := ExtTreeMap Text (ExtTreeMap U32 StepEvent)

def lay (grid : Nat × Bool) (lanes : Lanes) (event : Placed) : Eval Lanes := do
  let index := stepIndex grid event.tick
  let micro ← toI32 (event.tick - index * grid.1)
  let steps := lanes[event.lane]?.getD ∅
  let key : U32 := Fin.ofNat _ index
  check (steps[key]?.isNone = true) (.stepCollision event.lane event.tick)
  let step : StepEvent :=
    { velocity := event.velocity
      probability := event.probability
      microOffset := micro
      gate := Fin.ofNat _ event.gate
      ratchets := event.ratchets
      pitchSemitones := 0.0
      pan := 0.0 }
  return lanes.insert event.lane (steps.insert key step)

def retain (bindings : ExtTreeMap Text TriggerTarget) (lanes : Lanes) (name : Text) : Eval Lanes := do
  check (bindings[name]?.isSome = true) (.unboundName name)
  return lanes.insert name (lanes[name]?.getD ∅)

def toLane (bindings : ExtTreeMap Text TriggerTarget) (entry : Text × ExtTreeMap U32 StepEvent) : Eval (U64 × StepLane) :=
  match bindings[entry.1]?, bindings.keys.idxOf? entry.1 with
  | some target, some ordinal =>
    let id : U64 := Fin.ofNat _ (ordinal + 1)
    .ok (id, { id, name := entry.1, target, chokeGroup := none, steps := entry.2 })
  | _, _ => fails (.unboundName entry.1)

def splitSwing : PatternExpr → Eval (Float32 × PatternExpr)
  | .swing amount inner => do
    check (inUnit amount) (.invalidParameter "swing amount")
    return (amount, inner)
  | other => .ok (0.0, other)

def evalSteps (expr : PatternExpr) (context : EvalContext) : Eval EvalOutput := do
  check (¬ (context.cycle = 0 ∨ 0x7fffffffffffffff < context.cycle.val)) .invalidCycle
  let (swing, core) ← splitSwing expr
  let events ← evalNorm core context.cycleIndex
  let results ← events.mapM (place context.cycle)
  let placed := results.map Prod.fst
  let grid := chooseGrid context.cycle.val placed
  let played ← placed.foldlM (lay grid) ∅
  let lanes ← (referencedBindings expr).toList.foldlM (retain context.bindings) played
  let patternLanes ← lanes.toList.mapM (toLane context.bindings)
  return {
    pattern := { resolution := Fin.ofNat _ grid.1, swing, lanes := Collected.collect patternLanes }
    diagnostics := (results.map Prod.snd).flatten }

end Audec.PatternLang

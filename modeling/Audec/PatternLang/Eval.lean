import Audec.PatternLang.Rational

/-! Evaluation of a term into events over one normalized cycle. -/

namespace Audec.PatternLang

open Machine Checked FloatDebug

/-- One realized event in normalized cycle space. -/
structure AbstractEvent where
  lane : Text
  position : Rational
  width : Rational
  velocity : Float32
  probability : Float32
  ratchets : Fin 0x100

/-- `f32::clamp` to the unit interval: what compares with neither bound stays. -/
def clampUnit (value : Float32) : Float32 :=
  if value < 0.0 then 0.0 else if 1.0 < value then 1.0 else value

def inUnit (value : Float32) : Prop := value.isFinite = true ∧ 0.0 ≤ value ∧ value ≤ 1.0

instance (value : Float32) : Decidable (inUnit value) := inferInstanceAs (Decidable (_ ∧ _))

def check (condition : Prop) [Decidable condition] (error : PatternEvalError) : Eval Unit :=
  ensure condition (.error error)

namespace AbstractEvent

def amplify (linear : Float32) (event : AbstractEvent) : AbstractEvent :=
  { event with velocity := clampUnit (event.velocity * linear) }

def thin (probability : Float32) (event : AbstractEvent) : AbstractEvent :=
  { event with probability := clampUnit (event.probability * probability) }

end AbstractEvent

/-- The part of an event that rotation moves. -/
structure Payload where
  lane : Text
  velocity : Float32
  probability : Float32
  ratchets : Fin 0x100

def AbstractEvent.payload (event : AbstractEvent) : Payload :=
  ⟨event.lane, event.velocity, event.probability, event.ratchets⟩

def AbstractEvent.withPayload (event : AbstractEvent) (payload : Payload) : AbstractEvent :=
  { event with
    lane := payload.lane
    velocity := payload.velocity
    probability := payload.probability
    ratchets := payload.ratchets }

/-- `steps.rem_euclid(count as i32)`, which panics where the quotient does not exist. -/
def remEuclid (steps : I32) (count : Nat) : Eval Nat :=
  let divisor := (I32.wrap count).val
  if divisor = 0 ∨ (divisor = -1 ∧ steps.val = -0x80000000) then .error .panic
  else .ok (steps.val % divisor).toNat

/-- Whether the left event comes first in the order that rotation cycles through. -/
def rotatesBefore (events : List AbstractEvent) (left right : Nat) : Bool :=
  match events[left]?, events[right]? with
  | some a, some b =>
    match (a.position.cmpValue b.position).then (compare a.lane b.lane) with
    | .lt => true
    | .eq => left ≤ right
    | .gt => false
  | _, _ => false

def rotationOrder (events : List AbstractEvent) : List Nat :=
  (List.range events.length).mergeSort (rotatesBefore events)

def takePayload (payloads : List Payload) (shift : Nat) (events : List AbstractEvent) (entry : Nat × Nat) :
    List AbstractEvent :=
  match payloads[(entry.2 + shift) % events.length]? with
  | some payload => events.modify entry.1 fun event => event.withPayload payload
  | none => events

def rotatePayloads (steps : I32) (events : List AbstractEvent) : Eval (List AbstractEvent) :=
  if events.isEmpty then .ok events
  else do
    let shift ← remEuclid steps events.length
    if shift = 0 then return events
    else
      let order := rotationOrder events
      let payloads := order.filterMap fun index => events[index]?.map AbstractEvent.payload
      return order.zipIdx.foldl (takePayload payloads shift) events

def applyTransform (events : List AbstractEvent) : PatternTransform → Eval (List AbstractEvent)
  | .rotate steps => rotatePayloads steps events
  | .gain linear => do
    check (linear.isFinite = true ∧ ¬ linear < 0.0) (.invalidParameter "gain")
    return events.map (AbstractEvent.amplify linear)
  | .degrade probability => do
    check (inUnit probability) (.invalidParameter "degrade probability")
    return events.map (AbstractEvent.thin (1.0 - probability))

/-- The events of an element in a slot of the given start and width, repeated, with a probability and velocity. -/
abbrev Evaluator := Rational → Rational → U32 → Option Float32 → Option Float32 → Eval (List AbstractEvent)

section Sequence

variable {α β : Type}

def totalWeight : Rational → List (StepOf α) → Eval Rational
  | total, [] => .ok total
  | total, step :: rest => do
    check (¬ (step.width.numerator = 0 ∨ step.width.denominator = 0))
      (.invalidRatio step.width.numerator step.width.denominator)
    let weight ← Rational.new (Fin.ofNat _ (step.width.numerator.val * (max step.replicate 1).val))
      (Fin.ofNat _ step.width.denominator.val)
    let total ← total.add weight
    totalWeight total rest

variable (total start width : Rational)

def visitCopies (visit : Rational → Rational → Eval β) (weight fraction : Rational) :
    Nat → Rational → Eval (List β × Rational)
  | 0, cursor => .ok ([], cursor)
  | copies + 1, cursor => do
    let along ← cursor.div total
    let offset ← along.mul width
    let slotStart ← start.add offset
    let slotWidth ← fraction.mul width
    let item ← visit slotStart slotWidth
    let cursor ← cursor.add weight
    let (items, cursor) ← visitCopies visit weight fraction copies cursor
    return (item :: items, cursor)

def visitSteps (visit : StepOf α → Rational → Rational → Eval β) : Rational → List (StepOf α) → Eval (List β)
  | _, [] => .ok []
  | cursor, step :: rest => do
    let weight ← Rational.new (Fin.ofNat _ step.width.numerator.val) (Fin.ofNat _ step.width.denominator.val)
    let fraction ← weight.div total
    let (items, cursor) ← visitCopies total start width (visit step) weight fraction (max step.replicate 1).val cursor
    let later ← visitSteps visit cursor rest
    return items ++ later

/-- Every slot of a sequence over the given extent, in order, with what a visit makes of it. -/
def visitSlots (visit : StepOf α → Rational → Rational → Eval β) (steps : List (StepOf α)) : Eval (List β) := do
  check (¬ steps.isEmpty = true) .emptyPattern
  let total ← totalWeight .zero steps
  visitSteps total start width visit .zero steps

end Sequence

def evalSlot (step : StepOf Evaluator) (slotStart slotWidth : Rational) : Eval (List AbstractEvent) :=
  step.element slotStart slotWidth (max step.repeats 1) step.probability step.velocity

def evalSeq (steps : List (StepOf Evaluator)) (start width : Rational) : Eval (List AbstractEvent) := do
  let events ← visitSlots start width evalSlot steps
  return events.flatten

def evalCopies (slotStart slotWidth : Rational) (copies : Nat)
    (visit : Rational → Rational → Eval (List AbstractEvent)) : Eval (List AbstractEvent) := do
  let parts ← Rational.new (Fin.ofNat _ copies) 1
  let copyWidth ← slotWidth.div parts
  let events ← (List.range copies).mapM fun copy => do
    let offset ← copyWidth.scaleInt copy
    let copyStart ← slotStart.add offset
    visit copyStart copyWidth
  return events.flatten

def laneKey (binding : Text) : Option U32 → Text
  | some variant => binding ++ ':' :: Print.natural variant
  | none => binding

def checkStep (probability velocity : Option Float32) : Eval Unit := do
  check (∀ value ∈ probability, inUnit value) (.invalidParameter "step probability")
  check (∀ value ∈ velocity, inUnit value) (.invalidParameter "step velocity")

def evalName (binding : Text) (variant : Option U32) : Evaluator :=
  fun slotStart slotWidth repeats probability velocity => do
    checkStep probability velocity
    check (¬ 0xff < repeats.val) (.invalidParameter "repeat count")
    return [{
      lane := laneKey binding variant
      position := slotStart
      width := slotWidth
      velocity := velocity.getD 1.0
      probability := probability.getD 1.0
      ratchets := Fin.ofNat _ (max repeats 1).val }]

def evalGroup (steps : List (StepOf Evaluator)) : Evaluator :=
  fun slotStart slotWidth repeats probability velocity => do
    checkStep probability velocity
    let events ← evalCopies slotStart slotWidth (max repeats 1).val (evalSeq steps)
    let thinned := probability.elim events fun value => events.map (AbstractEvent.thin value)
    return velocity.elim thinned fun value => thinned.map (AbstractEvent.amplify value)

/-- Two optional factors that apply together. -/
def combine (outer inner : Option Float32) : Option Float32 :=
  match outer, inner with
  | some outer, some inner => some (outer * inner)
  | some outer, none => some outer
  | none, inner => inner

def saturatingMul (a b : U32) : U32 := Fin.ofNat _ (min (a.val * b.val) 0xffffffff)

def evalAlternate (cycleIndex : U64) (steps : List (StepOf Evaluator)) : Evaluator :=
  fun slotStart slotWidth repeats probability velocity => do
    checkStep probability velocity
    match steps[cycleIndex.val % steps.length]? with
    | none => fails .emptyPattern
    | some chosen =>
      evalCopies slotStart slotWidth (max chosen.replicate 1).val fun copyStart copyWidth =>
        chosen.element copyStart copyWidth (saturatingMul (max chosen.repeats 1) (max repeats 1))
          (combine probability chosen.probability) (combine velocity chosen.velocity)

section Elements

variable (cycleIndex : U64)

mutual

def evalElement : Element → Evaluator
  | .rest => fun _ _ _ probability velocity => do
    checkStep probability velocity
    return []
  | .name binding variant => evalName binding variant
  | .group steps => evalGroup (evaluators steps)
  | .alternate steps => evalAlternate cycleIndex (evaluators steps)

def evaluators : List (StepOf Element) → List (StepOf Evaluator)
  | [] => []
  | step :: rest => evaluatorOf step :: evaluators rest

def evaluatorOf : StepOf Element → StepOf Evaluator
  | ⟨element, width, replicate, repeats, probability, velocity⟩ =>
    ⟨evalElement element, width, replicate, repeats, probability, velocity⟩

end

end Elements

def strikes (hits slots : U32) (rotation : I32) (slot : Nat) : Bool :=
  let rotated := ((slot - rotation.val) % slots.val).toNat
  rotated * hits.val % slots.val < hits.val

def evalEuclid (hits slots : U32) (rotation : I32) (element : Evaluator) : Eval (List AbstractEvent) := do
  check (¬ (slots = 0 ∨ slots < hits)) (.invalidParameter "euclid hits/slots")
  let slotWidth ← Rational.new 1 (Fin.ofNat _ slots.val)
  let events ← ((List.range slots.val).filter (strikes hits slots rotation)).mapM fun slot => do
    let start ← slotWidth.scaleInt slot
    element start slotWidth 1 none none
  return events.flatten

/-- The cycle of the inner term that one of its accelerated copies plays. -/
def fastCycle (cycleIndex : U64) (factor : U32) (copy : Nat) : U64 :=
  Fin.ofNat _ (min (min (cycleIndex.val * factor.val) 0xffffffffffffffff + copy) 0xffffffffffffffff)

def evalFast (cycleIndex : U64) (factor : U32) (inner : U64 → Eval (List AbstractEvent)) :
    Eval (List AbstractEvent) := do
  check (factor ≠ 0) (.invalidParameter "fast factor")
  let copyWidth ← Rational.new 1 (Fin.ofNat _ factor.val)
  let events ← (List.range factor.val).mapM fun copy => do
    let innerEvents ← inner (fastCycle cycleIndex factor copy)
    let start ← copyWidth.scaleInt copy
    innerEvents.mapM fun event => do
      let offset ← event.position.mul copyWidth
      let position ← start.add offset
      let width ← event.width.mul copyWidth
      return { event with position, width }
  return events.flatten

def magnify (windowStart : Rational) (factor : U32) (event : AbstractEvent) : Eval (Rational × Rational) := do
  let offset ← Rational.checked
    (event.position.numerator.val * windowStart.denominator.val -
      windowStart.numerator.val * event.position.denominator.val)
    (event.position.denominator.val * windowStart.denominator.val)
  let position ← offset.scaleInt factor.val
  let width ← event.width.scaleInt factor.val
  return (position, width)

/-- The width that keeps the gate inside the cycle. -/
def confine (position width : Rational) : Eval Rational := do
  let stop ← position.add width
  if stop.cmpValue .one = .gt then
    Rational.checked (position.denominator.val - position.numerator.val) position.denominator.val
  else return width

def startsWithin (windowStart windowEnd : Rational) (event : AbstractEvent) : Bool :=
  ¬ (event.position.cmpValue windowStart = .lt ∨ event.position.cmpValue windowEnd ≠ .lt)

def evalSlow (cycleIndex : U64) (factor : U32) (inner : U64 → Eval (List AbstractEvent)) :
    Eval (List AbstractEvent) := do
  check (factor ≠ 0) (.invalidParameter "slow factor")
  let window := cycleIndex.val % factor.val
  let innerEvents ← inner (Fin.ofNat _ (cycleIndex.val / factor.val))
  let windowStart ← Rational.new (Fin.ofNat _ window) (Fin.ofNat _ factor.val)
  let windowEnd ← Rational.new (Fin.ofNat _ (window + 1)) (Fin.ofNat _ factor.val)
  (innerEvents.filter (startsWithin windowStart windowEnd)).mapM fun event => do
    let (position, width) ← magnify windowStart factor event
    let width ← confine position width
    return { event with position, width }

mutual

def evalNorm : PatternExpr → U64 → Eval (List AbstractEvent)
  | .swing _ _, _ => fails .nestedSwing
  | .seq steps, cycleIndex => evalSeq (evaluators cycleIndex steps) .zero .one
  | .stack members, cycleIndex => do
    check (¬ members.isEmpty = true) .emptyPattern
    evalMembers members cycleIndex
  | .every period offset transform inner, cycleIndex => do
    check (period ≠ 0) (.invalidParameter "every period")
    let events ← evalNorm inner cycleIndex
    if cycleIndex.val % period.val = offset.val % period.val then applyTransform events transform else return events
  | .rotate steps inner, cycleIndex => do
    let events ← evalNorm inner cycleIndex
    rotatePayloads steps events
  | .euclid hits slots rotation element, cycleIndex =>
    evalEuclid hits slots rotation (evalElement cycleIndex element)
  | .fast factor inner, cycleIndex => evalFast cycleIndex factor (evalNorm inner)
  | .slow factor inner, cycleIndex => evalSlow cycleIndex factor (evalNorm inner)
  | .gain linear inner, cycleIndex => do
    check (linear.isFinite = true ∧ ¬ linear < 0.0) (.invalidParameter "gain")
    let events ← evalNorm inner cycleIndex
    return events.map (AbstractEvent.amplify linear)
  | .degrade probability inner, cycleIndex => do
    check (inUnit probability) (.invalidParameter "degrade probability")
    let events ← evalNorm inner cycleIndex
    return events.map (AbstractEvent.thin (1.0 - probability))

def evalMembers : List PatternExpr → U64 → Eval (List AbstractEvent)
  | [], _ => .ok []
  | member :: rest, cycleIndex => do
    let events ← evalNorm member cycleIndex
    let later ← evalMembers rest cycleIndex
    return events ++ later

end

end Audec.PatternLang

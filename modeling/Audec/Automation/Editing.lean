import Audec.Lib.SortedSlice
import Audec.Automation.Model

/-! Edits of a lane: its points are inserted, removed, pasted, moved in time, scaled and thinned out. -/

open Machine Checked SortedSlice
open Std (ExtTreeMap)

namespace Audec.Automation

open Float.Model (UnpackedFloat)

/-- `f64::mul_add`: the exact product and sum, rounded once. -/
def mulAdd (a b c : Float) : Float :=
  match a.toModel.unpack, b.toModel.unpack, c.toModel.unpack with
  | .finite s m e _, .finite s' m' e' _, .finite t n f _ =>
    let exponent := min (e + e') f
    let product := (UnpackedFloat.decreaseExponent (m * m') (e + e') exponent).1
    let addend := (UnpackedFloat.decreaseExponent n f exponent).1
    .ofModel (.pack (UnpackedFloat.normalize .binary64 ((s * s').apply product + t.apply addend) exponent .positive))
  | .finite _ _ _ _, .finite _ _ _ _, .zero _ => a * b
  | .finite _ _ _ _, .finite _ _ _ _, .infinity _ => c
  | _, _, _ => a * b + c

def clamp (value minimum maximum : Float) : Float :=
  let value := if value < minimum then minimum else value
  if maximum < value then maximum else value

/-- The range of a valid descriptor is not empty; `clamp` panics on another. -/
def ParameterDescriptor.constrain (descriptor : ParameterDescriptor) (value : Float) : Float :=
  let value := if value.isFinite then clamp value descriptor.minimum descriptor.maximum else descriptor.default
  match descriptor.mapping with
  | .stepped values =>
    let intervals := Float.ofNat (values - 1).val
    let normalized := (value - descriptor.minimum) / (descriptor.maximum - descriptor.minimum)
    descriptor.minimum + (mulAdd normalized intervals 0.0).round / intervals * (descriptor.maximum - descriptor.minimum)
  | _ => value

structure ClipboardPoint where
  offset : I64
  value : Float
  outgoing : SegmentShape

structure AutomationClipboard where
  domain : TimeDomain
  duration : I64
  points : List ClipboardPoint

namespace AutomationClipboard

def validPoint (clipboard : AutomationClipboard) (point : ClipboardPoint) : Bool :=
  decide (0 ≤ point.offset.val) && decide (point.offset ≤ clipboard.duration) && point.value.isFinite && point.outgoing.isFinite

def isValid (clipboard : AutomationClipboard) : Bool :=
  decide (0 ≤ clipboard.duration.val) && clipboard.points.all clipboard.validPoint

end AutomationClipboard

structure ValueScale where
  factor : Float
  offset : Float

def ValueScale.validate (scale : ValueScale) : Except AutomationError Unit :=
  ensure (scale.factor.isFinite = true ∧ scale.offset.isFinite = true) .nonFiniteValue

structure RationalScale where
  numerator : I64
  denominator : I64

def RationalScale.validate (scale : RationalScale) : Except AutomationError Unit :=
  ensure (0 < scale.numerator.val ∧ 0 < scale.denominator.val) .invalidTimeScale

def checkedCoordinate (x : Int) : Except AutomationError I64 :=
  if fits : -0x8000000000000000 ≤ x ∧ x < 0x8000000000000000 then .ok ⟨x, fits.1, fits.2⟩ else .error .timeOverflow

def orderedPair (a b : I64) : I64 × I64 := if a ≤ b then (a, b) else (b, a)

/-- The nearest 128-bit integer. -/
def saturate128 (x : Int) : Int := max (-0x80000000000000000000000000000000) (min x (0x80000000000000000000000000000000 - 1))

def roundRatioTiesAway (numerator denominator : Int) : Int :=
  let quotient := numerator.tdiv denominator
  let remainder := numerator.tmod denominator
  if denominator ≤ saturate128 (|remainder| * 2) then quotient + numerator.sign else quotient

def inRange (range : I64 × I64) (point : AutomationPoint) : Bool := decide (range.1 ≤ point.coordinate ∧ point.coordinate ≤ range.2)

namespace AutomationLane

variable (lane : AutomationLane)

def checkInsert (lane : AutomationLane) (point : AutomationPoint) : Except AutomationError Unit := do
  ensure (point.position.domain = lane.timeDomain) .timeDomainMismatch
  ensure (point.value.isFinite = true) .nonFiniteValue
  point.outgoing.validate
  ensure (∀ existing ∈ lane.points, existing.id ≠ point.id) (.duplicatePointId point.id)

def insertPoint (lane : AutomationLane) (point : AutomationPoint) : Except AutomationError (Option AutomationPoint) × AutomationLane :=
  match lane.checkInsert point with
  | .error error => (.error error, lane)
  | .ok _ =>
    match binarySearchByKey lane.points point.coordinate AutomationPoint.coordinate with
    | .ok index => (.ok lane.points[index]?, { lane with points := lane.points.modify index fun _ => point })
    | .error index => (.ok none, { lane with points := lane.points.insertIdx index point })

def removePoint (lane : AutomationLane) (id : AutomationPointId) : Option AutomationPoint × AutomationLane :=
  match lane.points.findIdx? fun point => point.id = id with
  | none => (none, lane)
  | some index => (lane.points[index]?, { lane with points := lane.points.eraseIdx index })

def pastePoint (position : TimePosition) (scale : ValueScale) (state : AutomationLane × U64) (source : ClipboardPoint) :
    Except AutomationError (AutomationLane × U64) := do
  let coordinate ← checkedCoordinate (position.coordinate.val + source.offset.val)
  let allocated ← allocateId state.2
  let inserted := state.1.insertPoint
    ⟨allocated.1, position.withCoordinate coordinate, mulAdd source.value scale.factor scale.offset, source.outgoing⟩
  let _ ← inserted.1
  return (inserted.2, allocated.2)

/-- The replacement a paste leads to, and the allocator after it. -/
def pasted (lane : AutomationLane) (position : TimePosition) (clipboard : AutomationClipboard) (scale : ValueScale) (nextPointId : U64) :
    Except AutomationError (AutomationLane × U64) := do
  ensure (position.domain = lane.timeDomain ∧ clipboard.domain = lane.timeDomain) .timeDomainMismatch
  ensure (clipboard.isValid = true) .invalidClipboard
  scale.validate
  let stop ← checkedCoordinate (position.coordinate.val + clipboard.duration.val)
  let kept := lane.points.filter fun point => !inRange (position.coordinate, stop) point
  clipboard.points.foldlM (pastePoint position scale) ({ lane with points := kept }, nextPointId)

def paste (lane : AutomationLane) (position : TimePosition) (clipboard : AutomationClipboard) (scale : ValueScale) (nextPointId : U64) :
    Except AutomationError Unit × AutomationLane × U64 :=
  match lane.pasted position clipboard scale nextPointId with
  | .error error => (.error error, lane, nextPointId)
  | .ok (replacement, allocatedThrough) => (.ok (), { lane with points := replacement.points }, allocatedThrough)

/-- Beyond 64 bits, and beyond 128, the error is the same. -/
def scaleCoordinate (origin : I64) (scale : RationalScale) (time : I64) : Except AutomationError I64 := do
  let delta := time.val - origin.val
  let coordinate := origin.val + roundRatioTiesAway (saturate128 (delta * scale.numerator.val)) scale.denominator.val
  ensure (saturate128 coordinate = coordinate) .timeOverflow
  checkedCoordinate coordinate

def scalePoint (range : I64 × I64) (origin : I64) (scale : RationalScale) (point : AutomationPoint) : Except AutomationError AutomationPoint :=
  if inRange range point = true then do
    let coordinate ← scaleCoordinate origin scale point.coordinate
    return { point with position := point.position.withCoordinate coordinate }
  else .ok point

def scaledTime (start stop origin : TimePosition) (scale : RationalScale) :
    Except AutomationError (List AutomationPoint) := do
  ensure (start.domain = lane.timeDomain ∧ stop.domain = lane.timeDomain ∧ origin.domain = lane.timeDomain) .timeDomainMismatch
  scale.validate
  let replacement ← lane.points.mapM (scalePoint (orderedPair start.coordinate stop.coordinate) origin.coordinate scale)
  let sorted := replacement.mergeSort fun point later => decide (point.coordinate ≤ later.coordinate)
  ensure (sorted.IsChain fun point later => point.coordinate < later.coordinate) .pointCollision
  return sorted

def scaleTime (start stop origin : TimePosition) (scale : RationalScale) :
    Except AutomationError Unit × AutomationLane :=
  match lane.scaledTime start stop origin scale with
  | .error error => (.error error, lane)
  | .ok points => (.ok (), { lane with points })

def checkScaleValues (start stop : TimePosition) (scale : ValueScale) : Except AutomationError Unit := do
  ensure (start.domain = lane.timeDomain ∧ stop.domain = lane.timeDomain) .timeDomainMismatch
  scale.validate

def scaleValue (range : I64 × I64) (scale : ValueScale) (descriptor : ParameterDescriptor) (point : AutomationPoint) : AutomationPoint :=
  if inRange range point = true then { point with value := descriptor.constrain (mulAdd point.value scale.factor scale.offset) } else point

def scaleValues (lane : AutomationLane) (start stop : TimePosition) (scale : ValueScale) (descriptor : ParameterDescriptor) :
    Except AutomationError Unit × AutomationLane :=
  match lane.checkScaleValues start stop scale with
  | .error error => (.error error, lane)
  | .ok _ =>
    (.ok (), { lane with points := lane.points.map (scaleValue (orderedPair start.coordinate stop.coordinate) scale descriptor) })

def spanError (a b point : AutomationPoint) : Float :=
  let t0 := Float.ofInt a.coordinate.val
  let width := Float.ofInt (I64.wrap (b.coordinate.val - a.coordinate.val)).val
  let t := (Float.ofInt point.coordinate.val - t0) / width
  let expected := a.value + (b.value - a.value) * t
  (point.value - expected).abs

/-- The index strictly inside a span whose error is the greatest above the tolerance, the first of equals. -/
def furthest (points : List AutomationPoint) (start stop : Nat) (tolerance : Float) : Option Nat :=
  match points[start]?, points[stop]? with
  | some a, some b =>
    ((points.zipIdx.take stop).drop (start + 1)).foldl (fun (found : Option Nat × Float) entry =>
      let error := spanError a b entry.1
      if found.2 < error then (some entry.2, error) else found) (none, tolerance) |>.1
  | _, _ => none

def simplifySpan (points : List AutomationPoint) (tolerance : Float) (start stop : Nat) (keep : List Bool) : List Bool :=
  if stop ≤ start + 1 then keep
  else
    match furthest points start stop tolerance with
    | none => keep
    | some index =>
      if _inside : start < index ∧ index < stop then
        simplifySpan points tolerance index stop (simplifySpan points tolerance start index (keep.set index true))
      else keep
termination_by stop - start

def protectedPoints (points : List AutomationPoint) : List Bool :=
  let ends := ((List.replicate points.length false).set 0 true).set (points.length - 1) true
  (List.range (points.length - 1)).foldl (fun keep index =>
    if (points[index]?.map fun point => point.outgoing == .linear) = some false then (keep.set index true).set (index + 1) true
    else keep) ends

def simplified (points : List AutomationPoint) (tolerance : Float) : List AutomationPoint :=
  let keep := protectedPoints points
  let kept := (keep.zipIdx.filter Prod.fst).map Prod.snd
  let keep := (kept.zip kept.tail).foldl (fun keep pair => simplifySpan points tolerance pair.1 pair.2 keep) keep
  ((points.zip keep).filter Prod.snd).map Prod.fst

def simplify (lane : AutomationLane) (tolerance : Float) : Except AutomationError Nat × AutomationLane :=
  if ¬ (tolerance.isFinite = true ∧ ¬ tolerance < 0.0) then (.error .invalidTolerance, lane)
  else if lane.points.length ≤ 2 then (.ok 0, lane)
  else
    let points := simplified lane.points tolerance
    (.ok (lane.points.length - points.length), { lane with points })

end AutomationLane

namespace AutomationGraph

def allocatePointId (graph : AutomationGraph) : Except AutomationError AutomationPointId × AutomationGraph :=
  match allocateId graph.nextPointId with
  | .error error => (.error error, graph)
  | .ok (id, nextPointId) => (.ok id, { graph with nextPointId })

def insertPoint (graph : AutomationGraph) (id : AutomationLaneId) (position : TimePosition) (value : Float) (outgoing : SegmentShape) :
    Except AutomationError AutomationPointId × AutomationGraph :=
  match graph.allocatePointId with
  | (.error error, graph) => (.error error, graph)
  | (.ok point, graph) =>
    match graph.lanes[id]? with
    | none => (.error (.missingLane id), graph)
    | some lane =>
      let (inserted, lane) := lane.insertPoint ⟨point, position, value, outgoing⟩
      (inserted.map fun _ => point, { graph with lanes := graph.lanes.insert id lane })

def pasteIntoLane (graph : AutomationGraph) (id : AutomationLaneId) (position : TimePosition) (clipboard : AutomationClipboard)
    (scale : ValueScale) : Except AutomationError Unit × AutomationGraph :=
  match graph.lanes[id]? with
  | none => (.error (.missingLane id), graph)
  | some lane =>
    match lane.paste position clipboard scale graph.nextPointId with
    | (.error error, _, _) => (.error error, graph)
    | (.ok _, replacement, nextPointId) =>
      match graph.validateLane replacement with
      | .error error => (.error error, graph)
      | .ok _ => (.ok (), { graph with lanes := graph.lanes.insert id replacement, nextPointId })

end AutomationGraph

end Audec.Automation

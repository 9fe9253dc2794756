import Audec.Lib.ByteReader
import Audec.Lib.Machine
import Audec.Lib.PartialEquality

/-! Automation: parameters of the project, the lanes of points that move them, and the graph of both. -/

open Machine Checked
open Std (ExtTreeMap)

namespace Audec.Automation

abbrev AutomationLaneId := U64
abbrev AutomationPointId := U64

inductive TimeDomain where
  | frames | beats
  deriving DecidableEq

inductive TimePosition where
  | frames (frame : I64)
  | beats (beat : I64)
  deriving DecidableEq

namespace TimePosition

def coordinate : TimePosition → I64
  | .frames value | .beats value => value

def domain : TimePosition → TimeDomain
  | .frames _ => .frames
  | .beats _ => .beats

def withCoordinate (position : TimePosition) (coordinate : I64) : TimePosition :=
  match position with
  | .frames _ => .frames coordinate
  | .beats _ => .beats coordinate

@[simp] theorem coordinate_withCoordinate (position : TimePosition) (coordinate : I64) :
    (position.withCoordinate coordinate).coordinate = coordinate := by
  cases position <;> rfl

@[simp] theorem domain_withCoordinate (position : TimePosition) (coordinate : I64) :
    (position.withCoordinate coordinate).domain = position.domain := by
  cases position <;> rfl

end TimePosition

inductive MixerTarget where
  | busGain (id : U64)
  | busPan (id : U64)
  | busMute (id : U64)
  | sendLevel (id : U64)
  | sendMute (id : U64)
  | insertWet (id : U64)
  | insertBypass (id : U64)
  deriving DecidableEq

inductive ClipParameter where
  | gain | pan
  deriving DecidableEq

inductive ParameterAddress where
  | mixer (target : MixerTarget)
  | plugin (processorId : U64) (key : String)
  | clip (clipId : U64) (parameter : ClipParameter)
  | custom (namespace' entity parameter : String)
  deriving DecidableEq

namespace ParameterAddress

/-- As the derived order compares. -/
def code : ParameterAddress → List Int
  | .mixer (.busGain id) => [0, 0, id.val]
  | .mixer (.busPan id) => [0, 1, id.val]
  | .mixer (.busMute id) => [0, 2, id.val]
  | .mixer (.sendLevel id) => [0, 3, id.val]
  | .mixer (.sendMute id) => [0, 4, id.val]
  | .mixer (.insertWet id) => [0, 5, id.val]
  | .mixer (.insertBypass id) => [0, 6, id.val]
  | .plugin processorId key => 1 :: processorId.val :: Codes.textCode key
  | .clip clipId .gain => [2, clipId.val, 0]
  | .clip clipId .pan => [2, clipId.val, 1]
  | .custom namespace' entity parameter => 3 :: (Codes.textCode namespace' ++ (Codes.textCode entity ++ Codes.textCode parameter))

theorem code_injective : Function.Injective code := by
  intro a b same
  match a, b with
  | .plugin id key, .plugin id' key' =>
    obtain ⟨ids, keys⟩ := List.cons.inj (List.cons.inj same).2
    rw [Codes.val_injective ids, Codes.textCode_delimited.injective keys]
  | .custom first second third, .custom first' second' third' =>
    obtain ⟨firsts, rest⟩ := Codes.textCode_delimited _ _ _ _ (List.cons.inj same).2
    obtain ⟨seconds, rest⟩ := Codes.textCode_delimited _ _ _ _ rest
    rw [firsts, seconds, Codes.textCode_delimited.injective rest]
  | .mixer target, .mixer target' => cases target <;> cases target' <;> simp_all [code, Fin.ext_iff]
  | .clip id parameter, .clip id' parameter' => cases parameter <;> cases parameter' <;> simp_all [code, Fin.ext_iff]
  | .mixer target, .plugin _ _ | .mixer target, .custom _ _ _ => cases target <;> cases same
  | .plugin _ _, .mixer target | .custom _ _ _, .mixer target => cases target <;> cases same
  | .mixer target, .clip _ parameter | .clip _ parameter, .mixer target => cases target <;> cases parameter <;> cases same
  | .clip _ parameter, .plugin _ _ | .clip _ parameter, .custom _ _ _ => cases parameter <;> cases same
  | .plugin _ _, .clip _ parameter | .custom _ _ _, .clip _ parameter => cases parameter <;> cases same
  | .plugin _ _, .custom _ _ _ | .custom _ _ _, .plugin _ _ => cases same

instance linearOrder : LinearOrder ParameterAddress := Codes.codedOrder code code_injective

end ParameterAddress

inductive AutomationError where
  | emptyName | invalidRange | invalidSmoothing | invalidTimeScale | invalidTolerance | invalidClipboard
  | nonFiniteValue | nonFiniteCurve | timeDomainMismatch | targetMismatch | pointsNotStrictlyOrdered
  | duplicatePointId (id : AutomationPointId)
  | missingParameter (address : ParameterAddress)
  | unrenderedParameter (address : ParameterAddress)
  | missingLane (id : AutomationLaneId)
  | pointCollision | timeOverflow | idExhausted | invalidCommand
  | revisionConflict (expected actual : U64)
  | revisionExhausted
  | duplicateParameterChange (address : ParameterAddress)
  | parameterCommandConflict (address : ParameterAddress)
  | duplicateLaneChange (id : AutomationLaneId)
  | commandConflict (id : AutomationLaneId)
  deriving DecidableEq

inductive ParameterUnit where
  | linear | normalized | decibels | hertz | semitones | ratio | percent | frames | seconds | degrees | radians | boolean
  | enumerated (names : List String)
  | custom (name : String)
  deriving DecidableEq

inductive ValueMapping where
  | linear | logarithmic
  | stepped (values : U32)
  deriving DecidableEq

inductive SmoothingPolicy where
  | none
  | linearFrames (frames : U32)
  | onePoleMilliseconds (value : Float)
  deriving BEq

structure ParameterDescriptor where
  address : ParameterAddress
  name : String
  unit : ParameterUnit
  minimum : Float
  maximum : Float
  default : Float
  mapping : ValueMapping
  smoothing : SmoothingPolicy
  deriving BEq

namespace ParameterDescriptor

section

variable (descriptor : ParameterDescriptor)

def validRange : Bool :=
  descriptor.minimum.isFinite && descriptor.maximum.isFinite && descriptor.default.isFinite &&
    !decide (descriptor.maximum ≤ descriptor.minimum) && decide (descriptor.minimum ≤ descriptor.default) &&
    decide (descriptor.default ≤ descriptor.maximum)

def validMapping : Bool :=
  match descriptor.mapping with
  | .logarithmic => !decide (descriptor.minimum ≤ 0.0)
  | .stepped values => decide (2 ≤ values.val)
  | .linear => true

def validSmoothing : Bool :=
  match descriptor.smoothing with
  | .onePoleMilliseconds value => value.isFinite && !decide (value ≤ 0.0)
  | _ => true

def validate : Except AutomationError Unit := do
  ensure (descriptor.name ≠ "") .emptyName
  ensure (descriptor.validRange = true) .invalidRange
  ensure (descriptor.validMapping = true) .invalidRange
  ensure (descriptor.validSmoothing = true) .invalidSmoothing

end

end ParameterDescriptor

inductive SegmentShape where
  | hold | linear | smooth | exponential
  | cubicBezier (outgoingTangent incomingTangent : Float)
  deriving BEq

namespace SegmentShape

def isFinite : SegmentShape → Bool
  | .cubicBezier outgoingTangent incomingTangent => outgoingTangent.isFinite && incomingTangent.isFinite
  | _ => true

def validate (shape : SegmentShape) : Except AutomationError Unit := ensure (shape.isFinite = true) .nonFiniteCurve

end SegmentShape

structure AutomationPoint where
  id : AutomationPointId
  position : TimePosition
  value : Float
  outgoing : SegmentShape
  deriving BEq

def AutomationPoint.coordinate (point : AutomationPoint) : I64 := point.position.coordinate

inductive BindingMode where
  | replace | add | multiply
  deriving DecidableEq

inductive Extrapolation where
  | holdEndpoints | parameterDefault
  deriving DecidableEq

structure AutomationLane where
  id : AutomationLaneId
  name : String
  target : ParameterAddress
  timeDomain : TimeDomain
  binding : BindingMode
  extrapolation : Extrapolation
  enabled : Bool
  points : List AutomationPoint
  deriving BEq

namespace AutomationLane

def new (id : AutomationLaneId) (name : String) (target : ParameterAddress) (timeDomain : TimeDomain) : AutomationLane :=
  ⟨id, name, target, timeDomain, .replace, .holdEndpoints, true, []⟩

/-- The checks of one point, after the coordinate before it and the identities so far. -/
def validatePoint (timeDomain : TimeDomain) (seen : Option I64 × List AutomationPointId) (point : AutomationPoint) :
    Except AutomationError (Option I64 × List AutomationPointId) := do
  ensure (point.position.domain = timeDomain) .timeDomainMismatch
  ensure (point.value.isFinite = true) .nonFiniteValue
  point.outgoing.validate
  ensure (∀ prior ∈ seen.1, prior < point.coordinate) .pointsNotStrictlyOrdered
  ensure (point.id ∉ seen.2) (.duplicatePointId point.id)
  return (some point.coordinate, point.id :: seen.2)

def validate (lane : AutomationLane) (descriptor : ParameterDescriptor) : Except AutomationError Unit := do
  ensure (lane.name ≠ "") .emptyName
  ensure (lane.target = descriptor.address) .targetMismatch
  let _ ← lane.points.foldlM (validatePoint lane.timeDomain) (none, [])
  return ()

end AutomationLane

structure AutomationGraph where
  descriptors : ExtTreeMap ParameterAddress ParameterDescriptor
  lanes : ExtTreeMap AutomationLaneId AutomationLane
  revision : U64
  nextLaneId : U64
  nextPointId : U64

structure ParameterChange where
  before : Option ParameterDescriptor
  after : Option ParameterDescriptor

structure LaneChange where
  before : Option AutomationLane
  after : Option AutomationLane

/-- What a change is about: both sides name it, or one side is missing. -/
def agreed {α κ : Type} [DecidableEq κ] (name : α → κ) : Option α → Option α → Except AutomationError κ
  | some before, some after => if name before = name after then .ok (name before) else .error .invalidCommand
  | some before, none => .ok (name before)
  | none, some after => .ok (name after)
  | none, none => .error .invalidCommand

def ParameterChange.address (change : ParameterChange) : Except AutomationError ParameterAddress :=
  agreed ParameterDescriptor.address change.before change.after

def ParameterChange.validateAfter (change : ParameterChange) : Except AutomationError Unit :=
  match change.after with
  | some after => after.validate
  | none => .ok ()

def LaneChange.id (change : LaneChange) : Except AutomationError AutomationLaneId := agreed AutomationLane.id change.before change.after

structure AutomationCommand where
  label : String
  parameters : List ParameterChange
  changes : List LaneChange

/-- Both lists are taken from the back. -/
def AutomationCommand.inverse (command : AutomationCommand) : AutomationCommand :=
  ⟨command.label, command.parameters.reverse.map fun change => ⟨change.after, change.before⟩,
    command.changes.reverse.map fun change => ⟨change.after, change.before⟩⟩

def allocateId (next : U64) : Except AutomationError (U64 × U64) :=
  if next = 0 ∨ next = 0xffffffffffffffff then .error .idExhausted else .ok (next, next + 1)

def saturatingSucc (count : U64) : U64 := (checkedSucc count).getD count

def advanceAllocatorPast (next used : U64) : U64 := max next (saturatingSucc used)

namespace AutomationGraph

def new : AutomationGraph := ⟨∅, ∅, 0, 1, 1⟩

variable (graph : AutomationGraph)

def validateLane (graph : AutomationGraph) (lane : AutomationLane) : Except AutomationError Unit :=
  match graph.descriptors[lane.target]? with
  | none => .error (.missingParameter lane.target)
  | some descriptor => lane.validate descriptor

def validate (graph : AutomationGraph) : Except AutomationError Unit := do
  graph.descriptors.toList.forM fun entry => entry.2.validate
  graph.lanes.toList.forM fun entry => graph.validateLane entry.2

def registerParameter (graph : AutomationGraph) (descriptor : ParameterDescriptor) :
    Except AutomationError (Option ParameterDescriptor) × AutomationGraph :=
  match descriptor.validate with
  | .error error => (.error error, graph)
  | .ok _ => (.ok graph.descriptors[descriptor.address]?,
      { graph with descriptors := graph.descriptors.insert descriptor.address descriptor })

def checkParameter (changed : List ParameterAddress) (change : ParameterChange) :
    Except AutomationError (List ParameterAddress) := do
  let address ← change.address
  ensure (address ∉ changed) (.duplicateParameterChange address)
  ensure ((graph.descriptors[address]? == change.before) = true) (.parameterCommandConflict address)
  change.validateAfter
  return address :: changed

def checkLane (changed : List AutomationLaneId) (change : LaneChange) :
    Except AutomationError (List AutomationLaneId) := do
  let id ← change.id
  ensure (id ∉ changed) (.duplicateLaneChange id)
  ensure ((graph.lanes[id]? == change.before) = true) (.commandConflict id)
  return id :: changed

def checkRevision (expected : Option U64) : Except AutomationError U64 := do
  match expected with
  | some expected => ensure (graph.revision = expected) (.revisionConflict expected graph.revision)
  | none => .ok ()
  match checkedSucc graph.revision with
  | some next => .ok next
  | none => .error .revisionExhausted

def check (expected : Option U64) (command : AutomationCommand) : Except AutomationError U64 := do
  let nextRevision ← graph.checkRevision expected
  let _ ← command.parameters.foldlM graph.checkParameter []
  let _ ← command.changes.foldlM graph.checkLane []
  return nextRevision

/-- The first pass has made sure that the change names an address. -/
def writeParameter (graph : AutomationGraph) (change : ParameterChange) : AutomationGraph :=
  match change.address, change.after with
  | .ok address, some descriptor => { graph with descriptors := graph.descriptors.insert address descriptor }
  | .ok address, none => { graph with descriptors := graph.descriptors.erase address }
  | .error _, _ => graph

def writeLane (graph : AutomationGraph) (change : LaneChange) : AutomationGraph :=
  match change.id, change.after with
  | .ok id, some lane => { graph with lanes := graph.lanes.insert id lane }
  | .ok id, none => { graph with lanes := graph.lanes.erase id }
  | .error _, _ => graph

def write (command : AutomationCommand) : AutomationGraph :=
  command.changes.foldl writeLane (command.parameters.foldl writeParameter graph)

def advanceLane (change : LaneChange) : AutomationGraph :=
  match change.after with
  | some lane =>
    { graph with
      nextLaneId := advanceAllocatorPast graph.nextLaneId lane.id
      nextPointId := lane.points.foldl (fun next point => advanceAllocatorPast next point.id) graph.nextPointId }
  | none => graph

def advance (command : AutomationCommand) : AutomationGraph := command.changes.foldl advanceLane graph

def applyWithExpected (expected : Option U64) (command : AutomationCommand) :
    Except AutomationError AutomationCommand × AutomationGraph :=
  match graph.check expected command with
  | .error error => (.error error, graph)
  | .ok nextRevision =>
    let written := graph.write command
    match written.validate with
    | .error error => (.error error, { written with descriptors := graph.descriptors, lanes := graph.lanes })
    | .ok _ => (.ok command.inverse, { written.advance command with revision := nextRevision })

def apply (command : AutomationCommand) : Except AutomationError AutomationCommand × AutomationGraph :=
  graph.applyWithExpected none command

end AutomationGraph

/-- Both lists hold the entry to be taken next first. -/
structure AutomationHistory where
  graph : AutomationGraph
  undo : List AutomationCommand
  redo : List AutomationCommand
  limit : Nat

namespace AutomationHistory

def new (graph : AutomationGraph) (limit : Nat) : AutomationHistory := ⟨graph, [], [], limit⟩

section

variable (history : AutomationHistory)

def execute (command : AutomationCommand) : Except AutomationError Unit × AutomationHistory :=
  match history.graph.apply command with
  | (.error error, graph) => (.error error, { history with graph })
  | (.ok inverse, graph) =>
    (.ok (), { history with
      graph
      redo := []
      undo := if 0 < history.limit then (inverse :: history.undo).take history.limit else history.undo })

/-- The entry is off the stack before it is applied, and stays off when that fails. -/
def undoCommand : Except AutomationError Bool × AutomationHistory :=
  match history.undo with
  | [] => (.ok false, history)
  | command :: rest =>
    match history.graph.apply command with
    | (.error error, graph) => (.error error, { history with graph, undo := rest })
    | (.ok redo, graph) => (.ok true, { history with graph, undo := rest, redo := redo :: history.redo })

def redoCommand : Except AutomationError Bool × AutomationHistory :=
  match history.redo with
  | [] => (.ok false, history)
  | command :: rest =>
    match history.graph.apply command with
    | (.error error, graph) => (.error error, { history with graph, redo := rest })
    | (.ok undo, graph) => (.ok true, { history with graph, redo := rest, undo := undo :: history.undo })

end

inductive Action where
  | execute (command : AutomationCommand)
  | undo | redo

def perform (history : AutomationHistory) : Action → AutomationHistory
  | .execute command => (history.execute command).2
  | .undo => history.undoCommand.2
  | .redo => history.redoCommand.2

end AutomationHistory

end Audec.Automation

import Audec.Lib.Checked
import Audec.Lib.Collected
import Audec.Lib.Countdown
import Audec.Lib.DepthFirst

/-! Mixer state: buses with their inserts and routes, and what is computed from the routing alone. -/

open Machine Checked
open Std (ExtTreeMap ExtTreeSet)

namespace Audec.Mixer

abbrev BusId := U64
abbrev NodeId := U64
abbrev SendId := U64
abbrev ProcessorId := U64
abbrev ParameterId := U64

inductive BusKind where
  | source
  | component
  | group
  /-- An auxiliary-effect bus: it receives sends, never a main route. -/
  | return'
  | master
  deriving DecidableEq

structure PluginDescriptor where
  format : String
  identifier : String

structure ProcessorParameter where
  id : ParameterId
  key : String
  normalizedValue : Float32

structure Processor where
  id : ProcessorId
  nodeId : NodeId
  descriptor : PluginDescriptor
  latencySamples : U32
  parameters : ExtTreeMap ParameterId ProcessorParameter

structure InsertSlot where
  processorId : ProcessorId
  bypassed : Bool
  wet : Float32

structure Send where
  id : SendId
  target : BusId
  levelDb : Float32

structure FaderState where
  gainDb : Float32
  pan : Float32
  muted : Bool
  soloed : Bool

structure Bus where
  id : BusId
  nodeId : NodeId
  kind : BusKind
  output : Option BusId
  inserts : List InsertSlot
  sends : List Send
  fader : FaderState

structure MixerGraph where
  buses : ExtTreeMap BusId Bus
  busOrder : List BusId
  processors : ExtTreeMap ProcessorId Processor
  master : BusId

section Routes

inductive RouteKind where
  | main
  | send (id : SendId)
  deriving DecidableEq

structure RouteEdge where
  source : BusId
  target : BusId
  kind : RouteKind
  deriving DecidableEq

def RouteKind.rank : RouteKind → WithBot U64
  | .main => ⊥
  | .send id => id

def RouteEdge.rank (route : RouteEdge) : Lex (BusId × Lex (BusId × WithBot U64)) :=
  toLex (route.source, toLex (route.target, route.kind.rank))

theorem RouteKind.rank_injective : Function.Injective RouteKind.rank := by
  intro kind other same
  cases kind <;> cases other <;> simp_all [RouteKind.rank]

theorem RouteEdge.rank_injective : Function.Injective RouteEdge.rank := by
  rintro ⟨source, target, kind⟩ ⟨source', target', kind'⟩ same
  simp only [RouteEdge.rank, EmbeddingLike.apply_eq_iff_eq, Prod.mk.injEq] at same
  obtain ⟨rfl, rfl, ranked⟩ := same
  rw [RouteKind.rank_injective ranked]

instance routeOrder : LinearOrder RouteEdge := LinearOrder.lift' RouteEdge.rank RouteEdge.rank_injective

def Bus.routes (bus : Bus) : List RouteEdge :=
  (bus.output.toList.map fun target => ⟨bus.id, target, .main⟩) ++ bus.sends.map fun send => ⟨bus.id, send.target, .send send.id⟩

def MixerGraph.routes (graph : MixerGraph) : List RouteEdge :=
  ((Entries.values graph.buses).flatMap Bus.routes).insertionSort (· ≤ ·)

end Routes

inductive MixerError where
  | missingBus (id : BusId)
  | missingMaster (id : BusId)
  | missingProcessor (id : ProcessorId)
  | missingOutput (id : BusId)
  | invalidBusOrder
  | masterAlreadyExists
  | masterCannotRoute
  | masterCannotSend
  | returnCannotReceiveMain (id : BusId)
  | invalidReturnOutput (bus target : BusId)
  | cycleDetected (path : List BusId)
  | invalidValue (field : String) (value : Float32) (minimum maximum : Option Float32)
  | emptyField (field : String)
  | processorUsedTwice (id : ProcessorId)
  | orphanProcessor (id : ProcessorId)
  | duplicateNode (id : NodeId)
  | duplicateSend (id : SendId)
  | duplicateParameter (id : ParameterId)
  | duplicateParameterKey (processorId : ProcessorId) (key : String)
  | identityMismatch (what : String)
  | masterOrderIsPinned
  | processorNotOnBus (id : ProcessorId) (busId : BusId)
  | invalidInsertIndex (index length : Nat)
  | insertCannotPrecedeItself (id : ProcessorId)

section Traversal

def outgoing (routes : List RouteEdge) (id : BusId) : List BusId :=
  ((routes.filter fun route => route.source = id).map RouteEdge.target).dedup.insertionSort (· ≤ ·)

def findCycle (buses : List BusId) (routes : List RouteEdge) : Except (Stop MixerError) (Option (List BusId)) :=
  match DepthFirst.searchFrom (outgoing routes) (buses.length + routes.length) buses with
  | .ok _ => .ok none
  | .error (.cycle path) => .ok (some path)
  | .error .exhausted => .error .panic
  | .error .offStack => .error .panic

def neighbours (routes : List RouteEdge) (forward : Bool) (id : BusId) : List BusId :=
  (routes.filterMap fun route =>
    if forward ∧ route.source = id then some route.target
    else if ¬ forward ∧ route.target = id then some route.source
    else none).insertionSort (· ≥ ·)

/-- `none` is a traversal that would not end. -/
def collectReachable (root : BusId) (routes : List RouteEdge) (forward : Bool) (collected : ExtTreeSet BusId) : Option (ExtTreeSet BusId) :=
  Worklist.collect (neighbours routes forward) (routes.length + 1) [root] ∅ collected

end Traversal

namespace MixerGraph

section Validate

def validateDescriptor (descriptor : PluginDescriptor) : Except MixerError Unit := do
  ensure (descriptor.format ≠ "") (.emptyField "plugin format")
  ensure (descriptor.identifier ≠ "") (.emptyField "plugin identifier")

def validateFinite (field : String) (value : Float32) : Except MixerError Unit :=
  ensure (value.isFinite = true) (.invalidValue field value none none)

def validateUnit (field : String) (value minimum maximum : Float32) : Except MixerError Unit :=
  ensure (value.isFinite = true ∧ minimum ≤ value ∧ value ≤ maximum) (.invalidValue field value (some minimum) (some maximum))

variable (graph : MixerGraph)

def requireBus (graph : MixerGraph) (id : BusId) : Except MixerError Unit := ensure (id ∈ graph.buses) (.missingBus id)

def requireProcessor (graph : MixerGraph) (id : ProcessorId) : Except MixerError Unit := ensure (id ∈ graph.processors) (.missingProcessor id)

def claim {κ : Type} [LinearOrder κ] (taken : ExtTreeSet κ) (key : κ) (error : MixerError) : Except MixerError (ExtTreeSet κ) :=
  if key ∈ taken then .error error else .ok (taken.insert key)

def validateOutput (graph : MixerGraph) (id : BusId) (bus : Bus) : Except MixerError Unit := do
  ensure (¬ (id ≠ graph.master ∧ bus.output = none)) (.missingOutput id)
  match bus.output with
  | none => .ok ()
  | some target =>
    match graph.buses[target]? with
    | none => .error (.missingBus target)
    | some receiver => do
      ensure (receiver.kind ≠ .return') (.returnCannotReceiveMain target)
      ensure (¬ (bus.kind = .return' ∧ ¬ (receiver.kind = .group ∨ receiver.kind = .master))) (.invalidReturnOutput id target)

def validateSend (graph : MixerGraph) (sends : ExtTreeSet SendId) (send : Send) : Except MixerError (ExtTreeSet SendId) := do
  let sends ← claim sends send.id (.duplicateSend send.id)
  graph.requireBus send.target
  validateFinite "send level" send.levelDb
  .ok sends

def validateInsert (graph : MixerGraph) (used : ExtTreeSet ProcessorId) (insert : InsertSlot) :
    Except MixerError (ExtTreeSet ProcessorId) := do
  validateUnit "insert wet" insert.wet 0.0 1.0
  let used ← claim used insert.processorId (.processorUsedTwice insert.processorId)
  graph.requireProcessor insert.processorId
  .ok used

structure Claims where
  nodes : ExtTreeSet NodeId
  sends : ExtTreeSet SendId
  usedProcessors : ExtTreeSet ProcessorId

def validateBus (graph : MixerGraph) (claims : Claims) (entry : BusId × Bus) : Except MixerError Claims := do
  ensure (entry.1 = entry.2.id) (.identityMismatch "bus")
  let nodes ← claim claims.nodes entry.2.nodeId (.duplicateNode entry.2.nodeId)
  validateFinite "gain" entry.2.fader.gainDb
  validateUnit "pan" entry.2.fader.pan (-1.0) 1.0
  graph.validateOutput entry.1 entry.2
  let sends ← entry.2.sends.foldlM graph.validateSend claims.sends
  let usedProcessors ← entry.2.inserts.foldlM graph.validateInsert claims.usedProcessors
  .ok ⟨nodes, sends, usedProcessors⟩

def validateParameter (processorId : ProcessorId) (claims : ExtTreeSet ParameterId × ExtTreeSet String)
    (entry : ParameterId × ProcessorParameter) : Except MixerError (ExtTreeSet ParameterId × ExtTreeSet String) := do
  ensure (entry.1 = entry.2.id) (.identityMismatch "parameter")
  let parameters ← claim claims.1 entry.1 (.duplicateParameter entry.1)
  let keys ← claim claims.2 entry.2.key (.duplicateParameterKey processorId entry.2.key)
  validateUnit "parameter value" entry.2.normalizedValue 0.0 1.0
  .ok (parameters, keys)

def validateProcessor (used : ExtTreeSet ProcessorId) (claims : ExtTreeSet NodeId × ExtTreeSet ParameterId)
    (entry : ProcessorId × Processor) : Except MixerError (ExtTreeSet NodeId × ExtTreeSet ParameterId) := do
  ensure (entry.1 = entry.2.id) (.identityMismatch "processor")
  ensure (entry.1 ∈ used) (.orphanProcessor entry.1)
  let nodes ← claim claims.1 entry.2.nodeId (.duplicateNode entry.2.nodeId)
  validateDescriptor entry.2.descriptor
  let parameters ← entry.2.parameters.toList.foldlM (validateParameter entry.1) (claims.2, ∅)
  .ok (nodes, parameters.1)

def validateMaster (graph : MixerGraph) : Except MixerError Unit :=
  match graph.buses[graph.master]? with
  | none => .error (.missingMaster graph.master)
  | some master => do
    ensure (master.kind = .master) (.missingMaster graph.master)
    ensure (((Entries.values graph.buses).filter fun bus => bus.kind = .master).length = 1) .masterAlreadyExists
    ensure (master.output = none) .masterCannotRoute
    ensure (master.sends.length = 0) .masterCannotSend

def validateParts (graph : MixerGraph) : Except MixerError Unit := do
  ensure (graph.busOrder.length = graph.buses.size ∧ graph.busOrder.getLast? = some graph.master ∧
    graph.busOrder.toFinset = graph.buses.keys.toFinset) .invalidBusOrder
  graph.validateMaster
  let claims ← graph.buses.toList.foldlM graph.validateBus ⟨∅, ∅, ∅⟩
  let _ ← graph.processors.toList.foldlM (validateProcessor claims.usedProcessors) (claims.nodes, ∅)
  .ok ()

def validate (graph : MixerGraph) : Except (Stop MixerError) Unit := do
  lift graph.validateParts
  match ← findCycle graph.buses.keys graph.routes with
  | some path => .error (.error (.cycleDetected path))
  | none => .ok ()

end Validate

section Solo

structure EffectiveBusState where
  explicitlyMuted : Bool
  soloed : Bool
  inSoloPath : Bool
  soloSuppressed : Bool
  audible : Bool

def soloedBuses (graph : MixerGraph) : List BusId := ((Entries.values graph.buses).filter fun bus => bus.fader.soloed).map Bus.id

def soloPath (graph : MixerGraph) : Option (ExtTreeSet BusId) :=
  graph.soloedBuses.foldlM
    (fun path root => do
      let downstream ← collectReachable root graph.routes true path
      collectReachable root graph.routes false downstream)
    ∅

def effectiveState (anySolo : Bool) (path : ExtTreeSet BusId) (bus : Bus) : EffectiveBusState :=
  let inSoloPath := !anySolo || decide (bus.id ∈ path)
  let soloSuppressed := anySolo && !inSoloPath
  ⟨bus.fader.muted, bus.fader.soloed, inSoloPath, soloSuppressed, !bus.fader.muted && !soloSuppressed⟩

def effectiveStates (graph : MixerGraph) : Option (ExtTreeMap BusId EffectiveBusState) := do
  let path ← graph.soloPath
  some (Collected.collect ((Entries.values graph.buses).map fun bus => (bus.id, effectiveState (!graph.soloedBuses.isEmpty) path bus)))

end Solo

section Latency

structure BusLatency where
  inputLatencySamples : Nat
  insertLatencySamples : Nat
  outputLatencySamples : Nat

structure RouteLatency where
  arrivalLatencySamples : Nat
  compensationDelaySamples : Nat

structure LatencyPlan where
  buses : ExtTreeMap BusId BusLatency
  routes : ExtTreeMap RouteEdge RouteLatency
  masterOutputLatencySamples : Nat

def u64Max : Nat := 0xffffffffffffffff

def saturatingAdd (a b : Nat) : Nat := min u64Max (a + b)

def expect {ε α : Type} : Option α → Except (Stop ε) α
  | some value => .ok value
  | none => .error .panic

variable (graph : MixerGraph)

def busInsertLatency (graph : MixerGraph) (id : BusId) : Except (Stop MixerError) Nat :=
  match graph.buses[id]? with
  | none => .error (.error (.missingBus id))
  | some bus => do
    let latencies ← (bus.inserts.filter fun insert => !insert.bypassed).mapM fun insert => do
      let processor ← expect graph.processors[insert.processorId]?
      Except.ok processor.latencySamples.val
    .ok (latencies.foldl saturatingAdd 0)

/-- How far the plan has come. -/
structure Planning where
  counts : Countdown.Counts BusId
  buses : ExtTreeMap BusId BusLatency
  routes : ExtTreeMap RouteEdge RouteLatency

def planBus (graph : MixerGraph) (planning : Planning) (id : BusId) : Except (Stop MixerError) Planning := do
  let arrivals ← (graph.routes.filter fun route => route.target = id).mapM fun route => do
    let predecessor ← expect planning.buses[route.source]?
    Except.ok (route, predecessor.outputLatencySamples)
  let inputLatency := (arrivals.map Prod.snd).foldl max 0
  let routes := arrivals.foldl (fun routes arrival => routes.insert arrival.1 ⟨arrival.2, inputLatency - arrival.2⟩) planning.routes
  let insertLatency ← graph.busInsertLatency id
  let buses := planning.buses.insert id ⟨inputLatency, insertLatency, saturatingAdd inputLatency insertLatency⟩
  let counts ← expect (((graph.routes.filter fun route => route.source = id).map RouteEdge.target).foldlM Countdown.tick planning.counts)
  .ok ⟨counts, buses, routes⟩

def planReady (graph : MixerGraph) : Nat → Planning → Except (Stop MixerError) Planning
  | 0, _ => .error .panic
  | fuel + 1, planning =>
    match planning.counts.ready.min? with
    | none => .ok planning
    | some id => do
      let next ← graph.planBus { planning with counts := { planning.counts with ready := planning.counts.ready.erase id } } id
      planReady graph fuel next

def indegrees (graph : MixerGraph) : Except (Stop MixerError) (ExtTreeMap BusId Nat) :=
  graph.routes.foldlM
    (fun degrees route => do
      let degree ← expect degrees[route.target]?
      Except.ok (degrees.insert route.target (degree + 1)))
    (Collected.collect (graph.buses.keys.map fun id => (id, 0)))

def latencyPlan (graph : MixerGraph) : Except (Stop MixerError) LatencyPlan := do
  graph.validate
  let indegree ← graph.indegrees
  let ready : ExtTreeSet BusId := ((indegree.toList.filter fun entry => entry.2 = 0).map Prod.fst).foldl ExtTreeSet.insert ∅
  let planned ← graph.planReady (graph.buses.size + 1) ⟨⟨indegree, ready⟩, ∅, ∅⟩
  let master ← expect planned.buses[graph.master]?
  .ok ⟨planned.buses, planned.routes, master.outputLatencySamples⟩

end Latency

end MixerGraph
end Audec.Mixer

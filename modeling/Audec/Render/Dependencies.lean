import Audec.Lib.Kahn
import Audec.Render.Products

/-! The dependency graph of the render products of one plan, and what a change invalidates in it. -/

open Machine Checked Codes
open Std (ExtTreeMap ExtTreeSet)

namespace Audec.Render

inductive ComparisonLayer where
  | original | construction | residual | excess
  deriving DecidableEq

def ComparisonLayer.position : ComparisonLayer → Int
  | .original => 0
  | .construction => 1
  | .residual => 2
  | .excess => 3

theorem ComparisonLayer.position_injective : Function.Injective ComparisonLayer.position := by
  intro a b same
  cases a <;> cases b <;> first | rfl | cases same

inductive ProductPurpose where
  | master
  | bus (bus : U64)
  | stem (stem : U64)
  | audition (request : U64)
  | comparison (comparison : U64) (layer : ComparisonLayer)
  deriving DecidableEq

def ProductPurpose.code : ProductPurpose → List Int
  | .master => [0]
  | .bus number => [1, number.val]
  | .stem number => [2, number.val]
  | .audition request => [3, request.val]
  | .comparison number layer => [4, number.val, layer.position]

theorem ProductPurpose.code_delimited : SelfDelimiting ProductPurpose.code := by
  intro a b rest rest' same
  cases a <;> cases b <;> simp_all [ProductPurpose.code, Fin.ext_iff, ComparisonLayer.position_injective.eq_iff]

def ProductPartition.code : ProductPartition → List Int
  | .wholeBounce => [0]
  | .tile grid index => [1, grid.tileFrames.val, index.val]
  | .contiguousRun anchorFrame sequence => [2, anchorFrame.val, sequence.val]

theorem TileGrid.tileFrames_injective : Function.Injective TileGrid.tileFrames := by
  rintro ⟨frames, _⟩ ⟨frames', _⟩ same
  cases same
  rfl

theorem ProductPartition.code_delimited : SelfDelimiting ProductPartition.code := by
  intro a b rest rest' same
  cases a <;> cases b <;>
    simp_all [ProductPartition.code, I64.val_injective.eq_iff, ← TileGrid.tileFrames_injective.eq_iff, Fin.ext_iff]

inductive ProductCohort where
  | playback
  | stem (stem : U64)
  | audition (request : U64)
  | comparison (comparison : U64)
  deriving DecidableEq

structure ProductNodeKey where
  purpose : ProductPurpose
  scope : RenderScope
  core : RenderSpan
  partition : ProductPartition
  deriving DecidableEq

namespace ProductNodeKey

def code (key : ProductNodeKey) : List Int := key.purpose.code ++ (key.scope.code ++ (key.core.code ++ key.partition.code))

theorem code_delimited : SelfDelimiting code := by
  rintro ⟨purpose, scope, core, partition⟩ ⟨purpose', scope', core', partition'⟩ rest rest' same
  simp only [code, List.append_assoc] at same
  obtain ⟨rfl, scopes⟩ := ProductPurpose.code_delimited _ _ _ _ same
  obtain ⟨rfl, cores⟩ := RenderScope.code_delimited _ _ _ _ scopes
  obtain ⟨rfl, partitions⟩ := RenderSpan.code_delimited _ _ _ _ cores
  obtain ⟨rfl, tails⟩ := ProductPartition.code_delimited _ _ _ _ partitions
  exact ⟨rfl, tails⟩

instance linearOrder : LinearOrder ProductNodeKey := codedOrder code code_delimited.injective

instance transOrd : Std.TransOrd ProductNodeKey := inferInstance

instance lawfulEqOrd : Std.LawfulEqOrd ProductNodeKey := ⟨compare_eq_iff_eq.mp⟩

end ProductNodeKey

structure RenderDependencyNode where
  key : ProductNodeKey
  context : RenderSpan
  boundaryRecipe : ExactDigest
  cohort : ProductCohort
  consumedDomains : ExtTreeSet ProjectDomain
  consumedInputs : ExtTreeSet RenderDependencyKey
  sourceBuses : ExtTreeSet BusId
  prerequisites : ExtTreeSet ProductNodeKey
  deriving DecidableEq

namespace RenderDependencyNode

def new (key : ProductNodeKey) (context : RenderSpan) (boundaryRecipe : ExactDigest) (cohort : ProductCohort) : RenderDependencyNode :=
  ⟨key, context, boundaryRecipe, cohort, ∅, ∅, ∅, ∅⟩

def consumesDomain (node : RenderDependencyNode) (domain : ProjectDomain) : RenderDependencyNode :=
  { node with consumedDomains := node.consumedDomains.insert domain }

def consumesInput (node : RenderDependencyNode) (input : RenderDependencyKey) : RenderDependencyNode :=
  { node with consumedInputs := node.consumedInputs.insert input }

def readsBus (node : RenderDependencyNode) (bus : BusId) : RenderDependencyNode :=
  { node with sourceBuses := node.sourceBuses.insert bus }

def dependsOn (node : RenderDependencyNode) (prerequisite : ProductNodeKey) : RenderDependencyNode :=
  { node with prerequisites := node.prerequisites.insert prerequisite }

end RenderDependencyNode

inductive RenderDependencyError where
  | emptyGraph | duplicateNode
  | coreOutsidePlan (node : ProductNodeKey)
  | invalidContext (node : ProductNodeKey) (context : RenderSpan)
  | zeroBoundaryRecipe (node : ProductNodeKey)
  | unknownConsumedInput (node : ProductNodeKey) (input : RenderDependencyKey)
  | selfDependency (node : ProductNodeKey)
  | missingPrerequisite (node prerequisite : ProductNodeKey)
  | cycle (members : List ProductNodeKey)
  | product (error : RenderProductError)
  deriving DecidableEq

def ProductNodeKey.productKey (key : ProductNodeKey) (plan : RenderPlanId) (boundaryRecipe : ExactDigest) :
    Except RenderDependencyError RenderProductKey :=
  (RenderProductKey.new plan key.scope key.core key.partition boundaryRecipe).mapError .product

abbrev Nodes := ExtTreeMap ProductNodeKey RenderDependencyNode

abbrev Edges := ExtTreeMap ProductNodeKey (ExtTreeSet ProductNodeKey)

structure RenderDependencyGraph where
  plan : RenderPlanId
  nodes : Nodes
  downstream : Edges
  topological : List ProductNodeKey
  deriving DecidableEq

def indexNode (byKey : Nodes) (node : RenderDependencyNode) : Except RenderDependencyError Nodes := do
  ensure (node.key ∉ byKey) .duplicateNode
  .ok (byKey.insert node.key node)

def checkInputs (plan : RenderPlanId) (node : RenderDependencyNode) : Except RenderDependencyError Unit :=
  match node.consumedInputs.toList.find? (· ∉ plan.dependencies.map (·.key)) with
  | some input => .error (.unknownConsumedInput node.key input)
  | none => .ok ()

def checkPrerequisite (byKey : Nodes) (node : RenderDependencyNode) (prerequisite : ProductNodeKey) : Except RenderDependencyError Unit := do
  ensure (prerequisite ≠ node.key) (.selfDependency node.key)
  ensure (prerequisite ∈ byKey) (.missingPrerequisite node.key prerequisite)

def checkNode (plan : RenderPlanId) (byKey : Nodes) (node : RenderDependencyNode) : Except RenderDependencyError Unit := do
  ensure (plan.compiledExtent.containsSpan node.key.core) (.coreOutsidePlan node.key)
  ensure (plan.compiledExtent.containsSpan node.context ∧ node.context.containsSpan node.key.core) (.invalidContext node.key node.context)
  ensure (node.boundaryRecipe.isZero = false) (.zeroBoundaryRecipe node.key)
  let _ ← node.key.productKey plan node.boundaryRecipe
  checkInputs plan node
  node.prerequisites.toList.forM (checkPrerequisite byKey node)

def addEdge (target : ProductNodeKey) (edges : Edges) (prerequisite : ProductNodeKey) : Edges :=
  match edges[prerequisite]? with
  | none => edges
  | some targets => edges.insert prerequisite (targets.insert target)

def addEdges (edges : Edges) (node : RenderDependencyNode) : Edges :=
  node.prerequisites.toList.foldl (addEdge node.key) edges

def downstreamEdges (byKey : Nodes) : Edges :=
  (Entries.values byKey).foldl addEdges (byKey.map fun _ _ => ∅)

def targetsOf (downstream : Edges) (key : ProductNodeKey) : List ProductNodeKey :=
  match downstream[key]? with
  | none => []
  | some targets => targets.toList

def orderingStart (nodes : Nodes) : Kahn.Progress ProductNodeKey :=
  let indegree := nodes.map fun _ node => node.prerequisites.size
  ⟨indegree, ExtTreeSet.ofList (indegree.filter fun _ degree => degree = 0).keys compare, []⟩

/-- The ready node that sorts first, as `pop_first` takes it. -/
def firstReady (ready : ExtTreeSet ProductNodeKey) : Option ProductNodeKey := ready.toList.head?

def ordering (nodes : Nodes) (downstream : Edges) : Kahn.Progress ProductNodeKey :=
  (orderingStart nodes).run firstReady (targetsOf downstream) (nodes.size + 1)

def topologicalOrder (nodes : Nodes) (downstream : Edges) : Except RenderDependencyError (List ProductNodeKey) :=
  let final := ordering nodes downstream
  if final.ordered.length ≠ nodes.size then
    .error (.cycle (final.indegree.filter fun _ degree => degree ≠ 0).keys)
  else
    .ok final.ordered

def RenderDependencyGraph.new (plan : RenderPlanId) (nodes : List RenderDependencyNode) :
    Except RenderDependencyError RenderDependencyGraph := do
  let byKey ← nodes.foldlM indexNode ∅
  ensure (byKey.isEmpty = false) .emptyGraph
  (Entries.values byKey).forM (checkNode plan byKey)
  let downstream := downstreamEdges byKey
  let topological ← topologicalOrder byKey downstream
  .ok ⟨plan, byKey, downstream, topological⟩

inductive InvalidationReason where
  | coldStart | planContractChanged | engineRecipeChanged | unprovenChangeSet | unprovenSnapshotChange | addedProduct
  | productRecipeChanged
  | domainRevision (domain : ProjectDomain)
  | dependencyChanged (key : RenderDependencyKey)
  | routingChanged
  | wholeBus (bus : BusId)
  | audioRange (bus : BusId) (range : AudioRange)
  | upstreamProduct (key : ProductNodeKey)
  deriving DecidableEq

namespace InvalidationReason

def code : InvalidationReason → List Int
  | .coldStart => [0]
  | .planContractChanged => [1]
  | .engineRecipeChanged => [2]
  | .unprovenChangeSet => [3]
  | .unprovenSnapshotChange => [4]
  | .addedProduct => [5]
  | .productRecipeChanged => [6]
  | .domainRevision domain => 7 :: domain.code
  | .dependencyChanged key => 8 :: key.code
  | .routingChanged => [9]
  | .wholeBus bus => 10 :: bus.code
  | .audioRange bus range => 11 :: (bus.code ++ range.code)
  | .upstreamProduct key => 12 :: key.code

theorem code_injective : Function.Injective code := by
  intro a b same
  cases a <;> cases b <;> first
    | rfl
    | simp only [code, List.cons.injEq, Int.reduceEq, false_and] at same
  case domainRevision.domainRevision => rw [ProjectDomain.code_delimited.injective same.2]
  case dependencyChanged.dependencyChanged => rw [RenderDependencyKey.code_delimited.injective same.2]
  case wholeBus.wholeBus => rw [BusId.code_delimited.injective same.2]
  case audioRange.audioRange =>
    obtain ⟨buses, ranges⟩ := BusId.code_delimited _ _ _ _ same.2
    rw [buses, AudioRange.code_delimited.injective ranges]
  case upstreamProduct.upstreamProduct => rw [ProductNodeKey.code_delimited.injective same.2]

instance linearOrder : LinearOrder InvalidationReason := codedOrder code code_injective

instance transOrd : Std.TransOrd InvalidationReason := inferInstance

instance lawfulEqOrd : Std.LawfulEqOrd InvalidationReason := ⟨compare_eq_iff_eq.mp⟩

end InvalidationReason

abbrev Reasons := ExtTreeSet InvalidationReason

abbrev Invalidation := ExtTreeMap ProductNodeKey Reasons

inductive ProductInvalidation where
  | reuse
  | render (reasons : List InvalidationReason)
  deriving DecidableEq

structure InvalidationReport where
  target : RenderPlanId
  decisions : ExtTreeMap ProductNodeKey ProductInvalidation

def decisionFor (reasons : Reasons) : ProductInvalidation :=
  if reasons.isEmpty then .reuse else .render reasons.toList

namespace InvalidationReport

def new (target : RenderPlanId) (reasons : Invalidation) : InvalidationReport :=
  ⟨target, reasons.map fun _ reasons => decisionFor reasons⟩

def decision (report : InvalidationReport) (key : ProductNodeKey) : Option ProductInvalidation := report.decisions[key]?

end InvalidationReport

def changedRevisionDomains (previous target : RenderPlanId) : ExtTreeSet ProjectDomain :=
  ExtTreeSet.ofList ([ProjectDomain.arrangement, .sequencer, .automation, .assets, .mixer, .sampleKits, .air, .bindings].filter
    fun domain => previous.revisions.generation domain ≠ target.revisions.generation domain) compare

def stampsByKey (stamps : List RenderDependencyStamp) : ExtTreeMap RenderDependencyKey RenderDependencyStamp :=
  stamps.foldl (fun byKey stamp => byKey.insert stamp.key stamp) ∅

def changedDependencyKeys (previous target : List RenderDependencyStamp) : ExtTreeSet RenderDependencyKey :=
  let previous := stampsByKey previous
  let target := stampsByKey target
  ExtTreeSet.ofList ((previous.keys ++ target.keys).filter fun key => previous[key]? ≠ target[key]?) compare

def isForwardAudioDomain (domain : ProjectDomain) : Bool := domain ≠ .air

def intersectingAudioReasons (bus : BusId) (impact : BusImpact) (context : RenderSpan) : List InvalidationReason :=
  match impact with
  | .whole => [.wholeBus bus]
  | .ranges ranges =>
    (ranges.filter fun range => range.start < context.stop ∧ context.start < range.stop).map (.audioRange bus)

def insertAll (reasons : Reasons) (more : List InvalidationReason) : Reasons := more.foldl ExtTreeSet.insert reasons

def insertIf (reasons : Reasons) (condition : Bool) (reason : InvalidationReason) : Reasons :=
  if condition then reasons.insert reason else reasons

def markAll (invalidation : Invalidation) (reason : InvalidationReason) : Invalidation :=
  invalidation.map fun _ reasons => reasons.insert reason

/-- What the loop over the nodes compares, computed once before it. -/
structure Comparison where
  previous : RenderDependencyGraph
  changes : ChangeSet
  exactChangeReceipt : Bool
  changedDomains : ExtTreeSet ProjectDomain
  changedInputs : ExtTreeSet RenderDependencyKey

namespace Comparison

section

variable (comparison : Comparison)

section

variable (node : RenderDependencyNode)

def rangeProof : Bool :=
  comparison.exactChangeReceipt && !comparison.changes.routingChanged && !comparison.changes.audio.isEmpty && !node.sourceBuses.isEmpty

def busReasons (bus : BusId) : List InvalidationReason :=
  match comparison.changes.audio[bus]? with
  | none => []
  | some impact => intersectingAudioReasons bus impact node.context

def heldReasons (reasons : Reasons) : Reasons :=
  let reasons := insertAll reasons
    ((node.consumedInputs.toList.filter (· ∈ comparison.changedInputs)).map .dependencyChanged)
  let reasons := insertIf reasons (comparison.changes.routingChanged && !node.sourceBuses.isEmpty) .routingChanged
  let reasons := insertAll reasons
    (((node.consumedDomains.toList.filter (· ∈ comparison.changedDomains)).filter fun domain =>
      !comparison.rangeProof node || !isForwardAudioDomain domain).map .domainRevision)
  if comparison.rangeProof node then
    insertAll reasons (node.sourceBuses.toList.flatMap (comparison.busReasons node))
  else
    reasons

def nodeReasons (reasons : Reasons) : Reasons :=
  match comparison.previous.nodes[node.key]? with
  | none => reasons.insert .addedProduct
  | some old => comparison.heldReasons node (insertIf reasons (old ≠ node) .productRecipeChanged)

end

def noteNode (invalidation : Invalidation) (node : RenderDependencyNode) : Invalidation :=
  match invalidation[node.key]? with
  | none => invalidation
  | some reasons => invalidation.insert node.key (comparison.nodeReasons node reasons)

end

end Comparison

def noteUpstream (source : ProductNodeKey) (invalidation : Invalidation) (target : ProductNodeKey) : Invalidation :=
  match invalidation[target]? with
  | none => invalidation
  | some reasons => invalidation.insert target (reasons.insert (.upstreamProduct source))

/-- A product cannot be reused while one it consumes is rendered again. -/
def propagate (downstream : Edges) (invalidation : Invalidation) (source : ProductNodeKey) : Invalidation :=
  match invalidation[source]? with
  | none => invalidation
  | some reasons =>
    if reasons.isEmpty then invalidation
    else (targetsOf downstream source).foldl (noteUpstream source) invalidation

def structuralMismatch (previous target : RenderPlanId) : Bool :=
  previous.schemaVersion ≠ target.schemaVersion ∨ previous.projectNamespace ≠ target.projectNamespace ∨
    previous.compiledExtent ≠ target.compiledExtent ∨ previous.engine.format ≠ target.engine.format

namespace RenderDependencyGraph

def clean (graph : RenderDependencyGraph) : Invalidation := graph.nodes.map fun _ _ => ∅

/-- The reasons every node is given before the nodes are compared one by one. -/
def sharedReasons (graph previous : RenderDependencyGraph) (changes : ChangeSet) : Invalidation :=
  let engine := if previous.plan.engine ≠ graph.plan.engine then markAll graph.clean .engineRecipeChanged else graph.clean
  let changedDomains := changedRevisionDomains previous.plan graph.plan
  let unexplainedSnapshot := previous.plan.snapshot ≠ graph.plan.snapshot ∧ changedDomains.isEmpty ∧
    (changedDependencyKeys previous.plan.dependencies graph.plan.dependencies).isEmpty
  if unexplainedSnapshot then markAll engine .unprovenSnapshotChange
  else if changedDomains ≠ changes.domains then markAll engine .unprovenChangeSet
  else engine

def comparison (graph previous : RenderDependencyGraph) (changes : ChangeSet) : Comparison :=
  let changedDomains := changedRevisionDomains previous.plan graph.plan
  ⟨previous, changes, changedDomains = changes.domains, changedDomains,
    changedDependencyKeys previous.plan.dependencies graph.plan.dependencies⟩

def directReasons (graph previous : RenderDependencyGraph) (changes : ChangeSet) : Invalidation :=
  (Entries.values graph.nodes).foldl (graph.comparison previous changes).noteNode (graph.sharedReasons previous changes)

def invalidateFrom (graph : RenderDependencyGraph) (previous : Option RenderDependencyGraph) (changes : ChangeSet) :
    InvalidationReport :=
  match previous with
  | none => .new graph.plan (markAll graph.clean .coldStart)
  | some previous =>
    if structuralMismatch previous.plan graph.plan then
      .new graph.plan (markAll graph.clean .planContractChanged)
    else
      .new graph.plan (graph.topological.foldl (propagate graph.downstream) (graph.directReasons previous changes))

end RenderDependencyGraph

end Audec.Render

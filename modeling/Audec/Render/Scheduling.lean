import Audec.Render.Invalidation

/-! Schedules of the dirty products of a dependency graph, and when a cohort of products is ready. -/

open Machine Checked Filling Codes List
open Std (ExtTreeMap ExtTreeSet)

namespace Audec.Render

open RenderDependencyGraph

inductive RenderProductPriority where
  | audition
  | playhead
  | loopAhead (frames : Nat)
  | comparison
  | timeline (distance : Nat)
  | background

def RenderProductPriority.sortKey : RenderProductPriority → Nat × Nat
  | .audition => (0, 0)
  | .playhead => (1, 0)
  | .loopAhead frames => (2, frames)
  | .comparison => (3, 0)
  | .timeline distance => (4, distance)
  | .background => (5, 0)

abbrev LoopRegion := {span : RenderSpan // span.start < span.stop}

/-- `rem_euclid` by the positive length of the loop. -/
def productPriority (node : RenderDependencyNode) (loopRegion : Option LoopRegion) (playhead : I64) : RenderProductPriority :=
  match node.key.purpose, node.cohort with
  | .audition .., _ => .audition
  | .comparison .., _ => .comparison
  | _, .stem _ => .background
  | _, _ =>
    match loopRegion.filter fun region => node.key.core.intersects region.val with
    | some ⟨region, _⟩ =>
      let loopFrames := region.stop.val - region.start.val
      let normalizedPlayhead := region.start.val + (playhead.val - region.start.val) % loopFrames
      if node.key.core.start.val ≤ normalizedPlayhead ∧ normalizedPlayhead < node.key.core.stop.val then
        .playhead
      else
        .loopAhead (((max node.key.core.start region.start).val - normalizedPlayhead) % loopFrames).toNat
    | none => .timeline (node.key.core.start.val - playhead.val).natAbs

structure ScheduledRenderProduct where
  node : ProductNodeKey
  context : RenderSpan
  boundaryRecipe : ExactDigest
  priority : RenderProductPriority
  reasons : List InvalidationReason

namespace ProductCohort

def code : ProductCohort → List Int
  | .playback => [0]
  | .stem number => [1, number.val]
  | .audition number => [2, number.val]
  | .comparison number => [3, number.val]

theorem code_injective : Function.Injective code := by
  intro a b same
  cases a <;> cases b <;> simp_all [code, Fin.ext_iff]

instance linearOrder : LinearOrder ProductCohort := codedOrder code code_injective

instance transOrd : Std.TransOrd ProductCohort := inferInstance

instance lawfulEqOrd : Std.LawfulEqOrd ProductCohort := ⟨compare_eq_iff_eq.mp⟩

end ProductCohort

structure CohortRequirement where
  cohort : ProductCohort
  required : List ProductNodeKey
  reused : List ProductNodeKey
  rendered : List ProductNodeKey

inductive ProductCohortReadiness where
  | priming (missing : List ProductNodeKey)
  | ready
  deriving DecidableEq

structure DependencySchedule where
  plan : RenderPlanId
  jobs : List ScheduledRenderProduct
  cohorts : ExtTreeMap ProductCohort CohortRequirement

inductive DependencyScheduleError where
  | reportPlanMismatch
  | dirtyScheduleCycle

def isRender : Option ProductInvalidation → Bool
  | some (.render _) => true
  | _ => false

section

variable (graph : RenderDependencyGraph)

def dirtyNodes (report : InvalidationReport) : ExtTreeSet ProductNodeKey :=
  ExtTreeSet.ofList (graph.nodes.keys.filter fun key => isRender (report.decision key)) compare

def dirtyDegree (dirty : ExtTreeSet ProductNodeKey) (key : ProductNodeKey) : Nat :=
  match graph.nodes[key]? with
  | none => 0
  | some node => (node.prerequisites.toList.filter (· ∈ dirty)).length

def dirtyStart (dirty : ExtTreeSet ProductNodeKey) : Kahn.Progress ProductNodeKey where
  indegree := ExtTreeMap.ofList (dirty.toList.map fun key => (key, dirtyDegree graph dirty key)) compare
  ready := ExtTreeSet.ofList (dirty.toList.filter fun key => dirtyDegree graph dirty key = 0) compare
  ordered := []

/-- What `min_by_key` compares. -/
def rank (loopRegion : Option LoopRegion) (playhead : I64) (key : ProductNodeKey) :
    ℕ ×ₗ ℕ ×ₗ ProductNodeKey :=
  match graph.nodes[key]? with
  | none => toLex (0, toLex (0, key))
  | some node =>
    let priority := (productPriority node loopRegion playhead).sortKey
    toLex (priority.1, toLex (priority.2, key))

def leastReady (loopRegion : Option LoopRegion) (playhead : I64)
    (ready : ExtTreeSet ProductNodeKey) : Option ProductNodeKey :=
  ready.toList.argmin (rank graph loopRegion playhead)

def scheduleOrder (report : InvalidationReport) (loopRegion : Option LoopRegion) (playhead : I64) :
    Kahn.Progress ProductNodeKey :=
  let dirty := dirtyNodes graph report
  (dirtyStart graph dirty).run (leastReady graph loopRegion playhead) (targetsOf graph.downstream) (dirty.size + 1)

def scheduled (report : InvalidationReport) (loopRegion : Option LoopRegion) (playhead : I64)
    (key : ProductNodeKey) : Option ScheduledRenderProduct :=
  match graph.nodes[key]?, report.decision key with
  | some node, some (.render reasons) => some ⟨key, node.context, node.boundaryRecipe, productPriority node loopRegion playhead, reasons⟩
  | _, _ => none

end

def group (grouped : ExtTreeMap ProductCohort (List ProductNodeKey)) (node : RenderDependencyNode) :
    ExtTreeMap ProductCohort (List ProductNodeKey) :=
  grouped.insert node.cohort (grouped[node.cohort]?.getD [] ++ [node.key])

def cohortRequirements (graph : RenderDependencyGraph) (dirty : ExtTreeSet ProductNodeKey) :
    ExtTreeMap ProductCohort CohortRequirement :=
  ((Entries.values graph.nodes).foldl group ∅).map fun cohort required =>
    ⟨cohort, required, required.filter (· ∉ dirty), required.filter (· ∈ dirty)⟩

namespace DependencySchedule

def build (graph : RenderDependencyGraph) (report : InvalidationReport) (loopRegion : Option LoopRegion) (playhead : I64) :
    Except DependencyScheduleError DependencySchedule :=
  if graph.plan ≠ report.target then
    .error .reportPlanMismatch
  else
    let dirty := dirtyNodes graph report
    let jobs := (scheduleOrder graph report loopRegion playhead).ordered.filterMap (scheduled graph report loopRegion playhead)
    if jobs.length ≠ dirty.size then
      .error .dirtyScheduleCycle
    else
      .ok ⟨graph.plan, jobs, cohortRequirements graph dirty⟩

def readiness (schedule : DependencySchedule) (cohort : ProductCohort) (available : ExtTreeSet ProductNodeKey) :
    Option ProductCohortReadiness :=
  schedule.cohorts[cohort]?.map fun requirement =>
    let missing := requirement.required.filter (· ∉ available)
    if missing.isEmpty then .ready else .priming missing

end DependencySchedule

/-! ### Acceptance of a graph -/

structure Declared (plan : RenderPlanId) (node : RenderDependencyNode) : Prop where
  core : plan.compiledExtent.containsSpan node.key.core
  context : plan.compiledExtent.containsSpan node.context ∧ node.context.containsSpan node.key.core
  boundaryRecipe : node.boundaryRecipe.isZero = false
  product : ∃ product, node.key.productKey plan node.boundaryRecipe = .ok product
  inputs : ∀ input ∈ node.consumedInputs, input ∈ plan.dependencies.map (·.key)

def Needs (nodes : List RenderDependencyNode) (need key : ProductNodeKey) : Prop :=
  ∃ node ∈ nodes, node.key = key ∧ need ∈ node.prerequisites

structure Acceptable (plan : RenderPlanId) (nodes : List RenderDependencyNode) : Prop where
  nonempty : nodes ≠ []
  unique : (nodes.map (·.key)).Nodup
  declared : ∀ node ∈ nodes, Declared plan node
  joined : ∀ node ∈ nodes, ∀ need ∈ node.prerequisites, need ∈ nodes.map (·.key)
  acyclic : ∀ key, ¬ Relation.TransGen (Needs nodes) key key

variable {plan : RenderPlanId} {nodes : List RenderDependencyNode} {graph : RenderDependencyGraph}

variable {node : RenderDependencyNode} {byKey : Nodes} {key : ProductNodeKey}

theorem checkInputs_ok :
    checkInputs plan node = .ok () ↔ ∀ input ∈ node.consumedInputs, input ∈ plan.dependencies.map (·.key) := by
  unfold checkInputs
  split
  next input found =>
    constructor
    · intro failed
      cases failed
    · intro all
      have := find?_some found
      simp [all input (ExtTreeSet.mem_toList.mp (mem_of_find?_eq_some found))] at this
  next none' =>
    refine ⟨fun _ input inside => ?_, fun _ => rfl⟩
    simpa using find?_eq_none.mp none' input (ExtTreeSet.mem_toList.mpr inside)

theorem checkNode_ok : checkNode plan byKey node = .ok () ↔
    Declared plan node ∧ ∀ need ∈ node.prerequisites, need ≠ node.key ∧ need ∈ byKey := by
  unfold checkNode checkPrerequisite
  simp only [bind_ok, ensure_ok, forM_ok, ExtTreeSet.mem_toList]
  constructor
  · rintro ⟨_, core, _, context, _, recipe, product, made, _, inputs, all⟩
    refine ⟨⟨ensure_ok.mp core, ensure_ok.mp context, ensure_ok.mp recipe, ⟨product, made⟩, checkInputs_ok.mp inputs⟩, fun need needed => ?_⟩
    obtain ⟨_, other, known⟩ := all need needed
    exact ⟨ensure_ok.mp other, known⟩
  · rintro ⟨⟨core, context, recipe, ⟨product, made⟩, inputs⟩, all⟩
    exact ⟨(), ensure_ok.mpr core, (), ensure_ok.mpr context, (), ensure_ok.mpr recipe, product, made, (), checkInputs_ok.mpr inputs,
      fun need needed => ⟨(), ensure_ok.mpr (all need needed).1, (all need needed).2⟩⟩

theorem new_ok : new plan nodes = .ok graph ↔ (nodes.map (·.key)).Nodup ∧
    (insertItems (·.key) (∅ : Nodes) nodes).isEmpty = false ∧
    (∀ node ∈ Entries.values (insertItems (·.key) (∅ : Nodes) nodes), checkNode plan (insertItems (·.key) ∅ nodes) node = .ok ()) ∧
    (ordering (insertItems (·.key) ∅ nodes) (downstreamEdges (insertItems (·.key) ∅ nodes))).ordered.length =
      (insertItems (·.key) (∅ : Nodes) nodes).size ∧
    ⟨plan, insertItems (·.key) ∅ nodes, downstreamEdges (insertItems (·.key) ∅ nodes),
      (ordering (insertItems (·.key) ∅ nodes) (downstreamEdges (insertItems (·.key) ∅ nodes))).ordered⟩ = graph := by
  unfold new
  simp only [bind_ok, index_ok, topologicalOrder_ok, Except.ok.injEq]
  constructor
  · rintro ⟨byKey, ⟨distinct, rfl⟩, _, filled, _, checked, topological, ⟨full, rfl⟩, same⟩
    exact ⟨distinct, ensure_ok.mp filled, forM_ok.mp checked, full, same⟩
  · rintro ⟨distinct, filled, checked, full, same⟩
    exact ⟨_, ⟨distinct, rfl⟩, (), ensure_ok.mpr filled, (), forM_ok.mpr checked, _, ⟨full, rfl⟩, same⟩

section

variable (distinct : (nodes.map (·.key)).Nodup)
include distinct

theorem mem_filled :
    key ∈ insertItems (·.key) (∅ : Nodes) nodes ↔ key ∈ nodes.map (·.key) := by
  rw [ExtTreeMap.mem_iff_isSome_getElem?, Option.isSome_iff_exists, mem_map]
  simp only [lookup_filled distinct]

theorem filled_keyed : Keyed (insertItems (·.key) ∅ nodes) :=
  fun _ _ held => ((lookup_filled distinct).mp held).2

theorem mem_filled_values :
    node ∈ Entries.values (insertItems (·.key) (∅ : Nodes) nodes) ↔ node ∈ nodes := by
  rw [mem_values (filled_keyed distinct), lookup_filled distinct]
  exact and_iff_left rfl

theorem filled_needs {need : ProductNodeKey} :
    need ∈ needsOf (insertItems (·.key) ∅ nodes) key ↔ Needs nodes need key := by
  rw [mem_needsOf]
  simp only [lookup_filled distinct, and_assoc]
  rfl

end

theorem firstReady_none {ready : ExtTreeSet ProductNodeKey} (none' : firstReady ready = none) (key : ProductNodeKey) : key ∉ ready := by
  rw [firstReady, head?_eq_none_iff] at none'
  rw [← ExtTreeSet.mem_toList, none']
  exact not_mem_nil

/-- The ordering takes every node exactly when there is no cycle. -/
theorem full_iff_acyclic (keyed : Keyed byKey) (closed : Closed byKey) :
    (ordering byKey (downstreamEdges byKey)).ordered.length = byKey.size ↔
      ∀ key, ¬ Relation.TransGen (fun need key => need ∈ needsOf byKey key) key key := by
  have edges : ∀ key ∈ nodeSet byKey, ∀ target ∈ nodeSet byKey, target ∈ targetsOf (downstreamEdges byKey) key ↔ key ∈ needsOf byKey target :=
    fun key _ target inside => (downstream_edges keyed closed key target).trans (and_iff_right inside)
  have order := ordering_midway keyed closed
  rw [← card_nodeSet]
  constructor
  · intro full
    refine order.acyclic_of_full (fun key need needed => ?_) full
    obtain ⟨node, held, -⟩ := mem_needsOf.mp needed
    exact mem_nodeSet.mpr (Entries.mem_of_held held)
  · intro acyclic
    refine order.full_of_stuck (fun key _ need needed => ?_) acyclic (firstReady_none ?_)
    · obtain ⟨node, held, needed⟩ := mem_needsOf.mp needed
      exact mem_nodeSet.mpr (closed key need node held needed)
    · exact (orderingStart_start byKey).valid.run_stops firstReady_mem (targetsOf_nodup _) edges
        (by rw [card_nodeSet]; exact Nat.lt_add_right _ (Nat.lt_succ_self _))

theorem new_accepts_iff : (∃ graph, new plan nodes = .ok graph) ↔ Acceptable plan nodes := by
  simp only [new_ok, exists_and_left, exists_eq', and_true]
  constructor
  · rintro ⟨distinct, filled, checked, full⟩
    have passed : ∀ node ∈ nodes, Declared plan node ∧ ∀ need ∈ node.prerequisites, need ∈ insertItems (·.key) (∅ : Nodes) nodes := by
      intro node inside
      have := checkNode_ok.mp (checked node ((mem_filled_values distinct).mpr inside))
      exact ⟨this.1, fun need needed => (this.2 need needed).2⟩
    have closed : Closed (insertItems (·.key) ∅ nodes) := fun key need node held needed =>
      (passed node ((lookup_filled distinct).mp held).1).2 need needed
    refine ⟨?_, distinct, fun node inside => (passed node inside).1, fun node inside need needed =>
      (mem_filled distinct).mp ((passed node inside).2 need needed), ?_⟩
    · rintro rfl
      cases filled
    · have := (full_iff_acyclic (filled_keyed distinct) closed).mp full
      simpa only [filled_needs distinct] using this
  · rintro ⟨nonempty, distinct, declared, joined, acyclic⟩
    have closed : Closed (insertItems (·.key) ∅ nodes) := fun key need node held needed =>
      (mem_filled distinct).mpr (joined node ((lookup_filled distinct).mp held).1 need needed)
    refine ⟨distinct, ?_, fun node held => ?_, ?_⟩
    · obtain ⟨node, inside⟩ := exists_mem_of_ne_nil nodes nonempty
      rw [← Bool.not_eq_true, ExtTreeMap.isEmpty_iff]
      intro empty
      have := (mem_filled distinct).mpr (mem_map_of_mem inside)
      rw [empty] at this
      exact ExtTreeMap.not_mem_empty this
    · have inside := (mem_filled_values distinct).mp held
      refine checkNode_ok.mpr ⟨declared node inside, fun need needed => ⟨?_, (mem_filled distinct).mpr (joined node inside need needed)⟩⟩
      rintro rfl
      exact acyclic _ (.single ⟨node, inside, rfl, needed⟩)
    · rw [full_iff_acyclic (filled_keyed distinct) closed]
      simpa only [filled_needs distinct] using acyclic

structure Topological (nodes : List RenderDependencyNode) (graph : RenderDependencyGraph) : Prop where
  perm : graph.topological.Perm (nodes.map (·.key))
  first : ∀ earlier key later, graph.topological = earlier ++ key :: later → ∀ need, Needs nodes need key → need ∈ earlier

theorem new_topological (accepted : new plan nodes = .ok graph) : Topological nodes graph := by
  have sound := new_sound accepted
  obtain ⟨distinct, -, -, -, rfl⟩ := new_ok.mp accepted
  refine ⟨?_, fun earlier key later split need needs => ?_⟩
  · refine (perm_ext_iff_of_nodup (ordering_midway sound.keyed sound.closed).once distinct).mpr fun key => ?_
    rw [← mem_filled distinct]
    exact sound.covers key
  · obtain ⟨node, inside, same, needed⟩ := needs
    exact sound.first earlier key later node split ((lookup_filled distinct).mpr ⟨inside, same⟩) need needed

/-! ### The schedule of the dirty nodes -/

def Dirty (graph : RenderDependencyGraph) (report : InvalidationReport) (key : ProductNodeKey) : Prop :=
  key ∈ graph.nodes ∧ isRender (report.decision key) = true

structure ReadyAfter (graph : RenderDependencyGraph) (report : InvalidationReport) (done : List ProductNodeKey) (key : ProductNodeKey) : Prop where
  dirty : Dirty graph report key
  waiting : key ∉ done
  prerequisites : ∀ node, graph.nodes[key]? = some node → ∀ need ∈ node.prerequisites, Dirty graph report need → need ∈ done

structure Schedules (graph : RenderDependencyGraph) (report : InvalidationReport) (loopRegion : Option LoopRegion) (playhead : I64)
    (jobs : List ScheduledRenderProduct) : Prop where
  once : (jobs.map (·.node)).Nodup
  complete : ∀ key, key ∈ jobs.map (·.node) ↔ Dirty graph report key
  described : ∀ job ∈ jobs, ∃ node reasons, graph.nodes[job.node]? = some node ∧ report.decision job.node = some (.render reasons) ∧
    job = ⟨job.node, node.context, node.boundaryRecipe, productPriority node loopRegion playhead, reasons⟩
  least : ∀ earlier job later, jobs = earlier ++ job :: later → ReadyAfter graph report (earlier.map (·.node)) job.node ∧
    ∀ other, ReadyAfter graph report (earlier.map (·.node)) other → rank graph loopRegion playhead job.node ≤ rank graph loopRegion playhead other

section Dirty

variable {report : InvalidationReport} {loopRegion : Option LoopRegion} {playhead : I64}

theorem mem_dirtyNodes : key ∈ dirtyNodes graph report ↔ Dirty graph report key := by
  rw [dirtyNodes, ExtTreeSet.mem_ofList, contains_iff_mem, mem_filter, ExtTreeMap.mem_keys]
  rfl

def dirtySet (graph : RenderDependencyGraph) (report : InvalidationReport) : Finset ProductNodeKey := (dirtyNodes graph report).toList.toFinset

theorem mem_dirtySet : key ∈ dirtySet graph report ↔ Dirty graph report key := by
  rw [dirtySet, mem_toFinset, ExtTreeSet.mem_toList, mem_dirtyNodes]

theorem card_dirtySet : (dirtySet graph report).card = (dirtyNodes graph report).size := by
  rw [dirtySet, toFinset_card_of_nodup (set_nodup_toList _), ExtTreeSet.length_toList]

def dirtyNeeds (graph : RenderDependencyGraph) (report : InvalidationReport) (key : ProductNodeKey) : Finset ProductNodeKey :=
  (needsOf graph.nodes key).filter (· ∈ dirtySet graph report)

theorem card_dirtyNeeds : (dirtyNeeds graph report key).card = dirtyDegree graph (dirtyNodes graph report) key := by
  unfold dirtyNeeds dirtyDegree needsOf
  cases graph.nodes[key]? with
  | none => rfl
  | some node =>
    dsimp only
    rw [← toFinset_card_of_nodup ((set_nodup_toList node.prerequisites).filter _)]
    congr 1
    ext need
    simp [mem_dirtySet, mem_dirtyNodes]

theorem dirtyStart_start : Kahn.Start (dirtySet graph report) (dirtyNeeds graph report) (dirtyStart graph (dirtyNodes graph report)) := by
  have inside {key : ProductNodeKey} (dirty : key ∈ dirtyNodes graph report) : (dirtyStart graph (dirtyNodes graph report)).indegree[key]? =
      some (dirtyDegree graph (dirtyNodes graph report) key) := by
    apply ExtTreeMap.getElem?_ofList_of_mem (k := key) Std.ReflCmp.compare_self
    · have distinct : (dirtyNodes graph report).toList.Pairwise fun a b => ¬ compare a b = .eq := ExtTreeSet.distinct_toList
      exact pairwise_map.mpr distinct
    · exact mem_map.mpr ⟨key, ExtTreeSet.mem_toList.mpr dirty, rfl⟩
  have outside {key : ProductNodeKey} (clean : key ∉ dirtyNodes graph report) : (dirtyStart graph (dirtyNodes graph report)).indegree[key]? = none := by
    apply ExtTreeMap.getElem?_ofList_of_contains_eq_false
    rw [← Bool.not_eq_true, contains_iff_mem, map_map, mem_map]
    rintro ⟨other, member, rfl⟩
    exact clean (ExtTreeSet.mem_toList.mp member)
  refine ⟨rfl, fun key => ?_, fun key => ?_⟩
  · split
    next dirty => rw [inside (mem_dirtyNodes.mpr (mem_dirtySet.mp dirty)), card_dirtyNeeds]
    next clean => exact outside fun dirty => clean (mem_dirtySet.mpr (mem_dirtyNodes.mp dirty))
  · have ready : key ∈ (dirtyStart graph (dirtyNodes graph report)).ready ↔
        key ∈ dirtyNodes graph report ∧ dirtyDegree graph (dirtyNodes graph report) key = 0 := by
      unfold dirtyStart
      rw [ExtTreeSet.mem_ofList, contains_iff_mem, mem_filter, ExtTreeSet.mem_toList, decide_eq_true_eq]
    rw [ready]
    by_cases dirty : key ∈ dirtyNodes graph report
    · rw [inside dirty, Option.some.injEq, and_iff_right dirty]
    · simp [outside dirty, dirty]

theorem leastReady_mem (ready : ExtTreeSet ProductNodeKey) (key : ProductNodeKey) (least : leastReady graph loopRegion playhead ready = some key) :
    key ∈ ready :=
  ExtTreeSet.mem_toList.mp (argmin_mem (Option.mem_def.mpr least))

theorem dirty_edges (sound : Sound graph) : ∀ key ∈ dirtySet graph report, ∀ target ∈ dirtySet graph report,
    target ∈ targetsOf graph.downstream key ↔ key ∈ dirtyNeeds graph report target := by
  intro key inside target inside'
  rw [sound.downstream, downstream_edges sound.keyed sound.closed, dirtyNeeds, Finset.mem_filter, and_iff_left inside, mem_nodeSet]
  exact and_iff_right (mem_dirtySet.mp inside').1

theorem readyAfter_iff {done : List ProductNodeKey} : ReadyAfter graph report done key ↔
    key ∈ dirtySet graph report ∧ key ∉ done ∧ ∀ need ∈ dirtyNeeds graph report key, need ∈ done := by
  simp only [dirtyNeeds, Finset.mem_filter, mem_dirtySet, mem_needsOf]
  constructor
  · rintro ⟨dirty, waiting, prerequisites⟩
    refine ⟨dirty, waiting, ?_⟩
    rintro need ⟨⟨node, held, needed⟩, dirty'⟩
    exact prerequisites node held need needed dirty'
  · rintro ⟨dirty, waiting, prerequisites⟩
    exact ⟨dirty, waiting, fun node held need needed dirty' => prerequisites need ⟨⟨node, held, needed⟩, dirty'⟩⟩

theorem scheduled_dirty (dirty : Dirty graph report key) : ∃ node reasons, graph.nodes[key]? = some node ∧
    report.decision key = some (.render reasons) ∧ scheduled graph report loopRegion playhead key =
      some ⟨key, node.context, node.boundaryRecipe, productPriority node loopRegion playhead, reasons⟩ := by
  obtain ⟨inside, renders⟩ := dirty
  obtain ⟨node, held⟩ := Entries.held_of_mem inside
  unfold isRender at renders
  split at renders
  next reasons decided => exact ⟨node, reasons, held, decided, by simp [scheduled, held, decided]⟩
  · cases renders

theorem scheduled_nodes {keys : List ProductNodeKey} (dirty : ∀ key ∈ keys, Dirty graph report key) :
    (keys.filterMap (scheduled graph report loopRegion playhead)).map (·.node) = keys := by
  induction keys with
  | nil => rfl
  | cons key keys ih =>
    obtain ⟨node, reasons, -, -, made⟩ := @scheduled_dirty graph key report loopRegion playhead (dirty key mem_cons_self)
    rw [filterMap_cons_some made, map_cons, ih fun other inside => dirty other (mem_cons_of_mem _ inside)]

theorem scheduleOrder_midway (sound : Sound graph) :
    Kahn.Partial (dirtySet graph report) (dirtyNeeds graph report) (scheduleOrder graph report loopRegion playhead) :=
  dirtyStart_start.valid.run leastReady_mem (targetsOf_nodup _) (dirty_edges sound) _

/-- Each node was of least rank among those that were ready when it was taken. -/
theorem scheduleOrder_least (sound : Sound graph) {earlier later : List ProductNodeKey}
    (split : (scheduleOrder graph report loopRegion playhead).ordered = earlier ++ key :: later) :
    ReadyAfter graph report earlier key ∧
      ∀ other, ReadyAfter graph report earlier other → rank graph loopRegion playhead key ≤ rank graph loopRegion playhead other := by
  obtain ⟨more, extended, trace⟩ := (@dirtyStart_start graph report).valid.run_chosen (@leastReady_mem graph loopRegion playhead)
    (targetsOf_nodup _) (dirty_edges sound) ((dirtyNodes graph report).size + 1)
  have begins : (dirtyStart graph (dirtyNodes graph report)).ordered = [] := rfl
  simp only [begins, nil_append] at extended trace
  obtain ⟨ready, chosen, among⟩ := trace earlier key later (extended.symm.trans split)
  have least (other : ProductNodeKey) : ReadyAfter graph report earlier other ↔ other ∈ ready := by
    rw [readyAfter_iff, among]
  refine ⟨(least _).mpr (leastReady_mem ready _ chosen), fun other waits => ?_⟩
  exact le_of_mem_argmin (ExtTreeSet.mem_toList.mpr ((least other).mp waits)) (Option.mem_def.mpr chosen)

section

variable (sound : Sound graph) (acyclic : ∀ key, ¬ Relation.TransGen (fun need key => need ∈ needsOf graph.nodes key) key key)
include sound acyclic

/-- Every part of the graph that is dirty has a ready node, so the order is complete. -/
theorem scheduleOrder_full :
    (scheduleOrder graph report loopRegion playhead).ordered.length = (dirtySet graph report).card := by
  have stopped := (@dirtyStart_start graph report).valid.run_stops (@leastReady_mem graph loopRegion playhead) (targetsOf_nodup _)
    (dirty_edges sound) (by rw [card_dirtySet]; exact Nat.lt_add_right _ (Nat.lt_succ_self _))
  rw [leastReady, argmin_eq_none] at stopped
  apply (scheduleOrder_midway sound).full_of_stuck
  · exact fun key _ need needed => (Finset.mem_filter.mp needed).2
  · exact fun key cycle => acyclic key (Relation.TransGen.mono (fun _ _ needed => (Finset.mem_filter.mp needed).1) _ _ cycle)
  · intro key
    rw [← ExtTreeSet.mem_toList, scheduleOrder, stopped]
    exact not_mem_nil

theorem build_schedules
    (same : graph.plan = report.target) : ∃ jobs, DependencySchedule.build graph report loopRegion playhead =
      .ok ⟨graph.plan, jobs, cohortRequirements graph (dirtyNodes graph report)⟩ ∧ Schedules graph report loopRegion playhead jobs := by
  have order := @scheduleOrder_midway graph report loopRegion playhead sound
  have full := @scheduleOrder_full graph report loopRegion playhead sound acyclic
  have dirty : ∀ key ∈ (scheduleOrder graph report loopRegion playhead).ordered, Dirty graph report key :=
    fun key inside => mem_dirtySet.mp (order.within key inside)
  have nodes := @scheduled_nodes graph report loopRegion playhead _ dirty
  refine ⟨(scheduleOrder graph report loopRegion playhead).ordered.filterMap (scheduled graph report loopRegion playhead), ?_, ?_, ?_, ?_, ?_⟩
  · have counted := congrArg List.length nodes
    rw [length_map, full, card_dirtySet] at counted
    unfold DependencySchedule.build
    rw [if_neg (not_not.mpr same)]
    exact if_neg (not_not.mpr counted)
  · rw [nodes]
    exact order.once
  · intro key
    rw [nodes]
    exact ⟨dirty key, fun dirty => order.mem_of_full full (mem_dirtySet.mpr dirty)⟩
  · intro job inside
    obtain ⟨key, taken, made⟩ := mem_filterMap.mp inside
    obtain ⟨node, reasons, held, decided, made'⟩ := @scheduled_dirty graph key report loopRegion playhead (dirty key taken)
    cases Option.some.inj (made.symm.trans made')
    exact ⟨node, reasons, held, decided, rfl⟩
  · intro earlier job later split
    have taken := congrArg (List.map (·.node)) split
    rw [nodes, map_append, map_cons] at taken
    exact scheduleOrder_least sound taken

end

end Dirty

/-! ### Readiness of a cohort -/

theorem grouped (nodes : List RenderDependencyNode) (cohort : ProductCohort) : (nodes.foldl group ∅)[cohort]?.getD [] =
      (nodes.filter (·.cohort = cohort)).map (·.key) ∧
    ((nodes.foldl group ∅)[cohort]? = none ↔ ∀ node ∈ nodes, node.cohort ≠ cohort) := by
  induction nodes using List.reverseRecOn generalizing cohort with
  | nil => simp
  | append_singleton nodes node ih =>
    rw [foldl_append, foldl_cons, foldl_nil, group, ExtTreeMap.getElem?_insert]
    simp only [compare_eq_iff_eq, filter_append, map_append]
    split
    next same =>
      subst same
      simp [(ih node.cohort).1]
    next apart =>
      simp only [(ih cohort).1, (ih cohort).2, forall_mem_append, forall_mem_singleton]
      simp [apart]

structure CohortReady (nodes : List RenderDependencyNode) (schedule : DependencySchedule) (cohort : ProductCohort)
    (available : ExtTreeSet ProductNodeKey) : Prop where
  unknown : schedule.readiness cohort available = none ↔ ∀ node ∈ nodes, node.cohort ≠ cohort
  ready : schedule.readiness cohort available = some .ready ↔
    (∃ node ∈ nodes, node.cohort = cohort) ∧ ∀ node ∈ nodes, node.cohort = cohort → node.key ∈ available

theorem cohortReady (graph : RenderDependencyGraph) (dirty : ExtTreeSet ProductNodeKey) (jobs : List ScheduledRenderProduct)
    (cohort : ProductCohort) (available : ExtTreeSet ProductNodeKey) :
    CohortReady (Entries.values graph.nodes) ⟨graph.plan, jobs, cohortRequirements graph dirty⟩ cohort available := by
  obtain ⟨members, absent⟩ := grouped (Entries.values graph.nodes) cohort
  have known : (∃ node ∈ Entries.values graph.nodes, node.cohort = cohort) ↔ ((Entries.values graph.nodes).foldl group ∅)[cohort]? ≠ none := by
    rw [Ne, absent]
    push Not
    rfl
  constructor
  · unfold DependencySchedule.readiness cohortRequirements
    rw [ExtTreeMap.getElem?_map, Option.map_map, Option.map_eq_none_iff, absent]
  · unfold DependencySchedule.readiness cohortRequirements
    rw [ExtTreeMap.getElem?_map, known]
    cases held : ((Entries.values graph.nodes).foldl group ∅)[cohort]? with
    | none => simp
    | some required =>
      rw [held, Option.getD_some] at members
      subst members
      simp only [Option.map_some, ne_eq, reduceCtorEq, not_false_eq_true, true_and, Option.some.injEq]
      split
      next empty =>
        rw [List.isEmpty_iff, filter_eq_nil_iff] at empty
        refine ⟨fun _ node inside same => ?_, fun _ => rfl⟩
        simpa using empty node.key (mem_map.mpr ⟨node, mem_filter.mpr ⟨inside, by simpa using same⟩, rfl⟩)
      next missing =>
        constructor
        · intro impossible
          cases impossible
        · intro all
          refine (missing ?_).elim
          rw [List.isEmpty_iff, filter_eq_nil_iff]
          intro key inside
          obtain ⟨node, member, rfl⟩ := mem_map.mp inside
          obtain ⟨member, same⟩ := mem_filter.mp member
          simpa using all node member (by simpa using same)

/-- Accepted graphs are the acyclic ones that pass their checks; their orders and schedules are complete, and readiness is
that of whole cohorts. -/
theorem dependency_schedules (plan : RenderPlanId) (nodes : List RenderDependencyNode) :
    ((∃ graph, RenderDependencyGraph.new plan nodes = .ok graph) ↔ Acceptable plan nodes) ∧
    (∀ others, nodes.Perm others → RenderDependencyGraph.new plan nodes = RenderDependencyGraph.new plan others) ∧
    ∀ graph, RenderDependencyGraph.new plan nodes = .ok graph → Topological nodes graph ∧ ∀ report loopRegion playhead,
      (graph.plan ≠ report.target → DependencySchedule.build graph report loopRegion playhead = .error .reportPlanMismatch) ∧
      (graph.plan = report.target → ∃ schedule, DependencySchedule.build graph report loopRegion playhead = .ok schedule ∧
        Schedules graph report loopRegion playhead schedule.jobs ∧ ∀ cohort available, CohortReady nodes schedule cohort available) := by
  refine ⟨new_accepts_iff, fun others perm => RenderDependencyGraph.new_perm plan perm, fun graph accepted =>
    ⟨new_topological accepted, fun report loopRegion playhead => ⟨fun different => if_pos different, fun same => ?_⟩⟩⟩
  have sound := RenderDependencyGraph.new_sound accepted
  obtain ⟨distinct, -, -, full, made⟩ := new_ok.mp accepted
  have held : graph.nodes = insertItems (·.key) ∅ nodes := (congrArg RenderDependencyGraph.nodes made).symm
  have acyclic : ∀ key, ¬ Relation.TransGen (fun need key => need ∈ needsOf graph.nodes key) key key := by
    rw [held]
    exact (full_iff_acyclic (filled_keyed distinct) (held ▸ sound.closed)).mp full
  have members (node : RenderDependencyNode) : node ∈ Entries.values graph.nodes ↔ node ∈ nodes := by
    rw [held]
    exact mem_filled_values distinct
  obtain ⟨jobs, built, schedules⟩ := @build_schedules graph report loopRegion playhead sound acyclic same
  refine ⟨_, built, schedules, fun cohort available => ?_⟩
  have whole := cohortReady graph (dirtyNodes graph report) jobs cohort available
  constructor
  · simpa only [members] using whole.unknown
  · simpa only [members] using whole.ready

def allRendered : InvalidationReport :=
  ⟨plainPlan 0, (ExtTreeMap.empty.insert masterKey (.render [])).insert busKey (.render [])⟩

theorem bus_is_scheduled_first : ∃ schedule, DependencySchedule.build (mixGraph 0) allRendered none (.saturate 0) = .ok schedule ∧
    Schedules (mixGraph 0) allRendered none (.saturate 0) schedule.jobs := by
  have accepted : RenderDependencyGraph.new (plainPlan 0) [masterNode, busNode] = .ok (mixGraph 0) := by decide +kernel
  obtain ⟨schedule, built, schedules, -⟩ :=
    (((dependency_schedules (plainPlan 0) [masterNode, busNode]).2.2 _ accepted).2 allRendered none (.saturate 0)).2 rfl
  exact ⟨schedule, built, schedules⟩

/-- No node at all is not accepted, and a cohort is not ready because what one of its products needs is. -/
theorem readiness_is_of_cohorts :
    ¬ (∀ plan nodes, (nodes.map RenderDependencyNode.key).Nodup →
        (∀ node ∈ nodes, ∀ need ∈ node.prerequisites, need ∈ nodes.map RenderDependencyNode.key) →
        (∀ key, ¬ Relation.TransGen (Needs nodes) key key) → ∃ graph, RenderDependencyGraph.new plan nodes = .ok graph) ∧
    ¬ ∀ graph report loopRegion playhead schedule, DependencySchedule.build graph report loopRegion playhead = .ok schedule →
      ∀ job ∈ schedule.jobs, ∀ node, graph.nodes[job.node]? = some node → ∀ available : ExtTreeSet ProductNodeKey,
        (∀ need ∈ node.prerequisites, Dirty graph report need → need ∈ available) → schedule.readiness node.cohort available = some .ready := by
  constructor
  · intro claim
    have acyclic : ∀ key, ¬ Relation.TransGen (Needs []) key key := by
      intro key cycle
      obtain ⟨_, ⟨node, absent, -⟩, -⟩ := Relation.TransGen.head'_iff.mp cycle
      cases absent
    obtain ⟨graph, accepted⟩ := claim (plainPlan 0) [] List.nodup_nil (fun node absent => by cases absent) acyclic
    have refused : RenderDependencyGraph.new (plainPlan 0) [] = .error .emptyGraph := rfl
    rw [refused] at accepted
    cases accepted
  · intro claim
    have facts : (DependencySchedule.build (mixGraph 0) allRendered none (.saturate 0)).toOption.any (fun schedule =>
        schedule.jobs.any (·.node = masterKey) ∧
          schedule.readiness .playback (ExtTreeSet.empty.insert busKey) = some (.priming [masterKey])) = true := by decide +kernel
    cases built : DependencySchedule.build (mixGraph 0) allRendered none (.saturate 0) with
    | error error =>
      rw [built] at facts
      cases facts
    | ok schedule =>
      rw [built] at facts
      obtain ⟨listed, primes⟩ := of_decide_eq_true facts
      obtain ⟨job, inside, same⟩ := List.any_eq_true.mp listed
      have master : (mixGraph 0).nodes[job.node]? = some masterNode := by
        rw [of_decide_eq_true same]
        decide
      have ready := claim _ _ _ _ schedule built job inside masterNode master (ExtTreeSet.empty.insert busKey) fun need needed _ => needed
      rw [show masterNode.cohort = .playback from rfl, primes] at ready
      cases ready

end Audec.Render

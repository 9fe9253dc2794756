import Audec.Lib.Filling
import Audec.Render.Dependencies

/-! What holds of every accepted dependency graph, and that neither it nor a plan depends on the order its parts were listed in. -/

open Machine Checked Filling Std.ExtTreeMap
open Std (ExtTreeMap ExtTreeSet)

namespace Audec.Render

open RenderDependencyGraph RenderDependencyNode

theorem adjacentDuplicate_none {stamps : List RenderDependencyStamp} (sorted : stamps.Pairwise fun left right => left.key ≤ right.key) :
    adjacentDuplicate stamps = none ↔ (stamps.map (·.key)).Nodup := by
  constructor
  · exact fun distinct => List.pairwise_map.mpr ((strictly_sorted sorted distinct).imp ne_of_lt)
  · intro distinct
    induction stamps with
    | nil => rfl
    | cons left rest tail =>
      cases rest with
      | nil => rfl
      | cons right rest =>
        obtain ⟨absent, distinct⟩ := List.nodup_cons.mp distinct
        unfold adjacentDuplicate
        rw [if_neg fun same => absent (List.mem_map.mpr ⟨right, .head _, same.symm⟩)]
        exact tail (List.pairwise_cons.mp sorted).2 distinct

theorem sortStamps_perm (stamps : List RenderDependencyStamp) : (sortStamps stamps).Perm stamps := List.perm_insertionSort _ _

theorem sortStamps_congr {stamps others : List RenderDependencyStamp} (distinct : (stamps.map (·.key)).Nodup) (perm : stamps.Perm others) :
    sortStamps stamps = sortStamps others := by
  have perm' : (sortStamps stamps).Perm (sortStamps others) := (sortStamps_perm stamps).trans (perm.trans (sortStamps_perm others).symm)
  have keys := ((sortStamps_perm stamps).map (·.key)).nodup_iff.mpr distinct
  refine perm'.eq_of_pairwise (fun left right member member' below above => ?_) (sortStamps_sorted stamps) (sortStamps_sorted others)
  exact List.inj_on_of_nodup_map keys member (perm'.mem_iff.mpr member') (le_antisymm below above)

theorem RenderPlanId.new_ok {projectNamespace : U128} {snapshot : ExactDigest} {revisions : ProjectRevisionStamp} {compiledExtent : RenderSpan}
    {engine : EngineRecipeStamp} {dependencies : List RenderDependencyStamp} {plan : RenderPlanId} :
    new projectNamespace snapshot revisions compiledExtent engine dependencies = .ok plan ↔ (dependencies.map (·.key)).Nodup ∧
      ∃ sorted, ⟨schemaVersionNow, projectNamespace, snapshot, revisions, compiledExtent, engine, sortStamps dependencies, sorted⟩ = plan := by
  rw [← ((sortStamps_perm dependencies).map (·.key)).nodup_iff, ← adjacentDuplicate_none (sortStamps_sorted dependencies)]
  unfold new
  split
  · rename_i duplicate
    simp [duplicate]
  · rename_i distinct
    constructor
    · intro made
      exact ⟨distinct, _, Except.ok.inj made⟩
    · rintro ⟨-, sorted, rfl⟩
      rfl

/-- Equality of plans is an exact comparison of what they are made from, but for the order of the dependencies. -/
theorem plan_id_exact (projectNamespace : U128) (snapshot : ExactDigest) (revisions : ProjectRevisionStamp) (compiledExtent : RenderSpan)
    (engine : EngineRecipeStamp) (dependencies : List RenderDependencyStamp) :
    ((∃ plan, RenderPlanId.new projectNamespace snapshot revisions compiledExtent engine dependencies = .ok plan) ↔
      (dependencies.map (·.key)).Nodup) ∧
    ∀ plan projectNamespace' snapshot' revisions' compiledExtent' engine' dependencies',
      RenderPlanId.new projectNamespace snapshot revisions compiledExtent engine dependencies = .ok plan →
      (RenderPlanId.new projectNamespace' snapshot' revisions' compiledExtent' engine' dependencies' = .ok plan ↔
        (projectNamespace, snapshot, revisions, compiledExtent, engine) = (projectNamespace', snapshot', revisions', compiledExtent', engine') ∧
          dependencies.Perm dependencies') := by
  simp only [RenderPlanId.new_ok, exists_and_left]
  refine ⟨⟨And.left, fun distinct => ⟨distinct, _, ?_, rfl⟩⟩, ?_⟩
  · have keys := ((sortStamps_perm dependencies).map (·.key)).nodup_iff.mpr distinct
    exact strictly_sorted (sortStamps_sorted dependencies) ((adjacentDuplicate_none (sortStamps_sorted dependencies)).mpr keys)
  · rintro plan projectNamespace' snapshot' revisions' compiledExtent' engine' dependencies' ⟨distinct, sorted, rfl⟩
    constructor
    · rintro ⟨-, sorted', same⟩
      obtain ⟨-, rfl, rfl, rfl, rfl, rfl, listed⟩ := RenderPlanId.mk.inj same
      exact ⟨rfl, (sortStamps_perm dependencies).symm.trans (listed ▸ sortStamps_perm dependencies')⟩
    · rintro ⟨same, perm⟩
      cases same
      refine ⟨(perm.map _).nodup_iff.mp distinct, ?_⟩
      simp only [← sortStamps_congr distinct perm]
      exact ⟨sorted, trivial⟩

section Index

variable {after byKey : Nodes}

theorem indexNode_ok {node : RenderDependencyNode} :
    indexNode byKey node = .ok after ↔ node.key ∉ byKey ∧ byKey.insert node.key node = after := by
  unfold indexNode
  rw [bind_unit_ok, ensure_ok, Except.ok.injEq]

variable {nodes : List RenderDependencyNode}

theorem index_ok :
    nodes.foldlM indexNode ∅ = .ok after ↔ (nodes.map (·.key)).Nodup ∧ insertItems (·.key) ∅ nodes = after := by
  have steps : ∀ (byKey : Nodes) (node : RenderDependencyNode) (after : Nodes),
      indexNode byKey node = .ok after ↔ True ∧ node.key ∉ byKey ∧ byKey.insert node.key node = after := by
    intro byKey node after
    rw [indexNode_ok, true_and]
  rw [fill_ok steps]
  simp

theorem index_error {error : RenderDependencyError}
    (failed : nodes.foldlM indexNode byKey = .error error) : error = .duplicateNode := by
  induction nodes generalizing byKey with
  | nil => cases failed
  | cons node nodes tail =>
    rw [List.foldlM_cons] at failed
    unfold indexNode ensure at failed
    split at failed
    · exact tail failed
    · cases failed
      rfl

theorem index_perm {others : List RenderDependencyNode} (perm : nodes.Perm others) :
    nodes.foldlM indexNode (∅ : Nodes) = others.foldlM indexNode ∅ := by
  have agree : ∀ {listed relisted : List RenderDependencyNode}, listed.Perm relisted → ∀ after : Nodes,
      listed.foldlM indexNode ∅ = .ok after → relisted.foldlM indexNode ∅ = .ok after := by
    intro listed relisted same after accepted
    obtain ⟨distinct, rfl⟩ := index_ok.mp accepted
    exact index_ok.mpr ⟨(same.map _).nodup_iff.mp distinct, (insertItems_perm same distinct).symm⟩
  cases left : nodes.foldlM indexNode (∅ : Nodes) with
  | ok after => exact (agree perm after left).symm
  | error error =>
    cases right : others.foldlM indexNode (∅ : Nodes) with
    | ok after => rw [agree perm.symm after right] at left; cases left
    | error error' => rw [index_error left, index_error right]

end Index

theorem RenderDependencyGraph.new_perm (plan : RenderPlanId) {nodes others : List RenderDependencyNode} (perm : nodes.Perm others) :
    new plan nodes = new plan others := by
  unfold new
  rw [index_perm perm]

theorem RenderDependencyNode.dependsOn_perm (node : RenderDependencyNode) {edges others : List ProductNodeKey} (perm : edges.Perm others) :
    edges.foldl dependsOn node = others.foldl dependsOn node := by
  have commutes : RightCommutative dependsOn := by
    constructor
    intro node a b
    unfold dependsOn
    congr 1
    apply ExtTreeSet.ext_mem
    intro key
    simp only [ExtTreeSet.mem_insert]
    exact or_left_comm
  exact perm.foldl_eq node

section Edges

theorem set_nodup_toList (keys : ExtTreeSet ProductNodeKey) : keys.toList.Nodup :=
  ExtTreeSet.distinct_toList.imp fun different same => different (compare_eq_iff_eq.mpr same)

def Links (edges : Edges) (key target : ProductNodeKey) : Prop := ∃ targets, edges[key]? = some targets ∧ target ∈ targets

variable {edges : Edges} {key target other : ProductNodeKey}

theorem mem_targetsOf : target ∈ targetsOf edges key ↔ Links edges key target := by
  unfold targetsOf Links
  cases edges[key]? with
  | none => simp
  | some targets => simp [ExtTreeSet.mem_toList]

theorem targetsOf_nodup (edges : Edges) (key : ProductNodeKey) : (targetsOf edges key).Nodup := by
  unfold targetsOf
  split
  · exact List.nodup_nil
  · exact set_nodup_toList _

variable {prerequisite : ProductNodeKey} {node : RenderDependencyNode}

theorem mem_addEdge :
    key ∈ addEdge target edges prerequisite ↔ key ∈ edges := by
  unfold addEdge
  split
  · rfl
  · rename_i targets held
    rw [mem_insert, compare_eq_iff_eq]
    refine ⟨?_, .inr⟩
    rintro (rfl | inside)
    · exact Entries.mem_of_held held
    · exact inside

theorem links_addEdge :
    Links (addEdge target edges prerequisite) key other ↔
      Links edges key other ∨ (key = prerequisite ∧ other = target ∧ key ∈ edges) := by
  unfold addEdge
  split
  · rename_i absent
    refine ⟨.inl, ?_⟩
    rintro (linked | ⟨rfl, -, inside⟩)
    · exact linked
    · rw [mem_iff_isSome_getElem?, absent] at inside
      cases inside
  · rename_i targets held
    unfold Links
    rw [Entries.lookup_insert]
    by_cases same : prerequisite = key
    · subst same
      have inside : prerequisite ∈ edges := Entries.mem_of_held held
      simp only [if_true, held, Option.some.injEq, exists_eq_left', ExtTreeSet.mem_insert, compare_eq_iff_eq, inside, true_and,
        and_true, eq_comm (a := other)]
      exact or_comm
    · simp only [if_neg same, Ne.symm same, false_and, or_false]

theorem mem_addEdges_list (prerequisites : List ProductNodeKey) :
    key ∈ prerequisites.foldl (addEdge target) edges ↔ key ∈ edges := by
  induction prerequisites generalizing edges with
  | nil => rfl
  | cons first prerequisites tail => rw [List.foldl_cons, tail, mem_addEdge]

theorem links_addEdges_list (prerequisites : List ProductNodeKey) :
    Links (prerequisites.foldl (addEdge target) edges) key other ↔
      Links edges key other ∨ (key ∈ prerequisites ∧ other = target ∧ key ∈ edges) := by
  induction prerequisites generalizing edges with
  | nil => simp
  | cons first prerequisites tail =>
    rw [List.foldl_cons, tail, links_addEdge, mem_addEdge, List.mem_cons]
    tauto

theorem mem_addEdges : key ∈ addEdges edges node ↔ key ∈ edges :=
  mem_addEdges_list _

theorem links_addEdges :
    Links (addEdges edges node) key other ↔ Links edges key other ∨ (key ∈ node.prerequisites ∧ other = node.key ∧ key ∈ edges) := by
  unfold addEdges
  rw [links_addEdges_list, ExtTreeSet.mem_toList]

theorem links_nodes (nodes : List RenderDependencyNode) :
    Links (nodes.foldl addEdges edges) key other ↔
      Links edges key other ∨ ∃ node ∈ nodes, key ∈ node.prerequisites ∧ other = node.key ∧ key ∈ edges := by
  induction nodes generalizing edges with
  | nil => simp
  | cons node nodes tail =>
    simp only [List.foldl_cons, tail, links_addEdges, mem_addEdges, List.mem_cons, exists_eq_or_imp, or_assoc]

end Edges

def Keyed (nodes : Nodes) : Prop := ∀ (key : ProductNodeKey) (node : RenderDependencyNode), nodes[key]? = some node → node.key = key

def Closed (nodes : Nodes) : Prop :=
  ∀ (key need : ProductNodeKey) (node : RenderDependencyNode), nodes[key]? = some node → need ∈ node.prerequisites → need ∈ nodes

variable {nodes : Nodes}

variable {node : RenderDependencyNode} {plan : RenderPlanId}

theorem mem_values (keyed : Keyed nodes) :
    node ∈ Entries.values nodes ↔ nodes[node.key]? = some node := by
  rw [Entries.mem_values]
  constructor
  · rintro ⟨key, held⟩
    rw [keyed key node held]
    exact held
  · exact fun held => ⟨node.key, held⟩

theorem links_downstream (keyed : Keyed nodes) (closed : Closed nodes) {key target : ProductNodeKey} :
    Links (downstreamEdges nodes) key target ↔ ∃ node, nodes[target]? = some node ∧ key ∈ node.prerequisites := by
  have bare : ¬ Links (nodes.map fun _ _ => ∅) key target := by
    rintro ⟨targets, held, inside⟩
    rw [getElem?_map, Option.map_eq_some_iff] at held
    obtain ⟨node, -, rfl⟩ := held
    exact ExtTreeSet.not_mem_empty inside
  unfold downstreamEdges
  simp only [links_nodes, bare, false_or, mem_values keyed, mem_map]
  constructor
  · rintro ⟨node, held, needed, rfl, -⟩
    exact ⟨node, held, needed⟩
  · rintro ⟨node, held, needed⟩
    have same := keyed target node held
    subst same
    exact ⟨node, held, needed, rfl, closed node.key key node held needed⟩

section Kahn

def nodeSet (nodes : Nodes) : Finset ProductNodeKey := nodes.keys.toFinset

def needsOf (nodes : Nodes) (key : ProductNodeKey) : Finset ProductNodeKey :=
  match nodes[key]? with
  | none => ∅
  | some node => node.prerequisites.toList.toFinset

variable {key : ProductNodeKey}

theorem mem_nodeSet {nodes : Nodes} : key ∈ nodeSet nodes ↔ key ∈ nodes := by
  rw [nodeSet, List.mem_toFinset, mem_keys]

theorem card_nodeSet (nodes : Nodes) : (nodeSet nodes).card = nodes.size := by
  rw [nodeSet, List.toFinset_card_of_nodup nodup_keys, length_keys]

theorem mem_needsOf {nodes : Nodes} {need : ProductNodeKey} :
    need ∈ needsOf nodes key ↔ ∃ node, nodes[key]? = some node ∧ need ∈ node.prerequisites := by
  unfold needsOf
  cases nodes[key]? with
  | none => simp
  | some node => simp [ExtTreeSet.mem_toList]

theorem orderingStart_start (nodes : Nodes) : Kahn.Start (nodeSet nodes) (needsOf nodes) (orderingStart nodes) where
  ordered := rfl
  degree := by
    intro key
    unfold orderingStart needsOf
    simp only [getElem?_map, mem_nodeSet, mem_iff_isSome_getElem?]
    cases nodes[key]? with
    | none => rfl
    | some node =>
      simp only [Option.map_some, Option.isSome_some, if_true, Option.some.injEq]
      rw [List.toFinset_card_of_nodup (set_nodup_toList _), ExtTreeSet.length_toList]
  ready := by
    intro key
    unfold orderingStart
    simp only [ExtTreeSet.mem_ofList, List.contains_iff_mem, mem_keys, mem_iff_isSome_getElem?,
      getElem?_filter', Option.isSome_filter]
    cases (nodes.map fun _ node => node.prerequisites.size)[key]? <;> simp

theorem downstream_edges (keyed : Keyed nodes) (closed : Closed nodes) (key target : ProductNodeKey) :
    target ∈ targetsOf (downstreamEdges nodes) key ↔ target ∈ nodeSet nodes ∧ key ∈ needsOf nodes target := by
  rw [mem_targetsOf, links_downstream keyed closed, mem_needsOf, mem_nodeSet]
  refine ⟨fun linked => ⟨?_, linked⟩, And.right⟩
  obtain ⟨node, held, -⟩ := linked
  exact Entries.mem_of_held held

theorem firstReady_mem (ready : ExtTreeSet ProductNodeKey) (key : ProductNodeKey) (first : firstReady ready = some key) :
    key ∈ ready :=
  ExtTreeSet.mem_toList.mp (List.mem_of_mem_head? first)

theorem ordering_midway (keyed : Keyed nodes) (closed : Closed nodes) :
    Kahn.Partial (nodeSet nodes) (needsOf nodes) (ordering nodes (downstreamEdges nodes)) :=
  (orderingStart_start nodes).valid.run firstReady_mem (targetsOf_nodup _)
    (fun key _ target inside => (downstream_edges keyed closed key target).trans (and_iff_right inside)) _

end Kahn

structure Sound (graph : RenderDependencyGraph) : Prop where
  keyed : Keyed graph.nodes
  closed : Closed graph.nodes
  downstream : graph.downstream = downstreamEdges graph.nodes
  covers : ∀ key, key ∈ graph.topological ↔ key ∈ graph.nodes
  first : ∀ earlier key later node, graph.topological = earlier ++ key :: later → graph.nodes[key]? = some node →
    ∀ need ∈ node.prerequisites, need ∈ earlier

theorem topologicalOrder_ok {downstream : Edges} {topological : List ProductNodeKey} :
    topologicalOrder nodes downstream = .ok topological ↔
      (ordering nodes downstream).ordered.length = nodes.size ∧ (ordering nodes downstream).ordered = topological := by
  unfold topologicalOrder
  simp only [ne_eq, ite_not]
  split
  · rename_i full
    rw [Except.ok.injEq, and_iff_right full]
  · rename_i short
    simp [short]

theorem checkNode_prerequisite {byKey : Nodes} (accepted : checkNode plan byKey node = .ok ())
    {need : ProductNodeKey} (needed : need ∈ node.prerequisites) : need ∈ byKey := by
  unfold checkNode at accepted
  simp only [bind_ok, forM_ok, ExtTreeSet.mem_toList] at accepted
  obtain ⟨_, -, _, -, _, -, _, -, _, -, all⟩ := accepted
  have known := all need needed
  unfold checkPrerequisite at known
  rw [bind_unit_ok, ensure_ok, ensure_ok] at known
  exact known.2

theorem RenderDependencyGraph.new_sound {nodes : List RenderDependencyNode} {graph : RenderDependencyGraph}
    (accepted : new plan nodes = .ok graph) : Sound graph := by
  unfold new at accepted
  simp only [bind_ok, Except.ok.injEq] at accepted
  obtain ⟨byKey, indexed, _, -, _, checked, topological, sorted, rfl⟩ := accepted
  rw [forM_ok] at checked
  obtain ⟨distinct, built⟩ := index_ok.mp indexed
  obtain ⟨full, rfl⟩ := topologicalOrder_ok.mp sorted
  have keyed : Keyed byKey := by
    intro key node held
    rw [← built, lookup_filled distinct] at held
    exact held.2
  have closed : Closed byKey := by
    intro key need node held needed
    have same := keyed key node held
    subst same
    exact checkNode_prerequisite (checked node ((mem_values keyed).mpr held)) needed
  have order := ordering_midway keyed closed
  refine ⟨keyed, closed, rfl, ?_, ?_⟩
  · intro key
    rw [← mem_nodeSet]
    exact ⟨order.within key, order.mem_of_full (full.trans (card_nodeSet byKey).symm)⟩
  · intro earlier key later node split held need needed
    exact order.first earlier key later split need (mem_needsOf.mpr ⟨node, held, needed⟩)

end Audec.Render

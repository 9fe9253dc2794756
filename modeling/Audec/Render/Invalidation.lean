import Audec.Render.Reasons

/-! Which products a change renders again: those with a reason of their own, and those that consume one of them. -/

open Machine Checked Std.ExtTreeMap
open Std (ExtTreeMap ExtTreeSet)
open Relation (ReflTransGen TransGen)

namespace Audec.Render

open Entries RenderDependencyGraph

def RenderDependencyGraph.Consumes (graph : RenderDependencyGraph) (key need : ProductNodeKey) : Prop :=
  ∃ node, graph.nodes[key]? = some node ∧ need ∈ node.prerequisites

section Propagation

variable {invalidation : Invalidation} {key source : ProductNodeKey} {reason : InvalidationReason}

theorem mem_noteUpstream {target : ProductNodeKey} :
    key ∈ noteUpstream source invalidation target ↔ key ∈ invalidation := by
  unfold noteUpstream
  split
  · rfl
  · rename_i reasons held
    rw [mem_insert, compare_eq_iff_eq]
    refine ⟨?_, .inr⟩
    rintro (rfl | inside)
    · exact mem_of_held held
    · exact inside

theorem marks_noteUpstream {target : ProductNodeKey} :
    Marks (noteUpstream source invalidation target) key reason ↔
      Marks invalidation key reason ∨ (key = target ∧ key ∈ invalidation ∧ reason = .upstreamProduct source) := by
  unfold noteUpstream
  split
  · rename_i absent
    refine ⟨.inl, ?_⟩
    rintro (held | ⟨rfl, inside, -⟩)
    · exact held
    · rw [mem_iff_isSome_getElem?, absent] at inside
      cases inside
  · rename_i reasons held
    unfold Marks
    rw [lookup_insert]
    by_cases same : target = key
    · subst same
      have inside : target ∈ invalidation := mem_of_held held
      simp only [if_true, held, Option.some.injEq, exists_eq_left', ExtTreeSet.mem_insert, compare_eq_iff_eq, inside, true_and,
        eq_comm (a := reason)]
      exact or_comm
    · simp only [if_neg same, Ne.symm same, false_and, or_false]

theorem mem_noteUpstreams (targets : List ProductNodeKey) :
    key ∈ targets.foldl (noteUpstream source) invalidation ↔ key ∈ invalidation := by
  induction targets generalizing invalidation with
  | nil => rfl
  | cons target targets tail => rw [List.foldl_cons, tail, mem_noteUpstream]

theorem marks_noteUpstreams (targets : List ProductNodeKey)
    :
    Marks (targets.foldl (noteUpstream source) invalidation) key reason ↔
      Marks invalidation key reason ∨ (key ∈ targets ∧ key ∈ invalidation ∧ reason = .upstreamProduct source) := by
  induction targets generalizing invalidation with
  | nil => simp
  | cons target targets tail =>
    rw [List.foldl_cons, tail, marks_noteUpstream, mem_noteUpstream, List.mem_cons]
    tauto

theorem mem_propagate {downstream : Edges} :
    key ∈ propagate downstream invalidation source ↔ key ∈ invalidation := by
  unfold propagate
  split
  · rfl
  · split
    · rfl
    · exact mem_noteUpstreams _

theorem marks_propagate {downstream : Edges} :
    Marks (propagate downstream invalidation source) key reason ↔
      Marks invalidation key reason ∨
        (Marked invalidation source ∧ key ∈ targetsOf downstream source ∧ key ∈ invalidation ∧ reason = .upstreamProduct source) := by
  have marked : ∀ {reasons : Reasons}, invalidation[source]? = some reasons →
      (Marked invalidation source ↔ ¬ reasons.isEmpty = true) := by
    intro reasons held
    unfold Marked Marks
    rw [held, isEmpty_iff_no_reason]
    simp
  unfold propagate
  split
  · rename_i absent
    have clean : ¬ Marked invalidation source := by
      rintro ⟨_, reasons, held, -⟩
      rw [absent] at held
      cases held
    rw [or_iff_left fun found => clean found.1]
  · rename_i reasons held
    split
    · rename_i empty
      rw [or_iff_left fun found => (marked held).mp found.1 empty]
    · rename_i filled
      rw [marks_noteUpstreams, marked held, and_iff_right filled]

variable {graph : RenderDependencyGraph} {start : Invalidation}

def Spoiled (graph : RenderDependencyGraph) (start : Invalidation) (key : ProductNodeKey) : Prop :=
  ∃ source, ReflTransGen graph.Consumes key source ∧ Marked start source

theorem spoiled_iff :
    Spoiled graph start key ↔ Marked start key ∨ ∃ need, graph.Consumes key need ∧ Spoiled graph start need := by
  constructor
  · rintro ⟨source, path, marked⟩
    rcases path.cases_head with rfl | ⟨need, consumed, rest⟩
    · exact .inl marked
    · exact .inr ⟨need, consumed, source, rest, marked⟩
  · rintro (marked | ⟨need, consumed, source, path, marked⟩)
    · exact ⟨key, .refl, marked⟩
    · exact ⟨source, .head consumed path, marked⟩

section

variable (sound : Sound graph) (nodes : ∀ key, key ∈ start ↔ key ∈ graph.nodes)
include sound nodes

theorem marks_visited (visited later : List ProductNodeKey)
    (split : graph.topological = visited ++ later) (key : ProductNodeKey) (reason : InvalidationReason) :
    Marks (visited.foldl (propagate graph.downstream) start) key reason ↔
      Marks start key reason ∨
        ∃ source ∈ visited, graph.Consumes key source ∧ Spoiled graph start source ∧ reason = .upstreamProduct source := by
  induction visited using List.reverseRecOn generalizing later key reason with
  | nil => simp
  | append_singleton visited source ih =>
    have earlier := ih (source :: later) (by rw [split, List.append_assoc, List.singleton_append])
    have kept : ∀ key, key ∈ visited.foldl (propagate graph.downstream) start ↔ key ∈ graph.nodes := by
      intro key
      rw [← nodes key]
      clear earlier split ih
      induction visited using List.reverseRecOn with
      | nil => rfl
      | append_singleton visited source ih => rw [List.foldl_append, List.foldl_cons, List.foldl_nil, mem_propagate, ih]
    have marked : Marked (visited.foldl (propagate graph.downstream) start) source ↔ Spoiled graph start source := by
      rw [spoiled_iff]
      unfold Marked
      simp only [earlier, exists_or]
      apply or_congr Iff.rfl
      constructor
      · rintro ⟨_, need, -, consumed, spoiled, -⟩
        exact ⟨need, consumed, spoiled⟩
      · rintro ⟨need, ⟨node, held, needed⟩, spoiled⟩
        refine ⟨_, need, ?_, ⟨node, held, needed⟩, spoiled, rfl⟩
        exact sound.first visited source later node (by rw [split, List.append_assoc, List.singleton_append]) held need needed
    have target : key ∈ targetsOf graph.downstream source ↔ graph.Consumes key source := by
      rw [sound.downstream, mem_targetsOf, links_downstream sound.keyed sound.closed]
      rfl
    rw [List.foldl_append, List.foldl_cons, List.foldl_nil, marks_propagate, marked, target, kept, earlier]
    simp only [List.mem_append, List.mem_singleton, or_and_right, exists_or, exists_eq_left, or_assoc]
    refine or_congr Iff.rfl (or_congr Iff.rfl ⟨?_, ?_⟩)
    · rintro ⟨spoiled, consumed, -, same⟩
      exact ⟨consumed, spoiled, same⟩
    · rintro ⟨⟨node, held, needed⟩, spoiled, same⟩
      exact ⟨spoiled, ⟨node, held, needed⟩, mem_of_held held, same⟩

theorem marked_propagated :
    Marked (graph.topological.foldl (propagate graph.downstream) start) key ↔ Spoiled graph start key := by
  rw [spoiled_iff]
  unfold Marked
  simp only [marks_visited sound nodes graph.topological [] (List.append_nil _).symm, exists_or]
  apply or_congr Iff.rfl
  constructor
  · rintro ⟨_, need, -, consumed, spoiled, -⟩
    exact ⟨need, consumed, spoiled⟩
  · rintro ⟨need, consumed, spoiled⟩
    obtain ⟨held, known, needed⟩ := consumed
    exact ⟨_, need, (sound.covers need).mpr (sound.closed key need held known needed), ⟨held, known, needed⟩, spoiled, rfl⟩

end

end Propagation

section Decisions

variable {graph previous : RenderDependencyGraph} {changes : ChangeSet}

variable {key : ProductNodeKey} {node : RenderDependencyNode}

theorem lookup_directReasons (sound : Sound graph) (held : graph.nodes[key]? = some node) :
    (graph.directReasons previous changes)[key]? =
      (graph.sharedReasons previous changes)[key]?.map ((graph.comparison previous changes).nodeReasons node) := by
  have same := sound.keyed key node held
  subst same
  apply lookup_notes
  · rw [Filling.keys_values sound.keyed]
    exact nodup_keys
  · exact (mem_values sound.keyed).mpr held

theorem mem_directReasons (sound : Sound graph) (key : ProductNodeKey) : key ∈ graph.directReasons previous changes ↔ key ∈ graph.nodes := by
  by_cases member : key ∈ graph.nodes
  · obtain ⟨node, held⟩ := held_of_mem member
    rw [mem_iff_isSome_getElem?, lookup_directReasons sound held, Option.isSome_map, ← mem_iff_isSome_getElem?,
      mem_sharedReasons]
  · have absent : key ∉ (Entries.values graph.nodes).map (·.key) := by
      rw [Filling.keys_values sound.keyed, mem_keys]
      exact member
    rw [mem_iff_isSome_getElem?, directReasons, lookup_notes_absent _ _ absent,
      ← mem_iff_isSome_getElem?, mem_sharedReasons]

theorem rangeProof_iff :
    (graph.comparison previous changes).rangeProof node = true ↔
      changes.ExactFor previous.plan graph.plan ∧ changes.routingChanged = false ∧ changes.audio ≠ ∅ ∧ ∃ bus, bus ∈ node.sourceBuses := by
  unfold Comparison.rangeProof comparison
  rw [exactFor_iff, ← exists_bus, ne_eq, ← ExtTreeMap.isEmpty_iff]
  simp only [Bool.and_eq_true, Bool.not_eq_true', decide_eq_true_eq, Bool.not_eq_true, and_assoc]

theorem structuralMismatch_iff {before after : RenderPlanId} :
    structuralMismatch before after = true ∨ before.engine ≠ after.engine ↔ before.ContractChanged after := by
  unfold structuralMismatch RenderPlanId.ContractChanged
  rw [decide_eq_true_eq]
  constructor
  · rintro ((schema | space | extent | format) | engine)
    · exact .inl schema
    · exact .inr (.inl space)
    · exact .inr (.inr (.inl extent))
    · exact .inr (.inr (.inr fun same => format (congrArg _ same)))
    · exact .inr (.inr (.inr engine))
  · rintro (schema | space | extent | engine)
    · exact .inl (.inl schema)
    · exact .inl (.inr (.inl space))
    · exact .inl (.inr (.inr (.inl extent)))
    · exact .inr engine

theorem marked_direct (sound : Sound graph) (comparable : structuralMismatch previous.plan graph.plan = false)
    (held : graph.nodes[key]? = some node) :
    Marked (graph.directReasons previous changes) key ↔ ChangedFrom previous graph changes node := by
  have member : key ∈ graph.nodes := mem_of_held held
  have sharedMember : key ∈ graph.sharedReasons previous changes := mem_sharedReasons.mpr member
  obtain ⟨base, shared⟩ := held_of_mem sharedMember
  have looked : Marked (graph.directReasons previous changes) key ↔
      ∃ reason, reason ∈ (graph.comparison previous changes).nodeReasons node base := by
    unfold Marked Marks
    rw [lookup_directReasons sound held, shared]
    simp
  have sharedMarked : (∃ reason, reason ∈ base) ↔ Marked (graph.sharedReasons previous changes) key := by
    unfold Marked Marks
    rw [shared]
    simp
  have contract : previous.plan.ContractChanged graph.plan ↔ previous.plan.engine ≠ graph.plan.engine := by
    rw [← structuralMismatch_iff, comparable]
    simp
  rw [looked, exists_nodeReasons, sharedMarked, marked_shared member, ChangedFrom, contract]
  simp only [or_assoc]
  refine or_congr Iff.rfl (or_congr Iff.rfl ?_)
  by_cases exactly : changes.ExactFor previous.plan graph.plan
  swap
  · simp only [exactly, not_false_eq_true, true_or]
  simp only [exactly, not_true_eq_false, false_or]
  refine or_congr Iff.rfl (or_congr (exists_congr fun input => and_congr_right fun _ => mem_changedDependencyKeys) ?_)
  by_cases routed : changes.routingChanged = true ∧ ∃ bus, bus ∈ node.sourceBuses
  · exact iff_of_true (.inl routed) (.inl routed)
  have proof : (graph.comparison previous changes).rangeProof node = true ↔ changes.audio ≠ ∅ ∧ ∃ bus, bus ∈ node.sourceBuses := by
    rw [rangeProof_iff, and_iff_right exactly, ← Bool.not_eq_true]
    exact ⟨And.right, fun sources => ⟨fun changed => routed ⟨changed, sources.2⟩, sources⟩⟩
  refine or_congr Iff.rfl (or_congr (exists_congr fun domain => and_congr_right fun _ => ?_) ?_)
  · apply and_congr mem_changedRevisionDomains
    rw [← Bool.not_eq_true, proof, not_and_or, ne_eq, not_not, not_exists]
    exact or_comm
  · rw [proof]
    constructor
    · exact And.right
    · rintro ⟨bus, source, impact, hit, touches⟩
      refine ⟨⟨?_, bus, source⟩, bus, source, impact, hit, touches⟩
      intro none
      rw [none, getElem?_empty] at hit
      cases hit

theorem consumes_from {need : ProductNodeKey} (consumed : graph.Consumes key need) : key ∈ graph.nodes := by
  obtain ⟨node, held, -⟩ := consumed
  exact mem_of_held held

theorem reaches_any {before : Option RenderDependencyGraph} (all : ∀ node, DirectReason before graph changes node) :
    key ∈ graph.nodes ↔
      ∃ source node, ReflTransGen graph.Consumes key source ∧ graph.nodes[source]? = some node ∧ DirectReason before graph changes node := by
  constructor
  · intro member
    obtain ⟨node, held⟩ := held_of_mem member
    exact ⟨key, node, .refl, held, all node⟩
  · rintro ⟨source, node, path, held, -⟩
    rcases path.cases_head with rfl | ⟨need, consumed, -⟩
    · exact mem_of_held held
    · exact consumes_from consumed

theorem renders_iff (sound : Sound graph) (before : Option RenderDependencyGraph) (changes : ChangeSet) (key : ProductNodeKey) :
    (graph.invalidateFrom before changes).Renders key ↔
      ∃ source node, ReflTransGen graph.Consumes key source ∧ graph.nodes[source]? = some node ∧ DirectReason before graph changes node := by
  unfold invalidateFrom
  cases before with
  | none =>
    dsimp only
    rw [renders_new, marked_all]
    exact reaches_any fun node graph impossible => by cases impossible
  | some previous =>
    have own : ∀ node, DirectReason (some previous) graph changes node ↔ ChangedFrom previous graph changes node := by
      intro node
      unfold DirectReason
      simp
    dsimp only
    split
    · rename_i mismatch
      rw [renders_new, marked_all]
      exact reaches_any fun node => (own node).mpr (.inl (structuralMismatch_iff.mp (.inl mismatch)))
    · rename_i comparable
      rw [Bool.not_eq_true] at comparable
      rw [renders_new, marked_propagated sound (mem_directReasons sound)]
      constructor
      · rintro ⟨source, path, marked⟩
        have member : source ∈ graph.nodes := by
          obtain ⟨reason, reasons, held, -⟩ := marked
          have inside : source ∈ graph.directReasons previous changes := mem_of_held held
          exact (mem_directReasons sound source).mp inside
        obtain ⟨node, held⟩ := held_of_mem member
        exact ⟨source, node, path, held, (own node).mpr ((marked_direct sound comparable held).mp marked)⟩
      · rintro ⟨source, node, path, held, direct⟩
        exact ⟨source, path, (marked_direct sound comparable held).mpr ((own node).mp direct)⟩

theorem mem_propagated (sources : List ProductNodeKey) {downstream : Edges} {invalidation : Invalidation} :
    key ∈ sources.foldl (propagate downstream) invalidation ↔ key ∈ invalidation := by
  induction sources generalizing invalidation with
  | nil => rfl
  | cons source sources tail => rw [List.foldl_cons, tail, mem_propagate]

section

variable (sound : Sound graph) (before : Option RenderDependencyGraph)
include sound before

theorem decided_iff (changes : ChangeSet) (key : ProductNodeKey) :
    (∃ decision, (graph.invalidateFrom before changes).decision key = some decision) ↔ key ∈ graph.nodes := by
  have decided : ∀ invalidation : Invalidation, (∃ decision, (InvalidationReport.new graph.plan invalidation).decision key = some decision) ↔
      key ∈ invalidation := by
    intro invalidation
    unfold InvalidationReport.decision InvalidationReport.new
    rw [← Option.isSome_iff_exists, ← mem_iff_isSome_getElem?, mem_map]
  unfold invalidateFrom
  cases before with
  | none =>
    dsimp only
    rw [decided, mem_markAll, mem_clean]
  | some previous =>
    dsimp only
    split
    · rw [decided, mem_markAll, mem_clean]
    · rw [decided, mem_propagated, mem_directReasons sound]

theorem reuse_iff (changes : ChangeSet) (member : key ∈ graph.nodes) :
    (graph.invalidateFrom before changes).decision key = some .reuse ↔ ¬ (graph.invalidateFrom before changes).Renders key := by
  obtain ⟨decision, decided⟩ := (decided_iff sound before changes key).mpr member
  unfold InvalidationReport.Renders
  cases decision with
  | reuse => simp [decided]
  | render reasons => simp [decided]

end

end Decisions

/-- Every node is decided once; it is rendered exactly for a reason of its own or because something it depends on is. A node that is
    reused has an identical predecessor and depends on reused nodes only, and neither the order of the nodes nor that of the edges
    matters. -/
theorem invalidation_exact {plan : RenderPlanId} {nodes : List RenderDependencyNode} {target : RenderDependencyGraph}
    (accepted : RenderDependencyGraph.new plan nodes = .ok target) (before : Option RenderDependencyGraph) (changes : ChangeSet) :
    (∀ key, (∃ decision, (target.invalidateFrom before changes).decision key = some decision) ↔ key ∈ target.nodes) ∧
      (∀ key node, target.nodes[key]? = some node →
        ((target.invalidateFrom before changes).Renders key ↔
          DirectReason before target changes node ∨
            ∃ need, TransGen target.Consumes key need ∧ (target.invalidateFrom before changes).Renders need)) ∧
      (∀ key, (target.invalidateFrom before changes).decision key = some .reuse →
        (∃ previous node, before = some previous ∧ target.nodes[key]? = some node ∧ previous.nodes[key]? = some node) ∧
          ∀ need, TransGen target.Consumes key need → (target.invalidateFrom before changes).decision need = some .reuse) ∧
      (∀ others, nodes.Perm others → RenderDependencyGraph.new plan others = .ok target) ∧
      ∀ (node : RenderDependencyNode) (edges others : List ProductNodeKey), edges.Perm others →
        edges.foldl RenderDependencyNode.dependsOn node = others.foldl RenderDependencyNode.dependsOn node := by
  have sound := RenderDependencyGraph.new_sound accepted
  have renders := renders_iff sound before changes
  refine ⟨decided_iff sound before changes, ?_, ?_, ?_, fun node _ _ perm => node.dependsOn_perm perm⟩
  · intro key node held
    rw [renders]
    constructor
    · rintro ⟨source, other, path, held', direct⟩
      rcases path.cases_head with rfl | ⟨need, consumed, rest⟩
      · rw [held, Option.some.injEq] at held'
        exact .inl (held' ▸ direct)
      · exact .inr ⟨need, .single consumed, (renders need).mpr ⟨source, other, rest, held', direct⟩⟩
    · rintro (direct | ⟨need, path, rendered⟩)
      · exact ⟨key, node, .refl, held, direct⟩
      · obtain ⟨source, other, rest, held', direct⟩ := (renders need).mp rendered
        exact ⟨source, other, path.to_reflTransGen.trans rest, held', direct⟩
  · intro key reused
    have member := (decided_iff sound before changes key).mp ⟨_, reused⟩
    obtain ⟨node, held⟩ := Entries.held_of_mem member
    have kept := (reuse_iff sound before changes member).mp reused
    rw [renders] at kept
    constructor
    · have clean : ¬ DirectReason before target changes node := fun direct => kept ⟨key, node, .refl, held, direct⟩
      unfold DirectReason at clean
      push Not at clean
      obtain ⟨previous, rfl, unchanged⟩ := clean
      refine ⟨previous, node, rfl, held, ?_⟩
      by_contra different
      rw [← sound.keyed key node held] at different
      exact unchanged (.inr (.inr (.inr (.inl different))))
    · intro need path
      have known : need ∈ target.nodes := by
        obtain ⟨last, -, user, held', needed⟩ := TransGen.tail'_iff.mp path
        exact sound.closed last need user held' needed
      rw [reuse_iff sound before changes known, renders]
      rintro ⟨source, other, rest, held', direct⟩
      exact kept ⟨source, other, path.to_reflTransGen.trans rest, held', direct⟩
  · intro others perm
    rw [← RenderDependencyGraph.new_perm plan perm]
    exact accepted

section Example

def plainPlan (arrangement : U64) : RenderPlanId :=
  ⟨1, 7, .zero, ⟨0, arrangement, 0, 0, 0, 0, 0, 0, 0⟩, ⟨.saturate 0, .saturate 64⟩, plainEngine, [], unstamped_sorted⟩

def busKey : ProductNodeKey := ⟨.bus 10, .bus 10 .output, ⟨.saturate 0, .saturate 16⟩, .wholeBounce⟩

def masterKey : ProductNodeKey := ⟨.master, .master, ⟨.saturate 0, .saturate 16⟩, .wholeBounce⟩

def plainNode (key : ProductNodeKey) : RenderDependencyNode := .new key ⟨.saturate 0, .saturate 16⟩ plainRecipe .playback

def masterNode : RenderDependencyNode := (plainNode masterKey).dependsOn busKey

def busNode : RenderDependencyNode := ((plainNode busKey).readsBus ⟨10⟩).consumesDomain .arrangement

def mixGraph (arrangement : U64) : RenderDependencyGraph :=
  ⟨plainPlan arrangement, (ExtTreeMap.empty.insert masterKey masterNode).insert busKey busNode,
    (ExtTreeMap.empty.insert masterKey ∅).insert busKey (ExtTreeSet.empty.insert masterKey), [busKey, masterKey]⟩

def busEdit : ChangeSet := (ChangeSet.default.touch .arrangement).invalidateRange ⟨10⟩ ⟨.saturate 4, .saturate 6⟩

theorem edited_bus_renders_master : ((mixGraph 1).invalidateFrom (some (mixGraph 0)) busEdit).Renders masterKey := by
  have accepted : RenderDependencyGraph.new (plainPlan 1) [masterNode, busNode] = .ok (mixGraph 1) := by decide +kernel
  obtain ⟨-, renders, -⟩ := invalidation_exact accepted (some (mixGraph 0)) busEdit
  have master : (mixGraph 1).nodes[masterKey]? = some masterNode := by decide
  have bus : (mixGraph 1).nodes[busKey]? = some busNode := by decide
  have heard : DirectReason (some (mixGraph 0)) (mixGraph 1) busEdit busNode := by
    intro previous same
    cases same
    refine .inr (.inr (.inr (.inr (.inr (.inr (.inr ⟨⟨10⟩, ?_, .ranges [⟨.saturate 4, .saturate 6⟩], ?_, _, List.mem_singleton_self _, ?_⟩))))))
    · decide
    · decide
    · decide
  refine (renders masterKey masterNode master).mpr (.inr ⟨busKey, .single ⟨masterNode, master, ?_⟩, (renders busKey busNode bus).mpr (.inl heard)⟩)
  decide

def PlainReason (previous target : RenderDependencyGraph) (changes : ChangeSet) (node : RenderDependencyNode) : Prop :=
  previous.plan.ContractChanged target.plan ∨
    previous.nodes[node.key]? ≠ some node ∨
    (∃ input ∈ node.consumedInputs, previous.plan.InputChanged target.plan input) ∨
    (∃ domain ∈ node.consumedDomains, previous.plan.DomainChanged target.plan domain) ∨
    ∃ bus ∈ node.sourceBuses, ∃ impact, changes.audio[bus]? = some impact ∧ impact.Touches node.context

/-- A change set that names a domain whose generation did not change renders every node of an unchanged graph. -/
theorem unproven_change_set_renders :
    ¬ ∀ (plan : RenderPlanId) (nodes : List RenderDependencyNode) (target previous : RenderDependencyGraph) (changes : ChangeSet)
      (key : ProductNodeKey) (node : RenderDependencyNode),
      RenderDependencyGraph.new plan nodes = .ok target → RenderDependencyGraph.new plan nodes = .ok previous → target.nodes[key]? = some node →
        ((target.invalidateFrom (some previous) changes).Renders key ↔
          PlainReason previous target changes node ∨
            ∃ need, TransGen target.Consumes key need ∧ (target.invalidateFrom (some previous) changes).Renders need) := by
  intro claim
  have accepted : RenderDependencyGraph.new (plainPlan 0) [masterNode, busNode] = .ok (mixGraph 0) := by decide +kernel
  have bus : (mixGraph 0).nodes[busKey]? = some busNode := by decide
  have rendered : ((mixGraph 0).invalidateFrom (some (mixGraph 0)) (ChangeSet.default.touch .mixer)).Renders busKey :=
    ⟨[.unprovenChangeSet], by decide⟩
  rcases (claim _ _ _ _ _ busKey busNode accepted accepted bus).mp rendered with reason | ⟨need, path, -⟩
  · rcases reason with contract | other | ⟨input, -, changed⟩ | ⟨domain, -, changed⟩ | ⟨number, -, impact, hit, -⟩
    · unfold RenderPlanId.ContractChanged at contract
      simp at contract
    · exact other bus
    · exact changed rfl
    · exact changed rfl
    · have silent : (ChangeSet.default.touch .mixer).audio = ∅ := rfl
      rw [silent, ExtTreeMap.getElem?_empty] at hit
      cases hit
  · obtain ⟨first, ⟨node, held, needed⟩, -⟩ := TransGen.head'_iff.mp path
    rw [bus, Option.some.injEq] at held
    subst held
    exact ExtTreeSet.not_mem_empty needed

end Example

end Audec.Render

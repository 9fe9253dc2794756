import Audec.Render.Ordering

/-! The reasons a change gives each product of its own. -/

open Machine Checked List Entries
open Std (ExtTreeMap ExtTreeSet)

namespace Audec.Render

def InvalidationReport.Renders (report : InvalidationReport) (key : ProductNodeKey) : Prop :=
  ∃ reasons, report.decision key = some (.render reasons)

namespace RenderPlanId

def stamp (plan : RenderPlanId) (key : RenderDependencyKey) : Option RenderDependencyStamp := plan.dependencies.find? (·.key = key)

def ContractChanged (previous target : RenderPlanId) : Prop :=
  previous.schemaVersion ≠ target.schemaVersion ∨ previous.projectNamespace ≠ target.projectNamespace ∨
    previous.compiledExtent ≠ target.compiledExtent ∨ previous.engine ≠ target.engine

def InputChanged (previous target : RenderPlanId) (key : RenderDependencyKey) : Prop := previous.stamp key ≠ target.stamp key

def UnexplainedSnapshot (previous target : RenderPlanId) : Prop :=
  previous.snapshot ≠ target.snapshot ∧ (∀ domain, ¬ previous.DomainChanged target domain) ∧ ∀ key, ¬ previous.InputChanged target key

end RenderPlanId

def ChangedFrom (previous target : RenderDependencyGraph) (changes : ChangeSet) (node : RenderDependencyNode) : Prop :=
  previous.plan.ContractChanged target.plan ∨
    previous.plan.UnexplainedSnapshot target.plan ∨
    ¬ changes.ExactFor previous.plan target.plan ∨
    previous.nodes[node.key]? ≠ some node ∨
    (∃ input ∈ node.consumedInputs, previous.plan.InputChanged target.plan input) ∨
    (changes.routingChanged = true ∧ ∃ bus, bus ∈ node.sourceBuses) ∨
    (∃ domain ∈ node.consumedDomains, previous.plan.DomainChanged target.plan domain ∧
      (domain = .air ∨ changes.audio = ∅ ∨ ∀ bus, bus ∉ node.sourceBuses)) ∨
    ∃ bus ∈ node.sourceBuses, ∃ impact, changes.audio[bus]? = some impact ∧ impact.Touches node.context

def DirectReason (previous : Option RenderDependencyGraph) (target : RenderDependencyGraph) (changes : ChangeSet)
    (node : RenderDependencyNode) : Prop :=
  ∀ graph, previous = some graph → ChangedFrom graph target changes node

section Sets

variable {previous target : RenderPlanId}

theorem mem_changedRevisionDomains {domain : ProjectDomain} :
    domain ∈ changedRevisionDomains previous target ↔ previous.DomainChanged target domain := by
  unfold changedRevisionDomains RenderPlanId.DomainChanged
  rw [ExtTreeSet.mem_ofList, contains_iff_mem, mem_filter, decide_eq_true_eq]
  refine ⟨And.right, fun changed => ⟨?_, changed⟩⟩
  cases domain <;> decide

theorem lookup_stamps {stamps : List RenderDependencyStamp} (sorted : stamps.Pairwise fun left right => left.key < right.key)
    (byKey : ExtTreeMap RenderDependencyKey RenderDependencyStamp) (key : RenderDependencyKey) :
    (stamps.foldl (fun byKey stamp => byKey.insert stamp.key stamp) byKey)[key]? = (stamps.find? (·.key = key)).or byKey[key]? := by
  induction stamps generalizing byKey with
  | nil => simp
  | cons stamp stamps tail =>
    obtain ⟨first, sorted⟩ := pairwise_cons.mp sorted
    rw [foldl_cons, tail sorted, lookup_insert]
    by_cases same : stamp.key = key
    · have absent : stamps.find? (·.key = key) = none := by
        rw [find?_eq_none]
        intro other later
        rw [decide_eq_true_eq, ← same]
        exact (first other later).ne'
      rw [absent, if_pos same, find?_cons_of_pos (by rw [decide_eq_true_eq]; exact same)]
      rfl
    · rw [if_neg same, find?_cons_of_neg (by rw [decide_eq_true_eq]; exact same)]

theorem lookup_stampsByKey (plan : RenderPlanId) (key : RenderDependencyKey) : (stampsByKey plan.dependencies)[key]? = plan.stamp key := by
  unfold stampsByKey RenderPlanId.stamp
  rw [lookup_stamps plan.sorted, ExtTreeMap.getElem?_empty, Option.or_none]

theorem mem_changedDependencyKeys {key : RenderDependencyKey} :
    key ∈ changedDependencyKeys previous.dependencies target.dependencies ↔ previous.InputChanged target key := by
  unfold changedDependencyKeys RenderPlanId.InputChanged
  simp only [ExtTreeSet.mem_ofList, contains_iff_mem, mem_filter, mem_append, ExtTreeMap.mem_keys,
    ExtTreeMap.mem_iff_isSome_getElem?, lookup_stampsByKey, ne_eq, decide_not, Bool.not_eq_true', decide_eq_false_iff_not]
  refine ⟨And.right, fun changed => ⟨?_, changed⟩⟩
  cases left : previous.stamp key with
  | some stamp => exact .inl rfl
  | none =>
    cases right : target.stamp key with
    | some stamp => exact .inr rfl
    | none => exact absurd (left.trans right.symm) changed

theorem isEmpty_changedRevisionDomains :
    (changedRevisionDomains previous target).isEmpty = true ↔ ∀ domain, ¬ previous.DomainChanged target domain := by
  rw [ExtTreeSet.isEmpty_iff, ExtTreeSet.eq_empty_iff_forall_not_mem]
  simp only [mem_changedRevisionDomains]

theorem isEmpty_changedDependencyKeys :
    (changedDependencyKeys previous.dependencies target.dependencies).isEmpty = true ↔ ∀ key, ¬ previous.InputChanged target key := by
  rw [ExtTreeSet.isEmpty_iff, ExtTreeSet.eq_empty_iff_forall_not_mem]
  simp only [mem_changedDependencyKeys]

theorem exactFor_iff {changes : ChangeSet} :
    changes.ExactFor previous target ↔ changedRevisionDomains previous target = changes.domains := by
  constructor
  · intro exactly
    apply ExtTreeSet.ext_mem
    intro domain
    rw [mem_changedRevisionDomains, exactly]
  · intro same domain
    rw [← same, mem_changedRevisionDomains]

end Sets

section Marks

def Marks (invalidation : Invalidation) (key : ProductNodeKey) (reason : InvalidationReason) : Prop :=
  ∃ reasons, invalidation[key]? = some reasons ∧ reason ∈ reasons

def Marked (invalidation : Invalidation) (key : ProductNodeKey) : Prop := ∃ reason, Marks invalidation key reason

theorem isEmpty_iff_no_reason {reasons : Reasons} : reasons.isEmpty = true ↔ ∀ reason, reason ∉ reasons := by
  rw [ExtTreeSet.isEmpty_iff, ExtTreeSet.eq_empty_iff_forall_not_mem]

variable {invalidation : Invalidation} {key : ProductNodeKey} {mark : InvalidationReason}

theorem renders_new {target : RenderPlanId} :
    (InvalidationReport.new target invalidation).Renders key ↔ Marked invalidation key := by
  unfold InvalidationReport.Renders InvalidationReport.decision InvalidationReport.new Marked Marks
  rw [ExtTreeMap.getElem?_map]
  cases invalidation[key]? with
  | none => simp
  | some reasons =>
    simp only [Option.map_some, Option.some.injEq, exists_eq_left', decisionFor]
    split
    · rename_i empty
      rw [isEmpty_iff_no_reason] at empty
      simp [empty]
    · rename_i some
      rw [isEmpty_iff_no_reason, not_forall] at some
      obtain ⟨reason, held⟩ := some
      exact ⟨fun _ => ⟨reason, not_not.mp held⟩, fun _ => ⟨_, rfl⟩⟩

theorem marks_markAll {reason : InvalidationReason} :
    Marks (markAll invalidation mark) key reason ↔ Marks invalidation key reason ∨ (key ∈ invalidation ∧ reason = mark) := by
  unfold Marks markAll
  rw [ExtTreeMap.getElem?_map, ExtTreeMap.mem_iff_isSome_getElem?]
  cases invalidation[key]? with
  | none => simp
  | some reasons =>
    simp only [Option.map_some, Option.some.injEq, exists_eq_left', ExtTreeSet.mem_insert, compare_eq_iff_eq, Option.isSome_some,
      true_and, eq_comm (a := mark)]
    exact or_comm

theorem mem_markAll :
    key ∈ markAll invalidation mark ↔ key ∈ invalidation :=
  ExtTreeMap.mem_map

theorem marks_clean (graph : RenderDependencyGraph) (key : ProductNodeKey) (reason : InvalidationReason) : ¬ Marks graph.clean key reason := by
  rintro ⟨reasons, held, inside⟩
  rw [RenderDependencyGraph.clean, ExtTreeMap.getElem?_map, Option.map_eq_some_iff] at held
  obtain ⟨node, -, rfl⟩ := held
  exact ExtTreeSet.not_mem_empty inside

theorem mem_clean {graph : RenderDependencyGraph} : key ∈ graph.clean ↔ key ∈ graph.nodes := ExtTreeMap.mem_map

theorem marked_all {graph : RenderDependencyGraph} :
    Marked (markAll graph.clean mark) key ↔ key ∈ graph.nodes := by
  unfold Marked
  simp only [marks_markAll, marks_clean, false_or, mem_clean, exists_and_left, exists_eq, and_true]

end Marks

section Direct

variable {reason : InvalidationReason} {reasons : Reasons}

theorem mem_insertAll {more : List InvalidationReason} :
    reason ∈ insertAll reasons more ↔ reason ∈ reasons ∨ reason ∈ more := by
  unfold insertAll
  induction more generalizing reasons with
  | nil => simp
  | cons first more tail =>
    rw [foldl_cons, tail, ExtTreeSet.mem_insert, compare_eq_iff_eq, mem_cons, eq_comm (a := first)]
    tauto

theorem mem_insertIf {condition : Bool} {mark : InvalidationReason} :
    reason ∈ insertIf reasons condition mark ↔ reason ∈ reasons ∨ (condition = true ∧ reason = mark) := by
  unfold insertIf
  cases condition with
  | true =>
    rw [if_pos rfl, ExtTreeSet.mem_insert, compare_eq_iff_eq, eq_comm (a := mark)]
    simp [or_comm]
  | false => simp

variable {comparison : Comparison} {node : RenderDependencyNode}

theorem exists_busReasons {bus : BusId} :
    (∃ reason, reason ∈ comparison.busReasons node bus) ↔
      ∃ impact, comparison.changes.audio[bus]? = some impact ∧ impact.Touches node.context := by
  unfold Comparison.busReasons
  cases comparison.changes.audio[bus]? with
  | none => simp
  | some impact =>
    cases impact with
    | whole => simp [intersectingAudioReasons, BusImpact.Touches]
    | ranges ranges => simp [intersectingAudioReasons, BusImpact.Touches]

theorem exists_bus {buses : ExtTreeSet BusId} : (!buses.isEmpty) = true ↔ ∃ bus, bus ∈ buses := by
  rw [Bool.not_eq_true', Bool.eq_false_iff, ne_eq, ExtTreeSet.isEmpty_iff, ExtTreeSet.eq_empty_iff_forall_not_mem, not_forall]
  simp only [not_not]

theorem mem_heldReasons :
    reason ∈ comparison.heldReasons node reasons ↔
      reason ∈ reasons ∨
        (∃ input ∈ node.consumedInputs, input ∈ comparison.changedInputs ∧ reason = .dependencyChanged input) ∨
        ((comparison.changes.routingChanged = true ∧ ∃ bus, bus ∈ node.sourceBuses) ∧ reason = .routingChanged) ∨
        (∃ domain ∈ node.consumedDomains, domain ∈ comparison.changedDomains ∧
          (comparison.rangeProof node = false ∨ domain = .air) ∧ reason = .domainRevision domain) ∨
        (comparison.rangeProof node = true ∧ ∃ bus ∈ node.sourceBuses, reason ∈ comparison.busReasons node bus) := by
  have shared : ∀ base : Reasons, reason ∈ (if comparison.rangeProof node then
      insertAll base (node.sourceBuses.toList.flatMap (comparison.busReasons node)) else base) ↔
        reason ∈ base ∨ (comparison.rangeProof node = true ∧ ∃ bus ∈ node.sourceBuses, reason ∈ comparison.busReasons node bus) := by
    intro base
    split
    · rename_i proven
      simp only [mem_insertAll, mem_flatMap, ExtTreeSet.mem_toList, proven, true_and]
    · rename_i unproven
      simp only [unproven, false_and, or_false, Bool.false_eq_true]
  unfold Comparison.heldReasons
  rw [shared]
  simp only [mem_insertAll, mem_insertIf, mem_map, mem_filter, ExtTreeSet.mem_toList, decide_eq_true_eq, Bool.or_eq_true,
    Bool.not_eq_true', isForwardAudioDomain, decide_eq_false_iff_not, ne_eq, not_not, and_assoc, or_assoc, eq_comm (a := reason),
    Bool.and_eq_true]
  rw [← @exists_bus node.sourceBuses, Bool.not_eq_true']

theorem exists_heldReasons :
    (∃ reason, reason ∈ comparison.heldReasons node reasons) ↔
      (∃ reason, reason ∈ reasons) ∨
        (∃ input ∈ node.consumedInputs, input ∈ comparison.changedInputs) ∨
        (comparison.changes.routingChanged = true ∧ ∃ bus, bus ∈ node.sourceBuses) ∨
        (∃ domain ∈ node.consumedDomains, domain ∈ comparison.changedDomains ∧
          (comparison.rangeProof node = false ∨ domain = .air)) ∨
        (comparison.rangeProof node = true ∧
          ∃ bus ∈ node.sourceBuses, ∃ impact, comparison.changes.audio[bus]? = some impact ∧ impact.Touches node.context) := by
  simp only [mem_heldReasons, exists_or, ← exists_busReasons]
  refine or_congr Iff.rfl (or_congr ?_ (or_congr ?_ (or_congr ?_ ?_)))
  · constructor
    · rintro ⟨_, input, consumed, changed, rfl⟩
      exact ⟨input, consumed, changed⟩
    · rintro ⟨input, consumed, changed⟩
      exact ⟨_, input, consumed, changed, rfl⟩
  · exact ⟨fun ⟨_, why, _⟩ => why, fun why => ⟨_, why, rfl⟩⟩
  · constructor
    · rintro ⟨_, domain, consumed, changed, why, rfl⟩
      exact ⟨domain, consumed, changed, why⟩
    · rintro ⟨domain, consumed, changed, why⟩
      exact ⟨_, domain, consumed, changed, why, rfl⟩
  · constructor
    · rintro ⟨reason, proven, bus, source, inside⟩
      exact ⟨proven, bus, source, reason, inside⟩
    · rintro ⟨proven, bus, source, reason, inside⟩
      exact ⟨reason, proven, bus, source, inside⟩

theorem exists_nodeReasons :
    (∃ reason, reason ∈ comparison.nodeReasons node reasons) ↔
      (∃ reason, reason ∈ reasons) ∨
        comparison.previous.nodes[node.key]? ≠ some node ∨
        (∃ input ∈ node.consumedInputs, input ∈ comparison.changedInputs) ∨
        (comparison.changes.routingChanged = true ∧ ∃ bus, bus ∈ node.sourceBuses) ∨
        (∃ domain ∈ node.consumedDomains, domain ∈ comparison.changedDomains ∧
          (comparison.rangeProof node = false ∨ domain = .air)) ∨
        (comparison.rangeProof node = true ∧
          ∃ bus ∈ node.sourceBuses, ∃ impact, comparison.changes.audio[bus]? = some impact ∧ impact.Touches node.context) := by
  unfold Comparison.nodeReasons
  cases held : comparison.previous.nodes[node.key]? with
  | none =>
    dsimp only
    simp
  | some old =>
    dsimp only
    rw [exists_heldReasons]
    simp only [mem_insertIf, exists_or, exists_and_left, exists_eq, and_true, decide_eq_true_eq, ne_eq, Option.some.injEq, or_assoc]

end Direct

section Notes

variable {comparison : Comparison}

theorem lookup_noteNode (invalidation : Invalidation) (node : RenderDependencyNode) (key : ProductNodeKey) :
    (comparison.noteNode invalidation node)[key]? =
      if node.key = key then invalidation[key]?.map (comparison.nodeReasons node) else invalidation[key]? := by
  unfold Comparison.noteNode
  split
  · rename_i absent
    split
    · rename_i same
      rw [← same, absent, Option.map_none]
    · rfl
  · rename_i reasons held
    rw [lookup_insert]
    split
    · rename_i same
      rw [← same, held, Option.map_some]
    · rfl

theorem lookup_notes_absent (nodes : List RenderDependencyNode) (invalidation : Invalidation) {key : ProductNodeKey}
    (absent : key ∉ nodes.map (·.key)) : (nodes.foldl comparison.noteNode invalidation)[key]? = invalidation[key]? := by
  induction nodes generalizing invalidation with
  | nil => rfl
  | cons node nodes tail =>
    rw [map_cons, mem_cons, not_or] at absent
    rw [foldl_cons, tail _ absent.2, lookup_noteNode, if_neg (Ne.symm absent.1)]

theorem lookup_notes {nodes : List RenderDependencyNode} (distinct : (nodes.map (·.key)).Nodup) (invalidation : Invalidation)
    {node : RenderDependencyNode} (listed : node ∈ nodes) :
    (nodes.foldl comparison.noteNode invalidation)[node.key]? = invalidation[node.key]?.map (comparison.nodeReasons node) := by
  induction nodes generalizing invalidation with
  | nil => cases listed
  | cons first nodes tail =>
    obtain ⟨absent, distinct⟩ := nodup_cons.mp distinct
    rw [foldl_cons]
    rcases mem_cons.mp listed with rfl | later
    · rw [lookup_notes_absent _ _ absent, lookup_noteNode, if_pos rfl]
    · have other : first.key ≠ node.key := fun same => absent (mem_map.mpr ⟨node, later, same.symm⟩)
      rw [tail distinct _ later, lookup_noteNode, if_neg other]

end Notes

section Shared

variable {graph previous : RenderDependencyGraph} {changes : ChangeSet}

theorem mem_sharedReasons {key : ProductNodeKey} : key ∈ graph.sharedReasons previous changes ↔ key ∈ graph.nodes := by
  unfold RenderDependencyGraph.sharedReasons
  dsimp only
  split_ifs <;> simp only [mem_markAll, mem_clean]

theorem marked_shared {key : ProductNodeKey} (node : key ∈ graph.nodes) :
    Marked (graph.sharedReasons previous changes) key ↔
      previous.plan.engine ≠ graph.plan.engine ∨ previous.plan.UnexplainedSnapshot graph.plan ∨
        ¬ changes.ExactFor previous.plan graph.plan := by
  unfold RenderDependencyGraph.sharedReasons RenderPlanId.UnexplainedSnapshot Marked
  rw [exactFor_iff, ← isEmpty_changedRevisionDomains, ← isEmpty_changedDependencyKeys]
  dsimp only
  split_ifs
  all_goals
    simp only [marks_markAll, marks_clean, mem_markAll, mem_clean, node, false_or, true_and, exists_or, exists_eq, or_true,
      exists_false]
    tauto

end Shared

end Audec.Render

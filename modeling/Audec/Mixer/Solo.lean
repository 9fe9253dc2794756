import Audec.Mixer.Valid

/-! Solo: what stays in the path of the soloed buses is what lies upstream or downstream of one of them. -/

open Machine Checked Digraph List Entries
open Std (ExtTreeMap ExtTreeSet)

namespace Audec.Mixer

section Reach

variable {routes : List RouteEdge} {id other : BusId}

/-- The end of a route from which a traversal looks at it. -/
def RouteEdge.near (route : RouteEdge) (forward : Bool) : BusId := if forward then route.source else route.target

def RouteEdge.far (route : RouteEdge) (forward : Bool) : BusId := if forward then route.target else route.source

theorem neighbours_eq (routes : List RouteEdge) (forward : Bool) (id : BusId) :
    neighbours routes forward id = ((routes.filter fun route => route.near forward = id).map fun route => route.far forward).insertionSort (· ≥ ·) := by
  unfold neighbours
  congr 1
  induction routes with
  | nil => rfl
  | cons route routes later =>
    rw [filterMap_cons, filter_cons]
    cases forward <;> simp only [RouteEdge.near, RouteEdge.far, Bool.false_eq_true, false_and, true_and, if_true, if_false, not_false_eq_true,
      not_true_eq_false] at later ⊢
    · by_cases here : route.target = id
      · simp [here, later]
      · simp [here, later]
    · by_cases here : route.source = id
      · simp [here, later]
      · simp [here, later]

theorem edge_forward : Edge (neighbours routes true) = Routed routes := by
  ext source target
  rw [Edge, neighbours_eq, mem_insertionSort]
  simp only [RouteEdge.near, RouteEdge.far, if_true, mem_map, mem_filter, decide_eq_true_eq, and_assoc, Routed]

theorem edge_backward : Edge (neighbours routes false) = Function.swap (Routed routes) := by
  ext target source
  rw [Edge, neighbours_eq, mem_insertionSort]
  simp only [RouteEdge.near, RouteEdge.far, Bool.false_eq_true, if_false, mem_map, mem_filter, decide_eq_true_eq, and_assoc, Routed,
    Function.swap]
  constructor
  · rintro ⟨route, member, into, from'⟩
    exact ⟨route, member, from', into⟩
  · rintro ⟨route, member, from', into⟩
    exact ⟨route, member, into, from'⟩

theorem neighbours_bounded (routes : List RouteEdge) (forward : Bool) (keys : Finset BusId) :
    (keys.sum fun key => (neighbours routes forward key).length) ≤ routes.length := by
  have counted : ∀ key, (neighbours routes forward key).length = routes.countP fun route => route.near forward = key := by
    intro key
    rw [neighbours_eq, length_insertionSort, length_map, countP_eq_length_filter]
  simp only [counted]
  exact Worklist.sum_countP_le (fun route : RouteEdge => route.near forward) routes keys

theorem collectReachable_some (root : BusId) (routes : List RouteEdge) (collected : ExtTreeSet BusId) :
    (∃ downstream, collectReachable root routes true collected = some downstream ∧
        ∀ id, id ∈ downstream ↔ id ∈ collected ∨ Relation.ReflTransGen (Routed routes) root id) ∧
      ∃ upstream, collectReachable root routes false collected = some upstream ∧
        ∀ id, id ∈ upstream ↔ id ∈ collected ∨ Relation.ReflTransGen (Routed routes) id root := by
  constructor
  · have reached := Worklist.collect_some (neighbours_bounded routes true) root collected
    rwa [edge_forward] at reached
  · have reached := Worklist.collect_some (neighbours_bounded routes false) root collected
    rw [edge_backward] at reached
    simp only [Relation.reflTransGen_swap] at reached
    exact reached

end Reach

namespace MixerGraph

variable {graph : MixerGraph}

/-- Upstream or downstream of a root, the root included; never up and then down. -/
def Connected (graph : MixerGraph) (root id : BusId) : Prop :=
  Relation.ReflTransGen (Routed graph.routes) root id ∨ Relation.ReflTransGen (Routed graph.routes) id root

theorem soloPath_some (graph : MixerGraph) :
    ∃ path, graph.soloPath = some path ∧ ∀ id, id ∈ path ↔ ∃ root ∈ graph.soloedBuses, graph.Connected root id := by
  have loop : ∀ (roots : List BusId) (collected : ExtTreeSet BusId), ∃ path,
      roots.foldlM
        (fun path root => do
          let downstream ← collectReachable root graph.routes true path
          collectReachable root graph.routes false downstream)
        collected = some path ∧
      ∀ id, id ∈ path ↔ id ∈ collected ∨ ∃ root ∈ roots, graph.Connected root id := by
    intro roots
    induction roots with
    | nil => exact fun collected => ⟨collected, rfl, by simp⟩
    | cons root roots later =>
      intro collected
      obtain ⟨downstream, down, below⟩ := (collectReachable_some root graph.routes collected).1
      obtain ⟨upstream, up, above⟩ := (collectReachable_some root graph.routes downstream).2
      obtain ⟨path, rest, all⟩ := later upstream
      refine ⟨path, ?_, ?_⟩
      · rw [foldlM_cons, down]
        dsimp only [bind, Option.bind]
        rw [up]
        exact rest
      · intro id
        simp only [all, above, below, mem_cons, exists_eq_or_imp, Connected, or_assoc]
  obtain ⟨path, found, all⟩ := loop graph.soloedBuses ∅
  refine ⟨path, found, ?_⟩
  intro id
  rw [all]
  simp

theorem mem_soloedBuses (valid : graph.Valid) {id : BusId} :
    id ∈ graph.soloedBuses ↔ ∃ bus, graph.buses[id]? = some bus ∧ bus.fader.soloed = true := by
  unfold soloedBuses
  simp only [mem_map, mem_filter, mem_values]
  constructor
  · rintro ⟨bus, ⟨⟨key, held⟩, solo⟩, rfl⟩
    rw [valid.keyed key bus held]
    exact ⟨bus, held, solo⟩
  · rintro ⟨bus, held, solo⟩
    exact ⟨bus, ⟨⟨id, held⟩, solo⟩, valid.keyed id bus held⟩

def InSoloPath (graph : MixerGraph) (id : BusId) : Prop :=
  (∀ (root : BusId) (bus : Bus), graph.buses[root]? = some bus → bus.fader.soloed = false) ∨
    ∃ (root : BusId) (bus : Bus), graph.buses[root]? = some bus ∧ bus.fader.soloed = true ∧ graph.Connected root id

theorem inSoloPath_iff (valid : graph.Valid) {path : ExtTreeSet BusId}
    (collected : ∀ id, id ∈ path ↔ ∃ root ∈ graph.soloedBuses, graph.Connected root id) (id : BusId) :
    graph.soloedBuses.isEmpty = true ∨ id ∈ path ↔ graph.InSoloPath id := by
  have alone : graph.soloedBuses.isEmpty = true ↔ ∀ (root : BusId) (bus : Bus), graph.buses[root]? = some bus → bus.fader.soloed = false := by
    rw [List.isEmpty_iff, eq_nil_iff_forall_not_mem]
    constructor
    · intro none' root bus held
      by_contra solo
      exact none' root ((mem_soloedBuses valid).mpr ⟨bus, held, Bool.not_eq_false _ ▸ solo⟩)
    · intro unsoloed root member
      obtain ⟨bus, held, solo⟩ := (mem_soloedBuses valid).mp member
      rw [unsoloed root bus held] at solo
      cases solo
  rw [alone, collected]
  unfold InSoloPath
  constructor
  · rintro (none' | ⟨root, member, connected⟩)
    · exact .inl none'
    · obtain ⟨bus, held, solo⟩ := (mem_soloedBuses valid).mp member
      exact .inr ⟨root, bus, held, solo, connected⟩
  · rintro (none' | ⟨root, bus, held, solo, connected⟩)
    · exact .inl none'
    · exact .inr ⟨root, (mem_soloedBuses valid).mpr ⟨bus, held, solo⟩, connected⟩

theorem lookup_states (valid : graph.Valid) (state : Bus → EffectiveBusState) {id : BusId} {bus : Bus} (held : graph.buses[id]? = some bus) :
    (Collected.collect ((Entries.values graph.buses).map fun bus => (bus.id, state bus)) : ExtTreeMap BusId EffectiveBusState)[id]? =
      some (state bus) := by
  have distinct : (((Entries.values graph.buses).map fun bus => (bus.id, state bus)).map Prod.fst).Nodup := by
    rw [map_map]
    show ((Entries.values graph.buses).map Bus.id).Nodup
    rw [Filling.keys_values valid.keyed]
    exact ExtTreeMap.nodup_keys
  rw [Collected.lookup_collect distinct, mem_map]
  exact ⟨bus, mem_values.mpr ⟨id, held⟩, by rw [valid.keyed id bus held]⟩

/-- What is heard while buses are soloed and muted. The last part: nothing that a soloed bus reaches the
    master through is suppressed. -/
def SoloRules (graph : MixerGraph) (states : ExtTreeMap BusId EffectiveBusState) : Prop :=
  ∀ (id : BusId) (bus : Bus), graph.buses[id]? = some bus → ∃ state, states[id]? = some state ∧
    (state.inSoloPath = true ↔ graph.InSoloPath id) ∧
    (state.audible = true ↔ bus.fader.muted = false ∧ state.inSoloPath = true) ∧
    ∀ (root : BusId) (solo : Bus), graph.buses[root]? = some solo → solo.fader.soloed = true →
      Relation.ReflTransGen (Routed graph.routes) root id → Relation.ReflTransGen (Routed graph.routes) id graph.master →
        state.soloSuppressed = false

theorem effectiveStates_solo (graph : MixerGraph) (accepted : graph.validate = .ok ()) :
    ∃ states, graph.effectiveStates = some states ∧ graph.SoloRules states := by
  have valid := validate_ok accepted
  obtain ⟨path, found, collected⟩ := soloPath_some graph
  refine ⟨_, by unfold effectiveStates; rw [found]; rfl, ?_⟩
  intro id bus held
  have solo : (effectiveState (!graph.soloedBuses.isEmpty) path bus).inSoloPath = true ↔ graph.InSoloPath id := by
    rw [← inSoloPath_iff valid collected id]
    simp only [effectiveState, Bool.not_not, Bool.or_eq_true, decide_eq_true_eq, valid.keyed id bus held]
  have suppressed : (effectiveState (!graph.soloedBuses.isEmpty) path bus).soloSuppressed = true →
      (effectiveState (!graph.soloedBuses.isEmpty) path bus).inSoloPath = false := by
    intro away
    simp only [effectiveState, Bool.and_eq_true, Bool.not_eq_true'] at away ⊢
    exact away.2
  refine ⟨_, lookup_states valid _ held, solo, ?_, ?_⟩
  · cases muted : bus.fader.muted <;> cases graph.soloedBuses.isEmpty <;> simp [effectiveState, muted]
  · intro root other there soloed down _
    by_contra away
    have out := suppressed (Bool.not_eq_false _ ▸ away)
    have inside := solo.mpr (.inr ⟨root, other, there, soloed, .inl down⟩)
    rw [out] at inside
    cases inside

def sharedGroup : MixerGraph where
  buses := Collected.collect [
    (1, ⟨1, 1, .master, none, [], [], ⟨0, 0, false, false⟩⟩),
    (2, ⟨2, 2, .source, some 4, [], [], ⟨0, 0, false, true⟩⟩),
    (3, ⟨3, 3, .source, some 4, [], [], ⟨0, 0, false, false⟩⟩),
    (4, ⟨4, 4, .group, some 1, [], [], ⟨0, 0, false, false⟩⟩)]
  busOrder := [2, 3, 4, 1]
  processors := ∅
  master := 1

theorem sharedGroup_solo : sharedGroup.validate = .ok () ∧ ∃ states, sharedGroup.effectiveStates = some states ∧ sharedGroup.SoloRules states :=
  ⟨rfl, effectiveStates_solo sharedGroup rfl⟩

-- the sibling source is not heard, the group and the master are
example : (sharedGroup.effectiveStates.map fun states => states.toList.map fun entry => (entry.1, entry.2.audible)) =
    some [(1, true), (2, true), (3, false), (4, true)] := by decide

end MixerGraph
end Audec.Mixer

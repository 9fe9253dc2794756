import Audec.Mixer.Model
import Audec.Lib.Filling

/-! The search for a routing cycle ends, and finds one exactly if there is one. -/

open Machine Checked Digraph List Entries

namespace Audec.Mixer

section Cycles

def Routed (routes : List RouteEdge) (source target : BusId) : Prop := ∃ route ∈ routes, route.source = source ∧ route.target = target

variable {buses : List BusId} {routes : List RouteEdge}

theorem mem_outgoing {id target : BusId} : target ∈ outgoing routes id ↔ Routed routes id target := by
  unfold outgoing Routed
  rw [mem_insertionSort, mem_dedup]
  simp only [mem_map, mem_filter, decide_eq_true_eq, and_assoc]

theorem edge_outgoing : Edge (outgoing routes) = Routed routes := by
  ext source target
  exact mem_outgoing

theorem findCycle_ends (buses : List BusId) (routes : List RouteEdge) :
    (findCycle buses routes = .ok none ∧ ∀ id ∈ buses, ¬ Relation.TransGen (Routed routes) id id) ∨
      ∃ path, findCycle buses routes = .ok (some path) ∧ ClosedWalk (Routed routes) path := by
  let nodes := (buses ++ routes.map RouteEdge.target).toFinset
  have within : ∀ key ∈ nodes, ∀ neighbour ∈ outgoing routes key, neighbour ∈ nodes := by
    intro key _ neighbour near
    obtain ⟨route, member, _, same⟩ := mem_outgoing.mp near
    rw [mem_toFinset, mem_append]
    exact .inr (mem_map.mpr ⟨route, member, same⟩)
  have inside : ∀ key ∈ buses, key ∈ nodes := fun key member => mem_toFinset.mpr (mem_append_left _ member)
  have enough : nodes.card ≤ buses.length + routes.length := by
    have bound := toFinset_card_le (buses ++ routes.map RouteEdge.target)
    rwa [length_append, length_map] at bound
  have ends := DepthFirst.searchFrom_ends within inside enough
  unfold findCycle
  revert ends
  cases DepthFirst.searchFrom (outgoing routes) (buses.length + routes.length) buses with
  | ok after =>
    rintro ⟨valid, all⟩
    refine .inl ⟨rfl, ?_⟩
    intro id member
    rw [← edge_outgoing]
    exact valid.acyclic id (all id member)
  | error stop =>
    cases stop with
    | cycle path =>
      intro closed
      refine .inr ⟨path, rfl, ?_⟩
      rw [← edge_outgoing]
      exact closed
    | exhausted => exact False.elim
    | offStack => exact False.elim

/-- On routes whose endpoints exist. -/
theorem findCycle_sound_complete (buses : List BusId) (routes : List RouteEdge)
    (endpoints : ∀ route ∈ routes, route.source ∈ buses ∧ route.target ∈ buses) :
    (∃ found, findCycle buses routes = .ok found) ∧
      (findCycle buses routes = .ok none ↔ ¬ ∃ id, Relation.TransGen (Routed routes) id id) ∧
      ∀ path, findCycle buses routes = .ok (some path) → 2 ≤ path.length ∧ path.head? = path.getLast? ∧ path.IsChain (Routed routes) := by
  have starts : ∀ id, Relation.TransGen (Routed routes) id id → id ∈ buses := by
    intro id cycle
    obtain ⟨_, ⟨route, member, same, _⟩, _⟩ := Relation.TransGen.head'_iff.mp cycle
    exact same ▸ (endpoints route member).1
  rcases findCycle_ends buses routes with ⟨none', acyclic⟩ | ⟨path, found, closed⟩
  · rw [none']
    refine ⟨⟨_, rfl⟩, ⟨?_, fun _ => rfl⟩, fun _ => nofun⟩
    rintro _ ⟨id, cycle⟩
    exact acyclic id (starts id cycle) cycle
  · rw [found]
    refine ⟨⟨_, rfl⟩, ⟨nofun, fun acyclic => absurd closed.cycle acyclic⟩, ?_⟩
    intro other same
    cases same
    exact ⟨closed.walks, closed.returns, closed.edges⟩

theorem feedback_found :
    findCycle [1, 2, 3] [⟨1, 2, .main⟩, ⟨2, 3, .main⟩, ⟨3, 2, .send 7⟩] = .ok (some [2, 3, 2]) ∧
      ¬ ¬ ∃ id, Relation.TransGen (Routed [⟨1, 2, .main⟩, ⟨2, 3, .main⟩, ⟨3, 2, .send 7⟩]) id id := by
  have found : findCycle [1, 2, 3] [⟨1, 2, .main⟩, ⟨2, 3, .main⟩, ⟨3, 2, .send 7⟩] = .ok (some [2, 3, 2]) := rfl
  refine ⟨found, fun acyclic => ?_⟩
  have agree := (findCycle_sound_complete [1, 2, 3] [⟨1, 2, .main⟩, ⟨2, 3, .main⟩, ⟨3, 2, .send 7⟩] (by decide)).2.1.mpr acyclic
  rw [found] at agree
  cases agree

end Cycles
end Audec.Mixer

/-! What a graph that is accepted has: buses under their own ids, routes between them, processors for
    its inserts, and no cycle. -/

open Machine Checked
open Std (ExtTreeMap ExtTreeSet)

namespace Audec.Mixer

namespace MixerGraph

structure Valid (graph : MixerGraph) : Prop where
  master : graph.master ∈ graph.buses
  keyed : ∀ (id : BusId) (bus : Bus), graph.buses[id]? = some bus → bus.id = id
  outputs : ∀ (id : BusId) (bus : Bus), graph.buses[id]? = some bus → ∀ target, bus.output = some target → target ∈ graph.buses
  routed : ∀ (id : BusId) (bus : Bus), graph.buses[id]? = some bus → id ≠ graph.master → bus.output ≠ none
  sends : ∀ (id : BusId) (bus : Bus), graph.buses[id]? = some bus → ∀ send ∈ bus.sends, send.target ∈ graph.buses
  sendsOnce : ∀ (id : BusId) (bus : Bus), graph.buses[id]? = some bus → (bus.sends.map Send.id).Nodup
  inserts : ∀ (id : BusId) (bus : Bus), graph.buses[id]? = some bus → ∀ insert ∈ bus.inserts, insert.processorId ∈ graph.processors
  acyclic : ∀ id, ¬ Relation.TransGen (Routed graph.routes) id id

section Claims

variable {κ α : Type} [LinearOrder κ] {key : α → κ} {step : ExtTreeSet κ → α → Except MixerError (ExtTreeSet κ)} {check : α → Prop}

theorem claim_ok {taken after : ExtTreeSet κ} {item : κ} {error : MixerError} :
    claim taken item error = .ok after ↔ item ∉ taken ∧ taken.insert item = after := by
  unfold claim
  split <;> simp_all

theorem claims_ok (steps : ∀ taken item after, step taken item = .ok after → check item ∧ key item ∉ taken ∧ taken.insert (key item) = after)
    {items : List α} {taken after : ExtTreeSet κ} (accepted : items.foldlM step taken = .ok after) :
    (∀ item ∈ items, check item) ∧ (items.map key).Nodup ∧ ∀ item ∈ items, key item ∉ taken := by
  induction items generalizing taken with
  | nil => simp
  | cons first items later =>
    rw [foldlM_cons, bind_ok] at accepted
    obtain ⟨next, stepped, rest⟩ := accepted
    obtain ⟨passes, fresh, rfl⟩ := steps taken first next stepped
    obtain ⟨all, distinct, others⟩ := later rest
    have apart : ∀ item ∈ items, key item ≠ key first := by
      intro item member same
      apply others item member
      rw [ExtTreeSet.mem_insert, compare_eq_iff_eq]
      exact .inl same.symm
    refine ⟨forall_mem_cons.mpr ⟨passes, all⟩, ?_, ?_⟩
    · rw [map_cons, nodup_cons]
      refine ⟨?_, distinct⟩
      intro again
      obtain ⟨item, member, same⟩ := mem_map.mp again
      exact apart item member same
    · intro item member
      rcases mem_cons.mp member with rfl | member
      · exact fresh
      · exact fun held => others item member (ExtTreeSet.mem_insert.mpr (.inr held))

end Claims

variable {graph : MixerGraph}

theorem validateSend_ok {sends after : ExtTreeSet SendId} {send : Send} (accepted : graph.validateSend sends send = .ok after) :
    send.target ∈ graph.buses ∧ send.id ∉ sends ∧ sends.insert send.id = after := by
  unfold validateSend requireBus at accepted
  simp only [bind_ok, claim_ok, Except.ok.injEq] at accepted
  obtain ⟨_, ⟨fresh, rfl⟩, _, target, _, _, rfl⟩ := accepted
  exact ⟨ensure_ok.mp target, fresh, rfl⟩

theorem validateInsert_ok {used after : ExtTreeSet ProcessorId} {insert : InsertSlot} (accepted : graph.validateInsert used insert = .ok after) :
    insert.processorId ∈ graph.processors ∧ insert.processorId ∉ used ∧ used.insert insert.processorId = after := by
  unfold validateInsert requireProcessor at accepted
  simp only [bind_ok, claim_ok, Except.ok.injEq] at accepted
  obtain ⟨_, _, _, ⟨fresh, rfl⟩, _, present, rfl⟩ := accepted
  exact ⟨ensure_ok.mp present, fresh, rfl⟩

theorem validateOutput_ok {id : BusId} {bus : Bus} (accepted : graph.validateOutput id bus = .ok ()) :
    (id ≠ graph.master → bus.output ≠ none) ∧ ∀ target, bus.output = some target → target ∈ graph.buses := by
  unfold validateOutput at accepted
  rw [bind_unit_ok, ensure_ok] at accepted
  obtain ⟨routed, accepted⟩ := accepted
  refine ⟨fun other none' => routed ⟨other, none'⟩, ?_⟩
  intro target output
  rw [output] at accepted
  dsimp only at accepted
  split at accepted
  · cases accepted
  · rename_i receiver held
    exact mem_of_held held

structure ValidBus (graph : MixerGraph) (id : BusId) (bus : Bus) : Prop where
  keyed : bus.id = id
  outputs : ∀ target, bus.output = some target → target ∈ graph.buses
  routed : id ≠ graph.master → bus.output ≠ none
  sends : ∀ send ∈ bus.sends, send.target ∈ graph.buses
  sendsOnce : (bus.sends.map Send.id).Nodup
  inserts : ∀ insert ∈ bus.inserts, insert.processorId ∈ graph.processors

theorem validateBus_ok {claims after : Claims} {entry : BusId × Bus} (accepted : graph.validateBus claims entry = .ok after) :
    graph.ValidBus entry.1 entry.2 := by
  unfold validateBus at accepted
  simp only [bind_ok] at accepted
  obtain ⟨_, keyed, _, _, _, _, _, _, _, outputs, _, sends, _, inserts, _⟩ := accepted
  have sent := @claims_ok _ _ _ Send.id _ (fun send => send.target ∈ graph.buses) (fun _ _ _ => validateSend_ok) _ _ _ sends
  have inserted := @claims_ok _ _ _ InsertSlot.processorId _ (fun insert => insert.processorId ∈ graph.processors)
    (fun _ _ _ => validateInsert_ok) _ _ _ inserts
  have output := validateOutput_ok outputs
  exact ⟨(ensure_ok.mp keyed).symm, output.2, output.1, sent.1, sent.2.1, inserted.1⟩

theorem validateBuses_ok {entries : List (BusId × Bus)} {claims after : Claims} (accepted : entries.foldlM graph.validateBus claims = .ok after) :
    ∀ entry ∈ entries, graph.ValidBus entry.1 entry.2 := by
  induction entries generalizing claims with
  | nil => simp
  | cons first entries later =>
    rw [foldlM_cons, bind_ok] at accepted
    obtain ⟨next, checked, rest⟩ := accepted
    exact forall_mem_cons.mpr ⟨validateBus_ok checked, later rest⟩

theorem validateMaster_ok (accepted : graph.validateMaster = .ok ()) : graph.master ∈ graph.buses := by
  unfold validateMaster at accepted
  split at accepted
  · cases accepted
  · rename_i master held
    exact mem_of_held held

theorem validateParts_ok (accepted : graph.validateParts = .ok ()) :
    graph.master ∈ graph.buses ∧ ∀ (id : BusId) (bus : Bus), graph.buses[id]? = some bus → graph.ValidBus id bus := by
  unfold validateParts at accepted
  simp only [bind_ok] at accepted
  obtain ⟨_, _, _, master, _, buses, _⟩ := accepted
  exact ⟨validateMaster_ok master, fun id bus held => validateBuses_ok buses (id, bus) (mem_toList.mpr held)⟩

section Routes

theorem mem_busRoutes {bus : Bus} {route : RouteEdge} :
    route ∈ bus.routes ↔ (∃ target, bus.output = some target ∧ route = ⟨bus.id, target, .main⟩) ∨
      ∃ send ∈ bus.sends, route = ⟨bus.id, send.target, .send send.id⟩ := by
  unfold Bus.routes
  rw [mem_append, mem_map, mem_map]
  simp only [Option.mem_toList, eq_comm]

theorem mem_routes {route : RouteEdge} : route ∈ graph.routes ↔ ∃ (id : BusId) (bus : Bus), graph.buses[id]? = some bus ∧ route ∈ bus.routes := by
  unfold MixerGraph.routes
  rw [mem_insertionSort, mem_flatMap]
  constructor
  · rintro ⟨bus, member, inside⟩
    obtain ⟨id, held⟩ := mem_values.mp member
    exact ⟨id, bus, held, inside⟩
  · rintro ⟨id, bus, held, inside⟩
    exact ⟨bus, mem_values.mpr ⟨id, held⟩, inside⟩

end Routes

theorem endpoints_of_parts (parts : ∀ (id : BusId) (bus : Bus), graph.buses[id]? = some bus → graph.ValidBus id bus) :
    ∀ route ∈ graph.routes, route.source ∈ graph.buses ∧ route.target ∈ graph.buses := by
  intro route member
  obtain ⟨id, bus, held, inside⟩ := mem_routes.mp member
  have valid := parts id bus held
  have here : bus.id ∈ graph.buses := by
    rw [valid.keyed]
    exact mem_of_held held
  rcases mem_busRoutes.mp inside with ⟨target, output, rfl⟩ | ⟨send, sent, rfl⟩
  · exact ⟨here, valid.outputs target output⟩
  · exact ⟨here, valid.sends send sent⟩

theorem validate_ok (accepted : graph.validate = .ok ()) : graph.Valid := by
  unfold validate at accepted
  rw [bind_unit_ok, lift_ok, bind_ok] at accepted
  obtain ⟨parts, found, searched, none'⟩ := accepted
  obtain ⟨master, buses⟩ := validateParts_ok parts
  have endpoints := endpoints_of_parts buses
  have acyclic : ∀ id, ¬ Relation.TransGen (Routed graph.routes) id id := by
    rcases findCycle_ends graph.buses.keys graph.routes with ⟨_, acyclic⟩ | ⟨path, cyclic, _⟩
    · intro id cycle
      obtain ⟨_, ⟨route, member, same, _⟩, _⟩ := Relation.TransGen.head'_iff.mp cycle
      exact acyclic id (ExtTreeMap.mem_keys.mpr (same ▸ (endpoints route member).1)) cycle
    · rw [cyclic, Except.ok.injEq] at searched
      subst searched
      cases none'
  exact {
    master := master
    keyed := fun id bus held => (buses id bus held).keyed
    outputs := fun id bus held => (buses id bus held).outputs
    routed := fun id bus held => (buses id bus held).routed
    sends := fun id bus held => (buses id bus held).sends
    sendsOnce := fun id bus held => (buses id bus held).sendsOnce
    inserts := fun id bus held => (buses id bus held).inserts
    acyclic := acyclic }

theorem Valid.endpoints (valid : graph.Valid) : ∀ route ∈ graph.routes, route.source ∈ graph.buses ∧ route.target ∈ graph.buses :=
  endpoints_of_parts fun id bus held =>
    ⟨valid.keyed id bus held, valid.outputs id bus held, valid.routed id bus held, valid.sends id bus held, valid.sendsOnce id bus held,
      valid.inserts id bus held⟩

theorem Valid.nodup_routes (valid : graph.Valid) : graph.routes.Nodup := by
  unfold MixerGraph.routes
  rw [(perm_insertionSort _ _).nodup_iff, nodup_flatMap]
  constructor
  · intro bus member
    obtain ⟨id, held⟩ := mem_values.mp member
    have once := valid.sendsOnce id bus held
    unfold Bus.routes
    rw [nodup_append]
    refine ⟨?_, ?_, ?_⟩
    · cases bus.output <;> simp
    · apply Nodup.of_map (fun route => route.kind)
      rw [map_map]
      have kinds := once.map (fun _ _ same => RouteKind.send.inj same)
      rwa [map_map] at kinds
    · intro first main second sent same
      subst same
      obtain ⟨_, _, rfl⟩ := mem_map.mp main
      obtain ⟨_, _, equal⟩ := mem_map.mp sent
      cases equal
  · have distinct : ((Entries.values graph.buses).map Bus.id).Nodup := by
      rw [Filling.keys_values valid.keyed]
      exact ExtTreeMap.nodup_keys
    rw [List.Nodup, pairwise_map] at distinct
    refine distinct.imp ?_
    intro first second apart route inside again
    have source : ∀ {bus : Bus}, route ∈ bus.routes → route.source = bus.id := by
      intro bus inside
      rcases mem_busRoutes.mp inside with ⟨_, _, rfl⟩ | ⟨_, _, rfl⟩ <;> rfl
    exact apart ((source inside).symm.trans (source again))

end MixerGraph
end Audec.Mixer

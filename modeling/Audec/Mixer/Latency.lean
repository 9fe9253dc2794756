import Audec.Mixer.Valid

/-! The latency plan of a graph that is accepted: every bus is planned after those that route to it. -/

open Machine Checked Digraph Countdown Std.ExtTreeMap Entries
open Std (ExtTreeMap ExtTreeSet)

namespace Audec.Mixer.MixerGraph

variable {graph : MixerGraph}

section Insert

def enabledLatency (graph : MixerGraph) (id : BusId) : Nat :=
  match graph.buses[id]? with
  | none => 0
  | some bus =>
    ((bus.inserts.filter fun insert => !insert.bypassed).map fun insert =>
      (graph.processors[insert.processorId]?.elim 0 fun processor => processor.latencySamples.val)).sum

theorem foldl_saturatingAdd (latencies : List Nat) (total : Nat) :
    latencies.foldl saturatingAdd (min u64Max total) = min u64Max (total + latencies.sum) := by
  induction latencies generalizing total with
  | nil => rfl
  | cons latency latencies later =>
    have step : saturatingAdd (min u64Max total) latency = min u64Max (total + latency) := by
      unfold saturatingAdd
      omega
    rw [List.foldl_cons, step, later, List.sum_cons, Nat.add_assoc]

theorem expect_ok {ε α : Type} {value : Option α} {found : α} : (expect value : Except (Stop ε) α) = .ok found ↔ value = some found := by
  cases value <;> simp [expect]

theorem mapM_expect {ε α β γ : Type} {items : List α} {value : α → Option β} {result : α → β → γ} {default : α → γ}
    (present : ∀ item ∈ items, ∃ found, value item = some found ∧ result item found = default item) :
    (items.mapM fun item => do
      let found ← (expect (value item) : Except (Stop ε) β)
      Except.ok (result item found)) = .ok (items.map default) := by
  rw [mapM_ok, List.forall₂_map_right_iff, List.forall₂_same]
  intro item member
  obtain ⟨found, held, same⟩ := present item member
  rw [bind_ok]
  exact ⟨found, expect_ok.mpr held, by rw [same]⟩

theorem Valid.busInsertLatency (valid : graph.Valid) {id : BusId} (there : id ∈ graph.buses) :
    graph.busInsertLatency id = .ok (min u64Max (graph.enabledLatency id)) := by
  obtain ⟨bus, held⟩ := held_of_mem there
  have present : ∀ insert ∈ bus.inserts.filter fun insert => !insert.bypassed, ∃ processor, graph.processors[insert.processorId]? = some processor ∧
      processor.latencySamples.val = graph.processors[insert.processorId]?.elim 0 fun processor => processor.latencySamples.val := by
    intro insert member
    have inside := valid.inserts id bus held insert (List.mem_filter.mp member).1
    obtain ⟨processor, found⟩ := held_of_mem inside
    exact ⟨processor, found, by rw [found]; rfl⟩
  have gathered := @mapM_expect MixerError _ _ _ _ _ _ _ present
  have sum := foldl_saturatingAdd ((bus.inserts.filter fun insert => !insert.bypassed).map fun insert =>
    graph.processors[insert.processorId]?.elim 0 fun processor => processor.latencySamples.val) 0
  rw [Nat.min_zero, Nat.zero_add] at sum
  unfold MixerGraph.busInsertLatency enabledLatency
  rw [held]
  dsimp only
  rw [gathered]
  exact congrArg Except.ok sum

end Insert

section Planning

def Planning.output (planning : Planning) (id : BusId) : Nat := planning.buses[id]?.elim 0 BusLatency.outputLatencySamples

def incoming (graph : MixerGraph) (id : BusId) : List RouteEdge := graph.routes.filter fun route => route.target = id

def Planning.input (planning : Planning) (graph : MixerGraph) (id : BusId) : Nat :=
  ((graph.incoming id).map fun route => planning.output route.source).foldl max 0

def Planning.busLatency (planning : Planning) (graph : MixerGraph) (id : BusId) : BusLatency :=
  ⟨planning.input graph id, min u64Max (graph.enabledLatency id),
    saturatingAdd (planning.input graph id) (min u64Max (graph.enabledLatency id))⟩

def Planning.routeLatency (planning : Planning) (graph : MixerGraph) (route : RouteEdge) : RouteLatency :=
  ⟨planning.output route.source, planning.input graph route.target - planning.output route.source⟩

def edges (graph : MixerGraph) : List (BusId × BusId) := graph.routes.map fun route => (route.source, route.target)

variable {source id : BusId} {route : RouteEdge} {counts : Counts BusId}

theorem mem_edges {target : BusId} : (source, target) ∈ graph.edges ↔ Routed graph.routes source target := by
  simp only [edges, List.mem_map, Prod.mk.injEq, Routed]

structure Planned (graph : MixerGraph) (taken : Finset BusId) (planning : Planning) : Prop where
  counting : Counting graph.edges graph.buses.keys.toFinset taken planning.counts
  within : ∀ id ∈ taken, id ∈ graph.buses
  buses : ∀ id : BusId, planning.buses[id]? = if id ∈ taken then some (planning.busLatency graph id) else none
  routes : ∀ route : RouteEdge, planning.routes[route]? =
    if route ∈ graph.routes ∧ route.target ∈ taken then some (planning.routeLatency graph route) else none

variable {taken : Finset BusId} {planning next : Planning}

theorem mem_incoming : route ∈ graph.incoming id ↔ route ∈ graph.routes ∧ route.target = id := by
  simp only [incoming, List.mem_filter, decide_eq_true_eq]

theorem input_congr (same : ∀ route ∈ graph.incoming id, next.output route.source = planning.output route.source) :
    next.input graph id = planning.input graph id := by
  unfold Planning.input
  rw [List.map_congr_left same]

theorem busLatency_congr (same : next.input graph id = planning.input graph id) :
    next.busLatency graph id = planning.busLatency graph id := by
  unfold Planning.busLatency
  rw [same]

theorem Planned.source_taken (planned : graph.Planned taken planning) (inside : id ∈ taken)
    (member : route ∈ graph.incoming id) : route.source ∈ taken := by
  obtain ⟨listed, into⟩ := mem_incoming.mp member
  exact planned.counting.closed _ (mem_edges.mpr ⟨route, listed, rfl, rfl⟩) (into ▸ inside)

def Planning.with (planning : Planning) (graph : MixerGraph) (counts : Counts BusId) (id : BusId) : Planning :=
  ⟨counts, planning.buses.insert id (planning.busLatency graph id),
    (graph.incoming id).foldl (fun routes route => routes.insert route (planning.routeLatency graph route)) planning.routes⟩

theorem with_output (other : source ≠ id) :
    (planning.with graph counts id).output source = planning.output source := by
  unfold Planning.output Planning.with
  rw [lookup_insert, if_neg (Ne.symm other)]

theorem Planned.with (planned : graph.Planned taken planning) (there : id ∈ graph.buses) (fresh : id ∉ taken)
    (sources : ∀ route ∈ graph.incoming id, route.source ∈ taken)
    (counting : Counting graph.edges graph.buses.keys.toFinset (insert id taken) counts) :
    graph.Planned (insert id taken) (planning.with graph counts id) := by
  have apart : ∀ {source}, source ∈ taken → source ≠ id := fun member same => fresh (same ▸ member)
  -- what was planned before stays, as it depends on planned buses only
  have before : ∀ other ∈ insert id taken, ∀ route ∈ graph.incoming other, route.source ∈ taken := by
    intro other inside
    rcases Finset.mem_insert.mp inside with rfl | inside
    · exact sources
    · exact fun route member => planned.source_taken inside member
  have input : ∀ other ∈ insert id taken, (planning.with graph counts id).input graph other = planning.input graph other :=
    fun other inside => input_congr fun route member => with_output (apart (before other inside route member))
  constructor
  case counting => exact counting
  case within =>
    intro other inside
    rcases Finset.mem_insert.mp inside with rfl | inside
    · exact there
    · exact planned.within other inside
  case buses =>
    intro other
    show (planning.buses.insert id (planning.busLatency graph id))[other]? = _
    rw [lookup_insert]
    by_cases inside : other ∈ insert id taken
    · rw [if_pos inside, busLatency_congr (input other inside)]
      split
      · rename_i same
        rw [same]
      · rename_i different
        rw [planned.buses, if_pos (Finset.mem_of_mem_insert_of_ne inside (Ne.symm different))]
    · rw [if_neg inside]
      rw [Finset.mem_insert, not_or] at inside
      rw [if_neg (Ne.symm inside.1), planned.buses, if_neg inside.2]
  case routes =>
    intro route
    show ((graph.incoming id).foldl (fun routes route => routes.insert route (planning.routeLatency graph route)) planning.routes)[route]? = _
    rw [lookup_foldl_insert]
    by_cases inside : route ∈ graph.routes ∧ route.target ∈ insert id taken
    · have source := before _ inside.2 route (mem_incoming.mpr ⟨inside.1, rfl⟩)
      have same : (planning.with graph counts id).routeLatency graph route = planning.routeLatency graph route := by
        unfold Planning.routeLatency
        rw [with_output (apart source), input _ inside.2]
      rw [if_pos inside, same]
      split
      · rfl
      · rename_i other
        have different : route.target ≠ id := fun into => other (mem_incoming.mpr ⟨inside.1, into⟩)
        rw [planned.routes, if_pos ⟨inside.1, Finset.mem_of_mem_insert_of_ne inside.2 different⟩]
    · rw [if_neg inside, if_neg, planned.routes, if_neg]
      · exact fun held => inside ⟨held.1, Finset.mem_insert_of_mem held.2⟩
      · intro member
        obtain ⟨listed, into⟩ := mem_incoming.mp member
        exact inside ⟨listed, into ▸ Finset.mem_insert_self _ _⟩

theorem Planned.take (valid : graph.Valid) (planned : graph.Planned taken planning) (ready : id ∈ planning.counts.ready) :
    ∃ next, graph.planBus { planning with counts := { planning.counts with ready := planning.counts.ready.erase id } } id = .ok next ∧
      id ∉ taken ∧ graph.Planned (insert id taken) next := by
  obtain ⟨node, fresh, first⟩ := (planned.counting.ready id).mp ready
  have there : id ∈ graph.buses := mem_keys.mp (List.mem_toFinset.mp node)
  have sources : ∀ route ∈ graph.incoming id, route.source ∈ taken := by
    intro route member
    obtain ⟨listed, into⟩ := mem_incoming.mp member
    exact first _ (mem_edges.mpr ⟨route, listed, rfl, rfl⟩) into
  have inside : ∀ edge ∈ graph.edges, edge.2 ∈ graph.buses.keys.toFinset := by
    intro edge member
    obtain ⟨route, listed, rfl⟩ := List.mem_map.mp member
    exact List.mem_toFinset.mpr (mem_keys.mpr (valid.endpoints route listed).2)
  obtain ⟨counts, ticked, counting⟩ := planned.counting.take inside ready
  have targets : Countdown.targets graph.edges id = (graph.routes.filter fun route => route.source = id).map RouteEdge.target := by
    rw [Countdown.targets, edges, List.filter_map, List.map_map]
    rfl
  rw [targets] at ticked
  have arrived : ∀ route ∈ graph.routes.filter fun route => route.target = id, ∃ found, planning.buses[route.source]? = some found ∧
      (route, found.outputLatencySamples) = (route, planning.output route.source) := by
    intro route member
    have held := planned.buses route.source
    rw [if_pos (sources route member)] at held
    refine ⟨_, held, ?_⟩
    rw [Planning.output, held]
    rfl
  have arrivals := @mapM_expect MixerError _ _ _ _ _ _ _ arrived
  have insertLatency := valid.busInsertLatency there
  have input : (((graph.routes.filter fun route => route.target = id).map fun route => (route, planning.output route.source)).map Prod.snd).foldl max 0 =
      planning.input graph id := by
    rw [List.map_map]
    rfl
  have written : (((graph.routes.filter fun route => route.target = id).map fun route => (route, planning.output route.source)).foldl
        (fun routes arrival => routes.insert arrival.1 ⟨arrival.2, planning.input graph id - arrival.2⟩) planning.routes) =
      (graph.incoming id).foldl (fun routes route => routes.insert route (planning.routeLatency graph route)) planning.routes := by
    rw [List.foldl_map]
    apply List.foldl_ext
    intro routes route member
    rw [Planning.routeLatency, (mem_incoming.mp member).2]
  refine ⟨planning.with graph counts id, ?_, fresh, planned.with there fresh sources counting⟩
  unfold planBus
  dsimp only
  rw [arrivals]
  simp only [bind, Except.bind, insertLatency, ticked, expect, input, written]
  rfl

theorem Planned.run (valid : graph.Valid) (planned : graph.Planned taken planning) {fuel : Nat} (enough : graph.buses.keys.toFinset.card < fuel + taken.card) :
    ∃ final, graph.planReady fuel planning = .ok final ∧ graph.Planned graph.buses.keys.toFinset final := by
  have bound : taken.card ≤ graph.buses.keys.toFinset.card :=
    Finset.card_le_card fun id member => List.mem_toFinset.mpr (mem_keys.mpr (planned.within id member))
  induction fuel generalizing taken planning with
  | zero => omega
  | succ fuel later =>
    unfold planReady
    cases least : planning.counts.ready.min? with
    | none =>
      have stopped : ∀ id, id ∉ planning.counts.ready := by
        intro id member
        rw [ExtTreeSet.min?_eq_none_iff.mp least] at member
        simp at member
      have descends : WellFounded fun source target => (source, target) ∈ graph.edges := by
        apply wellFounded_of_acyclic
        simp only [mem_edges]
        exact valid.acyclic
      have sources : ∀ edge ∈ graph.edges, edge.1 ∈ graph.buses.keys.toFinset := by
        intro edge member
        obtain ⟨route, listed, rfl⟩ := List.mem_map.mp member
        exact List.mem_toFinset.mpr (mem_keys.mpr (valid.endpoints route listed).1)
      have all : taken = graph.buses.keys.toFinset := by
        apply Finset.Subset.antisymm
        · exact fun id member => List.mem_toFinset.mpr (mem_keys.mpr (planned.within id member))
        · exact fun id node => planned.counting.all_taken descends sources stopped node
      exact ⟨planning, rfl, all ▸ planned⟩
    | some id =>
      obtain ⟨next, step, fresh, planned'⟩ := planned.take valid (ExtTreeSet.min?_mem least)
      have grown := Finset.card_insert_of_notMem fresh
      have bound' : (insert id taken).card ≤ graph.buses.keys.toFinset.card :=
        Finset.card_le_card fun id member => List.mem_toFinset.mpr (mem_keys.mpr (planned'.within id member))
      obtain ⟨final, rest, done⟩ := later planned' (by omega) bound'
      refine ⟨final, ?_, done⟩
      dsimp only
      rw [step]
      exact rest

end Planning

section Start

variable {degrees : ExtTreeMap BusId Nat}

theorem indegrees_some {routes : List RouteEdge} (present : ∀ route ∈ routes, route.target ∈ degrees) :
    ∃ after, routes.foldlM
        (fun degrees route => do
          let degree ← (expect degrees[route.target]? : Except (Stop MixerError) Nat)
          Except.ok (degrees.insert route.target (degree + 1)))
        degrees = .ok after ∧
      ∀ id : BusId, after[id]? = degrees[id]?.map (· + routes.countP fun route => route.target = id) := by
  induction routes generalizing degrees with
  | nil => exact ⟨degrees, rfl, by simp⟩
  | cons route routes later =>
    obtain ⟨degree, held⟩ := Option.isSome_iff_exists.mp (mem_iff_isSome_getElem?.mp (present route List.mem_cons_self))
    have still : ∀ other ∈ routes, other.target ∈ degrees.insert route.target (degree + 1) :=
      fun other member => mem_insert.mpr (.inr (present other (List.mem_cons_of_mem _ member)))
    obtain ⟨after, ends, counted⟩ := later still
    refine ⟨after, ?_, ?_⟩
    · rw [List.foldlM_cons, held]
      exact ends
    · intro id
      rw [counted, lookup_insert, List.countP_cons]
      by_cases same : route.target = id
      · subst same
        simp [held, Nat.add_assoc, Nat.add_comm]
      · simp [same]

theorem mem_ready {id : BusId} :
    id ∈ ((degrees.toList.filter fun entry => entry.2 = 0).map Prod.fst).foldl ExtTreeSet.insert (∅ : ExtTreeSet BusId) ↔ degrees[id]? = some 0 := by
  have inserted : ∀ (ids : List BusId) (ready : ExtTreeSet BusId), id ∈ ids.foldl ExtTreeSet.insert ready ↔ id ∈ ready ∨ id ∈ ids := by
    intro ids
    induction ids with
    | nil => simp
    | cons first ids later =>
      intro ready
      rw [List.foldl_cons, later, ExtTreeSet.mem_insert, compare_eq_iff_eq, List.mem_cons]
      tauto
  rw [inserted, List.mem_map]
  simp only [List.mem_filter, decide_eq_true_eq]
  constructor
  · rintro (none' | ⟨entry, ⟨member, zero⟩, rfl⟩)
    · simp at none'
    · rw [mem_toList.mp member, zero]
  · exact fun held => .inr ⟨(id, 0), ⟨mem_toList.mpr held, rfl⟩, rfl⟩

theorem Valid.start (valid : graph.Valid) :
    ∃ indegree, graph.indegrees = .ok indegree ∧
      graph.Planned ∅ ⟨⟨indegree, ((indegree.toList.filter fun entry => entry.2 = 0).map Prod.fst).foldl ExtTreeSet.insert ∅⟩, ∅, ∅⟩ := by
  have zeros : ∀ id : BusId, (Collected.collect (graph.buses.keys.map fun id => (id, 0)) : ExtTreeMap BusId Nat)[id]? =
      if id ∈ graph.buses.keys.toFinset then some 0 else none := by
    intro id
    have distinct : ((graph.buses.keys.map fun id => (id, 0)).map Prod.fst).Nodup := by
      rw [List.map_map]
      show (graph.buses.keys.map fun id => id).Nodup
      rw [List.map_id']
      exact nodup_keys
    ext degree
    rw [Collected.lookup_collect distinct, List.mem_map]
    split
    · rename_i node
      have member := List.mem_toFinset.mp node
      simp only [Prod.mk.injEq, Option.some.injEq]
      exact ⟨fun ⟨_, _, _, zero⟩ => zero, fun zero => ⟨id, member, rfl, zero⟩⟩
    · rename_i out
      constructor
      · rintro ⟨other, member, same⟩
        cases same
        exact absurd (List.mem_toFinset.mpr member) out
      · intro impossible
        cases impossible
  have present : ∀ route ∈ graph.routes, route.target ∈ (Collected.collect (graph.buses.keys.map fun id => (id, 0)) : ExtTreeMap BusId Nat) := by
    intro route listed
    rw [mem_iff_isSome_getElem?, zeros, if_pos]
    · rfl
    · exact List.mem_toFinset.mpr (mem_keys.mpr (valid.endpoints route listed).2)
  obtain ⟨indegree, counted, degrees⟩ := indegrees_some present
  have degree : ∀ id : BusId, indegree[id]? =
      if id ∈ graph.buses.keys.toFinset then some (graph.edges.countP fun edge => edge.2 = id ∧ edge.1 ∉ (∅ : Finset BusId)) else none := by
    intro id
    rw [degrees, zeros]
    split
    · rw [edges, List.countP_map]
      simp [Function.comp_def]
    · rfl
  refine ⟨indegree, counted, ?_⟩
  constructor
  case within => exact fun _ none' => absurd none' (Finset.notMem_empty _)
  case buses => simp
  case routes => simp
  case counting =>
    constructor
    case remaining => exact degree
    case closed => exact fun _ _ none' => absurd none' (Finset.notMem_empty _)
    case ready =>
      intro id
      show id ∈ ((indegree.toList.filter fun entry => entry.2 = 0).map Prod.fst).foldl ExtTreeSet.insert (∅ : ExtTreeSet BusId) ↔ _
      rw [mem_ready, degree]
      split
      · rename_i node
        rw [Option.some.injEq, List.countP_eq_zero]
        simp [node]
      · rename_i out
        simp [out]

end Start

section Aligned

/-- Every bus and every route is in the plan, what comes to a bus is delayed to its latest arrival, and
    the master is as late as the heaviest chain of buses that leads to it. -/
structure Aligned (graph : MixerGraph) (plan : LatencyPlan) : Prop where
  buses : ∀ id, id ∈ plan.buses ↔ id ∈ graph.buses
  routes : ∀ route, route ∈ plan.routes ↔ route ∈ graph.routes
  routesOnce : graph.routes.Nodup
  arrival : ∀ (route : RouteEdge) (latency : RouteLatency), plan.routes[route]? = some latency →
    ∃ source target, plan.buses[route.source]? = some source ∧ plan.buses[route.target]? = some target ∧
      latency.arrivalLatencySamples = source.outputLatencySamples ∧
      latency.arrivalLatencySamples + latency.compensationDelaySamples = target.inputLatencySamples
  input : ∀ (id : BusId) (bus : BusLatency), plan.buses[id]? = some bus →
    ((∀ route ∈ graph.routes, route.target ≠ id) ∧ bus.inputLatencySamples = 0) ∨
      ∃ (route : RouteEdge) (latency : RouteLatency), plan.routes[route]? = some latency ∧ route.target = id ∧ latency.arrivalLatencySamples = bus.inputLatencySamples
  output : ∀ (id : BusId) (bus : BusLatency), plan.buses[id]? = some bus →
    bus.insertLatencySamples = min u64Max (graph.enabledLatency id) ∧
      bus.outputLatencySamples = saturatingAdd bus.inputLatencySamples bus.insertLatencySamples
  master : ∃ longest, IsGreatest (Loads (Routed graph.routes) graph.enabledLatency graph.master) longest ∧
    plan.masterOutputLatencySamples = min u64Max longest

theorem foldl_max (values : List Nat) (start : Nat) :
    (∀ value ∈ values, value ≤ values.foldl max start) ∧ start ≤ values.foldl max start ∧
      (values.foldl max start = start ∨ values.foldl max start ∈ values) := by
  induction values generalizing start with
  | nil => simp
  | cons first values later =>
    obtain ⟨above, least, attained⟩ := later (max start first)
    rw [List.foldl_cons]
    refine ⟨?_, by omega, ?_⟩
    · intro value member
      rcases List.mem_cons.mp member with rfl | member
      · omega
      · exact above value member
    · rcases attained with same | member
      · rcases max_cases start first with ⟨larger, _⟩ | ⟨larger, _⟩
        · exact .inl (same.trans larger)
        · exact .inr (List.mem_cons.mpr (.inl (same.trans larger)))
      · exact .inr (List.mem_cons_of_mem _ member)

theorem output_le_input (planning : Planning) {route : RouteEdge} (listed : route ∈ graph.routes) :
    planning.output route.source ≤ planning.input graph route.target :=
  (foldl_max _ 0).1 _ (List.mem_map.mpr ⟨route, mem_incoming.mpr ⟨listed, rfl⟩, rfl⟩)

theorem input_attained (planning : Planning) (graph : MixerGraph) (id : BusId) :
    ((∀ route ∈ graph.routes, route.target ≠ id) ∧ planning.input graph id = 0) ∨
      ∃ route ∈ graph.routes, route.target = id ∧ planning.output route.source = planning.input graph id := by
  rcases (foldl_max ((graph.incoming id).map fun route => planning.output route.source) 0).2.2 with zero | member
  · by_cases none' : ∀ route ∈ graph.routes, route.target ≠ id
    · exact .inl ⟨none', zero⟩
    · push Not at none'
      obtain ⟨route, listed, into⟩ := none'
      have below := output_le_input planning listed
      have same : planning.input graph id = 0 := zero
      rw [into, same] at below
      exact .inr ⟨route, listed, into, by omega⟩
  · obtain ⟨route, inside, same⟩ := List.mem_map.mp member
    obtain ⟨listed, into⟩ := mem_incoming.mp inside
    exact .inr ⟨route, listed, into, same⟩

variable {final : Planning}

theorem Planned.output_eq (planned : graph.Planned graph.buses.keys.toFinset final) {id : BusId} (there : id ∈ graph.buses) :
    final.buses[id]? = some (final.busLatency graph id) ∧ final.output id = saturatingAdd (final.input graph id) (min u64Max (graph.enabledLatency id)) := by
  have held := planned.buses id
  rw [if_pos (List.mem_toFinset.mpr (mem_keys.mpr there))] at held
  refine ⟨held, ?_⟩
  rw [Planning.output, held]
  rfl

section

variable (valid : graph.Valid) (planned : graph.Planned graph.buses.keys.toFinset final)
include valid planned

theorem Planned.greatest :
    ∃ longest, IsGreatest (Loads (Routed graph.routes) graph.enabledLatency graph.master) longest ∧ final.output graph.master = min u64Max longest := by
  have descends : WellFounded (Routed graph.routes) := wellFounded_of_acyclic valid.acyclic
  obtain ⟨longest, greatest⟩ := @exists_greatest_load BusId (Routed graph.routes) graph.enabledLatency descends _ graph.master
  refine ⟨longest, greatest, ?_⟩
  have sources : ∀ id ∈ {id | id ∈ graph.buses}, ∀ source, Routed graph.routes source id → source ∈ {id | id ∈ graph.buses} := by
    rintro _ _ _ ⟨route, listed, rfl, _⟩
    exact (valid.endpoints route listed).1
  have above : ∀ id ∈ {id | id ∈ graph.buses}, ∀ source, Routed graph.routes source id → final.output source ≤ final.input graph id := by
    rintro _ _ _ ⟨route, listed, rfl, rfl⟩
    exact output_le_input final listed
  have attained : ∀ id ∈ {id | id ∈ graph.buses}, final.input graph id = 0 ∨ ∃ source, Routed graph.routes source id ∧ final.output source = final.input graph id := by
    intro id _
    rcases input_attained final graph id with ⟨_, zero⟩ | ⟨route, listed, into, same⟩
    · exact .inl zero
    · exact .inr ⟨route.source, ⟨route, listed, rfl, into⟩, same⟩
  have added : ∀ id ∈ {id | id ∈ graph.buses}, final.output id = min u64Max (final.input graph id + graph.enabledLatency id) := by
    intro id there
    rw [(planned.output_eq there).2]
    unfold saturatingAdd
    omega
  exact greatest_load descends sources above attained added valid.master greatest

theorem Planned.aligned :
    graph.Aligned ⟨final.buses, final.routes, final.output graph.master⟩ := by
  have nodes : ∀ id, id ∈ graph.buses.keys.toFinset ↔ id ∈ graph.buses := by
    intro id
    rw [List.mem_toFinset, mem_keys]
  have routed : ∀ route ∈ graph.routes, final.routes[route]? = some (final.routeLatency graph route) := by
    intro route listed
    rw [planned.routes, if_pos ⟨listed, (nodes _).mpr (valid.endpoints route listed).2⟩]
  have listed : ∀ (route : RouteEdge) (latency : RouteLatency), final.routes[route]? = some latency →
      route ∈ graph.routes ∧ latency = final.routeLatency graph route := by
    intro route latency held
    rw [planned.routes] at held
    split at held
    · rename_i inside
      exact ⟨inside.1, (Option.some.inj held).symm⟩
    · cases held
  have known : ∀ (id : BusId) (bus : BusLatency), final.buses[id]? = some bus → bus = final.busLatency graph id := by
    intro id bus held
    rw [planned.buses] at held
    split at held
    · exact (Option.some.inj held).symm
    · cases held
  constructor
  case buses =>
    intro id
    rw [mem_iff_isSome_getElem?, planned.buses, ← nodes]
    split <;> simp_all
  case routes =>
    intro route
    constructor
    · intro member
      obtain ⟨latency, held⟩ := held_of_mem member
      exact (listed route latency held).1
    · intro member
      rw [mem_iff_isSome_getElem?, routed route member]
      rfl
  case routesOnce => exact valid.nodup_routes
  case arrival =>
    intro route latency held
    obtain ⟨member, rfl⟩ := listed route latency held
    obtain ⟨source, target⟩ := valid.endpoints route member
    have below := output_le_input final member
    refine ⟨_, _, (planned.output_eq source).1, (planned.output_eq target).1, (planned.output_eq source).2, ?_⟩
    show final.output route.source + (final.input graph route.target - final.output route.source) = final.input graph route.target
    omega
  case input =>
    intro id bus held
    rw [known id bus held]
    rcases input_attained final graph id with none' | ⟨route, member, into, same⟩
    · exact .inl none'
    · exact .inr ⟨route, _, routed route member, into, same⟩
  case output =>
    intro id bus held
    rw [known id bus held]
    exact ⟨rfl, rfl⟩
  case master => exact planned.greatest valid

end

theorem latencyPlan_aligned (graph : MixerGraph) (accepted : graph.validate = .ok ()) :
    ∃ plan, graph.latencyPlan = .ok plan ∧ graph.Aligned plan := by
  have valid := validate_ok accepted
  obtain ⟨indegree, counted, start⟩ := valid.start
  have enough : graph.buses.keys.toFinset.card < graph.buses.size + 1 + (∅ : Finset BusId).card := by
    have bound := List.toFinset_card_le graph.buses.keys
    rw [ExtTreeMap.length_keys] at bound
    rw [Finset.card_empty]
    omega
  obtain ⟨final, planned, all⟩ := start.run valid enough
  have master := (all.output_eq valid.master).1
  refine ⟨⟨final.buses, final.routes, final.output graph.master⟩, ?_, all.aligned valid⟩
  unfold latencyPlan
  rw [accepted]
  simp only [bind, Except.bind, counted, planned, master, expect]
  rw [Planning.output, master]
  rfl

/-- Parallel main and send routes: the main route is delayed by the latency of the return's insert. -/
def parallelReturn : MixerGraph where
  buses := Collected.collect [
    (1, ⟨1, 1, .master, none, [], [], ⟨0, 0, false, false⟩⟩),
    (2, ⟨2, 2, .source, some 1, [], [⟨1, 3, 0⟩], ⟨0, 0, false, false⟩⟩),
    (3, ⟨3, 3, .return', some 1, [⟨1, false, 1⟩], [], ⟨0, 0, false, false⟩⟩)]
  busOrder := [2, 3, 1]
  processors := Collected.collect [(1, ⟨1, 4, ⟨"native", "compressor"⟩, 64, ∅⟩)]
  master := 1

theorem parallelReturn_aligned : parallelReturn.validate = .ok () ∧ ∃ plan, parallelReturn.latencyPlan = .ok plan ∧ parallelReturn.Aligned plan :=
  ⟨rfl, latencyPlan_aligned parallelReturn rfl⟩

end Aligned

end Audec.Mixer.MixerGraph

import Audec.Automation.Store
import Audec.Lib.Filling

/-! Commands on the graph: what applying one does, and when its inverse and the allocators are as they should be. -/

open Machine Checked GuardedStore Entries
open Std (ExtTreeMap)

namespace Audec.Automation

open ContentStore ParameterChange

def AutomationCommand.afters (command : AutomationCommand) : List AutomationLane := command.changes.filterMap LaneChange.after

namespace AutomationGraph

variable {graph after : AutomationGraph} {command : AutomationCommand}

def store (graph : AutomationGraph) : ContentStore
  | .parameter address => graph.descriptors[address]?
  | .lane id => graph.lanes[id]?

theorem validateLane_ok {lane : AutomationLane} : graph.validateLane lane = .ok () ↔
    ∃ descriptor, graph.descriptors[lane.target]? = some descriptor ∧ lane.validate descriptor = .ok () := by
  unfold validateLane
  cases graph.descriptors[lane.target]? <;> simp

theorem validate_ok : graph.validate = .ok () ↔ graph.store.Valid := by
  unfold validate
  rw [bind_unit_ok, @forM_entries_ok _ _ _ _ graph.descriptors fun _ descriptor => descriptor.validate,
    @forM_entries_ok _ _ _ _ graph.lanes fun _ lane => graph.validateLane lane]
  simp only [validateLane_ok]
  exact ⟨fun both => ⟨both.1, both.2⟩, fun valid => ⟨valid.parameters, valid.lanes⟩⟩

theorem store_writeParameter (graph : AutomationGraph) (change : ParameterChange) :
    (graph.writeParameter change).store = change.put.elim graph.store fun put => GuardedStore.write put graph.store := by
  unfold put writeParameter
  cases change.address with
  | error error => rfl
  | ok address =>
    funext key
    cases key with
    | parameter other =>
      by_cases hit : address = other
      · subst hit
        cases change.after <;> simp [store, GuardedStore.write, *]
      · cases change.after <;> simp [store, GuardedStore.write, lookup_insert, lookup_erase, hit, Ne.symm hit]
    | lane id => cases change.after <;> simp [store, GuardedStore.write]

theorem store_writeLane (graph : AutomationGraph) (change : LaneChange) :
    (graph.writeLane change).store = change.put.elim graph.store fun put => GuardedStore.write put graph.store := by
  unfold LaneChange.put writeLane
  cases change.id with
  | error error => rfl
  | ok id =>
    funext key
    cases key with
    | lane other =>
      by_cases hit : id = other
      · subst hit
        cases change.after <;> simp [store, GuardedStore.write, *]
      · cases change.after <;> simp [store, GuardedStore.write, lookup_insert, lookup_erase, hit, Ne.symm hit]
    | parameter address => cases change.after <;> simp [store, GuardedStore.write]

theorem store_foldl {α : Type} {write : AutomationGraph → α → AutomationGraph} {put : α → Option (Put ContentKey Content)}
    (store_write : ∀ graph change, (write graph change).store = (put change).elim graph.store fun put => GuardedStore.write put graph.store)
    (changes : List α) (graph : AutomationGraph) :
    (changes.foldl write graph).store = writes (changes.filterMap put) graph.store := by
  induction changes generalizing graph with
  | nil => rfl
  | cons change changes tail =>
    rw [List.foldl_cons, tail, store_write]
    cases made : put change with
    | none => rw [List.filterMap_cons_none made]; rfl
    | some first => rw [List.filterMap_cons_some made]; rfl

theorem store_write (graph : AutomationGraph) (command : AutomationCommand) :
    (graph.write command).store = writes command.puts graph.store := by
  unfold write AutomationCommand.puts
  rw [store_foldl store_writeLane, store_foldl store_writeParameter, writes_append]

def counters (graph : AutomationGraph) : U64 × U64 × U64 := (graph.revision, graph.nextLaneId, graph.nextPointId)

theorem counters_foldl {α : Type} {write : AutomationGraph → α → AutomationGraph}
    (counters_write : ∀ graph change, (write graph change).counters = graph.counters) (changes : List α) (graph : AutomationGraph) :
    (changes.foldl write graph).counters = graph.counters := by
  induction changes generalizing graph with
  | nil => rfl
  | cons change changes tail => rw [List.foldl_cons, tail, counters_write]

theorem counters_write (graph : AutomationGraph) (command : AutomationCommand) : (graph.write command).counters = graph.counters := by
  unfold write
  rw [counters_foldl, counters_foldl]
  · intro graph change
    unfold writeParameter
    split <;> rfl
  · intro graph change
    unfold writeLane
    split <;> rfl

theorem foldl_advance (ids : List U64) (next : U64) : next ≤ ids.foldl advanceAllocatorPast next ∧
    ∀ id, id < ids.foldl advanceAllocatorPast next ↔ id < next ∨ id ≠ 0xffffffffffffffff ∧ ∃ other ∈ ids, id ≤ other := by
  induction ids generalizing next with
  | nil => simp
  | cons first ids tail =>
    obtain ⟨grows, below⟩ := tail (advanceAllocatorPast next first)
    have succ : (saturatingSucc first).val = min (first.val + 1) 0xffffffffffffffff := by
      unfold saturatingSucc
      cases found : checkedSucc first with
      | some next =>
        rw [checkedSucc_eq_some] at found
        have := next.isLt
        rw [Option.getD_some, found]
        omega
      | none =>
        unfold checkedSucc at found
        split at found
        · cases found
        · have := first.isLt
          rw [Option.getD_none]
          omega
    refine ⟨le_trans (le_max_left _ _) grows, fun id => ?_⟩
    rw [List.foldl_cons, below, advanceAllocatorPast, lt_max_iff, or_assoc]
    simp only [List.mem_cons, exists_eq_or_imp]
    have passed : id < saturatingSucc first ↔ id ≠ 0xffffffffffffffff ∧ id ≤ first := by
      rw [Fin.lt_def, succ, Fin.le_def, Ne, Fin.ext_iff]
      have := first.isLt
      have := id.isLt
      change id.val < min (first.val + 1) 0xffffffffffffffff ↔ ¬ id.val = 0xffffffffffffffff ∧ id.val ≤ first.val
      omega
    rw [passed, ← and_or_left]

theorem advance_counters (graph : AutomationGraph) (command : AutomationCommand) :
    (graph.advance command).store = graph.store ∧
      (graph.advance command).nextLaneId = (command.afters.map AutomationLane.id).foldl advanceAllocatorPast graph.nextLaneId ∧
      (graph.advance command).nextPointId =
        (command.afters.flatMap fun lane => lane.points.map AutomationPoint.id).foldl advanceAllocatorPast graph.nextPointId := by
  unfold advance AutomationCommand.afters
  induction command.changes generalizing graph with
  | nil => exact ⟨rfl, rfl, rfl⟩
  | cons change changes tail =>
    rw [List.foldl_cons]
    obtain ⟨stored, lanes, points⟩ := tail (graph.advanceLane change)
    cases put : change.after with
    | none =>
      have same : graph.advanceLane change = graph := by
        unfold advanceLane
        rw [put]
      rw [same] at stored lanes points ⊢
      rw [List.filterMap_cons_none put]
      exact ⟨stored, lanes, points⟩
    | some lane =>
      rw [List.filterMap_cons_some put, List.map_cons, List.foldl_cons, List.flatMap_cons, List.foldl_append, stored, lanes,
        points]
      unfold advanceLane
      rw [put]
      have same := @List.foldl_map _ _ _ AutomationPoint.id advanceAllocatorPast lane.points graph.nextPointId
      refine ⟨?_, rfl, by rw [same]⟩
      funext key
      cases key <;> rfl

end AutomationGraph

section Passes

variable {α κ : Type} {name : α → Except AutomationError κ} {put : α → Option (Put ContentKey Content)} {wrap : κ → ContentKey} {changes : List α}

theorem keys_filterMap (put_named : ∀ change key, name change = .ok key → ∃ made, put change = some made ∧ made.key = wrap key)
{names : List κ} (all : List.Forall₂ (fun change key => name change = .ok key) changes names) :
    keys (changes.filterMap put) = names.map wrap := by
  induction all with
  | nil => rfl
  | cons named _ tail =>
    obtain ⟨made, puts, same⟩ := put_named _ _ named
    rw [List.filterMap_cons_some puts, List.map_cons, ← tail, ← same]
    rfl

theorem exists_names (named : ∀ change ∈ changes, ∃ key, name change = .ok key) :
    ∃ names, List.Forall₂ (fun change key => name change = .ok key) changes names := by
  have both : ∀ change ∈ changes, ∃ key, name change = .ok key ∧ name change = .ok key := by
    intro change inside
    obtain ⟨key, found⟩ := named change inside
    exact ⟨key, found, found⟩
  obtain ⟨names, -, all⟩ := @exists_mapM _ _ _ changes name (fun change key => name change = .ok key) both
  exact ⟨names, all⟩

theorem named_of_forall₂ {names : List κ} (all : List.Forall₂ (fun change key => name change = .ok key) changes names) :
    ∀ change ∈ changes, ∃ key, name change = .ok key := by
  induction all with
  | nil => exact fun change inside => absurd inside List.not_mem_nil
  | cons named _ tail => exact List.forall_mem_cons.mpr ⟨⟨_, named⟩, tail⟩

end Passes

theorem ParameterChange.put_of_address {change : ParameterChange} {address : ParameterAddress} (named : change.address = .ok address) :
    change.put = some ⟨.parameter address, change.before, change.after⟩ := by
  unfold put
  rw [named]

theorem ParameterChange.put_named (change : ParameterChange) (address : ParameterAddress) (named : change.address = .ok address) :
    ∃ made, change.put = some made ∧ made.key = .parameter address :=
  ⟨_, put_of_address named, rfl⟩

theorem LaneChange.put_of_id {change : LaneChange} {id : AutomationLaneId} (named : change.id = .ok id) :
    change.put = some ⟨.lane id, change.before, change.after⟩ := by
  unfold put
  rw [named]

theorem LaneChange.put_named (change : LaneChange) (id : AutomationLaneId) (named : change.id = .ok id) :
    ∃ made, change.put = some made ∧ made.key = .lane id :=
  ⟨_, put_of_id named, rfl⟩

namespace AutomationGraph

variable {graph after : AutomationGraph} {command : AutomationCommand}

def ParameterPasses (graph : AutomationGraph) (change : ParameterChange) : Prop :=
  (∀ address, change.address = .ok address → (graph.descriptors[address]? == change.before) = true) ∧
    ∀ after ∈ change.after, after.validate = .ok ()

def LanePasses (graph : AutomationGraph) (change : LaneChange) : Prop :=
  ∀ id, change.id = .ok id → (graph.lanes[id]? == change.before) = true

theorem checkParameter_ok {seen seen' : List ParameterAddress} {change : ParameterChange} :
    graph.checkParameter seen change = .ok seen' ↔
      ∃ address, change.address = .ok address ∧ address ∉ seen ∧ graph.ParameterPasses change ∧ seen' = address :: seen := by
  unfold checkParameter
  rw [bind_ok]
  refine exists_congr fun address => and_congr_right fun named => ?_
  have afters : change.validateAfter = .ok () ↔ ∀ after ∈ change.after, after.validate = .ok () := by
    unfold validateAfter
    cases change.after <;> simp
  have guard : (∀ other, change.address = .ok other → (graph.descriptors[other]? == change.before) = true) ↔
      (graph.descriptors[address]? == change.before) = true := by
    rw [named]
    exact ⟨fun all => all address rfl, fun held other same => Except.ok.inj same ▸ held⟩
  simp only [bind_unit_ok, ensure_ok, afters, ParameterPasses, guard, and_assoc]
  refine and_congr_right fun _ => and_congr_right fun _ => and_congr_right fun _ => ?_
  exact ⟨fun same => (Except.ok.inj same).symm, fun same => same ▸ rfl⟩

theorem checkLane_ok {seen seen' : List AutomationLaneId} {change : LaneChange} :
    graph.checkLane seen change = .ok seen' ↔
      ∃ id, change.id = .ok id ∧ id ∉ seen ∧ graph.LanePasses change ∧ seen' = id :: seen := by
  unfold checkLane
  rw [bind_ok]
  refine exists_congr fun id => and_congr_right fun named => ?_
  have guard : graph.LanePasses change ↔ (graph.lanes[id]? == change.before) = true := by
    unfold LanePasses
    rw [named]
    exact ⟨fun all => all id rfl, fun held other same => Except.ok.inj same ▸ held⟩
  simp only [bind_unit_ok, ensure_ok, guard]
  refine and_congr_right fun _ => and_congr_right fun _ => ?_
  exact ⟨fun same => (Except.ok.inj same).symm, fun same => same ▸ rfl⟩

structure Accepts (graph : AutomationGraph) (command : AutomationCommand) : Prop where
  revision : graph.revision.val + 1 < 0x10000000000000000
  accepted : Accepted graph.store command

theorem checkRevision_none {next : U64} : graph.checkRevision none = .ok next ↔ next.val = graph.revision.val + 1 := by
  rw [← checkedSucc_eq_some]
  unfold checkRevision
  cases checkedSucc graph.revision <;> simp [bind, Except.bind]

structure Passes (graph : AutomationGraph) (command : AutomationCommand) (addresses : List ParameterAddress)
    (ids : List AutomationLaneId) : Prop where
  namesAddresses : List.Forall₂ (fun change address => change.address = .ok address) command.parameters addresses
  namesIds : List.Forall₂ (fun change id => change.id = .ok id) command.changes ids
  distinctAddresses : addresses.Nodup
  distinctIds : ids.Nodup
  parameters : ∀ change ∈ command.parameters, graph.ParameterPasses change
  lanes : ∀ change ∈ command.changes, graph.LanePasses change

theorem check_none : (∃ next, graph.check none command = .ok next) ↔
    graph.revision.val + 1 < 0x10000000000000000 ∧ ∃ addresses ids, graph.Passes command addresses ids := by
  have parameters : (∃ after, command.parameters.foldlM graph.checkParameter [] = .ok after) ↔ _ :=
    Filling.foldlM_named fun seen change seen' => @checkParameter_ok graph seen seen' change
  have lanes : (∃ after, command.changes.foldlM graph.checkLane [] = .ok after) ↔ _ :=
    Filling.foldlM_named fun seen change seen' => @checkLane_ok graph seen seen' change
  unfold check
  constructor
  · rintro ⟨next, checked⟩
    obtain ⟨revision, left, checked⟩ := bind_ok.mp checked
    obtain ⟨changed, first, checked⟩ := bind_ok.mp checked
    obtain ⟨changed', second, -⟩ := bind_ok.mp checked
    obtain ⟨addresses, namesOf, distinct, -, passes⟩ := parameters.mp ⟨changed, first⟩
    obtain ⟨ids, namesOf', distinct', -, passes'⟩ := lanes.mp ⟨changed', second⟩
    have := checkRevision_none.mp left
    have := revision.isLt
    exact ⟨by omega, addresses, ids, namesOf, namesOf', distinct, distinct', passes, passes'⟩
  · rintro ⟨left, addresses, ids, passes⟩
    obtain ⟨changed, first⟩ := parameters.mpr ⟨addresses, passes.namesAddresses, passes.distinctAddresses, fun _ _ => List.not_mem_nil, passes.parameters⟩
    obtain ⟨changed', second⟩ := lanes.mpr ⟨ids, passes.namesIds, passes.distinctIds, fun _ _ => List.not_mem_nil, passes.lanes⟩
    refine ⟨⟨graph.revision.val + 1, left⟩, bind_ok.mpr ⟨⟨graph.revision.val + 1, left⟩, checkRevision_none.mpr rfl, ?_⟩⟩
    exact bind_ok.mpr ⟨changed, first, bind_ok.mpr ⟨changed', second, rfl⟩⟩

theorem Passes.keys {addresses : List ParameterAddress} {ids : List AutomationLaneId} (passes : graph.Passes command addresses ids) :
    keys command.puts = addresses.map ContentKey.parameter ++ ids.map ContentKey.lane := by
  unfold AutomationCommand.puts
  rw [keys_append, keys_filterMap put_named passes.namesAddresses,
    keys_filterMap LaneChange.put_named passes.namesIds]

theorem mem_puts_parameter {change : ParameterChange} {address : ParameterAddress} (inside : change ∈ command.parameters)
    (named : change.address = .ok address) : ⟨.parameter address, change.before, change.after⟩ ∈ command.puts :=
  List.mem_append_left _ (List.mem_filterMap.mpr ⟨change, inside, put_of_address named⟩)

theorem mem_puts_lane {change : LaneChange} {id : AutomationLaneId} (inside : change ∈ command.changes) (named : change.id = .ok id) :
    ⟨.lane id, change.before, change.after⟩ ∈ command.puts :=
  List.mem_append_right _ (List.mem_filterMap.mpr ⟨change, inside, LaneChange.put_of_id named⟩)

theorem cases_of_mem_puts {put : Put ContentKey Content} (member : put ∈ command.puts) :
    (∃ change ∈ command.parameters, ∃ address, change.address = .ok address ∧ put = ⟨.parameter address, change.before, change.after⟩) ∨
      ∃ change ∈ command.changes, ∃ id, change.id = .ok id ∧ put = ⟨.lane id, change.before, change.after⟩ := by
  rcases List.mem_append.mp member with member | member
  · obtain ⟨change, inside, made⟩ := List.mem_filterMap.mp member
    unfold ParameterChange.put at made
    split at made
    · rename_i address named
      cases made
      exact .inl ⟨change, inside, address, named, rfl⟩
    · cases made
  · obtain ⟨change, inside, made⟩ := List.mem_filterMap.mp member
    unfold LaneChange.put at made
    split at made
    · rename_i id named
      cases made
      exact .inr ⟨change, inside, id, named, rfl⟩
    · cases made

theorem accepts_iff : graph.Accepts command ↔ (∃ next, graph.check none command = .ok next) ∧ (graph.write command).validate = .ok () := by
  rw [check_none, validate_ok, store_write]
  constructor
  · rintro ⟨revision, accepted⟩
    obtain ⟨addresses, namesOf⟩ := exists_names accepted.named.parameters
    obtain ⟨ids, namesOf'⟩ := exists_names accepted.named.lanes
    have distinct := accepted.distinct
    unfold AutomationCommand.puts at distinct
    rw [keys_append, keys_filterMap put_named namesOf,
      keys_filterMap LaneChange.put_named namesOf', List.nodup_append] at distinct
    refine ⟨⟨revision, addresses, ids, namesOf, namesOf', .of_map _ distinct.1, .of_map _ distinct.2.1, fun change inside => ⟨?_, ?_⟩, ?_⟩,
      accepted.valid⟩
    · intro address named
      exact accepted.ready _ (mem_puts_parameter inside named)
    · intro after put
      obtain ⟨address, named⟩ := accepted.named.parameters change inside
      have written := writes_distinct accepted.distinct graph.store (mem_puts_parameter inside named)
      exact accepted.valid.parameters address after (written.trans put)
    · intro change inside id named
      exact accepted.ready _ (mem_puts_lane inside named)
  · rintro ⟨⟨revision, addresses, ids, passes⟩, valid⟩
    refine ⟨revision, ⟨named_of_forall₂ passes.namesAddresses, named_of_forall₂ passes.namesIds⟩, ?_, ?_, valid⟩
    · rw [passes.keys, List.nodup_append]
      refine ⟨passes.distinctAddresses.map ?_, passes.distinctIds.map ?_, ?_⟩
      · intro a b same
        exact ContentKey.parameter.inj same
      · intro a b same
        exact ContentKey.lane.inj same
      · intro key first other second same
        obtain ⟨address, -, rfl⟩ := List.mem_map.mp first
        obtain ⟨id, -, rfl⟩ := List.mem_map.mp second
        cases same
    · intro put member
      rcases cases_of_mem_puts member with ⟨change, inside, address, named, rfl⟩ | ⟨change, inside, id, named, rfl⟩
      · exact (passes.parameters change inside).1 address named
      · exact passes.lanes change inside id named

inductive Applied (graph : AutomationGraph) (command : AutomationCommand) :
    Except AutomationError AutomationCommand × AutomationGraph → Prop where
  | refused {error : AutomationError} (refused : ¬ graph.Accepts command) : Applied graph command (.error error, graph)
  | done {after : AutomationGraph} (accepts : graph.Accepts command) (stored : after.store = writes command.puts graph.store)
      (revision : after.revision.val = graph.revision.val + 1)
      (lanes : after.nextLaneId = (command.afters.map AutomationLane.id).foldl advanceAllocatorPast graph.nextLaneId)
      (points : after.nextPointId =
        (command.afters.flatMap fun lane => lane.points.map AutomationPoint.id).foldl advanceAllocatorPast graph.nextPointId) :
      Applied graph command (.ok command.inverse, after)

theorem apply_applied (graph : AutomationGraph) (command : AutomationCommand) : Applied graph command (graph.apply command) := by
  unfold apply applyWithExpected
  cases checked : graph.check none command with
  | error error =>
    refine .refused fun accepts => ?_
    obtain ⟨next, found⟩ := (accepts_iff.mp accepts).1
    rw [checked] at found
    cases found
  | ok next =>
    have counters := counters_write graph command
    obtain ⟨revision, lanes, points⟩ : (graph.write command).revision = graph.revision ∧
        (graph.write command).nextLaneId = graph.nextLaneId ∧ (graph.write command).nextPointId = graph.nextPointId := by
      simpa only [AutomationGraph.counters, Prod.mk.injEq] using counters
    dsimp only
    cases valid : (graph.write command).validate with
    | error error =>
      have rolledBack : { graph.write command with descriptors := graph.descriptors, lanes := graph.lanes } = graph := by
        dsimp only
        rw [revision, lanes, points]
      dsimp only
      rw [rolledBack]
      refine .refused fun accepts => ?_
      rw [(accepts_iff.mp accepts).2] at valid
      cases valid
    | ok _ =>
      obtain ⟨stored, lanes', points'⟩ := advance_counters (graph.write command) command
      have left : next.val = graph.revision.val + 1 := by
        obtain ⟨found, left, rest⟩ := bind_ok.mp checked
        obtain ⟨changed, -, rest⟩ := bind_ok.mp rest
        obtain ⟨changed', -, rest⟩ := bind_ok.mp rest
        cases rest
        exact checkRevision_none.mp left
      refine .done (accepts_iff.mpr ⟨⟨next, checked⟩, valid⟩) ?_ left ?_ ?_
      · rw [← store_write, ← stored]
        funext key
        cases key <;> rfl
      · rw [← lanes, ← lanes']
      · rw [← points, ← points']

theorem apply_of_accepts (accepts : graph.Accepts command) : ∃ after, graph.apply command = (.ok command.inverse, after) ∧
    after.store = writes command.puts graph.store ∧ after.revision.val = graph.revision.val + 1 := by
  have applied := apply_applied graph command
  generalize graph.apply command = result at applied ⊢
  cases applied with
  | refused refused => exact absurd accepts refused
  | done accepts stored revision lanes points => exact ⟨_, rfl, stored, revision⟩

/-- Both allocators are past every identity that is present. -/
structure Covers (graph : AutomationGraph) : Prop where
  lanes : ∀ (id : AutomationLaneId) (lane : AutomationLane), graph.lanes[id]? = some lane → id < graph.nextLaneId
  points : ∀ (id : AutomationLaneId) (lane : AutomationLane), graph.lanes[id]? = some lane → ∀ point ∈ lane.points, point.id < graph.nextPointId

def Spares (command : AutomationCommand) (id : AutomationLaneId) : Prop := ∀ change ∈ command.changes, change.id ≠ .ok id

/-- After the command a revision is left, no identity it puts is the last of its kind, and what it spares is below an allocator
    or no greater than what it puts. -/
structure Roomy (graph : AutomationGraph) (command : AutomationCommand) : Prop where
  revision : graph.revision.val + 1 < 0xffffffffffffffff
  lanes : ∀ lane ∈ command.afters, lane.id ≠ 0xffffffffffffffff
  points : ∀ lane ∈ command.afters, ∀ point ∈ lane.points, point.id ≠ 0xffffffffffffffff
  sparedLanes : ∀ (id : AutomationLaneId) (lane : AutomationLane), graph.lanes[id]? = some lane → Spares command id →
    id < graph.nextLaneId ∨ ∃ other ∈ command.afters, id ≤ other.id
  sparedPoints : ∀ (id : AutomationLaneId) (lane : AutomationLane), graph.lanes[id]? = some lane → Spares command id → ∀ point ∈ lane.points,
    point.id < graph.nextPointId ∨ ∃ other ∈ command.afters, ∃ point' ∈ other.points, point.id ≤ point'.id

/-- A command fails and changes nothing, or it leaves a valid graph with allocators past all identities, and can be taken back. -/
def Atomic (graph : AutomationGraph) (command : AutomationCommand) : Prop :=
  match graph.apply command with
  | (.error _, after) => after = graph
  | (.ok inverse, after) => after.validate = .ok () ∧ after.Covers ∧ graph.nextLaneId ≤ after.nextLaneId ∧
      graph.nextPointId ≤ after.nextPointId ∧
      ∃ again restored, after.apply inverse = (.ok again, restored) ∧ Same restored.store graph.store

theorem lane_written (accepted : Accepted graph.store command) {id : AutomationLaneId} {lane : AutomationLane} :
    writes command.puts graph.store (.lane id) = some lane ↔
      (∃ change ∈ command.changes, change.id = .ok id ∧ change.after = some lane) ∨
        Spares command id ∧ graph.lanes[id]? = some lane := by
  by_cases spared : Spares command id
  · have untouched : ContentKey.lane id ∉ keys command.puts := by
      intro touched
      obtain ⟨put, member, same⟩ := List.mem_map.mp touched
      rcases cases_of_mem_puts member with ⟨change, inside, address, named, rfl⟩ | ⟨change, inside, other, named, rfl⟩
      · cases same
      · cases same
        exact spared change inside named
    rw [writes_other _ _ untouched]
    constructor
    · exact fun held => .inr ⟨spared, held⟩
    · rintro (⟨change, inside, named, -⟩ | ⟨-, held⟩)
      · exact absurd named (spared change inside)
      · exact held
  · obtain ⟨change, inside, named⟩ : ∃ change ∈ command.changes, change.id = .ok id := by
      by_contra absent
      exact spared fun change inside named => absent ⟨change, inside, named⟩
    have written (change : LaneChange) (inside : change ∈ command.changes) (named : change.id = .ok id) :
        writes command.puts graph.store (.lane id) = change.after :=
      writes_distinct accepted.distinct graph.store (mem_puts_lane inside named)
    constructor
    · exact fun held => .inl ⟨change, inside, named, (written change inside named).symm.trans held⟩
    · rintro (⟨change', inside', named', put⟩ | ⟨spares, -⟩)
      · exact (written change' inside' named').trans put
      · exact absurd spares spared

theorem mem_afters {lane : AutomationLane} : lane ∈ command.afters ↔ ∃ change ∈ command.changes, change.after = some lane :=
  List.mem_filterMap

theorem not_last {id next : U64} {holds : Prop} (below : id < next ∨ id ≠ 0xffffffffffffffff ∧ holds) : id ≠ 0xffffffffffffffff := by
  rcases below with below | ⟨different, -⟩
  · intro same
    rw [same, Fin.lt_def] at below
    have := next.isLt
    change 0xffffffffffffffff < next.val at below
    omega
  · exact different

theorem ne_last_of_le {id other : U64} (le : id ≤ other) (different : other ≠ 0xffffffffffffffff) : id ≠ 0xffffffffffffffff := by
  intro same
  apply different
  rw [same, Fin.le_def] at le
  have := other.isLt
  change 0xffffffffffffffff ≤ other.val at le
  apply Fin.ext
  change other.val = 0xffffffffffffffff
  omega

theorem covers_iff (accepted : Accepted graph.store command) (stored : after.store = writes command.puts graph.store)
    (lanes : after.nextLaneId = (command.afters.map AutomationLane.id).foldl advanceAllocatorPast graph.nextLaneId)
    (points : after.nextPointId =
      (command.afters.flatMap fun lane => lane.points.map AutomationPoint.id).foldl advanceAllocatorPast graph.nextPointId) :
    after.Covers ↔ (∀ lane ∈ command.afters, lane.id ≠ 0xffffffffffffffff) ∧
      (∀ lane ∈ command.afters, ∀ point ∈ lane.points, point.id ≠ 0xffffffffffffffff) ∧
      (∀ (id : AutomationLaneId) (lane : AutomationLane), graph.lanes[id]? = some lane → Spares command id → id < graph.nextLaneId ∨ ∃ other ∈ command.afters, id ≤ other.id) ∧
      ∀ (id : AutomationLaneId) (lane : AutomationLane), graph.lanes[id]? = some lane → Spares command id → ∀ point ∈ lane.points,
        point.id < graph.nextPointId ∨ ∃ other ∈ command.afters, ∃ point' ∈ other.points, point.id ≤ point'.id := by
  have present (id : AutomationLaneId) (lane : AutomationLane) : after.lanes[id]? = some lane ↔
      (∃ change ∈ command.changes, change.id = .ok id ∧ change.after = some lane) ∨ Spares command id ∧ graph.lanes[id]? = some lane := by
    rw [← lane_written accepted, ← stored]
    rfl
  have lane_below (id : AutomationLaneId) : id < after.nextLaneId ↔
      id < graph.nextLaneId ∨ id ≠ 0xffffffffffffffff ∧ ∃ other ∈ command.afters, id ≤ other.id := by
    rw [lanes, (foldl_advance _ _).2]
    simp only [List.mem_map, exists_exists_and_eq_and]
  have point_below (id : AutomationPointId) : id < after.nextPointId ↔
      id < graph.nextPointId ∨ id ≠ 0xffffffffffffffff ∧ ∃ other ∈ command.afters, ∃ point ∈ other.points, id ≤ point.id := by
    rw [points, (foldl_advance _ _).2]
    have listed : (∃ other ∈ command.afters.flatMap fun lane => lane.points.map AutomationPoint.id, id ≤ other) ↔
        ∃ other ∈ command.afters, ∃ point ∈ other.points, id ≤ point.id := by
      simp only [List.mem_flatMap, List.mem_map]
      constructor
      · rintro ⟨_, ⟨lane, put, point, inside, rfl⟩, le⟩
        exact ⟨lane, put, point, inside, le⟩
      · rintro ⟨lane, put, point, inside, le⟩
        exact ⟨point.id, ⟨lane, put, point, inside, rfl⟩, le⟩
    rw [listed]
  have put_present {lane : AutomationLane} (put : lane ∈ command.afters) : after.lanes[lane.id]? = some lane := by
    obtain ⟨change, inside, held⟩ := mem_afters.mp put
    obtain ⟨id, named⟩ := accepted.named.lanes change inside
    have same : lane.id = id := by
      unfold LaneChange.id at named
      rw [held] at named
      exact agreed_after named
    rw [present, same]
    exact .inl ⟨change, inside, named, held⟩
  constructor
  · rintro ⟨covered, covered'⟩
    refine ⟨fun lane put => not_last ((lane_below _).mp (covered _ lane (put_present put))),
      fun lane put point inside => not_last ((point_below _).mp (covered' _ lane (put_present put) point inside)), ?_, ?_⟩
    · intro id lane held spared
      exact ((lane_below id).mp (covered id lane ((present id lane).mpr (.inr ⟨spared, held⟩)))).imp_right And.right
    · intro id lane held spared point inside
      exact ((point_below point.id).mp (covered' id lane ((present id lane).mpr (.inr ⟨spared, held⟩)) point inside)).imp_right And.right
  · rintro ⟨lastLane, lastPoint, spared, spared'⟩
    constructor
    · intro id lane held
      rw [lane_below]
      rcases (present id lane).mp held with ⟨change, inside, named, put⟩ | ⟨spares, held⟩
      · have member : lane ∈ command.afters := mem_afters.mpr ⟨change, inside, put⟩
        unfold LaneChange.id at named
        rw [put] at named
        have same : lane.id = id := agreed_after named
        exact .inr ⟨same ▸ lastLane lane member, lane, member, same.ge⟩
      · refine (spared id lane held spares).imp_right fun ⟨other, member, le⟩ => ⟨?_, other, member, le⟩
        exact ne_last_of_le le (lastLane other member)
    · intro id lane held point inside
      rw [point_below]
      rcases (present id lane).mp held with ⟨change, inside', named, put⟩ | ⟨spares, held⟩
      · have member : lane ∈ command.afters := mem_afters.mpr ⟨change, inside', put⟩
        exact .inr ⟨lastPoint lane member point inside, lane, member, point, inside, le_rfl⟩
      · refine (spared' id lane held spares point inside).imp_right fun ⟨other, member, point', inside', le⟩ => ⟨?_, other, member, point', inside', le⟩
        exact ne_last_of_le le (lastPoint other member point' inside')

theorem atomic_iff (valid : graph.validate = .ok ()) : graph.Atomic command ↔ (graph.Accepts command → graph.Roomy command) := by
  rw [validate_ok] at valid
  have applied := apply_applied graph command
  unfold Atomic
  generalize graph.apply command = result at applied ⊢
  cases applied with
  | refused refused => exact ⟨fun _ accepts => absurd accepts refused, fun _ => rfl⟩
  | @done after accepts stored revision lanes points =>
    obtain ⟨accepted', restores⟩ := accepts.accepted.inverse valid
    have valid' : after.validate = .ok () := by
      rw [validate_ok, stored]
      exact accepts.accepted.valid
    have covers := covers_iff accepts.accepted stored lanes points
    have grows : graph.nextLaneId ≤ after.nextLaneId := lanes ▸ (foldl_advance _ _).1
    have grows' : graph.nextPointId ≤ after.nextPointId := points ▸ (foldl_advance _ _).1
    have back : (∃ again restored, after.apply command.inverse = (.ok again, restored) ∧ Same restored.store graph.store) ↔
        graph.revision.val + 1 < 0xffffffffffffffff := by
      constructor
      · rintro ⟨again, restored, undone, -⟩
        have applied := apply_applied after command.inverse
        rw [undone] at applied
        cases applied with
        | done accepts =>
          have := accepts.revision
          omega
      · intro left
        have accepts' : after.Accepts command.inverse := ⟨by omega, stored ▸ accepted'⟩
        obtain ⟨restored, undone, stored', -⟩ := apply_of_accepts accepts'
        refine ⟨_, restored, undone, ?_⟩
        rw [stored', stored]
        exact restores
    dsimp only
    rw [back, covers]
    constructor
    · rintro ⟨-, ⟨lastLane, lastPoint, spared, spared'⟩, -, -, left⟩ -
      exact ⟨left, lastLane, lastPoint, spared, spared'⟩
    · intro roomy
      obtain ⟨left, lastLane, lastPoint, spared, spared'⟩ := roomy accepts
      exact ⟨valid', ⟨lastLane, lastPoint, spared, spared'⟩, grows, grows', left⟩

end AutomationGraph

end Audec.Automation

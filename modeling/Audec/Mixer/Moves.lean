import Audec.Lib.Reorder
import Audec.Mixer.Valid

/-! Buses and inserts that are moved before one another, named by identity. -/

open Machine Checked Reorder List Entries
open Std (ExtTreeMap)

namespace Audec.Mixer

open InsertSlot

namespace MixerGraph

def moveBusBefore (graph : MixerGraph) (id : BusId) (before : Option BusId) : Except MixerError MixerGraph := do
  graph.requireBus id
  ensure (id ≠ graph.master) .masterOrderIsPinned
  before.toList.forM graph.requireBus
  if before = some id then .ok graph
  else match graph.busOrder.findIdx? (· = id) with
  | none => .error .invalidBusOrder
  | some oldPosition =>
    let removed := graph.busOrder.eraseIdx oldPosition
    match removed.findIdx? (· = before.getD graph.master) with
    | none => .error .invalidBusOrder
    | some newPosition => .ok { graph with busOrder := removed.insertIdx newPosition id }

def findInsert (graph : MixerGraph) (id : ProcessorId) : Option (BusId × Nat) :=
  (Entries.values graph.buses).findSome? fun bus =>
    (bus.inserts.findIdx? (·.processorId = id)).map fun position => (bus.id, position)

def locate (graph : MixerGraph) (id : ProcessorId) : Except (Stop MixerError) (BusId × Nat) :=
  match graph.findInsert id with
  | none => .error (.error (.missingProcessor id))
  | some found => .ok found

def moveProcessor (graph : MixerGraph) (busId : BusId) (id : ProcessorId) (newIndex : Nat) : Except (Stop MixerError) MixerGraph := do
  let found ← graph.locate id
  ensure (found.1 = busId) (.error (.processorNotOnBus id busId))
  let bus ← expect graph.buses[busId]?
  ensure (newIndex ≤ bus.inserts.length - 1) (.error (.invalidInsertIndex newIndex (bus.inserts.length - 1)))
  let slot ← expect bus.inserts[found.2]?
  .ok { graph with buses := graph.buses.insert busId { bus with inserts := (bus.inserts.eraseIdx found.2).insertIdx newIndex slot } }

def moveProcessorBefore (graph : MixerGraph) (id : ProcessorId) (before : Option ProcessorId) : Except (Stop MixerError) MixerGraph := do
  let found ← graph.locate id
  let newIndex ← match before with
    | none => do
      let bus ← expect graph.buses[found.1]?
      Except.ok (bus.inserts.length - 1)
    | some before => do
      ensure (before ≠ id) (.error (.insertCannotPrecedeItself id))
      let anchor ← graph.locate before
      ensure (anchor.1 = found.1) (.error (.processorNotOnBus before found.1))
      Except.ok (if found.2 < anchor.2 then anchor.2 - 1 else anchor.2)
  graph.moveProcessor found.1 id newIndex

variable {graph after : MixerGraph}

section Buses

def movedOrder (graph : MixerGraph) (id : BusId) (before : Option BusId) : List BusId :=
  move (fun bus => bus) id (some (before.getD graph.master)) graph.busOrder

/-- What an accepted move of a bus does. -/
structure BusMoved (graph : MixerGraph) (id : BusId) (before : Option BusId) (after : MixerGraph) : Prop where
  placed : ∃ left right, after.busOrder = left ++ id :: before.getD graph.master :: right
  others : after.busOrder.filter (· ≠ id) = graph.busOrder.filter (· ≠ id)
  masterLast : after.busOrder.getLast? = some graph.master
  rest : after = { graph with busOrder := after.busOrder }
  back : ∃ left successor right, graph.busOrder = left ++ id :: successor :: right ∧ after.moveBusBefore id (some successor) = .ok graph

structure Ordered (graph : MixerGraph) : Prop where
  distinct : (graph.busOrder.map fun bus => bus).Nodup
  listed : ∀ id : BusId, id ∈ graph.busOrder ↔ id ∈ graph.buses
  masterLast : graph.busOrder.getLast? = some graph.master

theorem ordered_of_valid (valid : graph.validate = .ok ()) : graph.Ordered := by
  unfold validate at valid
  rw [bind_unit_ok, lift_ok] at valid
  have parts := valid.1
  unfold validateParts at parts
  rw [bind_unit_ok, ensure_ok] at parts
  obtain ⟨⟨length, last, same⟩, -⟩ := parts
  have count : graph.busOrder.toFinset.card = graph.busOrder.length := by
    rw [same, toFinset_card_of_nodup ExtTreeMap.nodup_keys, ExtTreeMap.length_keys, length]
  refine ⟨by rw [map_id']; exact Multiset.toFinset_card_eq_card_iff_nodup.mp count, fun id => ?_, last⟩
  rw [← mem_toFinset, same, mem_toFinset, ExtTreeMap.mem_keys]

variable {id : BusId} {before : Option BusId} (ordered : graph.Ordered)
include ordered

theorem anchor_remains (other : id ≠ graph.master) (apart : before ≠ some id) (anchors : ∀ anchor ∈ before, anchor ∈ graph.buses) :
    Anchored (fun bus => bus) id (some (before.getD graph.master)) graph.busOrder := by
  rintro _ ⟨⟩
  have inside : before.getD graph.master ∈ graph.busOrder ∧ before.getD graph.master ≠ id := by
    cases before with
    | none => exact ⟨mem_of_getLast? ordered.masterLast, other.symm⟩
    | some anchor => exact ⟨(ordered.listed anchor).mpr (anchors anchor rfl), fun same => apart (congrArg some same)⟩
  exact ⟨_, mem_filter.mpr ⟨inside.1, decide_eq_true inside.2⟩, rfl⟩

theorem moveBusBefore_ok (apart : before ≠ some id) :
    graph.moveBusBefore id before = .ok after ↔ id ∈ graph.buses ∧ id ≠ graph.master ∧ (∀ anchor ∈ before, anchor ∈ graph.buses) ∧
      after = { graph with busOrder := graph.movedOrder id before } := by
  unfold moveBusBefore requireBus movedOrder move
  rw [bind_unit_ok, ensure_ok, bind_unit_ok, ensure_ok, bind_unit_ok, forM_ok, if_neg apart]
  simp only [ensure_ok, Option.mem_toList]
  refine and_congr_right fun known => and_congr_right fun other => and_congr_right fun anchors => ?_
  obtain ⟨left, right, split⟩ := append_of_mem ((ordered.listed id).mpr known)
  have distinct := ordered.distinct
  obtain ⟨target, inside, same⟩ := anchor_remains ordered other apart anchors _ rfl
  have searched : ((without (fun bus => bus) id graph.busOrder).findIdx? (· = before.getD graph.master)).isSome = true := by
    rw [findIdx?_isSome, any_eq_true]
    exact ⟨target, inside, decide_eq_true same⟩
  obtain ⟨next, found⟩ := Option.isSome_iff_exists.mp searched
  rw [split] at distinct found ⊢
  rw [findIdx?_split distinct]
  dsimp only
  rw [eraseIdx_split distinct, found]
  dsimp only
  rw [insertIdx_place found, Except.ok.injEq, eq_comm]

theorem moved_bus (apart : before ≠ some id) (accepted : graph.moveBusBefore id before = .ok after) : BusMoved graph id before after := by
  obtain ⟨known, other, anchors, rfl⟩ := (moveBusBefore_ok ordered apart).mp accepted
  have anchored := anchor_remains ordered other apart anchors
  obtain ⟨first, rest, split, moved, head⟩ := move_split anchored
  obtain ⟨next, behind, same⟩ := Option.map_eq_some_iff.mp head
  obtain ⟨rest, rfl⟩ := head?_eq_some_iff.mp behind
  obtain ⟨left, right, order⟩ := append_of_mem ((ordered.listed id).mpr known)
  have master := ordered.masterLast
  have distinct := ordered.distinct
  rw [order] at master distinct
  -- the master is last, so some bus follows the moved one
  obtain ⟨successor, right, rfl⟩ : ∃ successor later, right = successor :: later := by
    cases right with
    | nil =>
      rw [getLast?_concat, Option.some.injEq] at master
      exact absurd master other
    | cons successor right => exact ⟨successor, right, rfl⟩
  have last : (graph.movedOrder id before).getLast? = some graph.master := by
    rw [movedOrder, moved, getLast?_between (cons_ne_nil _ _), ← split, order, without_split distinct, ← master, getLast?_between (cons_ne_nil _ _)]
  have perm : (graph.movedOrder id before).Perm graph.busOrder := by
    rw [order] at anchored
    rw [movedOrder, order]
    exact move_perm distinct anchored
  have back : graph.busOrder = move (fun bus => bus) id (some successor) (graph.movedOrder id before) := by
    rw [order] at anchored
    rw [movedOrder, order]
    symm
    exact move_back distinct anchored
  have ordered' : Ordered { graph with busOrder := graph.movedOrder id before } :=
    ⟨(perm.map _).nodup_iff.mpr ordered.distinct, fun other => perm.mem_iff.trans (ordered.listed other), last⟩
  refine ⟨⟨first, rest, by rw [← same]; exact moved⟩, without_move anchored, last, rfl, left, successor, right, order,
    (moveBusBefore_ok ordered' ?_).mpr ⟨known, other, ?_, congrArg (fun order => { graph with busOrder := order }) back⟩⟩
  · rintro ⟨⟩
    rw [map_append, map_cons, nodup_middle, nodup_cons] at distinct
    exact distinct.1 (by simp)
  · rintro _ ⟨⟩
    exact (ordered.listed successor).mp (order ▸ by simp)

end Buses

section Inserts

/-- Every insert is in one place, under its own bus. -/
structure InsertsOnce (graph : MixerGraph) : Prop where
  keyed : ∀ (id : BusId) (bus : Bus), graph.buses[id]? = some bus → bus.id = id
  once : ∀ (id : BusId) (bus : Bus), graph.buses[id]? = some bus → (bus.inserts.map InsertSlot.processorId).Nodup
  apart : ∀ (id other : BusId) (bus bus' : Bus), graph.buses[id]? = some bus → graph.buses[other]? = some bus' →
    ∀ slot ∈ bus.inserts, ∀ slot' ∈ bus'.inserts, slot.processorId = slot'.processorId → id = other

theorem validateBuses_inserts {entries : List (BusId × Bus)} {claims after : Claims} (accepted : entries.foldlM graph.validateBus claims = .ok after) :
    (entries.flatMap fun entry => entry.2.inserts).foldlM graph.validateInsert claims.usedProcessors = .ok after.usedProcessors := by
  induction entries generalizing claims with
  | nil =>
    cases accepted
    rfl
  | cons first entries later =>
    rw [foldlM_cons, bind_ok] at accepted
    obtain ⟨next, checked, rest⟩ := accepted
    unfold validateBus at checked
    simp only [bind_ok] at checked
    obtain ⟨_, _, _, _, _, _, _, _, _, _, _, _, used, inserts, same⟩ := checked
    cases same
    rw [flatMap_cons, foldlM_append, bind_ok]
    exact ⟨used, inserts, later rest⟩

theorem insertsOnce_of_valid (valid : graph.validate = .ok ()) : graph.InsertsOnce := by
  have keyed := (validate_ok valid).keyed
  unfold validate at valid
  rw [bind_unit_ok, lift_ok] at valid
  have parts := valid.1
  unfold validateParts at parts
  simp only [bind_ok] at parts
  obtain ⟨_, _, _, _, _, buses, _⟩ := parts
  have distinct := (@claims_ok _ _ _ processorId _ (fun _ => True) (fun taken insert after accepted =>
    ⟨trivial, (validateInsert_ok accepted).2⟩) _ _ _ (validateBuses_inserts buses)).2.1
  rw [map_flatMap, nodup_flatMap] at distinct
  refine ⟨keyed, fun id bus held => distinct.1 (id, bus) (mem_toList.mpr held), ?_⟩
  intro id other bus bus' held held' slot inside slot' inside' same
  by_contra different
  have symm : Std.Symm (Function.onFun List.Disjoint fun entry : BusId × Bus => entry.2.inserts.map processorId) :=
    ⟨fun _ _ disjoint => disjoint.symm⟩
  have disjoint := distinct.2.forall (mem_toList.mpr held) (mem_toList.mpr held') fun equal => different (congrArg Prod.fst equal)
  exact disjoint (mem_map_of_mem inside) (same ▸ mem_map_of_mem inside')

theorem locate_ok (once : graph.InsertsOnce) {id : ProcessorId} {found : BusId × Nat} :
    graph.locate id = .ok found ↔ ∃ bus, graph.buses[found.1]? = some bus ∧ bus.inserts.findIdx? (·.processorId = id) = some found.2 := by
  have sound : ∀ found, graph.findInsert id = some found → ∃ bus, graph.buses[found.1]? = some bus ∧
      bus.inserts.findIdx? (·.processorId = id) = some found.2 := by
    intro found search
    obtain ⟨_, bus, _, same, search, -⟩ := findSome?_eq_some_iff.mp search
    obtain ⟨position, placed, rfl⟩ := Option.map_eq_some_iff.mp search
    obtain ⟨key, held⟩ := mem_values.mp (same ▸ mem_append_right _ mem_cons_self)
    exact ⟨bus, by rwa [once.keyed key bus held], placed⟩
  have located : graph.locate id = .ok found ↔ graph.findInsert id = some found := by
    unfold locate
    cases graph.findInsert id <;> simp
  rw [located]
  refine ⟨sound found, ?_⟩
  rintro ⟨bus, held, placed⟩
  have searched : (graph.findInsert id).isSome = true :=
    findSome?_isSome_iff.mpr ⟨bus, mem_values.mpr ⟨found.1, held⟩, by rw [placed]; rfl⟩
  obtain ⟨other, search⟩ := Option.isSome_iff_exists.mp searched
  obtain ⟨bus', held', placed'⟩ := sound other search
  obtain ⟨inside, named, -⟩ := findIdx?_eq_some_iff_getElem.mp placed
  obtain ⟨inside', named', -⟩ := findIdx?_eq_some_iff_getElem.mp placed'
  have home : found.1 = other.1 := once.apart found.1 other.1 bus bus' held held' _ (getElem_mem inside) _ (getElem_mem inside')
    ((of_decide_eq_true named).trans (of_decide_eq_true named').symm)
  rw [← home, held, Option.some.injEq] at held'
  rw [← held', placed, Option.some.injEq] at placed'
  rw [search, Option.some.injEq]
  exact (Prod.ext home placed').symm

theorem InsertsOnce.reordered (once : graph.InsertsOnce) {busId : BusId} {bus : Bus} (held : graph.buses[busId]? = some bus)
    {slots : List InsertSlot} (perm : slots.Perm bus.inserts) :
    InsertsOnce { graph with buses := graph.buses.insert busId { bus with inserts := slots } } := by
  have each (id : BusId) (moved : Bus) (found : (graph.buses.insert busId { bus with inserts := slots })[id]? = some moved) :
      ∃ origin, graph.buses[id]? = some origin ∧ moved.id = origin.id ∧ moved.inserts.Perm origin.inserts := by
    rw [ExtTreeMap.getElem?_insert] at found
    split at found
    next here =>
      cases found
      exact ⟨bus, compare_eq_iff_eq.mp here ▸ held, rfl, perm⟩
    · exact ⟨moved, found, rfl, .refl _⟩
  refine ⟨fun id moved found => ?_, fun id moved found => ?_, fun id other moved moved' found found' slot inside slot' inside' same => ?_⟩
  · obtain ⟨origin, held, same, -⟩ := each id moved found
    exact same.trans (once.keyed id origin held)
  · obtain ⟨origin, held, -, perm⟩ := each id moved found
    exact (perm.map _).nodup_iff.mpr (once.once id origin held)
  · obtain ⟨origin, held, -, perm⟩ := each id moved found
    obtain ⟨origin', held', -, perm'⟩ := each other moved' found'
    exact once.apart id other origin origin' held held' slot (perm.mem_iff.mp inside) slot' (perm'.mem_iff.mp inside') same

variable {id : ProcessorId} {before : Option ProcessorId} {busId : BusId} {bus : Bus} {slot : InsertSlot}

/-- What an accepted move of an insert does. -/
structure ProcessorMoved (graph : MixerGraph) (id : ProcessorId) (before : Option ProcessorId) (after : MixerGraph) (busId : BusId) (bus : Bus)
    (slot : InsertSlot) (moved : List InsertSlot) : Prop where
  held : graph.buses[busId]? = some bus
  moves : slot.processorId = id
  rest : after = { graph with buses := graph.buses.insert busId { bus with inserts := moved } }
  placed : ∃ first last, moved = first ++ slot :: last ∧ last.head?.map InsertSlot.processorId = before
  others : moved.filter (·.processorId ≠ id) = bus.inserts.filter (·.processorId ≠ id)
  back : ∃ left right, bus.inserts = left ++ slot :: right ∧ after.moveProcessorBefore id (right.head?.map InsertSlot.processorId) = .ok graph

theorem moveProcessorBefore_ok (once : graph.InsertsOnce) (held : graph.buses[busId]? = some bus) (inside : slot ∈ bus.inserts) :
    graph.moveProcessorBefore slot.processorId before = .ok after ↔
      Anchored processorId slot before bus.inserts ∧
      after = { graph with buses := graph.buses.insert busId { bus with inserts := move processorId slot before bus.inserts } } := by
  have distinct := once.once busId bus held
  obtain ⟨left, right, chain⟩ := append_of_mem inside
  rw [chain] at distinct
  have located : graph.locate slot.processorId = .ok (busId, left.length) :=
    (locate_ok once).mpr ⟨bus, held, by rw [chain, findIdx?_split distinct]⟩
  have shorter := without_split distinct
  have moves (newIndex : Nat) : graph.moveProcessor busId slot.processorId newIndex = .ok after ↔ newIndex ≤ (left ++ right).length ∧
      after = { graph with buses := graph.buses.insert busId { bus with inserts := (left ++ right).insertIdx newIndex slot } } := by
    have short : bus.inserts.length - 1 = (left ++ right).length := by
      rw [chain, length_append, length_append, length_cons, Nat.add_succ_sub_one]
    have slot' : bus.inserts[left.length]? = some slot := by rw [chain, getElem?_append_right le_rfl, Nat.sub_self, getElem?_cons_zero]
    unfold moveProcessor
    simp only [located, bind, Except.bind, ensure, if_true, held, expect, short, slot']
    by_cases room : newIndex ≤ (left ++ right).length
    · rw [if_pos room, Except.ok.injEq, chain, eraseIdx_split distinct, shorter, eq_comm]
      exact (and_iff_right room).symm
    · rw [if_neg room]
      exact iff_of_false (fun same => by cases same) fun both => room both.1
  rw [move, Anchored, chain, shorter]
  cases before with
  | none =>
    have index : graph.moveProcessorBefore slot.processorId none = graph.moveProcessor busId slot.processorId (bus.inserts.length - 1) := by
      simp only [moveProcessorBefore, located, bind, Except.bind, held, expect]
    rw [index, moves, chain, length_append, length_cons, Nat.add_succ_sub_one, ← length_append, insertIdx_length_self, place_none]
    simp
  | some anchor =>
    by_cases anchored : ∃ next ∈ left ++ right, next.processorId = anchor
    · obtain ⟨next, member, named⟩ := anchored
      have apart : slot.processorId ≠ anchor := fun same => by
        rw [← shorter] at member
        exact of_decide_eq_true (mem_filter.mp member).2 (named.trans same.symm)
      have searched : (bus.inserts.findIdx? (·.processorId = anchor)).isSome = true := by
        rw [findIdx?_isSome, any_eq_true, chain]
        exact ⟨next, perm_middle.mem_iff.mpr (mem_cons_of_mem _ member), decide_eq_true named⟩
      obtain ⟨index, search⟩ := Option.isSome_iff_exists.mp searched
      have target : graph.locate anchor = .ok (busId, index) := (locate_ok once).mpr ⟨bus, held, search⟩
      rw [chain] at search
      have position := findIdx?_erased apart search
      have within := (findIdx?_eq_some_iff_getElem.mp position).1
      have step : graph.moveProcessorBefore slot.processorId (some anchor) =
          graph.moveProcessor busId slot.processorId (if left.length < index then index - 1 else index) := by
        unfold moveProcessorBefore
        simp only [located, target, bind, Except.bind, ensure, if_true, if_pos apart.symm]
      rw [step, moves, insertIdx_place position, and_iff_right within.le, and_iff_right]
      rintro _ ⟨⟩
      exact ⟨next, member, named⟩
    · refine iff_of_false (fun accepted => ?_) fun both => anchored (both.1 anchor rfl)
      unfold moveProcessorBefore at accepted
      simp only [bind_ok] at accepted
      obtain ⟨found, same, _, apart, target, search, _, home, _⟩ := accepted
      have apart := ensure_ok.mp apart
      cases located.symm.trans same
      obtain ⟨bus', held', placed⟩ := (locate_ok once).mp search
      rw [ensure_ok.mp home, held, Option.some.injEq] at held'
      rw [← held', chain, findIdx?_eq_some_iff_getElem] at placed
      obtain ⟨bound, named, -⟩ := placed
      rcases mem_cons.mp (perm_middle.mem_iff.mp (getElem_mem bound)) with here | there
      · exact apart ((of_decide_eq_true named).symm.trans (congrArg processorId here))
      · exact anchored ⟨_, there, of_decide_eq_true named⟩

theorem moved_processor (once : graph.InsertsOnce) (accepted : graph.moveProcessorBefore id before = .ok after) :
    ∃ busId bus slot moved, ProcessorMoved graph id before after busId bus slot moved := by
  have located := accepted
  unfold moveProcessorBefore at located
  rw [bind_ok] at located
  obtain ⟨⟨busId, position⟩, located, -⟩ := located
  obtain ⟨bus, held, placed⟩ := (locate_ok once).mp located
  obtain ⟨bound, named, -⟩ := findIdx?_eq_some_iff_getElem.mp placed
  have inside := getElem_mem bound
  generalize bus.inserts[position] = slot at named inside
  obtain rfl : slot.processorId = id := of_decide_eq_true named
  obtain ⟨anchored, rfl⟩ := (moveProcessorBefore_ok once held inside).mp accepted
  obtain ⟨first, last, -, moved, next⟩ := move_split anchored
  obtain ⟨left, right, chain⟩ := append_of_mem inside
  have distinct := once.once busId bus held
  refine ⟨busId, bus, slot, _, held, rfl, rfl, ⟨first, last, moved, next⟩, without_move anchored, left, right, chain, ?_⟩
  rw [chain] at distinct anchored
  have once' := once.reordered held (chain ▸ move_perm distinct anchored)
  have back := move_back distinct anchored
  refine (moveProcessorBefore_ok once' ExtTreeMap.getElem?_insert_self (moved ▸ by simp)).mpr ⟨fun anchor named => ?_, ?_⟩
  · obtain ⟨successor, head, named⟩ := Option.map_eq_some_iff.mp named
    refine ⟨successor, ?_, named⟩
    rw [chain, without_move anchored, without_split distinct]
    exact mem_append_right _ (mem_of_mem_head? head)
  · have buses : (graph.buses.insert busId { bus with inserts := move processorId slot before bus.inserts }).insert busId bus = graph.buses := by
      ext key
      rw [ExtTreeMap.getElem?_insert, ExtTreeMap.getElem?_insert]
      split
      next here => rw [← compare_eq_iff_eq.mp here, held]
      · rfl
    rw [chain, back, ← chain]
    exact congrArg (fun buses => { graph with buses := buses }) buses.symm

end Inserts
end MixerGraph

open MixerGraph

/-- Moving a bus, and moving an insert. -/
theorem moves_in_order {graph : MixerGraph} (valid : graph.validate = .ok ()) :
    (∀ id before after, before ≠ some id → graph.moveBusBefore id before = .ok after → BusMoved graph id before after) ∧
      ∀ id before after, graph.moveProcessorBefore id before = .ok after →
        ∃ busId bus slot moved, ProcessorMoved graph id before after busId bus slot moved :=
  ⟨fun _ _ _ => moved_bus (ordered_of_valid valid), fun _ _ _ => moved_processor (insertsOnce_of_valid valid)⟩

/-- Two sources into a master with two inserts. -/
def pairChain : MixerGraph where
  buses := Collected.collect [
    (1, ⟨1, 1, .master, none, [⟨1, false, 1⟩, ⟨2, true, 0.5⟩], [], ⟨0, 0, false, false⟩⟩),
    (2, ⟨2, 2, .source, some 1, [], [], ⟨0, 0, false, false⟩⟩),
    (3, ⟨3, 3, .source, some 1, [], [], ⟨0, 0, false, false⟩⟩)]
  busOrder := [2, 3, 1]
  processors := Collected.collect [(1, ⟨1, 4, ⟨"native", "compressor"⟩, 0, ∅⟩), (2, ⟨2, 5, ⟨"native", "delay"⟩, 0, ∅⟩)]
  master := 1

theorem pairChain_moves : pairChain.validate = .ok () ∧ (∃ after, pairChain.moveBusBefore 2 (some 1) = .ok after ∧ BusMoved pairChain 2 (some 1) after) ∧
    ∃ after, pairChain.moveProcessorBefore 2 (some 1) = .ok after ∧
      ∃ busId bus slot moved, ProcessorMoved pairChain 2 (some 1) after busId bus slot moved := by
  obtain ⟨buses, processors⟩ := @moves_in_order pairChain rfl
  exact ⟨rfl, ⟨_, rfl, buses 2 (some 1) _ (by decide) rfl⟩, ⟨_, rfl, processors 2 (some 1) _ rfl⟩⟩

end Audec.Mixer

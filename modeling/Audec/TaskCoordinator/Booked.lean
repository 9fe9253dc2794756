import Audec.TaskCoordinator.Tables

/-! The bookkeeping invariant, and the changes that keep it. -/

open Machine Checked Entries
open Std (ExtTreeMap)

namespace Audec.Tasks

/-- The same flight, whether or not its executor has been told to cancel. -/
structure FlightRecord.Same (flight other : FlightRecord) : Prop where
  id : other.id = flight.id
  key : other.key = flight.key
  state : other.state = flight.state
  subscribers : other.subscribers = flight.subscribers

theorem FlightRecord.Same.refl (flight : FlightRecord) : flight.Same flight := ⟨rfl, rfl, rfl, rfl⟩

def KeepsFlights (flights flights' : FlightTable) : Prop :=
  ∀ id : FlightId, Option.Rel FlightRecord.Same flights[id]? flights'[id]?

namespace KeepsFlights

variable {flights' : FlightTable}

variable {flights : FlightTable} {id : FlightId}

section

variable (keeps : KeepsFlights flights flights')
include keeps

theorem held {flight' : FlightRecord}
    (found : flights'[id]? = some flight') : ∃ flight, flights[id]? = some flight ∧ FlightRecord.Same flight flight' := by
  have related := keeps id
  rw [found] at related
  revert related
  generalize flights[id]? = x
  rintro (⟨same⟩)
  exact ⟨_, rfl, ‹_›⟩

theorem kept {flight : FlightRecord}
    (found : flights[id]? = some flight) : ∃ flight', flights'[id]? = some flight' ∧ FlightRecord.Same flight flight' := by
  have related := keeps id
  rw [found] at related
  revert related
  generalize flights'[id]? = x
  rintro (⟨same⟩)
  exact ⟨_, rfl, ‹_›⟩

theorem count_eq {test : FlightRecord → Bool}
    (blind : ∀ flight flight', FlightRecord.Same flight flight' → test flight' = test flight) :
    count (fun _ flight => test flight) flights' = count (fun _ flight => test flight) flights := by
  apply Nat.le_antisymm
  · apply count_le_of
    intro id flight' found passes
    obtain ⟨flight, held, same⟩ := keeps.held found
    exact ⟨flight, held, by rwa [blind flight flight' same] at passes⟩
  · apply count_le_of
    intro id flight found passes
    obtain ⟨flight', held, same⟩ := keeps.kept found
    exact ⟨flight', held, by rwa [blind flight flight' same]⟩

end

end KeepsFlights

namespace TaskCoordinator

def runsOn (resource : ResourceClass) (flight : FlightRecord) : Bool :=
  flight.state = .running && flight.key.resource = resource

def runningCount (coordinator : TaskCoordinator) (resource : ResourceClass) : Nat :=
  count (fun _ flight => runsOn resource flight) coordinator.flights

def eligibleCount (coordinator : TaskCoordinator) : Nat := count (fun _ task => task.isEligible) coordinator.tasks

structure Booked (coordinator : TaskCoordinator) : Prop where
  taskIds : ∀ (id : TaskId) (task : TaskSnapshot), coordinator.tasks[id]? = some task → task.id = id
  flightIds : ∀ (id : FlightId) (flight : FlightRecord), coordinator.flights[id]? = some flight → flight.id = id
  staffed : ∀ (id : FlightId) (flight : FlightRecord), coordinator.flights[id]? = some flight →
    flight.subscribers.Nodup ∧ ∀ subscriber ∈ flight.subscribers, ∃ task : TaskSnapshot,
      coordinator.tasks[subscriber]? = some task ∧ task.flight = id ∧ task.spec.key = flight.key
  placed : ∀ (id : TaskId) (task : TaskSnapshot), coordinator.tasks[id]? = some task →
    ∃ flight : FlightRecord, coordinator.flights[task.flight]? = some flight ∧ id ∈ flight.subscribers
  indexed : ∀ (key : SingleFlightKey) (id : FlightId), coordinator.singleFlights key = some id →
    ∃ flight : FlightRecord, coordinator.flights[id]? = some flight ∧ flight.key = key
  running : ∀ resource, coordinator.runningByResource resource = coordinator.runningCount resource
  limited : ∀ resource, coordinator.runningByResource resource ≤ (coordinator.config.resourceLimit resource).getD 0
  queued : coordinator.queuedFlightCount ≤ coordinator.config.maximumQueuedFlights

/-- Every shared flight still has a subscriber that is not cancelling. -/
def Live (coordinator : TaskCoordinator) : Prop :=
  ∀ (key : SingleFlightKey) (id : FlightId), coordinator.singleFlights key = some id →
    ∃ flight : FlightRecord, coordinator.flights[id]? = some flight ∧ flight.hasEligible coordinator.tasks = true

/-- The bookkeeping between two operations. -/
structure Coherent (coordinator : TaskCoordinator) : Prop where
  booked : Booked coordinator
  live : Live coordinator
  active : coordinator.eligibleCount ≤ coordinator.config.maximumActiveTasks

namespace Booked

variable {coordinator : TaskCoordinator}

section

variable (booked : Booked coordinator)
include booked

theorem restate {tasks : TaskTable} (keeps : Keeps coordinator.tasks tasks) :
    Booked { coordinator with tasks } where
  taskIds id task' found := by
    obtain ⟨task, held, same, -⟩ := keeps.held found
    rw [same.id]
    exact booked.taskIds id task held
  flightIds := booked.flightIds
  staffed id flight found := by
    obtain ⟨once, tasks'⟩ := booked.staffed id flight found
    refine ⟨once, ?_⟩
    intro subscriber inside
    obtain ⟨task, held, placed, key⟩ := tasks' subscriber inside
    obtain ⟨task', kept, same, -⟩ := keeps.kept held
    exact ⟨task', kept, by rw [same.flight, placed], by rw [same.spec, key]⟩
  placed id task' found := by
    obtain ⟨task, held, same, -⟩ := keeps.held found
    rw [same.flight]
    exact booked.placed id task held
  indexed := booked.indexed
  running := booked.running
  limited := booked.limited
  queued := booked.queued

theorem reopen (sessions : SessionId → Option SessionGeneration) :
    Booked { coordinator with sessions } :=
  ⟨booked.taskIds, booked.flightIds, booked.staffed, booked.placed, booked.indexed, booked.running, booked.limited,
    booked.queued⟩

theorem flag {flights : FlightTable} {index : SingleFlightKey → Option FlightId}
    (keeps : KeepsFlights coordinator.flights flights)
    (fewer : ∀ key id, index key = some id → coordinator.singleFlights key = some id) :
    Booked { coordinator with flights, singleFlights := index } where
  taskIds := booked.taskIds
  flightIds id flight' found := by
    obtain ⟨flight, held, same⟩ := keeps.held found
    rw [same.id]
    exact booked.flightIds id flight held
  staffed id flight' found := by
    obtain ⟨flight, held, same⟩ := keeps.held found
    rw [same.subscribers, same.key]
    exact booked.staffed id flight held
  placed id task found := by
    obtain ⟨flight, held, inside⟩ := booked.placed id task found
    obtain ⟨flight', kept, same⟩ := keeps.kept held
    exact ⟨flight', kept, by rwa [same.subscribers]⟩
  indexed key id found := by
    obtain ⟨flight, held, named⟩ := booked.indexed key id (fewer key id found)
    obtain ⟨flight', kept, same⟩ := keeps.kept held
    exact ⟨flight', kept, by rw [same.key, named]⟩
  running resource := by
    rw [booked.running]
    symm
    apply keeps.count_eq
    intro flight flight' same
    rw [runsOn, same.state, same.key, runsOn]
  limited := booked.limited
  queued := by
    refine Nat.le_trans (Nat.le_of_eq ?_) booked.queued
    have blind : ∀ flight flight', FlightRecord.Same flight flight' →
        decide (flight'.state = .queued) = decide (flight.state = .queued) := by
      intro flight flight' same
      rw [same.state]
    exact keeps.count_eq blind

end

end Booked

theorem cancelUnobserved_flights (coordinator : TaskCoordinator) :
    KeepsFlights coordinator.flights coordinator.cancelUnobservedFlights.flights := by
  intro id
  unfold cancelUnobservedFlights
  rw [ExtTreeMap.getElem?_map]
  cases coordinator.flights[id]? with
  | none => exact Option.Rel.none
  | some flight =>
    apply Option.Rel.some
    dsimp only
    split
    · exact FlightRecord.Same.refl flight
    · exact ⟨rfl, rfl, rfl, rfl⟩

variable {coordinator : TaskCoordinator}

theorem cancelUnobserved_index {key : SingleFlightKey} {id : FlightId} :
    coordinator.cancelUnobservedFlights.singleFlights key = some id ↔ coordinator.singleFlights key = some id ∧
      ∀ (other : FlightId) (flight : FlightRecord), coordinator.flights[other]? = some flight → flight.key = key →
        flight.id = id → flight.hasEligible coordinator.tasks = true := by
  unfold cancelUnobservedFlights
  rw [unshare_foldl]
  apply and_congr_right
  intro _
  constructor
  · intro shared other flight held named same
    by_contra idle
    refine shared flight (List.mem_filter.mpr ⟨mem_allFlights.mpr ⟨other, held⟩, ?_⟩) named same
    rw [eq_false_of_ne_true idle]
    rfl
  · intro alive flight inside named same
    obtain ⟨among, idle⟩ := List.mem_filter.mp inside
    obtain ⟨other, held⟩ := mem_allFlights.mp among
    rw [alive other flight held named same] at idle
    cases idle

theorem Booked.cancelUnobserved (booked : Booked coordinator) :
    Booked coordinator.cancelUnobservedFlights ∧ Live coordinator.cancelUnobservedFlights := by
  have keeps := cancelUnobserved_flights coordinator
  constructor
  · exact booked.flag keeps fun key id found => (cancelUnobserved_index.mp found).1
  · intro key id found
    obtain ⟨indexed, alive⟩ := cancelUnobserved_index.mp found
    obtain ⟨flight, held, named⟩ := booked.indexed key id indexed
    obtain ⟨flight', kept, same⟩ := keeps.kept held
    refine ⟨flight', kept, ?_⟩
    have eligible := alive id flight held named (booked.flightIds id flight held)
    unfold FlightRecord.hasEligible at eligible ⊢
    rwa [same.subscribers]

variable {tasks : TaskTable}

theorem Keeps.eligibleCount_le {tasks' : TaskTable} (keeps : Keeps tasks tasks') :
    count (fun _ task => task.isEligible) tasks' ≤ count (fun _ task => task.isEligible) tasks := by
  apply count_le_of
  intro id task' found eligible
  obtain ⟨task, held, -, kept⟩ := keeps.held found
  exact ⟨task, held, kept eligible⟩

theorem Booked.cancel (booked : Booked coordinator) (ids : List TaskId)
    (reason : CancellationReason) : Booked (coordinator.markAll ids reason).cancelUnobservedFlights ∧
      Live (coordinator.markAll ids reason).cancelUnobservedFlights :=
  (booked.restate (markAll_keeps reason ids coordinator.tasks)).cancelUnobserved

section

variable (coherent : Coherent coordinator)
include coherent

theorem Coherent.cancel (ids : List TaskId)
    (reason : CancellationReason) : Coherent (coordinator.markAll ids reason).cancelUnobservedFlights := by
  obtain ⟨booked, live⟩ := coherent.booked.cancel ids reason
  exact ⟨booked, live, Nat.le_trans (Keeps.eligibleCount_le (markAll_keeps reason ids coordinator.tasks)) coherent.active⟩

theorem Coherent.reopen
    (sessions : SessionId → Option SessionGeneration) : Coherent { coordinator with sessions } :=
  ⟨coherent.booked.reopen sessions, coherent.live, coherent.active⟩

theorem Coherent.restate
    (exact : KeepsEligible coordinator.tasks tasks) : Coherent { coordinator with tasks } := by
  refine ⟨coherent.booked.restate exact.keeps, ?_, Nat.le_trans (Keeps.eligibleCount_le exact.keeps) coherent.active⟩
  intro key id found
  obtain ⟨flight, held, eligible⟩ := coherent.live key id found
  exact ⟨flight, held, by rwa [exact.hasEligible]⟩

end

end TaskCoordinator

end Audec.Tasks

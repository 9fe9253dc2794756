import Audec.TaskCoordinator.Booked

/-! Flights that leave the tables together with their subscribers. -/

open Machine Checked Entries List Function
open Std (ExtTreeMap)

namespace Audec.Tasks

namespace TaskCoordinator

variable {flight : FlightRecord} {coordinator : TaskCoordinator} {id : FlightId}

theorem hasEligible_congr {tasks tasks' : TaskTable}
    (same : ∀ subscriber ∈ flight.subscribers, tasks'[subscriber]? = tasks[subscriber]?) :
    flight.hasEligible tasks' = flight.hasEligible tasks := by
  unfold FlightRecord.hasEligible
  rw [Bool.eq_iff_iff, any_eq_true, any_eq_true]
  apply exists_congr
  intro subscriber
  apply and_congr_right
  intro inside
  rw [same subscriber inside]

structure Retired (coordinator : TaskCoordinator) (ids : List TaskId) (after : TaskCoordinator) : Prop where
  tasks : ∀ id : TaskId, after.tasks[id]? = if id ∈ ids then none else coordinator.tasks[id]?
  rest : after = { coordinator with tasks := after.tasks, terminal := after.terminal }

theorem retireTask_retired (coordinator : TaskCoordinator) (task : TaskId) (state : TaskState) :
    Retired coordinator [task] (coordinator.retireTask task state) := by
  unfold retireTask
  cases held : coordinator.tasks[task]? with
  | none =>
    refine ⟨?_, rfl⟩
    intro id
    by_cases here : id = task
    · rw [here, if_pos (mem_singleton.mpr rfl)]
      exact held
    · rw [if_neg fun inside => here (mem_singleton.mp inside)]
  | some record =>
    refine ⟨?_, rfl⟩
    intro id
    simp only [lookup_erase, mem_singleton, eq_comm]

theorem Retired.trans {a b d : TaskCoordinator} {ids more : List TaskId} (first : Retired a ids b)
    (second : Retired b more d) : Retired a (ids ++ more) d := by
  constructor
  · intro id
    rw [second.tasks, first.tasks]
    by_cases early : id ∈ ids <;> by_cases late : id ∈ more <;> simp [early, late]
  · rw [second.rest, first.rest]

theorem retired_foldl {change : TaskCoordinator → TaskId → TaskCoordinator}
    (step : ∀ coordinator id, Retired coordinator [id] (change coordinator id)) (ids : List TaskId)
    (coordinator : TaskCoordinator) : Retired coordinator ids (ids.foldl change coordinator) := by
  induction ids generalizing coordinator with
  | nil => exact ⟨fun id => by simp, rfl⟩
  | cons id more ih => exact (step coordinator id).trans (ih _)

structure Removed (coordinator : TaskCoordinator) (id : FlightId) (flight : FlightRecord) (after : TaskCoordinator) : Prop where
  tasks : ∀ task : TaskId, after.tasks[task]? = if task ∈ flight.subscribers then none else coordinator.tasks[task]?
  flights : after.flights = coordinator.flights.erase id
  singleFlights : after.singleFlights = if coordinator.singleFlights flight.key = some id then
      Function.update coordinator.singleFlights flight.key none
    else coordinator.singleFlights
  runningByResource : after.runningByResource = if flight.state = .running then
      Function.update coordinator.runningByResource flight.key.resource
        (coordinator.runningByResource flight.key.resource - 1)
    else coordinator.runningByResource
  config : after.config = coordinator.config
  sessions : after.sessions = coordinator.sessions
  nextTask : after.nextTask = coordinator.nextTask
  nextFlight : after.nextFlight = coordinator.nextFlight

theorem Retired.removed {middle : TaskCoordinator} {ids : List TaskId} (retired : Retired coordinator ids middle)
    (held : coordinator.flights[id]? = some flight)
    (exactly : ∀ task, task ∈ ids ↔ task ∈ flight.subscribers) :
    Removed coordinator id flight (middle.removeFlight id) := by
  have found : middle.flights[id]? = some flight := by
    rw [retired.rest]
    exact held
  unfold removeFlight
  rw [found]
  refine ⟨?_, ?_, ?_, ?_, ?_, ?_, ?_, ?_⟩
  · intro task
    dsimp only
    rw [retired.tasks]
    simp only [exactly]
  all_goals
    dsimp only
    rw [retired.rest]

namespace Removed

variable {after : TaskCoordinator}

theorem task_held (removed : Removed coordinator id flight after) {task : TaskId} {snapshot : TaskSnapshot}
    (found : after.tasks[task]? = some snapshot) : task ∉ flight.subscribers ∧ coordinator.tasks[task]? = some snapshot := by
  rw [removed.tasks] at found
  split at found
  · cases found
  · exact ⟨‹_›, found⟩

variable {other : FlightId} {record : FlightRecord}

section

variable (removed : Removed coordinator id flight after)
include removed

theorem flight_held
    (found : after.flights[other]? = some record) : other ≠ id ∧ coordinator.flights[other]? = some record := by
  rw [removed.flights, lookup_erase] at found
  split at found
  · cases found
  · exact ⟨Ne.symm ‹_›, found⟩

theorem flight_kept
    (different : other ≠ id) (held : coordinator.flights[other]? = some record) : after.flights[other]? = some record := by
  rw [removed.flights, lookup_erase, if_neg (Ne.symm different), held]

theorem index_held {key : SingleFlightKey}
    (found : after.singleFlights key = some other) :
    coordinator.singleFlights key = some other ∧ ¬ (key = flight.key ∧ other = id) := by
  rw [removed.singleFlights] at found
  split at found
  · by_cases here : key = flight.key
    · subst here
      rw [update_self] at found
      cases found
    · rw [update_of_ne here] at found
      exact ⟨found, fun both => here both.1⟩
  · rename_i notIndexed
    refine ⟨found, ?_⟩
    rintro ⟨rfl, rfl⟩
    exact notIndexed found

section

variable (booked : Booked coordinator) (held : coordinator.flights[id]? = some flight) (different : other ≠ id)
  (found : coordinator.flights[other]? = some record)
include booked held different found

theorem other_subscriber {subscriber : TaskId} (inside : subscriber ∈ record.subscribers) :
    after.tasks[subscriber]? = coordinator.tasks[subscriber]? := by
  rw [removed.tasks, if_neg]
  intro shared
  obtain ⟨task, task', placed, -⟩ := (booked.staffed id flight held).2 subscriber shared
  obtain ⟨same, same', placed', -⟩ := (booked.staffed other record found).2 subscriber inside
  rw [task'] at same'
  cases same'
  exact different (placed'.symm.trans placed)

theorem hasEligible :
    record.hasEligible after.tasks = record.hasEligible coordinator.tasks :=
  hasEligible_congr fun _ inside => removed.other_subscriber booked held different found inside

end

theorem live (booked : Booked coordinator) (alive : Live coordinator)
    (held : coordinator.flights[id]? = some flight) : Live after := by
  intro key other found
  obtain ⟨indexed, elsewhere⟩ := removed.index_held found
  obtain ⟨record, record', eligible⟩ := alive key other indexed
  obtain ⟨same, same', named⟩ := booked.indexed key other indexed
  rw [record'] at same'
  cases same'
  have different : other ≠ id := by
    rintro rfl
    rw [held] at record'
    cases record'
    exact elsewhere ⟨named.symm, rfl⟩
  exact ⟨record, removed.flight_kept different record', by rwa [removed.hasEligible booked held different record']⟩

theorem count_eq (held : coordinator.flights[id]? = some flight)
    (test : FlightRecord → Bool) : count (fun _ record => test record) coordinator.flights =
      count (fun _ record => test record) after.flights + if test flight = true then 1 else 0 := by
  rw [removed.flights]
  exact count_held (fun _ record => test record) held

end

theorem booked (removed : Removed coordinator id flight after) (booked : Booked coordinator)
    (held : coordinator.flights[id]? = some flight) : Booked after where
  taskIds task snapshot found := booked.taskIds task snapshot (removed.task_held found).2
  flightIds other record found := booked.flightIds other record (removed.flight_held found).2
  staffed other record found := by
    obtain ⟨different, record'⟩ := removed.flight_held found
    obtain ⟨once, tasks'⟩ := booked.staffed other record record'
    refine ⟨once, ?_⟩
    intro subscriber inside
    rw [removed.other_subscriber booked held different record' inside]
    exact tasks' subscriber inside
  placed task snapshot found := by
    obtain ⟨outside, snapshot'⟩ := removed.task_held found
    obtain ⟨record, record', inside⟩ := booked.placed task snapshot snapshot'
    refine ⟨record, removed.flight_kept ?_ record', inside⟩
    intro same
    rw [same, held] at record'
    cases record'
    exact outside inside
  indexed key other found := by
    obtain ⟨indexed, elsewhere⟩ := removed.index_held found
    obtain ⟨record, record', named⟩ := booked.indexed key other indexed
    refine ⟨record, removed.flight_kept ?_ record', named⟩
    rintro rfl
    rw [held] at record'
    cases record'
    exact elsewhere ⟨named.symm, rfl⟩
  running resource := by
    have counted := removed.count_eq held (runsOn resource)
    have before := booked.running resource
    unfold runningCount at before ⊢
    rw [removed.runningByResource]
    by_cases runs : flight.state = .running
    · rw [if_pos runs]
      by_cases here : resource = flight.key.resource
      · subst here
        rw [update_self]
        have passes : runsOn flight.key.resource flight = true := by simp [runsOn, runs]
        rw [if_pos passes] at counted
        omega
      · rw [update_of_ne here]
        have fails : ¬ runsOn resource flight = true := by simp [runsOn, Ne.symm here]
        rw [if_neg fails] at counted
        omega
    · rw [if_neg runs]
      have fails : ¬ runsOn resource flight = true := by simp [runsOn, runs]
      rw [if_neg fails] at counted
      omega
  limited resource := by
    have before := booked.limited resource
    rw [removed.config, removed.runningByResource]
    split
    · by_cases here : resource = flight.key.resource
      · subst here
        rw [update_self]
        omega
      · rw [update_of_ne here]
        exact before
    · exact before
  queued := by
    have counted := removed.count_eq held fun record => record.state = .queued
    have before := booked.queued
    unfold queuedFlightCount at before ⊢
    rw [removed.config]
    omega

theorem coherent (removed : Removed coordinator id flight after) (coherent : Coherent coordinator)
    (held : coordinator.flights[id]? = some flight) : Coherent after := by
  refine ⟨removed.booked coherent.booked held, removed.live coherent.booked coherent.live held, ?_⟩
  rw [removed.config]
  refine Nat.le_trans (count_le_of ?_) coherent.active
  intro task snapshot found eligible
  exact ⟨snapshot, (removed.task_held found).2, eligible⟩

end Removed

theorem retireAbandonedFlight_removed
    (held : coordinator.flights[id]? = some flight) :
    ∃ after, coordinator.retireAbandonedFlight id = some after ∧ Removed coordinator id flight after := by
  unfold retireAbandonedFlight
  rw [held]
  refine ⟨_, rfl, ?_⟩
  exact (retired_foldl (fun coordinator id => retireTask_retired coordinator id _) flight.subscribers coordinator).removed
    held fun _ => Iff.rfl

/-- A flight that has not started and that nobody waits for any more. -/
def Abandoned (coordinator : TaskCoordinator) (flight : FlightRecord) : Prop :=
  flight.state = .queued ∧ flight.hasEligible coordinator.tasks = false

structure Swept (coordinator after : TaskCoordinator) : Prop where
  config : after.config = coordinator.config
  sessions : after.sessions = coordinator.sessions
  nextTask : after.nextTask = coordinator.nextTask
  nextFlight : after.nextFlight = coordinator.nextFlight
  tasks : ∀ (id : TaskId) (task : TaskSnapshot), after.tasks[id]? = some task → coordinator.tasks[id]? = some task
  flights : ∀ (id : FlightId) (flight : FlightRecord), after.flights[id]? = some flight →
    coordinator.flights[id]? = some flight
  /-- Flights with work to do stay, with their subscribers. -/
  kept : ∀ (id : FlightId) (flight : FlightRecord), coordinator.flights[id]? = some flight →
    ¬ Abandoned coordinator flight → after.flights[id]? = some flight ∧
      ∀ subscriber ∈ flight.subscribers, after.tasks[subscriber]? = coordinator.tasks[subscriber]?
  index : after.singleFlights = coordinator.singleFlights

namespace Swept

theorem refl (coordinator : TaskCoordinator) : Swept coordinator coordinator :=
  ⟨rfl, rfl, rfl, rfl, fun _ _ held => held, fun _ _ held => held, fun _ _ held _ => ⟨held, fun _ _ => rfl⟩, rfl⟩

theorem trans {a b d : TaskCoordinator} (first : Swept a b) (second : Swept b d) : Swept a d where
  config := second.config.trans first.config
  sessions := second.sessions.trans first.sessions
  nextTask := second.nextTask.trans first.nextTask
  nextFlight := second.nextFlight.trans first.nextFlight
  tasks id task held := first.tasks id task (second.tasks id task held)
  flights id flight held := first.flights id flight (second.flights id flight held)
  kept id flight held needed := by
    obtain ⟨held', tasks⟩ := first.kept id flight held needed
    have same : flight.hasEligible b.tasks = flight.hasEligible a.tasks := hasEligible_congr tasks
    have needed' : ¬ Abandoned b flight := by
      rw [Abandoned, same]
      exact needed
    obtain ⟨held'', tasks'⟩ := second.kept id flight held' needed'
    exact ⟨held'', fun subscriber inside => (tasks' subscriber inside).trans (tasks subscriber inside)⟩
  index := second.index.trans first.index

end Swept

theorem Removed.swept {coordinator after : TaskCoordinator} {id : FlightId} {flight : FlightRecord}
    (removed : Removed coordinator id flight after) (booked : Booked coordinator) (live : Live coordinator)
    (held : coordinator.flights[id]? = some flight) (abandoned : Abandoned coordinator flight) : Swept coordinator after where
  config := removed.config
  sessions := removed.sessions
  nextTask := removed.nextTask
  nextFlight := removed.nextFlight
  tasks _ _ found := (removed.task_held found).2
  flights _ _ found := (removed.flight_held found).2
  kept other record found needed := by
    have different : other ≠ id := by
      rintro rfl
      rw [held] at found
      cases found
      exact needed abandoned
    exact ⟨removed.flight_kept different found,
      fun subscriber inside => removed.other_subscriber booked held different found inside⟩
  index := by
    rw [removed.singleFlights, if_neg]
    intro indexed
    obtain ⟨same, held', eligible⟩ := live _ id indexed
    rw [held] at held'
    cases held'
    rw [abandoned.2] at eligible
    cases eligible

theorem sweep (ids : List FlightId) (coherent : Coherent coordinator) (once : ids.Nodup)
    (abandoned : ∀ id ∈ ids, ∃ flight : FlightRecord, coordinator.flights[id]? = some flight ∧ Abandoned coordinator flight) :
    ∃ after, ids.foldlM retireAbandonedFlight coordinator = some after ∧ Coherent after ∧ Swept coordinator after ∧
      ∀ id ∈ ids, after.flights[id]? = none := by
  induction ids generalizing coordinator with
  | nil => exact ⟨coordinator, rfl, coherent, Swept.refl coordinator, nofun⟩
  | cons id more ih =>
    obtain ⟨flight, held, idle⟩ := abandoned id mem_cons_self
    obtain ⟨middle, retired, removed⟩ := retireAbandonedFlight_removed held
    obtain ⟨outside, once'⟩ := nodup_cons.mp once
    have later : ∀ other ∈ more, ∃ record : FlightRecord, middle.flights[other]? = some record ∧ Abandoned middle record := by
      intro other inside
      obtain ⟨record, record', idle'⟩ := abandoned other (mem_cons_of_mem _ inside)
      have different : other ≠ id := by
        rintro rfl
        exact outside inside
      refine ⟨record, removed.flight_kept different record', idle'.1, ?_⟩
      rw [removed.hasEligible coherent.booked held different record']
      exact idle'.2
    obtain ⟨after, finished, coherent', swept, left⟩ := ih (removed.coherent coherent held) once' later
    refine ⟨after, ?_, coherent', (removed.swept coherent.booked coherent.live held idle).trans swept, forall_mem_cons.mpr ⟨?_, left⟩⟩
    · rw [foldlM_cons, retired]
      exact finished
    · cases found : after.flights[id]? with
      | none => rfl
      | some record => exact absurd rfl (removed.flight_held (swept.flights id record found)).1

theorem mem_abandonedFlights (booked : Booked coordinator) :
    id ∈ coordinator.abandonedFlights ↔ ∃ flight : FlightRecord, coordinator.flights[id]? = some flight ∧
      Abandoned coordinator flight := by
  unfold abandonedFlights Abandoned
  simp only [mem_map, mem_filter, mem_allFlights, Bool.and_eq_true, decide_eq_true_eq, Bool.not_eq_true']
  constructor
  · rintro ⟨flight, ⟨⟨other, held⟩, idle⟩, rfl⟩
    rw [booked.flightIds other flight held]
    exact ⟨flight, held, idle⟩
  · rintro ⟨flight, held, idle⟩
    exact ⟨flight, ⟨⟨id, held⟩, idle⟩, booked.flightIds id flight held⟩

theorem nodup_abandonedFlights (booked : Booked coordinator) :
    coordinator.abandonedFlights.Nodup := by
  have named : coordinator.allFlights.map FlightRecord.id = coordinator.flights.keys := by
    rw [allFlights, map_map, ← ExtTreeMap.map_fst_toList_eq_keys]
    apply map_congr_left
    intro entry inside
    exact booked.flightIds entry.1 entry.2 (mem_toList.mp inside)
  have once : (coordinator.allFlights.map FlightRecord.id).Nodup := by
    rw [named]
    exact ExtTreeMap.nodup_keys
  exact once.sublist (filter_sublist.map _)

/-- Somebody waits for the flight who has time left. -/
def Awaited (coordinator : TaskCoordinator) (now : TaskInstant) (flight : FlightRecord) : Prop :=
  ∃ subscriber ∈ flight.subscribers, ∃ task : TaskSnapshot, coordinator.tasks[subscriber]? = some task ∧
    task.isEligible = true ∧ elapsed task.spec.deadline now = false

/-- What is left when a moment has come: tasks whose deadline it passes are cancelling, and abandoned flights have left. -/
structure Expired (now : TaskInstant) (coordinator after : TaskCoordinator) : Prop where
  config : after.config = coordinator.config
  sessions : after.sessions = coordinator.sessions
  nextTask : after.nextTask = coordinator.nextTask
  nextFlight : after.nextFlight = coordinator.nextFlight
  tasks : ∀ (id : TaskId) (task' : TaskSnapshot), after.tasks[id]? = some task' → ∃ task : TaskSnapshot,
    coordinator.tasks[id]? = some task ∧
      task' = if elapsed task.spec.deadline now = true then task.marked .deadlineExceeded else task
  flights : ∀ (id : FlightId) (flight' : FlightRecord), after.flights[id]? = some flight' →
    ∃ flight : FlightRecord, coordinator.flights[id]? = some flight ∧ FlightRecord.Same flight flight'
  /-- A flight stays that runs, or that has a subscriber with time left. -/
  kept : ∀ (id : FlightId) (flight : FlightRecord), coordinator.flights[id]? = some flight →
    (flight.state = .running ∨ Awaited coordinator now flight) →
    (∃ flight' : FlightRecord, after.flights[id]? = some flight' ∧ FlightRecord.Same flight flight') ∧
      ∀ subscriber ∈ flight.subscribers, after.tasks[subscriber]?.isSome = coordinator.tasks[subscriber]?.isSome
  /-- No abandoned flight stays. -/
  settled : ∀ (id : FlightId) (flight' : FlightRecord), after.flights[id]? = some flight' → ¬ Abandoned after flight'
  /-- A task leaves only as a subscriber of a flight that had not started. -/
  gone : ∀ (id : TaskId) (task : TaskSnapshot), coordinator.tasks[id]? = some task → after.tasks[id]? = none →
    (task.isEligible = false ∨ elapsed task.spec.deadline now = true) ∧
      ∃ flight : FlightRecord, coordinator.flights[task.flight]? = some flight ∧ flight.state = .queued
  /-- A flight is shared as long as somebody waits for it. -/
  index : ∀ key (id : FlightId), after.singleFlights key = some id ↔ coordinator.singleFlights key = some id ∧
    ∃ flight : FlightRecord, coordinator.flights[id]? = some flight ∧ Awaited coordinator now flight

theorem expire_spec (coherent : Coherent coordinator) (now : TaskInstant) :
    ∃ after, coordinator.expire now = some after ∧ Coherent after ∧ Expired now coordinator after := by
  unfold expire
  dsimp only
  generalize selected : coordinator.selectTasks (fun _ task => task.isEligible && elapsed task.spec.deadline now) = expired
  have marked : ∀ id : TaskId, (coordinator.markAll expired .deadlineExceeded).tasks[id]? = coordinator.tasks[id]?.map
      fun task => if elapsed task.spec.deadline now = true then task.marked .deadlineExceeded else task := by
    intro id
    change (expired.foldl (mark .deadlineExceeded) coordinator.tasks)[id]? = _
    rw [markAll_lookup]
    cases held : coordinator.tasks[id]? with
    | none => rfl
    | some task =>
      simp only [Option.map_some, Option.some.injEq, ← selected, mem_selectTasks, held, Option.some.injEq, exists_eq_left',
        Bool.and_eq_true]
      by_cases eligible : task.isEligible = true
      · simp [eligible]
      · rw [TaskSnapshot.marked_of_ineligible _ (eq_false_of_ne_true eligible)]
        simp
  have cancelled := coherent.cancel expired .deadlineExceeded
  have keeps := cancelUnobserved_flights (coordinator.markAll expired .deadlineExceeded)
  generalize flagged : (coordinator.markAll expired .deadlineExceeded).cancelUnobservedFlights = middle at cancelled keeps ⊢
  have tasks : middle.tasks = (coordinator.markAll expired .deadlineExceeded).tasks := by rw [← flagged]; rfl
  obtain ⟨after, finished, coherent', swept, left⟩ := sweep middle.abandonedFlights cancelled
    (nodup_abandonedFlights cancelled.booked) fun id inside => (mem_abandonedFlights cancelled.booked).mp inside
  have entry : ∀ id : TaskId, middle.tasks[id]? = coordinator.tasks[id]?.map
      fun task => if elapsed task.spec.deadline now = true then task.marked .deadlineExceeded else task := by
    intro id
    rw [tasks, marked]
  have idle : ∀ (id : FlightId) (flight' : FlightRecord), middle.flights[id]? = some flight' → Abandoned middle flight' →
      ∀ subscriber ∈ flight'.subscribers, ∀ task : TaskSnapshot, coordinator.tasks[subscriber]? = some task →
        task.isEligible = false ∨ elapsed task.spec.deadline now = true := by
    intro id flight' held abandoned subscriber inside task found
    by_contra active
    push Not at active
    have ineligible := any_eq_false.mp abandoned.2 subscriber inside
    rw [entry, found, Option.map_some, if_neg active.2] at ineligible
    exact ineligible (eq_true_of_ne_false active.1)
  have awaited : ∀ flight : FlightRecord,
      flight.hasEligible (coordinator.markAll expired .deadlineExceeded).tasks = true ↔ Awaited coordinator now flight := by
    intro flight
    unfold FlightRecord.hasEligible Awaited
    rw [any_eq_true]
    apply exists_congr
    intro subscriber
    apply and_congr_right
    intro _
    rw [marked]
    cases coordinator.tasks[subscriber]? with
    | none => simp
    | some task =>
      by_cases late : elapsed task.spec.deadline now = true
      · simp [late, TaskSnapshot.marked_ineligible]
      · simp [late]
  refine ⟨after, finished, coherent', ?_, ?_, ?_, ?_, ?_, ?_, ?_, ?_, ?_, ?_⟩
  · rw [swept.config, ← flagged]
    rfl
  · rw [swept.sessions, ← flagged]
    rfl
  · rw [swept.nextTask, ← flagged]
    rfl
  · rw [swept.nextFlight, ← flagged]
    rfl
  · intro id task' found
    have found' := swept.tasks id task' found
    rw [entry, Option.map_eq_some_iff] at found'
    obtain ⟨task, held, same⟩ := found'
    exact ⟨task, held, same.symm⟩
  · intro id flight' found
    exact keeps.held (swept.flights id flight' found)
  · intro id flight held needed
    obtain ⟨flight', held', same⟩ := keeps.kept held
    have busy : ¬ Abandoned middle flight' := by
      intro abandoned
      rcases needed with runs | ⟨subscriber, inside, task, found, eligible, inTime⟩
      · have queued := abandoned.1
        rw [same.state] at queued
        change flight.state = .running at runs
        rw [runs] at queued
        cases queued
      · rcases idle id flight' held' abandoned subscriber (by rwa [same.subscribers]) task found with ineligible | late
        · rw [ineligible] at eligible
          cases eligible
        · rw [inTime] at late
          cases late
    obtain ⟨held'', subscribers⟩ := swept.kept id flight' held' busy
    refine ⟨⟨flight', held'', same⟩, ?_⟩
    intro subscriber inside
    rw [subscribers subscriber (by rwa [same.subscribers]), entry, Option.isSome_map]
  · intro id flight' found abandoned
    have found' := swept.flights id flight' found
    by_cases early : Abandoned middle flight'
    · rw [left id ((mem_abandonedFlights cancelled.booked).mpr ⟨flight', found', early⟩)] at found
      cases found
    · have subscribers := (swept.kept id flight' found' early).2
      refine early ⟨abandoned.1, ?_⟩
      rw [← abandoned.2]
      exact hasEligible_congr fun subscriber inside => (subscribers subscriber inside).symm
  · intro id task held absent
    obtain ⟨flight, flight₀, inside⟩ := coherent.booked.placed id task held
    obtain ⟨flight', held', same⟩ := keeps.kept flight₀
    have inside' : id ∈ flight'.subscribers := by rwa [same.subscribers]
    by_cases abandoned : Abandoned middle flight'
    · exact ⟨idle _ flight' held' abandoned id inside' task held, flight, flight₀, same.state ▸ abandoned.1⟩
    · have stays := (swept.kept _ flight' held' abandoned).2 id inside'
      rw [absent, entry, held] at stays
      cases stays
  · intro key id
    rw [swept.index, ← flagged, cancelUnobserved_index]
    apply and_congr_right
    intro indexed
    obtain ⟨flight, held, named⟩ := coherent.booked.indexed key id indexed
    constructor
    · intro eligible
      exact ⟨flight, held, (awaited flight).mp (eligible id flight held named (coherent.booked.flightIds id flight held))⟩
    · rintro ⟨flight', held', waits⟩ other record held'' - same
      have here := coherent.booked.flightIds other record held''
      change coordinator.flights[other]? = some record at held''
      rw [← here, same, held'] at held''
      cases held''
      exact (awaited flight').mpr waits

theorem expire_calm {now : TaskInstant}
    (early : ∀ (id : TaskId) (task : TaskSnapshot), coordinator.tasks[id]? = some task → elapsed task.spec.deadline now = false)
    (staffed : ∀ (id : FlightId) (flight : FlightRecord), coordinator.flights[id]? = some flight →
      flight.hasEligible coordinator.tasks = true) : coordinator.expire now = some coordinator := by
  have none' : coordinator.selectTasks (fun _ task => task.isEligible && elapsed task.spec.deadline now) = [] := by
    apply eq_nil_iff_forall_not_mem.mpr
    intro id inside
    obtain ⟨task, held, passes⟩ := mem_selectTasks.mp inside
    rw [early id task held, Bool.and_false] at passes
    cases passes
  have flights : coordinator.cancelUnobservedFlights.flights = coordinator.flights := by
    apply ExtTreeMap.ext_getElem?
    intro id
    unfold cancelUnobservedFlights
    dsimp only
    rw [ExtTreeMap.getElem?_map]
    cases held : coordinator.flights[id]? with
    | none => rfl
    | some flight => rw [Option.map_some, if_pos (staffed id flight held)]
  have observed : coordinator.allFlights.filter (fun flight => !flight.hasEligible coordinator.tasks) = [] := by
    apply filter_eq_nil_iff.mpr
    intro flight inside
    obtain ⟨id, held⟩ := mem_allFlights.mp inside
    rw [staffed id flight held]
    exact Bool.false_ne_true
  have same : coordinator.cancelUnobservedFlights = coordinator := by
    unfold cancelUnobservedFlights at flights ⊢
    dsimp only at flights
    rw [flights, observed]
    rfl
  have busy : coordinator.abandonedFlights = [] := by
    unfold abandonedFlights
    rw [map_eq_nil_iff, filter_eq_nil_iff]
    intro flight inside
    obtain ⟨id, held⟩ := mem_allFlights.mp inside
    rw [staffed id flight held, Bool.not_true, Bool.and_false]
    exact Bool.false_ne_true
  unfold expire
  rw [none']
  change coordinator.cancelUnobservedFlights.retireAbandonedQueuedFlights = _
  rw [same, retireAbandonedQueuedFlights, busy]
  rfl

end TaskCoordinator

end Audec.Tasks

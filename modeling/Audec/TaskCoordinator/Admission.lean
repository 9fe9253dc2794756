import Audec.TaskCoordinator.Retirement

open Machine Checked Entries
open Std (ExtTreeMap)

namespace Audec.Tasks

namespace TaskCoordinator

variable {coordinator : TaskCoordinator}

/-- The identifiers that the next admission takes are not in use. -/
structure Fresh (coordinator : TaskCoordinator) : Prop where
  task : coordinator.tasks[coordinator.nextTask]? = none
  flight : coordinator.flights[coordinator.nextFlight]? = none

variable {flight : FlightRecord} {spec : TaskSpec}

theorem Booked.subscriber_ne (booked : Booked coordinator) (fresh : Fresh coordinator) {id : FlightId}
    (held : coordinator.flights[id]? = some flight) {subscriber : TaskId} (inside : subscriber ∈ flight.subscribers) :
    coordinator.nextTask ≠ subscriber := by
  rintro rfl
  obtain ⟨task, found, -⟩ := (booked.staffed id flight held).2 _ inside
  rw [fresh.task] at found
  cases found

def joined (coordinator : TaskCoordinator) (spec : TaskSpec) (flight : FlightRecord) (flightId : FlightId) : TaskCoordinator :=
  { coordinator with
    nextTask := following coordinator.nextTask
    tasks := coordinator.tasks.insert coordinator.nextTask (newTask coordinator.nextTask flightId spec flight.state.taskState)
    flights := coordinator.flights.insert flightId
      { flight with subscribers := flight.subscribers ++ [coordinator.nextTask] } }

theorem subscribe_eq (coordinator : TaskCoordinator) (spec : TaskSpec) (flight : FlightRecord) (flightId : FlightId) :
    coordinator.subscribe spec flight flightId = (coordinator.joined spec flight flightId).supersedeOlder spec coordinator.nextTask :=
  rfl

theorem Booked.joined (booked : Booked coordinator) {flightId : FlightId}
    (held : coordinator.flights[flightId]? = some flight) (named : flight.key = spec.key)
    (fresh : Fresh coordinator) : Booked (coordinator.joined spec flight flightId) := by
  obtain ⟨once, staffed⟩ := booked.staffed flightId flight held
  unfold TaskCoordinator.joined
  refine ⟨?_, ?_, ?_, ?_, ?_, ?_, booked.limited, ?_⟩
  · intro id task found
    dsimp only at found ⊢
    rcases held_insert.mp found with ⟨same, rfl⟩ | ⟨-, found⟩
    · exact same
    · exact booked.taskIds id task found
  · intro id record found
    dsimp only at found ⊢
    rcases held_insert.mp found with ⟨rfl, rfl⟩ | ⟨-, found⟩
    · exact booked.flightIds flightId flight held
    · exact booked.flightIds id record found
  · intro id record found
    dsimp only at found ⊢
    rcases held_insert.mp found with ⟨rfl, rfl⟩ | ⟨-, found⟩
    · constructor
      · refine List.Nodup.append once (List.nodup_singleton _) ?_
        intro subscriber inside new
        exact booked.subscriber_ne fresh held inside (List.mem_singleton.mp new).symm
      · intro subscriber inside
        rcases List.mem_append.mp inside with old | new
        · rw [lookup_insert, if_neg (booked.subscriber_ne fresh held old)]
          exact staffed subscriber old
        · rw [List.mem_singleton.mp new, lookup_insert, if_pos rfl]
          exact ⟨_, rfl, rfl, named.symm⟩
    · obtain ⟨once', staffed'⟩ := booked.staffed id record found
      refine ⟨once', ?_⟩
      intro subscriber inside
      rw [lookup_insert, if_neg (booked.subscriber_ne fresh found inside)]
      exact staffed' subscriber inside
  · intro id task found
    dsimp only at found ⊢
    rcases held_insert.mp found with ⟨rfl, rfl⟩ | ⟨-, found⟩
    · refine ⟨{ flight with subscribers := flight.subscribers ++ [coordinator.nextTask] }, ?_, ?_⟩
      · rw [lookup_insert]
        exact if_pos rfl
      · exact List.mem_append_right _ List.mem_cons_self
    · obtain ⟨record, record', inside⟩ := booked.placed id task found
      rw [lookup_insert]
      by_cases here : flightId = task.flight
      · rw [if_pos here]
        rw [← here, held] at record'
        cases record'
        exact ⟨_, rfl, List.mem_append_left _ inside⟩
      · rw [if_neg here]
        exact ⟨record, record', inside⟩
  · intro key id found
    obtain ⟨record, record', named'⟩ := booked.indexed key id found
    dsimp only
    rw [lookup_insert]
    by_cases here : flightId = id
    · rw [if_pos here]
      rw [← here, held] at record'
      cases record'
      exact ⟨_, rfl, named'⟩
    · rw [if_neg here]
      exact ⟨record, record', named'⟩
  · intro resource
    have counted := booked.running resource
    unfold runningCount at counted ⊢
    dsimp only
    have same : runsOn resource { flight with subscribers := flight.subscribers ++ [coordinator.nextTask] } =
        runsOn resource flight := rfl
    rw [counted]
    exact (count_replace (fun _ record => runsOn resource record) held same).symm
  · have bounded := booked.queued
    unfold queuedFlightCount at bounded ⊢
    dsimp only
    have same : decide (({ flight with subscribers := flight.subscribers ++ [coordinator.nextTask] } : FlightRecord).state =
        .queued) = decide (flight.state = .queued) := rfl
    rwa [count_replace (fun _ record => record.state = .queued) held same]

def launched (coordinator : TaskCoordinator) (spec : TaskSpec) (now : TaskInstant) : TaskCoordinator :=
  { coordinator with
    nextTask := following coordinator.nextTask
    nextFlight := following coordinator.nextFlight
    tasks := coordinator.tasks.insert coordinator.nextTask (newTask coordinator.nextTask coordinator.nextFlight spec .queued)
    flights := coordinator.flights.insert coordinator.nextFlight
      { id := coordinator.nextFlight, key := spec.key, state := .queued, submittedAt := now,
        subscribers := [coordinator.nextTask], cancelled := false }
    singleFlights := Function.update coordinator.singleFlights spec.key (some coordinator.nextFlight) }

theorem launch_eq (coordinator : TaskCoordinator) (spec : TaskSpec) (now : TaskInstant) :
    coordinator.launch spec now = (coordinator.launched spec now).supersedeOlder spec coordinator.nextTask :=
  rfl

theorem Booked.launched (booked : Booked coordinator) (now : TaskInstant)
    (room : coordinator.queuedFlightCount < coordinator.config.maximumQueuedFlights)
    (fresh : Fresh coordinator) : Booked (coordinator.launched spec now) := by
  have absent := fresh.flight
  have elsewhere : ∀ (id : FlightId) (record : FlightRecord), coordinator.flights[id]? = some record →
      coordinator.nextFlight ≠ id := by
    rintro id record found rfl
    rw [absent] at found
    cases found
  unfold TaskCoordinator.launched
  refine ⟨?_, ?_, ?_, ?_, ?_, ?_, booked.limited, ?_⟩
  · intro id task found
    dsimp only at found ⊢
    rcases held_insert.mp found with ⟨same, rfl⟩ | ⟨-, found⟩
    · exact same
    · exact booked.taskIds id task found
  · intro id record found
    dsimp only at found ⊢
    rcases held_insert.mp found with ⟨same, rfl⟩ | ⟨-, found⟩
    · exact same
    · exact booked.flightIds id record found
  · intro id record found
    dsimp only at found ⊢
    rcases held_insert.mp found with ⟨same, rfl⟩ | ⟨-, found⟩
    · refine ⟨List.nodup_singleton _, ?_⟩
      intro subscriber inside
      rw [List.mem_singleton.mp inside, lookup_insert, if_pos rfl]
      exact ⟨_, rfl, same, rfl⟩
    · obtain ⟨once, staffed⟩ := booked.staffed id record found
      refine ⟨once, ?_⟩
      intro subscriber inside
      rw [lookup_insert, if_neg (booked.subscriber_ne fresh found inside)]
      exact staffed subscriber inside
  · intro id task found
    dsimp only at found ⊢
    rcases held_insert.mp found with ⟨rfl, rfl⟩ | ⟨-, found⟩
    · refine ⟨⟨coordinator.nextFlight, spec.key, .queued, now, [coordinator.nextTask], false⟩, ?_, List.mem_cons_self⟩
      rw [lookup_insert]
      exact if_pos rfl
    · obtain ⟨record, record', inside⟩ := booked.placed id task found
      rw [lookup_insert, if_neg (elsewhere _ record record')]
      exact ⟨record, record', inside⟩
  · intro key id found
    dsimp only at found ⊢
    rw [lookup_insert]
    by_cases here : key = spec.key
    · rw [here, Function.update_self] at found
      cases found
      rw [if_pos rfl]
      exact ⟨_, rfl, here.symm⟩
    · rw [Function.update_of_ne here] at found
      obtain ⟨record, record', named⟩ := booked.indexed key id found
      rw [if_neg (elsewhere _ record record')]
      exact ⟨record, record', named⟩
  · intro resource
    have counted := booked.running resource
    unfold runningCount at counted ⊢
    dsimp only
    rw [counted, count_insert_new _ _ absent, if_neg (by simp [runsOn]), Nat.add_zero]
  · unfold queuedFlightCount at room ⊢
    dsimp only
    rw [count_insert_new _ _ absent, if_pos (by simp)]
    exact room

theorem supersede_active {before admitted : TaskCoordinator} {id : TaskId} {task : TaskSnapshot}
    (tasks : admitted.tasks = before.tasks.insert id task) (config : admitted.config = before.config)
    (absent : before.tasks[id]? = none) (capacity : before.hasActiveCapacityFor spec) :
    (admitted.supersedeOlder spec id).eligibleCount ≤ (admitted.supersedeOlder spec id).config.maximumActiveTasks := by
  have spared : (admitted.supersedeOlder spec id).eligibleCount ≤
      count (fun other task => other == id || !isOlder spec task) admitted.tasks := by
    apply count_le_of
    intro other final found eligible
    change ((admitted.selectTasks _).foldl (mark .superseded) admitted.tasks)[other]? = some final at found
    rw [markAll_lookup, Option.map_eq_some_iff] at found
    obtain ⟨task', held, same⟩ := found
    refine ⟨task', held, ?_⟩
    split at same
    · rw [← same, TaskSnapshot.marked_ineligible] at eligible
      cases eligible
    · rename_i outside
      rw [mem_selectTasks] at outside
      by_contra older
      refine outside ⟨task', held, ?_⟩
      simpa [bne] using older
  have added : count (fun other task => other == id || !isOlder spec task) admitted.tasks ≤
      count (fun _ task => !isOlder spec task) before.tasks + 1 := by
    rw [tasks, count_insert_new _ _ absent, if_pos (by simp)]
    apply Nat.succ_le_succ
    apply count_le_of
    intro other found held passes
    refine ⟨found, held, ?_⟩
    have different : ¬ other = id := by
      rintro rfl
      rw [absent] at held
      cases held
    simpa [different] using passes
  have split := count_add_count_not (fun _ task => isOlder spec task) before.tasks
  unfold hasActiveCapacityFor at capacity
  change _ ≤ admitted.config.maximumActiveTasks
  rw [config]
  omega

theorem Coherent.subscribe (coherent : Coherent coordinator) {flightId : FlightId}
    (held : coordinator.flights[flightId]? = some flight) (named : flight.key = spec.key)
    (capacity : coordinator.hasActiveCapacityFor spec) (fresh : Fresh coordinator) :
    Coherent (coordinator.subscribe spec flight flightId) := by
  obtain ⟨booked, live⟩ := (coherent.booked.joined held named fresh).cancel
    ((coordinator.joined spec flight flightId).selectTasks fun id task => id != coordinator.nextTask && isOlder spec task) .superseded
  rw [subscribe_eq]
  exact ⟨booked, live, supersede_active rfl rfl fresh.task capacity⟩

theorem Coherent.launch (coherent : Coherent coordinator) (now : TaskInstant)
    (room : coordinator.queuedFlightCount < coordinator.config.maximumQueuedFlights)
    (capacity : coordinator.hasActiveCapacityFor spec) (fresh : Fresh coordinator) : Coherent (coordinator.launch spec now) := by
  obtain ⟨booked, live⟩ := (coherent.booked.launched now room fresh).cancel
    ((coordinator.launched spec now).selectTasks fun id task => id != coordinator.nextTask && isOlder spec task) .superseded
  rw [launch_eq]
  exact ⟨booked, live, supersede_active rfl rfl fresh.task capacity⟩

inductive Admitted (coordinator : TaskCoordinator) (spec : TaskSpec) (now : TaskInstant) :
    TaskCoordinator → Except (Stop AdmissionError) Submission → Prop where
  | refused (error : AdmissionError) : Admitted coordinator spec now coordinator (.error (.error error))
  | repeated (flightId : FlightId) (flight : FlightRecord) (existing : TaskId)
      (indexed : coordinator.singleFlights spec.key = some flightId) (held : coordinator.flights[flightId]? = some flight)
      (running : flight.cancelled = false) (found : coordinator.existingSubscriber spec flight = some existing) :
      Admitted coordinator spec now coordinator (.ok ⟨existing, flightId, true⟩)
  | joined (flightId : FlightId) (flight : FlightRecord)
      (indexed : coordinator.singleFlights spec.key = some flightId) (held : coordinator.flights[flightId]? = some flight)
      (running : flight.cancelled = false) (capacity : coordinator.hasActiveCapacityFor spec)
      (absent : coordinator.existingSubscriber spec flight = none) :
      Admitted coordinator spec now (coordinator.subscribe spec flight flightId) (.ok ⟨coordinator.nextTask, flightId, true⟩)
  | launched (unshared : coordinator.singleFlights spec.key = none)
      (room : coordinator.queuedFlightCount < coordinator.config.maximumQueuedFlights)
      (capacity : coordinator.hasActiveCapacityFor spec) :
      Admitted coordinator spec now (coordinator.launch spec now) (.ok ⟨coordinator.nextTask, coordinator.nextFlight, false⟩)

theorem screen_ok {now : TaskInstant} (passed : coordinator.screen spec now = .ok ()) :
    coordinator.sessions spec.owner.scope.session = some spec.generation ∧ elapsed spec.deadline now = false := by
  unfold screen at passed
  split at passed
  · cases passed
  · rename_i current opened
    simp only [bind_unit_ok, ensure_ok] at passed
    rw [opened, passed.1]
    exact ⟨rfl, passed.2.1⟩

theorem admit_spec (booked : Booked coordinator) (spec : TaskSpec) (now : TaskInstant) :
    Admitted coordinator spec now (coordinator.enlist spec now).1 (coordinator.enlist spec now).2 := by
  unfold enlist
  split
  · exact .refused _
  split
  · rename_i flightId indexed
    obtain ⟨flight, held, -⟩ := booked.indexed spec.key flightId indexed
    unfold joinFlight
    rw [held]
    dsimp only
    split
    · exact .refused _
    · rename_i running
      have notCancelled : flight.cancelled = false := eq_false_of_ne_true fun cancelled => running (Or.inl cancelled)
      split
      · exact .repeated flightId flight _ indexed held notCancelled ‹_›
      · split
        · exact .refused _
        split
        · exact .joined flightId flight indexed held notCancelled ‹_› ‹_›
        · exact .refused _
  · rename_i unshared
    unfold openFlight
    split
    · split
      · exact .refused _
      · exact .launched unshared (Nat.lt_of_not_le ‹_›) ‹_›
    · exact .refused _

theorem admit_coherent (coherent : Coherent coordinator) {now : TaskInstant} {after : TaskCoordinator}
    {result : Except (Stop AdmissionError) Submission} (admitted : Admitted coordinator spec now after result)
    (fresh : Fresh coordinator) : Coherent after := by
  cases admitted with
  | refused => exact coherent
  | repeated => exact coherent
  | joined flightId flight indexed held _ capacity _ =>
    obtain ⟨same, same', named⟩ := coherent.booked.indexed spec.key flightId indexed
    rw [held] at same'
    cases same'
    exact coherent.subscribe held named capacity fresh
  | launched _ room capacity => exact coherent.launch now room capacity fresh

end TaskCoordinator

end Audec.Tasks

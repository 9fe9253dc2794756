import Audec.TaskCoordinator.Admission

/-! Flights that start and flights that end. -/

open Machine Checked Entries Option
open Std (ExtTreeMap)

namespace Audec.Tasks

def CompletionBatch.tasks (batch : CompletionBatch) : List TaskId :=
  batch.accepted.map CompletionReceipt.task ++ batch.rejected.map fun rejected => rejected.receipt.task

namespace TaskCoordinator

variable {coordinator : TaskCoordinator}

theorem mem_of_maxBy {α : Type} {order : α → α → Ordering} {items : List α} {greatest : α}
    (found : maxBy order items = some greatest) : greatest ∈ items := by
  cases items with
  | nil => cases found
  | cons first rest =>
    simp only [maxBy, some.injEq] at found
    subst found
    induction rest generalizing first with
    | nil => exact List.mem_cons_self
    | cons next more ih =>
      rw [List.foldl_cons]
      split
      · rcases List.mem_cons.mp (ih first) with same | inside
        · exact List.mem_cons.mpr (Or.inl same)
        · exact List.mem_cons_of_mem _ (List.mem_cons_of_mem _ inside)
      · exact List.mem_cons_of_mem _ (ih next)

variable {flight : FlightRecord} {id : FlightId}

theorem hasEligible_of_rank {rank : FlightRank} (ranked : coordinator.flightRank flight = some rank) :
    flight.hasEligible coordinator.tasks = true := by
  unfold flightRank at ranked
  dsimp only at ranked
  split at ranked
  · cases ranked
  · rename_i waiting
    rw [List.isEmpty_iff, ← ne_eq] at waiting
    obtain ⟨task, inside⟩ := List.exists_mem_of_ne_nil _ waiting
    obtain ⟨among, eligible⟩ := List.mem_filter.mp inside
    obtain ⟨id, subscriber, held⟩ := List.mem_filterMap.mp among
    refine List.any_eq_true.mpr ⟨id, subscriber, ?_⟩
    rw [held]
    exact eligible

theorem candidate_flight (booked : Booked coordinator) {rank : FlightRank}
    (candidate : (id, rank) ∈ coordinator.candidates) : ∃ flight : FlightRecord, coordinator.flights[id]? = some flight ∧
      flight.state = .queued ∧ coordinator.resourceHasCapacity flight.key.resource = true ∧
        flight.hasEligible coordinator.tasks = true := by
  obtain ⟨flight, among, ranked⟩ := List.mem_filterMap.mp candidate
  obtain ⟨rank', ranked', same⟩ := map_eq_some_iff.mp ranked
  cases same
  obtain ⟨inside, ready⟩ := List.mem_filter.mp among
  obtain ⟨other, held⟩ := mem_allFlights.mp inside
  rw [Bool.and_eq_true, decide_eq_true_eq] at ready
  rw [booked.flightIds other flight held]
  exact ⟨flight, held, ready.1, ready.2, hasEligible_of_rank ranked'⟩

theorem Coherent.startFlight (coherent : Coherent coordinator)
    (held : coordinator.flights[id]? = some flight) (queued : flight.state = .queued)
    (capacity : coordinator.resourceHasCapacity flight.key.resource = true) : Coherent (coordinator.startFlight id flight) := by
  have exact := keepsEligible_foldl start_keeps flight.subscribers coordinator.tasks
  have restated := coherent.restate exact
  obtain ⟨booked, live, active⟩ := restated
  refine ⟨⟨booked.taskIds, ?_, ?_, ?_, ?_, ?_, ?_, ?_⟩, ?_, active⟩
  · intro other record found
    unfold TaskCoordinator.startFlight at found
    dsimp only at found
    rcases held_insert.mp found with ⟨rfl, rfl⟩ | ⟨-, found⟩
    · exact booked.flightIds id flight held
    · exact booked.flightIds other record found
  · intro other record found
    unfold TaskCoordinator.startFlight at found
    dsimp only at found
    rcases held_insert.mp found with ⟨rfl, rfl⟩ | ⟨-, found⟩
    · exact booked.staffed id flight held
    · exact booked.staffed other record found
  · intro task snapshot found
    obtain ⟨record, record', inside⟩ := booked.placed task snapshot found
    unfold TaskCoordinator.startFlight
    dsimp only
    rw [lookup_insert]
    by_cases here : id = snapshot.flight
    · rw [if_pos here]
      change coordinator.flights[snapshot.flight]? = some record at record'
      rw [← here, held] at record'
      cases record'
      exact ⟨_, rfl, inside⟩
    · rw [if_neg here]
      exact ⟨record, record', inside⟩
  · intro key other found
    obtain ⟨record, record', named⟩ := booked.indexed key other found
    unfold TaskCoordinator.startFlight
    dsimp only
    rw [lookup_insert]
    by_cases here : id = other
    · rw [if_pos here]
      change coordinator.flights[other]? = some record at record'
      rw [← here, held] at record'
      cases record'
      exact ⟨_, rfl, named⟩
    · rw [if_neg here]
      exact ⟨record, record', named⟩
  · intro resource
    have counted := booked.running resource
    have before := count_held (fun _ record => runsOn resource record) held
    unfold runningCount TaskCoordinator.startFlight at *
    dsimp only at *
    rw [count_insert]
    have idle : ¬ runsOn resource flight = true := by simp [runsOn, queued]
    rw [if_neg idle] at before
    by_cases here : resource = flight.key.resource
    · subst here
      rw [Function.update_self, if_pos (by simp [runsOn])]
      omega
    · rw [Function.update_of_ne here, if_neg (by simp [runsOn, Ne.symm here])]
      omega
  · intro resource
    have bounded := booked.limited resource
    unfold TaskCoordinator.startFlight
    dsimp only
    by_cases here : resource = flight.key.resource
    · subst here
      rw [Function.update_self]
      obtain ⟨limit, limit', below⟩ := (any_eq_true _ _).mp capacity
      rw [limit', getD_some]
      exact of_decide_eq_true below
    · rw [Function.update_of_ne here]
      exact bounded
  · have bounded := booked.queued
    have before := count_held (fun _ (record : FlightRecord) => decide (record.state = .queued)) held
    unfold queuedFlightCount TaskCoordinator.startFlight at *
    dsimp only at *
    rw [count_insert, if_neg (by simp)]
    omega
  · intro key other found
    obtain ⟨record, record', eligible⟩ := live key other found
    unfold TaskCoordinator.startFlight
    dsimp only
    rw [lookup_insert]
    by_cases here : id = other
    · rw [if_pos here]
      change coordinator.flights[other]? = some record at record'
      rw [← here, held] at record'
      cases record'
      exact ⟨_, rfl, eligible⟩
    · rw [if_neg here]
      exact ⟨record, record', eligible⟩

theorem rejection_none {task : TaskSnapshot} {now : TaskInstant} : coordinator.rejection task now = none ↔
    coordinator.sessions task.spec.owner.scope.session = some task.spec.generation ∧ elapsed task.spec.deadline now = false ∧
      task.isEligible = true := by
  unfold rejection TaskSnapshot.isEligible
  cases coordinator.sessions task.spec.owner.scope.session with
  | none => simp
  | some current =>
    by_cases same : current = task.spec.generation
    · by_cases late : elapsed task.spec.deadline now = true
      · simp [same, late]
      · cases task.state <;> simp [same, late]
    · simp [same]

section Gate

variable {flight : FlightId} {outcome : CompletionOutcome} {now : TaskInstant}

variable {subscribers : List TaskId}

theorem gate_perm (active : ∀ id ∈ subscribers, ∃ task : TaskSnapshot, coordinator.tasks[id]? = some task) :
    (coordinator.gate flight outcome now subscribers).tasks.Perm subscribers := by
  induction subscribers with
  | nil => exact List.Perm.refl _
  | cons id more ih =>
    have inner := ih fun other inside => active other (List.mem_cons_of_mem _ inside)
    obtain ⟨task, held⟩ := active id List.mem_cons_self
    unfold gate
    rw [held]
    dsimp only
    split
    · exact inner.cons id
    · unfold CompletionBatch.tasks at inner ⊢
      rw [List.map_cons]
      exact List.perm_middle.trans (inner.cons id)

theorem mem_accepted {receipt : CompletionReceipt}
    (accepted : receipt ∈ (coordinator.gate flight outcome now subscribers).accepted) :
    ∃ id ∈ subscribers, ∃ task : TaskSnapshot, coordinator.tasks[id]? = some task ∧ coordinator.rejection task now = none ∧
      receipt = TaskCoordinator.receipt id flight task outcome now := by
  induction subscribers with
  | nil => cases accepted
  | cons id more ih =>
    have later : receipt ∈ (coordinator.gate flight outcome now more).accepted → ∃ id' ∈ id :: more, ∃ task : TaskSnapshot,
        coordinator.tasks[id']? = some task ∧ coordinator.rejection task now = none ∧
          receipt = TaskCoordinator.receipt id' flight task outcome now := by
      intro inside
      obtain ⟨other, among, known⟩ := ih inside
      exact ⟨other, List.mem_cons_of_mem _ among, known⟩
    unfold gate at accepted
    split at accepted
    · exact later accepted
    · rename_i task held
      dsimp only at accepted
      split at accepted
      · rename_i passed
        rcases List.mem_cons.mp accepted with same | inside
        · exact ⟨id, List.mem_cons_self, task, held, passed, same⟩
        · exact later inside
      · exact later accepted

theorem accepted_of_passed {id : TaskId} (inside : id ∈ subscribers) {task : TaskSnapshot}
    (held : coordinator.tasks[id]? = some task) (passed : coordinator.rejection task now = none) :
    receipt id flight task outcome now ∈ (coordinator.gate flight outcome now subscribers).accepted := by
  induction subscribers with
  | nil => cases inside
  | cons first more ih =>
    unfold gate
    rcases List.mem_cons.mp inside with rfl | later
    · rw [held]
      dsimp only
      rw [passed]
      exact List.mem_cons_self
    · have known := ih later
      split
      · exact known
      · dsimp only
        split
        · exact List.mem_cons_of_mem _ known
        · exact known

end Gate

theorem finish_removed (booked : Booked coordinator)
    (held : coordinator.flights[id]? = some flight) (outcome : CompletionOutcome) (now : TaskInstant) :
    Removed coordinator id flight
      (coordinator.finish id outcome (coordinator.gate id outcome now flight.subscribers)) := by
  have active : ∀ subscriber ∈ flight.subscribers, ∃ task : TaskSnapshot, coordinator.tasks[subscriber]? = some task := by
    intro subscriber inside
    obtain ⟨task, found, -⟩ := (booked.staffed id flight held).2 subscriber inside
    exact ⟨task, found⟩
  have perm : (coordinator.gate id outcome now flight.subscribers).tasks.Perm flight.subscribers := gate_perm active
  unfold finish
  exact ((retired_foldl (fun coordinator task => retireTask_retired coordinator task _) _ coordinator).trans
    (retired_foldl (fun coordinator task => retireTask_retired coordinator task _) _ _)).removed held fun task => perm.mem_iff

inductive Completed (coordinator : TaskCoordinator) (id : FlightId) (report : CompletionReport) (now : TaskInstant) :
    TaskCoordinator → Except (Stop CoordinatorError) CompletionBatch → Prop where
  | failed (expired : TaskCoordinator) (coherent : Coherent expired) (expiry : Expired now coordinator expired)
      (error : CoordinatorError) (idle : ∀ flight : FlightRecord, expired.flights[id]? = some flight → flight.state = .queued) :
      Completed coordinator id report now expired (.error (.error error))
  | finished (expired diagnosed after : TaskCoordinator) (coherent : Coherent expired)
      (expiry : Expired now coordinator expired) (flight : FlightRecord) (held : expired.flights[id]? = some flight)
      (running : flight.state = .running) (exact : KeepsEligible expired.tasks diagnosed.tasks)
      (rest : diagnosed = { expired with tasks := diagnosed.tasks }) (removed : Removed diagnosed id flight after) :
      Completed coordinator id report now after (.ok (diagnosed.gate id report.outcome now flight.subscribers))

theorem complete_spec (coherent : Coherent coordinator) (id : FlightId) (report : CompletionReport) (now : TaskInstant) :
    Completed coordinator id report now (coordinator.complete id report now).1 (coordinator.complete id report now).2 := by
  obtain ⟨expired, expire, coherent', expiry⟩ := expire_spec coherent now
  unfold complete
  rw [expire]
  dsimp only
  cases held : expired.flights[id]? with
  | none =>
    refine .failed expired coherent' expiry _ ?_
    intro flight found
    rw [held] at found
    cases found
  | some flight =>
    dsimp only
    split
    · rename_i running
      have exact := pushDiagnostics_keeps expired flight.subscribers report.diagnostics
      have diagnosed := coherent'.restate exact
      exact .finished expired _ _ coherent' expiry flight held running exact rfl
        (finish_removed diagnosed.booked held report.outcome now)
    · rename_i idle
      refine .failed expired coherent' expiry _ ?_
      intro same found
      rw [held] at found
      cases found
      cases state : flight.state with
      | queued => rfl
      | running => exact absurd state idle

theorem completed_coherent {report : CompletionReport} {now : TaskInstant} {after : TaskCoordinator}
    {result : Except (Stop CoordinatorError) CompletionBatch} (completed : Completed coordinator id report now after result) :
    Coherent after := by
  cases completed with
  | failed _ coherent => exact coherent
  | finished expired diagnosed _ coherent expiry flight held running exact rest removed =>
    have restated := coherent.restate exact
    rw [← rest] at restated
    have held' : diagnosed.flights[id]? = some flight := by
      rw [rest]
      exact held
    exact removed.coherent restated held'

end TaskCoordinator

end Audec.Tasks

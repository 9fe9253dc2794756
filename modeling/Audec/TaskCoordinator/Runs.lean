import Audec.TaskCoordinator.Execution
import Audec.Lib.Runs

/-! Runs of the coordinator: every operation keeps the bookkeeping. -/

open Machine Checked Entries Runs Std.ExtTreeMap List
open Std (ExtTreeMap)

namespace Audec.Tasks

inductive Action where
  | observeSession (session : SessionId) (generation : SessionGeneration)
  | closeSession (session : SessionId)
  | submit (spec : TaskSpec) (now : TaskInstant)
  | dispatchNext (now : TaskInstant)
  | reportProgress (flight : FlightId) (progress : TaskProgress)
  | reportDiagnostic (flight : FlightId) (diagnostic : TaskDiagnostic)
  | cancelTask (task : TaskId) (reason : CancellationReason)
  | cancelOwner (owner : OwnerScope)
  | complete (flight : FlightId) (report : CompletionReport) (now : TaskInstant)

inductive Response where
  | observed (result : Except CoordinatorError Unit)
  | closed
  | submitted (result : Except (Stop AdmissionError) Submission)
  | dispatched (result : Except (Stop Empty) (Option TaskDispatch))
  | reported (result : Except CoordinatorError Unit)
  | cancelled (result : Except CoordinatorError Bool)
  | ownerCancelled (changed : Nat)
  | completed (result : Except (Stop CoordinatorError) CompletionBatch)

/-- Whether an operation stopped at one of its expects. -/
def Response.panicked : Response → Prop
  | .submitted result => result = .error .panic
  | .dispatched result => result = .error .panic
  | .completed result => result = .error .panic
  | _ => False

namespace TaskCoordinator

def respond (coordinator : TaskCoordinator) : Action → TaskCoordinator × Response
  | .observeSession session generation => (coordinator.observeSession session generation).map id .observed
  | .closeSession session => (coordinator.closeSession session, .closed)
  | .submit spec now => (coordinator.submit spec now).map id .submitted
  | .dispatchNext now => (coordinator.dispatchNext now).map id .dispatched
  | .reportProgress flight progress => (coordinator.reportProgress flight progress).map id .reported
  | .reportDiagnostic flight diagnostic => (coordinator.reportDiagnostic flight diagnostic).map id .reported
  | .cancelTask task reason => (coordinator.cancelTask task reason).map id .cancelled
  | .cancelOwner owner => (coordinator.cancelOwner owner).map id .ownerCancelled
  | .complete flight report now => (coordinator.complete flight report now).map id .completed

def perform (coordinator : TaskCoordinator) (action : Action) : TaskCoordinator := (coordinator.respond action).1

section

variable (coordinator : TaskCoordinator)
include coordinator

theorem perform_submit (spec : TaskSpec) (now : TaskInstant) :
    coordinator.perform (.submit spec now) = (coordinator.submit spec now).1 := rfl

theorem perform_dispatchNext (now : TaskInstant) :
    coordinator.perform (.dispatchNext now) = (coordinator.dispatchNext now).1 := rfl

theorem perform_reportProgress (flight : FlightId) (progress : TaskProgress) :
    coordinator.perform (.reportProgress flight progress) = (coordinator.reportProgress flight progress).1 := rfl

theorem perform_reportDiagnostic (flight : FlightId) (diagnostic : TaskDiagnostic) :
    coordinator.perform (.reportDiagnostic flight diagnostic) = (coordinator.reportDiagnostic flight diagnostic).1 := rfl

theorem perform_complete (flight : FlightId) (report : CompletionReport) (now : TaskInstant) :
    coordinator.perform (.complete flight report now) = (coordinator.complete flight report now).1 := rfl

end

end TaskCoordinator

abbrev TaskEvent := Event TaskCoordinator Action

def responseOf (event : TaskEvent) : Response := (event.before.respond event.action).2

abbrev TaskRun (config : CoordinatorConfig) : List TaskEvent → TaskCoordinator → Prop :=
  Run TaskCoordinator.perform fun coordinator => TaskCoordinator.new config = .ok coordinator

def TakesFresh (event : TaskEvent) : Prop := ∀ spec now, event.action = .submit spec now → event.before.Fresh

namespace TaskCoordinator

variable {coordinator : TaskCoordinator}

theorem coherent_of_empty (tasks : coordinator.tasks = ∅) (flights : coordinator.flights = ∅)
    (index : ∀ key, coordinator.singleFlights key = none) (idle : ∀ resource, coordinator.runningByResource resource = 0) :
    Coherent coordinator := by
  have noTask (id : TaskId) (task : TaskSnapshot) : coordinator.tasks[id]? ≠ some task := by
    rw [tasks, getElem?_empty]
    exact nofun
  have noFlight (id : FlightId) (flight : FlightRecord) : coordinator.flights[id]? ≠ some flight := by
    rw [flights, getElem?_empty]
    exact nofun
  have noEntry (key : SingleFlightKey) (id : FlightId) : coordinator.singleFlights key ≠ some id := by
    rw [index]
    exact nofun
  refine ⟨⟨?_, ?_, ?_, ?_, ?_, ?_, ?_, ?_⟩, ?_, ?_⟩
  · exact fun id task held => absurd held (noTask id task)
  · exact fun id flight held => absurd held (noFlight id flight)
  · exact fun id flight held => absurd held (noFlight id flight)
  · exact fun id task held => absurd held (noTask id task)
  · exact fun key id indexed => absurd indexed (noEntry key id)
  · intro resource
    rw [idle, runningCount, flights, count_empty]
  · intro resource
    rw [idle]
    exact Nat.zero_le _
  · rw [queuedFlightCount, flights, count_empty]
    exact Nat.zero_le _
  · exact fun key id indexed => absurd indexed (noEntry key id)
  · rw [eligibleCount, tasks, count_empty]
    exact Nat.zero_le _

theorem new_coherent {config : CoordinatorConfig} (created : new config = .ok coordinator) : Coherent coordinator := by
  unfold new at created
  rw [bind_unit_ok] at created
  obtain ⟨-, same⟩ := created
  cases same
  exact coherent_of_empty rfl rfl (fun _ => rfl) fun _ => rfl

theorem observeSession_coherent (coherent : Coherent coordinator) (session : SessionId) (generation : SessionGeneration) :
    Coherent (coordinator.observeSession session generation).1 := by
  have advanced : Coherent (coordinator.advanceSession session generation) := (coherent.reopen _).cancel _ _
  unfold observeSession
  split
  · exact advanced
  · split
    · exact coherent
    split
    · exact coherent
    · exact advanced

theorem closeSession_coherent (coherent : Coherent coordinator) (session : SessionId) :
    Coherent (coordinator.closeSession session) :=
  (coherent.reopen _).cancel _ _

theorem Expired.fresh {now : TaskInstant} {expired : TaskCoordinator} (expiry : Expired now coordinator expired)
    (fresh : Fresh coordinator) : Fresh expired := by
  constructor
  · rw [expiry.nextTask]
    cases held : expired.tasks[coordinator.nextTask]? with
    | none => rfl
    | some task =>
      obtain ⟨before, found, -⟩ := expiry.tasks _ task held
      rw [fresh.task] at found
      cases found
  · rw [expiry.nextFlight]
    cases held : expired.flights[coordinator.nextFlight]? with
    | none => rfl
    | some flight =>
      obtain ⟨before, found, -⟩ := expiry.flights _ flight held
      rw [fresh.flight] at found
      cases found

theorem submit_coherent (coherent : Coherent coordinator) {spec : TaskSpec} {now : TaskInstant}
    (fresh : Fresh coordinator) :
    Coherent (coordinator.submit spec now).1 ∧ (coordinator.submit spec now).2 ≠ .error .panic := by
  obtain ⟨expired, expire, coherent', expiry⟩ := expire_spec coherent now
  have admitted := admit_spec coherent'.booked spec now
  unfold submit
  rw [expire]
  refine ⟨admit_coherent coherent' admitted (expiry.fresh fresh), ?_⟩
  revert admitted
  generalize (expired.enlist spec now).1 = after
  intro admitted panicked
  dsimp only at panicked
  rw [panicked] at admitted
  cases admitted

inductive Dispatched (expired : TaskCoordinator) : TaskCoordinator → Except (Stop Empty) (Option TaskDispatch) → Prop where
  | idle : Dispatched expired expired (.ok none)
  | started (id : FlightId) (flight : FlightRecord) (held : expired.flights[id]? = some flight)
      (queued : flight.state = .queued) (capacity : expired.resourceHasCapacity flight.key.resource = true)
      (representative : TaskId) (inside : representative ∈ flight.subscribers)
      (eligible : expired.tasks[representative]?.any TaskSnapshot.isEligible = true) :
      Dispatched expired (expired.startFlight id flight)
        (.ok (some ⟨id, representative, flight.key.recipe, flight.key.resource⟩))

section

variable (coherent : Coherent coordinator)
include coherent

theorem dispatchNext_spec (now : TaskInstant) :
    ∃ expired, coordinator.expire now = some expired ∧ Coherent expired ∧ Expired now coordinator expired ∧
      Dispatched expired (coordinator.dispatchNext now).1 (coordinator.dispatchNext now).2 := by
  obtain ⟨expired, expire, coherent', expiry⟩ := expire_spec coherent now
  refine ⟨expired, expire, coherent', expiry, ?_⟩
  unfold dispatchNext
  rw [expire]
  dsimp only
  split
  · exact .idle
  · rename_i selected greatest
    obtain ⟨id, rank⟩ := selected
    obtain ⟨flight, held, queued, capacity, eligible⟩ := candidate_flight coherent'.booked (mem_of_maxBy greatest)
    unfold dispatch
    rw [held]
    dsimp only
    split
    · rename_i missing
      obtain ⟨task, inside, waiting⟩ := any_eq_true.mp eligible
      exact absurd waiting (find?_eq_none.mp missing task inside)
    · rename_i representative found
      have eligible := find?_some found
      exact .started id flight held queued capacity representative (mem_of_find?_eq_some found) eligible

theorem dispatchNext_coherent (now : TaskInstant) :
    Coherent (coordinator.dispatchNext now).1 ∧ (coordinator.dispatchNext now).2 ≠ .error .panic := by
  obtain ⟨expired, -, coherent', -, dispatched⟩ := dispatchNext_spec coherent now
  revert dispatched
  generalize (coordinator.dispatchNext now).1 = after
  generalize (coordinator.dispatchNext now).2 = result
  intro dispatched
  cases dispatched with
  | idle => exact ⟨coherent', nofun⟩
  | started id flight held queued capacity => exact ⟨coherent'.startFlight held queued capacity, nofun⟩

theorem complete_coherent (flight : FlightId) (report : CompletionReport) (now : TaskInstant) :
    Coherent (coordinator.complete flight report now).1 ∧ (coordinator.complete flight report now).2 ≠ .error .panic := by
  have completed := complete_spec coherent flight report now
  refine ⟨completed_coherent completed, ?_⟩
  intro panicked
  rw [panicked] at completed
  cases completed

end

theorem reportProgress_spec (coordinator : TaskCoordinator) (flight : FlightId) (progress : TaskProgress) :
    ∃ tasks, KeepsEligible coordinator.tasks tasks ∧
      (coordinator.reportProgress flight progress).1 = { coordinator with tasks } := by
  have unchanged : ∃ tasks, KeepsEligible coordinator.tasks tasks ∧ coordinator = { coordinator with tasks } :=
    ⟨coordinator.tasks, KeepsEligible.refl coordinator.tasks, rfl⟩
  unfold reportProgress
  split
  · exact unchanged
  split
  · exact unchanged
  split
  · exact ⟨_, recordProgress_keeps progress coordinator.tasks _, rfl⟩
  · exact unchanged

theorem reportDiagnostic_spec (coordinator : TaskCoordinator) (flight : FlightId) (diagnostic : TaskDiagnostic) :
    ∃ tasks, KeepsEligible coordinator.tasks tasks ∧
      (coordinator.reportDiagnostic flight diagnostic).1 = { coordinator with tasks } := by
  unfold reportDiagnostic
  split
  · exact ⟨coordinator.tasks, KeepsEligible.refl coordinator.tasks, rfl⟩
  · rename_i record _
    exact ⟨_, pushDiagnostics_keeps coordinator record.subscribers [diagnostic], rfl⟩

section

variable (coherent : Coherent coordinator)
include coherent

theorem cancelTask_coherent (task : TaskId) (reason : CancellationReason) :
    Coherent (coordinator.cancelTask task reason).1 := by
  unfold cancelTask
  split
  · exact coherent
  · exact coherent.cancel [task] reason

theorem cancelOwner_coherent (owner : OwnerScope) :
    Coherent (coordinator.cancelOwner owner).1 :=
  coherent.cancel _ _

theorem perform_coherent (action : Action) (fresh : TakesFresh ⟨coordinator, action⟩) :
    Coherent (coordinator.perform action) ∧ ¬ (coordinator.respond action).2.panicked := by
  cases action with
  | observeSession session generation => exact ⟨observeSession_coherent coherent session generation, id⟩
  | closeSession session => exact ⟨closeSession_coherent coherent session, id⟩
  | submit spec now => exact submit_coherent coherent (fresh spec now rfl)
  | dispatchNext now => exact dispatchNext_coherent coherent now
  | reportProgress flight progress =>
    obtain ⟨tasks, exact, after⟩ := reportProgress_spec coordinator flight progress
    refine ⟨?_, id⟩
    rw [perform_reportProgress, after]
    exact coherent.restate exact
  | reportDiagnostic flight diagnostic =>
    obtain ⟨tasks, exact, after⟩ := reportDiagnostic_spec coordinator flight diagnostic
    refine ⟨?_, id⟩
    rw [perform_reportDiagnostic, after]
    exact coherent.restate exact
  | cancelTask task reason => exact ⟨cancelTask_coherent coherent task reason, id⟩
  | cancelOwner owner => exact ⟨cancelOwner_coherent coherent owner, id⟩
  | complete flight report now => exact complete_coherent coherent flight report now

end

end TaskCoordinator

theorem run_coherent {config : CoordinatorConfig} {events : List TaskEvent} {coordinator : TaskCoordinator}
    (run : TaskRun config events coordinator) (fresh : ∀ event ∈ events, TakesFresh event) : coordinator.Coherent :=
  run.invariant TaskCoordinator.Coherent (fun _ => TaskCoordinator.new_coherent)
    (fun _ action coherent allowed => (TaskCoordinator.perform_coherent coherent action allowed).1) fresh

end Audec.Tasks

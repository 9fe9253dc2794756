import Audec.TaskCoordinator.Model

open Machine Checked
open Std (ExtTreeMap)

namespace Audec.Tasks

namespace CoordinatorConfig

def default : CoordinatorConfig where
  maximumActiveTasks := 256
  maximumQueuedFlights := 128
  maximumSubscribersPerFlight := 32
  maximumDiagnosticsPerTask := 64
  maximumTerminalSnapshots := 256
  resourceLimits := [(.control, 1), (.io, 2), (.cpu, 2), (.render, 2), (.modelWorker, 1), (.pluginWorker, 1), (.gpu, 1)]

end CoordinatorConfig

def FlightRecord.hasEligible (tasks : TaskTable) (flight : FlightRecord) : Bool :=
  flight.subscribers.any fun id => tasks[id]?.any TaskSnapshot.isEligible

/-- `saturating_add(1)`. -/
def following (id : U64) : U64 := (checkedSucc id).getD id

def TaskSnapshot.withDiagnostic (limit : Nat) (diagnostic : TaskDiagnostic) (task : TaskSnapshot) : TaskSnapshot :=
  if task.diagnostics.length = limit then
    { task with
      diagnostics := task.diagnostics.tail ++ [diagnostic]
      droppedDiagnostics := following task.droppedDiagnostics }
  else { task with diagnostics := task.diagnostics ++ [diagnostic] }

def FlightState.taskState : FlightState → TaskState
  | .queued => .queued
  | .running => .running

namespace TaskCoordinator

def new (config : CoordinatorConfig) : Except ConfigError TaskCoordinator := do
  config.validate
  return {
    config
    nextTask := 1
    nextFlight := 1
    sessions := fun _ => none
    tasks := ∅
    flights := ∅
    singleFlights := fun _ => none
    runningByResource := fun _ => 0
    terminal := [] }

variable (coordinator : TaskCoordinator)

def selectTasks (test : TaskId → TaskSnapshot → Bool) : List TaskId :=
  (coordinator.tasks.toList.filter fun entry => test entry.1 entry.2).map Prod.fst

def allFlights : List FlightRecord := coordinator.flights.toList.map Prod.snd

def queuedFlightCount : Nat :=
  Entries.count (fun _ flight => flight.state = .queued) coordinator.flights

def mark (reason : CancellationReason) (tasks : TaskTable) (id : TaskId) : TaskTable :=
  match tasks[id]? with
  | none => tasks
  | some task => if task.isEligible then tasks.insert id { task with state := .cancelling reason } else tasks

def markCancelling (coordinator : TaskCoordinator) (task : TaskId) (reason : CancellationReason) : TaskCoordinator × Bool :=
  ({ coordinator with tasks := mark reason coordinator.tasks task }, coordinator.tasks[task]?.any TaskSnapshot.isEligible)

def markAll (coordinator : TaskCoordinator) (ids : List TaskId) (reason : CancellationReason) : TaskCoordinator :=
  { coordinator with tasks := ids.foldl (mark reason) coordinator.tasks }

def unshare (index : SingleFlightKey → Option FlightId) (flight : FlightRecord) : SingleFlightKey → Option FlightId :=
  if index flight.key = some flight.id then Function.update index flight.key none else index

def cancelUnobservedFlights (coordinator : TaskCoordinator) : TaskCoordinator :=
  { coordinator with
    flights := coordinator.flights.map fun _ flight =>
      if flight.hasEligible coordinator.tasks then flight else { flight with cancelled := true }
    singleFlights := (coordinator.allFlights.filter fun flight => !flight.hasEligible coordinator.tasks).foldl unshare
      coordinator.singleFlights }

def newest (limit : Nat) (snapshots : List TaskSnapshot) : List TaskSnapshot := snapshots.drop (snapshots.length - limit)

def retireTask (task : TaskId) (state : TaskState) : TaskCoordinator :=
  match coordinator.tasks[task]? with
  | none => coordinator
  | some record => { coordinator with
      tasks := coordinator.tasks.erase task
      terminal := newest coordinator.config.maximumTerminalSnapshots (coordinator.terminal ++ [{ record with state }]) }

def removeFlight (flight : FlightId) : TaskCoordinator :=
  match coordinator.flights[flight]? with
  | none => coordinator
  | some record => { coordinator with
      flights := coordinator.flights.erase flight
      singleFlights := if coordinator.singleFlights record.key = some flight then
          Function.update coordinator.singleFlights record.key none
        else coordinator.singleFlights
      runningByResource := if record.state = .running then
          Function.update coordinator.runningByResource record.key.resource
            (coordinator.runningByResource record.key.resource - 1)
        else coordinator.runningByResource }

def abandonedState (task : TaskId) : TaskState :=
  match coordinator.tasks[task]?.map TaskSnapshot.state with
  | some (.cancelling .deadlineExceeded) => .rejected
  | _ => .cancelled

def retireAbandonedFlight (coordinator : TaskCoordinator) (flight : FlightId) : Option TaskCoordinator :=
  match coordinator.flights[flight]? with
  | none => none
  | some record =>
    let retired := record.subscribers.foldl (fun coordinator id => coordinator.retireTask id (coordinator.abandonedState id))
      coordinator
    some (retired.removeFlight flight)

def abandonedFlights (coordinator : TaskCoordinator) : List FlightId :=
  (coordinator.allFlights.filter fun flight => flight.state = .queued && !flight.hasEligible coordinator.tasks).map
    FlightRecord.id

/-- `none` where the map is indexed with a flight it does not have. -/
def retireAbandonedQueuedFlights (coordinator : TaskCoordinator) : Option TaskCoordinator :=
  coordinator.abandonedFlights.foldlM retireAbandonedFlight coordinator

def elapsed (deadline : Option TaskDeadline) (now : TaskInstant) : Bool := deadline.any fun deadline => deadline ≤ now

def expire (coordinator : TaskCoordinator) (now : TaskInstant) : Option TaskCoordinator :=
  let expired := coordinator.selectTasks fun _ task => task.isEligible && elapsed task.spec.deadline now
  (coordinator.markAll expired .deadlineExceeded).cancelUnobservedFlights.retireAbandonedQueuedFlights

def advanceSession (coordinator : TaskCoordinator) (session : SessionId) (generation : SessionGeneration) : TaskCoordinator :=
  let affected := coordinator.selectTasks fun _ task =>
    task.spec.owner.scope.session = session && task.spec.generation != generation
  let opened := { coordinator with sessions := Function.update coordinator.sessions session (some generation) }
  (opened.markAll affected .sessionAdvanced).cancelUnobservedFlights

def observeSession (coordinator : TaskCoordinator) (session : SessionId) (generation : SessionGeneration) :
    TaskCoordinator × Except CoordinatorError Unit :=
  match coordinator.sessions session with
  | none => (coordinator.advanceSession session generation, .ok ())
  | some previous =>
    if generation < previous then (coordinator, .error (.sessionGenerationRegression session previous generation))
    else if generation = previous then (coordinator, .ok ())
    else (coordinator.advanceSession session generation, .ok ())

def closeSession (coordinator : TaskCoordinator) (session : SessionId) : TaskCoordinator :=
  let affected := coordinator.selectTasks fun _ task => task.spec.owner.scope.session = session
  let closed := { coordinator with sessions := Function.update coordinator.sessions session none }
  (closed.markAll affected .sessionAdvanced).cancelUnobservedFlights

def isOlder (spec : TaskSpec) (task : TaskSnapshot) : Bool :=
  task.spec.owner = spec.owner && decide (task.spec.generation < spec.generation)

def hasActiveCapacityFor (coordinator : TaskCoordinator) (spec : TaskSpec) : Prop :=
  coordinator.tasks.size - Entries.count (fun _ task => isOlder spec task) coordinator.tasks <
    coordinator.config.maximumActiveTasks

instance activeCapacityDecidable (coordinator : TaskCoordinator) (spec : TaskSpec) :
    Decidable (coordinator.hasActiveCapacityFor spec) :=
  inferInstanceAs (Decidable (_ < _))

def supersedeOlder (coordinator : TaskCoordinator) (spec : TaskSpec) (newer : TaskId) : TaskCoordinator :=
  let older := coordinator.selectTasks fun id task => id != newer && isOlder spec task
  (coordinator.markAll older .superseded).cancelUnobservedFlights

def newTask (id : TaskId) (flight : FlightId) (spec : TaskSpec) (state : TaskState) : TaskSnapshot where
  id := id
  flight := flight
  spec := spec
  state := state
  progress := none
  diagnostics := []
  droppedDiagnostics := 0

section

variable (spec : TaskSpec)

def subscribe (flight : FlightRecord) (flightId : FlightId) :
    TaskCoordinator :=
  let task := coordinator.nextTask
  supersedeOlder { coordinator with
    nextTask := following task
    tasks := coordinator.tasks.insert task (newTask task flightId spec flight.state.taskState)
    flights := coordinator.flights.insert flightId { flight with subscribers := flight.subscribers ++ [task] } } spec task

def existingSubscriber (flight : FlightRecord) : Option TaskId :=
  flight.subscribers.find? fun id =>
    coordinator.tasks[id]?.any fun task => task.spec.owner = spec.owner && task.spec.generation = spec.generation

def joinFlight (flightId : FlightId) :
    TaskCoordinator × Except (Stop AdmissionError) Submission :=
  match coordinator.flights[flightId]? with
  | none => (coordinator, .error .panic)
  | some flight =>
    if flight.cancelled = true ∨ flight.hasEligible coordinator.tasks = false then
      (coordinator, .error (.error (.flightCancelling flightId)))
    else
      match coordinator.existingSubscriber spec flight with
      | some existing => (coordinator, .ok ⟨existing, flightId, true⟩)
      | none =>
        if coordinator.config.maximumSubscribersPerFlight ≤ flight.subscribers.length then
          (coordinator, .error (.error (.subscriberLimit flightId)))
        else if coordinator.hasActiveCapacityFor spec then
          (coordinator.subscribe spec flight flightId, .ok ⟨coordinator.nextTask, flightId, true⟩)
        else (coordinator, .error (.error .activeTaskLimit))

section

variable (now : TaskInstant)

def launch : TaskCoordinator :=
  let task := coordinator.nextTask
  let flight := coordinator.nextFlight
  supersedeOlder { coordinator with
    nextTask := following task
    nextFlight := following flight
    tasks := coordinator.tasks.insert task (newTask task flight spec .queued)
    flights := coordinator.flights.insert flight
      { id := flight, key := spec.key, state := .queued, submittedAt := now, subscribers := [task], cancelled := false }
    singleFlights := Function.update coordinator.singleFlights spec.key (some flight) } spec task

def openFlight :
    TaskCoordinator × Except (Stop AdmissionError) Submission :=
  if coordinator.hasActiveCapacityFor spec then
    if coordinator.config.maximumQueuedFlights ≤ coordinator.queuedFlightCount then
      (coordinator, .error (.error .queuedFlightLimit))
    else (coordinator.launch spec now, .ok ⟨coordinator.nextTask, coordinator.nextFlight, false⟩)
  else (coordinator, .error (.error .activeTaskLimit))

/-- What is checked of a submission before its flight is looked for. -/
def screen : Except AdmissionError Unit :=
  match coordinator.sessions spec.owner.scope.session with
  | none => .error (.unknownSession spec.owner.scope.session)
  | some current => do
    ensure (spec.generation = current) (.staleSubmission spec.generation current)
    ensure (elapsed spec.deadline now = false) .deadlineAlreadyElapsed
    ensure (coordinator.config.resourceLimit spec.resource ≠ none) (.resourceUnavailable spec.resource)

def enlist :
    TaskCoordinator × Except (Stop AdmissionError) Submission :=
  match coordinator.screen spec now with
  | .error error => (coordinator, .error (.error error))
  | .ok () =>
    match coordinator.singleFlights spec.key with
    | some flight => coordinator.joinFlight spec flight
    | none => coordinator.openFlight spec now

def submit :
    TaskCoordinator × Except (Stop AdmissionError) Submission :=
  match coordinator.expire now with
  | none => (coordinator, .error .panic)
  | some expired => expired.enlist spec now

end

end

structure FlightRank where
  priority : TaskPriority
  deadline : Option TaskDeadline
  submittedAt : TaskInstant
  id : FlightId

def earlier : Option TaskDeadline → Option TaskDeadline → Option TaskDeadline
  | none, next => next
  | some deadline, none => some deadline
  | some left, some right => some (min left right)

def flightRank (coordinator : TaskCoordinator) (flight : FlightRecord) : Option FlightRank :=
  let eligible := (flight.subscribers.filterMap fun id => coordinator.tasks[id]?).filter TaskSnapshot.isEligible
  if eligible.isEmpty then none
  else some {
    priority := eligible.foldl (fun best task => if best.rank < task.spec.priority.rank then task.spec.priority else best)
      .maintenance
    deadline := eligible.foldl (fun soonest task => earlier soonest task.spec.deadline) none
    submittedAt := flight.submittedAt
    id := flight.id }

def compareRank (left right : FlightRank) : Ordering :=
  (compare left.priority.rank right.priority.rank).then <|
    (match left.deadline, right.deadline with
      | some left, some right => compare right left
      | some _, none => .gt
      | none, some _ => .lt
      | none, none => .eq).then <|
    (compare right.submittedAt left.submittedAt).then (compare right.id left.id)

/-- The last of the greatest. -/
def maxBy {α : Type} (order : α → α → Ordering) : List α → Option α
  | [] => none
  | first :: rest => some (rest.foldl (fun best next => if order best next = .gt then best else next) first)

def resourceHasCapacity (coordinator : TaskCoordinator) (resource : ResourceClass) : Bool :=
  (coordinator.config.resourceLimit resource).any fun limit => coordinator.runningByResource resource < limit

def candidates (coordinator : TaskCoordinator) : List (FlightId × FlightRank) :=
  (coordinator.allFlights.filter fun flight =>
      flight.state = .queued && coordinator.resourceHasCapacity flight.key.resource).filterMap
    fun flight => (coordinator.flightRank flight).map (flight.id, ·)

def start (tasks : TaskTable) (id : TaskId) : TaskTable :=
  match tasks[id]? with
  | none => tasks
  | some task => if task.isEligible then tasks.insert id { task with state := .running } else tasks

def startFlight (id : FlightId) (flight : FlightRecord) : TaskCoordinator :=
  { coordinator with
    flights := coordinator.flights.insert id { flight with state := .running }
    runningByResource := Function.update coordinator.runningByResource flight.key.resource
      (coordinator.runningByResource flight.key.resource + 1)
    tasks := flight.subscribers.foldl start coordinator.tasks }

def dispatch (selected : FlightId) :
    TaskCoordinator × Except (Stop Empty) (Option TaskDispatch) :=
  match coordinator.flights[selected]? with
  | none => (coordinator, .error .panic)
  | some flight =>
    match flight.subscribers.find? fun id => coordinator.tasks[id]?.any TaskSnapshot.isEligible with
    | none => (coordinator, .error .panic)
    | some representative =>
      (coordinator.startFlight selected flight, .ok (some ⟨selected, representative, flight.key.recipe, flight.key.resource⟩))

def dispatchNext (now : TaskInstant) :
    TaskCoordinator × Except (Stop Empty) (Option TaskDispatch) :=
  match coordinator.expire now with
  | none => (coordinator, .error .panic)
  | some expired =>
    match maxBy (fun left right => compareRank left.2 right.2) expired.candidates with
    | none => (expired, .ok none)
    | some selected => expired.dispatch selected.1

/-- The subscribers' progress up to the first that has already got further, and whether there was none. -/
def recordProgress (progress : TaskProgress) : TaskTable → List TaskId → TaskTable × Bool
  | tasks, [] => (tasks, true)
  | tasks, id :: more =>
    match tasks[id]? with
    | none => recordProgress progress tasks more
    | some task =>
      if ∀ previous ∈ task.progress, progress.follows previous then
        recordProgress progress (tasks.insert id { task with progress := some progress }) more
      else (tasks, false)

def reportProgress (coordinator : TaskCoordinator) (flight : FlightId) (progress : TaskProgress) :
    TaskCoordinator × Except CoordinatorError Unit :=
  match progress.validate with
  | .error error => (coordinator, .error (.progress error))
  | .ok () =>
    match coordinator.flights[flight]? with
    | none => (coordinator, .error (.unknownFlight flight))
    | some record =>
      if record.state = .running then
        let recorded := recordProgress progress coordinator.tasks record.subscribers
        ({ coordinator with tasks := recorded.1 }, if recorded.2 then .ok () else .error (.progress .regression))
      else (coordinator, .error (.flightNotRunning flight))

def pushDiagnostic (limit : Nat) (diagnostic : TaskDiagnostic) (tasks : TaskTable) (id : TaskId) : TaskTable :=
  match tasks[id]? with
  | none => tasks
  | some task => tasks.insert id (task.withDiagnostic limit diagnostic)

def pushDiagnostics (subscribers : List TaskId) (diagnostics : List TaskDiagnostic) :
    TaskCoordinator :=
  { coordinator with
    tasks := diagnostics.foldl (fun tasks diagnostic =>
      subscribers.foldl (pushDiagnostic coordinator.config.maximumDiagnosticsPerTask diagnostic) tasks) coordinator.tasks }

def reportDiagnostic (flight : FlightId) (diagnostic : TaskDiagnostic) :
    TaskCoordinator × Except CoordinatorError Unit :=
  match coordinator.flights[flight]? with
  | none => (coordinator, .error (.unknownFlight flight))
  | some record => (coordinator.pushDiagnostics record.subscribers [diagnostic], .ok ())

def cancelTask (task : TaskId) (reason : CancellationReason) :
    TaskCoordinator × Except CoordinatorError Bool :=
  match coordinator.tasks[task]? with
  | none => (coordinator, .error (.unknownTask task))
  | some _ =>
    let marked := coordinator.markCancelling task reason
    (marked.1.cancelUnobservedFlights, .ok marked.2)

def cancelOwner (owner : OwnerScope) : TaskCoordinator × Nat :=
  let tasks := coordinator.selectTasks fun _ task => task.spec.owner = owner
  let changed := tasks.countP fun id => coordinator.tasks[id]?.any TaskSnapshot.isEligible
  ((coordinator.markAll tasks .requested).cancelUnobservedFlights, changed)

def rejection (task : TaskSnapshot) (now : TaskInstant) :
    Option CompletionRejectionReason :=
  match coordinator.sessions task.spec.owner.scope.session with
  | none => some .sessionClosed
  | some current =>
    if current ≠ task.spec.generation then some (.staleGeneration task.spec.generation current)
    else if elapsed task.spec.deadline now then some .deadlineExceeded
    else
      match task.state with
      | .cancelling reason => some (.cancelled reason)
      | _ => none

def receipt (id : TaskId) (flight : FlightId) (task : TaskSnapshot) (outcome : CompletionOutcome) (now : TaskInstant) :
    CompletionReceipt where
  task := id
  flight := flight
  owner := task.spec.owner
  capturedGeneration := task.spec.generation
  recipe := task.spec.recipe
  resource := task.spec.resource
  deadline := task.spec.deadline
  completedAt := now
  outcome := outcome

def gate (coordinator : TaskCoordinator) (flight : FlightId) (outcome : CompletionOutcome) (now : TaskInstant) :
    List TaskId → CompletionBatch
  | [] => ⟨[], []⟩
  | id :: more =>
    let batch := coordinator.gate flight outcome now more
    match coordinator.tasks[id]? with
    | none => batch
    | some task =>
      match coordinator.rejection task now with
      | none => { batch with accepted := receipt id flight task outcome now :: batch.accepted }
      | some reason => { batch with rejected := ⟨receipt id flight task outcome now, reason⟩ :: batch.rejected }

def finish (coordinator : TaskCoordinator) (flight : FlightId) (outcome : CompletionOutcome) (batch : CompletionBatch) :
    TaskCoordinator :=
  let accepted := (batch.accepted.map CompletionReceipt.task).foldl
    (fun coordinator id => coordinator.retireTask id outcome.state) coordinator
  let rejected := (batch.rejected.map fun rejected => rejected.receipt.task).foldl
    (fun coordinator id => coordinator.retireTask id .rejected) accepted
  rejected.removeFlight flight

def complete (coordinator : TaskCoordinator) (flight : FlightId) (report : CompletionReport) (now : TaskInstant) :
    TaskCoordinator × Except (Stop CoordinatorError) CompletionBatch :=
  match coordinator.expire now with
  | none => (coordinator, .error .panic)
  | some expired =>
    match expired.flights[flight]? with
    | none => (expired, .error (.error (.unknownFlight flight)))
    | some record =>
      if record.state = .running then
        let diagnosed := expired.pushDiagnostics record.subscribers report.diagnostics
        let batch := diagnosed.gate flight report.outcome now record.subscribers
        (diagnosed.finish flight report.outcome batch, .ok batch)
      else (expired, .error (.error (.flightNotRunning flight)))

def validateForPublication (coordinator : TaskCoordinator) (receipt : CompletionReceipt) (now : TaskInstant) :
    Except CompletionRejectionReason Unit :=
  match coordinator.sessions receipt.owner.scope.session with
  | none => .error .sessionClosed
  | some current => do
    ensure (current = receipt.capturedGeneration) (.staleGeneration receipt.capturedGeneration current)
    ensure (elapsed receipt.deadline now = false) .deadlineExceeded

end TaskCoordinator

end Audec.Tasks

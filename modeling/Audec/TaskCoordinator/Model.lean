import Audec.Lib.Machine
import Audec.Lib.Checked

/-! Admission and publication control for background work: tasks, the flights they subscribe to, and the indexes
    between them. -/

open Machine Checked
open Std (ExtTreeMap)

namespace Audec.Tasks

abbrev TaskId := U64
abbrev FlightId := U64
abbrev SessionId := Fin 0x100000000000000000000000000000000
abbrev SessionGeneration := U64
abbrev PaneId := U64
abbrev TaskOwner := U64

/-- Caller-supplied monotonic time. -/
abbrev TaskInstant := U64
abbrev TaskDeadline := TaskInstant

inductive PaneScope where
  | session
  | pane (pane : PaneId)
  deriving DecidableEq

structure TaskScope where
  session : SessionId
  pane : PaneScope
  deriving DecidableEq

structure OwnerScope where
  owner : TaskOwner
  scope : TaskScope
  deriving DecidableEq

/-- Exact identity of a pure computation. -/
structure CanonicalRecipeKey where
  domain : String
  schemaRevision : U32
  digest : Vector (Fin 0x100) 32
  deriving DecidableEq

inductive ResourceClass where
  | control | io | cpu | render | modelWorker | pluginWorker | gpu
  | custom (code : Fin 0x10000)
  deriving DecidableEq

inductive TaskPriority where
  | maintenance | background | foreground | interactive

/-- Its place in the derived order. -/
def TaskPriority.rank : TaskPriority → Nat
  | .maintenance => 0
  | .background => 1
  | .foreground => 2
  | .interactive => 3

structure TaskSpec where
  owner : OwnerScope
  generation : SessionGeneration
  recipe : CanonicalRecipeKey
  resource : ResourceClass
  priority : TaskPriority
  deadline : Option TaskDeadline

structure CoordinatorConfig where
  maximumActiveTasks : Nat
  maximumQueuedFlights : Nat
  maximumSubscribersPerFlight : Nat
  maximumDiagnosticsPerTask : Nat
  maximumTerminalSnapshots : Nat
  resourceLimits : List (ResourceClass × Nat)

inductive ConfigError where
  | zeroLimit (name : String)
  | zeroResourceLimit

namespace CoordinatorConfig

def validate (config : CoordinatorConfig) : Except ConfigError Unit := do
  ensure (config.maximumActiveTasks ≠ 0) (.zeroLimit "maximum_active_tasks")
  ensure (config.maximumQueuedFlights ≠ 0) (.zeroLimit "maximum_queued_flights")
  ensure (config.maximumSubscribersPerFlight ≠ 0) (.zeroLimit "maximum_subscribers_per_flight")
  ensure (config.maximumDiagnosticsPerTask ≠ 0) (.zeroLimit "maximum_diagnostics_per_task")
  ensure (config.maximumTerminalSnapshots ≠ 0) (.zeroLimit "maximum_terminal_snapshots")
  ensure (∀ entry ∈ config.resourceLimits, entry.2 ≠ 0) .zeroResourceLimit

def resourceLimit (config : CoordinatorConfig) (resource : ResourceClass) : Option Nat :=
  config.resourceLimits.lookup resource

end CoordinatorConfig

structure TaskProgress where
  phase : String
  phaseIndex : Fin 0x10000
  phaseCount : Fin 0x10000
  completedUnits : U64
  totalUnits : U64

inductive ProgressError where
  | emptyPhase | invalidPhaseIndex | invalidUnits | regression

namespace TaskProgress

def validate (progress : TaskProgress) : Except ProgressError Unit := do
  ensure (Unicode.isBlank progress.phase = false) .emptyPhase
  ensure (progress.phaseCount ≠ 0 ∧ progress.phaseIndex < progress.phaseCount) .invalidPhaseIndex
  ensure (progress.totalUnits ≠ 0 ∧ progress.completedUnits ≤ progress.totalUnits) .invalidUnits

def follows (progress previous : TaskProgress) : Prop :=
  previous.phaseIndex < progress.phaseIndex ∨
    (progress.phaseIndex = previous.phaseIndex ∧ progress.phase = previous.phase ∧
      progress.phaseCount = previous.phaseCount ∧ progress.totalUnits = previous.totalUnits ∧
      previous.completedUnits ≤ progress.completedUnits)

instance followsDecidable (progress previous : TaskProgress) : Decidable (progress.follows previous) :=
  inferInstanceAs (Decidable (_ ∨ _))

end TaskProgress

inductive DiagnosticSeverity where
  | info | warning | error

structure TaskDiagnostic where
  severity : DiagnosticSeverity
  code : String
  detail : String

inductive CancellationReason where
  | requested | superseded | sessionAdvanced | deadlineExceeded

inductive TaskState where
  | queued | running
  | cancelling (reason : CancellationReason)
  | succeeded | failed | cancelled | rejected

structure TaskSnapshot where
  id : TaskId
  flight : FlightId
  spec : TaskSpec
  state : TaskState
  progress : Option TaskProgress
  diagnostics : List TaskDiagnostic
  droppedDiagnostics : U64

structure Submission where
  task : TaskId
  flight : FlightId
  joinedExistingFlight : Bool
  deriving DecidableEq

/-- The handoff to an executor. Its cancellation flag is the flight's. -/
structure TaskDispatch where
  flight : FlightId
  representativeTask : TaskId
  recipe : CanonicalRecipeKey
  resource : ResourceClass

inductive CompletionOutcome where
  | succeeded (output : Option CanonicalRecipeKey)
  | failed (code detail : String)
  | cancelled

def CompletionOutcome.state : CompletionOutcome → TaskState
  | .succeeded _ => .succeeded
  | .failed _ _ => .failed
  | .cancelled => .cancelled

structure CompletionReport where
  outcome : CompletionOutcome
  diagnostics : List TaskDiagnostic

structure CompletionReceipt where
  task : TaskId
  flight : FlightId
  owner : OwnerScope
  capturedGeneration : SessionGeneration
  recipe : CanonicalRecipeKey
  resource : ResourceClass
  deadline : Option TaskDeadline
  completedAt : TaskInstant
  outcome : CompletionOutcome

inductive CompletionRejectionReason where
  | cancelled (reason : CancellationReason)
  | staleGeneration (captured current : SessionGeneration)
  | sessionClosed
  | deadlineExceeded

structure RejectedCompletion where
  receipt : CompletionReceipt
  reason : CompletionRejectionReason

structure CompletionBatch where
  accepted : List CompletionReceipt
  rejected : List RejectedCompletion

inductive AdmissionError where
  | unknownSession (session : SessionId)
  | staleSubmission (submitted current : SessionGeneration)
  | activeTaskLimit
  | queuedFlightLimit
  | subscriberLimit (flight : FlightId)
  | resourceUnavailable (resource : ResourceClass)
  | flightCancelling (flight : FlightId)
  | deadlineAlreadyElapsed

inductive CoordinatorError where
  | unknownTask (task : TaskId)
  | unknownFlight (flight : FlightId)
  | flightNotRunning (flight : FlightId)
  | progress (error : ProgressError)
  | sessionGenerationRegression (session : SessionId) (previous proposed : SessionGeneration)

structure SingleFlightKey where
  resource : ResourceClass
  recipe : CanonicalRecipeKey
  deriving DecidableEq

def TaskSpec.key (spec : TaskSpec) : SingleFlightKey := ⟨spec.resource, spec.recipe⟩

inductive FlightState where
  | queued | running
  deriving DecidableEq

/-- One physical computation; `cancelled` is the flag its executor shares. -/
structure FlightRecord where
  id : FlightId
  key : SingleFlightKey
  state : FlightState
  submittedAt : TaskInstant
  subscribers : List TaskId
  cancelled : Bool

def TaskSnapshot.isEligible (task : TaskSnapshot) : Bool :=
  match task.state with
  | .cancelling _ => false
  | _ => true

abbrev TaskTable := ExtTreeMap TaskId TaskSnapshot
abbrev FlightTable := ExtTreeMap FlightId FlightRecord

/-- Bounded task state. The maps that are only ever asked by key are functions; an absent count is zero. -/
structure TaskCoordinator where
  config : CoordinatorConfig
  nextTask : U64
  nextFlight : U64
  sessions : SessionId → Option SessionGeneration
  tasks : TaskTable
  flights : FlightTable
  singleFlights : SingleFlightKey → Option FlightId
  runningByResource : ResourceClass → Nat
  terminal : List TaskSnapshot

end Audec.Tasks

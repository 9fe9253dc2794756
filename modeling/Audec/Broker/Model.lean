import Audec.Lib.Machine
import Audec.Lib.ByteReader

/-! The analysis-worker broker: jobs, their demands, and the operations that move them. -/

open Machine Checked Entries
open Std (ExtTreeMap ExtTreeSet)

namespace Audec.Broker

abbrev U16 := Fin 0x10000

abbrev BrokerTick := U64

variable {bound : Nat}

def saturatingAdd {bound : Nat} [NeZero bound] (a b : Fin bound) : Fin bound := Fin.ofNat _ (min (a.val + b.val) (bound - 1))

def saturatingSub {bound : Nat} [NeZero bound] (a b : Fin bound) : Fin bound := Fin.ofNat _ (a.val - b.val)

theorem saturatingSub_val [NeZero bound] (a b : Fin bound) : (saturatingSub a b).val = a.val - b.val :=
  Nat.mod_eq_of_lt (lt_of_le_of_lt (Nat.sub_le _ _) a.isLt)

def checkedAdd {bound : Nat} (a b : Fin bound) : Option (Fin bound) :=
  if fits : a.val + b.val < bound then some ⟨a.val + b.val, fits⟩ else none

def elapsedSince (now earlier : BrokerTick) : U64 := saturatingSub now earlier

instance nanosNeZero : NeZero 1000000000 := ⟨by decide⟩

structure Duration where
  secs : U64
  nanos : Fin 1000000000

def Duration.isZero (duration : Duration) : Bool := duration.secs = 0 && duration.nanos = 0

/-- Whole milliseconds, at most those of the word. -/
def durationMillis (duration : Duration) : U64 :=
  Fin.ofNat _ (min (duration.secs.val * 1000 + duration.nanos.val / 1000000) 0xffffffffffffffff)

structure WorkerDeadlines where
  startup : Duration
  request : Duration
  heartbeat : Duration
  progress : Duration
  cancelGrace : Duration
  killGrace : Duration

structure WorkerOutputPolicy where
  maximumControlLineBytes : Nat
  maximumBufferedControlRecords : Nat
  maximumLogTailBytes : Nat
  maximumArtifacts : Nat
  maximumArtifactBytes : U64
  maximumTotalOutputBytes : U64
  maximumMeasurements : Nat

structure RuntimePolicy where
  deadlines : WorkerDeadlines
  output : WorkerOutputPolicy

inductive BrokerConfigError where
  | zeroDeadline | zeroOutputLimit | artifactExceedsTotalOutput | invalidCapacity | invalidAgingWindow

def WorkerDeadlines.validate (deadlines : WorkerDeadlines) : Except BrokerConfigError Unit :=
  ensure ([deadlines.startup, deadlines.request, deadlines.heartbeat, deadlines.progress, deadlines.cancelGrace, deadlines.killGrace].any
    Duration.isZero = false) .zeroDeadline

def WorkerOutputPolicy.validate (output : WorkerOutputPolicy) : Except BrokerConfigError Unit := do
  ensure (output.maximumControlLineBytes ≠ 0 ∧ output.maximumBufferedControlRecords ≠ 0 ∧ output.maximumLogTailBytes ≠ 0 ∧
    output.maximumArtifacts ≠ 0 ∧ output.maximumArtifactBytes ≠ 0 ∧ output.maximumTotalOutputBytes ≠ 0 ∧ output.maximumMeasurements ≠ 0)
    .zeroOutputLimit
  ensure (output.maximumArtifactBytes ≤ output.maximumTotalOutputBytes) .artifactExceedsTotalOutput

def RuntimePolicy.validate (policy : RuntimePolicy) : Except BrokerConfigError Unit := do
  policy.deadlines.validate
  policy.output.validate

structure JobIdentity where
  jobId : String
  generation : U64
  cacheKey : String
  manifestSha256 : String
  deriving DecidableEq

inductive JobPriority where
  | background | userInitiated | interactive
  deriving DecidableEq

def JobPriority.rank : JobPriority → U64
  | .background => 0
  | .userInitiated => 1
  | .interactive => 2

structure ResourceDemand where
  cpuSlots : U16
  memoryBytes : U64
  scratchBytes : U64
  expectedOutputBytes : U64
  accelerator : Option String
  deriving DecidableEq

structure BrokerCapacity where
  cpuSlots : U16
  memoryBytes : U64
  scratchBytes : U64
  workerSlots : U16
  accelerators : ExtTreeMap String U16
  realtimeCpuReserve : U16
  realtimeMemoryReserve : U64
  renderCpuReserve : U16
  renderMemoryReserve : U64

def BrokerCapacity.validate (capacity : BrokerCapacity) : Except BrokerConfigError Unit :=
  ensure (capacity.cpuSlots ≠ 0 ∧ capacity.memoryBytes ≠ 0 ∧ capacity.scratchBytes ≠ 0 ∧ capacity.workerSlots ≠ 0 ∧
    saturatingAdd capacity.realtimeCpuReserve capacity.renderCpuReserve ≤ capacity.cpuSlots ∧
    saturatingAdd capacity.realtimeMemoryReserve capacity.renderMemoryReserve ≤ capacity.memoryBytes ∧
    (values capacity.accelerators).any (fun slots => slots = 0) = false) .invalidCapacity

structure ForegroundPressure where
  realtimeAudioActive : Bool
  renderWorkPending : Bool

structure JobTicket where
  identity : JobIdentity
  priority : JobPriority
  demand : ResourceDemand
  deriving DecidableEq

inductive SubmissionRefusal where
  | invalidIdentity | duplicateOrOldGeneration | generationAlreadyActive | impossibleResourceDemand | outputBudgetExceeded

inductive CancellationReason where
  | user | superseded | foregroundPressure | startupDeadline | heartbeatDeadline | progressDeadline | invalidOutput
  deriving DecidableEq

inductive EscalationState where
  | starting | running
  | cancelRequested (reason : CancellationReason)
  | killRequested (reason : CancellationReason)
  deriving DecidableEq

inductive BrokerAction where
  | start (ticket : JobTicket)
  | sendCancel (identity : JobIdentity) (reason : CancellationReason)
  | kill (identity : JobIdentity) (reason : CancellationReason)
  | declareUnresponsive (identity : JobIdentity) (reason : CancellationReason)
  deriving DecidableEq

structure ProgressPoint where
  phase : U16
  completed : U64
  total : U64

inductive ObservationRefusal where
  | unknownOrStaleJob | invalidState | regressingProgress

inductive CompletionRefusal where
  | unknownJob
  | staleGeneration (latest received : U64)
  | identityMismatch | cancelledOrKilling
  | totalTooLarge (declared maximum : U64)

structure OutputSummary where
  artifactCount : Nat
  measurementCount : Nat
  totalBytes : U64

structure CompletionAttempt where
  identity : JobIdentity
  resultSha256 : String
  output : OutputSummary

structure CompletionReceipt where
  identity : JobIdentity
  resultSha256 : String
  output : OutputSummary
  completedAt : BrokerTick
  receiptSequence : U64

structure QueuedJob where
  ticket : JobTicket
  enqueuedAt : BrokerTick
  sequence : U64

structure ActiveJob where
  ticket : JobTicket
  admittedAt : BrokerTick
  lastHeartbeat : BrokerTick
  lastProgress : BrokerTick
  progress : Option ProgressPoint
  escalationAt : Option BrokerTick
  state : EscalationState

structure ResourceUsage where
  cpuSlots : U16
  memoryBytes : U64
  scratchBytes : U64
  accelerators : ExtTreeMap String U16

structure DeadlineMillis where
  startup : U64
  heartbeat : U64
  progress : U64
  cancel : U64
  kill : U64

namespace JobIdentity

/-- Field by field, as the derived order compares. -/
def code (identity : JobIdentity) : List Int :=
  Codes.textCode identity.jobId ++ ((identity.generation.val : Int) :: (Codes.textCode identity.cacheKey ++ Codes.textCode identity.manifestSha256))

theorem code_injective : Function.Injective code := by
  rintro ⟨jobId, generation, cacheKey, manifest⟩ ⟨jobId', generation', cacheKey', manifest'⟩ same
  obtain ⟨rfl, rest⟩ := Codes.textCode_delimited _ _ _ _ same
  obtain ⟨generations, rest⟩ := List.cons.inj rest
  obtain ⟨rfl, rest⟩ := Codes.textCode_delimited _ _ _ _ rest
  obtain rfl : generation = generation' := Codes.val_injective generations
  obtain rfl : manifest = manifest' := Codes.textCode_delimited.injective rest
  rfl

instance linearOrder : LinearOrder JobIdentity := Codes.codedOrder code code_injective

end JobIdentity

structure WorkerBroker where
  capacity : BrokerCapacity
  deadlinesMillis : DeadlineMillis
  maximumOutputBytes : U64
  agingWindowMillis : U64
  queued : List QueuedJob
  active : ExtTreeMap JobIdentity ActiveJob
  latestGeneration : ExtTreeMap String U64
  completed : ExtTreeMap JobIdentity CompletionReceipt
  terminalWithoutReceipt : ExtTreeSet JobIdentity
  nextSequence : U64
  nextReceiptSequence : U64

def validHash (value : String) : Bool :=
  value.utf8ByteSize = 64 && value.toList.all fun c => c.isDigit || ('a' ≤ c && c ≤ 'f')

def validLabel (value : String) : Bool :=
  value ≠ "" && value.utf8ByteSize ≤ 160 && value.toList.all fun c => !Unicode.isWhitespace c && c ≠ '/' && c ≠ '\\' && c ≠ '\x00'

namespace WorkerBroker

def new (capacity : BrokerCapacity) (policy : RuntimePolicy) (agingWindow : Duration) : Except BrokerConfigError WorkerBroker := do
  capacity.validate
  policy.validate
  ensure (durationMillis agingWindow ≠ 0) .invalidAgingWindow
  return {
    capacity
    deadlinesMillis := {
      startup := durationMillis policy.deadlines.startup
      heartbeat := durationMillis policy.deadlines.heartbeat
      progress := durationMillis policy.deadlines.progress
      cancel := durationMillis policy.deadlines.cancelGrace
      kill := durationMillis policy.deadlines.killGrace }
    maximumOutputBytes := policy.output.maximumTotalOutputBytes
    agingWindowMillis := durationMillis agingWindow
    queued := []
    active := ∅
    latestGeneration := ∅
    completed := ∅
    terminalWithoutReceipt := ∅
    nextSequence := 0
    nextReceiptSequence := 0 }

variable (broker : WorkerBroker)

def Possible (broker : WorkerBroker) (demand : ResourceDemand) : Prop :=
  demand.cpuSlots ≠ 0 ∧ demand.memoryBytes ≠ 0 ∧ demand.scratchBytes ≠ 0 ∧ demand.cpuSlots ≤ broker.capacity.cpuSlots ∧
    demand.memoryBytes ≤ broker.capacity.memoryBytes ∧ demand.scratchBytes ≤ broker.capacity.scratchBytes ∧
    ∀ accelerator ∈ demand.accelerator, accelerator ∈ broker.capacity.accelerators

instance (broker : WorkerBroker) (demand : ResourceDemand) : Decidable (broker.Possible demand) := by unfold Possible; infer_instance

def checkGeneration (broker : WorkerBroker) (identity : JobIdentity) : Except SubmissionRefusal Unit :=
  match broker.latestGeneration[identity.jobId]? with
  | none => .ok ()
  | some latest => do
    ensure (latest < identity.generation) .duplicateOrOldGeneration
    ensure ((∀ other ∈ broker.active.keys, other.jobId ≠ identity.jobId) ∧ ∀ job ∈ broker.queued, job.ticket.identity.jobId ≠ identity.jobId)
      .generationAlreadyActive

def submit (broker : WorkerBroker) (ticket : JobTicket) (now : BrokerTick) : Except SubmissionRefusal WorkerBroker := do
  ensure (validLabel ticket.identity.jobId = true ∧ validHash ticket.identity.cacheKey = true ∧
    validHash ticket.identity.manifestSha256 = true) .invalidIdentity
  ensure (broker.Possible ticket.demand) .impossibleResourceDemand
  ensure (ticket.demand.expectedOutputBytes ≤ broker.maximumOutputBytes) .outputBudgetExceeded
  broker.checkGeneration ticket.identity
  return { broker with
    latestGeneration := broker.latestGeneration.insert ticket.identity.jobId ticket.identity.generation
    queued := broker.queued ++ [⟨ticket, now, broker.nextSequence⟩]
    nextSequence := saturatingAdd broker.nextSequence 1 }

/-- A demand is left out whole where a sum overflows. -/
def checkedAddTo (demand : ResourceDemand) (usage : ResourceUsage) : Option ResourceUsage := do
  let cpuSlots ← checkedAdd usage.cpuSlots demand.cpuSlots
  let memoryBytes ← checkedAdd usage.memoryBytes demand.memoryBytes
  let scratchBytes ← checkedAdd usage.scratchBytes demand.scratchBytes
  let accelerators := match demand.accelerator with
    | none => usage.accelerators
    | some accelerator => usage.accelerators.insert accelerator (Fin.ofNat _ (((usage.accelerators[accelerator]?).getD 0).val + 1))
  return { cpuSlots, memoryBytes, scratchBytes, accelerators }

def resourceUsage (broker : WorkerBroker) : ResourceUsage :=
  (values broker.active).foldl (fun usage job => (checkedAddTo job.ticket.demand usage).getD usage) ⟨0, 0, 0, ∅⟩

def cpuReserve (capacity : BrokerCapacity) (pressure : ForegroundPressure) : U16 :=
  saturatingAdd (if pressure.realtimeAudioActive then capacity.realtimeCpuReserve else 0)
    (if pressure.renderWorkPending then capacity.renderCpuReserve else 0)

def memoryReserve (capacity : BrokerCapacity) (pressure : ForegroundPressure) : U64 :=
  saturatingAdd (if pressure.realtimeAudioActive then capacity.realtimeMemoryReserve else 0)
    (if pressure.renderWorkPending then capacity.renderMemoryReserve else 0)

def fits (demand : ResourceDemand) (usage : ResourceUsage) (pressure : ForegroundPressure) : Bool :=
  broker.active.size < broker.capacity.workerSlots.val &&
    saturatingAdd usage.cpuSlots demand.cpuSlots ≤ saturatingSub broker.capacity.cpuSlots (cpuReserve broker.capacity pressure) &&
    saturatingAdd usage.memoryBytes demand.memoryBytes ≤ saturatingSub broker.capacity.memoryBytes (memoryReserve broker.capacity pressure) &&
    saturatingAdd usage.scratchBytes demand.scratchBytes ≤ broker.capacity.scratchBytes &&
    demand.accelerator.all fun accelerator =>
      usage.accelerators[accelerator]?.getD 0 < broker.capacity.accelerators[accelerator]?.getD 0

def score (now : BrokerTick) (job : QueuedJob) : U64 :=
  saturatingAdd job.ticket.priority.rank (elapsedSince now job.enqueuedAt / broker.agingWindowMillis)

def Precedes (now : BrokerTick) (left right : QueuedJob) : Prop :=
  broker.score now right < broker.score now left ∨ broker.score now left = broker.score now right ∧ left.sequence ≤ right.sequence

instance (broker : WorkerBroker) (now : BrokerTick) (left right : QueuedJob) : Decidable (broker.Precedes now left right) :=
  inferInstanceAs (Decidable (_ ∨ _))

/-- The fitting jobs by their place in the queue, in the order of admission. -/
def candidates (broker : WorkerBroker) (now : BrokerTick) (pressure : ForegroundPressure) : List (Fin broker.queued.length) :=
  ((List.finRange broker.queued.length).filter fun index =>
    broker.fits (broker.queued.get index).ticket.demand broker.resourceUsage pressure).insertionSort
      fun left right => broker.Precedes now (broker.queued.get left) (broker.queued.get right)

def admission (broker : WorkerBroker) (now : BrokerTick) (index : Fin broker.queued.length) : WorkerBroker :=
  { broker with
    queued := broker.queued.eraseIdx index
    active := broker.active.insert (broker.queued.get index).ticket.identity
      ⟨(broker.queued.get index).ticket, now, now, now, none, none, .starting⟩ }

def scheduleLoop (now : BrokerTick) (pressure : ForegroundPressure) : Nat → WorkerBroker → WorkerBroker × List BrokerAction
  | 0, broker => (broker, [])
  | fuel + 1, broker =>
    match (broker.candidates now pressure).head? with
    | none => (broker, [])
    | some index =>
      let (after, actions) := scheduleLoop now pressure fuel (broker.admission now index)
      (after, .start (broker.queued.get index).ticket :: actions)

/-- Every round takes a job from the queue, so that there are no more rounds than jobs. -/
def schedule (broker : WorkerBroker) (now : BrokerTick) (pressure : ForegroundPressure) : WorkerBroker × List BrokerAction :=
  scheduleLoop now pressure broker.queued.length broker

def escalate (job : ActiveJob) (now : BrokerTick) (state : EscalationState) : ActiveJob := { job with state, escalationAt := some now }

def ending (identity : JobIdentity) (job : ActiveJob) (now : BrokerTick) (reason : CancellationReason) : Option (ActiveJob × BrokerAction) :=
  match job.state with
  | .starting => some (escalate job now (.killRequested reason), .kill identity reason)
  | .running => some (escalate job now (.cancelRequested reason), .sendCancel identity reason)
  | .cancelRequested _ | .killRequested _ => none

def isUnderway (job : ActiveJob) : Bool := job.state = .starting || job.state = .running

def Yields (left right : JobIdentity × ActiveJob) : Prop :=
  left.2.ticket.priority.rank < right.2.ticket.priority.rank ∨ left.2.ticket.priority = right.2.ticket.priority ∧
    (right.2.admittedAt < left.2.admittedAt ∨ right.2.admittedAt = left.2.admittedAt ∧ left.1 ≤ right.1)

instance (left right : JobIdentity × ActiveJob) : Decidable (Yields left right) := inferInstanceAs (Decidable (_ ∨ _ ∧ (_ ∨ _)))

def reclaim (now : BrokerTick) (maximumCpu : U16) (maximumMemory : U64) :
    List (JobIdentity × ActiveJob) → U16 → U64 → WorkerBroker → WorkerBroker × List BrokerAction
  | [], _, _, broker => (broker, [])
  | (identity, job) :: others, cpuSlots, memoryBytes, broker =>
    if cpuSlots ≤ maximumCpu ∧ memoryBytes ≤ maximumMemory then (broker, [])
    else
      let cpuSlots := saturatingSub cpuSlots job.ticket.demand.cpuSlots
      let memoryBytes := saturatingSub memoryBytes job.ticket.demand.memoryBytes
      match ending identity job now .foregroundPressure with
      | none => reclaim now maximumCpu maximumMemory others cpuSlots memoryBytes
          { broker with active := broker.active.insert identity { job with escalationAt := some now } }
      | some (ended, action) =>
        let (after, actions) := reclaim now maximumCpu maximumMemory others cpuSlots memoryBytes
          { broker with active := broker.active.insert identity ended }
        (after, action :: actions)

def protectForeground (now : BrokerTick) (pressure : ForegroundPressure) : WorkerBroker × List BrokerAction :=
  reclaim now (saturatingSub broker.capacity.cpuSlots (cpuReserve broker.capacity pressure))
    (saturatingSub broker.capacity.memoryBytes (memoryReserve broker.capacity pressure))
    ((broker.active.toList.filter fun entry => isUnderway entry.2).insertionSort Yields)
    broker.resourceUsage.cpuSlots broker.resourceUsage.memoryBytes broker

def findActive (identity : JobIdentity) : Except ObservationRefusal ActiveJob :=
  broker.active[identity]?.elim (.error .unknownOrStaleJob) .ok

def findRunning (identity : JobIdentity) : Except ObservationRefusal ActiveJob := do
  let job ← broker.findActive identity
  ensure (job.state = .running) .invalidState
  return job

def putActive (broker : WorkerBroker) (identity : JobIdentity) (job : ActiveJob) : WorkerBroker :=
  { broker with active := broker.active.insert identity job }

def observeStarted (broker : WorkerBroker) (identity : JobIdentity) (now : BrokerTick) : Except ObservationRefusal WorkerBroker := do
  let job ← broker.findActive identity
  ensure (job.state = .starting) .invalidState
  return broker.putActive identity { job with state := .running, lastHeartbeat := now, lastProgress := now }

def observeHeartbeat (broker : WorkerBroker) (identity : JobIdentity) (now : BrokerTick) : Except ObservationRefusal WorkerBroker := do
  let job ← broker.findRunning identity
  return broker.putActive identity { job with lastHeartbeat := now }

/-- Progress that does not follow what was reported before. -/
def regresses (progress previous : ProgressPoint) : Bool :=
  progress.phase < previous.phase ||
    progress.phase = previous.phase && (progress.total ≠ previous.total || progress.completed < previous.completed)

section

variable (identity : JobIdentity)

def observeProgress (now : BrokerTick) (progress : ProgressPoint) :
    Except ObservationRefusal WorkerBroker := do
  ensure (progress.total ≠ 0 ∧ progress.completed ≤ progress.total) .regressingProgress
  let job ← broker.findRunning identity
  ensure (job.progress.all (fun previous => !regresses progress previous) = true) .regressingProgress
  return broker.putActive identity { job with progress := some progress, lastProgress := now, lastHeartbeat := now }

def requestCancel (now : BrokerTick) (reason : CancellationReason) :
    Except ObservationRefusal (WorkerBroker × Option BrokerAction) :=
  match broker.queued.findIdx? (fun job => job.ticket.identity = identity) with
  | some index => .ok ({ broker with
      queued := broker.queued.eraseIdx index
      terminalWithoutReceipt := broker.terminalWithoutReceipt.insert identity }, none)
  | none => do
    let job ← broker.findActive identity
    match ending identity job now reason with
    | none => return (broker, none)
    | some (ended, action) => return (broker.putActive identity ended, some action)

def acknowledgeTerminal : Except ObservationRefusal WorkerBroker := do
  let job ← broker.findActive identity
  return { broker with
    active := broker.active.erase identity
    terminalWithoutReceipt := broker.terminalWithoutReceipt.insert job.ticket.identity }

end

def due (deadlines : DeadlineMillis) (now : BrokerTick) (identity : JobIdentity) (job : ActiveJob) : Option (ActiveJob × BrokerAction) :=
  match job.state with
  | .starting =>
    if deadlines.startup ≤ elapsedSince now job.admittedAt then
      some (escalate job now (.killRequested .startupDeadline), .kill identity .startupDeadline)
    else none
  | .running =>
    if deadlines.heartbeat ≤ elapsedSince now job.lastHeartbeat then
      some (escalate job now (.cancelRequested .heartbeatDeadline), .sendCancel identity .heartbeatDeadline)
    else if deadlines.progress ≤ elapsedSince now job.lastProgress then
      some (escalate job now (.cancelRequested .progressDeadline), .sendCancel identity .progressDeadline)
    else none
  | .cancelRequested reason =>
    if deadlines.cancel ≤ elapsedSince now (job.escalationAt.getD now) then
      some (escalate job now (.killRequested reason), .kill identity reason)
    else none
  | .killRequested reason =>
    if deadlines.kill ≤ elapsedSince now (job.escalationAt.getD now) then
      some (escalate job now (.killRequested reason), .declareUnresponsive identity reason)
    else none

def tick (broker : WorkerBroker) (now : BrokerTick) : WorkerBroker × List BrokerAction :=
  ({ broker with active := broker.active.map fun identity job => ((due broker.deadlinesMillis now identity job).map Prod.fst).getD job },
    broker.active.toList.filterMap fun entry => (due broker.deadlinesMillis now entry.1 entry.2).map Prod.snd)

def checkLatest (broker : WorkerBroker) (identity : JobIdentity) : Except CompletionRefusal Unit :=
  match broker.latestGeneration[identity.jobId]? with
  | none => .error .unknownJob
  | some latest => ensure (identity.generation = latest) (.staleGeneration latest identity.generation)

def completing (broker : WorkerBroker) (identity : JobIdentity) : Except CompletionRefusal ActiveJob :=
  match broker.active[identity]? with
  | some job => .ok job
  | none => if broker.active.keys.any (fun other => other.jobId = identity.jobId) then .error .identityMismatch else .error .unknownJob

def acceptCompletion (broker : WorkerBroker) (attempt : CompletionAttempt) (now : BrokerTick) :
    Except CompletionRefusal (WorkerBroker × CompletionReceipt) := do
  broker.checkLatest attempt.identity
  let job ← broker.completing attempt.identity
  ensure (job.state = .running) .cancelledOrKilling
  ensure (attempt.output.totalBytes ≤ job.ticket.demand.expectedOutputBytes ∧ attempt.output.totalBytes ≤ broker.maximumOutputBytes)
    (.totalTooLarge attempt.output.totalBytes (min job.ticket.demand.expectedOutputBytes broker.maximumOutputBytes))
  ensure (validHash attempt.resultSha256 = true) .identityMismatch
  let receipt : CompletionReceipt :=
    ⟨attempt.identity, attempt.resultSha256, attempt.output, now, broker.nextReceiptSequence⟩
  return ({ broker with
    active := broker.active.erase attempt.identity
    nextReceiptSequence := saturatingAdd broker.nextReceiptSequence 1
    completed := broker.completed.insert attempt.identity receipt }, receipt)

inductive Action where
  | submit (ticket : JobTicket) (now : BrokerTick)
  | schedule (now : BrokerTick) (pressure : ForegroundPressure)
  | protectForeground (now : BrokerTick) (pressure : ForegroundPressure)
  | observeStarted (identity : JobIdentity) (now : BrokerTick)
  | observeHeartbeat (identity : JobIdentity) (now : BrokerTick)
  | observeProgress (identity : JobIdentity) (now : BrokerTick) (progress : ProgressPoint)
  | requestCancel (identity : JobIdentity) (now : BrokerTick) (reason : CancellationReason)
  | acknowledgeTerminal (identity : JobIdentity)
  | tick (now : BrokerTick)
  | acceptCompletion (attempt : CompletionAttempt) (now : BrokerTick)

/-- A refused operation changes nothing. -/
def orKeep {ε α : Type} (broker : WorkerBroker) (after : α → WorkerBroker) : Except ε α → WorkerBroker
  | .ok result => after result
  | .error _ => broker

def perform (broker : WorkerBroker) : Action → WorkerBroker
  | .submit ticket now => broker.orKeep id (broker.submit ticket now)
  | .schedule now pressure => (broker.schedule now pressure).1
  | .protectForeground now pressure => (broker.protectForeground now pressure).1
  | .observeStarted identity now => broker.orKeep id (broker.observeStarted identity now)
  | .observeHeartbeat identity now => broker.orKeep id (broker.observeHeartbeat identity now)
  | .observeProgress identity now progress => broker.orKeep id (broker.observeProgress identity now progress)
  | .requestCancel identity now reason => broker.orKeep Prod.fst (broker.requestCancel identity now reason)
  | .acknowledgeTerminal identity => broker.orKeep id (broker.acknowledgeTerminal identity)
  | .tick now => (broker.tick now).1
  | .acceptCompletion attempt now => broker.orKeep Prod.fst (broker.acceptCompletion attempt now)

end WorkerBroker

end Audec.Broker

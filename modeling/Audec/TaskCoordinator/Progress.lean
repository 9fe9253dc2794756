import Audec.TaskCoordinator.Effects
import Audec.TaskCoordinator.Bookkeeping

/-! What a flight reports of its progress: the subscribers it reaches agree, and within as many phases it does not
    run backwards. -/

open Machine Checked Entries Runs List Option Std.ExtTreeMap
open Std (ExtTreeMap)

namespace Audec.Tasks

open TaskCoordinator

namespace TaskProgress

def partsPerMillion (progress : TaskProgress) : Except (Stop Empty) U32 :=
  if progress.totalUnits = 0 ∨ progress.phaseCount = 0 then .error .panic
  else
    let phaseFraction := progress.completedUnits.val * 1000000 / progress.totalUnits.val
    .ok (Fin.ofNat _ ((progress.phaseIndex.val * 1000000 + phaseFraction) / progress.phaseCount.val))

/-- The reports that are recorded. -/
structure Sound (progress : TaskProgress) : Prop where
  phase : progress.phaseIndex.val < progress.phaseCount.val
  units : 0 < progress.totalUnits.val
  completed : progress.completedUnits.val ≤ progress.totalUnits.val

variable {progress : TaskProgress}

theorem validate_sound (valid : progress.validate = .ok ()) : progress.Sound := by
  unfold validate at valid
  simp only [bind_unit_ok, ensure_ok] at valid
  obtain ⟨-, ⟨-, phase⟩, some, completed⟩ := valid
  simp only [ne_eq, Fin.ext_iff, Fin.coe_ofNat_eq_mod] at some
  exact ⟨phase, Nat.pos_of_ne_zero some, completed⟩

def millionths (progress : TaskProgress) : Nat :=
  (progress.phaseIndex.val * 1000000 + progress.completedUnits.val * 1000000 / progress.totalUnits.val) / progress.phaseCount.val

section

variable (sound : progress.Sound)
include sound

theorem Sound.fraction_le :
    progress.completedUnits.val * 1000000 / progress.totalUnits.val ≤ 1000000 :=
  Nat.div_le_of_le_mul (Nat.mul_le_mul_right _ sound.completed)

theorem Sound.millionths_le : progress.millionths ≤ 1000000 := by
  have fraction := sound.fraction_le
  have phase := sound.phase
  refine Nat.div_le_of_le_mul ?_
  have reached : (progress.phaseIndex.val + 1) * 1000000 ≤ progress.phaseCount.val * 1000000 := Nat.mul_le_mul_right _ phase
  omega

theorem Sound.partsPerMillion_eq :
    ∃ parts, progress.partsPerMillion = .ok parts ∧ parts.val = progress.millionths := by
  have bounded := sound.millionths_le
  have defined : ¬ (progress.totalUnits = 0 ∨ progress.phaseCount = 0) := by
    have phase := sound.phase
    have units := sound.units
    simp only [Fin.ext_iff, Fin.coe_ofNat_eq_mod]
    omega
  rw [partsPerMillion, if_neg defined]
  exact ⟨_, rfl, Nat.mod_eq_of_lt (bounded.trans_lt (by decide))⟩

theorem Sound.millionths_mono {previous : TaskProgress} (before : previous.Sound)
    (follows : progress.follows previous) (phases : progress.phaseCount.val ≤ previous.phaseCount.val) :
    previous.millionths ≤ progress.millionths := by
  have positive : 0 < progress.phaseCount.val := by
    have phase := sound.phase
    omega
  rcases follows with later | ⟨index, -, count, total, completed⟩
  · have fraction := before.fraction_le
    have next : (previous.phaseIndex.val + 1) * 1000000 ≤ progress.phaseIndex.val * 1000000 :=
      Nat.mul_le_mul_right _ (Fin.lt_def.mp later)
    have ended : previous.phaseIndex.val * 1000000 + previous.completedUnits.val * 1000000 / previous.totalUnits.val ≤
        (previous.phaseIndex.val + 1) * 1000000 := by
      rw [Nat.succ_mul]
      exact Nat.add_le_add_left fraction _
    exact Nat.div_le_div ((ended.trans next).trans (Nat.le_add_right _ _)) phases positive.ne'
  · unfold millionths
    rw [index, count, total]
    exact Nat.div_le_div_right (Nat.add_le_add_left (Nat.div_le_div_right (Nat.mul_le_mul_right _ completed)) _)

end

end TaskProgress

def KeepsProgress (tasks tasks' : TaskTable) : Prop :=
  ∀ (id : TaskId) (task' : TaskSnapshot), tasks'[id]? = some task' →
    ∃ task : TaskSnapshot, tasks[id]? = some task ∧ task'.progress = task.progress

namespace KeepsProgress

theorem refl (tasks : TaskTable) : KeepsProgress tasks tasks := fun _ task' found => ⟨task', found, rfl⟩

theorem trans {a b d : TaskTable} (first : KeepsProgress a b) (second : KeepsProgress b d) : KeepsProgress a d := by
  intro id task' found
  obtain ⟨middle, held, same⟩ := second id task' found
  obtain ⟨task, before, same'⟩ := first id middle held
  exact ⟨task, before, same.trans same'⟩

theorem foldl {α : Type} {change : TaskTable → α → TaskTable} (step : ∀ tasks item, KeepsProgress tasks (change tasks item))
    (items : List α) (tasks : TaskTable) : KeepsProgress tasks (items.foldl change tasks) := by
  induction items generalizing tasks with
  | nil => exact refl tasks
  | cons item items ih => exact (step tasks item).trans (ih _)

theorem insert {tasks : TaskTable} {id : TaskId} {task task' : TaskSnapshot} (held : tasks[id]? = some task)
    (same : task'.progress = task.progress) : KeepsProgress tasks (tasks.insert id task') := by
  intro other found looked
  rcases held_insert.mp looked with ⟨here, rfl⟩ | ⟨-, looked⟩
  · exact ⟨task, here ▸ held, same⟩
  · exact ⟨found, looked, rfl⟩

end KeepsProgress

theorem TaskSnapshot.marked_progress (reason : CancellationReason) (task : TaskSnapshot) : (task.marked reason).progress = task.progress := by
  unfold marked
  split <;> rfl

namespace TaskCoordinator

variable {coordinator after : TaskCoordinator}

theorem mark_progress (reason : CancellationReason) (tasks : TaskTable) (id : TaskId) : KeepsProgress tasks (mark reason tasks id) := by
  unfold mark
  split
  · exact .refl tasks
  · rename_i task held
    split
    · exact .insert held rfl
    · exact .refl tasks

theorem start_progress (tasks : TaskTable) (id : TaskId) : KeepsProgress tasks (start tasks id) := by
  unfold start
  split
  · exact .refl tasks
  · rename_i task held
    split
    · exact .insert held rfl
    · exact .refl tasks

theorem withDiagnostic_progress (limit : Nat) (diagnostic : TaskDiagnostic) (task : TaskSnapshot) :
    (task.withDiagnostic limit diagnostic).progress = task.progress := by
  unfold TaskSnapshot.withDiagnostic
  split <;> rfl

theorem pushDiagnostics_progress (coordinator : TaskCoordinator) (subscribers : List TaskId) (diagnostics : List TaskDiagnostic) :
    KeepsProgress coordinator.tasks (coordinator.pushDiagnostics subscribers diagnostics).tasks := by
  refine .foldl (fun tasks diagnostic => .foldl (fun tasks id => ?_) subscribers tasks) diagnostics _
  unfold pushDiagnostic
  split
  · exact .refl tasks
  · rename_i task held
    exact .insert held (withDiagnostic_progress _ diagnostic task)

structure Quiet (coordinator after : TaskCoordinator) : Prop where
  tasks : KeepsProgress coordinator.tasks after.tasks
  flights : ∀ (id : FlightId) (flight' : FlightRecord), after.flights[id]? = some flight' →
    ∃ flight : FlightRecord, coordinator.flights[id]? = some flight ∧ flight'.subscribers = flight.subscribers

theorem Quiet.refl (coordinator : TaskCoordinator) : Quiet coordinator coordinator :=
  ⟨.refl _, fun _ flight' held => ⟨flight', held, rfl⟩⟩

variable {middle : TaskCoordinator} {new : TaskId}

theorem Quiet.trans (first : Quiet coordinator middle) (second : Quiet middle after) : Quiet coordinator after := by
  refine ⟨first.tasks.trans second.tasks, fun id flight' held => ?_⟩
  obtain ⟨flight, found, same⟩ := second.flights id flight' held
  obtain ⟨before, found', same'⟩ := first.flights id flight found
  exact ⟨before, found', same.trans same'⟩

theorem quiet_cancel (coordinator : TaskCoordinator) (ids : List TaskId) (reason : CancellationReason) :
    Quiet coordinator (coordinator.markAll ids reason).cancelUnobservedFlights := by
  refine ⟨.foldl (mark_progress reason) ids coordinator.tasks, fun id flight' held => ?_⟩
  obtain ⟨flight, found, same⟩ := (cancelUnobserved_flights (coordinator.markAll ids reason)).held held
  exact ⟨flight, found, same.subscribers⟩

variable {now : TaskInstant}

theorem Expired.quiet (expired : Expired now coordinator after) : Quiet coordinator after := by
  refine ⟨fun id task' held => ?_, fun id flight' held => ?_⟩
  · obtain ⟨task, found, rfl⟩ := expired.tasks id task' held
    refine ⟨task, found, ?_⟩
    split
    · exact TaskSnapshot.marked_progress _ task
    · rfl
  · obtain ⟨flight, found, same⟩ := expired.flights id flight' held
    exact ⟨flight, found, same.subscribers⟩

section

variable (coordinator)
include coordinator

theorem observeSession_quiet (session : SessionId) (generation : SessionGeneration) :
    Quiet coordinator (coordinator.observeSession session generation).1 := by
  have advanced : Quiet coordinator (coordinator.advanceSession session generation) := by
    let opened := { coordinator with sessions := Function.update coordinator.sessions session (some generation) }
    have cancelled := quiet_cancel opened (coordinator.selectTasks fun _ task =>
      task.spec.owner.scope.session = session && task.spec.generation != generation) .sessionAdvanced
    exact ⟨cancelled.tasks, cancelled.flights⟩
  unfold observeSession
  split
  · exact advanced
  split
  · exact .refl coordinator
  split
  · exact .refl coordinator
  · exact advanced

theorem closeSession_quiet (session : SessionId) : Quiet coordinator (coordinator.closeSession session) := by
  let closed := { coordinator with sessions := Function.update coordinator.sessions session none }
  have cancelled := quiet_cancel closed (coordinator.selectTasks fun _ task => task.spec.owner.scope.session = session) .sessionAdvanced
  exact ⟨cancelled.tasks, cancelled.flights⟩

theorem cancelTask_quiet (task : TaskId) (reason : CancellationReason) :
    Quiet coordinator (coordinator.cancelTask task reason).1 := by
  unfold cancelTask
  split
  · exact .refl coordinator
  · exact quiet_cancel coordinator [task] reason

theorem reportDiagnostic_quiet (flight : FlightId) (diagnostic : TaskDiagnostic) :
    Quiet coordinator (coordinator.reportDiagnostic flight diagnostic).1 := by
  unfold reportDiagnostic
  split
  · exact .refl coordinator
  · rename_i record _
    exact ⟨pushDiagnostics_progress coordinator record.subscribers [diagnostic], fun _ flight' held => ⟨flight', held, rfl⟩⟩

end

theorem dispatchNext_quiet (coherent : Coherent coordinator) (now : TaskInstant) : Quiet coordinator (coordinator.dispatchNext now).1 := by
  obtain ⟨expired, -, -, expiry, dispatched⟩ := dispatchNext_spec coherent now
  refine expiry.quiet.trans ?_
  revert dispatched
  generalize (coordinator.dispatchNext now).1 = after
  generalize (coordinator.dispatchNext now).2 = result
  intro dispatched
  cases dispatched with
  | idle => exact .refl expired
  | started id flight held =>
    refine ⟨.foldl start_progress flight.subscribers expired.tasks, fun other flight' found => ?_⟩
    change (expired.flights.insert id { flight with state := .running })[other]? = some flight' at found
    rcases held_insert.mp found with ⟨same, rfl⟩ | ⟨-, found⟩
    · exact ⟨flight, same ▸ held, rfl⟩
    · exact ⟨flight', found, rfl⟩

theorem Removed.quiet {id : FlightId} {flight : FlightRecord} (removed : Removed coordinator id flight after) : Quiet coordinator after :=
  ⟨fun _ task' held => ⟨task', (removed.task_held held).2, rfl⟩, fun _ flight' held => ⟨flight', (removed.flight_held held).2, rfl⟩⟩

theorem complete_quiet (coherent : Coherent coordinator) (id : FlightId) (report : CompletionReport) (now : TaskInstant) :
    Quiet coordinator (coordinator.complete id report now).1 := by
  obtain ⟨expired, expire, coherent', expiry⟩ := expire_spec coherent now
  refine expiry.quiet.trans ?_
  unfold complete
  rw [expire]
  dsimp only
  split
  · exact .refl expired
  · rename_i flight held
    split
    · have restated := coherent'.restate (pushDiagnostics_keeps expired flight.subscribers report.diagnostics)
      have diagnosed : Quiet expired (expired.pushDiagnostics flight.subscribers report.diagnostics) :=
        ⟨pushDiagnostics_progress expired flight.subscribers report.diagnostics, fun _ flight' found => ⟨flight', found, rfl⟩⟩
      exact diagnosed.trans (finish_removed restated.booked held report.outcome now).quiet
    · exact .refl expired

structure Extends (coordinator : TaskCoordinator) (new : TaskId) (after : TaskCoordinator) : Prop where
  tasks : ∀ (id : TaskId) (task' : TaskSnapshot), after.tasks[id]? = some task' →
    (∃ task : TaskSnapshot, coordinator.tasks[id]? = some task ∧ task'.progress = task.progress) ∨ (id = new ∧ task'.progress = none)
  flights : ∀ (id : FlightId) (flight' : FlightRecord), after.flights[id]? = some flight' → flight'.subscribers = [new] ∨
    ∃ flight : FlightRecord, coordinator.flights[id]? = some flight ∧
      (flight'.subscribers = flight.subscribers ∨ flight'.subscribers = flight.subscribers ++ [new])

theorem Quiet.extends (quiet : Quiet coordinator after) : Extends coordinator new after := by
  refine ⟨fun id task' held => .inl (quiet.tasks id task' held), fun id flight' held => ?_⟩
  obtain ⟨flight, found, same⟩ := quiet.flights id flight' held
  exact .inr ⟨flight, found, .inl same⟩

theorem Quiet.then (first : Quiet coordinator middle) (second : Extends middle new after) :
    Extends coordinator new after := by
  refine ⟨fun id task' held => ?_, fun id flight' held => ?_⟩
  · rcases second.tasks id task' held with ⟨task, found, same⟩ | fresh
    · obtain ⟨before, found', same'⟩ := first.tasks id task found
      exact .inl ⟨before, found', same.trans same'⟩
    · exact .inr fresh
  · rcases second.flights id flight' held with launched | ⟨flight, found, kept⟩
    · exact .inl launched
    · obtain ⟨before, found', same⟩ := first.flights id flight found
      rw [same] at kept
      exact .inr ⟨before, found', kept⟩

theorem Extends.cancel (first : Extends coordinator new middle) (second : Quiet middle after) :
    Extends coordinator new after := by
  refine ⟨fun id task' held => ?_, fun id flight' held => ?_⟩
  · obtain ⟨task, found, same⟩ := second.tasks id task' held
    rw [same]
    exact first.tasks id task found
  · obtain ⟨flight, found, same⟩ := second.flights id flight' held
    rw [same]
    exact first.flights id flight found

theorem admitted_extends {spec : TaskSpec} {result : Except (Stop AdmissionError) Submission}
    (admitted : Admitted coordinator spec now after result) : Extends coordinator coordinator.nextTask after := by
  cases admitted with
  | refused | repeated => exact (Quiet.refl coordinator).extends
  | joined flightId flight indexed held running capacity absent =>
    rw [subscribe_eq]
    suffices admitted : Extends coordinator coordinator.nextTask (coordinator.joined spec flight flightId) from admitted.cancel (quiet_cancel _ _ _)
    refine ⟨fun id task' found => ?_, fun id flight' found => ?_⟩
    · change (coordinator.tasks.insert coordinator.nextTask _)[id]? = some task' at found
      rcases held_insert.mp found with ⟨same, rfl⟩ | ⟨-, found⟩
      · exact .inr ⟨same.symm, rfl⟩
      · exact .inl ⟨task', found, rfl⟩
    · change (coordinator.flights.insert flightId _)[id]? = some flight' at found
      rcases held_insert.mp found with ⟨same, rfl⟩ | ⟨-, found⟩
      · exact .inr ⟨flight, same ▸ held, .inr rfl⟩
      · exact .inr ⟨flight', found, .inl rfl⟩
  | launched unshared room capacity =>
    rw [launch_eq]
    suffices admitted : Extends coordinator coordinator.nextTask (coordinator.launched spec now) from admitted.cancel (quiet_cancel _ _ _)
    refine ⟨fun id task' found => ?_, fun id flight' found => ?_⟩
    · change (coordinator.tasks.insert coordinator.nextTask _)[id]? = some task' at found
      rcases held_insert.mp found with ⟨same, rfl⟩ | ⟨-, found⟩
      · exact .inr ⟨same.symm, rfl⟩
      · exact .inl ⟨task', found, rfl⟩
    · change (coordinator.flights.insert coordinator.nextFlight _)[id]? = some flight' at found
      rcases held_insert.mp found with ⟨-, rfl⟩ | ⟨-, found⟩
      · exact .inl rfl
      · exact .inr ⟨flight', found, .inl rfl⟩

theorem submit_extends (coherent : Coherent coordinator) (spec : TaskSpec) (now : TaskInstant) :
    Extends coordinator coordinator.nextTask (coordinator.submit spec now).1 := by
  obtain ⟨expired, -, expiry, admitted, -⟩ := submit_spec coherent spec now
  have extended := admitted_extends admitted
  rw [expiry.nextTask] at extended
  exact expiry.quiet.then extended

theorem perform_quiet (coherent : Coherent coordinator) {action : Action} (unsubmitted : ∀ spec now, action ≠ .submit spec now)
    (unreported : ∀ flight progress, action ≠ .reportProgress flight progress) : Quiet coordinator (coordinator.perform action) := by
  cases action with
  | observeSession session generation => exact observeSession_quiet coordinator session generation
  | closeSession session => exact closeSession_quiet coordinator session
  | submit spec now => exact absurd rfl (unsubmitted spec now)
  | dispatchNext now => exact dispatchNext_quiet coherent now
  | reportProgress flight progress => exact absurd rfl (unreported flight progress)
  | reportDiagnostic flight diagnostic => exact reportDiagnostic_quiet coordinator flight diagnostic
  | cancelTask task reason => exact cancelTask_quiet coordinator task reason
  | cancelOwner owner => exact quiet_cancel coordinator _ _
  | complete flight report now => exact complete_quiet coherent flight report now

end TaskCoordinator

def Agrees (tasks : TaskTable) (subscribers : List TaskId) : Prop :=
  ∃ (earlier later : List TaskId) (latest : TaskProgress), subscribers = earlier ++ later ∧
    (∀ id ∈ earlier, ∀ task : TaskSnapshot, tasks[id]? = some task → task.progress = some latest) ∧
    ∀ id ∈ later, ∀ task : TaskSnapshot, tasks[id]? = some task → task.progress = none

variable {subscribers : List TaskId} {tasks : TaskTable} {coordinator : TaskCoordinator}

theorem Agrees.unreported
    (silent : ∀ id ∈ subscribers, ∀ task : TaskSnapshot, tasks[id]? = some task → task.progress = none) : Agrees tasks subscribers :=
  ⟨[], subscribers, ⟨"", 0, 0, 0, 0⟩, rfl, fun _ inside => absurd inside not_mem_nil, silent⟩

theorem Agrees.extended {tasks' : TaskTable} {added : List TaskId} (agrees : Agrees tasks subscribers)
    (kept : ∀ id ∈ subscribers, ∀ task' : TaskSnapshot, tasks'[id]? = some task' →
      ∃ task : TaskSnapshot, tasks[id]? = some task ∧ task'.progress = task.progress)
    (silent : ∀ id ∈ added, ∀ task' : TaskSnapshot, tasks'[id]? = some task' → task'.progress = none) :
    Agrees tasks' (subscribers ++ added) := by
  obtain ⟨earlier, later, latest, rfl, reported, unreported⟩ := agrees
  refine ⟨earlier, later ++ added, latest, append_assoc _ _ _, fun id inside task' found => ?_, fun id inside task' found => ?_⟩
  · obtain ⟨task, before, same⟩ := kept id (mem_append_left _ inside) task' found
    exact same.trans (reported id inside task before)
  · rcases mem_append.mp inside with old | new
    · obtain ⟨task, before, same⟩ := kept id (mem_append_right _ old) task' found
      exact same.trans (unreported id old task before)
    · exact silent id new task' found

structure Reported (coordinator : TaskCoordinator) : Prop where
  sound : ∀ (id : TaskId) (task : TaskSnapshot) (progress : TaskProgress), coordinator.tasks[id]? = some task →
    task.progress = some progress → progress.Sound
  agrees : ∀ (id : FlightId) (flight : FlightRecord), coordinator.flights[id]? = some flight → Agrees coordinator.tasks flight.subscribers

variable {after : TaskCoordinator} {progress : TaskProgress}

theorem Reported.quiet (reported : Reported coordinator) (quiet : coordinator.Quiet after) : Reported after := by
  refine ⟨fun id task' progress found same => ?_, fun id flight' found => ?_⟩
  · obtain ⟨task, before, kept⟩ := quiet.tasks id task' found
    exact reported.sound id task progress before (kept.symm.trans same)
  · obtain ⟨flight, held, subscribers⟩ := quiet.flights id flight' found
    rw [subscribers, ← append_nil flight.subscribers]
    exact (reported.agrees id flight held).extended (fun subscriber _ task' looked => quiet.tasks subscriber task' looked)
      fun _ inside => absurd inside not_mem_nil

theorem Reported.extended {new : TaskId} (reported : Reported coordinator) (coherent : coordinator.Coherent)
    (extended : coordinator.Extends new after) (unused : coordinator.tasks[new]? = none) : Reported after := by
  refine ⟨fun id task' progress found same => ?_, fun id flight' found => ?_⟩
  · rcases extended.tasks id task' found with ⟨task, before, kept⟩ | ⟨-, silent⟩
    · exact reported.sound id task progress before (kept.symm.trans same)
    · rw [silent] at same
      cases same
  · have silent : ∀ id ∈ [new], ∀ task' : TaskSnapshot, after.tasks[id]? = some task' → task'.progress = none := by
      intro id inside task' found
      rw [mem_singleton] at inside
      subst inside
      rcases extended.tasks id task' found with ⟨task, before, -⟩ | ⟨-, silent⟩
      · rw [unused] at before
        cases before
      · exact silent
    rcases extended.flights id flight' found with launched | ⟨flight, held, subscribers⟩
    · rw [launched]
      exact .unreported silent
    · have kept : ∀ subscriber ∈ flight.subscribers, ∀ task' : TaskSnapshot, after.tasks[subscriber]? = some task' →
          ∃ task : TaskSnapshot, coordinator.tasks[subscriber]? = some task ∧ task'.progress = task.progress := by
        intro subscriber inside task' found'
        obtain ⟨task, there, -⟩ := (coherent.booked.staffed id flight held).2 subscriber inside
        rcases extended.tasks subscriber task' found' with known | ⟨rfl, -⟩
        · exact known
        · rw [unused] at there
          cases there
      rcases subscribers with same | joined
      · rw [same, ← append_nil flight.subscribers]
        exact (reported.agrees id flight held).extended kept fun _ inside => nomatch inside
      · rw [joined]
        exact (reported.agrees id flight held).extended kept silent

theorem recordProgress_follows (progress : TaskProgress) (subscribers : List TaskId) (once : subscribers.Nodup)
    (follows : ∀ id ∈ subscribers, ∀ task : TaskSnapshot, tasks[id]? = some task → ∀ previous ∈ task.progress, progress.follows previous) :
    (recordProgress progress tasks subscribers).2 = true ∧ ∀ id : TaskId, (recordProgress progress tasks subscribers).1[id]? =
      if id ∈ subscribers then tasks[id]?.map (fun task => { task with progress := some progress }) else tasks[id]? := by
  induction subscribers generalizing tasks with
  | nil => exact ⟨rfl, fun id => (if_neg not_mem_nil).symm⟩
  | cons first more ih =>
    obtain ⟨new, once⟩ := nodup_cons.mp once
    obtain ⟨here, later⟩ := forall_mem_cons.mp follows
    unfold recordProgress
    cases held : tasks[first]? with
    | none =>
      obtain ⟨complete, lookup⟩ := ih once later
      refine ⟨complete, fun id => ?_⟩
      rw [lookup]
      by_cases same : id = first
      · subst same
        rw [if_neg new, if_pos mem_cons_self, held]
        rfl
      · simp only [mem_cons, same, false_or]
    | some task =>
      dsimp only
      rw [if_pos (here task held)]
      have others (id : TaskId) (inside : id ∈ more) : (tasks.insert first { task with progress := some progress })[id]? = tasks[id]? := by
        rw [lookup_insert, if_neg]
        rintro rfl
        exact new inside
      obtain ⟨complete, lookup⟩ := ih once fun id inside other found => later id inside other ((others id inside).symm.trans found)
      refine ⟨complete, fun id => ?_⟩
      rw [lookup, lookup_insert]
      by_cases same : first = id
      · subst same
        rw [if_neg new, if_pos rfl, if_pos mem_cons_self, held]
        rfl
      · simp only [mem_cons, Ne.symm same, if_neg same, false_or]

theorem recordProgress_agreed (once : subscribers.Nodup)
    (present : ∀ id ∈ subscribers, ∃ task : TaskSnapshot, tasks[id]? = some task) (agrees : Agrees tasks subscribers) :
    (∀ id ∈ subscribers, ∀ task : TaskSnapshot, tasks[id]? = some task → ∀ previous ∈ task.progress, progress.follows previous) ∨
      recordProgress progress tasks subscribers = (tasks, false) := by
  obtain ⟨earlier, later, latest, rfl, reported, unreported⟩ := agrees
  by_cases follows : progress.follows latest
  · refine .inl fun id inside task held previous known => ?_
    rcases mem_append.mp inside with old | new
    · rw [reported id old task held, mem_some_iff] at known
      exact known ▸ follows
    · rw [unreported id new task held] at known
      cases known
  · cases earlier with
    | nil =>
      refine .inl fun id inside task held previous known => ?_
      rw [unreported id inside task held] at known
      cases known
    | cons first earlier =>
      obtain ⟨task, held⟩ := present first mem_cons_self
      refine .inr ?_
      rw [cons_append, recordProgress, held]
      dsimp only
      rw [if_neg]
      intro all
      exact follows (all latest (reported first mem_cons_self task held))

inductive Report (coordinator : TaskCoordinator) (id : FlightId) (progress : TaskProgress) :
    TaskCoordinator × Except CoordinatorError Unit → Prop where
  | rejected (error : CoordinatorError) : Report coordinator id progress (coordinator, .error error)
  | accepted (flight : FlightRecord) (tasks : TaskTable) (sound : progress.Sound) (held : coordinator.flights[id]? = some flight)
      (running : flight.state = .running)
      (follows : ∀ id ∈ flight.subscribers, ∀ task : TaskSnapshot, coordinator.tasks[id]? = some task →
        ∀ previous ∈ task.progress, progress.follows previous)
      (lookup : ∀ id : TaskId, tasks[id]? = if id ∈ flight.subscribers then
        coordinator.tasks[id]?.map (fun task => { task with progress := some progress }) else coordinator.tasks[id]?) :
      Report coordinator id progress ({ coordinator with tasks }, .ok ())

section

variable (reported : Reported coordinator) (coherent : coordinator.Coherent)
include reported coherent

theorem reportProgress_report (id : FlightId)
    (progress : TaskProgress) : Report coordinator id progress (coordinator.reportProgress id progress) := by
  unfold reportProgress
  split
  · exact .rejected _
  · rename_i valid
    split
    · exact .rejected _
    · rename_i flight held
      split
      · rename_i running
        obtain ⟨once, staffed⟩ := coherent.booked.staffed id flight held
        have present : ∀ id ∈ flight.subscribers, ∃ task : TaskSnapshot, coordinator.tasks[id]? = some task := by
          intro subscriber inside
          obtain ⟨task, found, -⟩ := staffed subscriber inside
          exact ⟨task, found⟩
        rcases recordProgress_agreed once present (reported.agrees id flight held) with follows | stopped
        · obtain ⟨complete, lookup⟩ := recordProgress_follows progress flight.subscribers once follows
          dsimp only
          rw [complete, if_pos rfl]
          exact .accepted flight _ (TaskProgress.validate_sound valid) held running follows lookup
        · dsimp only
          rw [stopped]
          exact .rejected _
      · exact .rejected _

theorem Reported.report {id : FlightId}
    {result : TaskCoordinator × Except CoordinatorError Unit} (report : Report coordinator id progress result) :
    Reported result.1 := by
  cases report with
  | rejected => exact reported
  | accepted flight tasks sound held running follows lookup =>
    refine ⟨fun task snapshot other found same => ?_, fun other record found => ?_⟩
    · change tasks[task]? = some snapshot at found
      rw [lookup] at found
      split at found
      · obtain ⟨before, -, rfl⟩ := map_eq_some_iff.mp found
        cases same
        exact sound
      · exact reported.sound task snapshot other found same
    · change coordinator.flights[other]? = some record at found
      change Agrees tasks record.subscribers
      by_cases here : other = id
      · subst here
        cases held.symm.trans found
        refine ⟨flight.subscribers, [], progress, (append_nil _).symm, fun task inside snapshot looked => ?_, fun _ inside => absurd inside not_mem_nil⟩
        rw [lookup, if_pos inside] at looked
        obtain ⟨before, -, rfl⟩ := map_eq_some_iff.mp looked
        rfl
      · rw [← append_nil record.subscribers]
        refine (reported.agrees other record found).extended (fun task inside snapshot looked => ?_) fun _ inside => absurd inside not_mem_nil
        rw [lookup, if_neg] at looked
        · exact ⟨snapshot, looked, rfl⟩
        · intro shared
          obtain ⟨first, found', placed, -⟩ := (coherent.booked.staffed id flight held).2 task shared
          obtain ⟨second, found'', placed', -⟩ := (coherent.booked.staffed other record found).2 task inside
          cases found'.symm.trans found''
          exact here (placed'.symm.trans placed)

theorem perform_reported {action : Action}
    (fresh : TakesFresh ⟨coordinator, action⟩) : Reported (coordinator.perform action) := by
  by_cases submits : ∃ spec now, action = .submit spec now
  · obtain ⟨spec, now, rfl⟩ := submits
    exact reported.extended coherent (submit_extends coherent spec now) (fresh spec now rfl).task
  · by_cases reports : ∃ flight progress, action = .reportProgress flight progress
    · obtain ⟨flight, progress, rfl⟩ := reports
      exact reported.report coherent (reportProgress_report reported coherent flight progress)
    · exact reported.quiet (perform_quiet coherent (fun spec now same => submits ⟨spec, now, same⟩)
        fun flight progress same => reports ⟨flight, progress, same⟩)

end

theorem run_reported {config : CoordinatorConfig} {events : List TaskEvent}
    (run : TaskRun config events coordinator) (fresh : ∀ event ∈ events, TakesFresh event) : coordinator.Coherent ∧ Reported coordinator := by
  refine run.invariant (fun coordinator => coordinator.Coherent ∧ Reported coordinator) (fun coordinator created => ?_)
    (fun coordinator action kept fresh => ⟨(TaskCoordinator.perform_coherent kept.1 action fresh).1, perform_reported kept.2 kept.1 fresh⟩) fresh
  refine ⟨TaskCoordinator.new_coherent created, ?_⟩
  obtain ⟨_, -, made⟩ := bind_ok.mp created
  cases made
  refine ⟨fun id task progress found => ?_, fun id flight found => ?_⟩
  · rw [getElem?_empty] at found
    cases found
  · rw [getElem?_empty] at found
    cases found

/-- A report of progress reaches every subscriber of its flight or changes nothing; subscribers that have progress
    agree on it; it is a part of a million, and no smaller than before in a report of no more phases; and no other
    operation changes it. -/
theorem progress_reported {config : CoordinatorConfig} {events : List TaskEvent} {coordinator : TaskCoordinator}
    (run : TaskRun config events coordinator) (fresh : ∀ event ∈ events, TakesFresh event) :
    (∀ (id : FlightId) (progress : TaskProgress),
      (∃ error, coordinator.reportProgress id progress = (coordinator, .error error)) ∨
      ((coordinator.reportProgress id progress).2 = .ok () ∧ ∃ flight : FlightRecord, coordinator.flights[id]? = some flight ∧
        flight.state = .running ∧ ∀ subscriber ∈ flight.subscribers, ∃ task task' : TaskSnapshot, coordinator.tasks[subscriber]? = some task ∧
          (coordinator.reportProgress id progress).1.tasks[subscriber]? = some task' ∧ task'.progress = some progress ∧
          ∀ previous ∈ task.progress, progress.phaseCount ≤ previous.phaseCount → ∀ before after : U32,
            previous.partsPerMillion = .ok before → progress.partsPerMillion = .ok after → before ≤ after)) ∧
    (∀ (id : FlightId) (flight : FlightRecord), coordinator.flights[id]? = some flight →
      ∀ first ∈ flight.subscribers, ∀ second ∈ flight.subscribers, ∀ task task' : TaskSnapshot, coordinator.tasks[first]? = some task →
        coordinator.tasks[second]? = some task' → ∀ progress ∈ task.progress, ∀ progress' ∈ task'.progress, progress = progress') ∧
    (∀ (id : TaskId) (task : TaskSnapshot), coordinator.tasks[id]? = some task → ∀ progress ∈ task.progress,
      ∃ parts : U32, progress.partsPerMillion = .ok parts ∧ parts.val ≤ 1000000) ∧
    (∀ action, (∀ flight progress, action ≠ .reportProgress flight progress) → TakesFresh ⟨coordinator, action⟩ →
      ∀ (id : TaskId) (task task' : TaskSnapshot), coordinator.tasks[id]? = some task → (coordinator.perform action).tasks[id]? = some task' →
        task'.progress = task.progress) := by
  obtain ⟨coherent, reported⟩ := run_reported run fresh
  refine ⟨fun id progress => ?_, fun id flight held first inside second inside' task task' found found' progress known progress' known' => ?_,
    fun id task found progress known => ?_, fun action silent fresh id task task' found found' => ?_⟩
  · have report := reportProgress_report reported coherent id progress
    generalize coordinator.reportProgress id progress = result at report
    cases report with
    | rejected error => exact .inl ⟨error, rfl⟩
    | accepted flight tasks sound held running follows lookup =>
      refine .inr ⟨rfl, flight, held, running, fun subscriber inside => ?_⟩
      obtain ⟨task, found, -⟩ := (coherent.booked.staffed id flight held).2 subscriber inside
      refine ⟨task, { task with progress := some progress }, found, ?_, rfl, fun previous known phases before after counted counted' => ?_⟩
      · change tasks[subscriber]? = _
        rw [lookup, if_pos inside, found]
        rfl
      · have sound' := reported.sound subscriber task previous found known
        obtain ⟨parts, same, exact⟩ := sound'.partsPerMillion_eq
        obtain ⟨parts', same', exact'⟩ := sound.partsPerMillion_eq
        cases same.symm.trans counted
        cases same'.symm.trans counted'
        rw [Fin.le_def, exact, exact']
        exact sound.millionths_mono sound' (follows subscriber inside task found previous known) phases
  · obtain ⟨earlier, later, latest, split, agreed, unreported⟩ := reported.agrees id flight held
    have each (subscriber : TaskId) (inside : subscriber ∈ flight.subscribers) (task : TaskSnapshot)
        (found : coordinator.tasks[subscriber]? = some task) (progress : TaskProgress) (known : progress ∈ task.progress) : progress = latest := by
      rw [split] at inside
      rcases List.mem_append.mp inside with old | new
      · rw [agreed subscriber old task found, Option.mem_some_iff] at known
        exact known.symm
      · rw [unreported subscriber new task found] at known
        cases known
    exact (each first inside task found progress known).trans (each second inside' task' found' progress' known').symm
  · have sound := reported.sound id task progress found known
    obtain ⟨parts, counted, exact⟩ := sound.partsPerMillion_eq
    exact ⟨parts, counted, exact ▸ sound.millionths_le⟩
  · by_cases submits : ∃ spec now, action = .submit spec now
    · obtain ⟨spec, now, rfl⟩ := submits
      rcases (TaskCoordinator.submit_extends coherent spec now).tasks id task' found' with ⟨before, same, kept⟩ | ⟨rfl, -⟩
      · cases found.symm.trans same
        exact kept
      · rw [(fresh spec now rfl).task] at found
        cases found
    · obtain ⟨before, same, kept⟩ := (TaskCoordinator.perform_quiet coherent (fun spec now same => submits ⟨spec, now, same⟩) silent).tasks id task' found'
      cases found.symm.trans same
      exact kept

/-- The whole of a single phase, and the next report, which is of the second of three. -/
def onlyPhase : TaskProgress := ⟨"analyzing", 0, 1, 1, 1⟩

def secondPhase : TaskProgress := ⟨"rendering", 1, 3, 0, 1⟩

def reportedErrand : TaskCoordinator :=
  (((quiet 1 []).perform (.submit (errand graphRecipe) 0)).perform (.dispatchNext 0)).perform (.reportProgress 1 onlyPhase)

theorem later_phase_runs_backwards : (∃ events, TaskRun .default events reportedErrand) ∧
    ∃ task : TaskSnapshot, reportedErrand.tasks[(1 : TaskId)]? = some task ∧ task.progress = some onlyPhase ∧
      (reportedErrand.reportProgress 1 secondPhase).2 = .ok () ∧
      onlyPhase.partsPerMillion = .ok 1000000 ∧ secondPhase.partsPerMillion = .ok 333333 := by
  obtain ⟨before, -, run⟩ := opening_run
  refine ⟨⟨_, ((run.step (.submit (errand graphRecipe) 0)).step (.dispatchNext 0)).step (.reportProgress 1 onlyPhase)⟩, _, rfl, rfl, rfl, rfl, rfl⟩

theorem first_errand_progress : ∃ task : TaskSnapshot, reportedErrand.tasks[(1 : TaskId)]? = some task ∧
    ∀ progress ∈ task.progress, ∃ parts : U32, progress.partsPerMillion = .ok parts ∧ parts.val ≤ 1000000 := by
  obtain ⟨before, -, run⟩ := opening_run
  have reached := ((run.step (.submit (errand graphRecipe) 0)).step (.dispatchNext 0)).step (.reportProgress 1 onlyPhase)
  refine ⟨_, rfl, (progress_reported reached ?_).2.2.1 1 _ rfl⟩
  intro event inside
  simp only [List.mem_append, List.mem_singleton] at inside
  rcases inside with ((rfl | rfl) | rfl) | rfl
  · exact nofun
  · exact fun _ _ _ => quiet_fresh 1 []
  · exact nofun
  · exact nofun

end Audec.Tasks

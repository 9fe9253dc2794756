import Audec.TaskCoordinator.Runs

/-! What each operation can do to one task. -/

open Machine Checked Entries Runs Option
open Std (ExtTreeMap)

namespace Audec.Tasks

open TaskCoordinator TaskSnapshot.Same

def afterOf (event : TaskEvent) : TaskCoordinator := event.before.perform event.action

def Active (coordinator : TaskCoordinator) (id : TaskId) : Prop := ∃ task : TaskSnapshot, coordinator.tasks[id]? = some task

def Admits (event : TaskEvent) (id : TaskId) (spec : TaskSpec) : Prop :=
  ¬ Active event.before id ∧ ∃ now submission, event.action = .submit spec now ∧
    responseOf event = .submitted (.ok submission) ∧ submission.task = id

def Advances (coordinator : TaskCoordinator) (session : SessionId) (generation : SessionGeneration) : Prop :=
  coordinator.sessions session ≠ some generation ∧ ∀ previous, coordinator.sessions session = some previous → previous ≤ generation

/-- What takes the authority to publish from a task: a cancellation of it or of its owner, an advance or the close of its
    session, a newer task of its owner, or its deadline. -/
def Revokes (coordinator : TaskCoordinator) (id : TaskId) (spec : TaskSpec) : Action → Prop
  | .observeSession session generation => spec.owner.scope.session = session ∧ Advances coordinator session generation
  | .closeSession session => spec.owner.scope.session = session
  | .submit newer now => elapsed spec.deadline now = true ∨
      (newer.owner = spec.owner ∧ spec.generation < newer.generation ∧ ∃ other, Admits ⟨coordinator, .submit newer now⟩ other newer)
  | .dispatchNext now => elapsed spec.deadline now = true
  | .cancelTask other _ => other = id
  | .cancelOwner owner => spec.owner = owner
  | .complete _ _ now => elapsed spec.deadline now = true
  | .reportProgress _ _ => False
  | .reportDiagnostic _ _ => False

/-- An operation that takes an active task's authority to publish. -/
def Hits (event : TaskEvent) (id : TaskId) : Prop :=
  ∃ task : TaskSnapshot, event.before.tasks[id]? = some task ∧ Revokes event.before id task.spec event.action

def Current (coordinator : TaskCoordinator) : Prop :=
  ∀ (id : TaskId) (task : TaskSnapshot), coordinator.tasks[id]? = some task → task.isEligible = true →
    coordinator.sessions task.spec.owner.scope.session = some task.spec.generation

def Survives (coordinator : TaskCoordinator) (action : Action) (id : TaskId) (task' : TaskSnapshot) : Prop :=
  ∃ task : TaskSnapshot, coordinator.tasks[id]? = some task ∧ TaskSnapshot.Same task task' ∧
    (task'.isEligible = true → task.isEligible = true ∧ ¬ Revokes coordinator id task.spec action)

namespace TaskCoordinator

variable {coordinator : TaskCoordinator} {id : TaskId} {task' : TaskSnapshot}

variable {action : Action} {now : TaskInstant} {flight : FlightId}

theorem survives_markAll (coordinator : TaskCoordinator) (ids : List TaskId) (reason : CancellationReason)
    (held : (coordinator.markAll ids reason).tasks[id]? = some task')
    (revoked : ∀ task : TaskSnapshot, coordinator.tasks[id]? = some task → task.isEligible = true →
      Revokes coordinator id task.spec action → id ∈ ids) : Survives coordinator action id task' := by
  change (ids.foldl (mark reason) coordinator.tasks)[id]? = some task' at held
  rw [markAll_lookup, map_eq_some_iff] at held
  obtain ⟨task, before, rfl⟩ := held
  refine ⟨task, before, ?_⟩
  split
  · refine ⟨TaskSnapshot.marked_same reason task, ?_⟩
    rw [TaskSnapshot.marked_ineligible]
    exact nofun
  · rename_i spared
    exact ⟨refl task, fun eligible => ⟨eligible, fun revokes => spared (revoked task before eligible revokes)⟩⟩

theorem survives_keeps {tasks : TaskTable} (exact : KeepsEligible coordinator.tasks tasks)
    (held : tasks[id]? = some task') (harmless : ∀ task : TaskSnapshot, coordinator.tasks[id]? = some task →
      ¬ Revokes coordinator id task.spec action) : Survives coordinator action id task' := by
  obtain ⟨task, before, same, kept⟩ := exact.keeps.held held
  exact ⟨task, before, same, fun eligible => ⟨kept eligible, harmless task before⟩⟩

variable {expired : TaskCoordinator} {session : SessionId} {spec : TaskSpec}

theorem Expired.survives (expiry : Expired now coordinator expired)
    (held : expired.tasks[id]? = some task') (late : ∀ task : TaskSnapshot, coordinator.tasks[id]? = some task →
      Revokes coordinator id task.spec action → elapsed task.spec.deadline now = true) :
    Survives coordinator action id task' := by
  obtain ⟨task, before, rfl⟩ := expiry.tasks id task' held
  refine ⟨task, before, ?_⟩
  split
  · refine ⟨TaskSnapshot.marked_same _ task, ?_⟩
    rw [TaskSnapshot.marked_ineligible]
    exact nofun
  · rename_i early
    exact ⟨refl task, fun eligible => ⟨eligible, fun revokes => early (late task before revokes)⟩⟩

theorem observeSession_survives (current : Current coordinator) {generation : SessionGeneration}
    (held : (coordinator.observeSession session generation).1.tasks[id]? = some task') :
    Survives coordinator (.observeSession session generation) id task' := by
  have unchanged (before : coordinator.tasks[id]? = some task') (still : ¬ Advances coordinator session generation) :
      Survives coordinator (.observeSession session generation) id task' :=
    ⟨task', before, refl task', fun eligible => ⟨eligible, fun revokes => still revokes.2⟩⟩
  have advanced (held : (coordinator.advanceSession session generation).tasks[id]? = some task') :
      Survives coordinator (.observeSession session generation) id task' := by
    refine survives_markAll coordinator _ _ held ?_
    intro task before eligible revokes
    have opened := current id task before eligible
    rw [revokes.1] at opened
    refine mem_selectTasks.mpr ⟨task, before, ?_⟩
    simp only [Bool.and_eq_true, decide_eq_true_eq, bne_iff_ne]
    refine ⟨revokes.1, ?_⟩
    intro same
    rw [same] at opened
    exact revokes.2.1 opened
  unfold observeSession at held
  split at held
  · exact advanced held
  · rename_i previous opened
    split at held
    · rename_i older
      exact unchanged held fun advances => absurd (advances.2 previous opened) (Nat.not_le_of_lt older)
    split at held
    · rename_i same
      exact unchanged held fun advances => advances.1 (by rw [opened, same])
    · exact advanced held

theorem closeSession_survives (held : (coordinator.closeSession session).tasks[id]? = some task') :
    Survives coordinator (.closeSession session) id task' := by
  refine survives_markAll coordinator _ _ held ?_
  intro task before _ revokes
  exact mem_selectTasks.mpr ⟨task, before, decide_eq_true revokes⟩

theorem cancelTask_survives {task : TaskId} {reason : CancellationReason}
    (held : (coordinator.cancelTask task reason).1.tasks[id]? = some task') :
    Survives coordinator (.cancelTask task reason) id task' := by
  unfold cancelTask at held
  split at held
  · rename_i absent
    refine ⟨task', held, refl task', fun eligible => ⟨eligible, ?_⟩⟩
    intro revokes
    rw [← (revokes : task = id), absent] at held
    cases held
  · refine survives_markAll coordinator [task] reason held ?_
    intro _ _ _ revokes
    exact List.mem_singleton.mpr (revokes : task = id).symm

theorem cancelOwner_survives {owner : OwnerScope} (held : (coordinator.cancelOwner owner).1.tasks[id]? = some task') :
    Survives coordinator (.cancelOwner owner) id task' := by
  refine survives_markAll coordinator _ _ held ?_
  intro task before _ revokes
  exact mem_selectTasks.mpr ⟨task, before, decide_eq_true revokes⟩

theorem reportProgress_survives {progress : TaskProgress}
    (held : (coordinator.reportProgress flight progress).1.tasks[id]? = some task') :
    Survives coordinator (.reportProgress flight progress) id task' := by
  obtain ⟨tasks, exact, after⟩ := reportProgress_spec coordinator flight progress
  rw [after] at held
  exact survives_keeps exact held fun _ _ => not_false

theorem reportDiagnostic_survives {diagnostic : TaskDiagnostic}
    (held : (coordinator.reportDiagnostic flight diagnostic).1.tasks[id]? = some task') :
    Survives coordinator (.reportDiagnostic flight diagnostic) id task' := by
  obtain ⟨tasks, exact, after⟩ := reportDiagnostic_spec coordinator flight diagnostic
  rw [after] at held
  exact survives_keeps exact held fun _ _ => not_false

theorem dispatchNext_survives (coherent : Coherent coordinator)
    (held : (coordinator.dispatchNext now).1.tasks[id]? = some task') : Survives coordinator (.dispatchNext now) id task' := by
  obtain ⟨expired, -, -, expiry, dispatched⟩ := dispatchNext_spec coherent now
  have left : ∃ task : TaskSnapshot, expired.tasks[id]? = some task ∧ TaskSnapshot.Same task task' ∧
      (task'.isEligible = true → task.isEligible = true) := by
    revert dispatched held
    generalize (coordinator.dispatchNext now).1 = after
    generalize (coordinator.dispatchNext now).2 = result
    intro held dispatched
    cases dispatched with
    | idle => exact ⟨task', held, refl task', fun eligible => eligible⟩
    | started other flight =>
      exact (keepsEligible_foldl start_keeps flight.subscribers expired.tasks).keeps.held held
  obtain ⟨middle, found, same, kept⟩ := left
  obtain ⟨task, before, same', eligible⟩ : Survives coordinator (.dispatchNext now) id middle :=
    expiry.survives found fun _ _ revokes => revokes
  exact ⟨task, before, same'.trans same, fun still => eligible (kept still)⟩

theorem complete_survives (coherent : Coherent coordinator) {report : CompletionReport}
    (held : (coordinator.complete flight report now).1.tasks[id]? = some task') :
    Survives coordinator (.complete flight report now) id task' := by
  have completed := complete_spec coherent flight report now
  revert completed held
  generalize (coordinator.complete flight report now).1 = after
  generalize (coordinator.complete flight report now).2 = result
  intro held completed
  cases completed with
  | failed _ _ expiry => exact expiry.survives held fun _ _ revokes => revokes
  | finished expired diagnosed _ _ expiry record _ _ exact rest removed =>
    rw [removed.tasks] at held
    split at held
    · cases held
    obtain ⟨middle, found, same, kept⟩ := exact.keeps.held held
    obtain ⟨task, before, same', eligible⟩ : Survives coordinator (.complete flight report now) id middle :=
      expiry.survives found fun _ _ revokes => revokes
    exact ⟨task, before, same'.trans same, fun still => eligible (kept still)⟩

theorem supersedeOlder_lookup (coordinator : TaskCoordinator) (spec : TaskSpec) (newer id : TaskId) :
    (coordinator.supersedeOlder spec newer).tasks[id]? = coordinator.tasks[id]?.map fun task =>
      if id ≠ newer ∧ isOlder spec task = true then task.marked .superseded else task := by
  change ((coordinator.selectTasks _).foldl (mark .superseded) coordinator.tasks)[id]? = _
  rw [markAll_lookup]
  cases held : coordinator.tasks[id]? with
  | none => rfl
  | some task =>
    simp only [map_some, mem_selectTasks, held, some.injEq, exists_eq_left', Bool.and_eq_true, bne_iff_ne]

theorem submit_spec (coherent : Coherent coordinator) (spec : TaskSpec) (now : TaskInstant) :
    ∃ expired, Coherent expired ∧ Expired now coordinator expired ∧
      Admitted expired spec now (coordinator.submit spec now).1 (coordinator.submit spec now).2 ∧
      ∀ submission, (coordinator.submit spec now).2 = .ok submission →
        coordinator.sessions spec.owner.scope.session = some spec.generation ∧ elapsed spec.deadline now = false := by
  obtain ⟨expired, expire, coherent', expiry⟩ := expire_spec coherent now
  refine ⟨expired, coherent', expiry, ?_, ?_⟩
  · unfold submit
    rw [expire]
    exact admit_spec coherent'.booked spec now
  · intro submission accepted
    unfold submit at accepted
    rw [expire] at accepted
    dsimp only at accepted
    unfold enlist at accepted
    split at accepted
    · cases accepted
    · rename_i passed
      rw [← expiry.sessions]
      exact screen_ok passed

theorem supersede_held {admitted : TaskCoordinator} {new : TaskSnapshot} {newId : TaskId}
    (tasks : admitted.tasks = expired.tasks.insert newId new) (held : (admitted.supersedeOlder spec newId).tasks[id]? = some task') :
    (newId = id ∧ new = task') ∨ ∃ task : TaskSnapshot, expired.tasks[id]? = some task ∧ TaskSnapshot.Same task task' ∧
      (task'.isEligible = true → task.isEligible = true ∧ isOlder spec task = false) := by
  rw [supersedeOlder_lookup, tasks, lookup_insert] at held
  by_cases here : newId = id
  · rw [if_pos here, map_some, if_neg fun older => older.1 here.symm, some.injEq] at held
    exact .inl ⟨here, held⟩
  · rw [if_neg here, map_eq_some_iff] at held
    obtain ⟨task, found, rfl⟩ := held
    refine .inr ⟨task, found, ?_⟩
    split
    · refine ⟨TaskSnapshot.marked_same _ task, ?_⟩
      rw [TaskSnapshot.marked_ineligible]
      exact nofun
    · rename_i spared
      refine ⟨refl task, fun eligible => ⟨eligible, ?_⟩⟩
      exact eq_false_of_ne_true fun older => spared ⟨Ne.symm here, older⟩

theorem submit_survives (coherent : Coherent coordinator) (fresh : Fresh coordinator)
    (held : (coordinator.submit spec now).1.tasks[id]? = some task') :
    Survives coordinator (.submit spec now) id task' ∨ Admits ⟨coordinator, .submit spec now⟩ id task'.spec := by
  obtain ⟨expired, coherent', expiry, admitted, screened⟩ := submit_spec coherent spec now
  have unused : ¬ Active coordinator expired.nextTask := by
    rintro ⟨task, found⟩
    rw [expiry.nextTask, fresh.task] at found
    cases found
  -- nothing is superseded where no task is admitted
  have quiet (held : expired.tasks[id]? = some task') (refused : ∀ submission, (coordinator.submit spec now).2 = .ok submission →
      Active coordinator submission.task) : Survives coordinator (.submit spec now) id task' := by
    refine expiry.survives held ?_
    intro task _ revokes
    rcases revokes with late | ⟨-, -, other, absent, _, submission, same, response, rfl⟩
    · exact late
    · cases same
      exact absurd (refused submission (Response.submitted.inj response)) absent
  have newer {admitted : TaskCoordinator} {flightId : FlightId} {state : TaskState} {joined : Bool}
      (tasks : admitted.tasks = expired.tasks.insert expired.nextTask (newTask expired.nextTask flightId spec state))
      (held : (admitted.supersedeOlder spec expired.nextTask).tasks[id]? = some task')
      (response : (coordinator.submit spec now).2 = .ok ⟨expired.nextTask, flightId, joined⟩) :
      Survives coordinator (.submit spec now) id task' ∨ Admits ⟨coordinator, .submit spec now⟩ id task'.spec := by
    rcases supersede_held tasks held with ⟨rfl, rfl⟩ | ⟨middle, found, same, kept⟩
    · exact .inr ⟨unused, now, _, rfl, congrArg Response.submitted response, rfl⟩
    · obtain ⟨task, before, same', early⟩ : Survives coordinator (.dispatchNext now) id middle :=
        expiry.survives found fun _ _ late => late
      refine .inl ⟨task, before, same'.trans same, ?_⟩
      intro eligible
      obtain ⟨eligible', notOlder⟩ := kept eligible
      obtain ⟨eligible'', notLate⟩ := early eligible'
      refine ⟨eligible'', ?_⟩
      rintro (late | ⟨owner, older, -⟩)
      · exact notLate late
      · unfold isOlder at notOlder
        rw [same'.spec, Bool.and_eq_false_iff, decide_eq_false_iff_not, decide_eq_false_iff_not] at notOlder
        exact notOlder.elim (fun other => other owner.symm) fun notOlder => notOlder older
  revert admitted held
  generalize (coordinator.submit spec now).1 = after
  generalize (coordinator.submit spec now).2 = result at quiet newer
  intro held admitted
  cases admitted with
  | refused => exact .inl (quiet held nofun)
  | repeated flightId flight existing _ _ _ found =>
    refine .inl (quiet held ?_)
    intro submission same
    cases same
    unfold existingSubscriber at found
    have among := List.find?_some found
    obtain ⟨task, inside, -⟩ := (any_eq_true _ _).mp among
    obtain ⟨before, known, -⟩ := expiry.tasks existing task inside
    exact ⟨before, known⟩
  | joined flightId flight => exact newer rfl held rfl
  | launched => exact newer rfl held rfl

theorem perform_held (coherent : Coherent coordinator) (current : Current coordinator)
    (fresh : ∀ spec now, action = .submit spec now → Fresh coordinator)
    (held : (coordinator.perform action).tasks[id]? = some task') :
    Survives coordinator action id task' ∨ Admits ⟨coordinator, action⟩ id task'.spec := by
  cases action with
  | observeSession session generation => exact .inl (observeSession_survives current held)
  | closeSession session => exact .inl (closeSession_survives held)
  | submit spec now => exact submit_survives coherent (fresh spec now rfl) held
  | dispatchNext now => exact .inl (dispatchNext_survives coherent held)
  | reportProgress flight progress => exact .inl (reportProgress_survives held)
  | reportDiagnostic flight diagnostic => exact .inl (reportDiagnostic_survives held)
  | cancelTask task reason => exact .inl (cancelTask_survives held)
  | cancelOwner owner => exact .inl (cancelOwner_survives held)
  | complete flight report now => exact .inl (complete_survives coherent held)

theorem observeSession_sessions (coordinator : TaskCoordinator) (observed session : SessionId) (generation : SessionGeneration) :
    (coordinator.observeSession observed generation).1.sessions session = coordinator.sessions session ∨
      observed = session ∧ Advances coordinator session generation := by
  by_cases here : session = observed
  · subst here
    unfold observeSession Advances
    split
    · rename_i closed
      rw [closed]
      exact .inr ⟨rfl, nofun, nofun⟩
    · rename_i previous opened
      split
      · exact .inl rfl
      split
      · exact .inl rfl
      · rename_i notOlder different
        rw [opened]
        refine .inr ⟨rfl, fun same => different (some.inj same).symm, ?_⟩
        intro other same
        cases same
        exact Nat.le_of_not_lt notOlder
  · refine .inl ?_
    have advanced : (coordinator.advanceSession observed generation).sessions session = coordinator.sessions session :=
      Function.update_of_ne here _ _
    unfold observeSession
    split
    · exact advanced
    split
    · rfl
    split
    · rfl
    · exact advanced

section

variable (coherent : Coherent coordinator)
include coherent

theorem submit_sessions (spec : TaskSpec) (now : TaskInstant) :
    (coordinator.submit spec now).1.sessions = coordinator.sessions := by
  obtain ⟨expired, -, expiry, admitted, -⟩ := submit_spec coherent spec now
  revert admitted
  generalize (coordinator.submit spec now).1 = after
  generalize (coordinator.submit spec now).2 = result
  intro admitted
  cases admitted <;> exact expiry.sessions

theorem dispatchNext_sessions (now : TaskInstant) :
    (coordinator.dispatchNext now).1.sessions = coordinator.sessions := by
  obtain ⟨expired, -, -, expiry, dispatched⟩ := dispatchNext_spec coherent now
  revert dispatched
  generalize (coordinator.dispatchNext now).1 = after
  generalize (coordinator.dispatchNext now).2 = result
  intro dispatched
  cases dispatched <;> exact expiry.sessions

theorem complete_sessions (flight : FlightId) (report : CompletionReport) (now : TaskInstant) :
    (coordinator.complete flight report now).1.sessions = coordinator.sessions := by
  have completed := complete_spec coherent flight report now
  revert completed
  generalize (coordinator.complete flight report now).1 = after
  generalize (coordinator.complete flight report now).2 = result
  intro completed
  cases completed with
  | failed _ _ expiry => exact expiry.sessions
  | finished expired diagnosed _ _ expiry record _ _ _ rest removed =>
    rw [removed.sessions, rest]
    exact expiry.sessions

end

theorem cancelTask_sessions (coordinator : TaskCoordinator) (task : TaskId) (reason : CancellationReason) :
    (coordinator.cancelTask task reason).1.sessions = coordinator.sessions := by
  unfold cancelTask
  split <;> rfl

theorem perform_sessions (coherent : Coherent coordinator) (action : Action) (session : SessionId) :
    (coordinator.perform action).sessions session = coordinator.sessions session ∨
      (∃ generation, action = .observeSession session generation ∧ Advances coordinator session generation) ∨
        action = .closeSession session := by
  cases action with
  | observeSession observed generation =>
    rcases observeSession_sessions coordinator observed session generation with same | ⟨rfl, advances⟩
    · exact .inl same
    · exact .inr (.inl ⟨generation, rfl, advances⟩)
  | closeSession closed =>
    by_cases here : session = closed
    · exact .inr (.inr (congrArg _ here.symm))
    · exact .inl (Function.update_of_ne here _ _)
  | submit spec now => exact .inl (congrFun (submit_sessions coherent spec now) session)
  | dispatchNext now => exact .inl (congrFun (dispatchNext_sessions coherent now) session)
  | reportProgress flight progress =>
    obtain ⟨tasks, -, after⟩ := reportProgress_spec coordinator flight progress
    exact .inl (by rw [perform_reportProgress, after])
  | reportDiagnostic flight diagnostic =>
    obtain ⟨tasks, -, after⟩ := reportDiagnostic_spec coordinator flight diagnostic
    exact .inl (by rw [perform_reportDiagnostic, after])
  | cancelTask task reason => exact .inl (congrFun (cancelTask_sessions coordinator task reason) session)
  | cancelOwner owner => exact .inl rfl
  | complete flight report now => exact .inl (congrFun (complete_sessions coherent flight report now) session)

theorem perform_current (coherent : Coherent coordinator) (current : Current coordinator)
    (fresh : ∀ spec now, action = .submit spec now → Fresh coordinator) : Current (coordinator.perform action) := by
  intro id task' held eligible
  rcases perform_held coherent current fresh held with ⟨task, before, same, kept⟩ | ⟨-, now, submission, submitted, response, -⟩
  · obtain ⟨eligible', spared⟩ := kept eligible
    have opened := current id task before eligible'
    rw [same.spec]
    rcases perform_sessions coherent action task.spec.owner.scope.session with unmoved | ⟨generation, rfl, advances⟩ | rfl
    · rwa [unmoved]
    · exact absurd ⟨rfl, advances⟩ spared
    · exact absurd rfl spared
  · subst submitted
    obtain ⟨_, -, -, -, screened⟩ := submit_spec coherent task'.spec now
    rw [perform_submit, submit_sessions coherent]
    exact (screened submission (Response.submitted.inj response)).1

end TaskCoordinator

variable {config : CoordinatorConfig} {coordinator : TaskCoordinator}

theorem new_tasks (created : TaskCoordinator.new config = .ok coordinator)
    (id : TaskId) (task : TaskSnapshot) : coordinator.tasks[id]? ≠ some task := by
  unfold TaskCoordinator.new at created
  rw [bind_unit_ok] at created
  cases created.2
  rw [ExtTreeMap.getElem?_empty]
  exact nofun

theorem run_current {events : List TaskEvent}
    (run : TaskRun config events coordinator) (fresh : ∀ event ∈ events, TakesFresh event) :
    coordinator.Coherent ∧ Current coordinator := by
  refine run.invariant (fun state => state.Coherent ∧ Current state) ?_ ?_ fresh
  · intro state created
    exact ⟨new_coherent created, fun id task held => absurd held (new_tasks created id task)⟩
  · rintro state action ⟨coherent, current⟩ allowed
    exact ⟨(perform_coherent coherent action allowed).1, perform_current coherent current allowed⟩

end Audec.Tasks

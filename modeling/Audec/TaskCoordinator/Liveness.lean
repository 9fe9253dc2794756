import Audec.TaskCoordinator.Publication

/-! What an accepted submission may count on. -/

open Machine Checked Entries Runs Option
open Std (ExtTreeMap)

namespace Audec.Tasks

open TaskCoordinator TaskSnapshot.Same

section

variable (coordinator : TaskCoordinator)

def Underway (spec : TaskSpec) (submission : Submission) : Prop :=
  ∃ (task : TaskSnapshot) (flight : FlightRecord), coordinator.tasks[submission.task]? = some task ∧ task.isEligible = true ∧
    task.spec.owner = spec.owner ∧ task.spec.generation = spec.generation ∧
    coordinator.flights[submission.flight]? = some flight ∧ submission.task ∈ flight.subscribers ∧
    flight.key = spec.key ∧ flight.cancelled = false

/-- Whatever happens next, while nothing hits the task and its flight is not completed, the flight stays, and a completion
    of it is passed on to the task. -/
def PublishesUndisturbed (submission : Submission) : Prop :=
  ∀ (events : List TaskEvent) (after : TaskCoordinator), Run TaskCoordinator.perform (· = coordinator) events after →
    (∀ event ∈ events, TakesFresh event ∧ ¬ Hits event submission.task ∧
      ∀ report now, event.action ≠ .complete submission.flight report now) →
    ∃ (task : TaskSnapshot) (flight : FlightRecord), after.tasks[submission.task]? = some task ∧
      after.flights[submission.flight]? = some flight ∧
      (flight.state = .running → ∀ report now, elapsed task.spec.deadline now = false → ∃ batch receipt,
        (after.complete submission.flight report now).2 = .ok batch ∧ receipt ∈ batch.accepted ∧
          receipt.task = submission.task)

def Shares (spec : TaskSpec) (now : TaskInstant) (flight : FlightRecord) : Prop :=
  ∃ id : FlightId, coordinator.singleFlights spec.key = some id ∧ coordinator.flights[id]? = some flight ∧
    Awaited coordinator now flight

/-- If the owner already has a task of this generation on the flight to be shared, it is not cancelling and in time. -/
def NoStaleSubscriber (spec : TaskSpec) (now : TaskInstant) : Prop :=
  ∀ flight, Shares coordinator spec now flight → ∀ existing, coordinator.existingSubscriber spec flight = some existing →
    ∀ task : TaskSnapshot, coordinator.tasks[existing]? = some task →
      task.isEligible = true ∧ elapsed task.spec.deadline now = false

end

namespace TaskCoordinator

variable {coordinator : TaskCoordinator}

section Spared

variable {id : TaskId} {task : TaskSnapshot}

def Kept (after : TaskCoordinator) (id : TaskId) (task : TaskSnapshot) : Prop :=
  ∃ task' : TaskSnapshot, after.tasks[id]? = some task' ∧ TaskSnapshot.Same task task' ∧ task'.isEligible = true

theorem kept_markAll (coordinator : TaskCoordinator) (ids : List TaskId) (reason : CancellationReason)
    (held : coordinator.tasks[id]? = some task) (eligible : task.isEligible = true) (spared : id ∉ ids) :
    Kept (coordinator.markAll ids reason) id task := by
  refine ⟨task, ?_, refl task, eligible⟩
  change (ids.foldl (mark reason) coordinator.tasks)[id]? = some task
  rw [markAll_lookup, held, map_some, if_neg spared]

theorem kept_keeps {tasks : TaskTable} (exact : KeepsEligible coordinator.tasks tasks)
    (held : coordinator.tasks[id]? = some task) (eligible : task.isEligible = true) :
    ∃ task', tasks[id]? = some task' ∧ TaskSnapshot.Same task task' ∧ task'.isEligible = true := by
  obtain ⟨task', found, same, equal⟩ := exact.kept held
  exact ⟨task', found, same, equal.trans eligible⟩

variable {now : TaskInstant}

theorem Expired.stays (coherent : Coherent coordinator) {expired : TaskCoordinator}
    (expiry : Expired now coordinator expired) (held : coordinator.tasks[id]? = some task) (eligible : task.isEligible = true)
    (early : elapsed task.spec.deadline now = false) : expired.tasks[id]? = some task := by
  obtain ⟨flight, placed, inside⟩ := coherent.booked.placed id task held
  obtain ⟨-, stay⟩ := expiry.kept task.flight flight placed (.inr ⟨id, inside, task, held, eligible, early⟩)
  have there := stay id inside
  rw [held, isSome_some] at there
  obtain ⟨task', found⟩ := isSome_iff_exists.mp there
  obtain ⟨same, held', rfl⟩ := expiry.tasks id task' found
  rw [held] at held'
  cases held'
  rw [found, early, if_neg Bool.false_ne_true]

theorem observeSession_kept {session : SessionId} {generation : SessionGeneration} (held : coordinator.tasks[id]? = some task)
    (eligible : task.isEligible = true) (spared : ¬ Revokes coordinator id task.spec (.observeSession session generation)) :
    Kept (coordinator.observeSession session generation).1 id task := by
  have advanced (advances : Advances coordinator session generation) :
      Kept (coordinator.advanceSession session generation) id task := by
    refine kept_markAll coordinator _ _ held eligible ?_
    intro affected
    obtain ⟨same, held', matches'⟩ := mem_selectTasks.mp affected
    rw [held] at held'
    cases held'
    rw [Bool.and_eq_true, decide_eq_true_eq] at matches'
    exact spared ⟨matches'.1, advances⟩
  have unchanged : Kept coordinator id task := ⟨task, held, refl task, eligible⟩
  unfold observeSession
  split
  · rename_i closed
    exact advanced ⟨by rw [closed]; exact nofun, by rw [closed]; exact nofun⟩
  split
  · exact unchanged
  split
  · exact unchanged
  · rename_i previous opened notOlder different
    refine advanced ⟨?_, ?_⟩
    · rw [opened]
      exact fun same => different (some.inj same).symm
    · rw [opened]
      rintro _ ⟨⟩
      exact Nat.le_of_not_lt notOlder

section

variable (coherent : Coherent coordinator)
include coherent

theorem submit_kept {spec : TaskSpec} (fresh : Fresh coordinator)
    (held : coordinator.tasks[id]? = some task) (eligible : task.isEligible = true)
    (spared : ¬ Revokes coordinator id task.spec (.submit spec now)) : Kept (coordinator.submit spec now).1 id task := by
  obtain ⟨expired, -, expiry, admitted, -⟩ := submit_spec coherent spec now
  have stays := expiry.stays coherent held eligible (eq_false_of_ne_true fun late => spared (.inl late))
  have unchanged : Kept expired id task := ⟨task, stays, refl task, eligible⟩
  have unused : ¬ Active coordinator expired.nextTask := by
    rintro ⟨other, found⟩
    rw [expiry.nextTask, fresh.task] at found
    cases found
  have newer {admitted : TaskCoordinator} {new : TaskSnapshot} {flightId : FlightId} {joined : Bool}
      (tasks : admitted.tasks = expired.tasks.insert expired.nextTask new)
      (response : (coordinator.submit spec now).2 = .ok ⟨expired.nextTask, flightId, joined⟩) :
      Kept (admitted.supersedeOlder spec expired.nextTask) id task := by
    refine ⟨task, ?_, refl task, eligible⟩
    have different : ¬ expired.nextTask = id := by
      rintro rfl
      exact unused ⟨task, held⟩
    rw [supersedeOlder_lookup, tasks, lookup_insert, if_neg different, stays, map_some, if_neg]
    rintro ⟨-, older⟩
    rw [isOlder, Bool.and_eq_true, decide_eq_true_eq, decide_eq_true_eq] at older
    exact spared (.inr ⟨older.1.symm, older.2, _, unused, now, _, rfl, congrArg Response.submitted response, rfl⟩)
  revert admitted
  generalize (coordinator.submit spec now).1 = after
  generalize (coordinator.submit spec now).2 = result at newer
  intro admitted
  cases admitted with
  | refused => exact unchanged
  | repeated => exact unchanged
  | joined => exact newer rfl rfl
  | launched => exact newer rfl rfl

section

variable (held : coordinator.tasks[id]? = some task) (eligible : task.isEligible = true)
include held eligible

theorem dispatchNext_kept (spared : ¬ Revokes coordinator id task.spec (.dispatchNext now)) :
    Kept (coordinator.dispatchNext now).1 id task := by
  obtain ⟨expired, -, -, expiry, dispatched⟩ := dispatchNext_spec coherent now
  have stays := expiry.stays coherent held eligible (eq_false_of_ne_true spared)
  revert dispatched
  generalize (coordinator.dispatchNext now).1 = after
  generalize (coordinator.dispatchNext now).2 = result
  intro dispatched
  cases dispatched with
  | idle => exact ⟨task, stays, refl task, eligible⟩
  | started other flight => exact kept_keeps (keepsEligible_foldl start_keeps flight.subscribers expired.tasks) stays eligible

theorem complete_kept {flightId : FlightId} {report : CompletionReport}
    (spared : ¬ Revokes coordinator id task.spec (.complete flightId report now)) (other : task.flight ≠ flightId) :
    Kept (coordinator.complete flightId report now).1 id task := by
  have completed := complete_spec coherent flightId report now
  revert completed
  generalize (coordinator.complete flightId report now).1 = after
  generalize (coordinator.complete flightId report now).2 = result
  intro completed
  cases completed with
  | failed _ _ expiry =>
    exact ⟨task, expiry.stays coherent held eligible (eq_false_of_ne_true spared), refl task, eligible⟩
  | finished expired diagnosed _ coherent' expiry flight found _ exact _ removed =>
    have stays := expiry.stays coherent held eligible (eq_false_of_ne_true spared)
    unfold Kept
    rw [removed.tasks, if_neg]
    · exact kept_keeps exact stays eligible
    · intro inside
      obtain ⟨same, stays', placed, -⟩ := (coherent'.booked.staffed flightId flight found).2 id inside
      rw [stays] at stays'
      cases stays'
      exact other placed

end

theorem perform_kept {action : Action}
    (fresh : ∀ spec now, action = .submit spec now → Fresh coordinator) (held : coordinator.tasks[id]? = some task)
    (eligible : task.isEligible = true) (spared : ¬ Revokes coordinator id task.spec action)
    (other : ∀ report now, action ≠ .complete task.flight report now) : Kept (coordinator.perform action) id task := by
  have selected {test : TaskId → TaskSnapshot → Bool} (passes : id ∈ coordinator.selectTasks test) : test id task = true := by
    obtain ⟨same, held', tested⟩ := mem_selectTasks.mp passes
    rw [held] at held'
    cases held'
    exact tested
  cases action with
  | observeSession session generation => exact observeSession_kept held eligible spared
  | closeSession session =>
    refine kept_markAll coordinator _ _ held eligible fun affected => spared ?_
    have hit : task.spec.owner.scope.session = session := of_decide_eq_true (selected affected)
    exact hit
  | submit spec now => exact submit_kept coherent (fresh spec now rfl) held eligible spared
  | dispatchNext now => exact dispatchNext_kept coherent held eligible spared
  | reportProgress flight progress =>
    obtain ⟨tasks, exact, after⟩ := reportProgress_spec coordinator flight progress
    rw [perform_reportProgress, after]
    exact kept_keeps exact held eligible
  | reportDiagnostic flight diagnostic =>
    obtain ⟨tasks, exact, after⟩ := reportDiagnostic_spec coordinator flight diagnostic
    rw [perform_reportDiagnostic, after]
    exact kept_keeps exact held eligible
  | cancelTask cancelled reason =>
    change Kept (coordinator.cancelTask cancelled reason).1 id task
    unfold cancelTask
    split
    · exact ⟨task, held, refl task, eligible⟩
    · exact kept_markAll coordinator [cancelled] reason held eligible fun hit => spared (List.mem_singleton.mp hit).symm
  | cancelOwner owner =>
    refine kept_markAll coordinator _ _ held eligible fun affected => spared ?_
    have hit : task.spec.owner = owner := of_decide_eq_true (selected affected)
    exact hit
  | complete flight report now =>
    refine complete_kept coherent held eligible spared ?_
    rintro rfl
    exact other report now rfl

end

end Spared

theorem complete_accepts (coherent : Coherent coordinator) (current : Current coordinator) {id : TaskId} {task : TaskSnapshot}
    (held : coordinator.tasks[id]? = some task) (eligible : task.isEligible = true) {now : TaskInstant}
    (early : elapsed task.spec.deadline now = false) {flight : FlightRecord}
    (found : coordinator.flights[task.flight]? = some flight) (running : flight.state = .running) (report : CompletionReport) :
    ∃ batch receipt, (coordinator.complete task.flight report now).2 = .ok batch ∧ receipt ∈ batch.accepted ∧
      receipt.task = id := by
  have completed := complete_spec coherent task.flight report now
  revert completed
  generalize (coordinator.complete task.flight report now).1 = after
  generalize (coordinator.complete task.flight report now).2 = result
  intro completed
  cases completed with
  | failed _ _ expiry _ idle =>
    obtain ⟨⟨flight', found', same⟩, -⟩ := expiry.kept task.flight flight found (.inl running)
    have queued := idle flight' found'
    rw [same.state, running] at queued
    cases queued
  | finished expired diagnosed _ coherent' expiry flight' found' _ exact rest _ =>
    obtain ⟨snapshot, diagnosed', same, equal⟩ := exact.kept (expiry.stays coherent held eligible early)
    obtain ⟨other, held', inside⟩ := coherent'.booked.placed id task (expiry.stays coherent held eligible early)
    rw [found'] at held'
    cases held'
    refine ⟨_, _, rfl, accepted_of_passed inside diagnosed' (rejection_none.mpr ⟨?_, ?_, equal.trans eligible⟩), rfl⟩
    · rw [rest, same.spec]
      change expired.sessions _ = _
      rw [expiry.sessions]
      exact current id task held eligible
    · rw [same.spec]
      exact early

end TaskCoordinator

variable {coordinator : TaskCoordinator} {submission : Submission} {spec : TaskSpec}

theorem publishes_undisturbed (coherent : coordinator.Coherent) (current : Current coordinator)
    {task : TaskSnapshot} (held : coordinator.tasks[submission.task]? = some task)
    (eligible : task.isEligible = true) (placed : task.flight = submission.flight) :
    PublishesUndisturbed coordinator submission := by
  intro events after run undisturbed
  have kept : after.Coherent ∧ Current after ∧ Kept after submission.task task := by
    refine run.invariant (fun state => state.Coherent ∧ Current state ∧ Kept state submission.task task) ?_ ?_ undisturbed
    · rintro state rfl
      exact ⟨coherent, current, task, held, refl task, eligible⟩
    · rintro state action ⟨coherent, current, task', held', same, eligible'⟩ ⟨fresh, spared, other⟩
      refine ⟨(perform_coherent coherent action fresh).1, perform_current coherent current fresh, ?_⟩
      obtain ⟨task'', held'', same', eligible''⟩ := perform_kept coherent fresh held' eligible'
        (fun revokes => spared ⟨task', held', revokes⟩) (by rw [same.flight, placed]; exact other)
      exact ⟨task'', held'', same.trans same', eligible''⟩
  obtain ⟨coherent', current', task', held', same, eligible'⟩ := kept
  obtain ⟨flight, found, -⟩ := coherent'.booked.placed submission.task task' held'
  have here : task'.flight = submission.flight := same.flight.trans placed
  rw [here] at found
  refine ⟨task', flight, held', found, ?_⟩
  intro running report now early
  rw [← here] at found ⊢
  exact complete_accepts coherent' current' held' eligible' early found running report

/-- A new task is under way on a flight that is not cancelled, whatever it supersedes. -/
theorem supersedeOlder_underway {admitted : TaskCoordinator} {newId : TaskId} {flightId : FlightId}
    (state : FlightState) (record : FlightRecord)
    (new : admitted.tasks[newId]? = some (newTask newId flightId spec state.taskState))
    (held : admitted.flights[flightId]? = some record) (inside : newId ∈ record.subscribers) (named : record.key = spec.key)
    (running : record.cancelled = false) (joined : Bool) :
    Underway (admitted.supersedeOlder spec newId) spec ⟨newId, flightId, joined⟩ := by
  have eligible : (newTask newId flightId spec state.taskState).isEligible = true := by cases state <;> rfl
  have task : (admitted.supersedeOlder spec newId).tasks[newId]? = some (newTask newId flightId spec state.taskState) := by
    rw [supersedeOlder_lookup, new, map_some, if_neg fun older => older.1 rfl]
  refine ⟨_, record, task, eligible, rfl, rfl, ?_, inside, named, running⟩
  have observed : record.hasEligible (admitted.supersedeOlder spec newId).tasks = true :=
    List.any_eq_true.mpr ⟨newId, inside, by rw [task]; exact eligible⟩
  unfold supersedeOlder cancelUnobservedFlights at observed ⊢
  dsimp only at observed ⊢
  rw [ExtTreeMap.getElem?_map]
  change Option.map _ admitted.flights[flightId]? = _
  rw [held, map_some, if_pos observed]

theorem TaskCoordinator.Expired.existingSubscriber {expired : TaskCoordinator} {now : TaskInstant}
    (expiry : Expired now coordinator expired) {id : FlightId} {flight flight' : FlightRecord}
    (held : coordinator.flights[id]? = some flight) (awaited : Awaited coordinator now flight)
    (same : FlightRecord.Same flight flight') :
    expired.existingSubscriber spec flight' = coordinator.existingSubscriber spec flight := by
  obtain ⟨-, stay⟩ := expiry.kept id flight held (.inr awaited)
  unfold TaskCoordinator.existingSubscriber
  rw [same.subscribers]
  apply List.find?_congr
  intro subscriber inside
  have there := stay subscriber inside
  cases found : expired.tasks[subscriber]? with
  | none =>
    rw [found] at there
    cases found' : coordinator.tasks[subscriber]? with
    | none => rfl
    | some task =>
      rw [found'] at there
      cases there
  | some task' =>
    obtain ⟨task, found', marked⟩ := expiry.tasks subscriber task' found
    have spec : task'.spec = task.spec := by
      rw [marked]
      split
      · exact (TaskSnapshot.marked_same _ task).spec
      · rfl
    rw [found', any_some, any_some, spec]

theorem Underway.publishes (coherent : coordinator.Coherent) (current : Current coordinator)
    (underway : Underway coordinator spec submission) :
    PublishesUndisturbed coordinator submission := by
  obtain ⟨task, flight, held, eligible, -, -, found, inside, -⟩ := underway
  obtain ⟨same, held', placed, -⟩ := (coherent.booked.staffed submission.flight flight found).2 submission.task inside
  rw [held] at held'
  cases held'
  exact publishes_undisturbed coherent current held eligible placed

theorem submit_underway_iff (coherent : coordinator.Coherent)
    {now : TaskInstant} (accepted : (coordinator.submit spec now).2 = .ok submission) :
    Underway (coordinator.submit spec now).1 spec submission ↔ NoStaleSubscriber coordinator spec now := by
  obtain ⟨expired, coherent', expiry, admitted, -⟩ := submit_spec coherent spec now
  -- what is shared after the expiry is what would have been shared before
  have shared {id : FlightId} {flight' : FlightRecord} (indexed : expired.singleFlights spec.key = some id)
      (held : expired.flights[id]? = some flight') : ∃ flight, coordinator.flights[id]? = some flight ∧
        Awaited coordinator now flight ∧ (∀ other, Shares coordinator spec now other ↔ other = flight) ∧
        expired.existingSubscriber spec flight' = coordinator.existingSubscriber spec flight := by
    obtain ⟨indexed', flight, found, awaited⟩ := (expiry.index _ _).mp indexed
    obtain ⟨original, found', same⟩ := expiry.flights id flight' held
    rw [found] at found'
    cases found'
    refine ⟨flight, found, awaited, ?_, expiry.existingSubscriber found awaited same⟩
    intro other
    constructor
    · rintro ⟨id', indexed'', found'', -⟩
      rw [indexed'] at indexed''
      cases indexed''
      rw [found] at found''
      cases found''
      rfl
    · rintro rfl
      exact ⟨id, indexed', found, awaited⟩
  revert admitted
  generalize (coordinator.submit spec now).1 = after
  rw [accepted]
  intro admitted
  cases admitted with
  | repeated flightId flight' existing indexed held running found =>
    obtain ⟨flight, found', awaited, only, same⟩ := shared indexed held
    rw [same] at found
    obtain ⟨sharer, sharer', named⟩ := coherent'.booked.indexed spec.key flightId indexed
    rw [held] at sharer'
    cases sharer'
    constructor
    · rintro ⟨task', record, there, eligible, -⟩ other shares existing' found'' task known
      rw [(only other).mp shares, found] at found''
      cases found''
      obtain ⟨original, known', marked⟩ := expiry.tasks existing task' there
      rw [known] at known'
      cases known'
      by_cases late : elapsed task.spec.deadline now = true
      · rw [marked, if_pos late, TaskSnapshot.marked_ineligible] at eligible
        cases eligible
      · rw [marked, if_neg late] at eligible
        exact ⟨eligible, eq_false_of_ne_true late⟩
    · intro fine
      have among := found
      unfold existingSubscriber at among
      have passes := List.find?_some among
      obtain ⟨task, known, matches'⟩ := (any_eq_true _ _).mp passes
      rw [Bool.and_eq_true, decide_eq_true_eq, decide_eq_true_eq] at matches'
      obtain ⟨eligible, early⟩ := fine flight ((only flight).mpr rfl) existing found task known
      have inside : existing ∈ flight'.subscribers := by
        rw [← same] at found
        exact List.mem_of_find?_eq_some found
      exact ⟨task, flight', expiry.stays coherent known eligible early, eligible, matches'.1, matches'.2, held, inside, named,
        running⟩
  | joined flightId flight' indexed held running _ absent =>
    obtain ⟨flight, found', awaited, only, same⟩ := shared indexed held
    obtain ⟨sharer, sharer', named⟩ := coherent'.booked.indexed spec.key flightId indexed
    rw [held] at sharer'
    cases sharer'
    refine iff_of_true ?_ ?_
    · rw [subscribe_eq]
      refine supersedeOlder_underway flight'.state { flight' with subscribers := flight'.subscribers ++ [expired.nextTask] }
        ?_ ?_ (List.mem_append_right _ List.mem_cons_self) named running true
      · exact (lookup_insert _ _ _ _).trans (if_pos rfl)
      · exact (lookup_insert _ _ _ _).trans (if_pos rfl)
    · intro other shares existing found
      rw [(only other).mp shares, ← same, absent] at found
      cases found
  | launched unshared =>
    refine iff_of_true ?_ ?_
    · rw [launch_eq]
      refine supersedeOlder_underway .queued ⟨expired.nextFlight, spec.key, .queued, now, [expired.nextTask], false⟩
        ?_ ?_ List.mem_cons_self rfl rfl false
      · exact (lookup_insert _ _ _ _).trans (if_pos rfl)
      · exact (lookup_insert _ _ _ _).trans (if_pos rfl)
    · rintro other ⟨id, indexed, found, awaited⟩
      have indexed' := (expiry.index spec.key id).mpr ⟨indexed, other, found, awaited⟩
      rw [unshared] at indexed'
      cases indexed'

/-- An accepted submission is live, and published undisturbed, exactly if it was not answered with a task of the same owner
    that is already cancelling or late. -/
theorem submit_live_iff {config : CoordinatorConfig} {events : List TaskEvent} {coordinator : TaskCoordinator}
    (run : TaskRun config events coordinator) {spec : TaskSpec} {now : TaskInstant}
    (fresh : ∀ event ∈ events ++ [⟨coordinator, .submit spec now⟩], TakesFresh event) {submission : Submission}
    (accepted : (coordinator.submit spec now).2 = .ok submission) :
    (Underway (coordinator.submit spec now).1 spec submission ∧
      PublishesUndisturbed (coordinator.submit spec now).1 submission) ↔ NoStaleSubscriber coordinator spec now := by
  have before := run_coherent run fun event inside => fresh event (List.mem_append_left _ inside)
  obtain ⟨coherent, current⟩ := run_current (run.step (.submit spec now)) fresh
  exact (and_iff_left_of_imp fun underway => underway.publishes coherent current).trans (submit_underway_iff before accepted)

theorem first_errand_live : Underway ((quiet 1 []).submit (errand graphRecipe) 0).1 (errand graphRecipe) ⟨1, 1, false⟩ ∧
    PublishesUndisturbed ((quiet 1 []).submit (errand graphRecipe) 0).1 ⟨1, 1, false⟩ := by
  obtain ⟨before, -, run⟩ := opening_run
  refine (submit_live_iff run ?_ (congrArg Prod.snd (quiet_submit 1 [] graphRecipe))).mpr ?_
  · intro event inside
    rcases List.mem_append.mp inside with early | last
    · cases List.mem_singleton.mp early
      exact nofun
    · cases List.mem_singleton.mp last
      exact fun _ _ _ => quiet_fresh 1 []
  · rintro flight ⟨id, indexed, -⟩
    cases indexed

/-- The same work for either of two owners. -/
def request (owner : TaskOwner) : TaskSpec where
  owner := ⟨owner, ⟨0, .session⟩⟩
  generation := 0
  recipe := graphRecipe
  resource := .cpu
  priority := .interactive
  deadline := none

/-- Two owners wait for one flight, and the task of the first is cancelled. -/
def halfCancelled : TaskCoordinator :=
  (((quiet 1 []).perform (.submit (request 1) 0)).perform (.submit (request 2) 0)).perform (.cancelTask 1 .requested)

theorem cancelled_subscriber_returned : ∃ (events : List TaskEvent) (submission : Submission),
    TaskRun .default events halfCancelled ∧ (halfCancelled.submit (request 1) 0).2 = .ok submission ∧
      ¬ (Underway (halfCancelled.submit (request 1) 0).1 (request 1) submission ∧
        PublishesUndisturbed (halfCancelled.submit (request 1) 0).1 submission) := by
  obtain ⟨before, -, run⟩ := opening_run
  have again : (halfCancelled.submit (request 1) 0).2.toOption = some ⟨1, 1, true⟩ := by decide
  have cancelling : (halfCancelled.submit (request 1) 0).1.tasks[(1 : TaskId)]?.any TaskSnapshot.isEligible = false := by
    decide
  refine ⟨_, ⟨1, 1, true⟩, ((run.step (.submit (request 1) 0)).step (.submit (request 2) 0)).step (.cancelTask 1 .requested), ?_, ?_⟩
  · revert again
    generalize (halfCancelled.submit (request 1) 0).2 = result
    intro again
    cases result with
    | error => cases again
    | ok submission => exact congrArg Except.ok (Option.some.inj again)
  · rintro ⟨⟨task, flight, held, eligible, -⟩, -⟩
    rw [held, Option.any_some, eligible] at cancelling
    cases cancelling

end Audec.Tasks

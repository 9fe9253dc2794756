import Audec.TaskCoordinator.Bookkeeping
import Audec.TaskCoordinator.Effects

/-! Who may publish, and how tasks leave. -/

open Machine Checked Entries Runs List Std.ExtTreeMap
open Std (ExtTreeMap)

namespace Audec.Tasks

open TaskCoordinator

/-- The time an operation is told. -/
def momentOf : Action → Option TaskInstant
  | .submit _ now => some now
  | .dispatchNext now => some now
  | .complete _ _ now => some now
  | _ => none

def Returned (event : TaskEvent) (id : TaskId) : Prop :=
  ∃ flight report now batch, event.action = .complete flight report now ∧
    responseOf event = .completed (.ok batch) ∧ id ∈ batch.tasks

def Idle (coordinator : TaskCoordinator) (now : TaskInstant) (id : TaskId) : Prop :=
  ∃ (task : TaskSnapshot) (flight : FlightRecord), coordinator.tasks[id]? = some task ∧
    coordinator.flights[task.flight]? = some flight ∧ flight.state = .queued ∧
    ∀ subscriber ∈ flight.subscribers, ∀ other : TaskSnapshot, coordinator.tasks[subscriber]? = some other →
      other.isEligible = false ∨ elapsed other.spec.deadline now = true

def Abandons (event : TaskEvent) (id : TaskId) : Prop :=
  ∃ now, momentOf event.action = some now ∧ Idle event.before now id

namespace TaskCoordinator

variable {coordinator : TaskCoordinator} {id : TaskId}

variable {now : TaskInstant} {flightId : FlightId} {report : CompletionReport}

section

variable (coherent : Coherent coordinator)
include coherent

theorem Expired.idle {expired : TaskCoordinator}
    (expiry : Expired now coordinator expired) (there : Active coordinator id) (gone : ¬ Active expired id) :
    Idle coordinator now id := by
  obtain ⟨task, held⟩ := there
  have absent : expired.tasks[id]? = none := by
    cases found : expired.tasks[id]? with
    | none => rfl
    | some task' => exact absurd ⟨task', found⟩ gone
  obtain ⟨-, flight, found, queued⟩ := expiry.gone id task held absent
  refine ⟨task, flight, held, found, queued, ?_⟩
  intro subscriber inside other held'
  by_contra active
  push Not at active
  obtain ⟨-, stay⟩ := expiry.kept task.flight flight found
    (.inr ⟨subscriber, inside, other, held', eq_true_of_ne_false active.1, eq_false_of_ne_true active.2⟩)
  obtain ⟨same, found', among⟩ := coherent.booked.placed id task held
  rw [found] at found'
  cases found'
  have stays := stay id among
  rw [absent, held] at stays
  cases stays

theorem submit_left {spec : TaskSpec} (there : Active coordinator id)
    (gone : ¬ Active (coordinator.submit spec now).1 id) : Idle coordinator now id := by
  obtain ⟨expired, -, expiry, admitted, -⟩ := submit_spec coherent spec now
  refine expiry.idle coherent there ?_
  intro still
  have superseded (admitted : TaskCoordinator) (new : TaskSnapshot) (newId : TaskId)
      (tasks : admitted.tasks = expired.tasks.insert newId new) : Active (admitted.supersedeOlder spec newId) id := by
    obtain ⟨task, held⟩ := still
    unfold Active
    rw [supersedeOlder_lookup, tasks, lookup_insert]
    split
    · exact ⟨_, rfl⟩
    · rw [held]
      exact ⟨_, rfl⟩
  revert admitted gone
  generalize (coordinator.submit spec now).1 = after
  generalize (coordinator.submit spec now).2 = result
  intro gone admitted
  cases admitted with
  | refused => exact gone still
  | repeated => exact gone still
  | joined => exact gone (superseded _ _ _ rfl)
  | launched => exact gone (superseded _ _ _ rfl)

theorem dispatchNext_left (there : Active coordinator id)
    (gone : ¬ Active (coordinator.dispatchNext now).1 id) : Idle coordinator now id := by
  obtain ⟨expired, -, -, expiry, dispatched⟩ := dispatchNext_spec coherent now
  refine expiry.idle coherent there ?_
  intro still
  revert dispatched gone
  generalize (coordinator.dispatchNext now).1 = after
  generalize (coordinator.dispatchNext now).2 = result
  intro gone dispatched
  cases dispatched with
  | idle => exact gone still
  | started other flight => exact gone ((keepsEligible_foldl start_keeps flight.subscribers expired.tasks).keeps.active still)

theorem complete_ok
    {batch : CompletionBatch} (returned : (coordinator.complete flightId report now).2 = .ok batch) :
    ∃ flight : FlightRecord, coordinator.flights[flightId]? = some flight ∧ flight.state = .running ∧
      batch.tasks.Perm flight.subscribers ∧
      (∀ task ∈ flight.subscribers, ¬ Active (coordinator.complete flightId report now).1 task) ∧
      ∀ receipt ∈ batch.accepted, ∃ task : TaskSnapshot, coordinator.tasks[receipt.task]? = some task ∧
        task.isEligible = true ∧ coordinator.sessions task.spec.owner.scope.session = some task.spec.generation ∧
        elapsed task.spec.deadline now = false := by
  have completed := complete_spec coherent flightId report now
  revert completed returned
  generalize (coordinator.complete flightId report now).1 = after
  generalize (coordinator.complete flightId report now).2 = result
  intro returned completed
  cases completed with
  | failed => cases returned
  | finished expired diagnosed _ coherent' expiry flight' held running exact rest removed =>
    cases returned
    obtain ⟨flight, before, same⟩ := expiry.flights flightId flight' held
    have staffed := (coherent'.booked.staffed flightId flight' held).2
    have active : ∀ task ∈ flight'.subscribers, ∃ snapshot : TaskSnapshot, diagnosed.tasks[task]? = some snapshot := by
      intro task inside
      obtain ⟨snapshot, found, -⟩ := staffed task inside
      exact exact.keeps.active ⟨snapshot, found⟩
    refine ⟨flight, before, same.state.symm.trans running, ?_, ?_, ?_⟩
    · rw [← same.subscribers]
      exact gate_perm active
    · rintro task inside ⟨snapshot, left⟩
      rw [removed.tasks, if_pos (same.subscribers ▸ inside)] at left
      cases left
    · intro receipt accepted
      obtain ⟨task, -, snapshot, found, passed, rfl⟩ := mem_accepted accepted
      obtain ⟨opened, early, eligible⟩ := rejection_none.mp passed
      obtain ⟨middle, found', same', kept⟩ := exact.keeps.held found
      obtain ⟨original, known, marked⟩ := expiry.tasks task middle found'
      rw [same'.spec] at opened early
      rw [rest] at opened
      change expired.sessions _ = _ at opened
      rw [expiry.sessions] at opened
      by_cases late : elapsed original.spec.deadline now = true
      · rw [if_pos late] at marked
        rw [marked, TaskSnapshot.marked_ineligible] at kept
        exact absurd (kept eligible) Bool.false_ne_true
      · rw [if_neg late] at marked
        subst marked
        exact ⟨middle, known, kept eligible, opened, early⟩

theorem complete_left
    (there : Active coordinator id) (gone : ¬ Active (coordinator.complete flightId report now).1 id) :
    (∃ batch, (coordinator.complete flightId report now).2 = .ok batch ∧ id ∈ batch.tasks) ∨ Idle coordinator now id := by
  have completed := complete_spec coherent flightId report now
  revert completed gone
  generalize (coordinator.complete flightId report now).1 = after
  generalize (coordinator.complete flightId report now).2 = result
  intro gone completed
  cases completed with
  | failed _ _ expiry => exact .inr (expiry.idle coherent there gone)
  | finished expired diagnosed _ coherent' expiry flight held _ exact rest removed =>
    by_cases inside : id ∈ flight.subscribers
    · refine .inl ⟨_, rfl, (gate_perm ?_).mem_iff.mpr inside⟩
      intro task among
      obtain ⟨snapshot, found, -⟩ := (coherent'.booked.staffed flightId flight held).2 task among
      exact exact.keeps.active ⟨snapshot, found⟩
    · refine .inr (expiry.idle coherent there ?_)
      intro still
      obtain ⟨snapshot, kept⟩ := exact.keeps.active still
      exact gone ⟨snapshot, by rw [removed.tasks, if_neg inside, kept]⟩

theorem perform_left {action : Action} (there : Active coordinator id)
    (gone : ¬ Active (coordinator.perform action) id) :
    Returned ⟨coordinator, action⟩ id ∨ Abandons ⟨coordinator, action⟩ id := by
  have marked {ids : List TaskId} {reason : CancellationReason} : ¬ ¬ Active (coordinator.markAll ids reason) id :=
    fun gone => gone ((markAll_keeps reason ids coordinator.tasks).active there)
  cases action with
  | observeSession session generation =>
    refine absurd ?_ gone
    change Active (coordinator.observeSession session generation).1 id
    unfold observeSession
    split
    · exact not_not.mp marked
    split
    · exact there
    split
    · exact there
    · exact not_not.mp marked
  | closeSession session => exact absurd gone marked
  | submit spec now => exact .inr ⟨now, rfl, submit_left coherent there gone⟩
  | dispatchNext now => exact .inr ⟨now, rfl, dispatchNext_left coherent there gone⟩
  | reportProgress flight progress =>
    obtain ⟨tasks, exact, after⟩ := reportProgress_spec coordinator flight progress
    rw [perform_reportProgress, after] at gone
    exact absurd (exact.keeps.active there) gone
  | reportDiagnostic flight diagnostic =>
    obtain ⟨tasks, exact, after⟩ := reportDiagnostic_spec coordinator flight diagnostic
    rw [perform_reportDiagnostic, after] at gone
    exact absurd (exact.keeps.active there) gone
  | cancelTask task reason =>
    refine absurd ?_ gone
    change Active (coordinator.cancelTask task reason).1 id
    unfold cancelTask
    split
    · exact there
    · exact (markAll_keeps reason [task] coordinator.tasks).active there
  | cancelOwner owner => exact absurd gone marked
  | complete flight report now =>
    rcases complete_left coherent there gone with ⟨batch, response, inside⟩ | idle
    · exact .inl ⟨flight, report, now, batch, rfl, congrArg Response.completed response, inside⟩
    · exact .inr ⟨now, rfl, idle⟩

end

theorem returned_leaves {event : TaskEvent} (coherent : Coherent event.before) (returned : Returned event id) :
    Active event.before id ∧ ¬ Active (afterOf event) id ∧ ¬ Abandons event id := by
  obtain ⟨before, action⟩ := event
  obtain ⟨flightId, report, now, batch, rfl, response, inside⟩ := returned
  obtain ⟨flight, held, running, perm, left, -⟩ := complete_ok coherent (Response.completed.inj response)
  have among := perm.mem_iff.mp inside
  obtain ⟨task, found, placed, -⟩ := (coherent.booked.staffed flightId flight held).2 id among
  refine ⟨⟨task, found⟩, left id among, ?_⟩
  rintro ⟨_, -, same, other, found', held', queued, -⟩
  rw [found] at found'
  cases found'
  rw [placed, held] at held'
  cases held'
  rw [running] at queued
  cases queued

end TaskCoordinator

def NewIds (earlier : List TaskEvent) (event : TaskEvent) : Prop :=
  ∀ spec now, event.action = .submit spec now →
    event.before.Fresh ∧ ∀ other ∈ earlier, ¬ Active other.before event.before.nextTask

/-- A task that may be published: submitted at the generation its session is still at, in time, and not hit by anything
    since then. -/
def Authorized (earlier : List TaskEvent) (coordinator : TaskCoordinator) (now : TaskInstant) (id : TaskId) : Prop :=
  ∃ origin submission between spec, earlier = origin ++ submission :: between ∧ Admits submission id spec ∧
    coordinator.sessions spec.owner.scope.session = some spec.generation ∧
    (∀ deadline, spec.deadline = some deadline → now < deadline) ∧ ∀ event ∈ between, ¬ Hits event id

structure Published (events : List TaskEvent) : Prop where
  authority : ∀ earlier event later, events = earlier ++ event :: later → ∀ flight report now batch,
    event.action = .complete flight report now → responseOf event = .completed (.ok batch) →
      batch.tasks.Nodup ∧ ∀ receipt ∈ batch.accepted, Authorized earlier event.before now receipt.task
  once : ∀ earlier first between second later, events = earlier ++ first :: (between ++ second :: later) →
    ∀ id, Returned first id → ¬ Returned second id
  leaves : ∀ earlier event later, events = earlier ++ event :: later → ∀ id, Active event.before id →
    ¬ Active (afterOf event) id → Xor (Returned event id) (Abandons event id) ∧
      ∀ other ∈ later, ¬ Active other.before id ∧ ¬ Active (afterOf other) id

/-- What a run with new identifiers keeps. -/
structure Tracked (events : List TaskEvent) (coordinator : TaskCoordinator) : Prop where
  coherent : coordinator.Coherent
  current : Current coordinator
  /-- Every active task was admitted, and hit by nothing since then if it is not cancelling. -/
  origin : ∀ (id : TaskId) (task : TaskSnapshot), coordinator.tasks[id]? = some task →
    ∃ before submission between, events = before ++ submission :: between ∧ Admits submission id task.spec ∧
      (task.isEligible = true → ∀ event ∈ between, ¬ Hits event id)
  /-- What has left does not come back. -/
  gone : ∀ earlier event later, events = earlier ++ event :: later → ∀ id, Active event.before id →
    ¬ Active (afterOf event) id → (∀ other ∈ later, ¬ Active other.before id ∧ ¬ Active (afterOf other) id) ∧
      ¬ Active coordinator id

variable {event : TaskEvent} {coordinator : TaskCoordinator} {events : List TaskEvent}

theorem admits_next (coherent : event.before.Coherent) {id : TaskId} {spec : TaskSpec}
    (admits : Admits event id spec) : id = event.before.nextTask := by
  obtain ⟨before, action⟩ := event
  obtain ⟨absent, now, submission, rfl, response, rfl⟩ := admits
  obtain ⟨expired, -, expiry, admitted, -⟩ := submit_spec coherent spec now
  have accepted : (before.submit spec now).2 = .ok submission := Response.submitted.inj response
  change Admitted expired spec now (before.submit spec now).1 (before.submit spec now).2 at admitted
  revert admitted
  generalize (before.submit spec now).1 = after
  rw [accepted]
  intro admitted
  cases admitted with
  | repeated flightId flight existing _ _ _ found =>
    unfold existingSubscriber at found
    have among := find?_some found
    obtain ⟨task, inside, -⟩ := (Option.any_eq_true _ _).mp among
    obtain ⟨original, known, -⟩ := expiry.tasks existing task inside
    exact absurd ⟨original, known⟩ absent
  | joined => exact expiry.nextTask
  | launched => exact expiry.nextTask

theorem NewIds.takesFresh {earlier : List TaskEvent} (new : NewIds earlier event) : TakesFresh event :=
  fun spec now submitted => (new spec now submitted).1

theorem Tracked.step (tracked : Tracked events coordinator)
    (action : Action) (new : NewIds events ⟨coordinator, action⟩) :
    Tracked (events ++ [⟨coordinator, action⟩]) (coordinator.perform action) := by
  have fresh : ∀ spec now, action = .submit spec now → coordinator.Fresh := fun spec now submitted => (new spec now submitted).1
  obtain ⟨coherent, current, origin, gone⟩ := tracked
  refine ⟨(perform_coherent coherent action new.takesFresh).1, perform_current coherent current fresh, ?_, ?_⟩
  · intro id task' held
    rcases perform_held coherent current fresh held with ⟨task, before, same, kept⟩ | admits
    · obtain ⟨earlier, submission, between, rfl, admits, spared⟩ := origin id task before
      refine ⟨earlier, submission, between ++ [⟨coordinator, action⟩], ?_, ?_, ?_⟩
      · rw [append_assoc, cons_append]
      · rw [same.spec]
        exact admits
      · intro eligible event inside
        obtain ⟨eligible', notRevoked⟩ := kept eligible
        rcases mem_append.mp inside with old | last
        · exact spared eligible' event old
        · rw [mem_singleton.mp last]
          rintro ⟨other, before', revokes⟩
          rw [before] at before'
          cases before'
          exact notRevoked revokes
    · refine ⟨events, _, [], rfl, admits, ?_⟩
      intro _ event inside
      cases inside
  · intro earlier event later split id there left
    rcases Run.split_last split with ⟨rfl, rfl, rfl⟩ | ⟨later', rfl, rfl⟩
    · exact ⟨nofun, left⟩
    · obtain ⟨always, absent⟩ := gone earlier event later' rfl id there left
      have stays : ¬ Active (coordinator.perform action) id := by
        rintro ⟨task, held⟩
        rcases perform_held coherent current fresh held with ⟨task', before, -⟩ | admits
        · exact absent ⟨task', before⟩
        · have next := admits_next coherent admits
          obtain ⟨_, now, _, submitted, -⟩ := admits
          have unused := (new _ now submitted).2 event (mem_append_right _ mem_cons_self)
          rw [next] at there
          exact unused there
      refine ⟨?_, stays⟩
      intro other inside
      rcases mem_append.mp inside with old | last
      · exact always other old
      · rw [mem_singleton.mp last]
        exact ⟨absent, stays⟩

theorem run_tracked {config : CoordinatorConfig}
    (run : TaskRun config events coordinator) (new : Run.Allowed NewIds events) : Tracked events coordinator := by
  refine run.history Tracked ?_ (fun _ _ action tracked allowed => tracked.step action allowed) new
  intro state created
  refine ⟨new_coherent created, ?_, ?_, ?_⟩
  · exact fun id task held => absurd held (new_tasks created id task)
  · exact fun id task held => absurd held (new_tasks created id task)
  · intro earlier event later split
    have impossible := congrArg List.length split
    simp at impossible

/-- While every submission is given new identifiers, only authorized tasks are published and every task leaves once. -/
theorem run_published {config : CoordinatorConfig} {events : List TaskEvent} {coordinator : TaskCoordinator}
    (run : TaskRun config events coordinator) (new : Run.Allowed NewIds events) : Published events := by
  have at' {earlier later : List TaskEvent} {event : TaskEvent} (split : events = earlier ++ event :: later) :
      Tracked earlier event.before := run_tracked (run.upto split) (by subst split; exact new.init)
  have gone := (run_tracked run new).gone
  constructor
  · intro earlier event later split flight report now batch same response
    have tracked := at' split
    obtain ⟨before, action⟩ := event
    cases same
    obtain ⟨record, held, -, perm, -, accepted⟩ := complete_ok tracked.coherent (Response.completed.inj response)
    refine ⟨perm.nodup_iff.mpr (tracked.coherent.booked.staffed flight record held).1, ?_⟩
    intro receipt inside
    obtain ⟨task, found, eligible, opened, early⟩ := accepted receipt inside
    obtain ⟨origin, submission, between, rfl, admits, spared⟩ := tracked.origin receipt.task task found
    refine ⟨origin, submission, between, task.spec, rfl, admits, opened, ?_, spared eligible⟩
    intro deadline known
    rw [known] at early
    exact Nat.lt_of_not_le (of_decide_eq_false early)
  · intro earlier first between second later split id returned returned'
    obtain ⟨there, left, -⟩ := returned_leaves (at' split).coherent returned
    have again : events = (earlier ++ first :: between) ++ second :: later := by
      rw [split, List.append_assoc, List.cons_append]
    obtain ⟨there', -⟩ := returned_leaves (at' again).coherent returned'
    obtain ⟨always, -⟩ := gone earlier first (between ++ second :: later) split id there left
    exact (always second (List.mem_append_right _ List.mem_cons_self)).1 there'
  · intro earlier event later split id there left
    refine ⟨?_, (gone earlier event later split id there left).1⟩
    rcases perform_left (at' split).coherent there left with returned | abandons
    · exact .inl ⟨returned, (returned_leaves (at' split).coherent returned).2.2⟩
    · exact .inr ⟨abandons, fun returned => (returned_leaves (at' split).coherent returned).2.2 abandons⟩

theorem first_errand_published : ∃ before, Published [⟨before, .observeSession 0 0⟩, ⟨quiet 1 [], .submit (errand graphRecipe) 0⟩,
    ⟨(quiet 1 []).perform (.submit (errand graphRecipe) 0), .dispatchNext 0⟩,
    ⟨((quiet 1 []).perform (.submit (errand graphRecipe) 0)).perform (.dispatchNext 0), .complete 1 ⟨.cancelled, []⟩ 0⟩] := by
  obtain ⟨before, empty, run⟩ := opening_run
  refine ⟨before, run_published (((run.step (.submit (errand graphRecipe) 0)).step (.dispatchNext 0)).step
    (.complete 1 ⟨.cancelled, []⟩ 0)) ?_⟩
  have opened : Run.Allowed NewIds [⟨before, .observeSession 0 0⟩] :=
    Run.Allowed.nil.concat fun _ _ submitted => Action.noConfusion submitted
  refine ((opened.concat ?_).concat fun _ _ submitted => Action.noConfusion submitted).concat
    fun _ _ submitted => Action.noConfusion submitted
  intro spec now _
  refine ⟨⟨rfl, rfl⟩, ?_⟩
  rintro other inside ⟨task, held⟩
  rw [List.mem_singleton.mp inside] at held
  dsimp only at held
  rw [empty, ExtTreeMap.getElem?_empty] at held
  cases held

section

variable (terminal : List TaskSnapshot)

def started : TaskCoordinator :=
  (spent terminal).startFlight 0xffffffffffffffff
    ⟨0xffffffffffffffff, (errand graphRecipe).key, .queued, 0, [0xffffffffffffffff], false⟩

theorem spent_dispatch : (spent terminal).dispatchNext 0 = (started terminal,
    .ok (some ⟨0xffffffffffffffff, 0xffffffffffffffff, graphRecipe, .cpu⟩)) := by
  unfold dispatchNext
  rw [spent_expire]
  rfl

theorem started_expire : (started terminal).expire 0 = some (started terminal) := by
  have flights : (started terminal).flights = (∅ : FlightTable).insert 0xffffffffffffffff
      ⟨0xffffffffffffffff, (errand graphRecipe).key, .running, 0, [0xffffffffffffffff], false⟩ := by rfl
  apply expire_calm
  · intro id task held
    obtain ⟨waiting, before, same, -⟩ := (keepsEligible_foldl start_keeps _ _).keeps.held held
    rw [same.spec, launch_spec _ terminal _ 0 id waiting before]
    rfl
  · intro id flight held
    rw [flights, lookup_insert, getElem?_empty] at held
    split at held
    · cases held
      rfl
    · cases held

end

def spentReceipt : CompletionReceipt where
  task := 0xffffffffffffffff
  flight := 0xffffffffffffffff
  owner := (errand graphRecipe).owner
  capturedGeneration := 0
  recipe := graphRecipe
  resource := .cpu
  deadline := some 1
  completedAt := 0
  outcome := .cancelled

section

variable (terminal : List TaskSnapshot)

/-- The state after that flight was completed. -/
def served : TaskCoordinator :=
  (started terminal).finish 0xffffffffffffffff .cancelled ⟨[spentReceipt], []⟩

theorem started_complete : (started terminal).complete 0xffffffffffffffff ⟨.cancelled, []⟩ 0 =
    (served terminal, .ok ⟨[spentReceipt], []⟩) := by
  unfold complete
  rw [started_expire]
  rfl

theorem served_quiet : ∃ terminal', served terminal = quiet 0xffffffffffffffff terminal' := by
  have submitted : Coherent ((quiet 0xffffffffffffffff terminal).submit (errand graphRecipe) 0).1 :=
    (submit_coherent (quiet_coherent 0xffffffffffffffff terminal) (quiet_fresh _ terminal)).1
  rw [quiet_submit] at submitted
  have dispatched : Coherent ((spent terminal).dispatchNext 0).1 := (dispatchNext_coherent submitted 0).1
  rw [spent_dispatch] at dispatched
  have completed := (complete_coherent dispatched 0xffffffffffffffff ⟨.cancelled, []⟩ 0).1
  rw [started_complete] at completed
  exact ⟨_, quiet_of_idle completed rfl rfl rfl rfl fun _ => rfl⟩

end

theorem served_run {terminal : List TaskSnapshot}
    (run : TaskRun .default events (quiet 0xffffffffffffffff terminal)) : ∃ terminal',
      TaskRun .default (((events ++ [⟨quiet 0xffffffffffffffff terminal, .submit (errand graphRecipe) 0⟩]) ++
        [⟨spent terminal, .dispatchNext 0⟩]) ++ [⟨started terminal, .complete 0xffffffffffffffff ⟨.cancelled, []⟩ 0⟩])
          (quiet 0xffffffffffffffff terminal') := by
  obtain ⟨terminal', same⟩ := served_quiet terminal
  refine ⟨terminal', ((run.next ?_).next ?_).next ?_⟩
  · rw [perform_submit, quiet_submit]
    rfl
  · rw [perform_dispatchNext, spent_dispatch]
  · rw [perform_complete, started_complete]
    exact same

theorem reissued_id_published_twice : ∃ (events : List TaskEvent) (coordinator : TaskCoordinator),
    TaskRun .default events coordinator ∧ ¬ Published events := by
  obtain ⟨events, terminal, run⟩ := exhausting_run graphRecipe
  obtain ⟨terminal', once⟩ := served_run run
  obtain ⟨terminal'', twice⟩ := served_run once
  refine ⟨_, _, twice, ?_⟩
  have returned (terminal : List TaskSnapshot) : Returned
      ⟨started terminal, .complete 0xffffffffffffffff ⟨.cancelled, []⟩ 0⟩ 0xffffffffffffffff := by
    have response := congrArg Prod.snd (started_complete terminal)
    exact ⟨_, _, _, _, rfl, congrArg Response.completed response, List.mem_cons_self⟩
  intro published
  refine published.once (events ++ [?first, ?second]) _ [?fourth, ?fifth] _ [] ?split _ (returned terminal) (returned terminal')
  case split =>
    simp only [List.append_assoc, List.cons_append, List.nil_append]
    rfl

namespace TaskCoordinator

theorem complete_receipt (coherent : Coherent coordinator) {flight : FlightId} {report : CompletionReport} {now : TaskInstant}
    {batch : CompletionBatch} (returned : (coordinator.complete flight report now).2 = .ok batch) {receipt : CompletionReceipt}
    (accepted : receipt ∈ batch.accepted) :
    coordinator.sessions receipt.owner.scope.session = some receipt.capturedGeneration := by
  have completed := complete_spec coherent flight report now
  revert completed returned
  generalize (coordinator.complete flight report now).1 = after
  generalize (coordinator.complete flight report now).2 = result
  intro returned completed
  cases completed with
  | failed => cases returned
  | finished expired diagnosed _ coherent' expiry flight' held running exact rest removed =>
    cases returned
    obtain ⟨task, -, snapshot, found, passed, rfl⟩ := mem_accepted accepted
    have opened := (rejection_none.mp passed).1
    rw [rest] at opened
    change expired.sessions _ = _ at opened
    rwa [expiry.sessions] at opened

end TaskCoordinator

/-- The generations a session was observed at since it was last closed. -/
def observe (session : SessionId) (seen : List SessionGeneration) (event : TaskEvent) : List SessionGeneration :=
  match event.action with
  | .observeSession observed generation => if observed = session then generation :: seen else seen
  | .closeSession closed => if closed = session then [] else seen
  | _ => seen

variable {session : SessionId} {seen : List SessionGeneration}

theorem observeSession_greatest (greatest : coordinator.sessions session = seen.max?) (generation : SessionGeneration) :
    (coordinator.observeSession session generation).1.sessions session = (generation :: seen).max? := by
  rw [max?_cons, ← greatest]
  unfold observeSession
  cases opened : coordinator.sessions session with
  | none => exact Function.update_self session (some generation) coordinator.sessions
  | some current =>
    dsimp only [Option.elim]
    split
    · rename_i before
      rw [opened, max_eq_right before.le]
    · rename_i after
      rw [max_eq_left (not_lt.mp after)]
      split
      · rename_i same
        rw [opened, same]
      · exact Function.update_self session (some generation) coordinator.sessions

theorem perform_greatest (coherent : Coherent coordinator) (greatest : coordinator.sessions session = seen.max?) (action : Action) :
    (coordinator.perform action).sessions session = (observe session seen ⟨coordinator, action⟩).max? := by
  have moved := perform_sessions coherent action session
  unfold observe
  dsimp only
  split
  · rename_i observed generation
    split
    · rename_i here
      rw [here]
      exact observeSession_greatest greatest generation
    · rename_i elsewhere
      rcases moved with same | ⟨_, same, -⟩ | same
      · rw [same, greatest]
      · cases same
        exact absurd rfl elsewhere
      · cases same
  · rename_i closed
    split
    · rename_i here
      rw [here]
      exact Function.update_self session none coordinator.sessions
    · rename_i elsewhere
      rcases moved with same | ⟨_, same, -⟩ | same
      · rw [same, greatest]
      · cases same
      · cases same
        exact absurd rfl elsewhere
  · rename_i observes closes
    rcases moved with same | ⟨generation, same, -⟩ | same
    · rw [same, greatest]
    · exact absurd same (observes session generation)
    · exact absurd same (closes session)

variable {config : CoordinatorConfig} {earlier later : List TaskEvent} {flight : FlightId}
  {report : CompletionReport} {completedAt : TaskInstant} {batch : CompletionBatch} {receipt : CompletionReceipt}

theorem greatest_after (run : TaskRun config events coordinator) (fresh : ∀ event ∈ events, TakesFresh event)
    (split : events = earlier ++ event :: later) (completed : event.action = .complete flight report completedAt)
    (returned : responseOf event = .completed (.ok batch)) (accepted : receipt ∈ batch.accepted) :
    coordinator.sessions receipt.owner.scope.session =
      (later.foldl (observe receipt.owner.scope.session) [receipt.capturedGeneration]).max? := by
  induction run generalizing later with
  | start => simp at split
  | @step events coordinator run action ih =>
    have fresh' : ∀ event ∈ events, TakesFresh event := fun event inside => fresh event (mem_append_left _ inside)
    have coherent := run_coherent run fresh'
    rcases Run.split_last split with ⟨rfl, rfl, rfl⟩ | ⟨later, rfl, same⟩
    · dsimp only at completed
      subst completed
      have opened := complete_receipt coherent (Response.completed.inj returned) accepted
      rw [perform_complete, complete_sessions coherent, opened]
      rfl
    · rw [foldl_append]
      exact perform_greatest coherent (ih fresh' same) action

/-- A receipt may be published while the generation it captured is the greatest its session was seen at since it was last closed. -/
theorem receipt_valid_iff (run : TaskRun config events coordinator) (fresh : ∀ event ∈ events, TakesFresh event)
    (split : events = earlier ++ event :: later) (completed : event.action = .complete flight report completedAt)
    (returned : responseOf event = .completed (.ok batch)) (accepted : receipt ∈ batch.accepted) (now : TaskInstant) :
    coordinator.validateForPublication receipt now = .ok () ↔
      (later.foldl (observe receipt.owner.scope.session) [receipt.capturedGeneration]).max? = some receipt.capturedGeneration ∧
        ∀ deadline, receipt.deadline = some deadline → now < deadline := by
  rw [← greatest_after run fresh split completed returned accepted]
  unfold validateForPublication
  cases coordinator.sessions receipt.owner.scope.session with
  | none => simp
  | some current =>
    dsimp only
    rw [bind_unit_ok, ensure_ok, ensure_ok, Option.some_inj]
    simp [elapsed, Option.any_eq_false]

/-- A session that is opened again at its old generation lets receipts from before it was closed through. -/
theorem first_errand_receipt_reopened : ∃ coordinator : TaskCoordinator,
    coordinator.validateForPublication { spentReceipt with task := 1, flight := 1 } 0 = .ok () := by
  obtain ⟨before, -, run⟩ := opening_run
  have served := ((run.step (.submit (errand graphRecipe) 0)).step (.dispatchNext 0)).step (.complete 1 ⟨.cancelled, []⟩ 0)
  have response : ((((quiet 1 []).perform (.submit (errand graphRecipe) 0)).perform (.dispatchNext 0)).complete 1 ⟨.cancelled, []⟩ 0).2 =
      .ok ⟨[{ spentReceipt with task := 1, flight := 1 }], []⟩ := by rfl
  have reopened := (served.step (.closeSession 0)).step (.observeSession 0 0)
  refine ⟨_, (receipt_valid_iff reopened ?_ ((append_assoc _ _ _).trans (append_assoc _ _ _)) rfl
    (congrArg Response.completed response) mem_cons_self 0).mpr ?_⟩
  · intro event inside
    simp only [mem_append, mem_singleton] at inside
    rcases inside with ((((rfl | rfl) | rfl) | rfl) | rfl) | rfl
    case inl.inl.inl.inl.inr => exact fun _ _ _ => quiet_fresh 1 []
    all_goals exact fun _ _ submitted => Action.noConfusion submitted
  · refine ⟨rfl, fun deadline given => ?_⟩
    cases given
    decide

end Audec.Tasks

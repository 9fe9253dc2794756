import Audec.TaskCoordinator.Runs

/-! Runs long enough to use up the identifiers. -/

open Machine Checked Entries Runs Std.ExtTreeMap Option
open Std (ExtTreeMap)

namespace Audec.Tasks

namespace TaskCoordinator

variable {coordinator : TaskCoordinator}

def quiet (next : U64) (terminal : List TaskSnapshot) : TaskCoordinator where
  config := .default
  nextTask := next
  nextFlight := next
  sessions := Function.update (fun _ => none) 0 (some 0)
  tasks := ∅
  flights := ∅
  singleFlights := fun _ => none
  runningByResource := fun _ => 0
  terminal := terminal

theorem quiet_of_idle (coherent : Coherent coordinator) {next : U64} (config : coordinator.config = .default)
    (nextTask : coordinator.nextTask = next) (nextFlight : coordinator.nextFlight = next)
    (sessions : coordinator.sessions = Function.update (fun _ => none) 0 (some 0))
    (idle : ∀ id : FlightId, coordinator.flights[id]? = none) : coordinator = quiet next coordinator.terminal := by
  have flights : coordinator.flights = ∅ := by
    apply ext_getElem?
    intro id
    rw [idle, getElem?_empty]
  have tasks : coordinator.tasks = ∅ := by
    apply ext_getElem?
    intro id
    rw [getElem?_empty]
    cases held : coordinator.tasks[id]? with
    | none => rfl
    | some task =>
      obtain ⟨flight, found, -⟩ := coherent.booked.placed id task held
      rw [idle] at found
      cases found
  have index : coordinator.singleFlights = fun _ => none := by
    funext key
    cases indexed : coordinator.singleFlights key with
    | none => rfl
    | some id =>
      obtain ⟨flight, found, -⟩ := coherent.booked.indexed key id indexed
      rw [idle] at found
      cases found
  have running : coordinator.runningByResource = fun _ => 0 := by
    funext resource
    rw [coherent.booked.running, runningCount, flights]
    exact count_empty _
  obtain ⟨_, _, _, _, _, _, _, _, terminal⟩ := coordinator
  dsimp only at config nextTask nextFlight sessions flights tasks index running
  subst config nextTask nextFlight sessions flights tasks index running
  rfl

theorem expire_idle {now : TaskInstant} {after : TaskCoordinator}
    (expiry : Expired now coordinator after)
    (queued : ∀ (id : FlightId) (flight : FlightRecord), coordinator.flights[id]? = some flight → flight.state = .queued)
    (late : ∀ (id : TaskId) (task : TaskSnapshot), coordinator.tasks[id]? = some task → elapsed task.spec.deadline now = true)
    (id : FlightId) : after.flights[id]? = none := by
  cases held : after.flights[id]? with
  | none => rfl
  | some flight' =>
    obtain ⟨flight, found, same⟩ := expiry.flights id flight' held
    refine absurd ⟨?_, ?_⟩ (expiry.settled id flight' held)
    · rw [same.state]
      exact queued id flight found
    · apply List.any_eq_false.mpr
      intro subscriber inside eligible
      obtain ⟨task', left, eligible'⟩ := (any_eq_true _ _).mp eligible
      obtain ⟨task, before, marked⟩ := expiry.tasks subscriber task' left
      rw [marked, if_pos (late subscriber task before), TaskSnapshot.marked_ineligible] at eligible'
      cases eligible'

theorem quiet_coherent (next : U64) (terminal : List TaskSnapshot) : Coherent (quiet next terminal) :=
  coherent_of_empty rfl rfl (fun _ => rfl) fun _ => rfl

def errand (recipe : CanonicalRecipeKey) : TaskSpec where
  owner := ⟨1, ⟨0, .session⟩⟩
  generation := 0
  recipe := recipe
  resource := .cpu
  priority := .background
  deadline := some 1

section

variable (next : U64) (terminal : List TaskSnapshot)
include next terminal

theorem quiet_expire (now : TaskInstant) :
    (quiet next terminal).expire now = some (quiet next terminal) := by
  apply expire_calm
  · intro id task held
    rw [quiet, getElem?_empty] at held
    cases held
  · intro id flight held
    rw [quiet, getElem?_empty] at held
    cases held

theorem quiet_fresh : Fresh (quiet next terminal) := ⟨rfl, rfl⟩

theorem quiet_submit (recipe : CanonicalRecipeKey) :
    (quiet next terminal).submit (errand recipe) 0 =
      ((quiet next terminal).launch (errand recipe) 0, .ok ⟨next, next, false⟩) := by
  unfold submit
  rw [quiet_expire]
  rfl

theorem launch_queued (spec : TaskSpec) (now : TaskInstant) (id : FlightId)
    (flight : FlightRecord) (held : ((quiet next terminal).launch spec now).flights[id]? = some flight) :
    flight.state = .queued := by
  obtain ⟨before, found, same⟩ := (cancelUnobserved_flights _).held held
  rw [same.state]
  change ((∅ : FlightTable).insert next _)[id]? = some before at found
  rw [lookup_insert, getElem?_empty] at found
  split at found
  · cases found
    rfl
  · cases found

theorem launch_spec (spec : TaskSpec) (now : TaskInstant) (id : TaskId)
    (task : TaskSnapshot) (held : ((quiet next terminal).launch spec now).tasks[id]? = some task) : task.spec = spec := by
  change (List.foldl (mark .superseded) ((∅ : TaskTable).insert next _) _)[id]? = some task at held
  obtain ⟨before, found, same, -⟩ := (markAll_keeps _ _ _).held held
  rw [same.spec]
  rw [lookup_insert, getElem?_empty] at found
  split at found
  · cases found
    rfl
  · cases found

theorem quiet_cycle (recipe : CanonicalRecipeKey) :
    ∃ terminal', ((quiet next terminal).perform (.submit (errand recipe) 0)).perform (.dispatchNext 5) =
      quiet (following next) terminal' := by
  have coherent : Coherent ((quiet next terminal).submit (errand recipe) 0).1 :=
    (submit_coherent (quiet_coherent next terminal) (quiet_fresh next terminal)).1
  rw [quiet_submit] at coherent
  rw [perform_submit, quiet_submit, perform_dispatchNext]
  dsimp only at coherent ⊢
  obtain ⟨expired, -, coherent', expiry, dispatched⟩ := dispatchNext_spec coherent 5
  have idle (id : FlightId) : expired.flights[id]? = none := by
    refine expire_idle expiry (launch_queued next terminal _ 0) ?_ id
    intro other task held
    rw [launch_spec next terminal _ 0 other task held]
    rfl
  have still := quiet_of_idle coherent' expiry.config expiry.nextTask expiry.nextFlight expiry.sessions idle
  revert dispatched
  generalize (dispatchNext ((quiet next terminal).launch (errand recipe) 0) 5).1 = after
  generalize (dispatchNext ((quiet next terminal).launch (errand recipe) 0) 5).2 = result
  intro dispatched
  cases dispatched with
  | idle => exact ⟨_, still⟩
  | started id flight held =>
    rw [idle] at held
    cases held

end

end TaskCoordinator

open TaskCoordinator

theorem opening_run : ∃ before, before.tasks = ∅ ∧ TaskRun .default [⟨before, .observeSession 0 0⟩] (quiet 1 []) := by
  have created : new .default = .ok ⟨.default, 1, 1, fun _ => none, ∅, ∅, fun _ => none, fun _ => 0, []⟩ := rfl
  have opened := quiet_of_idle (observeSession_coherent (new_coherent created) 0 0) rfl rfl rfl rfl fun id => rfl
  have start : TaskRun .default [] _ := Run.start created
  have run := start.step (.observeSession 0 0)
  unfold perform respond Prod.map id at run
  rw [opened] at run
  exact ⟨_, rfl, run⟩

theorem errands_run (recipe : CanonicalRecipeKey) (count : Nat) (small : count < 0xffffffffffffffff) :
    ∃ events terminal, TaskRun .default events (quiet ⟨count + 1, by omega⟩ terminal) := by
  induction count with
  | zero =>
    obtain ⟨before, -, run⟩ := opening_run
    exact ⟨_, [], run⟩
  | succ count ih =>
    obtain ⟨events, terminal, run⟩ := ih (by omega)
    obtain ⟨terminal', cycle⟩ := quiet_cycle ⟨count + 1, by omega⟩ terminal recipe
    have longer := (run.step (.submit (errand recipe) 0)).step (.dispatchNext 5)
    have next : following (⟨count + 1, by omega⟩ : U64) = ⟨count + 1 + 1, by omega⟩ := by
      have counted : checkedSucc (⟨count + 1, by omega⟩ : U64) = some ⟨count + 1 + 1, by omega⟩ := checkedSucc_eq_some.mpr rfl
      rw [following, counted, getD_some]
    rw [cycle, next] at longer
    exact ⟨_, terminal', longer⟩

theorem exhausting_run (recipe : CanonicalRecipeKey) : ∃ events terminal, TaskRun .default events (quiet 0xffffffffffffffff terminal) :=
  errands_run recipe 0xfffffffffffffffe (by decide)

def graphRecipe : CanonicalRecipeKey := ⟨"graph", 1, Vector.replicate 32 0⟩

def waveformRecipe : CanonicalRecipeKey := ⟨"waveform", 1, Vector.replicate 32 0⟩

/-- The state after the last identifiers were given to an errand. -/
def spent (terminal : List TaskSnapshot) : TaskCoordinator :=
  (quiet 0xffffffffffffffff terminal).launch (errand graphRecipe) 0

theorem spent_expire (terminal : List TaskSnapshot) : (spent terminal).expire 0 = some (spent terminal) := by
  have flights : (spent terminal).flights = (∅ : FlightTable).insert 0xffffffffffffffff
      ⟨0xffffffffffffffff, (errand graphRecipe).key, .queued, 0, [0xffffffffffffffff], false⟩ := by rfl
  apply expire_calm
  · intro id task held
    rw [launch_spec _ terminal _ 0 id task held]
    rfl
  · intro id flight held
    rw [flights, lookup_insert, getElem?_empty] at held
    split at held
    · cases held
      rfl
    · cases held

end Audec.Tasks

namespace Audec.Tasks

open TaskCoordinator

/-- What the tables, the index and the counters promise of each other. -/
structure Bookkeeping (coordinator : TaskCoordinator) : Prop where
  running : ∀ resource, coordinator.runningByResource resource = coordinator.runningCount resource
  limited : ∀ resource, coordinator.runningByResource resource ≤ (coordinator.config.resourceLimit resource).getD 0
  shared : ∀ key (id : FlightId), coordinator.singleFlights key = some id →
    ∃ flight : FlightRecord, coordinator.flights[id]? = some flight ∧ flight.key = key ∧
      ∃ subscriber ∈ flight.subscribers, ∃ task : TaskSnapshot,
        coordinator.tasks[subscriber]? = some task ∧ task.isEligible = true
  placed : ∀ (id : TaskId) (task : TaskSnapshot), coordinator.tasks[id]? = some task →
    (∃ flight : FlightRecord, coordinator.flights[task.flight]? = some flight ∧ flight.subscribers.count id = 1) ∧
      ∀ (other : FlightId) (flight : FlightRecord), coordinator.flights[other]? = some flight →
        id ∈ flight.subscribers → other = task.flight
  staffed : ∀ (id : FlightId) (flight : FlightRecord), coordinator.flights[id]? = some flight →
    ∀ subscriber ∈ flight.subscribers, ∃ task : TaskSnapshot, coordinator.tasks[subscriber]? = some task
  queued : coordinator.queuedFlightCount ≤ coordinator.config.maximumQueuedFlights
  active : coordinator.eligibleCount ≤ coordinator.config.maximumActiveTasks

theorem TaskCoordinator.Coherent.bookkeeping {coordinator : TaskCoordinator} (coherent : coordinator.Coherent) :
    Bookkeeping coordinator := by
  obtain ⟨booked, live, active⟩ := coherent
  refine ⟨booked.running, booked.limited, ?_, ?_, ?_, booked.queued, active⟩
  · intro key id indexed
    obtain ⟨flight, held, named⟩ := booked.indexed key id indexed
    obtain ⟨same, held', eligible⟩ := live key id indexed
    rw [held] at held'
    cases held'
    obtain ⟨subscriber, inside, eligible⟩ := List.any_eq_true.mp eligible
    obtain ⟨task, found, passes⟩ := (any_eq_true _ _).mp eligible
    exact ⟨flight, held, named, subscriber, inside, task, found, passes⟩
  · intro id task held
    constructor
    · obtain ⟨flight, found, inside⟩ := booked.placed id task held
      exact ⟨flight, found, List.count_eq_one_of_mem (booked.staffed _ flight found).1 inside⟩
    · intro other flight found inside
      obtain ⟨same, held', placed, -⟩ := (booked.staffed other flight found).2 id inside
      rw [held] at held'
      cases held'
      exact placed.symm
  · intro id flight held subscriber inside
    obtain ⟨task, found, -⟩ := (booked.staffed id flight held).2 subscriber inside
    exact ⟨task, found⟩

/-- While no submission is given an identifier that is still in use, the books are right and no expect is reached. -/
theorem run_bookkeeping {config : CoordinatorConfig} {events : List TaskEvent} {coordinator : TaskCoordinator}
    (run : TaskRun config events coordinator) (fresh : ∀ event ∈ events, TakesFresh event) :
    Bookkeeping coordinator ∧ ∀ event ∈ events, ¬ (responseOf event).panicked := by
  refine ⟨(run_coherent run fresh).bookkeeping, ?_⟩
  intro event inside
  obtain ⟨earlier, later, rfl⟩ := List.append_of_mem inside
  have before := run_coherent (run.upto rfl) fun other early => fresh other (List.mem_append_left _ early)
  exact (TaskCoordinator.perform_coherent before event.action (fresh event inside)).2

theorem first_errand_bookkeeping : Bookkeeping ((quiet 1 []).perform (.submit (errand graphRecipe) 0)) := by
  obtain ⟨before, -, run⟩ := opening_run
  refine (run_bookkeeping (run.step (.submit (errand graphRecipe) 0)) ?_).1
  intro event inside
  rcases List.mem_append.mp inside with early | last
  · cases List.mem_singleton.mp early
    exact nofun
  · cases List.mem_singleton.mp last
    exact fun _ _ _ => quiet_fresh 1 []

theorem spent_submit (terminal : List TaskSnapshot) :
    (spent terminal).perform (.submit (errand waveformRecipe) 0) = (spent terminal).launch (errand waveformRecipe) 0 := by
  rw [perform_submit, submit, spent_expire]
  rfl

theorem reissued_id_breaks_bookkeeping : ∃ (events : List TaskEvent) (coordinator : TaskCoordinator),
    TaskRun .default events coordinator ∧ ¬ Bookkeeping coordinator := by
  obtain ⟨events, terminal, run⟩ := exhausting_run graphRecipe
  have index : ((spent terminal).launch (errand waveformRecipe) 0).singleFlights (errand graphRecipe).key =
      some 0xffffffffffffffff := by rfl
  have key : ((spent terminal).launch (errand waveformRecipe) 0).flights[(0xffffffffffffffff : FlightId)]?.map
      FlightRecord.key = some (errand waveformRecipe).key := by rfl
  have first : (quiet 0xffffffffffffffff terminal).perform (.submit (errand graphRecipe) 0) = spent terminal :=
    congrArg Prod.fst (quiet_submit _ terminal graphRecipe)
  refine ⟨_, _, (run.next first).next (spent_submit terminal), ?_⟩
  intro bookkeeping
  obtain ⟨flight, held, named, -⟩ := bookkeeping.shared _ _ index
  rw [held, Option.map_some, Option.some.injEq, named] at key
  revert key
  decide

end Audec.Tasks

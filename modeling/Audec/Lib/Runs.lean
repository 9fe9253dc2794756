import Mathlib

/-! Runs of a deterministic machine, with the events that led to each state. -/

open List

namespace Runs

variable {σ α : Type}

structure Event (σ α : Type) where
  before : σ
  action : α

inductive Run (perform : σ → α → σ) (initial : σ → Prop) : List (Event σ α) → σ → Prop where
  | start {state : σ} (init : initial state) : Run perform initial [] state
  | step {events : List (Event σ α)} {state : σ} (run : Run perform initial events state) (action : α) :
      Run perform initial (events ++ [⟨state, action⟩]) (perform state action)

namespace Run

variable {perform : σ → α → σ} {initial : σ → Prop} {events : List (Event σ α)} {state : σ}

theorem next (run : Run perform initial events state) {action : α} {after : σ} (leads : perform state action = after) :
    Run perform initial (events ++ [⟨state, action⟩]) after := by
  rw [← leads]
  exact run.step action

theorem taking (init : initial state) (actions : List α) :
    ∃ events, Run perform initial events (actions.foldl perform state) ∧ events.map Event.action = actions := by
  induction actions using List.reverseRecOn with
  | nil => exact ⟨[], .start init, rfl⟩
  | append_singleton actions action ih =>
    obtain ⟨events, run, same⟩ := ih
    refine ⟨events ++ [⟨actions.foldl perform state, action⟩], run.next ?_, ?_⟩
    · rw [foldl_append, foldl_cons, foldl_nil]
    · rw [map_append, same, map_singleton]

theorem split_last {β : Type} {items earlier later : List β} {last item : β} (split : items ++ [last] = earlier ++ item :: later) :
    (earlier = items ∧ item = last ∧ later = []) ∨ ∃ later', later = later' ++ [last] ∧ items = earlier ++ item :: later' := by
  rcases eq_nil_or_concat later with rfl | ⟨others, other, rfl⟩
  · obtain ⟨rfl, same⟩ := append_inj' split rfl
    cases same
    exact .inl ⟨rfl, rfl, rfl⟩
  · rw [concat_eq_append, ← cons_append, ← append_assoc] at split
    obtain ⟨same, last'⟩ := append_inj' split rfl
    cases last'
    exact .inr ⟨others, concat_eq_append, same⟩

/-- A condition on the actions, each with the events before it. -/
def Allowed (allowed : List (Event σ α) → Event σ α → Prop) (events : List (Event σ α)) : Prop :=
  ∀ earlier event later, events = earlier ++ event :: later → allowed earlier event

variable {allowed : List (Event σ α) → Event σ α → Prop} {event : Event σ α}

theorem Allowed.init {last : List (Event σ α)}
    (all : Allowed allowed (events ++ last)) : Allowed allowed events := by
  intro earlier event later same
  apply all earlier event (later ++ last)
  rw [same, append_assoc, cons_append]

theorem Allowed.last
    (all : Allowed allowed (events ++ [event])) : allowed events event :=
  all events event [] rfl

theorem Allowed.nil : Allowed allowed [] := by
  intro earlier event later same
  have impossible := congrArg List.length same
  simp at impossible

theorem Allowed.concat (all : Allowed allowed events)
    (last : allowed events event) : Allowed allowed (events ++ [event]) := by
  intro earlier other later same
  rcases split_last same with ⟨rfl, rfl, -⟩ | ⟨later', -, rfl⟩
  · exact last
  · exact all earlier other later' rfl

theorem history (inv : List (Event σ α) → σ → Prop)
    (base : ∀ state, initial state → inv [] state)
    (keep : ∀ events state action, inv events state → allowed events ⟨state, action⟩ →
      inv (events ++ [⟨state, action⟩]) (perform state action))
    (run : Run perform initial events state) (all : Allowed allowed events) : inv events state := by
  induction run with
  | start init => exact base _ init
  | step run action ih => exact keep _ _ action (ih all.init) all.last

theorem invariant (inv : σ → Prop) {allowed : Event σ α → Prop} (base : ∀ state, initial state → inv state)
    (keep : ∀ state action, inv state → allowed ⟨state, action⟩ → inv (perform state action))
    (run : Run perform initial events state) (all : ∀ event ∈ events, allowed event) : inv state := by
  have everywhere : Allowed (fun _ => allowed) events := by
    intro earlier event later same
    exact all event (same ▸ mem_append_right _ mem_cons_self)
  exact run.history (fun _ => inv) base (fun _ => keep) everywhere

theorem upto (run : Run perform initial events state) {earlier later : List (Event σ α)}
    (split : events = earlier ++ event :: later) : Run perform initial earlier event.before := by
  induction run generalizing later with
  | start =>
    have impossible := congrArg List.length split
    simp at impossible
  | step run action ih =>
    rcases split_last split with ⟨rfl, rfl, -⟩ | ⟨later', -, same⟩
    · exact run
    · exact ih same

theorem after_mem (run : Run perform initial events state) (member : event ∈ events) :
    perform event.before event.action ∈ events.map Event.before ++ [state] := by
  induction run with
  | start => cases member
  | step run action ih =>
    rw [map_append, map_singleton]
    rcases mem_append.mp member with before | last
    · exact mem_append_left _ (ih before)
    · cases mem_singleton.mp last
      exact mem_append_right _ mem_cons_self

end Run

end Runs

/-! The run that takes given actions, computed. -/

namespace Runs

variable {σ α : Type} {perform : σ → α → σ}

def trace (perform : σ → α → σ) : σ → List α → List (Event σ α)
  | _, [] => []
  | state, action :: actions => ⟨state, action⟩ :: trace perform (perform state action) actions

theorem trace_actions (state : σ) (actions : List α) : (trace perform state actions).map Event.action = actions := by
  induction actions generalizing state with
  | nil => rfl
  | cons first actions tail => rw [trace, map_cons, tail]

theorem trace_concat (state : σ) (actions : List α) (action : α) :
    trace perform state (actions ++ [action]) = trace perform state actions ++ [⟨actions.foldl perform state, action⟩] := by
  induction actions generalizing state with
  | nil => rfl
  | cons first actions tail => rw [cons_append, trace, tail, trace, cons_append, foldl_cons]

theorem Run.tracing {initial : σ → Prop} {state : σ} (init : initial state) (actions : List α) :
    Run perform initial (trace perform state actions) (actions.foldl perform state) := by
  induction actions using List.reverseRecOn with
  | nil => exact .start init
  | append_singleton actions action ih =>
    rw [trace_concat]
    refine ih.next ?_
    rw [foldl_append, foldl_cons, foldl_nil]

end Runs

/-! A property that holds after every event of a run exactly when every event meets a condition. -/

namespace Runs

variable {σ α : Type} {perform : σ → α → σ} {initial : σ → Prop} {events : List (Event σ α)} {state : σ}

/-- The condition is exact for one event from a state of the invariant, and the invariant is kept as long as the
    property holds. -/
structure Exact (perform : σ → α → σ) (initial inv good : σ → Prop) (careful : σ → α → Prop) : Prop where
  base : ∀ state, initial state → inv state
  step : ∀ state action, inv state → (good (perform state action) ↔ careful state action)
  keep : ∀ state action, inv state → good (perform state action) → inv (perform state action)

variable {inv good : σ → Prop} {careful : σ → α → Prop}

section

variable (exact : Exact perform initial inv good careful) (run : Run perform initial events state)
include exact run

theorem Exact.kept
    (all : ∀ event ∈ events, good (perform event.before event.action)) : inv state := by
  induction run with
  | start init => exact exact.base _ init
  | step run action ih =>
    have before := ih fun event member => all event (mem_append_left _ member)
    exact exact.keep _ action before (all _ (mem_append_right _ mem_cons_self))

theorem Exact.everywhere :
    (∀ event ∈ events, good (perform event.before event.action)) ↔ ∀ event ∈ events, careful event.before event.action := by
  induction run with
  | start => exact ⟨fun _ _ member => absurd member not_mem_nil, fun _ _ member => absurd member not_mem_nil⟩
  | @step events before run action ih =>
    have last (earlier : ∀ event ∈ events, good (perform event.before event.action)) :
        good (perform before action) ↔ careful before action := exact.step before action (exact.kept run earlier)
    simp only [forall_mem_append, forall_mem_singleton]
    constructor
    · rintro ⟨earlier, now⟩
      exact ⟨ih.mp earlier, (last earlier).mp now⟩
    · rintro ⟨earlier, now⟩
      have earlier := ih.mpr earlier
      exact ⟨earlier, (last earlier).mpr now⟩

end

end Runs

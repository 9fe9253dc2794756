import Audec.TaskCoordinator.Operations

/-! What the operations do to the tables, entry by entry. -/

open Machine Checked Entries List
open Std (ExtTreeMap)

namespace Audec.Tasks

open TaskSnapshot

/-- The same task, whatever its state and what it has reported. -/
structure TaskSnapshot.Same (task other : TaskSnapshot) : Prop where
  id : other.id = task.id
  flight : other.flight = task.flight
  spec : other.spec = task.spec

theorem TaskSnapshot.Same.refl (task : TaskSnapshot) : task.Same task := ⟨rfl, rfl, rfl⟩

theorem TaskSnapshot.Same.trans {a b c : TaskSnapshot} (first : a.Same b) (second : b.Same c) : a.Same c :=
  ⟨second.id.trans first.id, second.flight.trans first.flight, second.spec.trans first.spec⟩

def Keeps (tasks tasks' : TaskTable) : Prop :=
  ∀ id : TaskId, Option.Rel (fun task task' => TaskSnapshot.Same task task' ∧ (task'.isEligible = true → task.isEligible = true))
    tasks[id]? tasks'[id]?

def KeepsEligible (tasks tasks' : TaskTable) : Prop :=
  ∀ id : TaskId, Option.Rel (fun task task' => TaskSnapshot.Same task task' ∧ task'.isEligible = task.isEligible)
    tasks[id]? tasks'[id]?

namespace Keeps

variable {id : TaskId}

theorem held {tasks tasks' : TaskTable} (keeps : Keeps tasks tasks') {task' : TaskSnapshot}
    (found : tasks'[id]? = some task') : ∃ task, tasks[id]? = some task ∧ TaskSnapshot.Same task task' ∧
      (task'.isEligible = true → task.isEligible = true) := by
  have related := keeps id
  rw [found] at related
  revert related
  generalize tasks[id]? = x
  rintro (⟨same, kept⟩)
  exact ⟨_, rfl, same, kept⟩

theorem kept {tasks tasks' : TaskTable} (keeps : Keeps tasks tasks') {task : TaskSnapshot}
    (found : tasks[id]? = some task) : ∃ task', tasks'[id]? = some task' ∧ TaskSnapshot.Same task task' ∧
      (task'.isEligible = true → task.isEligible = true) := by
  have related := keeps id
  rw [found] at related
  revert related
  generalize tasks'[id]? = x
  rintro (⟨same, kept⟩)
  exact ⟨_, rfl, same, kept⟩

theorem active {tasks tasks' : TaskTable} (keeps : Keeps tasks tasks') (there : ∃ task, tasks[id]? = some task) :
    ∃ task', tasks'[id]? = some task' := by
  obtain ⟨task, held⟩ := there
  obtain ⟨task', kept, -⟩ := keeps.kept held
  exact ⟨task', kept⟩

end Keeps

variable {tasks tasks' : TaskTable} {task : TaskSnapshot}

theorem KeepsEligible.keeps (exact : KeepsEligible tasks tasks') : Keeps tasks tasks' := by
  intro id
  have related := exact id
  revert related
  generalize tasks[id]? = x
  generalize tasks'[id]? = y
  rintro (⟨same, kept⟩ | _)
  · exact Option.Rel.some ⟨same, fun eligible => by rwa [kept] at eligible⟩
  · exact Option.Rel.none

theorem KeepsEligible.refl (tasks : TaskTable) : KeepsEligible tasks tasks := by
  intro id
  cases tasks[id]? with
  | none => exact Option.Rel.none
  | some task => exact Option.Rel.some ⟨TaskSnapshot.Same.refl task, rfl⟩

theorem KeepsEligible.trans {a b d : TaskTable} (first : KeepsEligible a b) (second : KeepsEligible b d) :
    KeepsEligible a d := by
  intro id
  have step := first id
  have step' := second id
  revert step step'
  generalize a[id]? = x
  generalize b[id]? = y
  generalize d[id]? = z
  rintro (⟨same, kept⟩ | _) (⟨same', kept'⟩ | _)
  · exact Option.Rel.some ⟨same.trans same', kept'.trans kept⟩
  · exact Option.Rel.none

section

variable (exact : KeepsEligible tasks tasks')
include exact

theorem KeepsEligible.kept {id : TaskId}
    (found : tasks[id]? = some task) : ∃ task', tasks'[id]? = some task' ∧ TaskSnapshot.Same task task' ∧
      task'.isEligible = task.isEligible := by
  have related := exact id
  rw [found] at related
  revert related
  generalize tasks'[id]? = x
  rintro (⟨same, kept⟩)
  exact ⟨_, rfl, same, kept⟩

theorem KeepsEligible.any (id : TaskId) :
    tasks'[id]?.any isEligible = tasks[id]?.any isEligible := by
  have related := exact id
  revert related
  generalize tasks[id]? = x
  generalize tasks'[id]? = y
  rintro (⟨-, kept⟩ | _)
  · exact kept
  · rfl

theorem KeepsEligible.hasEligible (flight : FlightRecord) :
    flight.hasEligible tasks' = flight.hasEligible tasks := by
  unfold FlightRecord.hasEligible
  simp only [exact.any]

end

theorem keepsEligible_insert {id : TaskId} {task' : TaskSnapshot} (held : tasks[id]? = some task)
    (same : TaskSnapshot.Same task task') (eligible : task'.isEligible = task.isEligible) :
    KeepsEligible tasks (tasks.insert id task') := by
  intro other
  rw [lookup_insert]
  by_cases here : id = other
  · subst here
    rw [if_pos rfl, held]
    exact Option.Rel.some ⟨same, eligible⟩
  · rw [if_neg here]
    exact KeepsEligible.refl tasks other

theorem keepsEligible_foldl {α : Type} {change : TaskTable → α → TaskTable} (step : ∀ tasks item, KeepsEligible tasks (change tasks item))
    (items : List α) (tasks : TaskTable) : KeepsEligible tasks (items.foldl change tasks) := by
  induction items generalizing tasks with
  | nil => exact KeepsEligible.refl tasks
  | cons item more ih => exact (step tasks item).trans (ih _)

section

variable (reason : CancellationReason)

def TaskSnapshot.marked (task : TaskSnapshot) : TaskSnapshot :=
  if task.isEligible then { task with state := .cancelling reason } else task

theorem TaskSnapshot.marked_same (task : TaskSnapshot) :
    TaskSnapshot.Same task (task.marked reason) := by
  unfold marked
  split
  · exact ⟨rfl, rfl, rfl⟩
  · exact TaskSnapshot.Same.refl task

theorem TaskSnapshot.marked_ineligible (task : TaskSnapshot) :
    (task.marked reason).isEligible = false := by
  unfold marked
  split
  · rfl
  · exact eq_false_of_ne_true ‹_›

theorem TaskSnapshot.marked_of_ineligible (ineligible : task.isEligible = false) :
    task.marked reason = task := by
  unfold marked
  rw [ineligible, if_neg Bool.false_ne_true]

end

namespace TaskCoordinator

section

variable (reason : CancellationReason)

theorem mark_lookup (tasks : TaskTable) (id other : TaskId) :
    (mark reason tasks id)[other]? =
      tasks[other]?.map fun task => if other = id then task.marked reason else task := by
  unfold mark marked
  cases held : tasks[id]? with
  | none =>
    by_cases here : other = id
    · subst here
      simp [held]
    · simp [here]
  | some task =>
    dsimp only
    split
    · rename_i eligible
      rw [lookup_insert]
      by_cases here : id = other
      · subst here
        simp [held, eligible]
      · simp [here, Ne.symm here]
    · rename_i ineligible
      by_cases here : other = id
      · subst here
        simp [held, ineligible]
      · simp [here]

theorem markAll_lookup (ids : List TaskId) (tasks : TaskTable) (id : TaskId) :
    (ids.foldl (mark reason) tasks)[id]? = tasks[id]?.map fun task => if id ∈ ids then task.marked reason else task := by
  induction ids generalizing tasks with
  | nil => simp
  | cons first more ih =>
    rw [foldl_cons, ih, mark_lookup, Option.map_map]
    congr 1
    funext task
    simp only [Function.comp_apply, mem_cons]
    by_cases here : id = first
    · rw [if_pos here, if_pos (Or.inl here), marked_of_ineligible reason (marked_ineligible reason task),
        ite_self]
    · simp [here]

theorem markAll_keeps (ids : List TaskId) (tasks : TaskTable) :
    Keeps tasks (ids.foldl (mark reason) tasks) := by
  intro id
  rw [markAll_lookup]
  cases tasks[id]? with
  | none => exact Option.Rel.none
  | some task =>
    apply Option.Rel.some
    dsimp only
    split
    · refine ⟨marked_same reason task, ?_⟩
      rw [marked_ineligible]
      exact nofun
    · exact ⟨TaskSnapshot.Same.refl task, fun eligible => eligible⟩

end

theorem mem_selectTasks {coordinator : TaskCoordinator} {test : TaskId → TaskSnapshot → Bool} {id : TaskId} :
    id ∈ coordinator.selectTasks test ↔ ∃ task, coordinator.tasks[id]? = some task ∧ test id task = true := by
  simp only [selectTasks, mem_map, mem_filter, Prod.exists, mem_toList]
  constructor
  · rintro ⟨key, task, ⟨held, passes⟩, rfl⟩
    exact ⟨task, held, passes⟩
  · rintro ⟨task, held, passes⟩
    exact ⟨id, task, ⟨held, passes⟩, rfl⟩

theorem mem_allFlights {coordinator : TaskCoordinator} {flight : FlightRecord} :
    flight ∈ coordinator.allFlights ↔ ∃ id : FlightId, coordinator.flights[id]? = some flight := by
  simp only [allFlights, mem_map, Prod.exists, mem_toList]
  constructor
  · rintro ⟨id, _, held, rfl⟩
    exact ⟨id, held⟩
  · rintro ⟨id, held⟩
    exact ⟨id, flight, held, rfl⟩

theorem start_keeps (tasks : TaskTable) (id : TaskId) : KeepsEligible tasks (start tasks id) := by
  unfold start
  cases held : tasks[id]? with
  | none => exact KeepsEligible.refl tasks
  | some task =>
    dsimp only
    split
    · rename_i eligible
      exact keepsEligible_insert held ⟨rfl, rfl, rfl⟩ eligible.symm
    · exact KeepsEligible.refl tasks

theorem withDiagnostic_same (limit : Nat) (diagnostic : TaskDiagnostic) (task : TaskSnapshot) :
    TaskSnapshot.Same task (task.withDiagnostic limit diagnostic) ∧
      (task.withDiagnostic limit diagnostic).isEligible = task.isEligible := by
  unfold withDiagnostic
  split <;> exact ⟨⟨rfl, rfl, rfl⟩, rfl⟩

theorem pushDiagnostic_keeps (limit : Nat) (diagnostic : TaskDiagnostic) (tasks : TaskTable) (id : TaskId) :
    KeepsEligible tasks (pushDiagnostic limit diagnostic tasks id) := by
  unfold pushDiagnostic
  cases held : tasks[id]? with
  | none => exact KeepsEligible.refl tasks
  | some task =>
    have same := withDiagnostic_same limit diagnostic task
    exact keepsEligible_insert held same.1 same.2

theorem pushDiagnostics_keeps (coordinator : TaskCoordinator) (subscribers : List TaskId) (diagnostics : List TaskDiagnostic) :
    KeepsEligible coordinator.tasks (coordinator.pushDiagnostics subscribers diagnostics).tasks :=
  keepsEligible_foldl (fun tasks diagnostic =>
    keepsEligible_foldl (fun tasks id => pushDiagnostic_keeps _ diagnostic tasks id) subscribers tasks) diagnostics _

theorem recordProgress_keeps (progress : TaskProgress) (tasks : TaskTable) (ids : List TaskId) :
    KeepsEligible tasks (recordProgress progress tasks ids).1 := by
  induction ids generalizing tasks with
  | nil => exact KeepsEligible.refl tasks
  | cons id more ih =>
    unfold recordProgress
    cases held : tasks[id]? with
    | none => exact ih tasks
    | some task =>
      dsimp only
      split
      · have same : TaskSnapshot.Same task { task with progress := some progress } := ⟨rfl, rfl, rfl⟩
        exact (keepsEligible_insert held same rfl).trans (ih _)
      · exact KeepsEligible.refl tasks

theorem unshare_foldl (index : SingleFlightKey → Option FlightId) (flights : List FlightRecord) (key : SingleFlightKey)
    (flight : FlightId) : flights.foldl unshare index key = some flight ↔
      index key = some flight ∧ ∀ record ∈ flights, record.key = key → record.id ≠ flight := by
  induction flights generalizing index with
  | nil => simp
  | cons first more ih =>
    rw [foldl_cons, ih, forall_mem_cons, ← and_assoc]
    apply and_congr_left
    intro _
    unfold unshare
    split
    · rename_i indexed
      by_cases here : first.key = key
      · subst here
        rw [Function.update_self, indexed]
        constructor
        · exact nofun
        · rintro ⟨same, different⟩
          cases same
          exact absurd rfl (different rfl)
      · rw [Function.update_of_ne (Ne.symm here)]
        simp [here]
    · rename_i notIndexed
      constructor
      · intro found
        refine ⟨found, ?_⟩
        rintro rfl rfl
        exact notIndexed found
      · exact And.left

end TaskCoordinator

end Audec.Tasks

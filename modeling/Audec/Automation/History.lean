import Audec.Lib.Runs
import Audec.Automation.Commands

/-! The history of commands: in every run both stacks can be taken back, as long as a revision is left. -/

open Machine Checked GuardedStore Runs List Std.ExtTreeMap
open Std (ExtTreeMap)

namespace Audec.Automation

open ContentStore

def Replays : ContentStore → List AutomationCommand → Prop
  | _, [] => True
  | store, command :: rest => Accepted store command ∧ Replays (writes command.puts store) rest

variable {store other : ContentStore} {command : AutomationCommand} {commands rest : List AutomationCommand}

section

variable (replays : Replays store commands)
include replays

theorem Replays.congr (same : Same store other) : Replays other commands := by
  induction commands generalizing store other with
  | nil => trivial
  | cons command commands tail =>
    obtain ⟨accepted, later⟩ := replays
    obtain ⟨accepted', alike⟩ := accepted.congr same
    exact ⟨accepted', tail later alike.symm⟩

theorem Replays.take (count : Nat) : Replays store (commands.take count) := by
  induction commands generalizing store count with
  | nil => simpa using replays
  | cons command commands tail =>
    cases count with
    | zero => trivial
    | succ count => exact ⟨replays.1, tail replays.2 count⟩

theorem Replays.back (valid : store.Valid) (accepted : Accepted store command) :
    Replays (writes command.puts store) (command.inverse :: commands) := by
  obtain ⟨accepted', restored⟩ := accepted.inverse valid
  exact ⟨accepted', replays.congr restored.symm⟩

end

namespace AutomationHistory

variable {history : AutomationHistory}

def Lasts (history : AutomationHistory) : Prop := history.graph.revision.val + 1 < 0x10000000000000000

/-- As long as a revision is left, both stacks can be taken to their ends. -/
structure Sound (history : AutomationHistory) : Prop where
  valid : history.graph.store.Valid
  undo : history.Lasts → Replays history.graph.store history.undo
  redo : history.Lasts → Replays history.graph.store history.redo
  unlimited : history.limit = 0 → history.undo = [] ∧ history.redo = []

theorem Sound.new {graph : AutomationGraph} (valid : graph.validate = .ok ()) (limit : Nat) : (new graph limit).Sound where
  valid := AutomationGraph.validate_ok.mp valid
  undo _ := trivial
  redo _ := trivial
  unlimited _ := ⟨rfl, rfl⟩

theorem execute_sound (sound : history.Sound) (command : AutomationCommand) : (history.execute command).2.Sound := by
  have applied := AutomationGraph.apply_applied history.graph command
  unfold execute
  generalize history.graph.apply command = result at applied ⊢
  cases applied with
  | refused refused => exact sound
  | @done after accepts stored revision lanes points =>
    have valid : after.store.Valid := stored ▸ accepts.accepted.valid
    have replays : Replays after.store (command.inverse :: history.undo) := by
      rw [stored]
      exact (sound.undo accepts.revision).back sound.valid accepts.accepted
    refine ⟨valid, fun _ => ?_, fun _ => trivial, fun unlimited => ⟨?_, rfl⟩⟩
    · change Replays after.store (if 0 < history.limit then _ else _)
      split
      · exact replays.take _
      · rename_i unlimited
        rw [(sound.unlimited (by omega)).1]
        trivial
    · change (if 0 < history.limit then _ else _) = []
      rw [if_neg (by change history.limit = 0 at unlimited; omega)]
      exact (sound.unlimited unlimited).1

theorem take_entry (sound : history.Sound) {others : List AutomationCommand} (lasts : history.Lasts)
    (replays : Replays history.graph.store (command :: rest)) (replays' : Replays history.graph.store others) :
    ∃ after, history.graph.apply command = (.ok command.inverse, after) ∧ after.store.Valid ∧ Replays after.store rest ∧
      Replays after.store (command.inverse :: others) := by
  have accepts : history.graph.Accepts command := ⟨lasts, replays.1⟩
  obtain ⟨after, applied, stored, -⟩ := AutomationGraph.apply_of_accepts accepts
  refine ⟨after, applied, ?_⟩
  rw [stored]
  exact ⟨replays.1.valid, replays.2, replays'.back sound.valid replays.1⟩

theorem apply_exhausted (exhausted : ¬ history.Lasts) (command : AutomationCommand) :
    ∃ error, history.graph.apply command = (.error error, history.graph) := by
  have applied := AutomationGraph.apply_applied history.graph command
  generalize history.graph.apply command = result at applied ⊢
  cases applied with
  | refused refused => exact ⟨_, rfl⟩
  | done accepts => exact absurd accepts.revision exhausted

/-- What undo does: nothing without an entry; it succeeds while a revision is left, and loses the entry after that. -/
inductive Undone (history : AutomationHistory) : Except AutomationError Bool × AutomationHistory → Prop where
  | empty (empty : history.undo = []) : Undone history (.ok false, history)
  | taken {command : AutomationCommand} {rest : List AutomationCommand} {after : AutomationGraph} (lasts : history.Lasts)
      (entry : history.undo = command :: rest) (valid : after.store.Valid) (undo : Replays after.store rest)
      (redo : Replays after.store (command.inverse :: history.redo)) :
      Undone history (.ok true, { history with graph := after, undo := rest, redo := command.inverse :: history.redo })
  | lost {command : AutomationCommand} {rest : List AutomationCommand} {error : AutomationError} (exhausted : ¬ history.Lasts)
      (entry : history.undo = command :: rest) : Undone history (.error error, { history with undo := rest })

inductive Redone (history : AutomationHistory) : Except AutomationError Bool × AutomationHistory → Prop where
  | empty (empty : history.redo = []) : Redone history (.ok false, history)
  | taken {command : AutomationCommand} {rest : List AutomationCommand} {after : AutomationGraph} (lasts : history.Lasts)
      (entry : history.redo = command :: rest) (valid : after.store.Valid) (redo : Replays after.store rest)
      (undo : Replays after.store (command.inverse :: history.undo)) :
      Redone history (.ok true, { history with graph := after, redo := rest, undo := command.inverse :: history.undo })
  | lost {command : AutomationCommand} {rest : List AutomationCommand} {error : AutomationError} (exhausted : ¬ history.Lasts)
      (entry : history.redo = command :: rest) : Redone history (.error error, { history with redo := rest })

theorem undo_undone (sound : history.Sound) : Undone history history.undoCommand := by
  unfold undoCommand
  cases entry : history.undo with
  | nil => exact .empty entry
  | cons command rest =>
    dsimp only
    by_cases lasts : history.Lasts
    · obtain ⟨after, applied, valid, undo, redo⟩ := take_entry sound lasts (entry ▸ sound.undo lasts) (sound.redo lasts)
      rw [applied]
      exact .taken lasts entry valid undo redo
    · obtain ⟨error, applied⟩ := apply_exhausted lasts command
      rw [applied]
      exact .lost lasts entry

theorem redo_redone (sound : history.Sound) : Redone history history.redoCommand := by
  unfold redoCommand
  cases entry : history.redo with
  | nil => exact .empty entry
  | cons command rest =>
    dsimp only
    by_cases lasts : history.Lasts
    · obtain ⟨after, applied, valid, redo, undo⟩ := take_entry sound lasts (entry ▸ sound.redo lasts) (sound.undo lasts)
      rw [applied]
      exact .taken lasts entry valid redo undo
    · obtain ⟨error, applied⟩ := apply_exhausted lasts command
      rw [applied]
      exact .lost lasts entry

theorem perform_sound (sound : history.Sound) (action : Action) : (history.perform action).Sound := by
  cases action with
  | execute command => exact execute_sound sound command
  | undo =>
    have undone := undo_undone sound
    change history.undoCommand.2.Sound
    generalize history.undoCommand = result at undone ⊢
    cases undone with
    | empty => exact sound
    | taken lasts entry valid undo redo =>
      refine ⟨valid, fun _ => undo, fun _ => redo, fun unlimited => ?_⟩
      rw [(sound.unlimited unlimited).1] at entry
      cases entry
    | lost exhausted entry =>
      refine ⟨sound.valid, fun lasts => absurd lasts exhausted, fun lasts => absurd lasts exhausted, fun unlimited => ?_⟩
      rw [(sound.unlimited unlimited).1] at entry
      cases entry
  | redo =>
    have redone := redo_redone sound
    change history.redoCommand.2.Sound
    generalize history.redoCommand = result at redone ⊢
    cases redone with
    | empty => exact sound
    | taken lasts entry valid redo undo =>
      refine ⟨valid, fun _ => undo, fun _ => redo, fun unlimited => ?_⟩
      rw [(sound.unlimited unlimited).2] at entry
      cases entry
    | lost exhausted entry =>
      refine ⟨sound.valid, fun lasts => absurd lasts exhausted, fun lasts => absurd lasts exhausted, fun unlimited => ?_⟩
      rw [(sound.unlimited unlimited).2] at entry
      cases entry

def Fresh (history : AutomationHistory) : Prop := ∃ graph limit, graph.validate = .ok () ∧ history = new graph limit

theorem sound_of_run {events : List (Event AutomationHistory Action)} (run : Run perform Fresh events history) : history.Sound := by
  refine @Run.invariant _ _ perform Fresh events history Sound (fun _ => True) ?_ (fun state action sound _ => perform_sound sound action) run
    fun _ _ => trivial
  rintro state ⟨graph, limit, valid, rfl⟩
  exact .new valid limit

structure Faithful (history : AutomationHistory) (command : AutomationCommand) : Prop where
  atomic : history.graph.Atomic command
  undo : ∀ error, history.undoCommand.1 = .error error → history.undoCommand.2 = history
  redo : ∀ error, history.redoCommand.1 = .error error → history.redoCommand.2 = history

structure Careful (history : AutomationHistory) (command : AutomationCommand) : Prop where
  roomy : history.graph.Accepts command → history.graph.Roomy command
  entries : history.Lasts ∨ history.undo = [] ∧ history.redo = []

theorem undo_kept_iff (sound : history.Sound) : (∀ error, history.undoCommand.1 = .error error → history.undoCommand.2 = history) ↔
    history.Lasts ∨ history.undo = [] := by
  have undone := undo_undone sound
  generalize history.undoCommand = result at undone ⊢
  cases undone with
  | empty empty => exact ⟨fun _ => .inr empty, fun _ => nofun⟩
  | taken lasts => exact ⟨fun _ => .inl lasts, fun _ => nofun⟩
  | @lost command rest error exhausted entry =>
    constructor
    · intro kept
      have same := congrArg AutomationHistory.undo (kept error rfl)
      rw [entry] at same
      exact absurd same.symm (cons_ne_self command rest)
    · rintro (lasts | empty)
      · exact absurd lasts exhausted
      · rw [entry] at empty
        cases empty

theorem redo_kept_iff (sound : history.Sound) : (∀ error, history.redoCommand.1 = .error error → history.redoCommand.2 = history) ↔
    history.Lasts ∨ history.redo = [] := by
  have redone := redo_redone sound
  generalize history.redoCommand = result at redone ⊢
  cases redone with
  | empty empty => exact ⟨fun _ => .inr empty, fun _ => nofun⟩
  | taken lasts => exact ⟨fun _ => .inl lasts, fun _ => nofun⟩
  | @lost command rest error exhausted entry =>
    constructor
    · intro kept
      have same := congrArg AutomationHistory.redo (kept error rfl)
      rw [entry] at same
      exact absurd same.symm (cons_ne_self command rest)
    · rintro (lasts | empty)
      · exact absurd lasts exhausted
      · rw [entry] at empty
        cases empty

/-- In every state of every run, for every command. -/
theorem history_faithful_iff {events : List (Event AutomationHistory Action)} (run : Run perform Fresh events history)
    (command : AutomationCommand) : history.Faithful command ↔ history.Careful command := by
  have sound := sound_of_run run
  have atomic : history.graph.Atomic command ↔ _ := AutomationGraph.atomic_iff (AutomationGraph.validate_ok.mpr sound.valid)
  constructor
  · rintro ⟨kept, undo, redo⟩
    refine ⟨atomic.mp kept, ?_⟩
    rw [or_and_left]
    exact ⟨(undo_kept_iff sound).mp undo, (redo_kept_iff sound).mp redo⟩
  · rintro ⟨roomy, entries⟩
    rw [or_and_left] at entries
    exact ⟨atomic.mpr roomy, (undo_kept_iff sound).mpr entries.1, (redo_kept_iff sound).mpr entries.2⟩

def gain : ParameterDescriptor := ⟨.mixer (.busGain 7), "Gain", .decibels, -60.0, 12.0, 0.0, .linear, .linearFrames 32⟩

def automateGain (id : AutomationLaneId) : AutomationCommand :=
  ⟨"automate gain", [⟨none, some gain⟩], [⟨none, some (.new id "Gain" (.mixer (.busGain 7)) .frames)⟩]⟩

theorem new_fresh (revision : U64) (limit : Nat) : Fresh (new { AutomationGraph.new with revision } limit) :=
  ⟨_, limit, rfl, rfl⟩

theorem automate_gain_faithful : Faithful (new AutomationGraph.new 8) (automateGain 1) := by
  have single : (automateGain 1).afters = [.new 1 "Gain" (.mixer (.busGain 7)) .frames] := rfl
  refine (history_faithful_iff (.start (new_fresh 0 8)) (automateGain 1)).mpr ⟨fun _ => ⟨by decide, ?_, ?_, ?_, ?_⟩, .inl (by change 0 + 1 < 0x10000000000000000; decide)⟩
  · intro lane put
    rw [single, List.mem_singleton] at put
    rw [put]
    decide
  · intro lane put point inside
    rw [single, List.mem_singleton] at put
    rw [put] at inside
    exact absurd inside List.not_mem_nil
  · intro id lane held
    exact absurd held (by rw [new, AutomationGraph.new, ExtTreeMap.getElem?_empty]; exact nofun)
  · intro id lane held
    exact absurd held (by rw [new, AutomationGraph.new, ExtTreeMap.getElem?_empty]; exact nofun)

/-- At the last revision undo fails and loses its entry; a lane with the last identity is not below the allocator. -/
theorem last_entry_lost :
    let first := new { AutomationGraph.new with revision := 0xfffffffffffffffe } 1
    let worn := first.perform (.execute (automateGain 0xffffffffffffffff))
    Run perform Fresh [⟨first, .execute (automateGain 0xffffffffffffffff)⟩] worn ∧ worn.undo.length = 1 ∧
      worn.undoCommand.1 = .error .revisionExhausted ∧ worn.undoCommand.2.undo = [] ∧
      worn.graph.lanes[(0xffffffffffffffff : AutomationLaneId)]?.isSome = true ∧ worn.graph.nextLaneId = 0xffffffffffffffff := by
  intro first worn
  exact ⟨(Run.start (new_fresh _ 1)).step _, by decide +kernel, by rfl, by rfl, by decide +kernel, by decide +kernel⟩

end AutomationHistory

end Audec.Automation

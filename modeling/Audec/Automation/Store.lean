import Audec.Automation.Content

/-! The graph as a keyed store: a change is a guarded put, and a command makes its puts to distinct keys. -/

open Machine Checked GuardedStore FloatEquality PartialEquality Entries
open Std (ExtTreeMap)

namespace Audec.Automation

open ParameterChange

inductive ContentKey where
  | parameter (address : ParameterAddress)
  | lane (id : AutomationLaneId)
  deriving DecidableEq

abbrev Content : ContentKey → Type
  | .parameter _ => Option ParameterDescriptor
  | .lane _ => Option AutomationLane

instance contentBEq : (key : ContentKey) → BEq (Content key)
  | .parameter _ => inferInstanceAs (BEq (Option ParameterDescriptor))
  | .lane _ => inferInstanceAs (BEq (Option AutomationLane))

instance contentPartialEquiv : (key : ContentKey) → PartialEquivBEq (Content key)
  | .parameter _ => inferInstanceAs (PartialEquivBEq (Option ParameterDescriptor))
  | .lane _ => inferInstanceAs (PartialEquivBEq (Option AutomationLane))

abbrev ContentStore : Type := (key : ContentKey) → Content key

namespace ContentStore

/-- Equal content, in the sense of the derived `PartialEq`. -/
def Same (store other : ContentStore) : Prop := ∀ key, (store key == other key) = true

theorem Same.symm {store other : ContentStore} (same : Same store other) : Same other store := fun key => BEq.symm (same key)

/-- What `validate` checks. -/
structure Valid (store : ContentStore) : Prop where
  parameters : ∀ address descriptor, store (.parameter address) = some descriptor → descriptor.validate = .ok ()
  lanes : ∀ id lane, store (.lane id) = some lane →
    ∃ descriptor, store (.parameter lane.target) = some descriptor ∧ lane.validate descriptor = .ok ()

variable {store other : ContentStore}

theorem Valid.congr (valid : store.Valid) (same : Same store other) : other.Valid where
  parameters address descriptor held := by
    have equal : (store (.parameter address) == some descriptor) = true := held ▸ same (.parameter address)
    obtain ⟨found, there, equal⟩ := some_of_same equal
    exact ParameterDescriptor.validate_congr equal (valid.parameters address found there)
  lanes id lane held := by
    have equal : (store (.lane id) == some lane) = true := held ▸ same (.lane id)
    obtain ⟨found, there, equal⟩ := some_of_same equal
    obtain ⟨descriptor, registered, checked⟩ := valid.lanes id found there
    have targets := ((AutomationLane.beq_iff _ _).mp equal).2.2.1
    have registered' : (other (.parameter lane.target) == some descriptor) = true := by
      rw [← targets, ← registered]
      exact same.symm (.parameter found.target)
    obtain ⟨descriptor', there', equal'⟩ := some_of_same registered'
    exact ⟨descriptor', there', AutomationLane.validate_congr equal ((ParameterDescriptor.beq_iff _ _).mp equal').1.symm checked⟩

theorem Valid.refl (valid : store.Valid) : Same store store := by
  intro key
  cases key with
  | parameter address =>
    cases held : store (.parameter address) with
    | none => rfl
    | some descriptor => exact ParameterDescriptor.validate_self (valid.parameters address descriptor held)
  | lane id =>
    cases held : store (.lane id) with
    | none => rfl
    | some lane =>
      obtain ⟨descriptor, -, checked⟩ := valid.lanes id lane held
      exact AutomationLane.validate_self checked

end ContentStore

open ContentStore

section Agreed

variable {α κ : Type} [DecidableEq κ] {name : α → κ} {before after : Option α} {key : κ}

theorem agreed_swap : agreed name before after = .ok key ↔ agreed name after before = .ok key := by
  cases before with
  | none => cases after <;> exact Iff.rfl
  | some a =>
    cases after with
    | none => exact Iff.rfl
    | some b =>
      unfold agreed
      dsimp only
      by_cases same : name a = name b
      · rw [if_pos same, if_pos same.symm, same]
      · rw [if_neg same, if_neg (Ne.symm same)]

theorem agreed_after {value : α} (named : agreed name before (some value) = .ok key) : name value = key := by
  cases before with
  | none => exact Except.ok.inj named
  | some a =>
    unfold agreed at named
    dsimp only at named
    split at named
    · rename_i same
      rw [← same]
      exact Except.ok.inj named
    · cases named

end Agreed

def ParameterChange.put (change : ParameterChange) : Option (Put ContentKey Content) :=
  match change.address with
  | .ok address => some ⟨.parameter address, change.before, change.after⟩
  | .error _ => none

def LaneChange.put (change : LaneChange) : Option (Put ContentKey Content) :=
  match change.id with
  | .ok id => some ⟨.lane id, change.before, change.after⟩
  | .error _ => none

theorem ParameterChange.put_swap (change : ParameterChange) :
    put ⟨change.after, change.before⟩ = change.put.map Put.inverse := by
  unfold put
  cases named : change.address with
  | ok address =>
    have swapped : (mk change.after change.before).address = .ok address := agreed_swap.mp named
    rw [swapped]
    rfl
  | error error =>
    cases swapped : (mk change.after change.before).address with
    | ok address => exact absurd (agreed_swap.mp swapped) (by rw [← ParameterChange.address, named]; exact nofun)
    | error error => rfl

theorem LaneChange.put_swap (change : LaneChange) : LaneChange.put ⟨change.after, change.before⟩ = change.put.map Put.inverse := by
  unfold put
  cases named : change.id with
  | ok id =>
    have swapped : (LaneChange.mk change.after change.before).id = .ok id := agreed_swap.mp named
    rw [swapped]
    rfl
  | error error =>
    cases swapped : (LaneChange.mk change.after change.before).id with
    | ok id => exact absurd (agreed_swap.mp swapped) (by rw [← LaneChange.id, named]; exact nofun)
    | error error => rfl

namespace AutomationCommand

variable {command : AutomationCommand}

def puts (command : AutomationCommand) : List (Put ContentKey Content) :=
  command.parameters.filterMap ParameterChange.put ++ command.changes.filterMap LaneChange.put

structure Named (command : AutomationCommand) : Prop where
  parameters : ∀ change ∈ command.parameters, ∃ address, change.address = .ok address
  lanes : ∀ change ∈ command.changes, ∃ id, change.id = .ok id

theorem Named.inverse (named : command.Named) : command.inverse.Named := by
  constructor
  · intro change inside
    obtain ⟨origin, member, rfl⟩ := List.mem_map.mp inside
    obtain ⟨address, found⟩ := named.parameters origin (List.mem_reverse.mp member)
    exact ⟨address, agreed_swap.mp found⟩
  · intro change inside
    obtain ⟨origin, member, rfl⟩ := List.mem_map.mp inside
    obtain ⟨id, found⟩ := named.lanes origin (List.mem_reverse.mp member)
    exact ⟨id, agreed_swap.mp found⟩

theorem filterMap_inverse {α : Type} {put : α → Option (Put ContentKey Content)} {swap : α → α}
    (put_swap : ∀ change, put (swap change) = (put change).map Put.inverse) (changes : List α) :
    (changes.reverse.map swap).filterMap put = GuardedStore.undo (changes.filterMap put) := by
  have composed : put ∘ swap = fun change => (put change).map Put.inverse := funext put_swap
  rw [List.filterMap_map, composed, ← List.map_filterMap, List.filterMap_reverse, GuardedStore.undo, List.map_reverse]

theorem puts_inverse (command : AutomationCommand) : command.inverse.puts.Perm (GuardedStore.undo command.puts) := by
  have parameters := filterMap_inverse put_swap command.parameters
  have lanes := filterMap_inverse LaneChange.put_swap command.changes
  unfold puts
  rw [inverse, parameters, lanes, undo_append]
  exact List.perm_append_comm

theorem keys_inverse_distinct (distinct : (keys command.puts).Nodup) : (keys (GuardedStore.undo command.puts)).Nodup := by
  have reversed : keys (GuardedStore.undo command.puts) = (keys command.puts).reverse := by
    simp [keys, GuardedStore.undo, Function.comp_def]
  rw [reversed]
  exact List.nodup_reverse.mpr distinct

end AutomationCommand

structure Accepted (store : ContentStore) (command : AutomationCommand) : Prop where
  named : command.Named
  distinct : (keys command.puts).Nodup
  ready : ∀ put ∈ command.puts, Ready put store
  valid : ContentStore.Valid (writes command.puts store)

variable {store other : ContentStore} {command : AutomationCommand}

theorem Accepted.congr (accepted : Accepted store command) (same : Same store other) :
    Accepted other command ∧ Same (writes command.puts other) (writes command.puts store) := by
  have alike : Same (writes command.puts other) (writes command.puts store) :=
    fun key => writes_alike same.symm accepted.valid.refl key
  refine ⟨⟨accepted.named, accepted.distinct, fun put member => ?_, accepted.valid.congr alike.symm⟩, alike⟩
  exact BEq.trans (same.symm put.key) (accepted.ready put member)

theorem Accepted.inverse (accepted : Accepted store command) (valid : store.Valid) :
    Accepted (writes command.puts store) command.inverse ∧
      Same (writes command.inverse.puts (writes command.puts store)) store := by
  have perm := command.puts_inverse
  have undone : (keys (GuardedStore.undo command.puts)).Nodup := AutomationCommand.keys_inverse_distinct accepted.distinct
  have distinct : (keys command.inverse.puts).Nodup := (perm.map Put.key).nodup_iff.mpr undone
  have accepts := (accepts_distinct accepted.distinct).mpr accepted.ready
  have restored : Same (writes command.inverse.puts (writes command.puts store)) store := by
    intro key
    rw [writes_perm distinct perm]
    by_cases touched : key ∈ keys command.puts
    · exact writes_undo _ accepts touched
    · rw [writes_other _ _ (by rwa [mem_keys_undo]), writes_other _ _ touched]
      exact valid.refl key
  refine ⟨⟨accepted.named.inverse, distinct, fun put member => ?_, valid.congr restored.symm⟩, restored⟩
  have ready := (accepts_undo_iff accepts).mpr fun key _ => accepted.valid.refl key
  exact (accepts_distinct undone).mp ready put (perm.mem_iff.mp member)

end Audec.Automation

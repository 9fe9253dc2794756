import Mathlib

/-! Programs that change a store by atomic effects and may stop between any two of them. -/

open List

namespace Interrupted

/-- What an effect does to the store. -/
class Device (σ : Type) (ω : outParam Type) where
  apply : σ → ω → σ

/-- From a store, the effects made in order and how the program ends. -/
def Program (σ ω ε α : Type) := σ → List ω × Except ε α

namespace Program

variable {σ ω ε α β : Type} [Device σ ω]

variable (program : Program σ ω ε α)

def effects (program : Program σ ω ε α) (store : σ) : List ω := (program store).1

def result (program : Program σ ω ε α) (store : σ) : Except ε α := (program store).2

def finished (program : Program σ ω ε α) (store : σ) : σ := (program.effects store).foldl Device.apply store

def stopped (program : Program σ ω ε α) (count : Nat) (store : σ) : σ :=
  ((program.effects store).take count).foldl Device.apply store

def ofExcept (checked : Except ε α) : Program σ ω ε α := fun _ => ([], checked)

def bind (first : Program σ ω ε α) (next : α → Program σ ω ε β) : Program σ ω ε β := fun store =>
  match first.result store with
  | .ok value => (first.effects store ++ (next value).effects (first.finished store), (next value).result (first.finished store))
  | .error error => (first.effects store, .error error)

instance : Monad (Program σ ω ε) where
  pure value := ofExcept (.ok value)
  bind := bind

def read : Program σ ω ε σ := fun store => ([], .ok store)

def attempt (program : Program σ ω ε α) : Program σ ω ε (Except ε α) := fun store => (program.effects store, .ok (program.result store))

def perform (effect : ω) : Program σ ω ε Unit := fun _ => ([effect], .ok ())

@[simp] theorem result_pure (value : α) (store : σ) : (pure value : Program σ ω ε α).result store = .ok value := rfl
@[simp] theorem effects_pure (value : α) (store : σ) : (pure value : Program σ ω ε α).effects store = [] := rfl
@[simp] theorem finished_pure (value : α) (store : σ) : (pure value : Program σ ω ε α).finished store = store := rfl

section

variable (checked : Except ε α) (store : σ)
include checked store

@[simp] theorem result_ofExcept : (ofExcept checked : Program σ ω ε α).result store = checked := rfl
@[simp] theorem effects_ofExcept : (ofExcept checked : Program σ ω ε α).effects store = [] := rfl
@[simp] theorem finished_ofExcept : (ofExcept checked : Program σ ω ε α).finished store = store := rfl

end

@[simp] theorem result_perform (effect : ω) (store : σ) : (perform effect : Program σ ω ε Unit).result store = .ok () := rfl
@[simp] theorem effects_perform (effect : ω) (store : σ) : (perform effect : Program σ ω ε Unit).effects store = [effect] := rfl
@[simp] theorem finished_perform (effect : ω) (store : σ) :
    (perform effect : Program σ ω ε Unit).finished store = Device.apply store effect := rfl

section

variable (store : σ)
include program store

@[simp] theorem result_attempt : program.attempt.result store = .ok (program.result store) := rfl
@[simp] theorem effects_attempt : program.attempt.effects store = program.effects store := rfl
@[simp] theorem finished_attempt : program.attempt.finished store = program.finished store := rfl

end

section

variable (next : σ → Program σ ω ε β) (store : σ)
include next store

@[simp] theorem result_read : (read >>= next).result store = (next store).result store := rfl
@[simp] theorem effects_read : (read >>= next).effects store = (next store).effects store := rfl
@[simp] theorem finished_read : (read >>= next).finished store = (next store).finished store := rfl

end

theorem ofExcept_ok_bind (value : α) (next : α → Program σ ω ε β) : (ofExcept (.ok value) >>= next) = next value := by
  funext store
  rfl

section Sequence

variable {first : Program σ ω ε α} {next : α → Program σ ω ε β} {store : σ}

theorem result_bind_ok {value : α} (done : first.result store = .ok value) :
    (first >>= next).result store = (next value).result (first.finished store) := by
  show (bind first next store).2 = _
  simp only [bind, done]

theorem effects_bind_ok {value : α} (done : first.result store = .ok value) :
    (first >>= next).effects store = first.effects store ++ (next value).effects (first.finished store) := by
  show (bind first next store).1 = _
  simp only [bind, done]

theorem effects_bind_error {error : ε} (failed : first.result store = .error error) : (first >>= next).effects store = first.effects store := by
  show (bind first next store).1 = _
  simp only [bind, failed]

theorem finished_bind_ok {value : α} (done : first.result store = .ok value) :
    (first >>= next).finished store = (next value).finished (first.finished store) := by
  unfold finished
  rw [effects_bind_ok done, foldl_append]
  rfl

theorem bind_ok {out : β} :
    (first >>= next).result store = .ok out ↔
      ∃ value, first.result store = .ok value ∧ (next value).result (first.finished store) = .ok out := by
  cases done : first.result store with
  | ok value => simp [result_bind_ok done]
  | error error =>
    have failed : (first >>= next).result store = .error error := by
      show (bind first next store).2 = _
      simp only [bind, done]
    simp [failed]

end Sequence

end Program

section Along

variable {σ ω : Type} [Device σ ω] {allowed : σ → ω → Prop}

def Along (allowed : σ → ω → Prop) : List ω → σ → Prop
  | [], _ => True
  | effect :: made, store => allowed store effect ∧ Along allowed made (Device.apply store effect)

theorem along_append {made more : List ω} {store : σ} :
    Along allowed (made ++ more) store ↔ Along allowed made store ∧ Along allowed more (made.foldl Device.apply store) := by
  induction made generalizing store with
  | nil => simp [Along]
  | cons effect made ih =>
    rw [cons_append, Along, Along, ih, foldl_cons]
    exact and_assoc.symm

theorem along_take {made : List ω} {store : σ} (along : Along allowed made store) (count : Nat) : Along allowed (made.take count) store := by
  rw [← take_append_drop count made] at along
  exact (along_append.mp along).1

theorem along_bind {ε α β : Type} {first : Program σ ω ε α} {next : α → Program σ ω ε β} {store : σ}
    (before : Along allowed (first.effects store) store)
    (after : ∀ value, first.result store = .ok value → Along allowed ((next value).effects (first.finished store)) (first.finished store)) :
    Along allowed ((first >>= next).effects store) store := by
  cases done : first.result store with
  | ok value =>
    rw [Program.effects_bind_ok done, along_append]
    exact ⟨before, after value done⟩
  | error error =>
    rw [Program.effects_bind_error done]
    exact before

end Along

end Interrupted

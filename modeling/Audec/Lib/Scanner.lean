import Mathlib

open List Option

namespace Traced

/-- How a checked computation ends: a value, a typed error, an arithmetic fault, or a recursion
    bound that was too small. -/
inductive Outcome (ε α : Type) where
  | ok (value : α)
  | err (error : ε)
  | fault
  | exhausted

namespace Outcome

variable {ε α β : Type}

def map (f : α → β) : Outcome ε α → Outcome ε β
  | .ok value => .ok (f value)
  | .err error => .err error
  | .fault => .fault
  | .exhausted => .exhausted

def toOption : Outcome ε α → Option α
  | .ok value => some value
  | _ => none

end Outcome

/-- A checked computation together with the observations it has made, in order. The log survives
    errors and faults. -/
structure Run (ω ε α : Type) where
  log : List ω
  out : Outcome ε α

namespace Run

variable {ω ε α β : Type}

def pure (value : α) : Run ω ε α := ⟨[], .ok value⟩

def bind (first : Run ω ε α) (next : α → Run ω ε β) : Run ω ε β :=
  match first.out with
  | .ok value => ⟨first.log ++ (next value).log, (next value).out⟩
  | .err error => ⟨first.log, .err error⟩
  | .fault => ⟨first.log, .fault⟩
  | .exhausted => ⟨first.log, .exhausted⟩

instance : Monad (Run ω ε) where
  pure := Run.pure
  bind := Run.bind

def throw (error : ε) : Run ω ε α := ⟨[], .err error⟩

def fault : Run ω ε α := ⟨[], .fault⟩

def exhausted : Run ω ε α := ⟨[], .exhausted⟩

def observe (observation : ω) : Run ω ε Unit := ⟨[observation], .ok ()⟩

@[simp] theorem pure_out (value : α) : (Pure.pure value : Run ω ε α).out = .ok value := rfl
@[simp] theorem pure_log (value : α) : (Pure.pure value : Run ω ε α).log = [] := rfl
@[simp] theorem throw_out (error : ε) : (throw error : Run ω ε α).out = .err error := rfl
@[simp] theorem throw_log (error : ε) : (throw error : Run ω ε α).log = [] := rfl
@[simp] theorem fault_out : (fault : Run ω ε α).out = .fault := rfl
@[simp] theorem fault_log : (fault : Run ω ε α).log = [] := rfl
@[simp] theorem exhausted_out : (exhausted : Run ω ε α).out = .exhausted := rfl
@[simp] theorem exhausted_log : (exhausted : Run ω ε α).log = [] := rfl
@[simp] theorem observe_out (o : ω) : (observe o : Run ω ε Unit).out = .ok () := rfl
@[simp] theorem observe_log (o : ω) : (observe o : Run ω ε Unit).log = [o] := rfl

variable {first : Run ω ε α} {next : α → Run ω ε β}

variable {result : β} {value : α}

theorem bind_ok :
    (first >>= next).out = .ok result ↔ ∃ value, first.out = .ok value ∧ (next value).out = .ok result := by
  change (Run.bind first next).out = _ ↔ _
  unfold Run.bind
  cases first.out <;> simp

theorem bind_of_ok
    (done : first.out = .ok value) : (first >>= next).out = (next value).out := by
  change (Run.bind first next).out = _
  unfold Run.bind
  rw [done]

theorem bind_exhausted (stuck : first.out = .exhausted) :
    (first >>= next).out = .exhausted := by
  change (Run.bind first next).out = _
  unfold Run.bind
  rw [stuck]

theorem bind_stuck (stuck : (first >>= next).out = .exhausted) :
    first.out = .exhausted ∨ ∃ value, first.out = .ok value ∧ (next value).out = .exhausted := by
  change (Run.bind first next).out = _ at stuck
  unfold Run.bind at stuck
  cases done : first.out <;> simp_all

/-- A computation that, unless its recursion bound gives out, ends in the given value. -/
def Reaches (run : Run ω ε α) (value : α) : Prop :=
  run.out = .exhausted ∨ run.out = .ok value

/-- A computation that cannot end in the given value. -/
def Avoids (run : Run ω ε α) (value : α) : Prop :=
  run.out ≠ .ok value

theorem Reaches.pure (value : α) : (Pure.pure value : Run ω ε α).Reaches value := Or.inr rfl

theorem Reaches.exhausted (value : α) : (exhausted : Run ω ε α).Reaches value := Or.inl rfl

theorem Reaches.bind
    (head : first.Reaches value) (tail : (next value).Reaches result) : (first >>= next).Reaches result := by
  rcases head with stuck | done
  · exact Or.inl (bind_exhausted stuck)
  · rcases tail with stuck | finished
    · exact Or.inl (by rw [bind_of_ok done, stuck])
    · exact Or.inr (by rw [bind_of_ok done, finished])

end Run

end Traced

/-! Recursive descent over the rest of a text, with error offsets counted from its start. -/

open Traced

/-- A parser: given the length of the whole text and what is left of it, a result and what is left then. -/
def Scanner (σ ω ε α : Type) := Nat → List σ → Run ω ε (α × List σ)

namespace Scanner

variable {σ ω ε α β : Type}

def pure (value : α) : Scanner σ ω ε α := fun _ text => Pure.pure (value, text)

def bind (first : Scanner σ ω ε α) (next : α → Scanner σ ω ε β) : Scanner σ ω ε β :=
  fun total text => first total text >>= fun result => next result.1 total result.2

instance : Monad (Scanner σ ω ε) where
  pure := Scanner.pure
  bind := Scanner.bind

/-- Stops with an error at the current offset. -/
def fail (error : Nat → ε) : Scanner σ ω ε α := fun total text => Run.throw (error (total - text.length))

def exhausted : Scanner σ ω ε α := fun _ _ => Run.exhausted

def fault : Scanner σ ω ε α := fun _ _ => Run.fault

def observe (observation : ω) : Scanner σ ω ε Unit := fun _ text => Run.observe observation >>= fun _ => Pure.pure ((), text)

def rest : Scanner σ ω ε (List σ) := fun _ text => Pure.pure (text, text)

def peek : Scanner σ ω ε (Option σ) := fun _ text => Pure.pure (text.head?, text)

def advance : Scanner σ ω ε Unit := fun _ text => Pure.pure ((), text.tail)

def takeWhile (test : σ → Bool) : Scanner σ ω ε (List σ) :=
  fun _ text => Pure.pure (text.takeWhile test, text.dropWhile test)

def Stops (test : σ → Bool) (text : List σ) : Prop := ∀ c ∈ text.head?, test c = false

namespace Stops

theorem nil (test : σ → Bool) : Stops test [] := fun _ inside => nomatch inside

variable {test : σ → Bool}

variable {c : σ}

theorem cons (rejected : test c = false) (text : List σ) : Stops test (c :: text) := by
  intro d head
  rw [head?_cons, mem_some] at head
  rw [← head]
  exact rejected

theorem of_head {text : List σ} (head : text.head? = some c) (rejected : test c = false) :
    Stops test text := by
  intro d inside
  rw [head, mem_some] at inside
  rw [← inside]
  exact rejected

theorem span {rest : List σ} (stops : Stops test rest) :
    rest.takeWhile test = [] ∧ rest.dropWhile test = rest := by
  cases rest with
  | nil => exact ⟨rfl, rfl⟩
  | cons c more =>
    have rejected := stops c rfl
    rw [takeWhile_cons, dropWhile_cons, rejected]
    exact ⟨rfl, rfl⟩

end Stops

def Reads (p : Scanner σ ω ε α) (text : List σ) (value : α) (rest : List σ) : Prop :=
  ∀ total, (p total text).Reaches (value, rest)

/-- The parser never reads the value. -/
def Misreads (p : Scanner σ ω ε α) (text : List σ) (value : α) : Prop :=
  ∀ total rest, (p total text).Avoids (value, rest)

/-- The recursion bound suffices, and what is read satisfies the condition. -/
def Completes (p : Scanner σ ω ε α) (text : List σ) (condition : α → List σ → Prop) : Prop :=
  ∀ total, (p total text).out ≠ .exhausted ∧
    ∀ value rest, (p total text).out = .ok (value, rest) → condition value rest

theorem Reads.pure (value : α) (text : List σ) : Reads (ω := ω) (ε := ε) (Pure.pure value) text value text :=
  fun _ => Run.Reaches.pure (value, text)

theorem Reads.exhausted (text : List σ) (value : α) (rest : List σ) :
    Reads (ω := ω) (ε := ε) Scanner.exhausted text value rest :=
  fun _ => Run.Reaches.exhausted (value, rest)

variable {first : Scanner σ ω ε α} {result : β} {text : List σ} {value : α} {next : List σ → Scanner σ ω ε β}
  {condition : β → List σ → Prop}

theorem Reads.bind {next : α → Scanner σ ω ε β} {middle rest : List σ}
    (head : Reads first text value middle) (tail : Reads (next value) middle result rest) :
    Reads (first >>= next) text result rest :=
  fun total => Run.Reaches.bind (head total) (tail total)

theorem Reads.run (test : σ → Bool) (run : List σ) {rest : List σ} (accepted : ∀ c ∈ run, test c = true)
    (stops : Stops test rest) :
    Reads (ω := ω) (ε := ε) (Scanner.takeWhile test) (run ++ rest) run rest := by
  have nothing := stops.span
  have reads : Reads (ω := ω) (ε := ε) (Scanner.takeWhile test) (run ++ rest) ((run ++ rest).takeWhile test)
      ((run ++ rest).dropWhile test) := fun _ => Run.Reaches.pure _
  rwa [takeWhile_append_of_pos accepted, dropWhile_append_of_pos accepted, nothing.1, nothing.2,
    append_nil] at reads

theorem Reads.peek {next : Option σ → Scanner σ ω ε β} {rest : List σ}
    (tail : Reads (next text.head?) text result rest) : Reads (Scanner.peek >>= next) text result rest := tail

theorem Reads.rest {rest : List σ}
    (tail : Reads (next text) text result rest) : Reads (Scanner.rest >>= next) text result rest := tail

theorem Reads.advance {next : Unit → Scanner σ ω ε β} {rest : List σ}
    (tail : Reads (next ()) text.tail result rest) : Reads (Scanner.advance >>= next) text result rest := tail

theorem Completes.pure {condition : α → List σ → Prop} (holds : condition value text) :
    Completes (ω := ω) (ε := ε) (Pure.pure value) text condition := by
  intro total
  constructor
  · intro stuck
    cases stuck
  · intro read rest same
    cases same
    exact holds

theorem Completes.pure_at (text : List σ) {condition : α → List σ → Prop} (holds : condition value text)
    (total : Nat) : ((Pure.pure value : Scanner σ ω ε α) total text).out ≠ .exhausted ∧
      ∀ read rest, ((Pure.pure value : Scanner σ ω ε α) total text).out = .ok (read, rest) → condition read rest :=
  Completes.pure holds total

theorem Completes.fail (error : Nat → ε) (text : List σ) (condition : α → List σ → Prop) :
    Completes (ω := ω) (Scanner.fail error) text condition := by
  intro total
  constructor
  · intro stuck
    cases stuck
  · intro read rest same
    cases same

theorem Completes.fault (text : List σ) (condition : α → List σ → Prop) :
    Completes (ω := ω) (ε := ε) Scanner.fault text condition := by
  intro total
  constructor
  · intro stuck
    cases stuck
  · intro read rest same
    cases same

variable {middle strong : α → List σ → Prop} {test : σ → Bool} {p : Scanner σ ω ε α}

theorem Completes.bind {next : α → Scanner σ ω ε β}
    (head : Completes first text middle)
    (tail : ∀ value rest, middle value rest → Completes (next value) rest condition) :
    Completes (first >>= next) text condition := by
  intro total
  constructor
  · intro stuck
    rcases Run.bind_stuck stuck with early | ⟨⟨value, rest⟩, done, late⟩
    · exact (head total).1 early
    · exact (tail value rest ((head total).2 value rest done) total).1 late
  · intro result rest read
    obtain ⟨⟨value, between⟩, done, finish⟩ := Run.bind_ok.mp read
    exact (tail value between ((head total).2 value between done) total).2 result rest finish

theorem Completes.peek {next : Option σ → Scanner σ ω ε β}
    (tail : Completes (next text.head?) text condition) : Completes (Scanner.peek >>= next) text condition := tail

theorem Completes.rest
    (tail : Completes (next text) text condition) : Completes (Scanner.rest >>= next) text condition := tail

theorem Completes.advance {next : Unit → Scanner σ ω ε β}
    (tail : Completes (next ()) text.tail condition) : Completes (Scanner.advance >>= next) text condition := tail

theorem Completes.takeWhile
    (tail : Completes (next (text.takeWhile test)) (text.dropWhile test) condition) :
    Completes (Scanner.takeWhile test >>= next) text condition := tail

theorem Completes.observe {observation : ω} {next : Unit → Scanner σ ω ε β}
    (tail : Completes (next ()) text condition) :
    Completes (Scanner.observe observation >>= next) text condition := tail

theorem Completes.mono {weak : α → List σ → Prop}
    (completes : Completes p text strong) (weaken : ∀ value rest, strong value rest → weak value rest) :
    Completes p text weak :=
  fun total => ⟨(completes total).1, fun value rest done => weaken value rest ((completes total).2 value rest done)⟩

end Scanner

import Audec.PatternLang.Placement
import Audec.PatternLang.Realize

/-! A term plays only on lanes that it references, whatever the cycle. -/

open List

namespace Audec.PatternLang

open Machine Checked FloatDebug
open Std (ExtTreeSet)

def PlaysOn (names : ExtTreeSet Text) (events : List AbstractEvent) : Prop := ∀ event ∈ events, event.lane ∈ names

def Requests (names : ExtTreeSet Text) (evaluator : Evaluator) : Prop :=
  ∀ start width repeats probability velocity events,
    evaluator start width repeats probability velocity = .ok events → PlaysOn names events

variable {names : ExtTreeSet Text}

theorem Requests.mono {more : ExtTreeSet Text} {evaluator : Evaluator} (requests : Requests names evaluator)
    (wider : ∀ name ∈ names, name ∈ more) : Requests more evaluator :=
  fun start width repeats probability velocity events done event member =>
    wider event.lane (requests start width repeats probability velocity events done event member)

theorem PlaysOn.flatten {parts : List (List AbstractEvent)} (all : ∀ part ∈ parts, PlaysOn names part) :
    PlaysOn names parts.flatten := by
  intro event member
  obtain ⟨part, listed, inside⟩ := mem_flatten.mp member
  exact all part listed event inside

variable {events result : List AbstractEvent} {steps : List (StepOf Evaluator)} {cycleIndex : U64}

section

variable (playsOn : PlaysOn names events)
include playsOn

theorem PlaysOn.map {change : AbstractEvent → AbstractEvent}
    (keeps : ∀ event, (change event).lane = event.lane) : PlaysOn names (events.map change) := by
  intro event member
  obtain ⟨source, inside, rfl⟩ := mem_map.mp member
  rw [keeps]
  exact playsOn source inside

theorem PlaysOn.elim
    {change : Float32 → AbstractEvent → AbstractEvent} (keeps : ∀ value event, (change value event).lane = event.lane)
    {factor : Option Float32} : PlaysOn names (factor.elim events fun value => events.map (change value)) := by
  cases factor with
  | none => exact playsOn
  | some value => exact playsOn.map (keeps value)

theorem PlaysOn.mapM
    {change : AbstractEvent → Eval AbstractEvent}
    (keeps : ∀ event moved, change event = .ok moved → moved.lane = event.lane) (done : events.mapM change = .ok result) :
    PlaysOn names result := by
  intro event member
  obtain ⟨source, inside, moved⟩ := mem_mapM done member
  rw [keeps source event moved]
  exact playsOn source inside

end

variable {copies : Nat} {cursor start width : Rational} {β : Type} {factor : U32}
  {inner : U64 → Eval (List AbstractEvent)}

theorem visitCopies_mem {total weight fraction : Rational} {visit : Rational → Rational → Eval β}
    {last : Rational} {items : List β}
    (done : visitCopies total start width visit weight fraction copies cursor = .ok (items, last)) :
    ∀ item ∈ items, ∃ slotStart slotWidth, visit slotStart slotWidth = .ok item := by
  induction copies generalizing cursor items with
  | zero =>
    cases done
    simp
  | succ copies tail =>
    simp only [visitCopies, bind_ok] at done
    obtain ⟨_, -, _, -, slotStart, -, slotWidth, -, item, visited, _, -, ⟨later, _⟩, rest, done⟩ := done
    cases done
    exact forall_mem_cons.mpr ⟨⟨slotStart, slotWidth, visited⟩, tail rest⟩

theorem visitSteps_mem {α : Type} {total : Rational} {visit : StepOf α → Rational → Rational → Eval β}
    {steps : List (StepOf α)} {items : List β}
    (done : visitSteps total start width visit cursor steps = .ok items) :
    ∀ item ∈ items, ∃ step ∈ steps, ∃ slotStart slotWidth, visit step slotStart slotWidth = .ok item := by
  induction steps generalizing cursor items with
  | nil =>
    cases done
    simp
  | cons step rest tail =>
    simp only [visitSteps, bind_ok] at done
    obtain ⟨_, -, _, -, ⟨first, next⟩, copied, later, remaining, done⟩ := done
    cases done
    refine forall_mem_append.mpr ⟨fun item member => ?_, fun item member => ?_⟩
    · exact ⟨step, mem_cons_self, visitCopies_mem copied item member⟩
    · obtain ⟨other, inside, visited⟩ := tail remaining item member
      exact ⟨other, mem_cons_of_mem _ inside, visited⟩

theorem evalSeq_playsOn (requests : ∀ step ∈ steps, Requests names step.element)
    (done : evalSeq steps start width = .ok events) :
    PlaysOn names events := by
  simp only [evalSeq, visitSlots, bind_ok] at done
  obtain ⟨parts, ⟨_, -, total, -, visited⟩, done⟩ := done
  cases done
  refine PlaysOn.flatten fun part listed => ?_
  obtain ⟨step, inside, slotStart, slotWidth, played⟩ := visitSteps_mem visited part listed
  exact requests step inside _ _ _ _ _ _ played

theorem evalCopies_playsOn {slotStart slotWidth : Rational}
    {visit : Rational → Rational → Eval (List AbstractEvent)}
    (visits : ∀ start width events, visit start width = .ok events → PlaysOn names events)
    (done : evalCopies slotStart slotWidth copies visit = .ok events) : PlaysOn names events := by
  simp only [evalCopies, bind_ok] at done
  obtain ⟨_, -, copyWidth, -, parts, mapped, done⟩ := done
  cases done
  refine PlaysOn.flatten fun part listed => ?_
  obtain ⟨copy, -, played⟩ := mem_mapM mapped listed
  simp only [bind_ok] at played
  obtain ⟨_, -, copyStart, -, played⟩ := played
  exact visits copyStart copyWidth part played

theorem evalName_requests {binding : Text} {variant : Option U32} (known : laneKey binding variant ∈ names) :
    Requests names (evalName binding variant) := by
  intro start width repeats probability velocity events done event member
  simp only [evalName, bind_ok] at done
  obtain ⟨_, -, _, -, done⟩ := done
  cases done
  rw [mem_singleton] at member
  rw [member]
  exact known

theorem evalGroup_requests (requests : ∀ step ∈ steps, Requests names step.element) :
    Requests names (evalGroup steps) := by
  intro start width repeats probability velocity events done
  simp only [evalGroup, bind_ok] at done
  obtain ⟨_, -, inner, copied, done⟩ := done
  cases done
  have played := evalCopies_playsOn (fun _ _ _ done => evalSeq_playsOn requests done) copied
  have thinned : PlaysOn names (probability.elim inner fun value => inner.map (AbstractEvent.thin value)) :=
    played.elim (by intro _ _; rfl)
  exact thinned.elim (by intro _ _; rfl)

theorem evalAlternate_requests
    (requests : ∀ step ∈ steps, Requests names step.element) : Requests names (evalAlternate cycleIndex steps) := by
  intro start width repeats probability velocity events done
  simp only [evalAlternate, bind_ok] at done
  obtain ⟨_, -, done⟩ := done
  split at done
  · cases done
  · rename_i chosen found
    exact evalCopies_playsOn
      (fun _ _ _ played => requests chosen (mem_of_getElem? found) _ _ _ _ _ _ played) done

section Collected

variable {name : Text}

mutual

theorem mem_collectElementBindings : ∀ (element : Element) {bindings : ExtTreeSet Text}, name ∈ bindings →
    name ∈ collectElementBindings bindings element
  | .rest, bindings, member => by rwa [collectElementBindings]
  | .name binding variant, bindings, member => by
    rw [collectElementBindings, ExtTreeSet.mem_insert]
    exact .inr member
  | .group steps, bindings, member => by
    rw [collectElementBindings]
    exact mem_collectStepsBindings steps member
  | .alternate steps, bindings, member => by
    rw [collectElementBindings]
    exact mem_collectStepsBindings steps member

theorem mem_collectStepsBindings : ∀ (steps : List (StepOf Element)) {bindings : ExtTreeSet Text}, name ∈ bindings →
    name ∈ collectStepsBindings bindings steps
  | [], bindings, member => by rwa [collectStepsBindings]
  | step :: rest, bindings, member => by
    rw [collectStepsBindings]
    exact mem_collectStepsBindings rest (mem_collectStepBindings step member)

theorem mem_collectStepBindings : ∀ (step : StepOf Element) {bindings : ExtTreeSet Text}, name ∈ bindings →
    name ∈ collectStepBindings bindings step
  | ⟨element, _, _, _, _, _⟩, bindings, member => by
    rw [collectStepBindings]
    exact mem_collectElementBindings element member

end

mutual

theorem mem_collectExprBindings : ∀ (expr : PatternExpr) {bindings : ExtTreeSet Text}, name ∈ bindings →
    name ∈ collectExprBindings bindings expr
  | .seq steps, bindings, member => by
    rw [collectExprBindings]
    exact mem_collectStepsBindings steps member
  | .stack members, bindings, member => by
    rw [collectExprBindings]
    exact mem_collectMembersBindings members member
  | .euclid _ _ _ element, bindings, member => by
    rw [collectExprBindings]
    exact mem_collectElementBindings element member
  | .every _ _ _ inner, bindings, member => by
    rw [collectExprBindings]
    exact mem_collectExprBindings inner member
  | .rotate _ inner, bindings, member => by
    rw [collectExprBindings]
    exact mem_collectExprBindings inner member
  | .fast _ inner, bindings, member => by
    rw [collectExprBindings]
    exact mem_collectExprBindings inner member
  | .slow _ inner, bindings, member => by
    rw [collectExprBindings]
    exact mem_collectExprBindings inner member
  | .swing _ inner, bindings, member => by
    rw [collectExprBindings]
    exact mem_collectExprBindings inner member
  | .gain _ inner, bindings, member => by
    rw [collectExprBindings]
    exact mem_collectExprBindings inner member
  | .degrade _ inner, bindings, member => by
    rw [collectExprBindings]
    exact mem_collectExprBindings inner member

theorem mem_collectMembersBindings : ∀ (members : List PatternExpr) {bindings : ExtTreeSet Text}, name ∈ bindings →
    name ∈ collectMembersBindings bindings members
  | [], bindings, member => by rwa [collectMembersBindings]
  | first :: rest, bindings, member => by
    rw [collectMembersBindings]
    exact mem_collectMembersBindings rest (mem_collectExprBindings first member)

end

end Collected

section Elements

variable (cycleIndex : U64)

mutual

theorem evalElement_requests : ∀ (element : Element) (bindings : ExtTreeSet Text),
    Requests (collectElementBindings bindings element) (evalElement cycleIndex element)
  | .rest, bindings => by
    intro start width repeats probability velocity events done
    simp only [evalElement, bind_ok] at done
    obtain ⟨_, -, done⟩ := done
    cases done
    simp [PlaysOn]
  | .name binding variant, bindings => by
    rw [evalElement, collectElementBindings]
    exact evalName_requests (ExtTreeSet.mem_insert_self)
  | .group steps, bindings => by
    rw [evalElement, collectElementBindings]
    exact evalGroup_requests (evaluators_requests steps bindings)
  | .alternate steps, bindings => by
    rw [evalElement, collectElementBindings]
    exact evalAlternate_requests (evaluators_requests steps bindings)

theorem evaluators_requests : ∀ (steps : List (StepOf Element)) (bindings : ExtTreeSet Text),
    ∀ step ∈ evaluators cycleIndex steps, Requests (collectStepsBindings bindings steps) step.element
  | [], bindings => by simp [evaluators]
  | step :: rest, bindings => by
    rw [evaluators, collectStepsBindings]
    refine forall_mem_cons.mpr ⟨?_, evaluators_requests rest _⟩
    exact (evaluatorOf_requests step bindings).mono fun name known => mem_collectStepsBindings rest known

theorem evaluatorOf_requests : ∀ (step : StepOf Element) (bindings : ExtTreeSet Text),
    Requests (collectStepBindings bindings step) (evaluatorOf cycleIndex step).element
  | ⟨element, _, _, _, _, _⟩, bindings => by
    rw [evaluatorOf, collectStepBindings]
    exact evalElement_requests element bindings

end

end Elements

theorem takePayload_playsOn {payloads : List Payload} (known : ∀ payload ∈ payloads, payload.lane ∈ names) {shift : Nat}
    (playsOn : PlaysOn names events) (entry : Nat × Nat) :
    PlaysOn names (takePayload payloads shift events entry) := by
  unfold takePayload
  split
  · rename_i payload found
    intro event member
    obtain ⟨index, held⟩ := mem_iff_getElem?.mp member
    rw [getElem?_modify] at held
    obtain ⟨source, listed, changed⟩ := Option.map_eq_some_iff.mp held
    split at changed
    · rw [← changed]
      exact known payload (mem_of_getElem? found)
    · rw [← changed]
      exact playsOn source (mem_of_getElem? listed)
  · exact playsOn

theorem rotatePayloads_playsOn {steps : I32} (playsOn : PlaysOn names events)
    (done : rotatePayloads steps events = .ok result) : PlaysOn names result := by
  unfold rotatePayloads at done
  split at done
  · cases done
    exact playsOn
  · rw [bind_ok] at done
    obtain ⟨shift, -, done⟩ := done
    split at done
    · cases done
      exact playsOn
    · cases done
      have known : ∀ payload ∈ (rotationOrder events).filterMap fun index => events[index]?.map AbstractEvent.payload,
          payload.lane ∈ names := by
        intro payload member
        obtain ⟨index, -, found⟩ := mem_filterMap.mp member
        obtain ⟨event, listed, rfl⟩ := Option.map_eq_some_iff.mp found
        exact playsOn event (mem_of_getElem? listed)
      exact List.foldlRecOn _ _ playsOn fun events playsOn entry _ => takePayload_playsOn known playsOn entry

theorem applyTransform_playsOn {transform : PatternTransform}
    (playsOn : PlaysOn names events) (done : applyTransform events transform = .ok result) : PlaysOn names result := by
  cases transform with
  | rotate steps => exact rotatePayloads_playsOn playsOn done
  | gain linear =>
    rw [applyTransform, bind_ok] at done
    obtain ⟨_, -, done⟩ := done
    cases done
    exact playsOn.map fun _ => rfl
  | degrade probability =>
    rw [applyTransform, bind_ok] at done
    obtain ⟨_, -, done⟩ := done
    cases done
    exact playsOn.map fun _ => rfl

theorem evalEuclid_playsOn {hits slots : U32} {rotation : I32} {element : Evaluator} (requests : Requests names element)
    (done : evalEuclid hits slots rotation element = .ok events) :
    PlaysOn names events := by
  simp only [evalEuclid, bind_ok] at done
  obtain ⟨_, -, slotWidth, -, parts, mapped, done⟩ := done
  cases done
  refine PlaysOn.flatten fun part listed => ?_
  obtain ⟨slot, -, played⟩ := mem_mapM mapped listed
  simp only [bind_ok] at played
  obtain ⟨start, -, played⟩ := played
  exact requests _ _ _ _ _ _ played

section

variable (all : ∀ cycleIndex events, inner cycleIndex = .ok events → PlaysOn names events)
include all

theorem evalFast_playsOn
    (done : evalFast cycleIndex factor inner = .ok events) : PlaysOn names events := by
  simp only [evalFast, bind_ok] at done
  obtain ⟨_, -, copyWidth, -, parts, mapped, done⟩ := done
  cases done
  refine PlaysOn.flatten fun part listed => ?_
  obtain ⟨copy, -, played⟩ := mem_mapM mapped listed
  simp only [bind_ok] at played
  obtain ⟨innerEvents, evaluated, start, -, moved⟩ := played
  refine (all _ innerEvents evaluated).mapM (fun event after moved => ?_) moved
  simp only [bind_ok] at moved
  obtain ⟨_, -, _, -, _, -, moved⟩ := moved
  cases moved
  rfl

theorem evalSlow_playsOn
    (done : evalSlow cycleIndex factor inner = .ok events) : PlaysOn names events := by
  simp only [evalSlow, bind_ok] at done
  obtain ⟨_, -, innerEvents, evaluated, windowStart, -, windowEnd, -, moved⟩ := done
  have chosen : PlaysOn names (innerEvents.filter (startsWithin windowStart windowEnd)) :=
    fun event member => all _ innerEvents evaluated event (mem_of_mem_filter member)
  refine chosen.mapM (fun event after moved => ?_) moved
  simp only [bind_ok] at moved
  obtain ⟨_, -, _, -, moved⟩ := moved
  cases moved
  rfl

end

mutual

theorem evalNorm_playsOn : ∀ (expr : PatternExpr) (bindings : ExtTreeSet Text) (cycleIndex : U64)
    (events : List AbstractEvent), evalNorm expr cycleIndex = .ok events →
      PlaysOn (collectExprBindings bindings expr) events
  | .swing _ _, _, _, events, done => by
    rw [evalNorm] at done
    cases done
  | .seq steps, bindings, cycleIndex, events, done => by
    rw [evalNorm] at done
    rw [collectExprBindings]
    exact evalSeq_playsOn (evaluators_requests cycleIndex steps bindings) done
  | .euclid hits slots rotation element, bindings, cycleIndex, events, done => by
    rw [evalNorm] at done
    rw [collectExprBindings]
    exact evalEuclid_playsOn (evalElement_requests cycleIndex element bindings) done
  | .stack members, bindings, cycleIndex, events, done => by
    rw [evalNorm, bind_ok] at done
    obtain ⟨_, -, done⟩ := done
    rw [collectExprBindings]
    exact evalMembers_playsOn members bindings cycleIndex events done
  | .every period offset transform inner, bindings, cycleIndex, events, done => by
    simp only [evalNorm, bind_ok] at done
    obtain ⟨_, -, innerEvents, evaluated, done⟩ := done
    rw [collectExprBindings]
    have playsOn := evalNorm_playsOn inner bindings cycleIndex innerEvents evaluated
    split at done
    · exact applyTransform_playsOn playsOn done
    · cases done
      exact playsOn
  | .rotate steps inner, bindings, cycleIndex, events, done => by
    simp only [evalNorm, bind_ok] at done
    obtain ⟨innerEvents, evaluated, done⟩ := done
    rw [collectExprBindings]
    exact rotatePayloads_playsOn (evalNorm_playsOn inner bindings cycleIndex innerEvents evaluated) done
  | .fast factor inner, bindings, cycleIndex, events, done => by
    rw [evalNorm] at done
    rw [collectExprBindings]
    exact evalFast_playsOn (evalNorm_playsOn inner bindings) done
  | .slow factor inner, bindings, cycleIndex, events, done => by
    rw [evalNorm] at done
    rw [collectExprBindings]
    exact evalSlow_playsOn (evalNorm_playsOn inner bindings) done
  | .gain linear inner, bindings, cycleIndex, events, done => by
    simp only [evalNorm, bind_ok] at done
    obtain ⟨_, -, innerEvents, evaluated, done⟩ := done
    cases done
    rw [collectExprBindings]
    exact (evalNorm_playsOn inner bindings cycleIndex innerEvents evaluated).map fun _ => rfl
  | .degrade probability inner, bindings, cycleIndex, events, done => by
    simp only [evalNorm, bind_ok] at done
    obtain ⟨_, -, innerEvents, evaluated, done⟩ := done
    cases done
    rw [collectExprBindings]
    exact (evalNorm_playsOn inner bindings cycleIndex innerEvents evaluated).map fun _ => rfl

theorem evalMembers_playsOn : ∀ (members : List PatternExpr) (bindings : ExtTreeSet Text) (cycleIndex : U64)
    (events : List AbstractEvent), evalMembers members cycleIndex = .ok events →
      PlaysOn (collectMembersBindings bindings members) events
  | [], _, _, events, done => by
    rw [evalMembers] at done
    cases done
    simp [PlaysOn]
  | member :: rest, bindings, cycleIndex, events, done => by
    simp only [evalMembers, bind_ok] at done
    obtain ⟨first, evaluated, later, remaining, done⟩ := done
    cases done
    rw [collectMembersBindings]
    refine forall_mem_append.mpr ⟨fun event inside => ?_, evalMembers_playsOn rest _ cycleIndex later remaining⟩
    exact mem_collectMembersBindings rest (evalNorm_playsOn member bindings cycleIndex first evaluated event inside)

end

end Audec.PatternLang

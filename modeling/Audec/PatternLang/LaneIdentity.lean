import Audec.PatternLang.Requests
import Audec.PatternLang.Realized

/-! The lanes of a realized pattern do not depend on the cycle. -/

open List Entries

namespace Audec.PatternLang

open Machine Checked FloatDebug
open Std (ExtTreeMap ExtTreeSet)

def NeverUnbound {α : Type} (evaluated : Eval α) : Prop := ∀ name, evaluated ≠ fails (.unboundName name)

namespace NeverUnbound

variable {α β : Type}

@[simp] theorem ok (result : α) : NeverUnbound (.ok result) := by
  intro name stopped
  cases stopped

@[simp] theorem pure (result : α) : NeverUnbound (Pure.pure result) := ok result

@[simp] theorem bind {first : Eval α} {next : α → Eval β} :
    NeverUnbound (first >>= next) ↔ NeverUnbound first ∧ ∀ value, first = .ok value → NeverUnbound (next value) := by
  cases first with
  | ok value => simp [Bind.bind, Except.bind]
  | error stop => simp [NeverUnbound, Bind.bind, Except.bind, fails]

@[simp] theorem map {change : α → β} {evaluated : Eval α} :
    NeverUnbound (change <$> evaluated) ↔ NeverUnbound evaluated := by
  cases evaluated with
  | ok value => simp [Functor.map, Except.map]
  | error stop => simp [NeverUnbound, Functor.map, Except.map, fails]

variable {error : PatternEvalError} {items : List α} {cycleIndex : U64} {factor : U32}
  {inner : U64 → Eval (List AbstractEvent)}

@[simp] theorem fails_iff :
    NeverUnbound (fails error : Eval α) ↔ ∀ name, error ≠ .unboundName name := by
  simp [NeverUnbound, fails]

@[simp] theorem check_iff {condition : Prop} [Decidable condition] :
    NeverUnbound (check condition error) ↔ condition ∨ ∀ name, error ≠ .unboundName name := by
  unfold check ensure
  split
  · simp_all
  · rename_i broken
    simp [NeverUnbound, fails, broken]

theorem mapM {step : α → Eval β} (all : ∀ item ∈ items, NeverUnbound (step item)) :
    NeverUnbound (items.mapM step) := by
  induction items with
  | nil => exact ok []
  | cons item items tail =>
    obtain ⟨here, later⟩ := forall_mem_cons.mp all
    rw [mapM_cons]
    simp [here, tail later]

theorem foldlM {step : β → α → Eval β} (all : ∀ state, ∀ item ∈ items, NeverUnbound (step state item))
    (first : β) : NeverUnbound (items.foldlM step first) := by
  induction items generalizing first with
  | nil => exact ok first
  | cons item items tail =>
    rw [foldlM_cons, bind]
    exact ⟨all first item mem_cons_self,
      fun middle _ => tail (fun state other inside => all state other (mem_cons_of_mem _ inside)) middle⟩

@[simp] theorem rational_new (numerator denominator : U64) : NeverUnbound (Rational.new numerator denominator) := by
  unfold Rational.new
  split <;> simp

@[simp] theorem rational_checked (numerator denominator : Nat) :
    NeverUnbound (Rational.checked numerator denominator) := by
  unfold Rational.checked
  dsimp only
  split
  · simp
  · split <;> simp

@[simp] theorem rational_add (a b : Rational) : NeverUnbound (a.add b) := rational_checked _ _

@[simp] theorem rational_mul (a b : Rational) : NeverUnbound (a.mul b) := rational_checked _ _

@[simp] theorem rational_div (a b : Rational) : NeverUnbound (a.div b) := by
  unfold Rational.div
  split <;> simp

@[simp] theorem rational_scaleInt (a : Rational) (factor : Nat) : NeverUnbound (a.scaleInt factor) := rational_checked _ _

section Sequence

variable {total start width : Rational}

theorem totalWeight (sum : Rational) (steps : List (StepOf α)) : NeverUnbound (totalWeight sum steps) := by
  induction steps generalizing sum with
  | nil => exact ok sum
  | cons step rest tail => simp [PatternLang.totalWeight, tail]

theorem visitCopies {visit : Rational → Rational → Eval β} (visits : ∀ start width, NeverUnbound (visit start width))
    {weight fraction : Rational} (copies : Nat) (cursor : Rational) :
    NeverUnbound (visitCopies total start width visit weight fraction copies cursor) := by
  induction copies generalizing cursor with
  | zero => exact ok _
  | succ copies tail => simp [PatternLang.visitCopies, visits, tail]

theorem visitSteps {visit : StepOf α → Rational → Rational → Eval β} {steps : List (StepOf α)}
    (visits : ∀ step ∈ steps, ∀ start width, NeverUnbound (visit step start width)) (cursor : Rational) :
    NeverUnbound (visitSteps total start width visit cursor steps) := by
  induction steps generalizing cursor with
  | nil => exact ok _
  | cons step rest tail =>
    obtain ⟨here, later⟩ := forall_mem_cons.mp visits
    simp [PatternLang.visitSteps, visitCopies here, tail later]

end Sequence

/-- An evaluator that does not ask whether a name is bound. -/
def Evaluates (evaluator : Evaluator) : Prop :=
  ∀ start width repeats probability velocity, NeverUnbound (evaluator start width repeats probability velocity)

theorem evalSeq {steps : List (StepOf Evaluator)} (all : ∀ step ∈ steps, Evaluates step.element) (start width : Rational) :
    NeverUnbound (evalSeq steps start width) := by
  have visited : ∀ total, NeverUnbound (PatternLang.visitSteps total start width evalSlot .zero steps) :=
    fun total => visitSteps (fun step inside start width => all step inside start width _ _ _) .zero
  simp [PatternLang.evalSeq, visitSlots, totalWeight, visited]

theorem evalCopies {slotStart slotWidth : Rational} {copies : Nat}
    {visit : Rational → Rational → Eval (List AbstractEvent)} (visits : ∀ start width, NeverUnbound (visit start width)) :
    NeverUnbound (evalCopies slotStart slotWidth copies visit) := by
  simp [PatternLang.evalCopies, mapM, visits]

@[simp] theorem checkStep (probability velocity : Option Float32) : NeverUnbound (checkStep probability velocity) := by
  simp [PatternLang.checkStep]

section Elements

variable (cycleIndex : U64)

variable {steps : List (StepOf Evaluator)}

theorem evalGroup (all : ∀ step ∈ steps, Evaluates step.element) :
    Evaluates (evalGroup steps) := by
  intro start width repeats probability velocity
  simp [PatternLang.evalGroup, evalCopies (evalSeq all)]

theorem evalAlternate (all : ∀ step ∈ steps, Evaluates step.element) :
    Evaluates (evalAlternate cycleIndex steps) := by
  intro start width repeats probability velocity
  simp only [PatternLang.evalAlternate, bind, checkStep, true_and]
  intro _ _
  split
  · simp
  · rename_i chosen found
    exact evalCopies fun start width => all chosen (mem_of_getElem? found) start width _ _ _

mutual

theorem evalElement : ∀ element : Element, Evaluates (evalElement cycleIndex element)
  | .rest => by
    intro start width repeats probability velocity
    simp [PatternLang.evalElement]
  | .name binding variant => by
    intro start width repeats probability velocity
    simp [PatternLang.evalElement, evalName]
  | .group steps => by
    rw [PatternLang.evalElement]
    exact evalGroup (evaluators steps)
  | .alternate steps => by
    rw [PatternLang.evalElement]
    exact evalAlternate cycleIndex (evaluators steps)

theorem evaluators : ∀ steps : List (StepOf Element), ∀ step ∈ evaluators cycleIndex steps, Evaluates step.element
  | [] => by simp [PatternLang.evaluators]
  | step :: rest => by
    rw [PatternLang.evaluators]
    exact forall_mem_cons.mpr ⟨evaluatorOf step, evaluators rest⟩

theorem evaluatorOf : ∀ step : StepOf Element, Evaluates (evaluatorOf cycleIndex step).element
  | ⟨element, _, _, _, _, _⟩ => by
    rw [PatternLang.evaluatorOf]
    exact evalElement element

end

end Elements

@[simp] theorem rotatePayloads (steps : I32) (events : List AbstractEvent) : NeverUnbound (rotatePayloads steps events) := by
  have divided : ∀ count, NeverUnbound (remEuclid steps count) := by
    intro count name stopped
    unfold remEuclid at stopped
    dsimp only at stopped
    split at stopped <;> cases stopped
  unfold PatternLang.rotatePayloads
  split
  · simp
  · rw [bind]
    refine ⟨divided _, fun shift _ => ?_⟩
    split <;> simp

@[simp] theorem applyTransform (events : List AbstractEvent) (transform : PatternTransform) :
    NeverUnbound (applyTransform events transform) := by
  cases transform <;> simp [PatternLang.applyTransform]

@[simp] theorem confine (position width : Rational) : NeverUnbound (confine position width) := by
  simp only [PatternLang.confine, bind, rational_add, true_and]
  intro stop _
  split <;> simp

theorem evalEuclid {hits slots : U32} {rotation : I32} {element : Evaluator} (evaluates : Evaluates element) :
    NeverUnbound (evalEuclid hits slots rotation element) := by
  have visits : ∀ start width, NeverUnbound (element start width 1 none none) := fun start width => evaluates _ _ _ _ _
  simp [PatternLang.evalEuclid, mapM, visits]

theorem evalFast
    (all : ∀ cycleIndex, NeverUnbound (inner cycleIndex)) : NeverUnbound (evalFast cycleIndex factor inner) := by
  simp [PatternLang.evalFast, mapM, all]

theorem evalSlow
    (all : ∀ cycleIndex, NeverUnbound (inner cycleIndex)) : NeverUnbound (evalSlow cycleIndex factor inner) := by
  simp [PatternLang.evalSlow, mapM, all, magnify]

mutual

theorem evalNorm : ∀ (expr : PatternExpr) (cycleIndex : U64), NeverUnbound (evalNorm expr cycleIndex)
  | .swing _ _, cycleIndex => by simp [PatternLang.evalNorm]
  | .seq steps, cycleIndex => by
    rw [PatternLang.evalNorm]
    exact evalSeq (evaluators cycleIndex steps) .zero .one
  | .euclid hits slots rotation element, cycleIndex => by
    rw [PatternLang.evalNorm]
    exact evalEuclid (evalElement cycleIndex element)
  | .stack members, cycleIndex => by simp [PatternLang.evalNorm, evalMembers members cycleIndex]
  | .every period offset transform inner, cycleIndex => by
    simp only [PatternLang.evalNorm, bind, evalNorm inner cycleIndex]
    refine ⟨by simp, fun _ _ => ⟨trivial, fun events _ => ?_⟩⟩
    split <;> simp
  | .rotate steps inner, cycleIndex => by simp [PatternLang.evalNorm, evalNorm inner cycleIndex]
  | .fast factor inner, cycleIndex => by
    rw [PatternLang.evalNorm]
    exact evalFast (evalNorm inner)
  | .slow factor inner, cycleIndex => by
    rw [PatternLang.evalNorm]
    exact evalSlow (evalNorm inner)
  | .gain linear inner, cycleIndex => by simp [PatternLang.evalNorm, evalNorm inner cycleIndex]
  | .degrade probability inner, cycleIndex => by simp [PatternLang.evalNorm, evalNorm inner cycleIndex]

theorem evalMembers : ∀ (members : List PatternExpr) (cycleIndex : U64), NeverUnbound (evalMembers members cycleIndex)
  | [], _ => by simp [PatternLang.evalMembers]
  | member :: rest, cycleIndex => by
    simp [PatternLang.evalMembers, evalNorm member cycleIndex, evalMembers rest cycleIndex]

end

@[simp] theorem splitSwing (expr : PatternExpr) : NeverUnbound (splitSwing expr) := by
  unfold PatternLang.splitSwing
  split <;> simp

@[simp] theorem roundTicks (fraction : Rational) (cycleTicks : U64) : NeverUnbound (roundTicks fraction cycleTicks) := by
  unfold PatternLang.roundTicks
  dsimp only
  split
  · split
    · simp
    · split <;> simp
  · split
    · simp
    · split <;> simp

@[simp] theorem place (cycleTicks : U64) (event : AbstractEvent) : NeverUnbound (place cycleTicks event) := by
  simp [PatternLang.place]

@[simp] theorem lay (grid : Nat × Bool) (lanes : Lanes) (event : Placed) : NeverUnbound (lay grid lanes event) := by
  have fits : ∀ value, NeverUnbound (toI32 value) := by
    intro value
    unfold toI32
    split <;> simp
  simp [PatternLang.lay, fits]

end NeverUnbound

variable {name : Text} {played : Lanes} {bindings : ExtTreeMap Text TriggerTarget} {expr : PatternExpr}
  {swing : Float32}

theorem laid_lane {grid : Nat × Bool} {placed : List Placed}
    (done : placed.foldlM (lay grid) ∅ = .ok played) {steps : ExtTreeMap U32 StepEvent}
    (held : played[name]? = some steps) : ∃ event ∈ placed, event.lane = name := by
  refine foldlM_keeps (fun lanes => ∀ name steps, lanes[name]? = some steps → ∃ event ∈ placed, event.lane = name) ?_ ?_
    done name steps held
  · intro before event after member sound laid name steps held
    simp only [lay, bind_ok] at laid
    obtain ⟨micro, -, _, -, laid⟩ := laid
    cases laid
    rw [lookup_insert] at held
    by_cases same : event.lane = name
    · exact ⟨event, member, same⟩
    · rw [if_neg same] at held
      exact sound name steps held
  · intro name steps held
    rw [ExtTreeMap.getElem?_empty] at held
    cases held

theorem retained_lanes {names : List Text} {lanes : Lanes}
    (done : names.foldlM (retain bindings) played = .ok lanes) :
    (∀ name ∈ names, bindings[name]?.isSome) ∧
      ∀ name, lanes[name]?.isSome ↔ played[name]?.isSome ∨ name ∈ names := by
  induction names generalizing played with
  | nil =>
    cases done
    simp
  | cons first rest tail =>
    rw [foldlM_cons, bind_ok] at done
    obtain ⟨middle, kept, done⟩ := done
    obtain ⟨⟨target, bound⟩, rfl⟩ := retain_ok kept
    obtain ⟨others, same⟩ := tail done
    refine ⟨forall_mem_cons.mpr ⟨by rw [bound]; rfl, others⟩, fun name => ?_⟩
    rw [same, lookup_insert, mem_cons]
    by_cases here : first = name
    · simp [here]
    · simp [here, Ne.symm here]

theorem splitSwing_bindings {core : PatternExpr} (root : splitSwing expr = .ok (swing, core)) :
    referencedBindings core = referencedBindings expr := by
  unfold splitSwing at root
  split at root
  · rw [bind_ok] at root
    obtain ⟨_, -, root⟩ := root
    cases root
    rw [referencedBindings, referencedBindings, collectExprBindings]
  · cases root
    rfl

theorem events_referenced {core : PatternExpr} (root : splitSwing expr = .ok (swing, core))
    {cycleIndex : U64} {events : List AbstractEvent} (evaluated : evalNorm core cycleIndex = .ok events) :
    PlaysOn (referencedBindings expr) events := by
  rw [← splitSwing_bindings root]
  exact evalNorm_playsOn core ∅ cycleIndex events evaluated

section Realized

variable {core : PatternExpr} {context : EvalContext} {events : List AbstractEvent}
  {results : List (Placed × List PatternEvalDiagnostic)} {grid : Nat × Bool} {lanes : Lanes}

theorem lanes_referenced (root : splitSwing expr = .ok (swing, core))
    (evaluated : evalNorm core context.cycleIndex = .ok events) (placed : events.mapM (place context.cycle) = .ok results)
    (laid : (results.map Prod.fst).foldlM (lay grid) ∅ = .ok played)
    (retained : (referencedBindings expr).toList.foldlM (retain context.bindings) played = .ok lanes) (name : Text) :
    lanes[name]?.isSome ↔ name ∈ referencedBindings expr := by
  rw [(retained_lanes retained).2, ExtTreeSet.mem_toList]
  refine or_iff_right_of_imp fun present => ?_
  obtain ⟨steps, held⟩ := Option.isSome_iff_exists.mp present
  obtain ⟨event, member, rfl⟩ := laid_lane laid held
  obtain ⟨result, listed, rfl⟩ := mem_map.mp member
  obtain ⟨source, inside, made⟩ := mem_mapM placed listed
  rw [(place_ok made).1]
  exact events_referenced root evaluated source inside

theorem toLane_of_bound {steps : ExtTreeMap U32 StepEvent} {name : Text} (bound : context.bindings[name]?.isSome) :
    NeverUnbound (toLane context.bindings (name, steps)) := by
  obtain ⟨target, found⟩ := Option.isSome_iff_exists.mp bound
  have listed : name ∈ context.bindings.keys := by
    rw [ExtTreeMap.mem_keys, ExtTreeMap.mem_iff_isSome_getElem?]
    exact bound
  obtain ⟨ordinal, place⟩ := Option.isSome_iff_exists.mp (isSome_idxOf?.mpr listed)
  simp [toLane, found, place]

theorem evalSteps_neverUnbound (bound : ∀ name ∈ referencedBindings expr, context.bindings[name]?.isSome) :
    NeverUnbound (evalSteps expr context) := by
  rw [evalSteps, NeverUnbound.bind]
  refine ⟨by simp, fun _ _ => ?_⟩
  rw [NeverUnbound.bind]
  refine ⟨NeverUnbound.splitSwing expr, ?_⟩
  rintro ⟨swing, core⟩ root
  rw [NeverUnbound.bind]
  refine ⟨NeverUnbound.evalNorm core _, fun events evaluated => ?_⟩
  rw [NeverUnbound.bind]
  refine ⟨NeverUnbound.mapM fun event _ => NeverUnbound.place _ event, fun results placed => ?_⟩
  rw [NeverUnbound.bind]
  refine ⟨NeverUnbound.foldlM (fun lanes event _ => NeverUnbound.lay _ lanes event) ∅, fun played laid => ?_⟩
  rw [NeverUnbound.bind]
  constructor
  · refine NeverUnbound.foldlM (fun lanes name member => ?_) played
    have known := bound name (ExtTreeSet.mem_toList.mp member)
    simp [retain, known]
  · intro lanes retained
    rw [NeverUnbound.bind]
    refine ⟨NeverUnbound.mapM ?_, fun _ _ => NeverUnbound.pure _⟩
    rintro ⟨name, steps⟩ member
    have held : lanes[name]?.isSome := by
      rw [mem_toList.mp member]
      rfl
    exact toLane_of_bound (bound name ((lanes_referenced root evaluated placed laid retained name).mp held))

end Realized

def StepLane.identity (lane : StepLane) : U64 × Text × TriggerTarget × Option U32 :=
  (lane.id, lane.name, lane.target, lane.chokeGroup)

theorem Identifies.unique {id other : U64} {lane lane' : StepLane}
    (here : Identifies bindings name id lane) (there : Identifies bindings name other lane') :
    id = other ∧ lane.identity = lane'.identity := by
  have same : id = other := Fin.ext (here.id_eq.trans there.id_eq.symm)
  have target : lane.target = lane'.target := Option.some.inj (here.target.symm.trans there.target)
  refine ⟨same, ?_⟩
  rw [StepLane.identity, StepLane.identity, here.lane_id, there.lane_id, same, here.lane_name, there.lane_name, target,
    here.choke, there.choke]

structure LanesOf (names : ExtTreeSet Text) (bindings : ExtTreeMap Text TriggerTarget) (pattern : StepPattern) : Prop where
  bound : ∀ name ∈ names, bindings[name]?.isSome
  sound : ∀ (id : U64) lane, pattern.lanes[id]? = some lane →
    lane.name ∈ names ∧ Identifies bindings lane.name id lane
  complete : ∀ name ∈ names, ∃ (id : U64) (lane : StepLane), pattern.lanes[id]? = some lane ∧
    Identifies bindings name id lane

theorem evalSteps_lanes {context : EvalContext} {output : EvalOutput}
    (done : evalSteps expr context = .ok output) :
    LanesOf (referencedBindings expr) context.bindings output.pattern := by
  simp only [evalSteps, bind_ok] at done
  obtain ⟨_, -, ⟨swing, core⟩, root, events, evaluated, results, placed, played, laid, lanes, retained, patternLanes,
    made, done⟩ := done
  cases done
  have names := lanes_referenced root evaluated placed laid retained
  refine ⟨fun name member => (retained_lanes retained).1 name (ExtTreeSet.mem_toList.mpr member), ?_, ?_⟩
  · intro id lane listed
    obtain ⟨identity, held⟩ := (collect_lanes made).mp listed
    exact ⟨(names lane.name).mp (by rw [held]; rfl), identity⟩
  · intro name member
    obtain ⟨steps, held⟩ := Option.isSome_iff_exists.mp ((names name).mpr member)
    obtain ⟨⟨id, lane⟩, -, done⟩ := mapM_mem made (mem_toList.mpr held)
    obtain ⟨identity, same⟩ := toLane_ok done
    have named : lane.name = name := identity.lane_name
    have same : lane.steps = steps := same
    subst named same
    exact ⟨id, lane, (collect_lanes made).mpr ⟨identity, held⟩, identity⟩

theorem LanesOf.identity_eq {names : ExtTreeSet Text}
    {first second : StepPattern} (here : LanesOf names bindings first) (there : LanesOf names bindings second) (id : U64) :
    first.lanes[id]?.map StepLane.identity = second.lanes[id]?.map StepLane.identity := by
  have covered : ∀ {first second : StepPattern}, LanesOf names bindings first → LanesOf names bindings second →
      ∀ identity, first.lanes[id]?.map StepLane.identity = some identity →
        second.lanes[id]?.map StepLane.identity = some identity := by
    intro first second here there identity found
    obtain ⟨lane, listed, rfl⟩ := Option.map_eq_some_iff.mp found
    obtain ⟨known, identifies⟩ := here.sound id lane listed
    obtain ⟨other, lane', listed', identifies'⟩ := there.complete lane.name known
    obtain ⟨rfl, same⟩ := identifies.unique identifies'
    exact Option.map_eq_some_iff.mpr ⟨lane', listed', same.symm⟩
  apply Option.ext
  intro identity
  exact ⟨covered here there identity, covered there here identity⟩

def EvalContext.onCycle (context : EvalContext) (cycleIndex : U64) : EvalContext := { context with cycleIndex }

/-- The cycle changes the steps of a realized pattern, but neither its lanes nor whether their names are bound. -/
theorem lanes_independent_of_cycle (expr : PatternExpr) (context : EvalContext) :
    (∀ first second output other, evalSteps expr (context.onCycle first) = .ok output →
      evalSteps expr (context.onCycle second) = .ok other →
        ∀ id : U64, output.pattern.lanes[id]?.map StepLane.identity = other.pattern.lanes[id]?.map StepLane.identity) ∧
    (∀ cycleIndex swing core events, splitSwing expr = .ok (swing, core) → evalNorm core cycleIndex = .ok events →
      ∀ event ∈ events, event.lane ∈ referencedBindings expr) ∧
    ∀ first second output, evalSteps expr (context.onCycle first) = .ok output →
      NeverUnbound (evalSteps expr (context.onCycle second)) := by
  refine ⟨?_, fun cycleIndex swing core events root evaluated => events_referenced root evaluated, ?_⟩
  · intro first second output other done done'
    have here := evalSteps_lanes done
    have there := evalSteps_lanes done'
    exact LanesOf.identity_eq here there
  · intro first second output done
    have lanes := evalSteps_lanes done
    exact evalSteps_neverUnbound lanes.bound

def alternation : PatternExpr := .seq [Step.plain (.alternate [named ['a'] .one, named ['b'] .one]), silent .one]

theorem alternation_keeps_lanes :
    ∃ output other events, evalSteps alternation (twoPads.onCycle 0) = .ok output ∧
      evalSteps alternation (twoPads.onCycle 1) = .ok other ∧ evalNorm alternation 0 = .ok events ∧
      (∀ id : U64, output.pattern.lanes[id]?.map StepLane.identity = other.pattern.lanes[id]?.map StepLane.identity) ∧
      (∀ event ∈ events, event.lane ∈ referencedBindings alternation) ∧
      NeverUnbound (evalSteps alternation (twoPads.onCycle 1)) := by
  obtain ⟨output, done⟩ := exists_of_isOk
    (show (evalSteps alternation (twoPads.onCycle 0)).isOk = true by decide +kernel)
  obtain ⟨other, done'⟩ := exists_of_isOk
    (show (evalSteps alternation (twoPads.onCycle 1)).isOk = true by decide +kernel)
  obtain ⟨events, evaluated⟩ := exists_of_isOk (show (evalNorm alternation 0).isOk = true by decide +kernel)
  obtain ⟨identities, referenced, bound⟩ := lanes_independent_of_cycle alternation twoPads
  exact ⟨output, other, events, done, done', evaluated, identities 0 1 output other done done',
    referenced 0 0.0 alternation events rfl evaluated, bound 0 1 output done⟩

def unruly : PatternExpr :=
  .seq [Step.plain (.alternate [{ named ['a'] .one with repeats := 300 }, named ['b'] .one])]

def noPads : EvalContext where
  bindings := ∅
  cycle := 3840
  cycleIndex := 0
  countable := by decide

def stopsUnbound {α : Type} : Eval α → Bool
  | .error (.error (.unboundName _)) => true
  | _ => false

theorem neverUnbound_iff {α : Type} (evaluated : Eval α) : NeverUnbound evaluated ↔ stopsUnbound evaluated = false := by
  unfold stopsUnbound
  split
  · simp [NeverUnbound, fails]
  · rename_i other
    exact iff_of_true (fun name stopped => other name stopped) rfl

theorem unruly_hides_name :
    ¬ ∀ (expr : PatternExpr) (context : EvalContext),
      (∀ first second output other, evalSteps expr (context.onCycle first) = .ok output →
        evalSteps expr (context.onCycle second) = .ok other →
          ∀ id : U64, output.pattern.lanes[id]?.map StepLane.identity = other.pattern.lanes[id]?.map StepLane.identity) ∧
      (∀ cycleIndex swing core events, splitSwing expr = .ok (swing, core) → evalNorm core cycleIndex = .ok events →
        ∀ event ∈ events, event.lane ∈ referencedBindings expr) ∧
      ∀ first second, NeverUnbound (evalSteps expr (context.onCycle first)) →
        NeverUnbound (evalSteps expr (context.onCycle second)) := by
  intro claimed
  have calm : NeverUnbound (evalSteps unruly (noPads.onCycle 0)) := by
    rw [neverUnbound_iff]
    decide +kernel
  have stopped : stopsUnbound (evalSteps unruly (noPads.onCycle 1)) = true := by decide +kernel
  have bound := (claimed unruly noPads).2.2 0 1 calm
  rw [neverUnbound_iff, stopped] at bound
  cases bound

end Audec.PatternLang

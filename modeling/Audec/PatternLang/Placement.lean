import Audec.PatternLang.Slots

/-! Every event of a term lies inside the cycle, as long as no window's end overflows. -/

open List

namespace Audec.PatternLang

open Machine Checked FloatDebug Rational

structure Within (first last : ℚ) (event : AbstractEvent) : Prop where
  begins : first ≤ event.position.value
  positive : 0 < event.width.value
  ends : event.position.value + event.width.value ≤ last

variable {event : AbstractEvent} {steps : List (StepOf Evaluator)} {width : Rational} {cycleIndex : U64}
  {result : List AbstractEvent} {factor : U32} {inner : U64 → Eval (List AbstractEvent)}

variable {first last : ℚ} {α : Type} {start position : Rational}

theorem Within.mono {low high : ℚ} (within : Within first last event)
    (below : low ≤ first) (above : last ≤ high) : Within low high event :=
  ⟨below.trans within.begins, within.positive, within.ends.trans above⟩

def Confined (evaluator : Evaluator) : Prop :=
  ∀ start width repeats probability velocity events, Extent start width →
    evaluator start width repeats probability velocity = .ok events →
    ∀ event ∈ events, Within start.value (start.value + width.value) event

theorem mem_visited {β : Type} {visit : StepOf α → Rational → Rational → Eval β} {slots : List (Slot α)}
    {items : List β} (visits : Visited visit slots items) {item : β} (member : item ∈ items) :
    ∃ slot ∈ slots, visit slot.step slot.start slot.width = .ok item := by
  induction visits with
  | nil => cases member
  | cons visited visits tail =>
    rcases mem_cons.mp member with rfl | later
    · exact ⟨_, mem_cons_self, visited⟩
    · obtain ⟨slot, inside, visited⟩ := tail later
      exact ⟨slot, mem_cons_of_mem _ inside, visited⟩

theorem evalSeq_within (confined : ∀ step ∈ steps, Confined step.element)
    (extent : Extent start width) {events : List AbstractEvent}
    (done : evalSeq steps start width = .ok events) :
    ∀ event ∈ events, Within start.value (start.value + width.value) event := by
  simp only [evalSeq, bind_ok] at done
  obtain ⟨parts, visited, done⟩ := done
  cases done
  obtain ⟨slots, laid, visits⟩ := visitSlots_visited visited
  obtain ⟨occupied, tiles, -⟩ := slotsOf_tiles extent laid
  intro event member
  obtain ⟨part, listed, inside⟩ := mem_flatten.mp member
  obtain ⟨slot, present, played⟩ := mem_visited visits listed
  obtain ⟨low, positive, high⟩ := tiles.inside present
  have known : slot.step ∈ StepOf.replicated steps := occupied ▸ mem_map_of_mem present
  obtain ⟨step, source, copy⟩ := mem_flatMap.mp known
  rw [eq_of_mem_replicate copy] at played
  have within := confined step source _ _ _ _ _ _ ⟨positive, high.trans extent.inside⟩ played event inside
  exact within.mono low high

theorem evalCopies_within {slotStart slotWidth : Rational} (extent : Extent slotStart slotWidth) {copies : Nat}
    (representable : copies < 0x10000000000000000)
    {visit : Rational → Rational → Eval (List AbstractEvent)}
    (visits : ∀ start width events, Extent start width → visit start width = .ok events →
      ∀ event ∈ events, Within start.value (start.value + width.value) event)
    {events : List AbstractEvent} (done : evalCopies slotStart slotWidth copies visit = .ok events) :
    ∀ event ∈ events, Within slotStart.value (slotStart.value + slotWidth.value) event := by
  simp only [evalCopies, bind_ok] at done
  obtain ⟨parts, made, copyWidth, divided, results, mapped, done⟩ := done
  cases done
  have parts' := (new_value made).2
  rw [Fin.val_ofNat, Nat.mod_eq_of_lt representable] at parts'
  obtain ⟨nonzero, share⟩ := div_value divided
  have count : parts.value = copies := by
    rw [parts']
    simp
  rw [count] at nonzero share
  have positive : (0 : ℚ) < copies := lt_of_le_of_ne (Nat.cast_nonneg _) nonzero.symm
  have whole : copyWidth.value * copies = slotWidth.value := by rw [share, div_mul_cancel₀ _ nonzero]
  have copyPos : 0 < copyWidth.value := by
    rw [share]
    exact div_pos extent.positive positive
  intro event member
  obtain ⟨part, listed, inside⟩ := mem_flatten.mp member
  obtain ⟨copy, among, played⟩ := mem_mapM mapped listed
  rw [bind_ok] at played
  obtain ⟨offset, scaled, played⟩ := played
  rw [bind_ok] at played
  obtain ⟨copyStart, placed, played⟩ := played
  have offset' := scaleInt_value scaled
  have low : 0 ≤ offset.value := offset.value_nonneg
  have high : offset.value + copyWidth.value ≤ slotWidth.value := by
    have within : (copy : ℚ) + 1 ≤ copies := by exact_mod_cast mem_range.mp among
    rw [offset', ← whole]
    nlinarith
  have inside' := extent.inside
  have start' := add_value_of_le_one (by linarith) placed
  have within := visits copyStart copyWidth part ⟨copyPos, by rw [start']; linarith⟩ played event inside
  exact within.mono (by rw [start']; linarith) (by rw [start']; linarith)

theorem evalName_confined (binding : Text) (variant : Option U32) : Confined (evalName binding variant) := by
  intro start width repeats probability velocity events extent done event member
  simp only [evalName, bind_ok] at done
  obtain ⟨_, -, _, -, done⟩ := done
  cases done
  rw [mem_singleton] at member
  rw [member]
  exact ⟨le_rfl, extent.positive, le_rfl⟩

theorem within_elim (change : Float32 → AbstractEvent → AbstractEvent)
    (keeps : ∀ value event, Within first last event → Within first last (change value event))
    {factor : Option Float32} {events : List AbstractEvent} (all : ∀ event ∈ events, Within first last event) :
    ∀ event ∈ factor.elim events fun value => events.map (change value), Within first last event := by
  cases factor with
  | none => exact all
  | some value =>
    intro event member
    obtain ⟨source, inside, rfl⟩ := mem_map.mp member
    exact keeps value source (all source inside)

theorem evalGroup_confined (confined : ∀ step ∈ steps, Confined step.element) :
    Confined (evalGroup steps) := by
  intro start width repeats probability velocity events extent done
  simp only [evalGroup, bind_ok] at done
  obtain ⟨_, -, inner, copied, done⟩ := done
  cases done
  have small := (max repeats 1).isLt
  refine within_elim AbstractEvent.amplify (fun _ _ within => ⟨within.begins, within.positive, within.ends⟩) ?_
  refine within_elim AbstractEvent.thin (fun _ _ within => ⟨within.begins, within.positive, within.ends⟩) ?_
  exact evalCopies_within extent (by omega) (fun _ _ _ extent done => evalSeq_within confined extent done) copied

theorem evalAlternate_confined
    (confined : ∀ step ∈ steps, Confined step.element) : Confined (evalAlternate cycleIndex steps) := by
  intro start width repeats probability velocity events extent done
  simp only [evalAlternate, bind_ok] at done
  obtain ⟨_, -, done⟩ := done
  split at done
  · cases done
  · rename_i chosen found
    have small := (max chosen.replicate 1).isLt
    exact evalCopies_within extent (by omega)
      (fun _ _ _ extent done => confined chosen (mem_of_getElem? found) _ _ _ _ _ _ extent done) done

mutual

theorem evalElement_confined (cycleIndex : U64) : ∀ element : Element, Confined (evalElement cycleIndex element)
  | .rest => by
    intro start width repeats probability velocity events extent done
    simp only [evalElement, bind_ok] at done
    obtain ⟨_, -, done⟩ := done
    cases done
    simp
  | .name binding variant => by
    rw [evalElement]
    exact evalName_confined binding variant
  | .group steps => by
    rw [evalElement]
    exact evalGroup_confined (evaluators_confined cycleIndex steps)
  | .alternate steps => by
    rw [evalElement]
    exact evalAlternate_confined (evaluators_confined cycleIndex steps)

theorem evaluators_confined (cycleIndex : U64) :
    ∀ steps : List (StepOf Element), ∀ step ∈ evaluators cycleIndex steps, Confined step.element
  | [] => by simp [evaluators]
  | step :: rest => by
    rw [evaluators]
    exact forall_mem_cons.mpr ⟨evaluatorOf_confined cycleIndex step, evaluators_confined cycleIndex rest⟩

theorem evaluatorOf_confined (cycleIndex : U64) : ∀ step : StepOf Element, Confined (evaluatorOf cycleIndex step).element
  | ⟨element, _, _, _, _, _⟩ => by
    rw [evaluatorOf]
    exact evalElement_confined cycleIndex element

end

def AbstractEvent.place (event : AbstractEvent) : Rational × Rational := (event.position, event.width)

theorem takePayload_places (payloads : List Payload) (shift : Nat) (events : List AbstractEvent) (entry : Nat × Nat) :
    (takePayload payloads shift events entry).map AbstractEvent.place = events.map AbstractEvent.place := by
  unfold takePayload
  split
  · rename_i payload found
    apply ext_getElem?
    intro index
    rw [getElem?_map, getElem?_map, getElem?_modify]
    split
    · cases events[index]? <;> rfl
    · cases events[index]? <;> rfl
  · rfl

theorem rotatePayloads_places {steps : I32} {events : List AbstractEvent}
    (done : rotatePayloads steps events = .ok result) :
    result.map AbstractEvent.place = events.map AbstractEvent.place := by
  unfold rotatePayloads at done
  split at done
  · cases done
    rfl
  · rw [bind_ok] at done
    obtain ⟨shift, -, done⟩ := done
    split at done
    · cases done
      rfl
    · rename_i present _
      clear present
      cases done
      generalize (rotationOrder events).zipIdx = entries
      generalize List.filterMap _ (rotationOrder events) = payloads
      induction entries generalizing events with
      | nil => rfl
      | cons entry entries tail =>
        rw [foldl_cons, tail, takePayload_places]

theorem within_of_places {events : List AbstractEvent}
    (same : result.map AbstractEvent.place = events.map AbstractEvent.place)
    (all : ∀ event ∈ events, Within first last event) : ∀ event ∈ result, Within first last event := by
  intro event member
  have listed : event.place ∈ events.map AbstractEvent.place := same ▸ mem_map_of_mem member
  obtain ⟨source, inside, place⟩ := mem_map.mp listed
  obtain ⟨position, width⟩ := Prod.mk.inj place
  obtain ⟨low, positive, high⟩ := all source inside
  rw [position] at low high
  rw [width] at positive high
  exact ⟨low, positive, high⟩

theorem applyTransform_places {transform : PatternTransform} {events : List AbstractEvent}
    (done : applyTransform events transform = .ok result) :
    result.map AbstractEvent.place = events.map AbstractEvent.place := by
  cases transform with
  | rotate steps => exact rotatePayloads_places done
  | gain linear =>
    rw [applyTransform, bind_ok] at done
    obtain ⟨_, -, done⟩ := done
    cases done
    rw [map_map]
    rfl
  | degrade probability =>
    rw [applyTransform, bind_ok] at done
    obtain ⟨_, -, done⟩ := done
    cases done
    rw [map_map]
    rfl

def slowCycle (cycleIndex : U64) (factor : U32) : U64 := Fin.ofNat _ (cycleIndex.val / factor.val)

/-- Every event that starts in the window and ends beyond the cycle is still seen to end beyond it when the
    numerator of its end is cut to 128 bits. -/
def WindowFits (cycleIndex : U64) (factor : U32) (inner : U64 → Eval (List AbstractEvent)) : Prop :=
  ∀ innerEvents windowStart windowEnd, inner (slowCycle cycleIndex factor) = .ok innerEvents →
    Rational.new (Fin.ofNat _ (cycleIndex.val % factor.val)) (Fin.ofNat _ factor.val) = .ok windowStart →
    Rational.new (Fin.ofNat _ (cycleIndex.val % factor.val + 1)) (Fin.ofNat _ factor.val) = .ok windowEnd →
    ∀ event ∈ innerEvents.filter (startsWithin windowStart windowEnd), ∀ position width,
      magnify windowStart factor event = .ok (position, width) → 1 < position.value + width.value →
        position.denominator.val * width.denominator.val <
          Rational.crossSum position width % 0x100000000000000000000000000000000

mutual

def WindowsFit : PatternExpr → U64 → Prop
  | .seq _, _ => True
  | .euclid _ _ _ _, _ => True
  | .stack members, cycleIndex => MembersFit members cycleIndex
  | .every _ _ _ inner, cycleIndex => WindowsFit inner cycleIndex
  | .rotate _ inner, cycleIndex => WindowsFit inner cycleIndex
  | .fast factor inner, cycleIndex => ∀ copy < factor.val, WindowsFit inner (fastCycle cycleIndex factor copy)
  | .slow factor inner, cycleIndex =>
    WindowsFit inner (slowCycle cycleIndex factor) ∧ WindowFits cycleIndex factor (evalNorm inner)
  | .swing _ inner, cycleIndex => WindowsFit inner cycleIndex
  | .gain _ inner, cycleIndex => WindowsFit inner cycleIndex
  | .degrade _ inner, cycleIndex => WindowsFit inner cycleIndex

def MembersFit : List PatternExpr → U64 → Prop
  | [], _ => True
  | member :: rest, cycleIndex => WindowsFit member cycleIndex ∧ MembersFit rest cycleIndex

end

theorem evalEuclid_within {hits slots : U32} {rotation : I32} {element : Evaluator} (confined : Confined element)
    {events : List AbstractEvent} (done : evalEuclid hits slots rotation element = .ok events) :
    ∀ event ∈ events, Within 0 1 event := by
  simp only [evalEuclid, bind_ok] at done
  obtain ⟨_, valid, slotWidth, made, results, mapped, done⟩ := done
  cases done
  have valid := ensure_ok.mp valid
  push Not at valid
  obtain ⟨widthPos, whole⟩ := share_value valid.1 made
  intro event member
  obtain ⟨part, listed, inside⟩ := mem_flatten.mp member
  obtain ⟨slot, among, played⟩ := mem_mapM mapped listed
  rw [bind_ok] at played
  obtain ⟨start, scaled, played⟩ := played
  have ends : start.value + slotWidth.value ≤ 1 := by
    have below : (slot : ℚ) + 1 ≤ slots.val := by exact_mod_cast mem_range.mp (mem_of_mem_filter among)
    rw [scaleInt_value scaled, ← whole]
    nlinarith
  exact (confined _ _ _ _ _ _ ⟨widthPos, ends⟩ played event inside).mono start.value_nonneg ends

structure CopyOf (cycleIndex : U64) (factor : U32) (inner : U64 → Eval (List AbstractEvent)) (event : AbstractEvent)
    (copy : Nat) (innerEvents : List AbstractEvent) (source : AbstractEvent) (share : ℚ) : Prop where
  below : copy < factor.val
  evaluated : inner (fastCycle cycleIndex factor copy) = .ok innerEvents
  present : source ∈ innerEvents
  positive : 0 < share
  whole : share * factor.val = 1
  width : event.width.value = source.width.value * share
  position : share * (copy + source.position.value) ≤ 1 → event.position.value = share * (copy + source.position.value)

theorem mem_evalFast
    {events : List AbstractEvent} (done : evalFast cycleIndex factor inner = .ok events)
    (member : event ∈ events) :
    ∃ copy innerEvents source share, CopyOf cycleIndex factor inner event copy innerEvents source share := by
  simp only [evalFast, bind_ok] at done
  obtain ⟨_, valid, copyWidth, made, results, mapped, done⟩ := done
  cases done
  obtain ⟨widthPos, whole⟩ := share_value (ensure_ok.mp valid) made
  obtain ⟨part, listed, inside⟩ := mem_flatten.mp member
  obtain ⟨copy, among, played⟩ := mem_mapM mapped listed
  simp only [bind_ok] at played
  obtain ⟨innerEvents, evaluated, start, scaled, moved⟩ := played
  obtain ⟨source, present, placed⟩ := mem_mapM moved inside
  simp only [bind_ok] at placed
  obtain ⟨offset, offsetIs, position, positionIs, size, sizeIs, placed⟩ := placed
  cases placed
  have sum : start.value + offset.value = copyWidth.value * (copy + source.position.value) := by
    rw [scaleInt_value scaled, mul_value offsetIs]
    ring
  refine ⟨copy, innerEvents, source, copyWidth.value, mem_range.mp among, evaluated, present, widthPos, whole,
    mul_value sizeIs, fun fits => ?_⟩
  rw [← sum] at fits ⊢
  exact add_value_of_le_one fits positionIs

theorem evalFast_within
    (all : ∀ copy < factor.val, ∀ events, inner (fastCycle cycleIndex factor copy) = .ok events →
      ∀ event ∈ events, Within 0 1 event)
    {events : List AbstractEvent} (done : evalFast cycleIndex factor inner = .ok events) :
    ∀ event ∈ events, Within 0 1 event := by
  intro event member
  obtain ⟨copy, innerEvents, source, share, made⟩ := mem_evalFast done member
  obtain ⟨low, positive, high⟩ := all copy made.below innerEvents made.evaluated source made.present
  have below : (copy : ℚ) + 1 ≤ factor.val := by exact_mod_cast made.below
  have sharePos := made.positive
  -- the copy ends before the next one begins
  have ends : share * (copy + source.position.value) + source.width.value * share ≤ 1 := by
    rw [← made.whole]
    nlinarith
  have sizePos : 0 < event.width.value := by
    rw [made.width]
    positivity
  rw [← made.width] at ends
  refine ⟨event.position.value_nonneg, sizePos, ?_⟩
  rw [made.position (by linarith)]
  exact ends

theorem magnify_value (valid : factor ≠ 0) {windowStart windowEnd : Rational}
    (startIs : new (Fin.ofNat _ (cycleIndex.val % factor.val)) (Fin.ofNat _ factor.val) = .ok windowStart)
    (endIs : new (Fin.ofNat _ (cycleIndex.val % factor.val + 1)) (Fin.ofNat _ factor.val) = .ok windowEnd)
    (starts : startsWithin windowStart windowEnd event = true)
    (magnified : magnify windowStart factor event = .ok (position, width)) :
    position.value < 1 ∧ (0 < event.width.value → 0 < width.value) := by
  have small := factor.isLt
  have factorPos : 0 < factor.val := Fin.pos_iff_ne_zero.mpr valid
  have rational : (0 : ℚ) < factor.val := by exact_mod_cast factorPos
  have remainder := Nat.mod_lt cycleIndex.val factorPos
  have startValue := (new_value startIs).2
  have endValue := (new_value endIs).2
  have low64 (n : Nat) (fits : n ≤ factor.val) : (Fin.ofNat 0x10000000000000000 n).val = n :=
    Nat.mod_eq_of_lt (by omega)
  rw [low64 _ remainder.le, low64 _ le_rfl] at startValue
  rw [low64 _ remainder, low64 _ le_rfl] at endValue
  simp only [startsWithin, decide_eq_true_eq, not_or, not_not] at starts
  rw [cmpValue_lt, cmpValue_lt, not_lt] at starts
  simp only [magnify, bind_ok] at magnified
  obtain ⟨offset, offsetIs, position', positionIs, width', widthIs, magnified⟩ := magnified
  cases magnified
  have offset' : offset.value = event.position.value - windowStart.value := by
    rw [(checked_value offsetIs).2]
    have ordered : windowStart.numerator.val * event.position.denominator.val ≤
        event.position.numerator.val * windowStart.denominator.val := by
      by_contra reversed
      exact absurd ((lt_iff _ _).mp (not_le.mp reversed)) (not_lt.mpr starts.1)
    have first := event.position.denominator_pos
    have second := windowStart.denominator_pos
    rw [Nat.cast_sub ordered, Rational.value, Rational.value]
    push_cast
    field_simp
  constructor
  · have next : windowEnd.value = windowStart.value + 1 / factor.val := by
      rw [startValue, endValue]
      push_cast
      ring
    have behind := starts.2
    rw [next] at behind
    rw [scaleInt_value positionIs, offset', ← lt_div_iff₀ rational]
    linarith
  · intro positive
    rw [scaleInt_value widthIs]
    positivity

theorem stop_beyond_iff {stop : Rational} (done : position.add width = .ok stop) :
    1 < stop.value ↔ position.denominator.val * width.denominator.val <
      crossSum position width % 0x100000000000000000000000000000000 := by
  have positive : 0 < position.denominator.val * width.denominator.val := Nat.mul_pos position.positive width.positive
  rw [(checked_value done).2, one_lt_div (by exact_mod_cast positive)]
  exact_mod_cast Iff.rfl

theorem confine_within {confined : Rational} (before : position.value < 1) (positive : 0 < width.value)
    (done : confine position width = .ok confined) :
    0 < confined.value ∧ (position.value + confined.value ≤ 1 ↔ (1 < position.value + width.value →
      position.denominator.val * width.denominator.val <
        crossSum position width % 0x100000000000000000000000000000000)) := by
  simp only [confine, bind_ok] at done
  obtain ⟨stop, stopIs, done⟩ := done
  rw [← stop_beyond_iff stopIs]
  split at done
  · rename_i beyond
    rw [cmpValue_gt, value_one] at beyond
    have cut : confined.value = 1 - position.value := by
      rw [(checked_value done).2]
      have ordered : position.numerator.val ≤ position.denominator.val := by
        have below := (div_lt_one position.denominator_pos).mp before
        exact_mod_cast below.le
      rw [Nat.cast_sub ordered, Rational.value, sub_div, div_self position.denominator_pos.ne']
    refine ⟨by linarith, fun _ _ => beyond, fun _ => by linarith⟩
  · rename_i short
    cases done
    rw [cmpValue_gt, value_one] at short
    refine ⟨positive, fun inside outside => absurd outside (not_lt.mpr inside), fun seen => ?_⟩
    by_contra outside
    exact short (seen (not_le.mp outside))

theorem evalSlow_within_iff
    (all : ∀ events, inner (slowCycle cycleIndex factor) = .ok events → ∀ event ∈ events, Within 0 1 event)
    {events : List AbstractEvent} (done : evalSlow cycleIndex factor inner = .ok events) :
    (∀ event ∈ events, Within 0 1 event) ↔ WindowFits cycleIndex factor inner := by
  simp only [evalSlow, bind_ok] at done
  obtain ⟨_, valid, innerEvents, evaluated, windowStart, startIs, windowEnd, endIs, mapped⟩ := done
  have valid := ensure_ok.mp valid
  have inside := all innerEvents evaluated
  constructor
  · intro within innerEvents' windowStart' windowEnd' evaluated' startIs' endIs' source present position width magnified
    rw [show inner (slowCycle cycleIndex factor) = .ok innerEvents from evaluated] at evaluated'
    cases evaluated'
    rw [startIs] at startIs'
    cases startIs'
    rw [endIs] at endIs'
    cases endIs'
    obtain ⟨before, widens⟩ := magnify_value valid startIs endIs (of_mem_filter present) magnified
    have positive := widens (inside source (mem_of_mem_filter present)).positive
    obtain ⟨event, member, played⟩ := mapM_mem mapped present
    simp only [magnified, bind_ok] at played
    obtain ⟨⟨position', width'⟩, same, confined, confinedIs, played⟩ := played
    cases same
    cases played
    exact (confine_within before positive confinedIs).2.mp (within _ member).ends
  · intro fits event member
    obtain ⟨source, present, played⟩ := mem_mapM mapped member
    simp only [bind_ok] at played
    obtain ⟨⟨position, width⟩, magnified, confined, confinedIs, played⟩ := played
    cases played
    obtain ⟨before, widens⟩ := magnify_value valid startIs endIs (of_mem_filter present) magnified
    have positive := widens (inside source (mem_of_mem_filter present)).positive
    obtain ⟨wide, ends⟩ := confine_within before positive confinedIs
    exact ⟨position.value_nonneg, wide,
      ends.mpr (fits innerEvents windowStart windowEnd evaluated startIs endIs source present position width magnified)⟩

mutual

theorem evalNorm_within : ∀ (expr : PatternExpr) (cycleIndex : U64), WindowsFit expr cycleIndex → ∀ events,
    evalNorm expr cycleIndex = .ok events → ∀ event ∈ events, Within 0 1 event
  | .swing _ _, _, _, events, done => by
    rw [evalNorm] at done
    cases done
  | .seq steps, cycleIndex, _, events, done => by
    rw [evalNorm] at done
    have within := evalSeq_within (evaluators_confined cycleIndex steps) ⟨by simp, by simp⟩ done
    simpa using within
  | .stack members, cycleIndex, fits, events, done => by
    rw [evalNorm, bind_ok] at done
    obtain ⟨_, -, done⟩ := done
    rw [WindowsFit] at fits
    exact evalMembers_within members cycleIndex fits events done
  | .every period offset transform inner, cycleIndex, fits, events, done => by
    simp only [evalNorm, bind_ok] at done
    obtain ⟨_, -, innerEvents, evaluated, done⟩ := done
    rw [WindowsFit] at fits
    have within := evalNorm_within inner cycleIndex fits innerEvents evaluated
    split at done
    · exact within_of_places (applyTransform_places done) within
    · cases done
      exact within
  | .rotate steps inner, cycleIndex, fits, events, done => by
    simp only [evalNorm, bind_ok] at done
    obtain ⟨innerEvents, evaluated, done⟩ := done
    rw [WindowsFit] at fits
    exact within_of_places (rotatePayloads_places done) (evalNorm_within inner cycleIndex fits innerEvents evaluated)
  | .euclid hits slots rotation element, cycleIndex, _, events, done => by
    rw [evalNorm] at done
    exact evalEuclid_within (evalElement_confined cycleIndex element) done
  | .fast factor inner, cycleIndex, fits, events, done => by
    rw [evalNorm] at done
    rw [WindowsFit] at fits
    exact evalFast_within (fun copy below events done => evalNorm_within inner _ (fits copy below) events done) done
  | .slow factor inner, cycleIndex, fits, events, done => by
    rw [evalNorm] at done
    rw [WindowsFit] at fits
    exact (evalSlow_within_iff (fun events done => evalNorm_within inner _ fits.1 events done) done).mpr fits.2
  | .gain linear inner, cycleIndex, fits, events, done => by
    simp only [evalNorm, bind_ok] at done
    obtain ⟨_, -, innerEvents, evaluated, done⟩ := done
    cases done
    rw [WindowsFit] at fits
    exact within_of_places (by rw [map_map]; rfl) (evalNorm_within inner cycleIndex fits innerEvents evaluated)
  | .degrade probability inner, cycleIndex, fits, events, done => by
    simp only [evalNorm, bind_ok] at done
    obtain ⟨_, -, innerEvents, evaluated, done⟩ := done
    cases done
    rw [WindowsFit] at fits
    exact within_of_places (by rw [map_map]; rfl) (evalNorm_within inner cycleIndex fits innerEvents evaluated)

theorem evalMembers_within : ∀ (members : List PatternExpr) (cycleIndex : U64), MembersFit members cycleIndex →
    ∀ events, evalMembers members cycleIndex = .ok events → ∀ event ∈ events, Within 0 1 event
  | [], _, _, events, done => by
    rw [evalMembers] at done
    cases done
    simp
  | member :: rest, cycleIndex, fits, events, done => by
    simp only [evalMembers, bind_ok] at done
    obtain ⟨first, evaluated, later, remaining, done⟩ := done
    cases done
    rw [MembersFit] at fits
    have front := evalNorm_within member cycleIndex fits.1 first evaluated
    have back := evalMembers_within rest cycleIndex fits.2 later remaining
    intro event member
    rcases mem_append.mp member with member | member
    · exact front event member
    · exact back event member

end

def EventsWithin (expr : PatternExpr) (cycleIndex : U64) : Prop :=
  ∀ events, evalNorm expr cycleIndex = .ok events → ∀ event ∈ events, Within 0 1 event

mutual

def PartsWithin : PatternExpr → U64 → Prop
  | .seq steps, cycleIndex => EventsWithin (.seq steps) cycleIndex
  | .euclid hits slots rotation element, cycleIndex => EventsWithin (.euclid hits slots rotation element) cycleIndex
  | .stack members, cycleIndex => EventsWithin (.stack members) cycleIndex ∧ MembersWithin members cycleIndex
  | .every period offset transform inner, cycleIndex =>
    EventsWithin (.every period offset transform inner) cycleIndex ∧ PartsWithin inner cycleIndex
  | .rotate steps inner, cycleIndex => EventsWithin (.rotate steps inner) cycleIndex ∧ PartsWithin inner cycleIndex
  | .fast factor inner, cycleIndex => EventsWithin (.fast factor inner) cycleIndex ∧
    ∀ copy < factor.val, PartsWithin inner (fastCycle cycleIndex factor copy)
  | .slow factor inner, cycleIndex => EventsWithin (.slow factor inner) cycleIndex ∧
    PartsWithin inner (slowCycle cycleIndex factor)
  | .swing amount inner, cycleIndex => EventsWithin (.swing amount inner) cycleIndex ∧ PartsWithin inner cycleIndex
  | .gain linear inner, cycleIndex => EventsWithin (.gain linear inner) cycleIndex ∧ PartsWithin inner cycleIndex
  | .degrade probability inner, cycleIndex =>
    EventsWithin (.degrade probability inner) cycleIndex ∧ PartsWithin inner cycleIndex

def MembersWithin : List PatternExpr → U64 → Prop
  | [], _ => True
  | member :: rest, cycleIndex => PartsWithin member cycleIndex ∧ MembersWithin rest cycleIndex

end

theorem and_iff_of_within {whole part fits : Prop} (below : part ↔ fits) (enough : fits → whole) : whole ∧ part ↔ fits :=
  ⟨fun both => below.mp both.2, fun holds => ⟨enough holds, below.mpr holds⟩⟩

mutual

theorem partsWithin_iff : ∀ (expr : PatternExpr) (cycleIndex : U64) (events : List AbstractEvent),
    evalNorm expr cycleIndex = .ok events → (PartsWithin expr cycleIndex ↔ WindowsFit expr cycleIndex)
  | .swing _ _, _, events, done => by
    rw [evalNorm] at done
    cases done
  | .seq steps, cycleIndex, events, _ => by
    rw [PartsWithin, WindowsFit]
    exact iff_true_intro (evalNorm_within (.seq steps) cycleIndex (by rw [WindowsFit]; trivial))
  | .euclid hits slots rotation element, cycleIndex, events, _ => by
    rw [PartsWithin, WindowsFit]
    exact iff_true_intro (evalNorm_within (.euclid hits slots rotation element) cycleIndex (by rw [WindowsFit]; trivial))
  | .stack members, cycleIndex, events, done => by
    rw [PartsWithin, WindowsFit]
    rw [evalNorm, bind_ok] at done
    obtain ⟨_, -, done⟩ := done
    exact and_iff_of_within (membersWithin_iff members cycleIndex events done)
      fun fits => evalNorm_within (.stack members) cycleIndex (by rwa [WindowsFit])
  | .every period offset transform inner, cycleIndex, events, done => by
    rw [PartsWithin, WindowsFit]
    simp only [evalNorm, bind_ok] at done
    obtain ⟨_, -, innerEvents, evaluated, -⟩ := done
    exact and_iff_of_within (partsWithin_iff inner cycleIndex innerEvents evaluated)
      fun fits => evalNorm_within (.every period offset transform inner) cycleIndex (by rwa [WindowsFit])
  | .rotate steps inner, cycleIndex, events, done => by
    rw [PartsWithin, WindowsFit]
    simp only [evalNorm, bind_ok] at done
    obtain ⟨innerEvents, evaluated, -⟩ := done
    exact and_iff_of_within (partsWithin_iff inner cycleIndex innerEvents evaluated)
      fun fits => evalNorm_within (.rotate steps inner) cycleIndex (by rwa [WindowsFit])
  | .fast factor inner, cycleIndex, events, done => by
    rw [PartsWithin, WindowsFit]
    simp only [evalNorm, evalFast, bind_ok] at done
    obtain ⟨_, -, copyWidth, -, results, mapped, -⟩ := done
    refine and_iff_of_within (forall₂_congr fun copy below => ?_)
      fun fits => evalNorm_within (.fast factor inner) cycleIndex (by rwa [WindowsFit])
    obtain ⟨result, -, played⟩ := mapM_mem mapped (mem_range.mpr below)
    rw [bind_ok] at played
    obtain ⟨innerEvents, evaluated, -⟩ := played
    exact partsWithin_iff inner _ innerEvents evaluated
  | .slow factor inner, cycleIndex, events, done => by
    have whole := done
    rw [PartsWithin, WindowsFit]
    rw [evalNorm] at done
    simp only [evalNorm, evalSlow, bind_ok] at whole
    obtain ⟨_, -, innerEvents, evaluated, -⟩ := whole
    have below := partsWithin_iff inner (slowCycle cycleIndex factor) innerEvents evaluated
    rw [below]
    constructor
    · rintro ⟨within, fits⟩
      have inside := evalNorm_within inner _ fits
      exact ⟨fits, (evalSlow_within_iff inside done).mp (within events (by rw [evalNorm]; exact done))⟩
    · rintro ⟨fits, window⟩
      exact ⟨evalNorm_within (.slow factor inner) cycleIndex (by rw [WindowsFit]; exact ⟨fits, window⟩), fits⟩
  | .gain linear inner, cycleIndex, events, done => by
    rw [PartsWithin, WindowsFit]
    simp only [evalNorm, bind_ok] at done
    obtain ⟨_, -, innerEvents, evaluated, -⟩ := done
    exact and_iff_of_within (partsWithin_iff inner cycleIndex innerEvents evaluated)
      fun fits => evalNorm_within (.gain linear inner) cycleIndex (by rwa [WindowsFit])
  | .degrade probability inner, cycleIndex, events, done => by
    rw [PartsWithin, WindowsFit]
    simp only [evalNorm, bind_ok] at done
    obtain ⟨_, -, innerEvents, evaluated, -⟩ := done
    exact and_iff_of_within (partsWithin_iff inner cycleIndex innerEvents evaluated)
      fun fits => evalNorm_within (.degrade probability inner) cycleIndex (by rwa [WindowsFit])

theorem membersWithin_iff : ∀ (members : List PatternExpr) (cycleIndex : U64) (events : List AbstractEvent),
    evalMembers members cycleIndex = .ok events → (MembersWithin members cycleIndex ↔ MembersFit members cycleIndex)
  | [], _, _, _ => by rw [MembersWithin, MembersFit]
  | member :: rest, cycleIndex, events, done => by
    simp only [evalMembers, bind_ok] at done
    obtain ⟨first, evaluated, later, remaining, -⟩ := done
    rw [MembersWithin, MembersFit, partsWithin_iff member cycleIndex first evaluated,
      membersWithin_iff rest cycleIndex later remaining]

end

def Partitions (steps : List (StepOf Evaluator)) (start width : Rational) (events : List AbstractEvent) : Prop :=
  ∃ slots parts, slotsOf start width steps = .ok slots ∧ slots.map Slot.step = StepOf.replicated steps ∧
    Tiles start.value slots (start.value + width.value) ∧
    (∀ slot ∈ slots, slot.width.value * StepOf.sumWeights steps = slot.step.weight * width.value) ∧
    Visited evalSlot slots parts ∧ events = parts.flatten

theorem evalSeq_partitions (extent : Extent start width)
    {events : List AbstractEvent} (done : evalSeq steps start width = .ok events) :
    Partitions steps start width events := by
  simp only [evalSeq, bind_ok] at done
  obtain ⟨parts, visited, done⟩ := done
  cases done
  obtain ⟨slots, laid, visits⟩ := visitSlots_visited visited
  obtain ⟨occupied, tiles, widths⟩ := slotsOf_tiles extent laid
  exact ⟨slots, parts, laid, occupied, tiles, widths, visits, rfl⟩

/-- The events of a term that evaluates lie inside the cycle, and so do those of all its parts, exactly when no end
    of an event overflows back into the cycle; the slots of every sequence partition its extent. -/
theorem widths_partition (expr : PatternExpr) (cycleIndex : U64) (events : List AbstractEvent)
    (done : evalNorm expr cycleIndex = .ok events) :
    (WindowsFit expr cycleIndex → ∀ event ∈ events, 0 ≤ event.position.value ∧ 0 < event.width.value ∧
      event.position.value + event.width.value ≤ 1) ∧
    (PartsWithin expr cycleIndex ↔ WindowsFit expr cycleIndex) ∧
    ∀ steps start width played, Extent start width → evalSeq steps start width = .ok played →
      Partitions steps start width played := by
  refine ⟨fun fits event member => ?_, partsWithin_iff expr cycleIndex events done,
    fun steps start width played extent done => evalSeq_partitions extent done⟩
  obtain ⟨low, positive, high⟩ := evalNorm_within expr cycleIndex fits events done event member
  exact ⟨low, positive, high⟩

def named (binding : Text) (width : Ratio) : Step := { Step.plain (.name binding none) with width }

def silent (width : Ratio) : Step := { Step.plain .rest with width }

theorem exists_of_isOk {evaluated : Eval α} (done : evaluated.isOk = true) :
    ∃ result, evaluated = .ok result := by
  cases evaluated with
  | error stop => cases done
  | ok result => exact ⟨result, rfl⟩

def twoSteps : PatternExpr := .seq [named ['a'] ⟨2, 1⟩, named ['b'] ⟨1, 3⟩]

theorem two_steps_partition :
    ∃ events, evalNorm twoSteps 0 = .ok events ∧ ∀ event ∈ events, 0 ≤ event.position.value ∧ 0 < event.width.value ∧
      event.position.value + event.width.value ≤ 1 := by
  obtain ⟨events, done⟩ := exists_of_isOk (show (evalNorm twoSteps 0).isOk = true by decide +kernel)
  exact ⟨events, done, (widths_partition twoSteps 0 events done).1 (by rw [twoSteps, WindowsFit]; trivial)⟩

/-- Four steps whose places have denominators of nearly 64 bits, slowed five times. -/
def wideWindow : PatternExpr :=
  .slow 5 (.seq [named ['a'] ⟨558758209, 1⟩, named ['b'] ⟨816661399, 1⟩, silent ⟨1845805866, 1⟩,
    silent ⟨1073741830, 4294967293⟩])

/-- Whether an evaluation succeeds with an event that ends beyond the cycle. -/
def escapes : Eval (List AbstractEvent) → Bool
  | .ok events => events.any fun event =>
    event.position.denominator.val * event.width.denominator.val < Rational.crossSum event.position event.width
  | .error _ => false

theorem exists_of_escapes {evaluated : Eval (List AbstractEvent)} (found : escapes evaluated = true) :
    ∃ events event, evaluated = .ok events ∧ event ∈ events ∧ 1 < event.position.value + event.width.value := by
  cases evaluated with
  | error stop => cases found
  | ok events =>
    obtain ⟨event, member, beyond⟩ := any_eq_true.mp found
    refine ⟨events, event, rfl, member, ?_⟩
    have positive : (0 : ℚ) < event.position.denominator.val * event.width.denominator.val :=
      mul_pos event.position.denominator_pos event.width.denominator_pos
    have scaled := crossSum_value event.position event.width
    have larger : (event.position.denominator.val * event.width.denominator.val : ℚ) <
        crossSum event.position event.width := by exact_mod_cast of_decide_eq_true beyond
    rw [scaled] at larger
    by_contra short
    exact absurd larger (not_lt.mpr (mul_le_of_le_one_left positive.le (not_lt.mp short)))

/-- The second event ends at about 2.13 cycles, which the overflow makes 0.36. -/
theorem wide_window_overflows :
    ∃ events event, evalNorm wideWindow 0 = .ok events ∧ event ∈ events ∧
      1 < event.position.value + event.width.value :=
  exists_of_escapes (by decide +kernel)

end Audec.PatternLang

import Audec.Lib.GuardedStore
import Audec.Sequencer.History

/-! The sequencer as a keyed store: a command is a guarded put, and the checks do not tell equal contents apart. -/

open Machine Checked GuardedStore FloatEquality PartialEquality Entries
open Std (ExtTreeMap)

namespace Audec.PatternLang

open StepEvent

theorem StepEvent.beq_iff (a b : StepEvent) : (a == b) = true ↔ (a.velocity == b.velocity) = true ∧
    (a.probability == b.probability) = true ∧ a.microOffset = b.microOffset ∧ a.gate = b.gate ∧ a.ratchets = b.ratchets ∧
    (a.pitchSemitones == b.pitchSemitones) = true ∧ (a.pan == b.pan) = true := by
  cases a
  cases b
  change instBEqStepEvent.beq _ _ = true ↔ _
  simp [instBEqStepEvent.beq]

instance : PartialEquivBEq StepEvent where
  symm same := by
    rw [StepEvent.beq_iff] at same ⊢
    grind [BEq.symm]
  trans first second := by
    rw [StepEvent.beq_iff] at first second ⊢
    grind [BEq.trans]

theorem StepLane.beq_iff (a b : StepLane) : (a == b) = true ↔ a.id = b.id ∧ a.name = b.name ∧ a.target = b.target ∧
    a.chokeGroup = b.chokeGroup ∧ (a.steps.toList == b.steps.toList) = true := by
  change (_ && _) = true ↔ _
  simp [and_assoc]

instance : PartialEquivBEq StepLane where
  symm same := by
    rw [StepLane.beq_iff] at same ⊢
    grind [BEq.symm]
  trans first second := by
    rw [StepLane.beq_iff] at first second ⊢
    grind [BEq.trans]

theorem StepPattern.beq_iff (a b : StepPattern) : (a == b) = true ↔ a.resolution = b.resolution ∧
    (a.swing == b.swing) = true ∧ (a.lanes.toList == b.lanes.toList) = true := by
  change (_ && _) = true ↔ _
  simp [and_assoc]

instance : PartialEquivBEq StepPattern where
  symm same := by
    rw [StepPattern.beq_iff] at same ⊢
    grind [BEq.symm]
  trans first second := by
    rw [StepPattern.beq_iff] at first second ⊢
    grind [BEq.trans]

end Audec.PatternLang

namespace Audec.Sequencer

open PatternLang

theorem ExpressionPoint.beq_iff (a b : ExpressionPoint) : (a == b) = true ↔ (a.position == b.position) = true ∧
    (a.value == b.value) = true := by
  cases a
  cases b
  change instBEqExpressionPoint.beq _ _ = true ↔ _
  simp [instBEqExpressionPoint.beq]

theorem PerNoteExpression.beq_iff (a b : PerNoteExpression) : (a == b) = true ↔ (a.pitchCents == b.pitchCents) = true ∧
    (a.pressure == b.pressure) = true ∧ (a.timbre == b.timbre) = true := by
  cases a
  cases b
  change instBEqPerNoteExpression.beq _ _ = true ↔ _
  simp [instBEqPerNoteExpression.beq]

theorem NotePitch.beq_iff (a b : NotePitch) : (a == b) = true ↔ a.midiKey = b.midiKey ∧ (a.cents == b.cents) = true := by
  cases a
  cases b
  change instBEqNotePitch.beq _ _ = true ↔ _
  simp [instBEqNotePitch.beq]

theorem NoteEvent.beq_iff (a b : NoteEvent) : (a == b) = true ↔ a.id = b.id ∧ a.start = b.start ∧ a.duration = b.duration ∧
    (a.pitch == b.pitch) = true ∧ (a.velocity == b.velocity) = true ∧ (a.releaseVelocity == b.releaseVelocity) = true ∧
    (a.pan == b.pan) = true ∧ (a.probability == b.probability) = true ∧ a.microOffset = b.microOffset ∧
    a.channel = b.channel ∧ a.instrument = b.instrument ∧ a.articulation = b.articulation ∧
    (a.expression == b.expression) = true := by
  cases a
  cases b
  change instBEqNoteEvent.beq _ _ = true ↔ _
  simp [instBEqNoteEvent.beq]

theorem PatternDefinition.beq_iff (a b : PatternDefinition) : (a == b) = true ↔ a.id = b.id ∧ a.name = b.name ∧
    a.length = b.length ∧ (a.content == b.content) = true ∧ a.origin = b.origin ∧ a.revision = b.revision := by
  cases a
  cases b
  change instBEqPatternDefinition.beq _ _ = true ↔ _
  simp [instBEqPatternDefinition.beq]

theorem PatternClip.beq_iff (a b : PatternClip) : (a == b) = true ↔ a.id = b.id ∧ a.pattern = b.pattern ∧ a.start = b.start ∧
    a.length = b.length ∧ a.patternOffset = b.patternOffset ∧ a.looped = b.looped ∧
    (a.transposeSemitones == b.transposeSemitones) = true ∧ (a.gain == b.gain) = true ∧ a.muted = b.muted := by
  cases a
  cases b
  change instBEqPatternClip.beq _ _ = true ↔ _
  simp [instBEqPatternClip.beq]

instance : PartialEquivBEq ExpressionPoint where
  symm same := by
    rw [ExpressionPoint.beq_iff] at same ⊢
    exact ⟨BEq.symm same.1, BEq.symm same.2⟩
  trans first second := by
    rw [ExpressionPoint.beq_iff] at first second ⊢
    exact ⟨BEq.trans first.1 second.1, BEq.trans first.2 second.2⟩

instance : PartialEquivBEq PerNoteExpression where
  symm same := by
    rw [PerNoteExpression.beq_iff] at same ⊢
    exact ⟨BEq.symm same.1, BEq.symm same.2.1, BEq.symm same.2.2⟩
  trans first second := by
    rw [PerNoteExpression.beq_iff] at first second ⊢
    exact ⟨BEq.trans first.1 second.1, BEq.trans first.2.1 second.2.1, BEq.trans first.2.2 second.2.2⟩

instance : PartialEquivBEq NotePitch where
  symm same := by
    rw [NotePitch.beq_iff] at same ⊢
    exact ⟨same.1.symm, BEq.symm same.2⟩
  trans first second := by
    rw [NotePitch.beq_iff] at first second ⊢
    exact ⟨first.1.trans second.1, BEq.trans first.2 second.2⟩

instance : PartialEquivBEq NoteEvent where
  symm same := by
    rw [NoteEvent.beq_iff] at same ⊢
    grind [BEq.symm]
  trans first second := by
    rw [NoteEvent.beq_iff] at first second ⊢
    grind [BEq.trans]

instance : PartialEquivBEq NotePattern where
  symm {a b} same := BEq.symm (a := a.notes.toList) (b := b.notes.toList) same
  trans {a b c} first second := BEq.trans (a := a.notes.toList) (b := b.notes.toList) (c := c.notes.toList) first second

instance : PartialEquivBEq PatternContent where
  symm {a b} same := by
    cases a <;> cases b
    case notes.notes a b => exact BEq.symm (α := NotePattern) same
    case steps.steps a b => exact BEq.symm (α := StepPattern) same
    all_goals cases same
  trans {a b c} first second := by
    cases a <;> cases b <;> cases c
    case notes.notes.notes a b c => exact BEq.trans (α := NotePattern) first second
    case steps.steps.steps a b c => exact BEq.trans (α := StepPattern) first second
    all_goals try cases first
    all_goals cases second

instance : PartialEquivBEq PatternDefinition where
  symm same := by
    rw [PatternDefinition.beq_iff] at same ⊢
    grind [BEq.symm]
  trans first second := by
    rw [PatternDefinition.beq_iff] at first second ⊢
    grind [BEq.trans]

instance : PartialEquivBEq PatternClip where
  symm same := by
    rw [PatternClip.beq_iff] at same ⊢
    grind [BEq.symm]
  trans first second := by
    rw [PatternClip.beq_iff] at first second ⊢
    grind [BEq.trans]

end Audec.Sequencer

/-! The checks of patterns and clips do not tell equal contents apart, and what passes them equals itself. -/

namespace Audec.Sequencer

open PatternLang

section Floats

variable {a b : Float32} (same : (a == b) = true)

include same

theorem isUnit_congr (valid : isUnit a = true) : isUnit b = true := by
  simp only [isUnit, Bool.and_eq_true, decide_eq_true_eq] at valid ⊢
  have zero : ((0.0 : Float32) == 0.0) = true := float32_beq_self (by decide)
  have one : ((1.0 : Float32) == 1.0) = true := float32_beq_self (by decide)
  exact ⟨⟨(float32_isFinite_congr same).symm.trans valid.1.1, (float32_le_congr zero same).mp valid.1.2⟩,
    (float32_le_congr same one).mp valid.2⟩

theorem bipolar_congr (valid : bipolar a = true) : bipolar b = true := by
  simp only [bipolar, Bool.and_eq_true, decide_eq_true_eq] at valid ⊢
  have low : ((-1.0 : Float32) == -1.0) = true := float32_beq_self (by decide)
  have one : ((1.0 : Float32) == 1.0) = true := float32_beq_self (by decide)
  exact ⟨⟨(float32_isFinite_congr same).symm.trans valid.1.1, (float32_le_congr low same).mp valid.1.2⟩,
    (float32_le_congr same one).mp valid.2⟩

theorem finite_congr (valid : a.isFinite = true) : b.isFinite = true := (float32_isFinite_congr same).symm.trans valid

end Floats

variable {a : Float32} {curve : List ExpressionPoint} {note : NoteEvent} {event : StepEvent}

theorem isUnit_self (valid : isUnit a = true) : (a == a) = true := by
  simp only [isUnit, Bool.and_eq_true] at valid
  exact float32_beq_self valid.1.1

theorem bipolar_self (valid : bipolar a = true) : (a == a) = true := by
  simp only [bipolar, Bool.and_eq_true] at valid
  exact float32_beq_self valid.1.1

/-! ### Notes -/

theorem validCurve_iff : validCurve curve = true ↔
    (∀ point ∈ curve, isUnit point.position = true ∧ point.value.isFinite = true) ∧
      ∀ pair ∈ curve.zip curve.tail, pair.1.position ≤ pair.2.position := by
  simp only [validCurve, Bool.and_eq_true, List.all_eq_true, decide_eq_true_eq]

theorem validCurve_congr {a b : List ExpressionPoint} (same : (a == b) = true) (valid : validCurve a = true) :
    validCurve b = true := by
  rw [validCurve_iff] at valid ⊢
  obtain ⟨points, ordered⟩ := valid
  constructor
  · refine all_congr same (fun point other equal held => ?_) points
    obtain ⟨position, value⟩ := (ExpressionPoint.beq_iff _ _).mp equal
    exact ⟨isUnit_congr position held.1, finite_congr value held.2⟩
  · refine all_congr (zip_congr same (tail_congr same)) (fun pair other equal held => ?_) ordered
    obtain ⟨first, second⟩ := prod_beq_iff.mp equal
    exact (float32_le_congr ((ExpressionPoint.beq_iff _ _).mp first).1 ((ExpressionPoint.beq_iff _ _).mp second).1).mp held

theorem validCurve_self (valid : validCurve curve = true) : (curve == curve) = true := by
  refine list_beq_self fun point member => ?_
  obtain ⟨position, value⟩ := (validCurve_iff.mp valid).1 point member
  exact (ExpressionPoint.beq_iff _ _).mpr ⟨isUnit_self position, float32_beq_self value⟩

theorem validExpression_iff {expression : PerNoteExpression} : validExpression expression = true ↔
    validCurve expression.pitchCents = true ∧ validCurve expression.pressure = true ∧ validCurve expression.timbre = true := by
  simp [validExpression]

theorem validExpression_congr {a b : PerNoteExpression} (same : (a == b) = true) (valid : validExpression a = true) :
    validExpression b = true := by
  rw [validExpression_iff] at valid ⊢
  obtain ⟨cents, pressure, timbre⟩ := (PerNoteExpression.beq_iff _ _).mp same
  exact ⟨validCurve_congr cents valid.1, validCurve_congr pressure valid.2.1, validCurve_congr timbre valid.2.2⟩

theorem NoteEvent.isValid_iff : note.isValid = true ↔ 0 ≤ note.start.val ∧ note.duration ≠ 0 ∧
    isUnit note.velocity = true ∧ isUnit note.releaseVelocity = true ∧ isUnit note.probability = true ∧
    bipolar note.pan = true ∧ note.pitch.cents.isFinite = true ∧ note.channel.val ≤ 15 ∧
    validExpression note.expression = true := by
  simp [NoteEvent.isValid, and_assoc]

theorem NoteEvent.isValid_congr {a b : NoteEvent} (same : (a == b) = true) (valid : a.isValid = true) :
    b.isValid = true := by
  rw [NoteEvent.isValid_iff] at valid ⊢
  obtain ⟨start, duration, velocity, release, probability, pan, cents, channel, expression⟩ := valid
  obtain ⟨-, starts, durations, pitches, velocities, releases, pans, probabilities, -, channels, -, -, expressions⟩ :=
    (NoteEvent.beq_iff _ _).mp same
  obtain ⟨-, pitches⟩ := (NotePitch.beq_iff _ _).mp pitches
  exact ⟨starts ▸ start, durations ▸ duration, isUnit_congr velocities velocity, isUnit_congr releases release,
    isUnit_congr probabilities probability, bipolar_congr pans pan, finite_congr pitches cents, channels ▸ channel,
    validExpression_congr expressions expression⟩

theorem NoteEvent.isValid_self (valid : note.isValid = true) : (note == note) = true := by
  obtain ⟨-, -, velocity, release, probability, pan, cents, -, expression⟩ := NoteEvent.isValid_iff.mp valid
  obtain ⟨pitch, pressure, timbre⟩ := validExpression_iff.mp expression
  rw [NoteEvent.beq_iff, NotePitch.beq_iff, PerNoteExpression.beq_iff]
  exact ⟨rfl, rfl, rfl, ⟨rfl, float32_beq_self cents⟩, isUnit_self velocity, isUnit_self release, bipolar_self pan,
    isUnit_self probability, rfl, rfl, rfl, rfl, validCurve_self pitch, validCurve_self pressure, validCurve_self timbre⟩

/-! ### Steps -/

theorem StepEvent.isValid_iff : isValid event = true ↔ isUnit event.velocity = true ∧
    isUnit event.probability = true ∧ bipolar event.pan = true ∧ event.pitchSemitones.isFinite = true ∧
    0 < event.ratchets.val := by
  simp [isValid, and_assoc]

theorem StepEvent.isValid_congr {a b : StepEvent} (same : (a == b) = true) (valid : isValid a = true) :
    isValid b = true := by
  rw [isValid_iff] at valid ⊢
  obtain ⟨velocity, probability, pan, pitch, ratchets⟩ := valid
  obtain ⟨velocities, probabilities, -, -, ratchets', pitches, pans⟩ := (StepEvent.beq_iff _ _).mp same
  exact ⟨isUnit_congr velocities velocity, isUnit_congr probabilities probability, bipolar_congr pans pan,
    finite_congr pitches pitch, ratchets' ▸ ratchets⟩

theorem StepEvent.isValid_self (valid : isValid event = true) : (event == event) = true := by
  obtain ⟨velocity, probability, pan, pitch, -⟩ := isValid_iff.mp valid
  exact (StepEvent.beq_iff _ _).mpr ⟨isUnit_self velocity, isUnit_self probability, rfl, rfl, rfl, float32_beq_self pitch,
    bipolar_self pan⟩

/-! ### Patterns -/

namespace PatternContent

variable {id : PatternId} {length resolution : U64}

theorem validateNote_ok {key : NoteId} {note : NoteEvent} : validateNote id length key note = .ok () ↔
    (key = note.id ∧ note.start.val < (I64.wrap length.val).val) ∧ note.isValid = true := by
  simp only [validateNote, NoteEvent.validate, bind_unit_ok, ensure_ok, not_or, not_not, not_le]

theorem validateLane_ok {key : StepLaneId} {lane : StepLane} : validateLane id length resolution key lane = .ok () ↔
    key = lane.id ∧ ∀ entry ∈ lane.steps.toList, entry.1.val * resolution.val < length.val ∧
      StepEvent.isValid entry.2 = true := by
  simp only [validateLane, bind_unit_ok, ensure_ok, forM_ok, not_or, not_not, not_le]

theorem validate_notes {pattern : NotePattern} : validate id length (.notes pattern) = .ok () ↔
    ∀ entry ∈ pattern.notes.toList, (entry.1 = entry.2.id ∧ entry.2.start.val < (I64.wrap length.val).val) ∧
      entry.2.isValid = true := by
  simp only [validate, forM_ok, validateNote_ok]

theorem validate_steps {pattern : StepPattern} : validate id length (.steps pattern) = .ok () ↔
    (pattern.resolution ≠ 0 ∧ isUnit pattern.swing = true) ∧ ∀ entry ∈ pattern.lanes.toList, entry.1 = entry.2.id ∧
      ∀ step ∈ entry.2.steps.toList, step.1.val * pattern.resolution.val < length.val ∧ StepEvent.isValid step.2 = true := by
  simp only [validate, bind_unit_ok, ensure_ok, forM_ok, validateLane_ok, not_or, not_not, ne_eq]

theorem isSteps_congr {a b : PatternContent} (same : (a == b) = true) : a.isSteps = b.isSteps := by
  cases a <;> cases b
  case notes.notes => rfl
  case steps.steps => rfl
  all_goals cases same

theorem validate_congr {a b : PatternContent} (same : (a == b) = true) (valid : a.validate id length = .ok ()) :
    b.validate id length = .ok () := by
  cases a <;> cases b
  case notes.notes a b =>
    have same : (a.notes.toList == b.notes.toList) = true := same
    rw [validate_notes] at valid ⊢
    refine all_congr same (fun entry other equal held => ?_) valid
    obtain ⟨keys, notes⟩ := prod_beq_iff.mp equal
    obtain ⟨ids, starts, -⟩ := (NoteEvent.beq_iff _ _).mp notes
    rw [← beq_iff_eq.mp keys, ← ids, ← starts]
    exact ⟨held.1, NoteEvent.isValid_congr notes held.2⟩
  case steps.steps a b =>
    obtain ⟨resolutions, swings, lanes⟩ := (StepPattern.beq_iff a b).mp same
    rw [validate_steps] at valid ⊢
    obtain ⟨⟨resolution, swing⟩, all⟩ := valid
    rw [← resolutions]
    refine ⟨⟨resolution, isUnit_congr swings swing⟩, all_congr lanes (fun entry other equal held => ?_) all⟩
    obtain ⟨keys, lanes⟩ := prod_beq_iff.mp equal
    obtain ⟨ids, -, -, -, steps⟩ := (StepLane.beq_iff _ _).mp lanes
    rw [← beq_iff_eq.mp keys, ← ids]
    refine ⟨held.1, all_congr steps (fun step other equal held => ?_) held.2⟩
    obtain ⟨keys, events⟩ := prod_beq_iff.mp equal
    rw [← beq_iff_eq.mp keys]
    exact ⟨held.1, StepEvent.isValid_congr events held.2⟩
  all_goals cases same

theorem validate_self {content : PatternContent} (valid : content.validate id length = .ok ()) :
    (content == content) = true := by
  cases content with
  | notes pattern =>
    rw [validate_notes] at valid
    have notes : (pattern.notes.toList == pattern.notes.toList) = true := by
      refine list_beq_self fun entry member => ?_
      exact prod_beq_iff.mpr ⟨beq_self_eq_true _, NoteEvent.isValid_self (valid entry member).2⟩
    exact notes
  | steps pattern =>
    rw [validate_steps] at valid
    refine (StepPattern.beq_iff pattern pattern).mpr ⟨rfl, isUnit_self valid.1.2, list_beq_self fun entry member => ?_⟩
    have lane : (entry.2 == entry.2) = true := by
      refine (StepLane.beq_iff _ _).mpr ⟨rfl, rfl, rfl, rfl, list_beq_self fun step inside => ?_⟩
      exact prod_beq_iff.mpr ⟨beq_self_eq_true _, StepEvent.isValid_self ((valid.2 entry member).2 step inside).2⟩
    exact prod_beq_iff.mpr ⟨beq_self_eq_true _, lane⟩

end PatternContent

namespace PatternDefinition

theorem validate_congr {a b : PatternDefinition} (same : (a == b) = true) (valid : a.validate = .ok ()) :
    b.validate = .ok () := by
  obtain ⟨ids, -, lengths, contents, origins, -⟩ := (PatternDefinition.beq_iff _ _).mp same
  simp only [validate, bind_unit_ok, lift_ok] at valid ⊢
  rw [← ids, ← lengths, ← origins, ← PatternContent.isSteps_congr contents]
  exact ⟨valid.1, valid.2.1, PatternContent.validate_congr contents valid.2.2⟩

theorem validate_self {definition : PatternDefinition} (valid : definition.validate = .ok ()) :
    (definition == definition) = true := by
  simp only [validate, bind_unit_ok, lift_ok] at valid
  exact (PatternDefinition.beq_iff _ _).mpr ⟨rfl, rfl, rfl, PatternContent.validate_self valid.2.2, rfl, rfl⟩

end PatternDefinition

namespace PatternClip

variable {clip : PatternClip}

theorem isValid_iff : clip.isValid = true ↔ clip.length ≠ 0 ∧
    clip.length.val ≤ 0x7fffffffffffffff ∧ clip.start < clip.stop ∧ 0 ≤ clip.patternOffset.val ∧
    clip.transposeSemitones.isFinite = true ∧ clip.gain.isFinite = true ∧ ¬ clip.gain < 0.0 := by
  simp [isValid, and_assoc]

theorem isValid_congr {a b : PatternClip} (same : (a == b) = true) (valid : a.isValid = true) : b.isValid = true := by
  obtain ⟨-, -, starts, lengths, offsets, -, transposes, gains, -⟩ := (PatternClip.beq_iff _ _).mp same
  rw [isValid_iff] at valid ⊢
  obtain ⟨length, short, ordered, offset, transpose, gain, positive⟩ := valid
  have zero : ((0.0 : Float32) == 0.0) = true := float32_beq_self (by decide)
  have stops : a.stop = b.stop := by rw [stop, stop, starts, lengths]
  rw [← starts, ← lengths, ← offsets, ← stops]
  exact ⟨length, short, ordered, offset, finite_congr transposes transpose, finite_congr gains gain,
    fun below => positive ((float32_lt_congr gains zero).mpr below)⟩

theorem isValid_self (valid : clip.isValid = true) : (clip == clip) = true := by
  obtain ⟨-, -, -, -, transpose, gain, -⟩ := isValid_iff.mp valid
  exact (PatternClip.beq_iff _ _).mpr ⟨rfl, rfl, rfl, rfl, rfl, rfl, float32_beq_self transpose, float32_beq_self gain, rfl⟩

end PatternClip

end Audec.Sequencer

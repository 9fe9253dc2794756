import Audec.PatternLang.Parse
import Audec.PatternLang.Realize
import Audec.Sequencer.TempoMap

/-! Pattern definitions and the clips that place them, with the checks that both must pass. -/

namespace Audec.PatternLang

open Machine FloatDebug
open Std (ExtTreeMap)

deriving instance BEq for StepEvent

abbrev TermHash := BitVec 128

def fnv1a128 (bytes : List UInt8) : TermHash :=
  bytes.foldl (fun hash byte => (hash ^^^ BitVec.ofNat 128 byte.toNat) * 0x0000000001000000000000000000013b#128)
    0x6c62272e07bb014262b821756295c58d#128

def utf8 (text : Text) : List UInt8 := text.flatMap String.utf8EncodeChar

def termHash (expr : PatternExpr) : TermHash := fnv1a128 (utf8 (print 1.0e-5 expr))

/-- `{:?}` of a target. -/
def TriggerTarget.debug : TriggerTarget → Text
  | .instrumentNote instrument key =>
    "InstrumentNote \x7b instrument: ".toList ++ Nat.toDigits 10 instrument.val ++ ", key: ".toList ++
      Nat.toDigits 10 key.val ++ " \x7d".toList
  | .drumPad rack pad =>
    "DrumPad \x7b rack: ".toList ++ Nat.toDigits 10 rack.val ++ ", pad: ".toList ++ Nat.toDigits 10 pad.val ++
      " \x7d".toList
  | .sample asset => "Sample(SampleAssetId(".toList ++ Nat.toDigits 10 asset.val ++ "))".toList
  | .analysisTemplate index => "AnalysisTemplate(".toList ++ Nat.toDigits 10 index.val ++ [')']

def bindingsHash (bindings : ExtTreeMap Text TriggerTarget) : TermHash :=
  fnv1a128 (utf8 (bindings.toList.flatMap fun entry => entry.1 ++ '=' :: (entry.2.debug ++ [';'])))

end Audec.PatternLang

namespace Audec.Sequencer

open Machine Checked FloatDebug PatternLang
open Std (ExtTreeMap)

abbrev PatternId := U64
abbrev PatternClipId := U64
abbrev NoteId := U64
abbrev StepLaneId := U64

/-- The bindings of an expression; their number is a `usize`. -/
structure BindingTable where
  entries : ExtTreeMap Text TriggerTarget
  countable : entries.size < 0x10000000000000000

instance : DecidableEq BindingTable := fun a b =>
  decidable_of_iff (a.entries = b.entries) (by cases a; cases b; simp)

inductive PatternOrigin where
  | authored
  | expression (source : Text) (termHash bindingsHash : TermHash) (bindings : BindingTable) (diverged : Bool)
  | deprojected (proposal : U64) (diverged : Bool)
  deriving DecidableEq

structure NotePitch where
  midiKey : Fin 0x100
  cents : Float32
  deriving BEq

inductive Articulation where
  | normal | staccato | tenuto | legato | accent
  | named (name : String)
  deriving DecidableEq

structure ExpressionPoint where
  position : Float32
  value : Float32
  deriving BEq

structure PerNoteExpression where
  pitchCents : List ExpressionPoint
  pressure : List ExpressionPoint
  timbre : List ExpressionPoint
  deriving BEq

structure NoteEvent where
  id : NoteId
  start : BeatTime
  duration : U64
  pitch : NotePitch
  velocity : Float32
  releaseVelocity : Float32
  pan : Float32
  probability : Float32
  microOffset : I32
  channel : Fin 0x100
  instrument : Option U64
  articulation : Articulation
  expression : PerNoteExpression
  deriving BEq

structure NotePattern where
  notes : ExtTreeMap NoteId NoteEvent

/-- Maps are compared entry by entry, in the order of their keys. -/
instance : BEq NotePattern := ⟨fun a b => a.notes.toList == b.notes.toList⟩

instance : BEq StepLane := ⟨fun a b =>
  a.id == b.id && a.name == b.name && a.target == b.target && a.chokeGroup == b.chokeGroup && a.steps.toList == b.steps.toList⟩

instance : BEq StepPattern := ⟨fun a b =>
  a.resolution == b.resolution && a.swing == b.swing && a.lanes.toList == b.lanes.toList⟩

inductive PatternContent where
  | notes (pattern : NotePattern)
  | steps (pattern : StepPattern)
  deriving BEq

structure PatternDefinition where
  id : PatternId
  name : String
  length : U64
  content : PatternContent
  origin : PatternOrigin
  revision : U64
  deriving BEq

structure PatternClip where
  id : PatternClipId
  pattern : PatternId
  start : BeatTime
  length : U64
  patternOffset : BeatTime
  looped : Bool
  transposeSemitones : Float32
  gain : Float32
  muted : Bool
  deriving BEq

def isUnit (value : Float32) : Bool := value.isFinite && decide (0.0 ≤ value) && decide (value ≤ 1.0)

def bipolar (value : Float32) : Bool := value.isFinite && decide (-1.0 ≤ value) && decide (value ≤ 1.0)

def validCurve (curve : List ExpressionPoint) : Bool :=
  (curve.all fun point => isUnit point.position && point.value.isFinite) &&
    (curve.zip curve.tail).all fun pair => decide (pair.1.position ≤ pair.2.position)

def validExpression (expression : PerNoteExpression) : Bool :=
  [expression.pitchCents, expression.pressure, expression.timbre].all validCurve

def NoteEvent.isValid (note : NoteEvent) : Bool :=
  !(decide (note.start.val < 0) || note.duration == 0 || !isUnit note.velocity || !isUnit note.releaseVelocity ||
    !isUnit note.probability || !bipolar note.pan || !note.pitch.cents.isFinite || decide (15 < note.channel.val) ||
    !validExpression note.expression)

def NoteEvent.validate (note : NoteEvent) : Except SequencerError Unit := ensure (note.isValid = true) (.invalidNote note.id)

def StepEvent.isValid (event : StepEvent) : Bool :=
  isUnit event.velocity && isUnit event.probability && bipolar event.pan && event.pitchSemitones.isFinite &&
    decide (0 < event.ratchets.val)

namespace PatternContent

def isSteps : PatternContent → Bool
  | .notes _ => false
  | .steps _ => true

def validateNote (id : PatternId) (length : U64) (key : NoteId) (note : NoteEvent) : Except SequencerError Unit := do
  ensure (¬ (key ≠ note.id ∨ (I64.wrap length.val).val ≤ note.start.val)) (.invalidPattern id)
  note.validate

def validateLane (id : PatternId) (length resolution : U64) (key : StepLaneId) (lane : StepLane) :
    Except SequencerError Unit := do
  ensure (key = lane.id) (.invalidPattern id)
  lane.steps.toList.forM fun entry =>
    ensure (¬ (length.val ≤ entry.1.val * resolution.val ∨ ¬ StepEvent.isValid entry.2 = true)) (.invalidPattern id)

def validate (id : PatternId) (length : U64) : PatternContent → Except SequencerError Unit
  | .notes pattern => pattern.notes.toList.forM fun entry => validateNote id length entry.1 entry.2
  | .steps pattern => do
    ensure (¬ (pattern.resolution = 0 ∨ ¬ isUnit pattern.swing = true)) (.invalidPattern id)
    pattern.lanes.toList.forM fun entry => validateLane id length pattern.resolution entry.1 entry.2

end PatternContent

/-- The result of a function whose own error is replaced. -/
def orInvalid {ε α : Type} (error : SequencerError) : Except (Stop ε) α → Except (Stop SequencerError) α
  | .ok value => .ok value
  | .error (.error _) => .error (.error error)
  | .error .panic => .error .panic

def parseOr (error : SequencerError) (source : Text) : Except (Stop SequencerError) PatternExpr :=
  match parse source with
  | .ok term => .ok term
  | .err _ => .error (.error error)
  | _ => .error .panic

def PatternOrigin.validate (id : PatternId) (length : U64) (steps : Bool) :
    PatternOrigin → Except (Stop SequencerError) Unit
  | .expression source hash tableHash bindings _ => do
    let term ← parseOr (.invalidPattern id) source
    ensure (¬ (termHash term ≠ hash ∨ bindingsHash bindings.entries ≠ tableHash ∨
      ¬ ((referencedBindings term).toList.all fun name => bindings.entries[name]?.isSome) = true ∨ steps = false))
      (.error (.invalidPattern id))
    let _ ← orInvalid (.invalidPattern id) (evalSteps term ⟨bindings.entries, length, 0, bindings.countable⟩)
    return ()
  | _ => .ok ()

namespace PatternDefinition

def validate (definition : PatternDefinition) : Except (Stop SequencerError) Unit := do
  ensure (¬ (definition.length = 0 ∨ 0x7fffffffffffffff < definition.length.val)) (.error (.invalidPattern definition.id))
  definition.origin.validate definition.id definition.length definition.content.isSteps
  lift (definition.content.validate definition.id definition.length)

end PatternDefinition

namespace PatternClip

def stop (clip : PatternClip) : BeatTime := I64.saturate (clip.start.val + min clip.length.val 0x7fffffffffffffff)

def isValid (clip : PatternClip) : Bool :=
  !(clip.length == 0 || decide (0x7fffffffffffffff < clip.length.val) || decide (clip.stop ≤ clip.start) ||
    decide (clip.patternOffset.val < 0) || !clip.transposeSemitones.isFinite || !clip.gain.isFinite ||
    decide (clip.gain < 0.0))

def validate (clip : PatternClip) : Except SequencerError Unit := ensure (clip.isValid = true) (.invalidClip clip.id)

end PatternClip

end Audec.Sequencer

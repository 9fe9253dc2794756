import Audec.Lib.SortedSlice
import Audec.Lib.Checked
import Audec.Lib.Machine
import Audec.Lib.Runs

/-! The tempo map: step tempos and meters on signed ticks, their editors, and the conversions between
    ticks, frames and bars. -/

open Machine Checked SortedSlice

namespace Audec.Sequencer

abbrev U16 := Fin 0x10000

/-- Ticks per quarter note. -/
def ppq : Int := 960

def microsPerSecond : Int := 1000000

abbrev BeatTime := I64

abbrev ProjectFrame := I64

structure Tempo where
  microsPerQuarter : U32
  deriving DecidableEq

structure TimeSignature where
  numerator : U16
  denominator : U16
  deriving DecidableEq

structure TempoPoint where
  at' : BeatTime
  tempo : Tempo
  deriving DecidableEq

structure MeterPoint where
  at' : BeatTime
  signature : TimeSignature
  deriving DecidableEq

structure MusicalPosition where
  bar : I64
  beat : U16
  tick : U16
  deriving DecidableEq

inductive SequencerError where
  | invalidSampleRate
  | invalidTempo
  | invalidTimeSignature
  | mapPointBeforeZero
  | mapOriginNotRemovable
  | noMapPointAt (at' : BeatTime)
  | missingMapOrigin
  | meterChangeNotAtBar
  | invalidMusicalPosition
  | invalidPattern (id : U64)
  | missingPattern (id : U64)
  | invalidClip (id : U64)
  | invalidNote (id : U64)
  | emptyCommand
  | staleCommand
  deriving DecidableEq

def Tempo.validate (tempo : Tempo) : Except SequencerError Unit :=
  if tempo.microsPerQuarter.val = 0 then .error .invalidTempo else .ok ()

namespace TimeSignature

def ticksPerBeat (signature : TimeSignature) : Int := (ppq * 4).tdiv signature.denominator.val

def ticksPerBar (signature : TimeSignature) : Int := signature.ticksPerBeat * signature.numerator.val

def isPowerOfTwo (number : U16) : Bool := number.val != 0 && number.val &&& (number.val - 1) == 0

def validate (signature : TimeSignature) : Except SequencerError Unit :=
  if signature.numerator.val = 0 ∨ ¬ isPowerOfTwo signature.denominator ∨ ppq * 4 < signature.denominator.val ∨
      (ppq * 4).tmod signature.denominator.val ≠ 0 then .error .invalidTimeSignature
  else .ok ()

end TimeSignature

/-- The points of a map are sorted, and the first of each kind is at tick zero. -/
structure TempoMap where
  sampleRate : U32
  tempos : List TempoPoint
  meters : List MeterPoint
  deriving DecidableEq

def windows {α : Type} (items : List α) : List (α × α) := items.zip items.tail

def validateMeterBoundaries (points : List MeterPoint) : Except SequencerError Unit := do
  ensure (points.head?.map MeterPoint.at' = some I64.zero) .missingMapOrigin
  (windows points).forM fun pair =>
    ensure (¬ (pair.2.at' ≤ pair.1.at' ∨ (pair.2.at'.val - pair.1.at'.val).tmod pair.1.signature.ticksPerBar ≠ 0)) .meterChangeNotAtBar

namespace TempoMap

def new (sampleRate : U32) (initialTempo : Tempo) (initialMeter : TimeSignature) : Except SequencerError TempoMap := do
  ensure (sampleRate.val ≠ 0) .invalidSampleRate
  initialTempo.validate
  initialMeter.validate
  .ok ⟨sampleRate, [⟨I64.zero, initialTempo⟩], [⟨I64.zero, initialMeter⟩]⟩

def setTempo (map : TempoMap) (at' : BeatTime) (tempo : Tempo) : Except SequencerError TempoMap := do
  ensure (0 ≤ at'.val) .mapPointBeforeZero
  tempo.validate
  match binarySearchByKey map.tempos at' TempoPoint.at' with
  | .ok index => .ok { map with tempos := map.tempos.modify index fun point => { point with tempo } }
  | .error index => .ok { map with tempos := map.tempos.insertIdx index ⟨at', tempo⟩ }

def removeTempo (map : TempoMap) (at' : BeatTime) : Except SequencerError (TempoMap × Option Tempo) := do
  ensure (at' ≠ I64.zero) .mapOriginNotRemovable
  match binarySearchByKey map.tempos at' TempoPoint.at' with
  | .ok index => .ok ({ map with tempos := map.tempos.eraseIdx index }, map.tempos[index]?.map TempoPoint.tempo)
  | .error _ => .error (.noMapPointAt at')

def removeMeter (map : TempoMap) (at' : BeatTime) : Except SequencerError (TempoMap × Option TimeSignature) := do
  ensure (at' ≠ I64.zero) .mapOriginNotRemovable
  match binarySearchByKey map.meters at' MeterPoint.at' with
  | .ok index => do
    let candidate := map.meters.eraseIdx index
    validateMeterBoundaries candidate
    .ok ({ map with meters := candidate }, map.meters[index]?.map MeterPoint.signature)
  | .error _ => .error (.noMapPointAt at')

def meterCandidate (map : TempoMap) (at' : BeatTime) (signature : TimeSignature) : List MeterPoint :=
  match binarySearchByKey map.meters at' MeterPoint.at' with
  | .ok index => map.meters.modify index fun point => { point with signature }
  | .error index => map.meters.insertIdx index ⟨at', signature⟩

def setMeter (map : TempoMap) (at' : BeatTime) (signature : TimeSignature) : Except SequencerError TempoMap := do
  ensure (0 ≤ at'.val) .mapPointBeforeZero
  signature.validate
  let candidate := map.meterCandidate at' signature
  validateMeterBoundaries candidate
  .ok { map with meters := candidate }

end TempoMap

def upperBoundByTick {α : Type} (values : List α) (tick : BeatTime) (key : α → BeatTime) : Nat :=
  partitionPoint values fun value => key value ≤ tick

namespace TempoMap

section

variable (map : TempoMap)

def tempoAt (at' : BeatTime) : Option Tempo := do
  let point ← map.tempos[upperBoundByTick map.tempos at' TempoPoint.at' - 1]?
  some point.tempo

def meterAt (at' : BeatTime) : Option TimeSignature := do
  let point ← map.meters[upperBoundByTick map.meters at' MeterPoint.at' - 1]?
  some point.signature

/-- The first meter point before the origin, and otherwise the last one that has been reached. -/
def meterIndex (at' : BeatTime) : Nat :=
  if at'.val < 0 then 0 else upperBoundByTick map.meters at' MeterPoint.at' - 1

def barStart (at' : BeatTime) : Option BeatTime := do
  let point ← map.meters[map.meterIndex at']?
  let ticksPerBar := point.signature.ticksPerBar
  let relative := at'.val - point.at'.val
  some (I64.saturate (point.at'.val + relative / ticksPerBar * ticksPerBar))

def nextBarStart (at' : BeatTime) : Option BeatTime := do
  let start ← map.barStart at'
  let signature ← map.meterAt start
  some (I64.saturate (start.val + signature.ticksPerBar))

end

end TempoMap

def fitsI64 (number : Int) : Option Int :=
  if -0x8000000000000000 ≤ number ∧ number < 0x8000000000000000 then some number else none

def fitsI128 (number : Int) : Option Int :=
  if -0x80000000000000000000000000000000 ≤ number ∧ number < 0x80000000000000000000000000000000 then some number else none

def spanNumerator (sampleRate : U32) (ticks : Int) (tempo : Tempo) : Option Int := do
  let micros ← fitsI128 (ticks * tempo.microsPerQuarter.val)
  fitsI128 (micros * sampleRate.val)

def integrate (sampleRate : U32) (beat : Int) : List TempoPoint → Int → Int → Tempo → Option Int
  | [], total, cursor, tempo => do
    let ticks ← fitsI64 (beat - cursor)
    let span ← spanNumerator sampleRate ticks tempo
    fitsI128 (total + span)
  | point :: points, total, cursor, tempo =>
    if beat ≤ point.at'.val then do
      let ticks ← fitsI64 (beat - cursor)
      let span ← spanNumerator sampleRate ticks tempo
      fitsI128 (total + span)
    else do
      let ticks ← fitsI64 (point.at'.val - cursor)
      let span ← spanNumerator sampleRate ticks tempo
      let total ← fitsI128 (total + span)
      integrate sampleRate beat points total point.at'.val point.tempo

namespace TempoMap

section

variable (map : TempoMap)

/-- `none` where the code would stop at an arithmetic overflow or a missing point. -/
def beatToFrame (beat : BeatTime) : Option ProjectFrame := do
  let origin ← map.tempos[0]?
  let numerator ←
    if beat.val < 0 then spanNumerator map.sampleRate beat.val origin.tempo
    else integrate map.sampleRate beat.val (map.tempos.drop 1) 0 0 origin.tempo
  some (I64.saturate (numerator / (ppq * microsPerSecond)))

def frameToBeatFloor (frame : ProjectFrame) : Option BeatTime := do
  let low ← Bisection.last (fun mid => (map.beatToFrame (I64.wrap mid)).map fun reached => decide (reached ≤ frame))
    (-0x8000000000000000) 0x7fffffffffffffff
  some (I64.wrap low)

def firstBeatAtOrAfterFrame (frame : ProjectFrame) : Option BeatTime :=
  if frame.val = -0x8000000000000000 then some (I64.wrap (-0x8000000000000000))
  else do
    let prior ← map.frameToBeatFloor (I64.wrap (frame.val - 1))
    some (I64.saturate (prior.val + 1))

def meterStartBar (index : Nat) : I64 :=
  (windows (map.meters.take (index + 1))).foldl
    (fun bars pair => I64.saturate (bars.val + (pair.2.at'.val - pair.1.at'.val).tdiv pair.1.signature.ticksPerBar)) I64.zero

end

end TempoMap

def asU16 (number : Int) : U16 := Fin.ofNat _ (number % 0x10000).toNat

def positionWithinSegment (tick segmentTick segmentBar : I64) (signature : TimeSignature) : MusicalPosition :=
  let relative := tick.val - segmentTick.val
  let barOffset := relative / signature.ticksPerBar
  let withinBar := relative % signature.ticksPerBar
  ⟨I64.saturate (segmentBar.val + barOffset), asU16 (withinBar.tdiv signature.ticksPerBeat),
    asU16 (withinBar.tmod signature.ticksPerBeat)⟩

namespace TempoMap

def musicalPosition (map : TempoMap) (at' : BeatTime) : Option MusicalPosition :=
  if at'.val < 0 then do
    let origin ← map.meters[0]?
    some (positionWithinSegment at' I64.zero I64.zero origin.signature)
  else do
    let index := upperBoundByTick map.meters at' MeterPoint.at' - 1
    let startBar := map.meterStartBar index
    let point ← map.meters[index]?
    some (positionWithinSegment at' point.at' startBar point.signature)

def selectMeter (map : TempoMap) (bar : I64) : List Nat → Nat × I64 → Nat × I64
  | [], selected => selected
  | index :: rest, selected =>
    let start := map.meterStartBar index
    if bar < start then selected else selectMeter map bar rest (index, start)

def beatAtPosition (map : TempoMap) (position : MusicalPosition) : Option (Except SequencerError BeatTime) := do
  let selected :=
    if position.bar.val < 0 then (0, I64.zero)
    else map.selectMeter position.bar (List.range' 1 (map.meters.length - 1)) (0, I64.zero)
  let meter ← map.meters[selected.1]?
  if meter.signature.numerator ≤ position.beat ∨ meter.signature.ticksPerBeat ≤ position.tick.val then
    some (.error .invalidMusicalPosition)
  else do
    let bars ← fitsI64 (position.bar.val - selected.2.val)
    let tick := meter.at'.val + bars * meter.signature.ticksPerBar + position.beat.val * meter.signature.ticksPerBeat + position.tick.val
    some (.ok (I64.saturate tick))

end TempoMap

inductive TempoMapEdit where
  | setTempo (at' : BeatTime) (tempo : Tempo)
  | removeTempo (at' : BeatTime)
  | setMeter (at' : BeatTime) (signature : TimeSignature)
  | removeMeter (at' : BeatTime)

namespace TempoMap

def edited (map : TempoMap) : TempoMapEdit → Except SequencerError TempoMap
  | .setTempo at' tempo => map.setTempo at' tempo
  | .removeTempo at' => (map.removeTempo at').map Prod.fst
  | .setMeter at' signature => map.setMeter at' signature
  | .removeMeter at' => (map.removeMeter at').map Prod.fst

def edit (map : TempoMap) (action : TempoMapEdit) : TempoMap :=
  match map.edited action with
  | .ok changed => changed
  | .error _ => map

def Fresh (map : TempoMap) : Prop := ∃ sampleRate tempo meter, TempoMap.new sampleRate tempo meter = .ok map

end TempoMap

end Audec.Sequencer

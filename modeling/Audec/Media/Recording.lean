import Audec.Lib.Collected
import Audec.Lib.Runs
import Audec.Media.Model

/-! The recording journal: capture blocks handed over by a FIFO become recoverable in sequence, once
    their bytes are durable. -/

open Std (ExtTreeMap)
open Machine Checked Runs

namespace Audec.Media

structure RecordingFifoContract where
  capacityBlocks : U16
  framesPerBlock : U32
  channels : U16

def RecordingFifoContract.validate (fifo : RecordingFifoContract) : Except StreamingMediaError Unit :=
  ensure (¬(fifo.capacityBlocks = 0 ∨ fifo.framesPerBlock = 0 ∨ fifo.channels = 0)) .invalidRecordingFifo

structure CaptureBlock where
  sequence : U64
  firstProjectFrame : I64
  frames : U32
  interleaved : List Float32

structure RecordingJournalHeader (D : Type) where
  take : U64
  project : D
  trackKey : U64
  startProjectFrame : I64
  sampleRateHz : U32
  channels : U16
  fifo : RecordingFifoContract

structure RecordingJournalEntry (D : Type) where
  sequence : U64
  firstProjectFrame : I64
  frames : U32
  durableByteEnd : U64
  payloadDigest : D

inductive RecordingWriterState (D : Type) where
  | capturing
  | finalizing
  | finalized (encodedSource : EncodedSourceId D) (decodedPcm : DecodedPcmId D)
  | aborted
  deriving DecidableEq

structure RecordingJournalWriter (D : Type) where
  header : RecordingJournalHeader D
  state : RecordingWriterState D
  nextSequence : U64
  framesAcknowledged : U64
  pending : ExtTreeMap U64 CaptureBlock
  journal : List (RecordingJournalEntry D)

namespace RecordingJournalWriter

variable {D : Type} [DecidableEq D]

def new (header : RecordingJournalHeader D) : Except StreamingMediaError (RecordingJournalWriter D) := do
  header.fifo.validate
  ensure (¬(header.sampleRateHz = 0 ∨ header.channels = 0 ∨ header.channels ≠ header.fifo.channels)) .invalidRecordingHeader
  pure ⟨header, .capturing, 0, 0, ∅, []⟩

variable (writer : RecordingJournalWriter D)

def expectedSequence (writer : RecordingJournalWriter D) : U64 := writer.nextSequence + Fin.ofNat _ writer.pending.size

def checkedAdd (a : I64) (b : Int) : Option I64 :=
  if fits : -0x8000000000000000 ≤ a.val + b ∧ a.val + b < 0x8000000000000000 then some ⟨a.val + b, fits.1, fits.2⟩ else none

def tryFrom (x : U64) : Option I64 :=
  if fits : x.val < 0x8000000000000000 then some ⟨x.val, by omega, by omega⟩ else none

def expectedFrame (writer : RecordingJournalWriter D) : Option I64 := do
  let acknowledged ← tryFrom writer.framesAcknowledged
  let base ← checkedAdd writer.header.startProjectFrame acknowledged.val
  (Entries.values writer.pending).foldlM (fun frame block => checkedAdd frame block.frames.val) base

def checkBlock (writer : RecordingJournalWriter D) (block : CaptureBlock) : Except StreamingMediaError Unit := do
  ensure (writer.state = .capturing) .recordingNotCapturing
  ensure (writer.pending.size < writer.header.fifo.capacityBlocks.val) .recordingFifoFull
  ensure (block.sequence = writer.expectedSequence) (.unexpectedRecordingSequence writer.expectedSequence block.sequence)
  ensure (block.frames ≠ 0 ∧ block.frames ≤ writer.header.fifo.framesPerBlock) (.invalidCaptureBlockFrames block.frames)
  let expectedSamples ← interleavedSamples block.frames.val writer.header.channels.val
  ensure (block.interleaved.length = expectedSamples) (.chunkSampleCount expectedSamples block.interleaved.length)
  checkFinite block.interleaved
  match writer.expectedFrame with
  | none => .error .arithmeticOverflow
  | some frame => ensure (block.firstProjectFrame = frame) (.discontinuousCapture frame block.firstProjectFrame)

def enqueueFromFifo (writer : RecordingJournalWriter D) (block : CaptureBlock) :
    RecordingJournalWriter D × Except StreamingMediaError Unit :=
  match writer.checkBlock block with
  | .error error => (writer, .error error)
  | .ok () => ({ writer with pending := writer.pending.insert block.sequence block }, .ok ())

def durableAfter (writer : RecordingJournalWriter D) (durableByteEnd : U64) : Prop :=
  match writer.journal.getLast? with
  | some previous => previous.durableByteEnd < durableByteEnd
  | none => durableByteEnd ≠ 0

instance (writer : RecordingJournalWriter D) (durableByteEnd : U64) : Decidable (writer.durableAfter durableByteEnd) := by
  unfold durableAfter
  split <;> infer_instance

/-- The block leaves the queue before the frame count is checked. -/
def acknowledgeDurable (writer : RecordingJournalWriter D) (sequence durableByteEnd : U64) (payloadDigest : D) :
    RecordingJournalWriter D × Except StreamingMediaError Unit :=
  if sequence ≠ writer.nextSequence then (writer, .error (.unexpectedRecordingSequence writer.nextSequence sequence))
  else match writer.pending[sequence]? with
    | none => (writer, .error (.recordingBlockNotPending sequence))
    | some block =>
      if ¬writer.durableAfter durableByteEnd then (writer, .error .nonMonotonicDurableOffset)
      else
        let removed := { writer with pending := writer.pending.erase sequence }
        if fits : writer.framesAcknowledged.val + block.frames.val < 0x10000000000000000 then
          ({ removed with
            framesAcknowledged := ⟨writer.framesAcknowledged.val + block.frames.val, fits⟩
            journal := writer.journal ++ [⟨sequence, block.firstProjectFrame, block.frames, durableByteEnd, payloadDigest⟩]
            nextSequence := writer.nextSequence + 1 }, .ok ())
        else (removed, .error .arithmeticOverflow)

def requestFinalize (writer : RecordingJournalWriter D) : RecordingJournalWriter D × Except StreamingMediaError Unit :=
  if writer.state ≠ .capturing then (writer, .error .recordingNotCapturing)
  else if writer.pending.isEmpty = false then (writer, .error .recordingWritesPending)
  else ({ writer with state := .finalizing }, .ok ())

def acknowledgeFinalized (writer : RecordingJournalWriter D) (encodedSource : EncodedSourceId D) (decodedPcm : DecodedPcmId D) :
    RecordingJournalWriter D × Except StreamingMediaError Unit :=
  if writer.state ≠ .finalizing then (writer, .error .recordingNotFinalizing)
  else ({ writer with state := .finalized encodedSource decodedPcm }, .ok ())

def abort (writer : RecordingJournalWriter D) : RecordingJournalWriter D :=
  { writer with state := .aborted, pending := ∅ }

def recoverableFrames (writer : RecordingJournalWriter D) : U64 := writer.framesAcknowledged

inductive Action (D : Type) where
  | enqueueFromFifo (block : CaptureBlock)
  | acknowledgeDurable (sequence durableByteEnd : U64) (payloadDigest : D)
  | requestFinalize
  | acknowledgeFinalized (encodedSource : EncodedSourceId D) (decodedPcm : DecodedPcmId D)
  | abort

def call (writer : RecordingJournalWriter D) : Action D → RecordingJournalWriter D × Except StreamingMediaError Unit
  | .enqueueFromFifo block => writer.enqueueFromFifo block
  | .acknowledgeDurable sequence durableByteEnd payloadDigest => writer.acknowledgeDurable sequence durableByteEnd payloadDigest
  | .requestFinalize => writer.requestFinalize
  | .acknowledgeFinalized encodedSource decodedPcm => writer.acknowledgeFinalized encodedSource decodedPcm
  | .abort => (writer.abort, .ok ())

end RecordingJournalWriter

end Audec.Media

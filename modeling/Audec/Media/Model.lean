import Audec.Lib.Checked
import Audec.Lib.Machine

/-! Project-rate media: chunks of decoded PCM, and the errors of the streaming contracts. Digests are
    supplied by the canonical digest layer. -/

open Machine Checked

namespace Audec.Media

abbrev U16 := Fin 0x10000

structure EncodedSourceId (D : Type) where
  digest : D
  deriving DecidableEq

structure DecodedPcmId (D : Type) where
  digest : D
  deriving DecidableEq

structure PcmChunkGeometry where
  sampleRateHz : U32
  channels : U16
  framesPerChunk : U32

structure FrameSpan where
  start : U64
  stop : U64

structure DecodedPcmDescriptor (D : Type) where
  id : DecodedPcmId D
  geometry : PcmChunkGeometry
  frameCount : U64

structure PcmChunkKey (D : Type) where
  pcm : DecodedPcmId D
  geometry : PcmChunkGeometry
  index : U64

structure VirtualSliceRef (D : Type) where
  source : DecodedPcmDescriptor D
  range : FrameSpan

inductive CacheTier where
  | memory
  | disk

inductive StreamingMediaError where
  | zeroSampleRate
  | zeroChannels
  | invalidChunkFrames (frames : U32)
  | emptyPcm
  | invalidFrameSpan (start stop : U64)
  | chunkOutsidePcm (index totalFrames : U64)
  | sliceOutsidePcm (stop frameCount : U64)
  | sliceReadOutsideRange (stop frameCount : U64)
  | chunkSampleCount (expected actual : Nat)
  | nonFinitePcm (sampleIndex : Nat)
  | missingChunk (index : U64)
  | chunkUnavailable
  | invalidPrefetchPolicy
  | zeroCacheBudget
  | entryExceedsBudget (tier : CacheTier) (bytes budget : U64)
  | allEvictionCandidatesPinned (tier : CacheTier)
  | emptyDiskRecord
  | unknownLease (lease : U64)
  | invalidRecordingFifo
  | invalidRecordingHeader
  | recordingNotCapturing
  | recordingNotFinalizing
  | recordingFifoFull
  | invalidCaptureBlockFrames (frames : U32)
  | unexpectedRecordingSequence (expected actual : U64)
  | discontinuousCapture (expected actual : I64)
  | recordingBlockNotPending (sequence : U64)
  | nonMonotonicDurableOffset
  | recordingWritesPending
  | arithmeticOverflow

def interleavedSamples (frames channels : Nat) : Except StreamingMediaError Nat :=
  if frames * channels < 0x10000000000000000 then .ok (frames * channels) else .error .arithmeticOverflow

/-- A sample is neither infinite nor a NaN. -/
def checkFinite (interleaved : List Float32) : Except StreamingMediaError Unit :=
  match interleaved.findIdx? fun sample => !sample.isFinite with
  | some index => .error (.nonFinitePcm index)
  | none => .ok ()

end Audec.Media

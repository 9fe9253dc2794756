import Audec.Lib.Checked
import Audec.Lib.Machine

/-! The realtime transport: control writes of any thread, and the audio source that reads them at frame boundaries. -/

open Machine Checked

namespace Audec.Playback

inductive TransportMode where
  | stopped | paused | playing | ended
  deriving DecidableEq

structure FrameRange where
  start : U64
  stop : U64
  deriving DecidableEq

inductive AudioError where
  | emptyRange (start stop : U64)
  | loopOutOfBounds (range : FrameRange) (length : U64)

@[ext]
structure TransportShared where
  controlRevision : Nat
  desiredMode : TransportMode
  desiredFrame : U64
  seekGeneration : Nat
  appliedSeekGeneration : Nat
  loopRegion : Option FrameRange
  loopEnabled : Bool
  publishedMode : TransportMode
  publishedFrame : U64

def TransportShared.new : TransportShared := ⟨0, .stopped, 0, 0, 0, none, false, .stopped, 0⟩

namespace TransportShared

variable (shared : TransportShared) (length : U64)

def pendingSeek : Bool := shared.seekGeneration ≠ shared.appliedSeekGeneration

def writeControl : TransportShared := { shared with controlRevision := shared.controlRevision + 2 }

def requestSeek (frame : U64) : TransportShared := { shared with desiredFrame := frame, seekGeneration := shared.seekGeneration + 1 }

def atEnd : Bool := !shared.pendingSeek && (shared.publishedMode = .ended || shared.publishedFrame ≥ length)

def play : TransportShared :=
  let shared := if shared.atEnd length then shared.requestSeek 0 else shared
  { shared with desiredMode := .playing }.writeControl

def pause : TransportShared :=
  let mode : TransportMode := if shared.desiredMode = .stopped then .stopped else .paused
  { shared with desiredMode := mode }.writeControl

def stillPlaying : Bool := shared.desiredMode = .playing ∧ (shared.publishedMode ≠ .ended ∨ shared.pendingSeek)

def toggle : TransportShared :=
  if shared.stillPlaying then { shared with desiredMode := .paused }.writeControl else shared.play length

def stop : TransportShared := ({ shared with desiredMode := .stopped }.requestSeek 0).writeControl

/-- The mode after an explicit location. -/
def locatedMode (frame : U64) : TransportMode :=
  if shared.stillPlaying then .playing else if shared.desiredMode = .stopped ∧ frame = 0 then .stopped else .paused

def seek (frame : U64) : TransportShared :=
  let frame := min frame length
  ({ shared with desiredMode := shared.locatedMode frame }.requestSeek frame).writeControl

def normalizedControlMode (mode : TransportMode) : TransportMode := if mode = .ended then .paused else mode

def editedMode : TransportMode :=
  if shared.publishedMode = .ended ∧ shared.pendingSeek = false then .paused else normalizedControlMode shared.desiredMode

def checkLoop : Option FrameRange → Except AudioError Unit
  | none => .ok ()
  | some range => do
    ensure (range.start < range.stop) (.emptyRange range.start range.stop)
    ensure (range.stop ≤ length) (.loopOutOfBounds range length)

def setLoopState (range : Option FrameRange) (enabled : Bool) (locate : Option U64) : Except AudioError TransportShared := do
  checkLoop length range
  let edited := { shared with loopRegion := range, loopEnabled := enabled && range.isSome }
  match locate.map fun frame => min frame length with
  | some frame => .ok ({ edited with desiredMode := shared.locatedMode frame }.requestSeek frame).writeControl
  | none => .ok { edited with desiredMode := shared.editedMode }.writeControl

def setLoopRegion (range : Option FrameRange) : Except AudioError TransportShared := shared.setLoopState length range range.isSome none

def setLoopEnabled (enabled : Bool) : TransportShared :=
  { shared with loopEnabled := enabled && shared.loopRegion.isSome, desiredMode := shared.editedMode }.writeControl

end TransportShared

/-- The control calls of a transport handle. -/
inductive Control where
  | play
  | pause
  | toggle
  | stop
  | seek (frame : U64)
  | setLoopRegion (range : Option FrameRange)
  | setLoopState (range : Option FrameRange) (enabled : Bool) (locate : Option U64)
  | setLoopEnabled (enabled : Bool)

/-- A call that is refused writes nothing. -/
def TransportShared.control (shared : TransportShared) (length : U64) : Control → TransportShared
  | .play => shared.play length
  | .pause => shared.pause
  | .toggle => shared.toggle length
  | .stop => shared.stop
  | .seek frame => shared.seek length frame
  | .setLoopRegion range => (shared.setLoopRegion length range).toOption.getD shared
  | .setLoopState range enabled locate => (shared.setLoopState length range enabled locate).toOption.getD shared
  | .setLoopEnabled enabled => shared.setLoopEnabled enabled

/-- The audio side, with the position of its renderer and the project frame in its buffer, which may be silent.
    No write has the revision `none`. -/
@[ext]
structure TransportSource where
  position : U64
  frameSamples : Option U64
  channelCursor : Nat
  cursor : U64
  renderedFrame : Bool
  mode : TransportMode
  loopRegion : Option FrameRange
  loopEnabled : Bool
  loopArmed : Bool
  seenControlRevision : Option Nat
  seenSeekGeneration : Nat

def TransportSource.new : TransportSource := ⟨0, none, 0, 0, false, .stopped, none, false, false, none, 0⟩

@[ext]
structure Transport where
  length : U64
  channels : Nat
  shared : TransportShared
  source : TransportSource

def Transport.new (length : U64) (channels : Nat) : Transport := ⟨length, channels, .new, .new⟩

namespace Transport

variable (transport : Transport)

def publish : Transport :=
  { transport with
    shared.publishedFrame := transport.source.cursor
    shared.publishedMode := transport.source.mode }

/-- The cursor and the renderer move together. -/
def locate (frame : U64) : Transport :=
  { transport with source.cursor := frame, source.position := min frame transport.length }

/-- A write that has not been read asks for another frame. -/
def seekChanged : Bool := transport.shared.seekGeneration ≠ transport.source.seenSeekGeneration

def loopChanged : Bool :=
  transport.source.loopRegion ≠ transport.shared.loopRegion ∨
    transport.source.loopEnabled ≠ (transport.shared.loopEnabled && transport.shared.loopRegion.isSome)

def followSeek : Transport :=
  if transport.seekChanged then
    let located := transport.locate (min transport.shared.desiredFrame transport.length)
    { located with
      source.seenSeekGeneration := transport.shared.seekGeneration
      shared.appliedSeekGeneration := transport.shared.seekGeneration }
  else transport

def armLoop (changed : Bool) : Transport :=
  let source := transport.source
  { transport with
    source.loopArmed :=
      if source.loopEnabled = false then false
      else if changed then source.loopRegion.any fun range => source.cursor < range.stop ∨ source.mode ≠ .playing
      else source.loopArmed }

def endAtLength : Transport :=
  if transport.source.mode = .playing ∧ transport.source.cursor ≥ transport.length then { transport with source.mode := .ended }
  else transport

def readControl : Transport :=
  { transport with
    source.seenControlRevision := some transport.shared.controlRevision
    source.mode := transport.shared.desiredMode
    source.loopRegion := transport.shared.loopRegion
    source.loopEnabled := transport.shared.loopEnabled && transport.shared.loopRegion.isSome }

def applyControl : Transport :=
  if transport.source.seenControlRevision = some transport.shared.controlRevision then transport
  else
    let changed := transport.seekChanged || transport.loopChanged
    ((transport.readControl.followSeek.armLoop changed).endAtLength).publish

def wrapped : Option U64 :=
  if transport.source.loopEnabled && transport.source.loopArmed then
    (transport.source.loopRegion.filter fun range => transport.source.cursor ≥ range.stop).map FrameRange.start
  else none

def enterLoop : Transport :=
  match transport.wrapped with
  | some start => (transport.locate start).publish
  | none => transport

def renderFrame : Transport :=
  if transport.source.position < transport.length then
    { transport with
      source.frameSamples := some transport.source.position
      source.position := transport.source.position + 1
      source.renderedFrame := true }
  else { transport with source.mode := .ended, source.cursor := transport.length }.publish

def prepareFrame : Transport :=
  let read := transport.applyControl
  let silent := { read with source.renderedFrame := false, source.frameSamples := none }
  if silent.source.mode ≠ .playing then silent
  else
    let entered := silent.enterLoop
    if entered.source.cursor ≥ entered.length then { entered with source.mode := .ended }.publish else entered.renderFrame

def advance : Transport :=
  let advanced := { transport with source.cursor := transport.source.cursor + 1 }
  match advanced.wrapped with
  | some start => advanced.locate start
  | none => advanced

def endBeyond : Transport :=
  if transport.source.cursor ≥ transport.length then { transport with source.cursor := transport.length, source.mode := .ended }
  else transport

def finishFrame : Transport := if transport.source.renderedFrame = false then transport else transport.advance.endBeyond.publish

/-- The frame whose samples are being handed out. -/
def ready : Transport := if transport.source.channelCursor = 0 then transport.prepareFrame else transport

def next : Transport × Option U64 :=
  let ready := transport.ready
  let channel := ready.source.channelCursor + 1
  (if channel = ready.channels then { ready with source.channelCursor := 0 }.finishFrame
    else { ready with source.channelCursor := channel }, ready.source.frameSamples)

def control (call : Control) : Transport := { transport with shared := transport.shared.control transport.length call }

end Transport

inductive TransportAction where
  | control (call : Control)
  | next

def Transport.perform (transport : Transport) : TransportAction → Transport
  | .control call => transport.control call
  | .next => transport.next.1

def Transport.Opened (transport : Transport) : Prop := ∃ length channels, 0 < channels ∧ transport = .new length channels

end Audec.Playback

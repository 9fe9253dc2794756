import Audec.Lib.Checked
import Audec.Lib.PartialEquality
import Audec.Lib.Machine

/-! The revisioned part of an editing session: the arrangement and its checks, and commands made of exact entity
    replacements. -/

open Machine Checked
open Std (ExtTreeMap)

namespace Audec.Session

inductive IdKind where
  | track | lane | clip | event | cluster

/-- The identifiers of the `typed_id!` macro. -/
structure TypedId (kind : IdKind) where
  raw : U64
  deriving DecidableEq

namespace TypedId

variable {kind : IdKind}

theorem raw_injective : Function.Injective (fun id : TypedId kind => id.raw) := by
  rintro ⟨a⟩ ⟨b⟩ same
  cases same
  rfl

instance linearOrder : LinearOrder (TypedId kind) := LinearOrder.lift' (fun id => id.raw) raw_injective

instance transOrd : Std.TransOrd (TypedId kind) := inferInstance

instance lawfulEqOrd : Std.LawfulEqOrd (TypedId kind) := ⟨compare_eq_iff_eq.mp⟩

end TypedId

abbrev TrackId := TypedId .track
abbrev LaneId := TypedId .lane
abbrev ClipId := TypedId .clip
abbrev EventId := TypedId .event
abbrev ClusterId := TypedId .cluster

abbrev Sample := I64

structure SampleRange where
  start : Sample
  stop : Sample
  deriving DecidableEq

def SampleRange.isEmpty (range : SampleRange) : Bool := range.start = range.stop

inductive TrackKind where
  | audio | events | group
  deriving DecidableEq

structure Track where
  id : TrackId
  name : String
  kind : TrackKind
  laneIds : List LaneId
  gain : Float32
  muted : Bool
  solo : Bool
  deriving BEq

def Track.new (id : TrackId) (name : String) (kind : TrackKind) : Track := ⟨id, name, kind, [], 1.0, false, false⟩

structure Lane where
  id : LaneId
  trackId : TrackId
  name : String
  clipIds : List ClipId
  deriving DecidableEq

def Lane.new (id : LaneId) (trackId : TrackId) (name : String) : Lane := ⟨id, trackId, name, []⟩

structure Clip where
  id : ClipId
  laneId : LaneId
  name : String
  timeline : SampleRange
  sourceStart : U64
  gain : Float32
  muted : Bool
  locked : Bool
  deriving BEq

def Clip.new (id : ClipId) (laneId : LaneId) (name : String) (timeline : SampleRange) : Clip :=
  ⟨id, laneId, name, timeline, 0, 1.0, false, false⟩

structure Cluster where
  id : ClusterId
  name : String
  gain : Float32
  muted : Bool
  deriving BEq

def Cluster.new (id : ClusterId) (name : String) : Cluster := ⟨id, name, 1.0, false⟩

structure Event where
  id : EventId
  laneId : LaneId
  clusterId : ClusterId
  sample : Sample
  duration : U64
  gain : Float32
  muted : Bool
  deriving BEq

def Event.new (id : EventId) (laneId : LaneId) (clusterId : ClusterId) (sample : Sample) : Event :=
  ⟨id, laneId, clusterId, sample, 0, 1.0, false⟩

inductive SessionError where
  | invalidSampleRate | invalidGridSpacing
  | invalidEntity (kind : String)
  | invalidCommand (reason : String)
  | commandConflict (kind : String)
  | missingTrack (id : TrackId)
  | missingLane (id : LaneId)
  | missingClip (id : ClipId)
  | missingCluster (id : ClusterId)
  | missingEvent (id : EventId)

structure Arrangement where
  tracks : ExtTreeMap TrackId Track
  lanes : ExtTreeMap LaneId Lane
  clips : ExtTreeMap ClipId Clip
  clusters : ExtTreeMap ClusterId Cluster
  events : ExtTreeMap EventId Event

def validGain (gain : Float32) : Bool := gain.isFinite && 0.0 ≤ gain

namespace Arrangement

def empty : Arrangement := ⟨∅, ∅, ∅, ∅, ∅⟩

section

variable (arrangement : Arrangement)

def validateLaneId (id : TrackId) (laneId : LaneId) : Except SessionError Unit :=
  match arrangement.lanes[laneId]? with
  | none => .error (.missingLane laneId)
  | some lane => ensure (lane.trackId = id) (.invalidEntity "lane ownership")

def validateTrack (id : TrackId) (track : Track) : Except SessionError Unit := do
  ensure (id = track.id ∧ validGain track.gain = true) (.invalidEntity "track")
  track.laneIds.forM (arrangement.validateLaneId id)

def validateClipId (id : LaneId) (clipId : ClipId) : Except SessionError Unit :=
  match arrangement.clips[clipId]? with
  | none => .error (.missingClip clipId)
  | some clip => ensure (clip.laneId = id) (.invalidEntity "clip ownership")

def validateLane (id : LaneId) (lane : Lane) : Except SessionError Unit :=
  match arrangement.tracks[lane.trackId]? with
  | none => .error (.invalidEntity "lane")
  | some owner => do
    ensure (id = lane.id) (.invalidEntity "lane")
    ensure (owner.laneIds.count id = 1) (.invalidEntity "track lane index")
    lane.clipIds.forM (arrangement.validateClipId id)

def validateClip (id : ClipId) (clip : Clip) : Except SessionError Unit := do
  ensure (id = clip.id ∧ clip.timeline.isEmpty = false ∧ validGain clip.gain = true) (.invalidEntity "clip")
  match arrangement.lanes[clip.laneId]? with
  | none => .error (.missingLane clip.laneId)
  | some lane => ensure (lane.clipIds.count id = 1) (.invalidEntity "lane clip index")

end

def validateCluster (id : ClusterId) (cluster : Cluster) : Except SessionError Unit :=
  ensure (id = cluster.id ∧ validGain cluster.gain = true) (.invalidEntity "cluster")

def validateEvent (arrangement : Arrangement) (id : EventId) (event : Event) : Except SessionError Unit := do
  ensure (id = event.id ∧ validGain event.gain = true) (.invalidEntity "event")
  ensure (event.laneId ∈ arrangement.lanes) (.missingLane event.laneId)
  ensure (event.clusterId ∈ arrangement.clusters) (.missingCluster event.clusterId)

def validate (arrangement : Arrangement) : Except SessionError Unit := do
  arrangement.tracks.toList.forM fun entry => arrangement.validateTrack entry.1 entry.2
  arrangement.lanes.toList.forM fun entry => arrangement.validateLane entry.1 entry.2
  arrangement.clips.toList.forM fun entry => arrangement.validateClip entry.1 entry.2
  arrangement.clusters.toList.forM fun entry => validateCluster entry.1 entry.2
  arrangement.events.toList.forM fun entry => arrangement.validateEvent entry.1 entry.2

end Arrangement

/-- An exact entity replacement. -/
inductive ProjectChange where
  | track (before after : Option Track)
  | lane (before after : Option Lane)
  | clip (before after : Option Clip)
  | cluster (before after : Option Cluster)
  | event (before after : Option Event)

def optionId {kind : IdKind} (before after : Option (TypedId kind)) (label : String) : Except SessionError (TypedId kind) :=
  match before, after with
  | some a, some b => if a = b then .ok a else .error (.invalidCommand label)
  | some a, none => .ok a
  | none, some a => .ok a
  | none, none => .error (.invalidCommand label)

def replace {kind : IdKind} {ν : Type} [BEq ν] (map : ExtTreeMap (TypedId kind) ν) (expected replacement : Option ν)
    (id : TypedId kind) (label : String) : Except SessionError (ExtTreeMap (TypedId kind) ν) :=
  if map[id]? == expected then
    match replacement with
    | some value => .ok (map.insert id value)
    | none => .ok (map.erase id)
  else .error (.commandConflict label)

namespace ProjectChange

def isNoop : ProjectChange → Bool
  | .track before after => before == after
  | .lane before after => before == after
  | .clip before after => before == after
  | .cluster before after => before == after
  | .event before after => before == after

/-- The other way round. -/
def inverse : ProjectChange → ProjectChange
  | .track before after => .track after before
  | .lane before after => .lane after before
  | .clip before after => .clip after before
  | .cluster before after => .cluster after before
  | .event before after => .event after before

def applyForward (change : ProjectChange) (arrangement : Arrangement) : Except SessionError Arrangement :=
  match change with
  | .track before after => do
    let id ← optionId (before.map (·.id)) (after.map (·.id)) "track"
    return { arrangement with tracks := ← replace arrangement.tracks before after id "track" }
  | .lane before after => do
    let id ← optionId (before.map (·.id)) (after.map (·.id)) "lane"
    return { arrangement with lanes := ← replace arrangement.lanes before after id "lane" }
  | .clip before after => do
    let id ← optionId (before.map (·.id)) (after.map (·.id)) "clip"
    return { arrangement with clips := ← replace arrangement.clips before after id "clip" }
  | .cluster before after => do
    let id ← optionId (before.map (·.id)) (after.map (·.id)) "cluster"
    return { arrangement with clusters := ← replace arrangement.clusters before after id "cluster" }
  | .event before after => do
    let id ← optionId (before.map (·.id)) (after.map (·.id)) "event"
    return { arrangement with events := ← replace arrangement.events before after id "event" }

/-- Backward, the expected and the replacing entity change places. -/
def apply (change : ProjectChange) (arrangement : Arrangement) (forward : Bool) : Except SessionError Arrangement :=
  if forward then change.applyForward arrangement else change.inverse.applyForward arrangement

end ProjectChange

structure SessionCommand where
  label : String
  changes : List ProjectChange

def SessionCommand.isEmpty (command : SessionCommand) : Bool := command.changes.all ProjectChange.isNoop

def applyChanges (changes : List ProjectChange) (arrangement : Arrangement) (forward : Bool) : Except SessionError Arrangement :=
  if forward then changes.foldlM (fun arrangement change => change.apply arrangement true) arrangement
  else changes.reverse.foldlM (fun arrangement change => change.apply arrangement false) arrangement

end Audec.Session

/-! The session: executing commands, its history, and the commands that create entities. -/

namespace Audec.Session

abbrev ProjectRevision := U64

structure CommandOutcome where
  changed : Bool
  revision : ProjectRevision

structure HistoryEntry where
  command : SessionCommand
  beforeRevision : ProjectRevision
  afterRevision : ProjectRevision

structure IdAllocator where
  nextTrack : U64
  nextLane : U64
  nextClip : U64
  nextEvent : U64
  nextCluster : U64

def saturatingSucc (count : U64) : U64 := (checkedSucc count).getD count

structure Session where
  arrangement : Arrangement
  ids : IdAllocator
  revision : ProjectRevision
  savedRevision : ProjectRevision
  nextRevision : U64
  undo : List HistoryEntry
  redo : List HistoryEntry
  historyLimit : Nat

namespace Session

def new : Session := ⟨.empty, ⟨1, 1, 1, 1, 1⟩, 0, 0, 1, [], [], 256⟩

variable (session : Session)

def isDirty (session : Session) : Bool := session.revision ≠ session.savedRevision

def markSaved (session : Session) : Session := { session with savedRevision := session.revision }

def trim (entries : List HistoryEntry) (limit : Nat) : List HistoryEntry := entries.take limit

/-- Each list is cut to the limit by itself. -/
def setHistoryLimit (session : Session) (limit : Nat) : Session :=
  { session with historyLimit := limit, undo := trim session.undo limit, redo := trim session.redo limit }

def attempt (changes : List ProjectChange) (arrangement : Arrangement) (forward : Bool) : Except SessionError Arrangement := do
  let after ← applyChanges changes arrangement forward
  after.validate
  return after

def commit (session : Session) (command : SessionCommand) (arrangement : Arrangement) : Session :=
  let entry := ⟨command, session.revision, session.nextRevision⟩
  { session with
    arrangement := arrangement
    revision := session.nextRevision
    nextRevision := saturatingSucc session.nextRevision
    redo := []
    undo := if 0 < session.historyLimit then trim (entry :: session.undo) session.historyLimit else session.undo }

def execute (session : Session) (command : SessionCommand) : Except SessionError CommandOutcome × Session :=
  if command.isEmpty then (.ok ⟨false, session.revision⟩, session)
  else
    match attempt command.changes session.arrangement true with
    | .error error => (.error error, session)
    | .ok after => (.ok ⟨true, session.nextRevision⟩, session.commit command after)

def undoCommand (session : Session) : Except SessionError (Option ProjectRevision) × Session :=
  match session.undo with
  | [] => (.ok none, session)
  | entry :: undo =>
    match attempt entry.command.changes session.arrangement false with
    | .error error => (.error error, session)
    | .ok before =>
      (.ok (some entry.beforeRevision),
        { session with arrangement := before, revision := entry.beforeRevision, undo := undo, redo := entry :: session.redo })

def redoCommand (session : Session) : Except SessionError (Option ProjectRevision) × Session :=
  match session.redo with
  | [] => (.ok none, session)
  | entry :: redo =>
    match attempt entry.command.changes session.arrangement true with
    | .error error => (.error error, session)
    | .ok after =>
      (.ok (some entry.afterRevision),
        { session with
          arrangement := after
          revision := entry.afterRevision
          undo := trim (entry :: session.undo) session.historyLimit
          redo := redo })

def takeId (session : Session) : IdKind → U64 × Session
  | .track => (session.ids.nextTrack, { session with ids.nextTrack := saturatingSucc session.ids.nextTrack })
  | .lane => (session.ids.nextLane, { session with ids.nextLane := saturatingSucc session.ids.nextLane })
  | .clip => (session.ids.nextClip, { session with ids.nextClip := saturatingSucc session.ids.nextClip })
  | .event => (session.ids.nextEvent, { session with ids.nextEvent := saturatingSucc session.ids.nextEvent })
  | .cluster => (session.ids.nextCluster, { session with ids.nextCluster := saturatingSucc session.ids.nextCluster })

/-- What to create, by the arguments of the creating functions. -/
inductive Creation where
  | track (name : String) (kind : TrackKind)
  | lane (trackId : TrackId) (name : String)
  | clip (laneId : LaneId) (name : String) (timeline : SampleRange)
  | cluster (name : String)
  | event (laneId : LaneId) (clusterId : ClusterId) (sample : Sample)

def Creation.kind : Creation → IdKind
  | .track .. => .track
  | .lane .. => .lane
  | .clip .. => .clip
  | .cluster .. => .cluster
  | .event .. => .event

def creating (session : Session) (creation : Creation) (raw : U64) : Except SessionError SessionCommand :=
  match creation with
  | .track name kind => .ok ⟨"Create track", [.track none (some (Track.new ⟨raw⟩ name kind))]⟩
  | .lane trackId name =>
    match session.arrangement.tracks[trackId]? with
    | none => .error (.missingTrack trackId)
    | some track =>
      .ok ⟨"Create lane", [.track (some track) (some { track with laneIds := track.laneIds ++ [⟨raw⟩] }),
        .lane none (some (Lane.new ⟨raw⟩ trackId name))]⟩
  | .clip laneId name timeline =>
    if timeline.isEmpty then .error (.invalidEntity "clip")
    else
      match session.arrangement.lanes[laneId]? with
      | none => .error (.missingLane laneId)
      | some lane =>
        .ok ⟨"Create clip", [.lane (some lane) (some { lane with clipIds := lane.clipIds ++ [⟨raw⟩] }),
          .clip none (some (Clip.new ⟨raw⟩ laneId name timeline))]⟩
  | .cluster name => .ok ⟨"Create cluster", [.cluster none (some (Cluster.new ⟨raw⟩ name))]⟩
  | .event laneId clusterId sample =>
    if laneId ∉ session.arrangement.lanes then .error (.missingLane laneId)
    else if clusterId ∉ session.arrangement.clusters then .error (.missingCluster clusterId)
    else .ok ⟨"Create event", [.event none (some (Event.new ⟨raw⟩ laneId clusterId sample))]⟩

/-- The identity is taken once the checks pass; a rejected command does not give it back. -/
def create (session : Session) (creation : Creation) : Except SessionError U64 × Session :=
  let (raw, taken) := session.takeId creation.kind
  match session.creating creation raw with
  | .error error => (.error error, session)
  | .ok command =>
    let (outcome, after) := taken.execute command
    (outcome.map fun _ => raw, after)

inductive Action where
  | execute (command : SessionCommand)
  | create (creation : Creation)
  | undo | redo | markSaved
  | setHistoryLimit (limit : Nat)

def perform (session : Session) : Action → Session
  | .execute command => (session.execute command).2
  | .create creation => (session.create creation).2
  | .undo => session.undoCommand.2
  | .redo => session.redoCommand.2
  | .markSaved => session.markSaved
  | .setHistoryLimit limit => session.setHistoryLimit limit

def commits (session : Session) : Action → Bool
  | .execute command => ((session.execute command).1.map (·.changed)).toOption = some true
  | .create creation => (session.create creation).1.isOk
  | _ => false

end Session

end Audec.Session

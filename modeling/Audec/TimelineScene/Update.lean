import Audec.Lib.Checked
import Audec.TimelineScene.Model

/-! The publisher of timeline snapshots: an index of all records, and the updates that rebuild the lanes they touch. -/

open Machine Checked
open Std (ExtTreeMap ExtTreeSet)

namespace Audec.TimelineScene

variable {K L P : Type} [LinearOrder K] [LinearOrder L]

abbrev LaneRecords (K L P : Type) [LinearOrder K] := ExtTreeMap K (TimelineObjectRecord K L P)

def LaneRecords.intoValues (records : LaneRecords K L P) : List (TimelineObjectRecord K L P) := records.toList.map Prod.snd

structure TimelineSceneUpdate (K L P : Type) [LinearOrder K] where
  expectedIndexRevision : U64
  sourceRevision : U64
  removals : ExtTreeSet K
  upserts : List (TimelineObjectRecord K L P)

structure InvalidatedLane (L : Type) where
  lane : L
  span : TimelineSpan

structure SceneInvalidation (L : Type) where
  before : SceneRevision
  after : SceneRevision
  lanes : List (InvalidatedLane L)

structure SceneUpdateResult (K L P : Type) [LinearOrder L] where
  snapshot : TimelineSceneSnapshot K L P
  invalidation : SceneInvalidation L

structure TimelineSceneIndex (K L P : Type) [LinearOrder K] [LinearOrder L] where
  current : TimelineSceneSnapshot K L P
  locations : ExtTreeMap K L

def mergeInvalidation (map : ExtTreeMap L TimelineSpan) (lane : L) (span : TimelineSpan) :
    ExtTreeMap L TimelineSpan :=
  match map[lane]? with
  | some current => map.insert lane (current.union span)
  | none => map.insert lane span

structure Staging (K L P : Type) [LinearOrder K] [LinearOrder L] where
  staged : ExtTreeMap L (LaneRecords K L P)
  invalidated : ExtTreeMap L TimelineSpan

namespace Staging

def withdraw (staging : Staging K L P) (lane : L) (id : K) : Staging K L P :=
  match staging.staged[lane]? with
  | none => staging
  | some records =>
    match records[id]? with
    | none => staging
    | some old => ⟨staging.staged.insert lane (records.erase id), mergeInvalidation staging.invalidated lane old.span⟩

def remove (locations : ExtTreeMap K L) (staging : Staging K L P) (id : K) : Staging K L P :=
  match locations[id]? with
  | none => staging
  | some lane => staging.withdraw lane id

def upsert (locations : ExtTreeMap K L) (staging : Staging K L P) (record : TimelineObjectRecord K L P) :
    Option (Staging K L P) :=
  let staging := staging.remove locations record.id
  let invalidated := mergeInvalidation staging.invalidated record.lane record.span
  staging.staged[record.lane]?.map fun records =>
    ⟨staging.staged.insert record.lane (records.insert record.id record), invalidated⟩

end Staging

namespace TimelineSceneIndex

def empty (space : TimelineSpace) (sourceRevision : U64) : TimelineSceneIndex K L P :=
  ⟨⟨space, ⟨sourceRevision, 0⟩, ∅, 0⟩, ∅⟩

def collect (byLane : ExtTreeMap L (LaneRecords K L P)) (locations : ExtTreeMap K L) :
    List (TimelineObjectRecord K L P) →
      Except SceneIndexError (ExtTreeMap L (LaneRecords K L P) × ExtTreeMap K L)
  | [] => .ok (byLane, locations)
  | record :: records =>
    if record.id ∈ locations then .error .duplicateObject
    else
      collect (byLane.insert record.lane ((byLane[record.lane]?.getD ∅).insert record.id record))
        (locations.insert record.id record.lane) records

def fromRecords (space : TimelineSpace) (sourceRevision : U64) (records : List (TimelineObjectRecord K L P)) :
    Except SceneIndexError (TimelineSceneIndex K L P) := do
  let (byLane, locations) ← collect ∅ ∅ records
  let lanes := byLane.map fun _ records => LaneIndex.fromRecords records.intoValues
  return ⟨⟨space, ⟨sourceRevision, 0⟩, lanes, locations.size⟩, locations⟩

def checkUpserts (removals : ExtTreeSet K) : ExtTreeSet K → List (TimelineObjectRecord K L P) →
    Except SceneIndexError Unit
  | _, [] => .ok ()
  | upsertIds, record :: records =>
    if record.id ∈ upsertIds then .error .duplicateObject
    else if record.id ∈ removals then .error .ambiguousUpdate
    else checkUpserts removals (upsertIds.insert record.id) records

def addLocation (index : TimelineSceneIndex K L P) (affected : ExtTreeSet L) (id : K) : ExtTreeSet L :=
  match index.locations[id]? with
  | some lane => affected.insert lane
  | none => affected

def affected (index : TimelineSceneIndex K L P) (update : TimelineSceneUpdate K L P) : ExtTreeSet L :=
  update.upserts.foldl (fun affected record => (index.addLocation affected record.id).insert record.lane)
    (update.removals.toList.foldl index.addLocation ∅)

section

variable (index : TimelineSceneIndex K L P)

def laneRecords (lane : L) : LaneRecords K L P :=
  match index.current.lanes[lane]? with
  | some lane => ExtTreeMap.ofList (lane.records.map fun record => (record.id, record)) compare
  | none => ∅

def stage (affected : ExtTreeSet L) : ExtTreeMap L (LaneRecords K L P) :=
  affected.toList.foldl (fun staged lane => staged.insert lane (index.laneRecords lane)) ∅

def staging (update : TimelineSceneUpdate K L P) : Option (Staging K L P) :=
  update.upserts.foldlM (Staging.upsert index.locations)
    (update.removals.toList.foldl (Staging.remove index.locations) ⟨index.stage (index.affected update), ∅⟩)

end

def replaceLane (lanes : ExtTreeMap L (LaneIndex K L P)) (lane : L) (records : LaneRecords K L P) :
    ExtTreeMap L (LaneIndex K L P) :=
  if records.isEmpty then lanes.erase lane else lanes.insert lane (LaneIndex.fromRecords records.intoValues)

def rebuild (index : TimelineSceneIndex K L P) (staged : ExtTreeMap L (LaneRecords K L P)) :
    ExtTreeMap L (LaneIndex K L P) :=
  staged.toList.foldl (fun lanes entry => replaceLane lanes entry.1 entry.2) index.current.lanes

def placeLane (lanes : ExtTreeMap L (LaneIndex K L P)) (locations : ExtTreeMap K L) (lane : L) :
    ExtTreeMap K L :=
  match lanes[lane]? with
  | some index => index.records.foldl (fun locations record => locations.insert record.id lane) locations
  | none => locations

section

variable (index : TimelineSceneIndex K L P)

def relocate (update : TimelineSceneUpdate K L P)
    (lanes : ExtTreeMap L (LaneIndex K L P)) : ExtTreeMap K L :=
  (index.affected update).toList.foldl (placeLane lanes)
    (update.removals.toList.foldl (fun locations id => locations.erase id) index.locations)

section

variable (update : TimelineSceneUpdate K L P)

def checkUpdate : Except SceneIndexError U64 := do
  let before := index.current.revision
  ensure (update.expectedIndexRevision = before.index) (.revisionMismatch update.expectedIndexRevision before.index)
  ensure (before.source ≤ update.sourceRevision) (.staleSourceRevision before.source update.sourceRevision)
  let nextIndex ← (checkedSucc before.index).elim (.error .revisionOverflow) .ok
  checkUpserts update.removals ∅ update.upserts
  return nextIndex

def applyUpdate :
    Except (Stop SceneIndexError) (SceneUpdateResult K L P × TimelineSceneIndex K L P) := do
  let before := index.current.revision
  let nextIndex ← lift (index.checkUpdate update)
  let staging ← (index.staging update).elim (.error .panic) .ok
  let lanes := index.rebuild staging.staged
  let locations := index.relocate update lanes
  let after := ⟨update.sourceRevision, nextIndex⟩
  let objectCount := (lanes.toList.map fun entry => entry.2.records.length).sum
  let snapshot := ⟨index.current.space, after, lanes, objectCount⟩
  let invalidated := staging.invalidated.toList.map fun entry => ⟨entry.1, entry.2⟩
  return (⟨snapshot, ⟨before, after, invalidated⟩⟩, ⟨snapshot, locations⟩)

def afterUpdate : TimelineSceneIndex K L P :=
  match index.applyUpdate update with
  | .ok (_, after) => after
  | .error _ => index

end

end

end TimelineSceneIndex

end Audec.TimelineScene

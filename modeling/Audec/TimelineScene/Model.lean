import Audec.Lib.Intervals
import Audec.Lib.Machine

/-! Revisioned indexing for dense timeline scenes: records on lanes, and the query of a snapshot. -/

open Machine
open Std (ExtTreeMap ExtTreeSet)
open IntervalTree (Tree)

namespace Audec.TimelineScene

inductive TimelineSpace where
  | projectFrames
  | musicalTicks (ppq : U32)
  | custom (code : U64)

abbrev TimelineCoordinate := I64

inductive SceneIndexError where
  | emptyTimeRange | reversedObjectSpan | emptyLaneRange | duplicateObject | ambiguousUpdate
  | revisionMismatch (expected actual : U64)
  | staleSourceRevision (current incoming : U64)
  | revisionOverflow

/-- A half-open range of times that is not empty. -/
structure TimelineRange where
  start : TimelineCoordinate
  stop : TimelineCoordinate
  nonempty : start < stop

def TimelineRange.new (start stop : TimelineCoordinate) : Except SceneIndexError TimelineRange :=
  if nonempty : start < stop then .ok ⟨start, stop, nonempty⟩ else .error .emptyTimeRange

/-- A half-open duration, or a point when both ends are the same. -/
structure TimelineSpan where
  start : TimelineCoordinate
  stop : TimelineCoordinate
  ordered : start ≤ stop
  deriving DecidableEq

namespace TimelineSpan

def new (start stop : TimelineCoordinate) : Except SceneIndexError TimelineSpan :=
  if ordered : start ≤ stop then .ok ⟨start, stop, ordered⟩ else .error .reversedObjectSpan

def point (moment : TimelineCoordinate) : TimelineSpan := ⟨moment, moment, le_rfl⟩

section

variable (span : TimelineSpan)

def isPoint : Bool := span.start = span.stop

def startI128 : Int := span.start.val

def effectiveEndI128 : Int :=
  if span.isPoint then span.start.val + 1 else span.stop.val

def intersects (range : TimelineRange) : Bool :=
  span.startI128 < range.stop.val ∧ range.start.val < span.effectiveEndI128

end

def union (span other : TimelineSpan) : TimelineSpan :=
  ⟨min span.start other.start, max span.stop other.stop, (min_le_left _ _).trans (span.ordered.trans (le_max_left _ _))⟩

end TimelineSpan

inductive TimelineObjectKind where
  | clip | note | event | automationPoint | finding
  | custom (code : Fin 0x10000)
  deriving DecidableEq

/-- The kind that the identity of an object tells. -/
class TimelineObjectKey (K : Type) where
  kind : K → TimelineObjectKind

inductive TimelineObjectId (C N E A F : Type) where
  | clip (id : C)
  | note (id : N)
  | event (id : E)
  | automationPoint (id : A)
  | finding (id : F)
  deriving DecidableEq

namespace TimelineObjectId

variable {C N E A F : Type}

/-- Its place in the derived order: by variant, then by identity. -/
def toSum : TimelineObjectId C N E A F → C ⊕ₗ N ⊕ₗ E ⊕ₗ A ⊕ₗ F
  | .clip id => .inlₗ id
  | .note id => .inrₗ (.inlₗ id)
  | .event id => .inrₗ (.inrₗ (.inlₗ id))
  | .automationPoint id => .inrₗ (.inrₗ (.inrₗ (.inlₗ id)))
  | .finding id => .inrₗ (.inrₗ (.inrₗ (.inrₗ id)))

theorem toSum_injective : Function.Injective (toSum : TimelineObjectId C N E A F → C ⊕ₗ N ⊕ₗ E ⊕ₗ A ⊕ₗ F) := by
  intro a b same
  cases a <;> cases b <;> cases same <;> rfl

instance linearOrder [LinearOrder C] [LinearOrder N] [LinearOrder E] [LinearOrder A] [LinearOrder F] :
    LinearOrder (TimelineObjectId C N E A F) :=
  LinearOrder.lift' toSum toSum_injective

instance objectKey : TimelineObjectKey (TimelineObjectId C N E A F) where
  kind
    | .clip _ => .clip
    | .note _ => .note
    | .event _ => .event
    | .automationPoint _ => .automationPoint
    | .finding _ => .finding

end TimelineObjectId

structure TimelineObjectRecord (K L P : Type) where
  id : K
  lane : L
  span : TimelineSpan
  paintOrder : I32
  payload : P
  deriving DecidableEq

structure SceneRevision where
  source : U64
  index : U64

inductive TimelineLaneQuery (L : Type) where
  | all
  | one (lane : L)
  | range (start stop : L)

def TimelineLaneQuery.newRange {L : Type} [LinearOrder L] (start stop : L) : Except SceneIndexError (TimelineLaneQuery L) :=
  if stop ≤ start then .error .emptyLaneRange else .ok (.range start stop)

structure TimelineSceneQuery (L : Type) where
  time : TimelineRange
  lanes : TimelineLaneQuery L
  kinds : Option (Finset TimelineObjectKind)

structure SceneQueryStats where
  indexedLanes : U64
  indexedObjects : U64
  lanesVisited : U64
  objectsVisited : U64
  geometricallyVisible : U64
  objectsReturned : U64

def saturatingSucc (count : U64) : U64 := (checkedSucc count).getD count

def usizeToU64 (value : Nat) : U64 := if fits : value < 0x10000000000000000 then ⟨value, fits⟩ else 0xffffffffffffffff

section Records

variable {K L P : Type}

structure TimelineSceneQueryResult (K L P : Type) where
  objects : List (TimelineObjectRecord K L P)
  stats : SceneQueryStats

namespace TimelineSceneQueryResult

section

variable (result : TimelineSceneQueryResult K L P)

def visitLane : TimelineSceneQueryResult K L P :=
  { result with stats.lanesVisited := saturatingSucc result.stats.lanesVisited }

def visit : TimelineSceneQueryResult K L P :=
  { result with stats.objectsVisited := saturatingSucc result.stats.objectsVisited }

def see : TimelineSceneQueryResult K L P :=
  { result with stats.geometricallyVisible := saturatingSucc result.stats.geometricallyVisible }

def push (record : TimelineObjectRecord K L P) : TimelineSceneQueryResult K L P :=
  { result with
    objects := result.objects ++ [record]
    stats.objectsReturned := saturatingSucc result.stats.objectsReturned }

end

section

variable (result : TimelineSceneQueryResult K L P)
include result

@[simp] theorem visitLane_objects : result.visitLane.objects = result.objects := rfl
@[simp] theorem visit_objects : result.visit.objects = result.objects := rfl
@[simp] theorem see_objects : result.see.objects = result.objects := rfl
@[simp] theorem push_objects (record : TimelineObjectRecord K L P) :
    (result.push record).objects = result.objects ++ [record] := rfl

end

end TimelineSceneQueryResult

def recordOrder [LinearOrder K] : TimelineObjectRecord K L P → TimelineObjectRecord K L P → Ordering :=
  compareLex (compareOn (·.span.start)) <| compareLex (compareOn (·.span.stop)) <|
    compareLex (compareOn (·.paintOrder.val)) (compareOn (·.id))

abbrev IntervalNode (K L P : Type) := Tree (TimelineObjectRecord K L P) Int

structure LaneIndex (K L P : Type) where
  records : List (TimelineObjectRecord K L P)
  root : IntervalNode K L P

structure InternalRange where
  start : Int
  stop : Int

def TimelineRange.internal (range : TimelineRange) : InternalRange := ⟨range.start.val, range.stop.val⟩

def spanIntersectsInternal (span : TimelineSpan) (range : InternalRange) : Bool :=
  span.startI128 < range.stop ∧ range.start < span.effectiveEndI128

def allows [TimelineObjectKey K] (kinds : Option (Finset TimelineObjectKind)) (id : K) : Bool :=
  kinds.all fun allowed => TimelineObjectKey.kind id ∈ allowed

namespace LaneIndex

def buildIntervalTree (records : List (TimelineObjectRecord K L P)) : IntervalNode K L P :=
  Tree.buildTo (·.span.startI128) (·.span.effectiveEndI128) records.length records

def fromRecords [LinearOrder K] (records : List (TimelineObjectRecord K L P)) : LaneIndex K L P :=
  let sorted := records.insertionSort fun a b => (recordOrder a b).isLE
  ⟨sorted, buildIntervalTree sorted⟩

variable [TimelineObjectKey K]

def queryNode (search : InternalRange) (kinds : Option (Finset TimelineObjectKind)) :
    IntervalNode K L P → TimelineSceneQueryResult K L P → TimelineSceneQueryResult K L P
  | .leaf, result => result
  | .node record left right _ _, result =>
    let result := result.visit
    let result := if left.mayMeet search.start search.stop then queryNode search kinds left result else result
    let result :=
      if spanIntersectsInternal record.span search then
        if allows kinds record.id then result.see.push record else result.see
      else result
    if right.mayMeet search.start search.stop then queryNode search kinds right result else result

def query (lane : LaneIndex K L P) (search : InternalRange) (kinds : Option (Finset TimelineObjectKind))
    (result : TimelineSceneQueryResult K L P) : TimelineSceneQueryResult K L P :=
  queryNode search kinds lane.root result

end LaneIndex

structure TimelineSceneSnapshot (K L P : Type) [LinearOrder L] where
  space : TimelineSpace
  revision : SceneRevision
  lanes : ExtTreeMap L (LaneIndex K L P)
  objectCount : Nat

namespace TimelineSceneSnapshot

variable [LinearOrder L]

section

variable (snapshot : TimelineSceneSnapshot K L P)

def laneCount : Nat := snapshot.lanes.size

def forEachLane : TimelineLaneQuery L → Option (List (LaneIndex K L P))
  | .all => some (snapshot.lanes.toList.map Prod.snd)
  | .one lane => some snapshot.lanes[lane]?.toList
  | .range start stop =>
    if stop < start then none
    else some ((snapshot.lanes.toList.filter fun entry => start ≤ entry.1 ∧ entry.1 < stop).map Prod.snd)

def noResult : TimelineSceneQueryResult K L P :=
  ⟨[], ⟨usizeToU64 snapshot.lanes.size, usizeToU64 snapshot.objectCount, 0, 0, 0, 0⟩⟩

end

def query [TimelineObjectKey K] (snapshot : TimelineSceneSnapshot K L P) (query : TimelineSceneQuery L) :
    Option (TimelineSceneQueryResult K L P) :=
  (snapshot.forEachLane query.lanes).map fun lanes =>
    lanes.foldl (fun result lane => lane.query query.time.internal query.kinds result.visitLane) snapshot.noResult

end TimelineSceneSnapshot

end Records

end Audec.TimelineScene

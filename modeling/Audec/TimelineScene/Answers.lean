import Audec.Lib.Runs
import Audec.TimelineScene.Publish

/-! A query answers like a scan of all records: the pruned search of the visited lanes finds what they hold. -/

open Machine Checked Entries Runs List
open Std (ExtTreeMap ExtTreeSet)
open IntervalTree (Tree)

namespace Audec.TimelineScene

open TimelineSceneIndex

variable {K L P : Type} [LinearOrder K] [LinearOrder L]

def TimelineLaneQuery.Reversed : TimelineLaneQuery L → Prop
  | .range start stop => stop < start
  | _ => False

def TimelineLaneQuery.holds (query : TimelineLaneQuery L) (lane : L) : Bool :=
  match query with
  | .all => true
  | .one only => lane = only
  | .range start stop => start ≤ lane ∧ lane < stop

def TimelineSceneQuery.finds [TimelineObjectKey K] (query : TimelineSceneQuery L) (record : TimelineObjectRecord K L P) : Bool :=
  record.span.intersects query.time && query.lanes.holds record.lane && allows query.kinds record.id

def sceneOrder : TimelineObjectRecord K L P → TimelineObjectRecord K L P → Ordering :=
  compareLex (compareOn (·.lane)) recordOrder

def Scene.scan [TimelineObjectKey K] (scene : Scene K L P) (query : TimelineSceneQuery L) : List (TimelineObjectRecord K L P) :=
  (scene.intoValues.filter query.finds).insertionSort fun a b => (sceneOrder a b).isLE

section Order

variable {a b : TimelineObjectRecord K L P}

theorem recordOrder_eq (same : recordOrder a b = .eq) : a.id = b.id := by
  simp only [recordOrder, compareLex, Ordering.then_eq_eq, compareOn, compare_eq_iff_eq] at same
  exact same.2.2.2

theorem sceneOrder_eq (same : sceneOrder a b = .eq) : a.id = b.id := by
  rw [sceneOrder, compareLex, Ordering.then_eq_eq] at same
  exact recordOrder_eq same.2

instance recordOrderTrans : Std.TransCmp (@recordOrder K L P _) :=
  inferInstanceAs (Std.TransCmp (compareLex _ (compareLex _ (compareLex _ _))))

instance sceneOrderTrans : Std.TransCmp (@sceneOrder K L P _ _) :=
  inferInstanceAs (Std.TransCmp (compareLex _ _))

theorem sorted_insertionSort {α : Type} (cmp : α → α → Ordering) [Std.TransCmp cmp] (items : List α) :
    (items.insertionSort fun a b => (cmp a b).isLE).Pairwise fun a b => (cmp a b).isLE := by
  let _ : Std.Total fun a b => (cmp a b).isLE = true := ⟨fun a b => by
    by_cases before : (cmp a b).isLE = true
    · exact .inl before
    · exact .inr (Ordering.isLE_of_eq_lt (Std.OrientedCmp.lt_of_not_isLE before))⟩
  let _ : IsTrans α fun a b => (cmp a b).isLE = true := ⟨fun _ _ _ => Std.TransCmp.isLE_trans⟩
  exact pairwise_insertionSort _ _

end Order

variable [TimelineObjectKey K]

def found (search : InternalRange) (kinds : Option (Finset TimelineObjectKind)) (record : TimelineObjectRecord K L P) : Bool :=
  spanIntersectsInternal record.span search && allows kinds record.id

namespace LaneIndex

omit [LinearOrder L]

theorem queryNode_objects (search : InternalRange) (kinds : Option (Finset TimelineObjectKind)) {tree : IntervalNode K L P}
    (bounded : tree.Bounded (·.span.startI128) (·.span.effectiveEndI128)) (result : TimelineSceneQueryResult K L P) :
    (queryNode search kinds tree result).objects = result.objects ++ tree.items.filter (found search kinds) := by
  have skipped : ∀ {subtree : IntervalNode K L P}, subtree.Bounded (·.span.startI128) (·.span.effectiveEndI128) →
      ¬ subtree.mayMeet search.start search.stop = true → subtree.items.filter (found search kinds) = [] := by
    intro subtree bounded apart
    rw [filter_eq_nil_iff]
    intro record inside both
    rw [found, Bool.and_eq_true] at both
    exact bounded.apart (Bool.eq_false_iff.mpr apart) inside (of_decide_eq_true both.1)
  induction tree generalizing result with
  | leaf => simp [queryNode, Tree.items]
  | node record left right minimumStart maximumEnd leftIh rightIh =>
    have leftObjects : ∀ result : TimelineSceneQueryResult K L P,
        (if left.mayMeet search.start search.stop then queryNode search kinds left result else result).objects =
          result.objects ++ left.items.filter (found search kinds) := by
      intro result
      split
      · exact leftIh bounded.1 result
      · rename_i apart
        rw [skipped bounded.1 apart, append_nil]
    have rightObjects : ∀ result : TimelineSceneQueryResult K L P,
        (if right.mayMeet search.start search.stop then queryNode search kinds right result else result).objects =
          result.objects ++ right.items.filter (found search kinds) := by
      intro result
      split
      · exact rightIh bounded.2.1 result
      · rename_i apart
        rw [skipped bounded.2.1 apart, append_nil]
    have recordObjects : ∀ result : TimelineSceneQueryResult K L P,
        (if spanIntersectsInternal record.span search then if allows kinds record.id then result.see.push record else result.see
          else result).objects = result.objects ++ [record].filter (found search kinds) := by
      intro result
      by_cases meets : spanIntersectsInternal record.span search = true
      · by_cases allowed : allows kinds record.id = true
        · simp [found, meets, allowed]
        · simp [found, meets, allowed]
      · simp [found, meets]
    unfold queryNode
    simp only
    rw [rightObjects, recordObjects, leftObjects, TimelineSceneQueryResult.visit_objects]
    simp only [Tree.items, append_assoc, ← filter_append, singleton_append]

theorem query_objects (records : List (TimelineObjectRecord K L P)) (search : InternalRange)
    (kinds : Option (Finset TimelineObjectKind)) (result : TimelineSceneQueryResult K L P) :
    ((fromRecords records).query search kinds result).objects =
      result.objects ++ (fromRecords records).records.filter (found search kinds) := by
  have items : (fromRecords records).root.items = (fromRecords records).records := Tree.items_buildTo _ _ le_rfl
  have bounded : (fromRecords records).root.Bounded (·.span.startI128) (·.span.effectiveEndI128) := Tree.bounded_buildTo _ _
  unfold query
  rw [queryNode_objects search kinds bounded, items]

end LaneIndex

section Snapshots

variable {index : TimelineSceneIndex K L P} {scene : Scene K L P}

def visited (snapshot : TimelineSceneSnapshot K L P) (lanes : TimelineLaneQuery L) : List (L × LaneIndex K L P) :=
  snapshot.lanes.toList.filter fun entry => lanes.holds entry.1

variable {lanes : ExtTreeMap L (LaneIndex K L P)}

theorem lane_of_mem (keyed : scene.Keyed)
    (rebuilt : ∀ lane : L, lanes[lane]? = scene.laneIndex lane) {entry : L × LaneIndex K L P} (inside : entry ∈ lanes.toList)
    {record : TimelineObjectRecord K L P} (member : record ∈ entry.2.records) : record.lane = entry.1 := by
  rw [mem_toList, rebuilt] at inside
  exact ((Scene.mem_laneIndex keyed inside).mp member).2

theorem forEachLane_eq (snapshot : TimelineSceneSnapshot K L P) {lanes : TimelineLaneQuery L} (forward : ¬ lanes.Reversed) :
    snapshot.forEachLane lanes = some ((visited snapshot lanes).map Prod.snd) := by
  unfold visited TimelineSceneSnapshot.forEachLane
  cases lanes with
  | all => simp [TimelineLaneQuery.holds]
  | one lane => exact congrArg some (filter_key snapshot.lanes lane).symm
  | range start stop => exact if_neg forward

theorem query_objects (query : TimelineSceneQuery L) (entries : List (L × LaneIndex K L P))
    (inside : ∀ entry ∈ entries, scene.laneIndex entry.1 = some entry.2) (result : TimelineSceneQueryResult K L P) :
    ((entries.map Prod.snd).foldl (fun result lane => lane.query query.time.internal query.kinds result.visitLane) result).objects =
      result.objects ++ (entries.flatMap fun entry => entry.2.records).filter (found query.time.internal query.kinds) := by
  induction entries generalizing result with
  | nil => simp
  | cons entry entries ih =>
    have built := Scene.laneIndex_eq_some (inside entry mem_cons_self)
    rw [map_cons, foldl_cons, ih fun other member => inside other (mem_cons_of_mem _ member), built,
      LaneIndex.query_objects, ← built, TimelineSceneQueryResult.visitLane_objects, flatMap_cons, filter_append,
      append_assoc]

theorem sorted_records (keyed : scene.Keyed)
    (rebuilt : ∀ lane : L, lanes[lane]? = scene.laneIndex lane) :
    (lanes.toList.flatMap fun entry => entry.2.records).Pairwise fun a b => (sceneOrder a b).isLE := by
  rw [pairwise_flatMap]
  constructor
  · rintro ⟨lane, records⟩ inside
    have goes : ∀ record ∈ records.records, record.lane = lane := fun record member => lane_of_mem keyed rebuilt inside member
    rw [mem_toList, rebuilt] at inside
    have sorted : records.records.Pairwise fun a b => (recordOrder a b).isLE := by
      rw [Scene.laneIndex_eq_some inside]
      exact sorted_insertionSort recordOrder _
    apply sorted.imp_of_mem
    intro a b aInside bInside ordered
    have same : compareOn (·.lane) a b = .eq := by
      rw [compareOn, goes a aInside, goes b bInside]
      exact compare_eq_iff_eq.mpr rfl
    rw [sceneOrder, compareLex, same]
    exact ordered
  · apply ExtTreeMap.ordered_keys_toList.imp_of_mem
    intro first second firstInside secondInside before a aInside b bInside
    have lower : compareOn (·.lane) a b = .lt := by
      rw [compareOn, lane_of_mem keyed rebuilt firstInside aInside, lane_of_mem keyed rebuilt secondInside bInside]
      exact before
    rw [sceneOrder, compareLex, lower]
    rfl

theorem filter_visited (query : TimelineSceneQuery L) {entries : List (L × LaneIndex K L P)}
    (goes : ∀ entry ∈ entries, ∀ record ∈ entry.2.records, record.lane = entry.1) :
    ((entries.filter fun entry => query.lanes.holds entry.1).flatMap fun entry => entry.2.records).filter
        (found query.time.internal query.kinds) =
      (entries.flatMap fun entry => entry.2.records).filter query.finds := by
  induction entries with
  | nil => rfl
  | cons entry rest ih =>
    have later := ih fun other inside => goes other (mem_cons_of_mem _ inside)
    have here : entry.2.records.filter query.finds =
        if query.lanes.holds entry.1 then entry.2.records.filter (found query.time.internal query.kinds) else [] := by
      split
      · rename_i asked
        apply filter_congr
        intro record inside
        rw [TimelineSceneQuery.finds, goes entry mem_cons_self record inside, asked, Bool.and_true]
        rfl
      · rename_i other
        rw [filter_eq_nil_iff]
        intro record inside both
        rw [TimelineSceneQuery.finds, goes entry mem_cons_self record inside] at both
        simp only [Bool.and_eq_true] at both
        exact other both.1.2
    rw [flatMap_cons, filter_append, here, filter_cons]
    split
    · rw [flatMap_cons, filter_append, later]
    · rw [nil_append, later]

theorem query_eq_scan (holds : index.Holds scene) {query : TimelineSceneQuery L} (forward : ¬ query.lanes.Reversed) :
    ∃ result, index.current.query query = some result ∧ result.objects = scene.scan query := by
  have entries : ∀ entry ∈ visited index.current query.lanes, scene.laneIndex entry.1 = some entry.2 := by
    rintro ⟨lane, records⟩ inside
    rw [← holds.lanes lane]
    exact mem_toList.mp (mem_filter.mp inside).1
  have goes : ∀ entry ∈ index.current.lanes.toList, ∀ record ∈ entry.2.records, record.lane = entry.1 :=
    fun entry inside record member => lane_of_mem holds.keyed holds.lanes inside member
  have perm := (records_perm holds.keyed holds.lanes).filter query.finds
  have sorted := (sorted_records holds.keyed holds.lanes).filter query.finds
  unfold TimelineSceneSnapshot.query
  rw [forEachLane_eq _ forward]
  refine ⟨_, rfl, ?_⟩
  rw [query_objects query _ entries, visited, filter_visited query goes, TimelineSceneSnapshot.noResult, nil_append, Scene.scan]
  refine Perm.eq_of_pairwise ?_ sorted (sorted_insertionSort _ _) (perm.trans (perm_insertionSort _ _).symm)
  intro a b aInside bInside below above
  have ids := sceneOrder_eq (Std.OrientedCmp.isLE_antisymm below above)
  have aHeld := (mem_intoValues_of_keyed holds.keyed).mp (mem_filter.mp (perm.mem_iff.mp aInside)).1
  have bMember := (perm_insertionSort _ _).mem_iff.mp bInside
  have bHeld := (mem_intoValues_of_keyed holds.keyed).mp (mem_filter.mp bMember).1
  rw [ids, bHeld] at aHeld
  exact (Option.some.inj aHeld).symm

theorem query_congr {snapshot other : TimelineSceneSnapshot K L P} (lanes : snapshot.lanes = other.lanes)
    (count : snapshot.objectCount = other.objectCount) (query : TimelineSceneQuery L) : snapshot.query query = other.query query := by
  unfold TimelineSceneSnapshot.query TimelineSceneSnapshot.forEachLane TimelineSceneSnapshot.noResult
  rw [lanes, count]

theorem holds_unique {other : TimelineSceneIndex K L P} (holds : index.Holds scene) (others : other.Holds scene) :
    index.current.lanes = other.current.lanes ∧ index.current.objectCount = other.current.objectCount := by
  refine ⟨?_, holds.counted.trans others.counted.symm⟩
  apply ExtTreeMap.ext_getElem?
  intro lane
  rw [holds.lanes, others.lanes]

end Snapshots

variable {scene : Scene K L P} {index : TimelineSceneIndex K L P}

theorem ofRecords_intoValues (keyed : scene.Keyed) {records : List (TimelineObjectRecord K L P)}
    (perm : records.Perm scene.intoValues) : Scene.ofRecords records = scene := by
  have distinct : (records.map (·.id)).Nodup := (perm.map (·.id)).nodup_iff.mpr (nodup_ids keyed)
  apply ExtTreeMap.ext_getElem?
  intro id
  unfold Scene.ofRecords
  cases held : scene[id]? with
  | some record =>
    have inside : record ∈ records := perm.mem_iff.mpr (mem_intoValues.mpr ⟨id, held⟩)
    rw [← keyed id record held]
    exact Scene.lookup_places _ distinct inside
  | none =>
    rw [Scene.lookup_places_other, ExtTreeMap.getElem?_empty]
    intro inside
    obtain ⟨record, member, rfl⟩ := mem_map.mp inside
    have found := (mem_intoValues_of_keyed keyed).mp (perm.mem_iff.mp member)
    rw [found] at held
    cases held

def accepted (event : Event (TimelineSceneIndex K L P) (TimelineSceneUpdate K L P)) : Bool :=
  (event.before.applyUpdate event.action).isOk

def sceneAfter (scene : Scene K L P) (events : List (Event (TimelineSceneIndex K L P) (TimelineSceneUpdate K L P))) :
    Scene K L P :=
  events.foldl (fun scene event => if accepted event then scene.update event.action else scene) scene

theorem afterUpdate_holds (holds : index.Holds scene)
    (update : TimelineSceneUpdate K L P) :
    (index.afterUpdate update).Holds (if accepted ⟨index, update⟩ then scene.update update else scene) := by
  unfold accepted afterUpdate
  cases applied : index.applyUpdate update with
  | error error => exact holds
  | ok result =>
    obtain ⟨next, checked⟩ := applyUpdate_ok applied
    obtain ⟨result', after, applied', held, -⟩ := holds.applyUpdate checked
    rw [applied'] at applied
    cases applied
    exact held

theorem run_holds {opened : TimelineSceneIndex K L P} (holds : opened.Holds scene)
    {events : List (Event (TimelineSceneIndex K L P) (TimelineSceneUpdate K L P))}
    (run : Run afterUpdate (· = opened) events index) : index.Holds (sceneAfter scene events) := by
  induction run with
  | start init =>
    subst init
    exact holds
  | step run update ih =>
    unfold sceneAfter
    rw [foldl_append]
    exact afterUpdate_holds ih update

def Answers (snapshot : TimelineSceneSnapshot K L P) (scene : Scene K L P) : Prop :=
  snapshot.objectCount = scene.size ∧
    ∀ query : TimelineSceneQuery L, ¬ query.lanes.Reversed →
      ∃ result, snapshot.query query = some result ∧ result.objects = scene.scan query ∧
        ∀ (space : TimelineSpace) (sourceRevision : U64) (records : List (TimelineObjectRecord K L P)),
          records.Perm scene.intoValues →
            ∃ fresh, TimelineSceneIndex.fromRecords space sourceRevision records = .ok fresh ∧
              fresh.current.query query = some result

theorem TimelineSceneIndex.Holds.answers (holds : index.Holds scene) :
    Answers index.current scene := by
  refine ⟨holds.counted, ?_⟩
  intro query forward
  obtain ⟨result, answered, objects⟩ := query_eq_scan holds forward
  refine ⟨result, answered, objects, ?_⟩
  intro space sourceRevision records perm
  have distinct : (records.map (·.id)).Nodup := (perm.map (·.id)).nodup_iff.mpr (nodup_ids holds.keyed)
  obtain ⟨fresh, built, held, -⟩ := fromRecords_holds space sourceRevision distinct
  rw [ofRecords_intoValues holds.keyed perm] at held
  obtain ⟨lanes, count⟩ := holds_unique held holds
  exact ⟨fresh, built, by rw [query_congr lanes count, answered]⟩

/-- In every run of updates on an index of distinct records, every snapshot answers every query whose lane range is not
    reversed like a scan of the records it was taken of. No update panics, and a rejected one changes nothing. -/
theorem snapshots_answer_as_scan (space : TimelineSpace) (sourceRevision : U64) (records : List (TimelineObjectRecord K L P))
    (distinct : (records.map (·.id)).Nodup) :
    ∃ opened, TimelineSceneIndex.fromRecords space sourceRevision records = .ok opened ∧
      ∀ events index, Run TimelineSceneIndex.afterUpdate (· = opened) events index →
        Answers index.current (sceneAfter (Scene.ofRecords records) events) ∧
          ∀ earlier event later, events = earlier ++ event :: later →
            Answers event.before.current (sceneAfter (Scene.ofRecords records) earlier) ∧
              ∀ error, event.before.applyUpdate event.action = .error error →
                error ≠ .panic ∧ event.before.afterUpdate event.action = event.before := by
  obtain ⟨opened, built, holds, -⟩ := TimelineSceneIndex.fromRecords_holds space sourceRevision distinct
  refine ⟨opened, built, ?_⟩
  intro events index run
  refine ⟨(run_holds holds run).answers, ?_⟩
  intro earlier event later split
  have before := run_holds holds (run.upto split)
  refine ⟨before.answers, ?_⟩
  intro error rejected
  constructor
  · rintro rfl
    exact before.never_panics rejected
  · unfold TimelineSceneIndex.afterUpdate
    rw [rejected]

section Clips

abbrev ObjectId := TimelineObjectId U64 U64 U64 U64 U64

def clipRecord (id lane : U64) (start stop : Int) : TimelineObjectRecord ObjectId U64 U64 :=
  ⟨.clip id, lane, (TimelineSpan.point (.saturate start)).union (.point (.saturate stop)), .wrap 10, id⟩

def firstClip : TimelineObjectRecord ObjectId U64 U64 := clipRecord 1 1 0 10

def secondClip : TimelineObjectRecord ObjectId U64 U64 := clipRecord 2 2 30 40

def firstFrame : TimelineRange := ⟨.saturate 0, .saturate 1, by decide⟩

theorem clips_answer_as_scan :
    ([firstClip, secondClip].map (·.id)).Nodup ∧
      ∃ opened, TimelineSceneIndex.fromRecords .projectFrames 10 [firstClip, secondClip] = .ok opened ∧
        ∀ events index, Run TimelineSceneIndex.afterUpdate (· = opened) events index →
          Answers index.current (sceneAfter (Scene.ofRecords [firstClip, secondClip]) events) ∧
            ∀ earlier event later, events = earlier ++ event :: later →
              Answers event.before.current (sceneAfter (Scene.ofRecords [firstClip, secondClip]) earlier) ∧
                ∀ error, event.before.applyUpdate event.action = .error error →
                  error ≠ .panic ∧ event.before.afterUpdate event.action = event.before :=
  ⟨by decide, snapshots_answer_as_scan .projectFrames 10 [firstClip, secondClip] (by decide)⟩

/-- A lane range that ends before it starts is not answered: looking it up panics. -/
theorem reversed_lanes_not_answered :
    ([firstClip, secondClip].map (·.id)).Nodup ∧
      ∃ opened, TimelineSceneIndex.fromRecords .projectFrames 10 [firstClip, secondClip] = .ok opened ∧
        opened.current.query ⟨firstFrame, .range 2 1, none⟩ = none ∧
          (Scene.ofRecords [firstClip, secondClip]).scan ⟨firstFrame, .range 2 1, none⟩ = [] := by
  have distinct : ([firstClip, secondClip].map (·.id)).Nodup := by decide
  obtain ⟨opened, built, -⟩ := TimelineSceneIndex.fromRecords_holds .projectFrames 10 distinct
  refine ⟨distinct, opened, built, rfl, ?_⟩
  decide

end Clips

end Audec.TimelineScene

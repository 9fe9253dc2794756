import Audec.TimelineScene.Update

/-! What an index holds: the lanes, the locations and the count all come from one set of records. -/

open Machine Checked Entries List
open Std (ExtTreeMap ExtTreeSet)
open IntervalTree (Tree)

namespace Audec.TimelineScene

variable {K L P : Type} [LinearOrder K] [LinearOrder L]

abbrev Scene (K L P : Type) [LinearOrder K] := LaneRecords K L P

namespace Scene

def place (scene : Scene K L P) (record : TimelineObjectRecord K L P) : Scene K L P := scene.insert record.id record

def ofRecords (records : List (TimelineObjectRecord K L P)) : Scene K L P := records.foldl place ∅

def update (scene : Scene K L P) (update : TimelineSceneUpdate K L P) : Scene K L P :=
  update.upserts.foldl place (update.removals.toList.foldl (fun scene id => scene.erase id) scene)

section

variable (scene : Scene K L P)

def inLane (lane : L) : LaneRecords K L P := scene.filter fun _ record => record.lane = lane

def laneIndex (lane : L) : Option (LaneIndex K L P) :=
  if (scene.inLane lane).isEmpty then none else some (LaneIndex.fromRecords (scene.inLane lane).intoValues)

/-- Every record stands under its own identity. -/
def Keyed : Prop := ∀ (id : K) (record : TimelineObjectRecord K L P), scene[id]? = some record → record.id = id

theorem lookup_inLane (lane : L) (id : K) :
    (scene.inLane lane)[id]? = scene[id]?.filter fun record => record.lane = lane := by
  rw [inLane, ExtTreeMap.getElem?_filter']

end

variable {lane : L} {scene : Scene K L P}

variable {id : K} {record : TimelineObjectRecord K L P}

theorem inLane_eq_some :
    (scene.inLane lane)[id]? = some record ↔ scene[id]? = some record ∧ record.lane = lane := by
  rw [lookup_inLane, Option.filter_eq_some_iff, decide_eq_true_eq]

theorem lookup_place (scene : Scene K L P) (record : TimelineObjectRecord K L P) (id : K) :
    (scene.place record)[id]? = if record.id = id then some record else scene[id]? :=
  lookup_insert scene record.id id record

theorem Keyed.place (keyed : scene.Keyed) (record : TimelineObjectRecord K L P) :
    (scene.place record).Keyed := by
  intro id found held
  rw [lookup_place] at held
  split at held
  · cases held
    assumption
  · exact keyed id found held

theorem Keyed.erase (keyed : scene.Keyed) (id : K) : Scene.Keyed (scene.erase id) := by
  intro other found held
  rw [lookup_erase] at held
  split at held
  · cases held
  · exact keyed other found held

theorem Keyed.empty : Scene.Keyed (∅ : Scene K L P) := by
  intro id record held
  rw [ExtTreeMap.getElem?_empty] at held
  cases held

theorem Keyed.places (keyed : scene.Keyed) (records : List (TimelineObjectRecord K L P)) :
    Scene.Keyed (records.foldl Scene.place scene) := by
  induction records generalizing scene with
  | nil => exact keyed
  | cons record records ih => exact ih (keyed.place record)

theorem Keyed.erases (keyed : scene.Keyed) (ids : List K) :
    Scene.Keyed (ids.foldl (fun scene id => scene.erase id) scene) := by
  induction ids generalizing scene with
  | nil => exact keyed
  | cons id ids ih => exact ih (keyed.erase id)

theorem Keyed.update (keyed : scene.Keyed) (update : TimelineSceneUpdate K L P) :
    (scene.update update).Keyed :=
  (keyed.erases _).places _

theorem inLane_erase_self :
    Scene.inLane (scene.erase id) lane = (scene.inLane lane).erase id := by
  apply ExtTreeMap.ext_getElem?
  intro other
  rw [lookup_inLane, lookup_erase, lookup_erase, lookup_inLane]
  split <;> rfl

theorem inLane_erase_other {old : TimelineObjectRecord K L P}
    (held : scene[id]? = some old) (other : old.lane ≠ lane) : Scene.inLane (scene.erase id) lane = scene.inLane lane := by
  rw [inLane_erase_self]
  apply erase_absent
  rw [lookup_inLane, held]
  simp [other]

theorem inLane_place_self (scene : Scene K L P) (record : TimelineObjectRecord K L P) :
    (scene.place record).inLane record.lane = (scene.inLane record.lane).insert record.id record := by
  apply ExtTreeMap.ext_getElem?
  intro other
  rw [lookup_inLane, lookup_place, lookup_insert, lookup_inLane]
  split
  · simp
  · rfl

theorem inLane_place_other
    (absent : scene[record.id]? = none) (other : record.lane ≠ lane) :
    (scene.place record).inLane lane = scene.inLane lane := by
  apply ExtTreeMap.ext_getElem?
  intro id
  rw [lookup_inLane, lookup_place, lookup_inLane]
  split
  · rename_i same
    subst same
    rw [absent]
    simp [other]
  · rfl

end Scene

variable {record : TimelineObjectRecord K L P}

theorem mem_intoValues {records : LaneRecords K L P} :
    record ∈ records.intoValues ↔ ∃ id : K, records[id]? = some record := by
  unfold LaneRecords.intoValues
  rw [mem_map]
  constructor
  · rintro ⟨⟨id, held⟩, inside, rfl⟩
    exact ⟨id, mem_toList.mp inside⟩
  · rintro ⟨id, held⟩
    exact ⟨(id, record), mem_toList.mpr held, rfl⟩

variable {scene : Scene K L P}

theorem mem_intoValues_of_keyed (keyed : scene.Keyed) :
    record ∈ scene.intoValues ↔ scene[record.id]? = some record := by
  rw [mem_intoValues]
  constructor
  · rintro ⟨id, held⟩
    rwa [keyed id record held]
  · intro held
    exact ⟨record.id, held⟩

theorem nodup_ids (keyed : scene.Keyed) : (scene.intoValues.map (·.id)).Nodup := by
  have same : scene.intoValues.map (·.id) = scene.toList.map Prod.fst := by
    unfold LaneRecords.intoValues
    rw [map_map]
    apply map_congr_left
    rintro ⟨id, record⟩ inside
    exact keyed id record (mem_toList.mp inside)
  rw [same, ExtTreeMap.map_fst_toList_eq_keys]
  exact ExtTreeMap.nodup_keys

theorem Scene.Keyed.inLane (keyed : scene.Keyed) (lane : L) : Scene.Keyed (scene.inLane lane) := by
  intro id record held
  exact keyed id record (Scene.inLane_eq_some.mp held).1

theorem LaneIndex.fromRecords_perm (records : List (TimelineObjectRecord K L P)) :
    (LaneIndex.fromRecords records).records.Perm records :=
  perm_insertionSort _ _

structure TimelineSceneIndex.Holds (index : TimelineSceneIndex K L P) (scene : Scene K L P) : Prop where
  keyed : scene.Keyed
  lanes : ∀ lane : L, index.current.lanes[lane]? = scene.laneIndex lane
  located : ∀ id : K, index.locations[id]? = scene[id]?.map (·.lane)
  counted : index.current.objectCount = scene.size

namespace Scene

variable {index : LaneIndex K L P} {lane : L}

theorem laneIndex_eq_some (held : scene.laneIndex lane = some index) :
    index = LaneIndex.fromRecords (scene.inLane lane).intoValues := by
  unfold laneIndex at held
  split at held
  · cases held
  · exact (Option.some.inj held).symm

theorem laneIndex_eq_none (absent : scene.laneIndex lane = none) : scene.inLane lane = ∅ := by
  unfold laneIndex at absent
  split at absent
  · rename_i empty
    exact ExtTreeMap.isEmpty_iff.mp empty
  · cases absent

theorem mem_laneIndex (keyed : scene.Keyed) (held : scene.laneIndex lane = some index)
    : record ∈ index.records ↔ scene[record.id]? = some record ∧ record.lane = lane := by
  rw [laneIndex_eq_some held, (LaneIndex.fromRecords_perm _).mem_iff, mem_intoValues_of_keyed (keyed.inLane lane), inLane_eq_some]

theorem laneIndex_of_mem {id : K} (held : scene[id]? = some record) :
    ∃ index, scene.laneIndex record.lane = some index := by
  cases present : scene.laneIndex record.lane with
  | some index => exact ⟨index, rfl⟩
  | none =>
    have inside : (scene.inLane record.lane)[id]? = some record := inLane_eq_some.mpr ⟨held, rfl⟩
    rw [laneIndex_eq_none present] at inside
    simp at inside

end Scene

end Audec.TimelineScene

/-! What one update does to an index: the staged lanes follow the scene, and every index it publishes holds one. -/

namespace Audec.TimelineScene

variable {K L P : Type} [LinearOrder K] [LinearOrder L]

def mergeAll (touched : List (L × TimelineSpan)) : ExtTreeMap L TimelineSpan :=
  touched.foldl (fun invalidated entry => mergeInvalidation invalidated entry.1 entry.2) ∅

theorem mergeAll_concat (touched : List (L × TimelineSpan)) (lane : L) (span : TimelineSpan) :
    mergeAll (touched ++ [(lane, span)]) = mergeInvalidation (mergeAll touched) lane span := by
  rw [mergeAll, mergeAll, foldl_append]
  rfl

namespace Scene

/-- Where the object is, if it is there. -/
def spansOf (scene : Scene K L P) (id : K) : List (L × TimelineSpan) :=
  scene[id]?.toList.map fun record => (record.lane, record.span)

def touchedBy (scene : Scene K L P) (update : TimelineSceneUpdate K L P) : List (L × TimelineSpan) :=
  update.removals.toList.flatMap scene.spansOf ++
    update.upserts.flatMap fun record => scene.spansOf record.id ++ [(record.lane, record.span)]

variable {other : K}

theorem spansOf_erase (scene : Scene K L P) {id : K} (different : id ≠ other) :
    spansOf (scene.erase id) other = scene.spansOf other := by
  rw [spansOf, lookup_erase, if_neg different, spansOf]

theorem spansOf_place (scene : Scene K L P) {record : TimelineObjectRecord K L P} (different : record.id ≠ other) :
    (scene.place record).spansOf other = scene.spansOf other := by
  rw [spansOf, lookup_place, if_neg different, spansOf]

end Scene

structure Staging.Holds (staging : Staging K L P) (scene : Scene K L P) (affected : ExtTreeSet L)
    (touched : List (L × TimelineSpan)) : Prop where
  staged : ∀ lane : L, staging.staged[lane]? = if lane ∈ affected then some (scene.inLane lane) else none
  invalidated : staging.invalidated = mergeAll touched

def Ready (locations : ExtTreeMap K L) (affected : ExtTreeSet L) (scene : Scene K L P) (id : K) : Prop :=
  locations[id]? = scene[id]?.map (·.lane) ∧ ∀ record, scene[id]? = some record → record.lane ∈ affected

variable {affected : ExtTreeSet L} {locations : ExtTreeMap K L} {other : K} {scene : Scene K L P}

theorem Ready.erase {id : K}
    (ready : Ready locations affected scene other) (different : id ≠ other) : Ready locations affected (scene.erase id) other := by
  unfold Ready
  rw [lookup_erase, if_neg different]
  exact ready

theorem Ready.place
    {record : TimelineObjectRecord K L P} (ready : Ready locations affected scene other)
    (different : record.id ≠ other) : Ready locations affected (scene.place record) other := by
  unfold Ready
  rw [Scene.lookup_place, if_neg different]
  exact ready

namespace Staging

variable {staging : Staging K L P} {touched : List (L × TimelineSpan)}

section

variable (holds : staging.Holds scene affected touched)
include holds

theorem Holds.remove {id : K} (ready : Ready locations affected scene id) :
    (staging.remove locations id).Holds (scene.erase id) affected (touched ++ scene.spansOf id) := by
  unfold Staging.remove Scene.spansOf
  cases held : scene[id]? with
  | none =>
    have nowhere : locations[id]? = none := by rw [ready.1, held, Option.map_none]
    rw [nowhere, erase_absent held, Option.toList_none, map_nil, append_nil]
    exact holds
  | some old =>
    have located : locations[id]? = some old.lane := by rw [ready.1, held, Option.map_some]
    have staged := holds.staged old.lane
    rw [if_pos (ready.2 old held)] at staged
    have inside : (scene.inLane old.lane)[id]? = some old := Scene.inLane_eq_some.mpr ⟨held, rfl⟩
    simp only [located, withdraw, staged, inside]
    refine ⟨?_, ?_⟩
    · intro lane
      rw [lookup_insert, holds.staged]
      by_cases same : old.lane = lane
      · rw [if_pos same, ← same, if_pos (ready.2 old held), Scene.inLane_erase_self]
      · rw [if_neg same, Scene.inLane_erase_other held same]
    · rw [holds.invalidated, Option.toList_some, map_singleton, mergeAll_concat]

theorem Holds.removeAll {ids : List K} (distinct : ids.Nodup)
    (ready : ∀ id ∈ ids, Ready locations affected scene id) :
    (ids.foldl (Staging.remove locations) staging).Holds (ids.foldl (fun scene id => scene.erase id) scene) affected
      (touched ++ ids.flatMap scene.spansOf) := by
  induction ids generalizing staging scene touched with
  | nil => simpa using holds
  | cons id ids ih =>
    rw [nodup_cons] at distinct
    have apart : ∀ other ∈ ids, id ≠ other := fun other inside same => distinct.1 (same ▸ inside)
    have first := holds.remove (ready id mem_cons_self)
    have rest := ih first distinct.2 fun other inside => (ready other (mem_cons_of_mem _ inside)).erase (apart other inside)
    have same : ids.flatMap (Scene.spansOf (scene.erase id)) = ids.flatMap scene.spansOf :=
      flatMap_congr fun other inside => Scene.spansOf_erase scene (apart other inside)
    rw [same, append_assoc] at rest
    exact rest

theorem Holds.upsert {record : TimelineObjectRecord K L P}
    (ready : Ready locations affected scene record.id) (goes : record.lane ∈ affected) :
    ∃ after, staging.upsert locations record = some after ∧
      after.Holds (scene.place record) affected (touched ++ (scene.spansOf record.id ++ [(record.lane, record.span)])) := by
  have removed := holds.remove ready
  have staged := removed.staged record.lane
  rw [if_pos goes] at staged
  have placed : Scene.place (scene.erase record.id) record = scene.place record := by
    apply ExtTreeMap.ext_getElem?
    intro id
    rw [Scene.lookup_place, Scene.lookup_place, lookup_erase]
    split <;> rfl
  have absent : (scene.erase record.id)[record.id]? = none := by
    rw [lookup_erase, if_pos rfl]
  unfold Staging.upsert
  simp only [staged, Option.map_some, Option.some.injEq, exists_eq_left']
  refine ⟨?_, ?_⟩
  · intro lane
    rw [lookup_insert, removed.staged, ← placed]
    by_cases same : record.lane = lane
    · rw [if_pos same, ← same, if_pos goes, Scene.inLane_place_self]
    · rw [if_neg same, Scene.inLane_place_other absent same]
  · rw [removed.invalidated, ← append_assoc, mergeAll_concat]

theorem Holds.upsertAll {records : List (TimelineObjectRecord K L P)}
    (distinct : (records.map (·.id)).Nodup) (ready : ∀ record ∈ records, Ready locations affected scene record.id)
    (goes : ∀ record ∈ records, record.lane ∈ affected) :
    ∃ after, records.foldlM (Staging.upsert locations) staging = some after ∧
      after.Holds (records.foldl Scene.place scene) affected
        (touched ++ records.flatMap fun record => scene.spansOf record.id ++ [(record.lane, record.span)]) := by
  induction records generalizing staging scene touched with
  | nil =>
    refine ⟨staging, rfl, ?_⟩
    simpa using holds
  | cons record records ih =>
    rw [map_cons, nodup_cons] at distinct
    have apart : ∀ other ∈ records, record.id ≠ other.id := by
      intro other inside same
      apply distinct.1
      rw [same]
      exact mem_map_of_mem inside
    obtain ⟨next, done, first⟩ := holds.upsert (ready record mem_cons_self) (goes record mem_cons_self)
    obtain ⟨after, finished, rest⟩ := ih first distinct.2
      (fun other inside => (ready other (mem_cons_of_mem _ inside)).place (apart other inside))
      (fun other inside => goes other (mem_cons_of_mem _ inside))
    have same : records.flatMap (fun other => (scene.place record).spansOf other.id ++ [(other.lane, other.span)]) =
        records.flatMap fun other => scene.spansOf other.id ++ [(other.lane, other.span)] := by
      apply flatMap_congr
      intro other inside
      rw [Scene.spansOf_place scene (apart other inside)]
    rw [same, append_assoc] at rest
    refine ⟨after, ?_, rest⟩
    rw [foldlM_cons, done]
    exact finished

end

end Staging

end Audec.TimelineScene

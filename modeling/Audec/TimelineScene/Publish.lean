import Audec.TimelineScene.Coherence

/-! An accepted update publishes the index of the updated scene; nothing else changes the index. -/

open Machine Checked Entries List
open Std (ExtTreeMap ExtTreeSet)

namespace Audec.TimelineScene

open Scene

variable {K L P : Type} [LinearOrder K] [LinearOrder L]

/-- What the checks of an update leave: each object is named once. -/
structure TimelineSceneUpdate.Distinct (update : TimelineSceneUpdate K L P) : Prop where
  upserts : (update.upserts.map (·.id)).Nodup
  apart : ∀ record ∈ update.upserts, record.id ∉ update.removals

namespace Scene

variable {scene : Scene K L P} {update : TimelineSceneUpdate K L P}

theorem foldl_place (scene : Scene K L P) (records : List (TimelineObjectRecord K L P)) :
    records.foldl place scene =
      (records.map fun record => (record.id, record)).foldl (fun map entry => map.insert entry.1 entry.2) scene := by
  rw [foldl_map]
  rfl

variable {record : TimelineObjectRecord K L P} {records : List (TimelineObjectRecord K L P)} {id : K}

theorem lookup_places (scene : Scene K L P)
    (distinct : (records.map (·.id)).Nodup) (inside : record ∈ records) :
    (records.foldl place scene)[record.id]? = some record := by
  rw [foldl_place]
  apply lookup_foldl_present (fun map key value => map.insert key value) (fun _ value => some value)
    (fun map key value other => lookup_insert map key other value)
  · rwa [map_map]
  · exact mem_map.mpr ⟨record, inside, rfl⟩

theorem lookup_places_other (scene : Scene K L P)
    (absent : id ∉ records.map (·.id)) : (records.foldl place scene)[id]? = scene[id]? := by
  rw [foldl_place]
  apply lookup_foldl_absent (fun map key value => map.insert key value) (fun _ value => some value)
    (fun map key value other => lookup_insert map key other value)
  rwa [map_map]

theorem lookup_update_upsert (distinct : update.Distinct)
    (inside : record ∈ update.upserts) : (scene.update update)[record.id]? = some record :=
  lookup_places _ distinct.upserts inside

theorem lookup_update_other (absent : id ∉ update.upserts.map (·.id)) :
    (scene.update update)[id]? = if id ∈ update.removals then none else scene[id]? := by
  rw [Scene.update, lookup_places_other _ absent, lookup_foldl_erase]
  simp only [ExtTreeSet.mem_toList]

end Scene

namespace TimelineSceneIndex

variable {index : TimelineSceneIndex K L P} {scene : Scene K L P} {update : TimelineSceneUpdate K L P}

variable {id : K} {lane : L} {next : U64}

theorem mem_addLocation {affected : ExtTreeSet L} :
    lane ∈ index.addLocation affected id ↔ index.locations[id]? = some lane ∨ lane ∈ affected := by
  unfold addLocation
  split
  · rename_i where_ held
    rw [ExtTreeSet.mem_insert, compare_eq_iff_eq, held, Option.some.injEq]
  · rename_i held
    rw [held]
    simp

theorem mem_affected :
    lane ∈ index.affected update ↔ (∃ id ∈ update.removals, index.locations[id]? = some lane) ∨
      ∃ record ∈ update.upserts, index.locations[record.id]? = some lane ∨ record.lane = lane := by
  have located : ∀ (ids : List K) (affected : ExtTreeSet L),
      lane ∈ ids.foldl index.addLocation affected ↔ (∃ id ∈ ids, index.locations[id]? = some lane) ∨ lane ∈ affected := by
    intro ids
    induction ids with
    | nil => simp
    | cons id ids ih =>
      intro affected
      rw [foldl_cons, ih, mem_addLocation]
      simp only [mem_cons, exists_eq_or_imp]
      rw [or_assoc, or_left_comm]
  have upserted : ∀ (records : List (TimelineObjectRecord K L P)) (affected : ExtTreeSet L),
      lane ∈ records.foldl (fun affected record => (index.addLocation affected record.id).insert record.lane) affected ↔
        (∃ record ∈ records, index.locations[record.id]? = some lane ∨ record.lane = lane) ∨ lane ∈ affected := by
    intro records
    induction records with
    | nil => simp
    | cons record records ih =>
      intro affected
      rw [foldl_cons, ih, ExtTreeSet.mem_insert, compare_eq_iff_eq, mem_addLocation]
      simp only [mem_cons, exists_eq_or_imp, or_assoc, or_left_comm, or_comm]
  unfold affected
  rw [upserted, located]
  simp only [ExtTreeSet.mem_toList, ExtTreeSet.not_mem_empty, or_false]
  rw [or_comm]

theorem Holds.laneRecords (holds : index.Holds scene) (lane : L) : index.laneRecords lane = scene.inLane lane := by
  unfold TimelineSceneIndex.laneRecords
  rw [holds.lanes]
  cases held : scene.laneIndex lane with
  | none => exact (laneIndex_eq_none held).symm
  | some records =>
    have keyed := holds.keyed.inLane lane
    have perm : records.records.Perm (scene.inLane lane).intoValues := by
      rw [laneIndex_eq_some held]
      exact LaneIndex.fromRecords_perm _
    have distinct : (records.records.map (·.id)).Nodup := (perm.map (·.id)).nodup_iff.mpr (nodup_ids keyed)
    apply ExtTreeMap.ext_getElem?
    intro id
    dsimp only
    rw [ExtTreeMap.ofList_eq_foldl, ← foldl_place]
    cases found : (scene.inLane lane)[id]? with
    | some record =>
      have inside : record ∈ records.records := perm.mem_iff.mpr (mem_intoValues.mpr ⟨id, found⟩)
      rw [← keyed id record found]
      exact lookup_places _ distinct inside
    | none =>
      rw [lookup_places_other, ExtTreeMap.getElem?_empty]
      intro inside
      obtain ⟨record, member, rfl⟩ := mem_map.mp inside
      have held := (mem_intoValues_of_keyed keyed).mp (perm.mem_iff.mp member)
      rw [held] at found
      cases found

theorem Holds.stage (holds : index.Holds scene) (affected : ExtTreeSet L) :
    Staging.Holds ⟨index.stage affected, ∅⟩ scene affected [] := by
  refine ⟨?_, rfl⟩
  intro lane
  unfold TimelineSceneIndex.stage
  rw [lookup_foldl_insert, holds.laneRecords, ExtTreeMap.getElem?_empty]
  simp only [ExtTreeSet.mem_toList]

variable {records : List (TimelineObjectRecord K L P)} {lanes : ExtTreeMap L (LaneIndex K L P)}

theorem checkUpserts_ok {seen : ExtTreeSet K} {removals : ExtTreeSet K} :
    checkUpserts removals seen records = .ok () ↔
      (records.map (·.id)).Nodup ∧ ∀ record ∈ records, record.id ∉ seen ∧ record.id ∉ removals := by
  induction records generalizing seen with
  | nil => simp [checkUpserts]
  | cons record records ih =>
    unfold checkUpserts
    rw [map_cons, nodup_cons]
    simp only [mem_cons, forall_eq_or_imp]
    split
    · rename_i twice
      simp [twice]
    · rename_i fresh
      split
      · rename_i removed
        simp [removed]
      · rename_i kept
        rw [ih]
        simp only [ExtTreeSet.mem_insert, compare_eq_iff_eq, not_or, mem_map, not_exists, not_and]
        constructor
        · rintro ⟨distinct, rest⟩
          exact ⟨⟨fun other inside same => (rest other inside).1.1 same.symm, distinct⟩, ⟨fresh, kept⟩,
            fun other inside => ⟨(rest other inside).1.2, (rest other inside).2⟩⟩
        · rintro ⟨⟨apart, distinct⟩, -, rest⟩
          exact ⟨distinct, fun other inside => ⟨⟨fun same => apart other inside same.symm, (rest other inside).1⟩, (rest other inside).2⟩⟩

theorem checkUpdate_ok :
    index.checkUpdate update = .ok next ↔
      update.expectedIndexRevision = index.current.revision.index ∧ index.current.revision.source ≤ update.sourceRevision ∧
        checkedSucc index.current.revision.index = some next ∧ update.Distinct := by
  have distinct : checkUpserts update.removals ∅ update.upserts = .ok () ↔ update.Distinct := by
    rw [checkUpserts_ok]
    constructor
    · rintro ⟨upserts, rest⟩
      exact ⟨upserts, fun record inside => (rest record inside).2⟩
    · rintro ⟨upserts, apart⟩
      exact ⟨upserts, fun record inside => ⟨ExtTreeSet.not_mem_empty, apart record inside⟩⟩
  unfold checkUpdate
  simp only [bind_unit_ok, ensure_ok]
  cases checkedSucc index.current.revision.index with
  | none => simp [bind_ok]
  | some following =>
    rw [Option.elim_some, bind_ok]
    simp only [Except.ok.injEq, exists_eq_left', bind_unit_ok, distinct, Option.some.injEq, pure, Except.pure]
    tauto

theorem Holds.ready (holds : index.Holds scene)
    (touched : id ∈ update.removals ∨ ∃ record ∈ update.upserts, record.id = id) :
    Ready index.locations (index.affected update) scene id := by
  refine ⟨holds.located id, ?_⟩
  intro record held
  rw [mem_affected]
  have located : index.locations[id]? = some record.lane := by rw [holds.located, held, Option.map_some]
  rcases touched with removed | ⟨upserted, inside, rfl⟩
  · exact .inl ⟨id, removed, located⟩
  · exact .inr ⟨upserted, inside, .inl located⟩

section

variable (holds : index.Holds scene) (distinct : update.Distinct)
include holds distinct

theorem Holds.staging :
    ∃ staging, index.staging update = some staging ∧
      staging.Holds (scene.update update) (index.affected update) (scene.touchedBy update) := by
  have removals : update.removals.toList.Nodup := by
    apply List.Pairwise.imp _ ExtTreeSet.distinct_toList
    rintro a b different rfl
    exact different (compare_eq_iff_eq.mpr rfl)
  have removed := (holds.stage (index.affected update)).removeAll removals
    fun id inside => holds.ready (.inl (ExtTreeSet.mem_toList.mp inside))
  have untouched : ∀ record ∈ update.upserts,
      (update.removals.toList.foldl (fun scene id => scene.erase id) scene)[record.id]? = scene[record.id]? := by
    intro record inside
    rw [lookup_foldl_erase, if_neg fun member => distinct.apart record inside (ExtTreeSet.mem_toList.mp member)]
  obtain ⟨after, done, staged⟩ := removed.upsertAll distinct.upserts
    (fun record inside => by
      unfold Ready
      rw [untouched record inside]
      exact holds.ready (.inr ⟨record, inside, rfl⟩))
    (fun record inside => mem_affected.mpr (.inr ⟨record, inside, .inr rfl⟩))
  refine ⟨after, done, ?_⟩
  have spans : update.upserts.flatMap (fun record =>
        spansOf (update.removals.toList.foldl (fun scene id => scene.erase id) scene) record.id ++ [(record.lane, record.span)]) =
      update.upserts.flatMap fun record => scene.spansOf record.id ++ [(record.lane, record.span)] := by
    apply flatMap_congr
    intro record inside
    rw [spansOf, untouched record inside, spansOf]
  rw [spans, nil_append] at staged
  exact staged

theorem Holds.inLane_untouched
    (untouched : lane ∉ index.affected update) : (scene.update update).inLane lane = scene.inLane lane := by
  have elsewhere : ∀ id : K, id ∈ update.removals ∨ (∃ record ∈ update.upserts, record.id = id) →
      (scene.inLane lane)[id]? = none := by
    intro id touched
    cases held : (scene.inLane lane)[id]? with
    | none => rfl
    | some record =>
      obtain ⟨found, rfl⟩ := inLane_eq_some.mp held
      exact absurd ((holds.ready touched).2 record found) untouched
  apply ExtTreeMap.ext_getElem?
  intro id
  by_cases upserted : id ∈ update.upserts.map (·.id)
  · obtain ⟨record, inside, rfl⟩ := mem_map.mp upserted
    rw [elsewhere _ (.inr ⟨record, inside, rfl⟩), lookup_inLane, lookup_update_upsert distinct inside,
      Option.filter_eq_none_iff]
    intro found same goes
    cases same
    exact untouched (mem_affected.mpr (.inr ⟨record, inside, .inr (of_decide_eq_true goes)⟩))
  · rw [lookup_inLane, lookup_update_other upserted]
    split
    · rename_i removed
      rw [elsewhere _ (.inl removed), Option.filter_none]
    · rw [lookup_inLane]

theorem Holds.rebuild {staging : Staging K L P}
    {touched : List (L × TimelineSpan)} (staged : staging.Holds (scene.update update) (index.affected update) touched) (lane : L) :
    (index.rebuild staging.staged)[lane]? = (scene.update update).laneIndex lane := by
  have writes : ∀ (lanes : ExtTreeMap L (LaneIndex K L P)) (lane : L) (records : LaneRecords K L P) (other : L),
      (replaceLane lanes lane records)[other]? =
        if lane = other then (if records.isEmpty then none else some (LaneIndex.fromRecords records.intoValues)) else lanes[other]? := by
    intro lanes lane records other
    unfold replaceLane
    split
    · exact lookup_erase _ _ _
    · exact lookup_insert _ _ _ _
  unfold TimelineSceneIndex.rebuild
  rw [lookup_foldl_entries _ _ writes, staged.staged]
  split
  · rfl
  · rename_i untouched
    rw [Option.elim_none, holds.lanes, laneIndex, laneIndex, holds.inLane_untouched distinct untouched]

end

theorem lookup_placeLanes {after : Scene K L P} (keyed : after.Keyed)
    (rebuilt : ∀ lane : L, lanes[lane]? = after.laneIndex lane) (placed : List L) (base : ExtTreeMap K L) (id : K) :
    (placed.foldl (placeLane lanes) base)[id]? =
      if (∃ record, after[id]? = some record ∧ record.lane ∈ placed) then after[id]?.map (·.lane) else base[id]? := by
  induction placed using List.reverseRecOn with
  | nil => simp
  | append_singleton placed lane ih =>
    rw [foldl_append, foldl_cons, foldl_nil]
    have step : ∀ locations : ExtTreeMap K L, (placeLane lanes locations lane)[id]? =
        if ∃ record, after[id]? = some record ∧ record.lane = lane then some lane else locations[id]? := by
      intro locations
      unfold placeLane
      rw [rebuilt]
      cases held : after.laneIndex lane with
      | none =>
        rw [if_neg]
        rintro ⟨record, found, rfl⟩
        obtain ⟨_, present⟩ := laneIndex_of_mem found
        rw [present] at held
        cases held
      | some records =>
        have ids : id ∈ records.records.map (·.id) ↔ ∃ record, after[id]? = some record ∧ record.lane = lane := by
          rw [mem_map]
          constructor
          · rintro ⟨record, inside, rfl⟩
            exact ⟨record, (mem_laneIndex keyed held).mp inside⟩
          · rintro ⟨record, found, goes⟩
            have same := keyed id record found
            refine ⟨record, (mem_laneIndex keyed held).mpr ⟨?_, goes⟩, same⟩
            rwa [same]
        have fold := lookup_foldl_insert (fun _ => lane) (records.records.map (·.id)) locations id
        rw [foldl_map] at fold
        simp only [ids] at fold
        exact fold
    rw [step, ih]
    cases found : after[id]? with
    | none => simp
    | some record =>
      simp only [Option.some.injEq, exists_eq_left', mem_append, mem_singleton, Option.map_some]
      by_cases here : record.lane = lane
      · simp [here]
      · simp [here]

theorem Holds.relocate (holds : index.Holds scene) (distinct : update.Distinct)
    (rebuilt : ∀ lane : L, lanes[lane]? = (scene.update update).laneIndex lane) (id : K) :
    (index.relocate update lanes)[id]? = (scene.update update)[id]?.map (·.lane) := by
  unfold TimelineSceneIndex.relocate
  rw [lookup_placeLanes (holds.keyed.update update) rebuilt, lookup_foldl_erase]
  simp only [ExtTreeSet.mem_toList]
  split
  · rfl
  · rename_i elsewhere
    by_cases upserted : id ∈ update.upserts.map (·.id)
    · obtain ⟨record, inside, rfl⟩ := mem_map.mp upserted
      exact absurd ⟨record, lookup_update_upsert distinct inside, mem_affected.mpr (.inr ⟨record, inside, .inr rfl⟩)⟩ elsewhere
    · rw [lookup_update_other upserted]
      split
      · rfl
      · exact holds.located id

section

variable (keyed : scene.Keyed) (rebuilt : ∀ lane : L, lanes[lane]? = scene.laneIndex lane)
include keyed rebuilt

theorem records_perm :
    (lanes.toList.flatMap fun entry => entry.2.records).Perm scene.intoValues := by
  have inLane : ∀ entry ∈ lanes.toList, ∀ record, record ∈ entry.2.records ↔ scene[record.id]? = some record ∧ record.lane = entry.1 := by
    rintro ⟨lane, records⟩ inside record
    rw [mem_toList, rebuilt] at inside
    exact mem_laneIndex keyed inside
  have once : (lanes.toList.flatMap fun entry => entry.2.records).Nodup := by
    rw [nodup_flatMap]
    constructor
    · rintro ⟨lane, records⟩ inside
      rw [mem_toList, rebuilt] at inside
      have perm : records.records.Perm (scene.inLane lane).intoValues := by
        rw [laneIndex_eq_some inside]
        exact LaneIndex.fromRecords_perm _
      exact perm.nodup_iff.mpr (Nodup.of_map _ (nodup_ids (keyed.inLane lane)))
    · have distinct : (lanes.toList.map Prod.fst).Nodup := by
        rw [ExtTreeMap.map_fst_toList_eq_keys]
        exact ExtTreeMap.nodup_keys
      rw [List.Nodup, pairwise_map] at distinct
      apply distinct.imp_of_mem
      intro first second firstInside secondInside different record both other
      exact different (((inLane first firstInside record).mp both).2.symm.trans ((inLane second secondInside record).mp other).2)
  refine (perm_ext_iff_of_nodup once (Nodup.of_map _ (nodup_ids keyed))).mpr ?_
  intro record
  rw [mem_flatMap, mem_intoValues_of_keyed keyed]
  constructor
  · rintro ⟨entry, inside, member⟩
    exact ((inLane entry inside record).mp member).1
  · intro held
    obtain ⟨records, present⟩ := laneIndex_of_mem held
    have inside : (record.lane, records) ∈ lanes.toList := by rwa [mem_toList, rebuilt]
    exact ⟨_, inside, (inLane _ inside record).mpr ⟨held, rfl⟩⟩

theorem sum_lengths :
    (lanes.toList.map fun entry => entry.2.records.length).sum = scene.size := by
  have length := (records_perm keyed rebuilt).length_eq
  rw [length_flatMap, LaneRecords.intoValues, length_map, ExtTreeMap.length_toList] at length
  exact length

end

theorem Holds.applyUpdate (holds : index.Holds scene) (checked : index.checkUpdate update = .ok next) :
    ∃ result after, index.applyUpdate update = .ok (result, after) ∧ after.Holds (scene.update update) ∧
      result.snapshot = after.current ∧ after.current.revision = ⟨update.sourceRevision, next⟩ ∧
      after.current.space = index.current.space ∧
      result.invalidation.lanes = (mergeAll (scene.touchedBy update)).toList.map fun entry => ⟨entry.1, entry.2⟩ := by
  have distinct := (checkUpdate_ok.mp checked).2.2.2
  obtain ⟨staging, done, staged⟩ := holds.staging distinct
  have keyed := holds.keyed.update update
  have rebuilt := holds.rebuild distinct staged
  unfold TimelineSceneIndex.applyUpdate
  rw [checked, done]
  refine ⟨_, _, rfl, ⟨keyed, rebuilt, holds.relocate distinct rebuilt, sum_lengths keyed rebuilt⟩, rfl, rfl, rfl, ?_⟩
  rw [staged.invalidated]

theorem applyUpdate_ok {result : SceneUpdateResult K L P × TimelineSceneIndex K L P} (accepted : index.applyUpdate update = .ok result) :
    ∃ next, index.checkUpdate update = .ok next := by
  unfold TimelineSceneIndex.applyUpdate at accepted
  obtain ⟨next, checked, -⟩ := bind_ok.mp accepted
  exact ⟨next, lift_ok.mp checked⟩

theorem Holds.never_panics (holds : index.Holds scene) : index.applyUpdate update ≠ .error .panic := by
  cases checked : index.checkUpdate update with
  | ok next =>
    obtain ⟨result, after, applied, -⟩ := holds.applyUpdate checked
    rw [applied]
    intro panics
    cases panics
  | error error =>
    unfold TimelineSceneIndex.applyUpdate
    rw [checked]
    intro panics
    cases panics

theorem collect_ok (scene : Scene K L P) (byLane : ExtTreeMap L (LaneRecords K L P))
    (locations : ExtTreeMap K L)
    (lanes : ∀ lane : L, byLane[lane]? = if (scene.inLane lane).isEmpty then none else some (scene.inLane lane))
    (located : ∀ id : K, locations[id]? = scene[id]?.map (·.lane)) (distinct : (records.map (·.id)).Nodup)
    (fresh : ∀ record ∈ records, scene[record.id]? = none) :
    ∃ byLane' locations', collect byLane locations records = .ok (byLane', locations') ∧
      (∀ lane : L, byLane'[lane]? = if ((records.foldl place scene).inLane lane).isEmpty then none else some ((records.foldl place scene).inLane lane)) ∧
      ∀ id : K, locations'[id]? = (records.foldl place scene)[id]?.map (·.lane) := by
  induction records generalizing scene byLane locations with
  | nil => exact ⟨byLane, locations, rfl, lanes, located⟩
  | cons record records ih =>
    rw [map_cons, nodup_cons] at distinct
    have absent := fresh record mem_cons_self
    have unlocated : record.id ∉ locations := by
      rw [ExtTreeMap.mem_iff_isSome_getElem?, located, absent]
      exact Bool.false_ne_true
    have held : byLane[record.lane]?.getD ∅ = scene.inLane record.lane := by
      rw [lanes]
      split
      · rename_i empty
        exact (ExtTreeMap.isEmpty_iff.mp empty).symm
      · rfl
    unfold collect
    rw [if_neg unlocated, held]
    apply ih _ _ _ _ _ distinct.2
    · intro other inside
      rw [lookup_place, if_neg]
      · exact fresh other (mem_cons_of_mem _ inside)
      · intro same
        exact distinct.1 (mem_map.mpr ⟨other, inside, same.symm⟩)
    · intro lane
      rw [lookup_insert, lanes]
      by_cases same : record.lane = lane
      · subst same
        rw [if_pos rfl, inLane_place_self, ExtTreeMap.isEmpty_eq_false_iff.mpr ExtTreeMap.insert_ne_empty, if_neg Bool.false_ne_true]
      · rw [if_neg same, inLane_place_other absent same]
    · intro id
      rw [lookup_insert, lookup_place, located]
      split <;> rfl

theorem fromRecords_holds (space : TimelineSpace) (sourceRevision : U64)
    (distinct : (records.map (·.id)).Nodup) :
    ∃ index, fromRecords space sourceRevision records = .ok index ∧ index.Holds (ofRecords records) ∧
      index.current.space = space ∧ index.current.revision = ⟨sourceRevision, 0⟩ := by
  have nothing : ∀ lane : L, inLane (∅ : Scene K L P) lane = ∅ := by
    intro lane
    apply ExtTreeMap.ext_getElem?
    intro id
    rw [lookup_inLane]
    simp
  have noLanes : ∀ lane : L, (∅ : ExtTreeMap L (LaneRecords K L P))[lane]? =
      if (inLane (∅ : Scene K L P) lane).isEmpty then none else some (inLane (∅ : Scene K L P) lane) := by
    intro lane
    rw [nothing]
    simp
  obtain ⟨byLane, locations, collected, lanes, located⟩ := collect_ok ∅ ∅ ∅ noLanes (by simp) distinct (by simp)
  have size : locations.size = (ofRecords records).size := by
    have same : locations = (ofRecords records).map fun _ record => record.lane := by
      apply ExtTreeMap.ext_getElem?
      intro id
      rw [located, ExtTreeMap.getElem?_map]
      rfl
    rw [same, ExtTreeMap.size_map]
  unfold fromRecords
  rw [collected]
  refine ⟨_, rfl, ⟨Scene.Keyed.empty.places records, ?_, located, size⟩, rfl, rfl⟩
  intro lane
  rw [ExtTreeMap.getElem?_map, lanes, laneIndex, ofRecords]
  split <;> rfl

theorem collect_distinct {byLane byLane' : ExtTreeMap L (LaneRecords K L P)} {locations locations' : ExtTreeMap K L}
    (collected : collect byLane locations records = .ok (byLane', locations')) :
    (records.map (·.id)).Nodup ∧ ∀ record ∈ records, record.id ∉ locations := by
  induction records generalizing byLane locations with
  | nil => simp
  | cons record records ih =>
    unfold collect at collected
    split at collected
    · cases collected
    · rename_i fresh
      obtain ⟨distinct, rest⟩ := ih collected
      simp only [ExtTreeMap.mem_insert, compare_eq_iff_eq, not_or] at rest
      rw [map_cons, nodup_cons, mem_map]
      refine ⟨⟨?_, distinct⟩, ?_⟩
      · rintro ⟨other, inside, same⟩
        exact (rest other inside).1 same.symm
      · intro other inside
        rcases mem_cons.mp inside with rfl | later
        · exact fresh
        · exact (rest other later).2

theorem fromRecords_distinct {space : TimelineSpace} {sourceRevision : U64}
    (built : fromRecords space sourceRevision records = .ok index) : (records.map (·.id)).Nodup := by
  unfold fromRecords at built
  obtain ⟨_, collected, -⟩ := bind_ok.mp built
  exact (collect_distinct collected).1

end TimelineSceneIndex

end Audec.TimelineScene

import Audec.TimelineScene.Answers

/-! The spans an update reports: one hull for each lane, which misses a changed point at its end. -/

open Machine Checked Entries Runs List
open Std (ExtTreeMap ExtTreeSet)

namespace Audec.TimelineScene

variable {K L P : Type} [LinearOrder K] [LinearOrder L]

def latest : TimelineCoordinate := .saturate 0x7fffffffffffffff

theorem latest_val : latest.val = 0x7fffffffffffffff := rfl

def TimelineSceneIndex.Shows (index : TimelineSceneIndex K L P) (record : TimelineObjectRecord K L P) : Prop :=
  ∃ lane, index.current.lanes[record.lane]? = some lane ∧ record ∈ lane.records

def TimelineSceneUpdate.Names (update : TimelineSceneUpdate K L P) (id : K) : Prop :=
  id ∈ update.removals ∨ ∃ record ∈ update.upserts, record.id = id

section

variable (index : TimelineSceneIndex K L P)

section

variable (update : TimelineSceneUpdate K L P)

def Withdrawn (record : TimelineObjectRecord K L P) : Prop :=
  index.Shows record ∧ update.Names record.id

def Touches (record : TimelineObjectRecord K L P) : Prop :=
  Withdrawn index update record ∨ record ∈ update.upserts

def LosesPoint : Prop :=
  ∃ record, record.span.isPoint = true ∧ record.span.start < latest ∧
    ¬ (Withdrawn index update record ↔ record ∈ update.upserts) ∧
    (∀ other, Touches index update other → other.lane = record.lane → other.span.stop ≤ record.span.start) ∧
    ∃ other, Touches index update other ∧ other.lane = record.lane ∧ other.span.start < record.span.start

end

end

def Returns [TimelineObjectKey K] (snapshot : TimelineSceneSnapshot K L P) (lane : L) (range : TimelineRange)
    (record : TimelineObjectRecord K L P) : Prop :=
  ∃ result, snapshot.query ⟨range, .one lane, none⟩ = some result ∧ record ∈ result.objects

def Complete [TimelineObjectKey K] (before : TimelineSceneSnapshot K L P) (result : SceneUpdateResult K L P) : Prop :=
  ∀ lane range, (∃ record, ¬ (Returns before lane range record ↔ Returns result.snapshot lane range record)) →
    ∃ invalid ∈ result.invalidation.lanes, invalid.lane = lane ∧ invalid.span.intersects range = true

section Hull

structure Hull (touched : List (L × TimelineSpan)) (lane : L) (span : TimelineSpan) : Prop where
  bounds : ∀ other, (lane, other) ∈ touched → span.start ≤ other.start ∧ other.stop ≤ span.stop
  first : ∃ other, (lane, other) ∈ touched ∧ other.start = span.start
  last : ∃ other, (lane, other) ∈ touched ∧ other.stop = span.stop

theorem lookup_mergeInvalidation (map : ExtTreeMap L TimelineSpan compare) (lane other : L) (span : TimelineSpan) :
    (mergeInvalidation map lane span)[other]? =
      if lane = other then some (map[lane]?.elim span fun current => current.union span) else map[other]? := by
  unfold mergeInvalidation
  cases map[lane]? <;> exact lookup_insert _ _ _ _

theorem mergeAll_hull (touched : List (L × TimelineSpan)) (lane : L) :
    (∀ span, (mergeAll touched)[lane]? = some span → Hull touched lane span) ∧
      ((mergeAll touched)[lane]? = none → ∀ span, (lane, span) ∉ touched) := by
  induction touched using List.reverseRecOn with
  | nil =>
    have nothing : (mergeAll ([] : List (L × TimelineSpan)))[lane]? = none := ExtTreeMap.getElem?_empty
    refine ⟨?_, fun _ _ => not_mem_nil⟩
    intro span held
    rw [nothing] at held
    cases held
  | append_singleton touched entry ih =>
    obtain ⟨where_, span⟩ := entry
    rw [mergeAll_concat, lookup_mergeInvalidation]
    by_cases here : where_ = lane
    · subst here
      rw [if_pos rfl]
      refine ⟨?_, fun absent => absurd absent (Option.some_ne_none _)⟩
      intro merged same
      cases held : (mergeAll touched)[where_]? with
      | none =>
        rw [held, Option.elim_none] at same
        cases same
        have alone := ih.2 held
        have inside : (where_, span) ∈ touched ++ [(where_, span)] := by simp
        refine ⟨?_, ⟨span, inside, rfl⟩, ⟨span, inside, rfl⟩⟩
        intro other member
        rcases mem_append.mp member with earlier | last
        · exact absurd earlier (alone other)
        · cases mem_singleton.mp last
          exact ⟨le_rfl, le_rfl⟩
      | some current =>
        rw [held, Option.elim_some] at same
        cases same
        obtain ⟨bounds, ⟨a, aInside, aStart⟩, ⟨b, bInside, bStop⟩⟩ := ih.1 current held
        have inside : (where_, span) ∈ touched ++ [(where_, span)] := by simp
        refine ⟨?_, ?_, ?_⟩
        · intro other member
          rcases mem_append.mp member with earlier | last
          · have := bounds other earlier
            exact ⟨(min_le_left _ _).trans this.1, this.2.trans (le_max_left _ _)⟩
          · cases mem_singleton.mp last
            exact ⟨min_le_right _ _, le_max_right _ _⟩
        · rcases min_choice current.start span.start with least | least
          · exact ⟨a, mem_append_left _ aInside, aStart.trans least.symm⟩
          · exact ⟨span, inside, least.symm⟩
        · rcases max_choice current.stop span.stop with most | most
          · exact ⟨b, mem_append_left _ bInside, bStop.trans most.symm⟩
          · exact ⟨span, inside, most.symm⟩
    · rw [if_neg here]
      have same : ∀ other, (lane, other) ∈ touched ++ [(where_, span)] ↔ (lane, other) ∈ touched := by
        intro other
        simp [Ne.symm here]
      refine ⟨?_, ?_⟩
      · intro merged held
        obtain ⟨bounds, first, last⟩ := ih.1 merged held
        exact ⟨fun other member => bounds other ((same other).mp member), by simpa only [same] using first, by simpa only [same] using last⟩
      · intro absent other member
        exact ih.2 absent other ((same other).mp member)

end Hull

namespace TimelineSceneIndex

variable {index : TimelineSceneIndex K L P} {scene : Scene K L P} {update : TimelineSceneUpdate K L P}

variable {record : TimelineObjectRecord K L P} {lane : L} {after : TimelineSceneIndex K L P}

section

variable (holds : index.Holds scene)
include holds

theorem Holds.shows :
    index.Shows record ↔ scene[record.id]? = some record := by
  unfold Shows
  simp only [holds.lanes]
  constructor
  · rintro ⟨lane, held, inside⟩
    exact ((Scene.mem_laneIndex holds.keyed held).mp inside).1
  · intro held
    obtain ⟨lane, present⟩ := Scene.laneIndex_of_mem held
    exact ⟨lane, present, (Scene.mem_laneIndex holds.keyed present).mpr ⟨held, rfl⟩⟩

theorem Holds.returns [TimelineObjectKey K] {range : TimelineRange}
    :
    Returns index.current lane range record ↔ index.Shows record ∧ record.lane = lane ∧ record.span.intersects range = true := by
  have forward : ¬ (TimelineLaneQuery.one lane).Reversed := fun reversed => reversed
  obtain ⟨result, answered, objects⟩ := @query_eq_scan K L P _ _ _ index scene holds ⟨range, .one lane, none⟩ forward
  unfold Returns
  rw [answered]
  simp only [Option.some.injEq, exists_eq_left', objects, Scene.scan, mem_insertionSort, mem_filter,
    mem_intoValues_of_keyed holds.keyed, holds.shows, TimelineSceneQuery.finds, TimelineLaneQuery.holds, allows, Bool.and_eq_true,
    decide_eq_true_eq, Option.all_none, and_true]
  tauto

theorem Holds.mem_touchedBy {span : TimelineSpan} :
    (lane, span) ∈ scene.touchedBy update ↔ ∃ record, Touches index update record ∧ record.lane = lane ∧ record.span = span := by
  have spans : ∀ id : K, (lane, span) ∈ scene.spansOf id ↔
      ∃ record, scene[id]? = some record ∧ record.lane = lane ∧ record.span = span := by
    intro id
    simp [Scene.spansOf]
  simp only [Scene.touchedBy, mem_append, mem_flatMap, spans, ExtTreeSet.mem_toList, mem_singleton, Prod.mk.injEq]
  constructor
  · rintro (⟨id, removed, record, held, goes, same⟩ | ⟨upserted, inside, ⟨record, held, goes, same⟩ | ⟨rfl, rfl⟩⟩)
    · have named := holds.keyed id record held
      subst named
      exact ⟨record, .inl ⟨holds.shows.mpr held, .inl removed⟩, goes, same⟩
    · have named := holds.keyed _ record held
      rw [← named] at held
      exact ⟨record, .inl ⟨holds.shows.mpr held, .inr ⟨upserted, inside, named.symm⟩⟩, goes, same⟩
    · exact ⟨upserted, .inr inside, rfl, rfl⟩
  · rintro ⟨record, ⟨shown, removed | ⟨upserted, inside, named⟩⟩ | inside, goes, same⟩
    · exact .inl ⟨record.id, removed, record, holds.shows.mp shown, goes, same⟩
    · refine .inr ⟨upserted, inside, .inl ⟨record, ?_, goes, same⟩⟩
      rw [named]
      exact holds.shows.mp shown
    · exact .inr ⟨record, inside, .inr ⟨goes.symm, same.symm⟩⟩

section

variable (held : after.Holds (scene.update update)) (distinct : update.Distinct)
include held distinct

theorem Holds.shows_after :
    after.Shows record ↔ record ∈ update.upserts ∨ (index.Shows record ∧ ¬ update.Names record.id) := by
  rw [held.shows, holds.shows]
  by_cases upserted : record.id ∈ update.upserts.map (·.id)
  · obtain ⟨other, inside, same⟩ := mem_map.mp upserted
    have named : update.Names record.id := .inr ⟨other, inside, same⟩
    rw [← same, Scene.lookup_update_upsert distinct inside, same]
    constructor
    · intro equal
      cases equal
      exact .inl inside
    · rintro (member | ⟨-, unnamed⟩)
      · rw [inj_on_of_nodup_map distinct.upserts inside member same]
      · exact absurd named unnamed
  · have absent : record ∉ update.upserts := fun member => upserted (mem_map_of_mem member)
    have named : update.Names record.id ↔ record.id ∈ update.removals := by
      unfold TimelineSceneUpdate.Names
      constructor
      · rintro (removed | ⟨other, inside, same⟩)
        · exact removed
        · exact absurd (mem_map.mpr ⟨other, inside, same⟩) upserted
      · exact .inl
    rw [Scene.lookup_update_other upserted, named]
    split
    · rename_i removed
      simp [absent, removed]
    · rename_i kept
      simp [absent, kept]

theorem Holds.differs :
    (index.Shows record ↔ after.Shows record) ↔ (Withdrawn index update record ↔ record ∈ update.upserts) := by
  have named : record ∈ update.upserts → update.Names record.id := fun inside => .inr ⟨record, inside, rfl⟩
  rw [holds.shows_after held distinct, Withdrawn]
  tauto

end

end

end TimelineSceneIndex

namespace TimelineSpan

theorem isPoint_iff (span : TimelineSpan) : span.isPoint = true ↔ span.start.val = span.stop.val := by
  rw [isPoint, decide_eq_true_eq, I64.val_injective.eq_iff]

theorem intersects_iff (span : TimelineSpan) (range : TimelineRange) :
    span.intersects range = true ↔ span.start.val < range.stop.val ∧
      (range.start.val < span.stop.val ∨ (span.start.val = span.stop.val ∧ range.start.val = span.start.val)) := by
  unfold intersects startI128 effectiveEndI128
  rw [decide_eq_true_eq]
  have point := span.isPoint_iff
  have ordered := (I64.le_iff _ _).mp span.ordered
  by_cases here : span.isPoint = true
  · rw [if_pos here]
    have := point.mp here
    omega
  · rw [if_neg here]
    have := mt point.mpr here
    omega

theorem escapes_iff {inner outer : TimelineSpan} {range : TimelineRange} (first : outer.start ≤ inner.start)
    (last : inner.stop ≤ outer.stop) (meets : inner.intersects range = true) :
    outer.intersects range = false ↔
      inner.isPoint = true ∧ outer.start < inner.start ∧ outer.stop ≤ inner.start ∧ range.start = inner.start := by
  rw [Bool.eq_false_iff, Ne, intersects_iff, isPoint_iff, ← I64.val_injective.eq_iff, I64.lt_iff, I64.le_iff]
  rw [intersects_iff] at meets
  have ordered := (I64.le_iff _ _).mp inner.ordered
  rw [I64.le_iff] at first last
  omega

end TimelineSpan

namespace TimelineSceneIndex

variable {index : TimelineSceneIndex K L P} {scene : Scene K L P} {update : TimelineSceneUpdate K L P} [TimelineObjectKey K]

theorem Holds.complete_iff (holds : index.Holds scene) {result : SceneUpdateResult K L P} {after : TimelineSceneIndex K L P}
    (applied : index.applyUpdate update = .ok (result, after)) : Complete index.current result ↔ ¬ LosesPoint index update := by
  obtain ⟨next, checked⟩ := applyUpdate_ok applied
  have distinct := (checkUpdate_ok.mp checked).2.2.2
  obtain ⟨result', after', applied', held, snapshot, -, -, invalid⟩ := holds.applyUpdate checked
  rw [applied] at applied'
  cases applied'
  have reported : ∀ lane span, (⟨lane, span⟩ : InvalidatedLane L) ∈ result.invalidation.lanes ↔
      (mergeAll (scene.touchedBy update))[lane]? = some span := by
    intro lane span
    rw [invalid, mem_map]
    constructor
    · rintro ⟨⟨_, _⟩, inside, same⟩
      cases same
      exact mem_toList.mp inside
    · intro present
      exact ⟨(lane, span), mem_toList.mpr present, rfl⟩
  have hull := mergeAll_hull (scene.touchedBy update)
  constructor
  · -- the range of one unit at the lost point
    rintro complete ⟨record, point, early, changed, ends, other, otherTouched, sameLane, before⟩
    have later : record.span.start.val + 1 < 0x8000000000000000 := by
      have := (I64.lt_iff _ _).mp early
      rw [latest_val] at this
      omega
    have lower := record.span.start.lower
    let range : TimelineRange := ⟨record.span.start, ⟨record.span.start.val + 1, by omega, later⟩, Int.lt_succ _⟩
    have meets : record.span.intersects range = true := by
      have := record.span.isPoint_iff.mp point
      rw [TimelineSpan.intersects_iff]
      exact ⟨Int.lt_succ _, .inr ⟨this, rfl⟩⟩
    have differs : ∃ changed, ¬ (Returns index.current record.lane range changed ↔ Returns result.snapshot record.lane range changed) := by
      refine ⟨record, ?_⟩
      rw [snapshot, holds.returns, held.returns]
      simp only [meets, and_true]
      rwa [holds.differs held distinct]
    obtain ⟨⟨_, span⟩, reportedHere, rfl, covers⟩ := complete record.lane range differs
    obtain ⟨bounds, -, ⟨_, lastInside, lastStop⟩⟩ := (hull record.lane).1 span ((reported record.lane span).mp reportedHere)
    have touched : Touches index update record := by
      unfold Touches
      tauto
    have around := bounds record.span (holds.mem_touchedBy.mpr ⟨record, touched, rfl, rfl⟩)
    have earlier := bounds other.span (holds.mem_touchedBy.mpr ⟨other, otherTouched, sameLane, rfl⟩)
    obtain ⟨last, lastTouched, lastLane, rfl⟩ := holds.mem_touchedBy.mp lastInside
    have misses := (TimelineSpan.escapes_iff around.1 around.2 meets).mpr
      ⟨point, earlier.1.trans_lt before, lastStop ▸ ends last lastTouched lastLane, rfl⟩
    rw [misses] at covers
    cases covers
  · rintro kept lane range ⟨record, changed⟩
    rw [snapshot, holds.returns, held.returns] at changed
    have here : record.lane = lane ∧ record.span.intersects range = true := by tauto
    obtain ⟨rfl, meets⟩ := here
    have differs : ¬ (Withdrawn index update record ↔ record ∈ update.upserts) := by
      rw [← holds.differs held distinct]
      tauto
    have touched : Touches index update record := by
      unfold Touches
      tauto
    have inside := holds.mem_touchedBy.mpr ⟨record, touched, rfl, rfl⟩
    cases present : (mergeAll (scene.touchedBy update))[record.lane]? with
    | none => exact absurd inside ((hull record.lane).2 present record.span)
    | some span =>
      refine ⟨⟨record.lane, span⟩, (reported _ _).mpr present, rfl, ?_⟩
      obtain ⟨bounds, ⟨_, firstInside, firstStart⟩, -⟩ := (hull record.lane).1 span present
      obtain ⟨first, firstTouched, firstLane, rfl⟩ := holds.mem_touchedBy.mp firstInside
      have around := bounds record.span inside
      by_contra misses
      obtain ⟨point, before, ends, -⟩ := (TimelineSpan.escapes_iff around.1 around.2 meets).mp (Bool.eq_false_iff.mpr misses)
      refine kept ⟨record, point, ?_, differs, ?_, first, firstTouched, firstLane, firstStart ▸ before⟩
      · have below := ((TimelineSpan.intersects_iff _ _).mp meets).1
        have bound := range.stop.upper
        rw [I64.lt_iff, latest_val]
        omega
      · intro other otherTouched sameLane
        have within := bounds other.span (holds.mem_touchedBy.mpr ⟨other, otherTouched, sameLane, rfl⟩)
        exact within.2.trans ends

end TimelineSceneIndex

section Reachable

variable [TimelineObjectKey K]

/-- After any updates of an index of records, an accepted update reports every change of the answers exactly when it
    loses no point. -/
theorem invalidation_complete_iff {space : TimelineSpace} {sourceRevision : U64} {records : List (TimelineObjectRecord K L P)}
    {opened index after : TimelineSceneIndex K L P} {update : TimelineSceneUpdate K L P} {result : SceneUpdateResult K L P}
    {events : List (Event (TimelineSceneIndex K L P) (TimelineSceneUpdate K L P))}
    (built : TimelineSceneIndex.fromRecords space sourceRevision records = .ok opened)
    (run : Run TimelineSceneIndex.afterUpdate (· = opened) events index)
    (applied : index.applyUpdate update = .ok (result, after)) : Complete index.current result ↔ ¬ LosesPoint index update := by
  have distinct := TimelineSceneIndex.fromRecords_distinct built
  obtain ⟨_, built', holds, -⟩ := TimelineSceneIndex.fromRecords_holds space sourceRevision distinct
  rw [built] at built'
  cases built'
  exact (run_holds holds run).complete_iff applied

end Reachable

section Points

def clipBefore : TimelineObjectRecord ObjectId U64 U64 := clipRecord 1 1 0 5

def automationPoint : TimelineObjectRecord ObjectId U64 U64 :=
  ⟨.automationPoint 4, 1, .point (.saturate 10), .wrap 20, 4⟩

/-- Both are removed. -/
def clearLane : TimelineSceneUpdate ObjectId U64 U64 := ⟨0, 9, Std.ExtTreeSet.ofList [.clip 1, .automationPoint 4] compare, []⟩

def clearClip : TimelineSceneUpdate ObjectId U64 U64 := ⟨0, 9, Std.ExtTreeSet.ofList [.clip 1] compare, []⟩

theorem opened_accepts (update : TimelineSceneUpdate ObjectId U64 U64) (first : update.expectedIndexRevision = 0)
    (current : update.sourceRevision = 9) (distinct : update.Distinct) :
    ∃ opened result after, TimelineSceneIndex.fromRecords .projectFrames 9 [clipBefore, automationPoint] = .ok opened ∧
      opened.Holds (Scene.ofRecords [clipBefore, automationPoint]) ∧ opened.applyUpdate update = .ok (result, after) := by
  obtain ⟨opened, built, holds, -, revision⟩ :=
    @TimelineSceneIndex.fromRecords_holds ObjectId U64 U64 _ _ [clipBefore, automationPoint] .projectFrames 9 (by decide)
  have checked : opened.checkUpdate update = .ok 1 := by
    rw [TimelineSceneIndex.checkUpdate_ok, revision, first, current]
    exact ⟨rfl, le_rfl, by decide, distinct⟩
  obtain ⟨result, after, applied, -⟩ := holds.applyUpdate checked
  exact ⟨opened, result, after, built, holds, applied⟩

theorem clearClip_complete_iff :
    ∃ opened result after, TimelineSceneIndex.fromRecords .projectFrames 9 [clipBefore, automationPoint] = .ok opened ∧
      opened.applyUpdate clearClip = .ok (result, after) ∧ (Complete opened.current result ↔ ¬ LosesPoint opened clearClip) := by
  obtain ⟨opened, result, after, built, -, applied⟩ := opened_accepts clearClip rfl rfl ⟨List.nodup_nil, by simp [clearClip]⟩
  exact ⟨opened, result, after, built, applied, invalidation_complete_iff built (.start rfl) applied⟩

/-- The point at the end of the cleared lane is not reported. -/
theorem cleared_point_not_reported :
    ∃ opened result after, TimelineSceneIndex.fromRecords .projectFrames 9 [clipBefore, automationPoint] = .ok opened ∧
      opened.applyUpdate clearLane = .ok (result, after) ∧ ¬ Complete opened.current result := by
  obtain ⟨opened, result, after, built, holds, applied⟩ := opened_accepts clearLane rfl rfl ⟨List.nodup_nil, by simp [clearLane]⟩
  refine ⟨opened, result, after, built, applied, ?_⟩
  rw [holds.complete_iff applied, not_not]
  have clip : Withdrawn opened clearLane clipBefore := ⟨holds.shows.mpr (by decide), .inl (by decide)⟩
  have point : Withdrawn opened clearLane automationPoint := ⟨holds.shows.mpr (by decide), .inl (by decide)⟩
  have kept : automationPoint ∉ clearLane.upserts := List.not_mem_nil
  refine ⟨automationPoint, rfl, by decide, fun same => kept (same.mp point), ?_, clipBefore, .inl clip, rfl, by decide⟩
  rintro other (⟨shown, -⟩ | inside) -
  · have all : ∀ record ∈ (Scene.ofRecords [clipBefore, automationPoint]).intoValues, record.span.stop ≤ automationPoint.span.start := by
      decide
    exact all other ((mem_intoValues_of_keyed holds.keyed).mpr (holds.shows.mp shown))
  · cases inside

end Points

end Audec.TimelineScene

import Audec.Lib.GuardedStore
import Audec.Session.Model

/-! The arrangement as a keyed store: a change is a guarded put, and the checks do not tell equal contents apart. -/

open Machine Checked GuardedStore FloatEquality Entries List Option
open Std (ExtTreeMap)

namespace Audec.Session

open Arrangement ProjectChange

theorem Track.beq_iff (a b : Track) : (a == b) = true ↔ a.id = b.id ∧ a.name = b.name ∧ a.kind = b.kind ∧
    a.laneIds = b.laneIds ∧ (a.gain == b.gain) = true ∧ a.muted = b.muted ∧ a.solo = b.solo := by
  cases a
  cases b
  change instBEqTrack.beq _ _ = true ↔ _
  simp [instBEqTrack.beq]

theorem Clip.beq_iff (a b : Clip) : (a == b) = true ↔ a.id = b.id ∧ a.laneId = b.laneId ∧ a.name = b.name ∧
    a.timeline = b.timeline ∧ a.sourceStart = b.sourceStart ∧ (a.gain == b.gain) = true ∧ a.muted = b.muted ∧
    a.locked = b.locked := by
  cases a
  cases b
  change instBEqClip.beq _ _ = true ↔ _
  simp [instBEqClip.beq]

theorem Cluster.beq_iff (a b : Cluster) : (a == b) = true ↔ a.id = b.id ∧ a.name = b.name ∧
    (a.gain == b.gain) = true ∧ a.muted = b.muted := by
  cases a
  cases b
  change instBEqCluster.beq _ _ = true ↔ _
  simp [instBEqCluster.beq]

theorem Event.beq_iff (a b : Event) : (a == b) = true ↔ a.id = b.id ∧ a.laneId = b.laneId ∧ a.clusterId = b.clusterId ∧
    a.sample = b.sample ∧ a.duration = b.duration ∧ (a.gain == b.gain) = true ∧ a.muted = b.muted := by
  cases a
  cases b
  change instBEqEvent.beq _ _ = true ↔ _
  simp [instBEqEvent.beq]

instance trackPartialEquiv : PartialEquivBEq Track where
  symm same := by
    rw [Track.beq_iff] at same ⊢
    grind [BEq.symm]
  trans first second := by
    rw [Track.beq_iff] at first second ⊢
    grind [BEq.trans]

instance clipPartialEquiv : PartialEquivBEq Clip where
  symm same := by
    rw [Clip.beq_iff] at same ⊢
    grind [BEq.symm]
  trans first second := by
    rw [Clip.beq_iff] at first second ⊢
    grind [BEq.trans]

instance clusterPartialEquiv : PartialEquivBEq Cluster where
  symm same := by
    rw [Cluster.beq_iff] at same ⊢
    grind [BEq.symm]
  trans first second := by
    rw [Cluster.beq_iff] at first second ⊢
    grind [BEq.trans]

instance eventPartialEquiv : PartialEquivBEq Event where
  symm same := by
    rw [Event.beq_iff] at same ⊢
    grind [BEq.symm]
  trans first second := by
    rw [Event.beq_iff] at first second ⊢
    grind [BEq.trans]

inductive EntityKey where
  | track (id : TrackId)
  | lane (id : LaneId)
  | clip (id : ClipId)
  | cluster (id : ClusterId)
  | event (id : EventId)
  deriving DecidableEq

abbrev Entity : EntityKey → Type
  | .track _ => Option Track
  | .lane _ => Option Lane
  | .clip _ => Option Clip
  | .cluster _ => Option Cluster
  | .event _ => Option Event

instance entityBEq : (key : EntityKey) → BEq (Entity key)
  | .track _ => inferInstanceAs (BEq (Option Track))
  | .lane _ => inferInstanceAs (BEq (Option Lane))
  | .clip _ => inferInstanceAs (BEq (Option Clip))
  | .cluster _ => inferInstanceAs (BEq (Option Cluster))
  | .event _ => inferInstanceAs (BEq (Option Event))

instance entityPartialEquiv : (key : EntityKey) → PartialEquivBEq (Entity key)
  | .track _ => inferInstanceAs (PartialEquivBEq (Option Track))
  | .lane _ => inferInstanceAs (PartialEquivBEq (Option Lane))
  | .clip _ => inferInstanceAs (PartialEquivBEq (Option Clip))
  | .cluster _ => inferInstanceAs (PartialEquivBEq (Option Cluster))
  | .event _ => inferInstanceAs (PartialEquivBEq (Option Event))

abbrev EntityStore : Type := (key : EntityKey) → Entity key

namespace Arrangement

def store (arrangement : Arrangement) : EntityStore
  | .track id => arrangement.tracks[id]?
  | .lane id => arrangement.lanes[id]?
  | .clip id => arrangement.clips[id]?
  | .cluster id => arrangement.clusters[id]?
  | .event id => arrangement.events[id]?

/-- Equal, in the sense of the derived `PartialEq`. -/
def Same (arrangement other : Arrangement) : Prop := ∀ key, (arrangement.store key == other.store key) = true

variable {arrangement : Arrangement}

theorem Same.symm {other : Arrangement} (same : Same arrangement other) : Same other arrangement :=
  fun key => BEq.symm (same key)

theorem Same.trans {middle other : Arrangement} (first : Same arrangement middle) (second : Same middle other) :
    Same arrangement other :=
  fun key => BEq.trans (first key) (second key)

end Arrangement

namespace ProjectChange

def put : ProjectChange → Option (Put EntityKey Entity)
  | .track before after => (optionId (before.map (·.id)) (after.map (·.id)) "track").toOption.map fun id => ⟨.track id, before, after⟩
  | .lane before after => (optionId (before.map (·.id)) (after.map (·.id)) "lane").toOption.map fun id => ⟨.lane id, before, after⟩
  | .clip before after => (optionId (before.map (·.id)) (after.map (·.id)) "clip").toOption.map fun id => ⟨.clip id, before, after⟩
  | .cluster before after => (optionId (before.map (·.id)) (after.map (·.id)) "cluster").toOption.map fun id => ⟨.cluster id, before, after⟩
  | .event before after => (optionId (before.map (·.id)) (after.map (·.id)) "event").toOption.map fun id => ⟨.event id, before, after⟩

variable {kind : IdKind} {arrangement : Arrangement} {change : ProjectChange}

theorem optionId_swap (before after : Option (TypedId kind)) (label : String) :
    optionId after before label = optionId before after label := by
  cases before with
  | none => cases after <;> rfl
  | some a =>
    cases after with
    | none => rfl
    | some b =>
      by_cases same : a = b
      · simp [optionId, same]
      · simp [optionId, same, Ne.symm same]

theorem put_inverse (change : ProjectChange) : change.inverse.put = change.put.map Put.inverse := by
  cases change <;> simp only [inverse, put, Option.map_map, optionId_swap] <;> rfl

theorem replace_ok {ν : Type} [BEq ν] {map after : ExtTreeMap (TypedId kind) ν}
    {expected replacement : Option ν} {id : TypedId kind} {label : String} :
    replace map expected replacement id label = .ok after ↔
      (map[id]? == expected) = true ∧ ∀ other : TypedId kind, after[other]? = if id = other then replacement else map[other]? := by
  have unique : ∀ result : ExtTreeMap (TypedId kind) ν,
      (∀ other : TypedId kind, result[other]? = if id = other then replacement else map[other]?) →
        (result = after ↔ ∀ other : TypedId kind, after[other]? = if id = other then replacement else map[other]?) := by
    intro result lookups
    constructor
    · rintro rfl
      exact lookups
    · intro others
      apply ExtTreeMap.ext_getElem?
      intro other
      rw [lookups, others]
  unfold replace
  by_cases ready : (map[id]? == expected) = true
  · rw [if_pos ready]
    simp only [ready, true_and]
    cases replacement with
    | none =>
      simp only [Except.ok.injEq]
      exact unique _ fun other => lookup_erase map id other
    | some value =>
      simp only [Except.ok.injEq]
      exact unique _ fun other => lookup_insert map id other value
  · rw [if_neg ready]
    simp [ready]

theorem toOption_eq_some {ε α : Type} {result : Except ε α} {value : α} : result.toOption = some value ↔ result = .ok value := by
  cases result <;> simp [Except.toOption]

section Writes

theorem store_write_track {id : TrackId} (before : Option Track) {after : Option Track} {tracks : ExtTreeMap TrackId Track}
    (lookups : ∀ other : TrackId, tracks[other]? = if id = other then after else arrangement.tracks[other]?) :
    { arrangement with tracks := tracks }.store = write ⟨.track id, before, after⟩ arrangement.store := by
  funext key
  cases key with
  | track other =>
    by_cases hit : id = other
    · subst hit
      simp [store, lookups, write]
    · simp [store, lookups, write, hit, Ne.symm hit]
  | _ => simp [store, write]

theorem store_write_lane {id : LaneId} (before : Option Lane) {after : Option Lane} {lanes : ExtTreeMap LaneId Lane}
    (lookups : ∀ other : LaneId, lanes[other]? = if id = other then after else arrangement.lanes[other]?) :
    { arrangement with lanes := lanes }.store = write ⟨.lane id, before, after⟩ arrangement.store := by
  funext key
  cases key with
  | lane other =>
    by_cases hit : id = other
    · subst hit
      simp [store, lookups, write]
    · simp [store, lookups, write, hit, Ne.symm hit]
  | _ => simp [store, write]

theorem store_write_clip {id : ClipId} (before : Option Clip) {after : Option Clip} {clips : ExtTreeMap ClipId Clip}
    (lookups : ∀ other : ClipId, clips[other]? = if id = other then after else arrangement.clips[other]?) :
    { arrangement with clips := clips }.store = write ⟨.clip id, before, after⟩ arrangement.store := by
  funext key
  cases key with
  | clip other =>
    by_cases hit : id = other
    · subst hit
      simp [store, lookups, write]
    · simp [store, lookups, write, hit, Ne.symm hit]
  | _ => simp [store, write]

theorem store_write_cluster {id : ClusterId} (before : Option Cluster) {after : Option Cluster}
    {clusters : ExtTreeMap ClusterId Cluster}
    (lookups : ∀ other : ClusterId, clusters[other]? = if id = other then after else arrangement.clusters[other]?) :
    { arrangement with clusters := clusters }.store = write ⟨.cluster id, before, after⟩ arrangement.store := by
  funext key
  cases key with
  | cluster other =>
    by_cases hit : id = other
    · subst hit
      simp [store, lookups, write]
    · simp [store, lookups, write, hit, Ne.symm hit]
  | _ => simp [store, write]

theorem store_write_event {id : EventId} (before : Option Event) {after : Option Event} {events : ExtTreeMap EventId Event}
    (lookups : ∀ other : EventId, events[other]? = if id = other then after else arrangement.events[other]?) :
    { arrangement with events := events }.store = write ⟨.event id, before, after⟩ arrangement.store := by
  funext key
  cases key with
  | event other =>
    by_cases hit : id = other
    · subst hit
      simp [store, lookups, write]
    · simp [store, lookups, write, hit, Ne.symm hit]
  | _ => simp [store, write]

end Writes

section Replacing

variable {ν : Type} [BEq ν] {map : ExtTreeMap (TypedId kind) ν} {expected replacement : Option ν}
  {before after : Option (TypedId kind)} {label : String} {set : ExtTreeMap (TypedId kind) ν → Arrangement}

theorem replacing_ok {result : Arrangement}
    (applied : (do let id ← optionId before after label; return set (← replace map expected replacement id label)) = .ok result) :
    ∃ id changed, optionId before after label = .ok id ∧ (map[id]? == expected) = true ∧
      (∀ other : TypedId kind, changed[other]? = if id = other then replacement else map[other]?) ∧ result = set changed := by
  obtain ⟨id, named, rest⟩ := bind_ok.mp applied
  obtain ⟨changed, replaced, same⟩ := bind_ok.mp rest
  cases same
  obtain ⟨ready, lookups⟩ := replace_ok.mp replaced
  exact ⟨id, changed, named, ready, lookups, rfl⟩

theorem replacing_ready {id : TypedId kind} (named : optionId before after label = .ok id) (ready : (map[id]? == expected) = true) :
    ∃ result, (do let id ← optionId before after label; return set (← replace map expected replacement id label)) = .ok result := by
  have replaced : ∃ changed, replace map expected replacement id label = .ok changed := by
    unfold replace
    rw [if_pos ready]
    cases replacement <;> exact ⟨_, rfl⟩
  obtain ⟨changed, replaced⟩ := replaced
  exact ⟨_, bind_ok.mpr ⟨id, named, bind_ok.mpr ⟨changed, replaced, rfl⟩⟩⟩

end Replacing

theorem applyForward_ok {after : Arrangement} (applied : change.applyForward arrangement = .ok after) :
    ∃ put, change.put = some put ∧ Ready put arrangement.store ∧ after.store = write put arrangement.store := by
  cases change with
  | track before replacement =>
    obtain ⟨id, changed, named, ready, lookups, rfl⟩ := replacing_ok applied
    exact ⟨⟨.track id, before, replacement⟩, by rw [put, named]; rfl, ready, store_write_track before lookups⟩
  | lane before replacement =>
    obtain ⟨id, changed, named, ready, lookups, rfl⟩ := replacing_ok applied
    exact ⟨⟨.lane id, before, replacement⟩, by rw [put, named]; rfl, ready, store_write_lane before lookups⟩
  | clip before replacement =>
    obtain ⟨id, changed, named, ready, lookups, rfl⟩ := replacing_ok applied
    exact ⟨⟨.clip id, before, replacement⟩, by rw [put, named]; rfl, ready, store_write_clip before lookups⟩
  | cluster before replacement =>
    obtain ⟨id, changed, named, ready, lookups, rfl⟩ := replacing_ok applied
    exact ⟨⟨.cluster id, before, replacement⟩, by rw [put, named]; rfl, ready, store_write_cluster before lookups⟩
  | event before replacement =>
    obtain ⟨id, changed, named, ready, lookups, rfl⟩ := replacing_ok applied
    exact ⟨⟨.event id, before, replacement⟩, by rw [put, named]; rfl, ready, store_write_event before lookups⟩

theorem applyForward_ready {made : Put EntityKey Entity}
    (puts : change.put = some made) (ready : Ready made arrangement.store) : ∃ after, change.applyForward arrangement = .ok after := by
  cases change <;>
    · obtain ⟨id, named, rfl⟩ := map_eq_some_iff.mp puts
      exact replacing_ready (toOption_eq_some.mp named) ready

end ProjectChange

def putsOf (changes : List ProjectChange) : Option (List (Put EntityKey Entity)) := changes.mapM ProjectChange.put

variable {arrangement : Arrangement} {changes : List ProjectChange} {puts : List (Put EntityKey Entity)}

theorem applyAll_ok {after : Arrangement}
    (applied : changes.foldlM (fun arrangement change => change.applyForward arrangement) arrangement = .ok after) :
    ∃ puts, putsOf changes = some puts ∧ Accepts puts arrangement.store ∧ after.store = writes puts arrangement.store := by
  induction changes generalizing arrangement with
  | nil =>
    cases applied
    exact ⟨[], rfl, trivial, rfl⟩
  | cons change changes ih =>
    rw [foldlM_cons] at applied
    obtain ⟨middle, first, rest⟩ := bind_ok.mp applied
    obtain ⟨put, made, ready, stored⟩ := applyForward_ok first
    obtain ⟨puts, others, accepts, final⟩ := ih rest
    rw [stored] at accepts final
    refine ⟨put :: puts, ?_, ⟨ready, accepts⟩, final⟩
    rw [putsOf] at others ⊢
    rw [mapM_cons, made, others]
    rfl

theorem applyAll_accepts
    (made : putsOf changes = some puts) (accepts : Accepts puts arrangement.store) :
    ∃ after, changes.foldlM (fun arrangement change => change.applyForward arrangement) arrangement = .ok after := by
  induction changes generalizing arrangement puts with
  | nil => exact ⟨arrangement, rfl⟩
  | cons change changes ih =>
    rw [putsOf, mapM_cons] at made
    obtain ⟨put, first, rest⟩ := bind_eq_some_iff.mp made
    obtain ⟨others, later, same⟩ := bind_eq_some_iff.mp rest
    cases same
    obtain ⟨middle, applied⟩ := applyForward_ready first accepts.1
    obtain ⟨put', made', -, stored⟩ := applyForward_ok applied
    rw [first] at made'
    cases made'
    have acceptsRest := accepts.2
    rw [← stored] at acceptsRest
    obtain ⟨after, finished⟩ := ih later acceptsRest
    refine ⟨after, ?_⟩
    rw [foldlM_cons, applied]
    exact finished

theorem putsOf_undo (made : putsOf changes = some puts) :
    putsOf (changes.reverse.map inverse) = some (undo puts) := by
  induction changes generalizing puts with
  | nil =>
    cases made
    rfl
  | cons change changes ih =>
    rw [putsOf, mapM_cons] at made
    obtain ⟨put, first, rest⟩ := bind_eq_some_iff.mp made
    obtain ⟨others, later, same⟩ := bind_eq_some_iff.mp rest
    cases same
    have earlier := ih later
    rw [putsOf] at earlier ⊢
    rw [reverse_cons, map_append, mapM_append, earlier, map_singleton]
    simp [put_inverse, first, undo]

theorem applyChanges_forward (changes : List ProjectChange) (arrangement : Arrangement) :
    applyChanges changes arrangement true = changes.foldlM (fun arrangement change => change.applyForward arrangement) arrangement := rfl

theorem applyChanges_backward (changes : List ProjectChange) (arrangement : Arrangement) :
    applyChanges changes arrangement false =
      (changes.reverse.map inverse).foldlM (fun arrangement change => change.applyForward arrangement) arrangement := by
  rw [foldlM_map]
  rfl

end Audec.Session

import Audec.Lib.Runs
import Audec.Content.Gate

/-! A pinned object is kept where no gate is reclaimed from a caller that still holds it. -/

open Machine Runs List

namespace Audec.Content.Store

section Surroundings

variable {store : Store}

/-- What other callers and the clock do to the files that a caller works with. -/
structure Around (store after : Store) : Prop where
  now : store.now ≤ after.now
  gate : after.gate = store.gate
  phase : after.phase = store.phase
  owners : after.owners = store.owners
  fewer : after.granted.Sublist store.granted
  objects : ∀ path stored, store.objects path = some stored → after.objects path = some stored
  records : ∀ path, after.recordAt path = store.recordAt path ∨ path ∈ store.granted.map ObjectPin.path ∧ path ∉ after.granted.map ObjectPin.path

variable {after : Store}

theorem Around.kept (around : Around store after) {object : ObjectRef} (kept : store.Kept object) : after.Kept object := by
  obtain ⟨stored, there, same⟩ := kept
  exact ⟨stored, around.objects _ _ there, same⟩

theorem Around.ready (around : Around store after) {pin : ObjectPin} (ready : store.Ready pin)
    (own : pin.path ∉ store.granted.map ObjectPin.path ∨ pin.path ∈ after.granted.map ObjectPin.path) : after.Ready pin := by
  obtain ⟨owner, written, kept⟩ := ready
  refine ⟨around.owners ▸ owner, ?_, fun active => around.kept (kept (activeAt_mono around.now active))⟩
  rcases around.records pin.path with same | ⟨inside, outside⟩
  · exact same.trans written
  · exact absurd inside (own.resolve_right outside)

theorem Around.supported (around : Around store after) (sound : store.Sound) {work : Work} (supported : store.Supported work) :
    after.Supported work := by
  have member {pin : ObjectPin} (granted : pin ∈ after.granted) : pin ∈ store.granted := around.fewer.subset granted
  have active {pin : ObjectPin} (later : activeAt after.now pin.expires = true) : activeAt store.now pin.expires = true :=
    activeAt_mono around.now later
  cases work with
  | verify => trivial
  | createOwnerDirectory => exact around.kept supported
  | createRecord => exact ⟨around.owners ▸ supported.1, around.kept supported.2⟩
  | writeRecord pin =>
    obtain ⟨owner, kept, created⟩ := supported
    refine ⟨around.owners ▸ owner, around.kept kept, ?_⟩
    rcases around.records pin.path with same | ⟨inside, -⟩
    · exact same.trans created
    · obtain ⟨granted, there, same⟩ := mem_map.mp inside
      have written := (sound.ready granted there).2.1
      rw [same, created] at written
      cases written
  | syncRecord =>
    exact ⟨around.ready supported.1 (.inl supported.2), fun inside => supported.2 ((around.fewer.map _).subset inside)⟩
  | scanPins => exact le_trans supported around.now
  | scanOwners => exact ⟨supported.1.trans around.now, fun pin granted => supported.2 pin (member granted)⟩
  | readPins => exact ⟨supported.1.trans around.now, fun pin granted later => supported.2 pin (member granted) (active later)⟩
  | inspect => exact fun pin granted later => supported pin (member granted) (active later)
  | remove candidate removals roots =>
    obtain ⟨rooted, unrooted, stored, there, same⟩ := supported
    exact ⟨fun pin granted later => rooted pin (member granted) (active later), unrooted, stored, around.objects _ _ there, same⟩

theorem Around.sound (around : Around store after) (sound : store.Sound) : after.Sound where
  justified caller := by
    have justified := sound.justified caller
    rw [around.phase]
    by_cases holding : Holding (store.phase caller)
    · cases phase : store.phase caller with
      | inside work =>
        rw [phase] at justified
        exact ⟨around.gate ▸ justified.1, around.supported sound justified.2⟩
      | leaving pin =>
        rw [phase] at justified
        refine ⟨around.gate ▸ justified.1, fun made member => ?_⟩
        obtain ⟨ready, new⟩ := justified.2 made member
        exact ⟨around.ready ready (.inl new), fun inside => new ((around.fewer.map _).subset inside)⟩
      | idle | dead | claiming | judging | reclaiming | reclaimed =>
        rw [phase] at holding
        cases holding
    · exact justified.unheld holding around.now
  ready pin member := around.ready (sound.ready pin (around.fewer.subset member)) (.inr (mem_map_of_mem member))
  distinct := sound.distinct.sublist (around.fewer.map _)

theorem release_around (sound : store.Sound) {pin : ObjectPin} (member : pin ∈ store.granted) :
    Around store { store with pins := store.pins.filter (fun file => file.1 ≠ pin.path), granted := store.granted.erase pin } where
  now := le_rfl
  gate := rfl
  phase := rfl
  owners := rfl
  fewer := erase_sublist
  objects := fun _ _ => id
  records path := by
    by_cases same : path = pin.path
    · right
      subst same
      refine ⟨mem_map_of_mem member, fun inside => ?_⟩
      have distinct := sound.distinct
      rw [((perm_cons_erase member).map ObjectPin.path).nodup_iff, map_cons, nodup_cons] at distinct
      exact distinct.1 inside
    · exact .inl (lookup_filter store.pins same)

theorem publish_around {stored : StoredObject} (free : (store.objects (objectPath stored.object.digest)).isNone = true) :
    Around store { store with objects := Function.update store.objects (objectPath stored.object.digest) (some stored) } where
  now := le_rfl
  gate := rfl
  phase := rfl
  owners := rfl
  fewer := .refl _
  objects path other there := by
    refine (Function.update_of_ne (fun same => ?_) _ _).trans there
    rw [same, Option.isNone_iff_eq_none.mp free] at there
    cases there
  records _ := .inl rfl

theorem perform_sound (sound : store.Sound) {action : Action} (careful : store.Careful action) : (store.perform action).Sound := by
  cases action with
  | createPin caller pin => exact start_sound sound trivial
  | executeGc caller removals delay => exact start_sound sound (Nat.sub_le _ _)
  | advance caller => exact advance_sound sound careful
  | fault caller => exact fault_sound sound
  | die caller => exact sound.moves trivial
  | release pin =>
    simp only [perform]
    split
    · rename_i member
      exact (release_around sound member).sound sound
    · exact sound
  | publish stored =>
    simp only [perform]
    split
    · rename_i free
      exact (publish_around free).sound sound
    · exact sound
  | wait duration =>
    have around : Around store { store with now := store.now + duration } :=
      ⟨Nat.le_add_right _ _, rfl, rfl, rfl, .refl _, fun _ _ => id, fun _ => .inl rfl⟩
    exact around.sound sound

end Surroundings

structure Initial (store : Store) : Prop where
  phase : ∀ caller, store.phase caller = .idle
  granted : store.granted = []

structure Safe (store : Store) : Prop where
  exclusive : ∀ caller other, Holding (store.phase caller) → Holding (store.phase other) → caller = other
  pinned : ∀ pin ∈ store.granted, activeAt store.now pin.expires = true → store.Kept pin.object

theorem Initial.sound {store : Store} (initial : Initial store) : store.Sound where
  justified caller := by
    rw [initial.phase]
    trivial
  ready pin member := by
    rw [initial.granted] at member
    cases member
  distinct := by
    rw [initial.granted]
    exact nodup_nil

/-- Where no gate is removed from a caller that holds it, every state is safe. -/
theorem safe_of_careful {events : List (Event Store Action)} {state : Store} (run : Run perform Initial events state)
    (careful : ∀ event ∈ events, event.before.Careful event.action) : state.Safe := by
  have sound : state.Sound := run.invariant Sound (fun _ => Initial.sound) (fun _ _ sound => perform_sound sound) careful
  exact ⟨fun _ _ => sound.exclusive, fun pin member => (sound.ready pin member).2.2⟩

section Reclaimed

def emptyObject : ObjectRef :=
  ⟨⟨.productKey, #v[0xe8, 0xf7, 0x6e, 0x98, 0x3c, 0x0d, 0xf6, 0x87, 0xc7, 0x1d, 0x3b, 0x1f, 0x98, 0x59, 0x6d, 0x74,
    0x43, 0xe1, 0x4a, 0xac, 0x2d, 0xcd, 0x57, 0x2d, 0xfa, 0x7d, 0x00, 0x7c, 0xe8, 0x72, 0x00, 0xda]⟩, 0⟩

def emptyPath : ObjectPath :=
  ⟨#v[0xa6, 0x4a, 0xac, 0xa0, 0x7a, 0x72, 0x6b, 0xc2, 0xce, 0xc2, 0x34, 0xa4, 0xec, 0xa8, 0x3a, 0xbb,
    0x9a, 0x35, 0xb6, 0x5f, 0xa2, 0x77, 0xc9, 0x23, 0xa3, 0x82, 0x42, 0xbe, 0x01, 0x66, 0x7f, 0xe5],
    emptyObject.digest.sha256⟩

def emptyStored : StoredObject := ⟨emptyObject, 100, 0⟩

def emptyPin : ObjectPin := ⟨"reader", 1, emptyObject, none⟩

def emptyStore : Store where
  now := 0
  gate := none
  objects path := if path = emptyPath then some emptyStored else none
  owners := []
  pins := []
  phase _ := .idle
  granted := []

def times (count : Nat) (action : Action) : List Action := List.replicate count action

/-- A collection stalls before it removes an object, and another caller reclaims the gate. -/
def stalled : List Action :=
  .executeGc 0 [⟨emptyObject, emptyPath, 100, 0⟩] 0 :: times 5 (.advance 0) ++ .wait 60001 :: .createPin 1 emptyPin :: times 4 (.advance 1)

/-- The other caller pins the object, and the collection goes on. -/
def resumed : List Action := stalled ++ times 6 (.advance 1) ++ [.advance 0]

theorem emptyStore_run (actions : List Action) : Run perform Initial (trace perform emptyStore actions) (actions.foldl perform emptyStore) :=
  @Run.tracing _ _ perform Initial emptyStore ⟨fun _ => rfl, rfl⟩ actions

/-- Two callers are in the section, and a pinned object is removed. -/
theorem reclaimed_unsafe :
    (∃ events state, Run perform Initial events state ∧ Holding (state.phase 0) ∧ Holding (state.phase 1)) ∧
      ∃ events state, Run perform Initial events state ∧ ¬ state.Safe := by
  have both : Holding ((stalled.foldl perform emptyStore).phase 0) ∧ Holding ((stalled.foldl perform emptyStore).phase 1) := by decide +kernel
  have outcome : emptyPin ∈ (resumed.foldl perform emptyStore).granted ∧ (resumed.foldl perform emptyStore).holds emptyObject = false := by
    decide +kernel
  refine ⟨⟨_, _, emptyStore_run stalled, both⟩, _, _, emptyStore_run resumed, fun safe => ?_⟩
  obtain ⟨granted, removed⟩ := outcome
  rw [← Bool.not_eq_true, holds_iff] at removed
  exact removed (safe.pinned emptyPin granted rfl)

def recovered : List Action :=
  .executeGc 0 [⟨emptyObject, emptyPath, 100, 0⟩] 0 :: times 5 (.advance 0) ++ .die 0 :: .wait 60001 :: .createPin 1 emptyPin ::
    times 10 (.advance 1) ++ .executeGc 2 [⟨emptyObject, emptyPath, 100, 0⟩] 0 :: times 8 (.advance 2)

theorem recovered_safe : (recovered.foldl perform emptyStore).Safe :=
  safe_of_careful (emptyStore_run recovered) (by decide +kernel)

end Reclaimed

end Audec.Content.Store

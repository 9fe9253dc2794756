import Audec.Content.Store

/-! The gate of pins and collections: one caller's operations keep what the others rely on. -/

open Machine List

namespace Audec.Content.Store

/-- In the section that the gate protects, up to the gate's removal. -/
def Holding : Phase → Prop
  | .inside _ | .leaving _ => True
  | _ => False

instance (phase : Phase) : Decidable (Holding phase) := by
  cases phase <;> (unfold Holding; infer_instance)

section Records

variable {store : Store}

theorem recordAt_cons (file : PinPath × Option PinRecord) (files : List (PinPath × Option PinRecord)) (path : PinPath) :
    (file :: files).lookup path = if path = file.1 then some file.2 else files.lookup path := by
  rw [lookup_cons]
  by_cases same : path = file.1
  · rw [if_pos same, beq_iff_eq.mpr same]
  · rw [if_neg same, beq_false_of_ne same]

variable {path : PinPath}

theorem lookup_filter (files : List (PinPath × Option PinRecord)) {other : PinPath} (differ : path ≠ other) :
    (files.filter fun file => file.1 ≠ other).lookup path = files.lookup path := by
  induction files with
  | nil => rfl
  | cons file files tail =>
    rw [filter_cons, recordAt_cons]
    split
    · rw [recordAt_cons, tail]
    · rename_i same
      rw [tail, if_neg]
      rw [decide_eq_true_eq, not_not] at same
      rw [same]
      exact differ

theorem lookup_map (files : List (PinPath × Option PinRecord)) (path written : PinPath) (record : Option PinRecord) :
    (files.map fun (file : PinPath × Option PinRecord) => if file.1 = written then (written, record) else file).lookup path =
      if path = written then (files.lookup path).map fun _ => record else files.lookup path := by
  induction files with
  | nil => simp
  | cons file files tail =>
    rw [map_cons, recordAt_cons, recordAt_cons, tail]
    by_cases same : path = written
    · subst same
      by_cases here : path = file.1
      · simp [here]
      · simp [here, Ne.symm here]
    · by_cases there : file.1 = written
      · subst there
        simp [same]
      · simp [same, there]

theorem mem_paths {files : List (PinPath × Option PinRecord)} {record : Option PinRecord}
    (found : files.lookup path = some record) : path ∈ files.map Prod.fst := by
  induction files with
  | nil => cases found
  | cons file files tail =>
    rw [recordAt_cons] at found
    split at found
    · rename_i same
      exact mem_cons.mpr (.inl same)
    · exact mem_cons_of_mem _ (tail found)

end Records

section

variable (store : Store)

def Kept (object : ObjectRef) : Prop := ∃ stored, store.objects (objectPath object.digest) = some stored ∧ stored.object = object

def Ready (pin : ObjectPin) : Prop :=
  pin.owner ∈ store.owners ∧ store.recordAt pin.path = some (some pin.record) ∧ (activeAt store.now pin.expires = true → store.Kept pin.object)

def Supported : Work → Prop
  | .verify _ => True
  | .createOwnerDirectory pin => store.Kept pin.object
  | .createRecord pin => pin.owner ∈ store.owners ∧ store.Kept pin.object
  | .writeRecord pin => pin.owner ∈ store.owners ∧ store.Kept pin.object ∧ store.recordAt pin.path = some none
  | .syncRecord pin => store.Ready pin ∧ pin.path ∉ store.granted.map ObjectPin.path
  | .scanPins _ now => now ≤ store.now
  | .scanOwners _ now owners paths => now ≤ store.now ∧ ∀ pin ∈ store.granted, pin.owner ∈ owners ∨ pin.path ∈ paths
  | .readPins _ now paths roots =>
    now ≤ store.now ∧ ∀ pin ∈ store.granted, activeAt store.now pin.expires = true → pin.path ∈ paths ∨ pin.object ∈ roots
  | .inspect _ roots => ∀ pin ∈ store.granted, activeAt store.now pin.expires = true → pin.object ∈ roots
  | .remove candidate _ roots =>
    (∀ pin ∈ store.granted, activeAt store.now pin.expires = true → pin.object ∈ roots) ∧ candidate.object ∉ roots ∧
      ∃ stored, store.objects candidate.path = some stored ∧ stored.object = candidate.object

def Timely : Task → Prop
  | .createPin _ => True
  | .executeGc _ now => now ≤ store.now

def Justified (caller : Caller) : Phase → Prop
  | .idle | .dead => True
  | .claiming task | .judging task | .reclaiming task | .reclaimed task => store.Timely task
  | .inside work => store.gate.map Gate.holder = some caller ∧ store.Supported work
  | .leaving pin => store.gate.map Gate.holder = some caller ∧ ∀ granted ∈ pin, store.Ready granted ∧ granted.path ∉ store.granted.map ObjectPin.path

end

structure Sound (store : Store) : Prop where
  justified : ∀ caller, store.Justified caller (store.phase caller)
  ready : ∀ pin ∈ store.granted, store.Ready pin
  distinct : (store.granted.map ObjectPin.path).Nodup

section Sound

variable {store after : Store} {caller : Caller}

variable {phase : Phase} {other : Caller}

theorem Justified.holder (justified : store.Justified caller phase) (holding : Holding phase) :
    store.gate.map Gate.holder = some caller := by
  cases phase with
  | inside | leaving => exact justified.1
  | idle | dead | claiming | judging | reclaiming | reclaimed => cases holding

theorem Sound.exclusive (sound : store.Sound) (here : Holding (store.phase caller)) (there : Holding (store.phase other)) :
    caller = other := by
  have same := (sound.justified caller).holder here
  rw [(sound.justified other).holder there] at same
  exact (Option.some.inj same).symm

theorem Justified.unheld (justified : store.Justified caller phase) (unheld : ¬ Holding phase) (now : store.now ≤ after.now) :
    after.Justified caller phase := by
  cases phase with
  | idle | dead => trivial
  | claiming task | judging task | reclaiming task | reclaimed task =>
    cases task with
    | createPin => trivial
    | executeGc => exact le_trans justified now
  | inside | leaving => exact absurd trivial unheld

theorem Sound.alone (sound : store.Sound) (others : ∀ other, other ≠ caller → ¬ Holding (store.phase other))
    (phase : ∀ other, other ≠ caller → after.phase other = store.phase other) (now : store.now ≤ after.now)
    (own : after.Justified caller (after.phase caller)) (ready : ∀ pin ∈ after.granted, after.Ready pin)
    (distinct : (after.granted.map ObjectPin.path).Nodup) : after.Sound where
  justified other := by
    by_cases same : other = caller
    · rw [same]
      exact own
    · rw [phase other same]
      exact (sound.justified other).unheld (others other same) now
  ready := ready
  distinct := distinct

theorem Sound.others (sound : store.Sound) (holding : Holding (store.phase caller)) :
    ∀ other, other ≠ caller → ¬ Holding (store.phase other) :=
  fun _ differ there => differ (sound.exclusive there holding)

theorem goto_same (phase : Phase) : (store.goto caller phase).phase caller = phase := Function.update_self _ _ _

theorem goto_other (phase : Phase) (differ : other ≠ caller) : (store.goto caller phase).phase other = store.phase other :=
  Function.update_of_ne differ _ _

theorem goto_supported {work : Work} (supported : store.Supported work) : (store.goto caller phase).Supported work := by
  cases work <;> exact supported

theorem goto_justified {at' : Phase} (justified : store.Justified other at') :
    (store.goto caller phase).Justified other at' := by
  cases at' with
  | inside => exact ⟨justified.1, goto_supported justified.2⟩
  | claiming task | judging task | reclaiming task | reclaimed task => cases task <;> exact justified
  | idle | dead | leaving => exact justified

theorem Sound.moves (sound : store.Sound) {phase : Phase} (own : store.Justified caller phase) : (store.goto caller phase).Sound where
  justified other := by
    by_cases same : other = caller
    · subst same
      rw [goto_same]
      exact goto_justified own
    · rw [goto_other phase same]
      exact goto_justified (sound.justified other)
  ready := sound.ready
  distinct := sound.distinct

end Sound

section Steps

variable {store : Store} {caller : Caller}

theorem holds_iff {object : ObjectRef} : store.holds object = true ↔ store.Kept object := by
  unfold holds Kept
  rw [Option.any_eq_true]
  simp only [decide_eq_true_eq]

theorem activeAt_mono {now later : Nat} {expires : Option U64} (before : now ≤ later) (active : activeAt later expires = true) :
    activeAt now expires = true := by
  cases expires with
  | none => rfl
  | some expires =>
    rw [activeAt, Option.all_some, decide_eq_true_eq] at active ⊢
    exact before.trans_lt active

variable {pin : ObjectPin} {task : Task}

theorem recordsOf_mem {record : Option PinRecord} (found : store.recordAt pin.path = some record) :
    pin.path ∈ store.recordsOf pin.owner :=
  mem_filter.mpr ⟨mem_paths found, decide_eq_true rfl⟩

theorem Sound.leaves (sound : store.Sound) (gate : store.gate.map Gate.holder = some caller) : (store.goto caller (.leaving none)).Sound :=
  sound.moves ⟨gate, nofun⟩

theorem ready_of_records {after : Store} (ready : store.Ready pin) (owners : ∀ owner ∈ store.owners, owner ∈ after.owners)
    (record : after.recordAt pin.path = store.recordAt pin.path) (now : after.now = store.now) (objects : after.objects = store.objects) :
    after.Ready pin := by
  obtain ⟨owner, written, kept⟩ := ready
  refine ⟨owners _ owner, record.trans written, fun active => ?_⟩
  rw [now] at active
  unfold Kept
  rw [objects]
  exact kept active

theorem doWork_sound (sound : store.Sound) {work : Work} (phase : store.phase caller = .inside work) : (store.doWork caller work).Sound := by
  have justified := sound.justified caller
  rw [phase] at justified
  obtain ⟨gate, supported⟩ := justified
  have holding : Holding (store.phase caller) := by rw [phase]; trivial
  have others := sound.others holding
  cases work with
  | verify pin =>
    simp only [doWork]
    split
    · rename_i held
      exact sound.moves ⟨gate, holds_iff.mp held⟩
    · exact sound.leaves gate
  | createOwnerDirectory pin =>
    refine sound.alone others (fun other differ => goto_other _ differ) le_rfl ?_ ?_ sound.distinct
    · rw [doWork, goto_same]
      exact ⟨gate, mem_insert_self, supported⟩
    · exact fun granted member => ready_of_records (sound.ready granted member) (fun owner member => mem_insert_of_mem member) rfl rfl rfl
  | createRecord pin =>
    simp only [doWork]
    split
    · exact sound.leaves gate
    · rename_i absent
      rw [Option.not_isSome_iff_eq_none] at absent
      refine sound.alone others (fun other differ => goto_other _ differ) le_rfl ?_ ?_ sound.distinct
      · rw [goto_same]
        refine ⟨gate, supported.1, supported.2, ?_⟩
        exact (recordAt_cons _ _ _).trans (if_pos rfl)
      · intro granted member
        refine ready_of_records (sound.ready granted member) (fun _ => id) ?_ rfl rfl
        refine (recordAt_cons _ _ _).trans (if_neg fun same => ?_)
        have written := (sound.ready granted member).2.1
        rw [same, absent] at written
        cases written
  | writeRecord pin =>
    obtain ⟨owner, kept, created⟩ := supported
    have apart : ∀ granted ∈ store.granted, granted.path ≠ pin.path := by
      intro granted member same
      have written := (sound.ready granted member).2.1
      rw [same, created] at written
      cases written
    refine sound.alone others (fun other differ => goto_other _ differ) le_rfl ?_ ?_ sound.distinct
    · rw [doWork, goto_same]
      refine ⟨gate, ⟨owner, ?_, fun _ => kept⟩, ?_⟩
      · refine (lookup_map _ _ _ _).trans ?_
        rw [if_pos rfl]
        exact congrArg (Option.map fun _ => some pin.record) created
      · intro member
        obtain ⟨granted, inside, same⟩ := mem_map.mp member
        exact apart granted inside same
    · intro granted member
      refine ready_of_records (sound.ready granted member) (fun _ => id) ?_ rfl rfl
      exact (lookup_map _ _ _ _).trans (if_neg (apart granted member))
  | syncRecord pin =>
    refine sound.moves ⟨gate, ?_⟩
    rintro granted ⟨⟩
    exact supported
  | scanPins removals now =>
    refine sound.moves ⟨gate, supported, fun granted member => .inl (sound.ready granted member).1⟩
  | scanOwners removals now owners paths =>
    obtain ⟨timely, found⟩ := supported
    cases owners with
    | nil => exact sound.moves ⟨gate, timely, fun granted member _ => .inl ((found granted member).resolve_left not_mem_nil)⟩
    | cons owner owners =>
      refine sound.moves ⟨gate, timely, fun granted member => ?_⟩
      rw [mem_append]
      rcases found granted member with listed | known
      · rcases mem_cons.mp listed with here | later
        · rw [← here]
          exact .inr (.inr (recordsOf_mem (sound.ready granted member).2.1))
        · exact .inl later
      · exact .inr (.inl known)
  | readPins removals now paths roots =>
    obtain ⟨timely, found⟩ := supported
    cases paths with
    | nil => exact sound.moves ⟨gate, fun granted member active => (found granted member active).resolve_left not_mem_nil⟩
    | cons path paths =>
      simp only [doWork]
      split
      · rename_i record read
        refine sound.moves ⟨gate, timely, fun granted member active => ?_⟩
        rcases found granted member active with listed | rooted
        · rcases mem_cons.mp listed with here | later
          · have written := (sound.ready granted member).2.1
            rw [here, read] at written
            cases written
            right
            rw [if_pos (show activeAt now granted.record.expiresUnixMs = true from activeAt_mono timely active)]
            exact mem_cons_self
          · exact .inl later
        · right
          split
          · exact mem_cons_of_mem _ rooted
          · exact rooted
      · exact sound.leaves gate
  | inspect removals roots =>
    cases removals with
    | nil => exact sound.leaves gate
    | cons candidate removals =>
      simp only [doWork]
      split
      · exact sound.moves ⟨gate, supported⟩
      · rename_i unrooted
        split
        · exact sound.moves ⟨gate, supported⟩
        · rename_i actual there
          split
          · exact sound.leaves gate
          · split
            · rename_i same
              exact sound.moves ⟨gate, supported, unrooted, actual, there, by rw [same]⟩
            · exact sound.moves ⟨gate, supported⟩
  | remove candidate removals roots =>
    obtain ⟨rooted, unrooted, stored, there, same⟩ := supported
    simp only [doWork]
    split
    · refine sound.alone others (fun other differ => goto_other _ differ) le_rfl ?_ ?_ sound.distinct
      · rw [goto_same]
        exact ⟨gate, rooted⟩
      · intro granted member
        obtain ⟨owner, written, kept⟩ := sound.ready granted member
        refine ⟨owner, written, fun active => ?_⟩
        obtain ⟨other, found, object⟩ := kept active
        refine ⟨other, (Function.update_of_ne (fun path => unrooted ?_) _ _).trans found, object⟩
        rw [path, there] at found
        cases found
        rw [← same, object]
        exact rooted granted member active
    · exact sound.leaves gate

theorem claimed_sound (sound : store.Sound) (free : store.gate.isNone = true) (timely : store.Timely task) :
    (store.claimed caller task).Sound := by
  have others : ∀ other, other ≠ caller → ¬ Holding (store.phase other) := by
    intro other differ holding
    have gate := (sound.justified other).holder holding
    rw [Option.isNone_iff_eq_none.mp free] at gate
    cases gate
  refine sound.alone others (fun other differ => goto_other _ differ) le_rfl ?_ sound.ready sound.distinct
  rw [claimed, goto_same]
  cases task with
  | createPin => exact ⟨rfl, trivial⟩
  | executeGc => exact ⟨rfl, timely⟩

theorem leaving_granted (sound : store.Sound) {pin : Option ObjectPin} (phase : store.phase caller = .leaving pin) (gate : Option Gate) :
    ({ store with gate, granted := pin.toList ++ store.granted }.goto caller .idle).Sound := by
  have justified := sound.justified caller
  rw [phase] at justified
  obtain ⟨-, made⟩ := justified
  have holding : Holding (store.phase caller) := by rw [phase]; trivial
  refine sound.alone (sound.others holding) (fun other differ => goto_other _ differ) le_rfl ?_ ?_ ?_
  · rw [goto_same]
    trivial
  · intro granted member
    rcases mem_append.mp member with new | before
    · exact (made granted (Option.mem_toList.mp new)).1
    · exact sound.ready granted before
  · change ((pin.toList ++ store.granted).map ObjectPin.path).Nodup
    cases pin with
    | none => exact sound.distinct
    | some granted => exact nodup_cons.mpr ⟨(made granted rfl).2, sound.distinct⟩

/-- The next operation removes a gate that was judged stale. -/
def reclaims (store : Store) : Action → Bool
  | .advance caller =>
    match store.phase caller with
    | .reclaiming _ => true
    | _ => false
  | _ => false

def Careful (store : Store) (action : Action) : Prop :=
  store.reclaims action = true → ∀ gate ∈ store.gate, ¬ Holding (store.phase gate.holder)

instance (store : Store) (action : Action) : Decidable (store.Careful action) := by unfold Careful; infer_instance

theorem advance_sound (sound : store.Sound) (careful : store.Careful (.advance caller)) : (store.advance caller).Sound := by
  have justified := sound.justified caller
  unfold advance
  cases phase : store.phase caller with
  | idle | dead => exact sound
  | claiming task =>
    rw [phase] at justified
    dsimp only
    split
    · rename_i free
      exact claimed_sound sound free justified
    · exact sound.moves justified
  | judging task =>
    rw [phase] at justified
    dsimp only
    split
    · exact sound.moves justified
    · exact sound.moves trivial
  | reclaiming task =>
    rw [phase] at justified
    have reclaims : store.reclaims (.advance caller) = true := by simp only [Store.reclaims, phase]
    have others : ∀ other, other ≠ caller → ¬ Holding (store.phase other) := by
      intro other _ holding
      obtain ⟨gate, there, rfl⟩ := Option.map_eq_some_iff.mp ((sound.justified other).holder holding)
      exact careful reclaims gate there holding
    refine sound.alone others (fun other differ => goto_other _ differ) le_rfl ?_ sound.ready sound.distinct
    rw [goto_same]
    cases task <;> exact justified
  | reclaimed task =>
    rw [phase] at justified
    dsimp only
    split
    · rename_i free
      exact claimed_sound sound free justified
    · exact sound.moves trivial
  | inside work => exact doWork_sound sound phase
  | leaving pin => exact leaving_granted sound phase none

theorem fault_sound (sound : store.Sound) : (store.fault caller).Sound := by
  have justified := sound.justified caller
  unfold fault
  cases phase : store.phase caller with
  | idle | dead => exact sound
  | claiming | judging | reclaimed => exact sound.moves trivial
  | reclaiming =>
    rw [phase] at justified
    exact sound.moves justified
  | inside =>
    rw [phase] at justified
    exact sound.leaves justified.1
  | leaving pin => exact leaving_granted sound phase store.gate

theorem start_sound (sound : store.Sound) (timely : store.Timely task) : (store.start caller task).Sound := by
  unfold start
  split
  · exact sound.moves timely
  · exact sound

end Steps

end Audec.Content.Store

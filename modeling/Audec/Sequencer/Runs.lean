import Audec.Sequencer.Store

/-! Runs of the sequencer: failing calls change nothing, transactions are undone and redone exactly, identities are
    handed out once, and the history stays within its limit. -/

open Machine Checked GuardedStore FloatEquality Runs List Entries
open Std (ExtTreeMap)

namespace Audec.Sequencer

namespace Sequencer

section Steps

variable {sequencer candidate after : Sequencer}

theorem store_adopt : (sequencer.adopt candidate).store = candidate.store := by
  funext key
  cases key <;> rfl

theorem store_record (entry : HistoryEntry) : (sequencer.record entry).store = sequencer.store := by
  funext key
  cases key <;> rfl

variable {commands : List SequencerCommand} {label : String} {revision : U64}

theorem execute_ok (present : commands ≠ [])
    (done : sequencer.execute label commands = (.ok revision, after)) :
    ∃ candidate, sequencer.replay (commands.map preparePatternDivergence) = .ok candidate ∧
      after = (sequencer.adopt candidate).record ⟨label, commands.map preparePatternDivergence,
        (commands.map preparePatternDivergence).reverse.map SequencerCommand.inverse⟩ := by
  unfold execute at done
  rw [if_neg (by simpa using present)] at done
  dsimp only at done
  split at done
  · cases done
  · rename_i candidate replayed
    exact ⟨candidate, replayed, (Prod.mk.inj done).2.symm⟩

variable {entry : HistoryEntry} {rest : List HistoryEntry}

theorem undoEntry_of_replay (stacked : sequencer.undo = entry :: rest)
    (replayed : { sequencer with undo := rest }.replay entry.backward = .ok candidate) :
    ∃ revision undone, sequencer.undoEntry = (.ok (some revision), undone) ∧ undone.store = candidate.store ∧
      undone.redo = entry :: sequencer.redo := by
  unfold undoEntry
  rw [stacked]
  dsimp only
  rw [replayed]
  refine ⟨_, _, rfl, ?_, rfl⟩
  funext key
  cases key <;> rfl

theorem redoEntry_of_replay (stacked : sequencer.redo = entry :: rest)
    (replayed : { sequencer with redo := rest }.replay entry.forward = .ok candidate) :
    ∃ revision redone, sequencer.redoEntry = (.ok (some revision), redone) ∧ redone.store = candidate.store := by
  unfold redoEntry
  rw [stacked]
  dsimp only
  rw [replayed]
  refine ⟨_, _, rfl, ?_⟩
  funext key
  cases key <;> rfl

def Reversible (before after : Sequencer) : Prop :=
  ∃ revision undone revision' redone, after.undoEntry = (.ok (some revision), undone) ∧ Same undone before ∧
    undone.redoEntry = (.ok (some revision'), redone) ∧ Same redone after

theorem execute_reversible (valid : sequencer.Valid)
    (present : commands ≠ []) (kept : 0 < sequencer.historyLimit)
    (done : sequencer.execute label commands = (.ok revision, after)) : Reversible sequencer after := by
  obtain ⟨candidate, replayed, rfl⟩ := execute_ok present done
  set prepared := commands.map preparePatternDivergence
  set entry : HistoryEntry := ⟨label, prepared, prepared.reverse.map SequencerCommand.inverse⟩
  set after := (sequencer.adopt candidate).record entry with afterIs
  have stored : after.store = candidate.store := by rw [afterIs, store_record, store_adopt]
  obtain ⟨rest, stacked⟩ : ∃ rest, after.undo = entry :: rest := by
    obtain ⟨limit, same⟩ := Nat.exists_eq_succ_of_ne_zero kept.ne'
    refine ⟨sequencer.undo.take limit, ?_⟩
    change (if 0 < sequencer.historyLimit then (entry :: sequencer.undo).take sequencer.historyLimit else sequencer.undo) = _
    rw [if_pos kept, same, take_succ_cons]
  have popped : { after with undo := rest }.store = candidate.store := by
    rw [← stored]
    funext key
    cases key <;> rfl
  obtain ⟨before, undoing, back⟩ := replay_backward valid replayed popped
  obtain ⟨revision₁, undone, undid, restored, redoable⟩ := undoEntry_of_replay stacked undoing
  have same : Same undone sequencer := back.of_store restored
  have same' : Same { undone with redo := after.redo } sequencer := by
    refine same.of_store ?_
    funext key
    cases key <;> rfl
  obtain ⟨again, redoing, forth⟩ := replay_forward replayed same'
  obtain ⟨revision₂, redone, redid, restored'⟩ := redoEntry_of_replay redoable redoing
  refine ⟨revision₁, undone, revision₂, redone, undid, same, redid, ?_⟩
  have forth' : Same again after := (forth.symm.of_store stored).symm
  exact forth'.of_store restored'

theorem execute_content (present : commands ≠ [])
    (done : sequencer.execute label commands = (.ok revision, after)) :
    ∃ puts, putsOf (commands.map preparePatternDivergence) = some puts ∧ after.store = writes puts sequencer.store := by
  obtain ⟨candidate, replayed, rfl⟩ := execute_ok present done
  obtain ⟨-, puts, made, -, stored⟩ := replay_puts replayed
  exact ⟨puts, made, by rw [store_record, store_adopt, stored]⟩

theorem call_atomic {action : Action} {error : SequencerError} (failed : (sequencer.call action).1 = .error (.error error)) :
    sequencer.perform action = sequencer := by
  cases action with
  | execute label commands =>
    change (sequencer.execute label commands).1.map some = _ at failed
    change (sequencer.execute label commands).2 = _
    unfold execute at failed ⊢
    dsimp only at failed ⊢
    split at failed
    · cases failed
    · rename_i present
      rw [if_neg present]
      split at failed
      · rfl
      · cases failed
  | undo =>
    change sequencer.undoEntry.1 = _ at failed
    change sequencer.undoEntry.2 = _
    unfold undoEntry at failed ⊢
    split at failed
    · cases failed
    · rename_i entry rest stacked
      dsimp only at failed
      split at failed
      · rename_i replayed
        simp only [replayed]
        rw [← stacked]
      · cases failed
      · cases failed
  | redo =>
    change sequencer.redoEntry.1 = _ at failed
    change sequencer.redoEntry.2 = _
    unfold redoEntry at failed ⊢
    split at failed
    · cases failed
    · rename_i entry rest stacked
      dsimp only at failed
      split at failed
      · rename_i replayed
        simp only [replayed]
        rw [← stacked]
      · cases failed
      · cases failed
  | setHistoryLimit limit => cases failed
  | allocate kind => cases failed

end Steps

/-! ### Identities -/

theorem saturatingSucc_val (count : U64) : (saturatingSucc count).val = min (count.val + 1) 0xffffffffffffffff := by
  have := count.isLt
  unfold saturatingSucc checkedSucc
  split
  · change count.val + 1 = _
    omega
  · change count.val = _
    omega

/-- An allocator has moved past an identity. -/
def Past (next id : U64) : Prop := saturatingSucc id ≤ next

theorem Past.mono {next next' id : U64} (past : Past next id) (grows : next ≤ next') : Past next' id := le_trans past grows

theorem past_raise {next id : U64} {ids : List U64} (member : id ∈ ids) : Past (raise next ids) id := by
  unfold raise Past
  cases greatest : ids.max? with
  | none =>
    rw [max?_eq_none_iff] at greatest
    rw [greatest] at member
    cases member
  | some maximum =>
    have below : id.val ≤ maximum.val := (max?_eq_some_iff.mp greatest).2 id member
    refine le_trans ?_ (le_max_right _ _)
    rw [Fin.le_def, saturatingSucc_val, saturatingSucc_val]
    omega

theorem le_raise (next : U64) (ids : List U64) : next ≤ raise next ids := by
  unfold raise
  cases ids.max? with
  | none => exact le_rfl
  | some maximum => exact le_max_left _ _

def Holds (sequencer : Sequencer) : IdKind → U64 → Prop
  | .pattern, id => ∃ definition, sequencer.patterns[id]? = some definition
  | .clip, id => ∃ clip, sequencer.clips[id]? = some clip
  | .note, id => ∃ (key : PatternId) (definition : PatternDefinition), sequencer.patterns[key]? = some definition ∧
    id ∈ definition.content.noteIds
  | .lane, id => ∃ (key : PatternId) (definition : PatternDefinition), sequencer.patterns[key]? = some definition ∧
    id ∈ definition.content.laneIds

/-- Every identity in the content is behind its allocator. -/
def Covered (sequencer : Sequencer) : Prop := ∀ kind id, sequencer.Holds kind id → Past (sequencer.next kind) id

end Sequencer

def SequencerCommand.Puts : SequencerCommand → IdKind → U64 → Prop
  | .putPattern _ (some value), .pattern, id => id = value.id
  | .putPattern _ (some value), .note, id => id ∈ value.content.noteIds
  | .putPattern _ (some value), .lane, id => id ∈ value.content.laneIds
  | .putClip _ (some value), .clip, id => id = value.id
  | _, _, _ => False

variable {command : SequencerCommand} {id : U64} {kind : IdKind}

theorem puts_prepared (puts : command.Puts kind id) :
    (preparePatternDivergence command).Puts kind id := by
  cases command with
  | putPattern before after =>
    cases after with
    | none => exact puts
    | some after =>
      have same : ∀ marked, marked = markDivergedAfterManualEdit before after →
          marked.id = after.id ∧ marked.content = after.content := by
        rintro marked rfl
        unfold markDivergedAfterManualEdit
        cases before with
        | none => exact ⟨rfl, rfl⟩
        | some before =>
          dsimp only
          split <;> exact ⟨rfl, rfl⟩
      obtain ⟨ids, contents⟩ := same _ rfl
      cases kind with
      | pattern => exact Eq.trans puts ids.symm
      | note =>
        change id ∈ (markDivergedAfterManualEdit before after).content.noteIds
        rw [contents]
        exact puts
      | lane =>
        change id ∈ (markDivergedAfterManualEdit before after).content.laneIds
        rw [contents]
        exact puts
      | clip => exact puts
  | putClip before after => exact puts
  | setTempoMap before after => exact puts

namespace Sequencer

section Covering

variable {sequencer candidate after : Sequencer}

structure Advances (sequencer after : Sequencer) (puts : IdKind → U64 → Prop) : Prop where
  grows : ∀ kind, sequencer.next kind ≤ after.next kind
  past : ∀ kind id, puts kind id → Past (after.next kind) id
  held : ∀ kind id, after.Holds kind id → sequencer.Holds kind id ∨ puts kind id

theorem Advances.covered {puts : IdKind → U64 → Prop} (advances : Advances sequencer after puts)
    (covered : sequencer.Covered) : after.Covered := by
  intro kind id holds
  rcases advances.held kind id holds with before | puts
  · exact (covered kind id before).mono (advances.grows kind)
  · exact advances.past kind id puts

theorem putPattern_advances (before : Option PatternDefinition) (value : Option PatternDefinition) (id : PatternId)
    (same : ∀ found, value = some found → found.id = id) :
    Advances sequencer (sequencer.putPattern id value) (SequencerCommand.putPattern before value).Puts := by
  cases value with
  | none =>
    have erased : ∀ (key : PatternId) (definition : PatternDefinition),
        (sequencer.putPattern id none).patterns[key]? = some definition → sequencer.patterns[key]? = some definition := by
      intro key definition found
      change (sequencer.patterns.erase id)[key]? = _ at found
      rw [lookup_erase] at found
      split at found
      · cases found
      · exact found
    refine ⟨fun kind => by cases kind <;> exact le_rfl, fun kind id puts => by cases kind <;> exact puts.elim, ?_⟩
    intro kind other holds
    left
    cases kind with
    | pattern =>
      obtain ⟨definition, found⟩ := holds
      exact ⟨definition, erased other definition found⟩
    | clip => exact holds
    | note =>
      obtain ⟨key, definition, found, member⟩ := holds
      exact ⟨key, definition, erased key definition found, member⟩
    | lane =>
      obtain ⟨key, definition, found, member⟩ := holds
      exact ⟨key, definition, erased key definition found, member⟩
  | some value =>
    have named := same value rfl
    have inserted : ∀ (key : PatternId) (definition : PatternDefinition),
        (sequencer.putPattern id (some value)).patterns[key]? = some definition →
          sequencer.patterns[key]? = some definition ∨ (key = id ∧ definition = value) := by
      intro key definition found
      change (sequencer.patterns.insert id value)[key]? = _ at found
      rw [lookup_insert] at found
      split at found
      · rename_i hit
        exact .inr ⟨hit.symm, (Option.some.inj found).symm⟩
      · exact .inl found
    refine ⟨?_, ?_, ?_⟩
    · intro kind
      cases kind with
      | pattern => exact le_max_left _ _
      | clip => exact le_rfl
      | note => exact le_raise _ _
      | lane => exact le_raise _ _
    · intro kind other puts
      cases kind with
      | pattern =>
        have other_is : other = id := Eq.trans puts named
        rw [other_is]
        exact le_max_right _ _
      | clip => exact puts.elim
      | note => exact past_raise puts
      | lane => exact past_raise puts
    · intro kind other holds
      cases kind with
      | pattern =>
        obtain ⟨definition, found⟩ := holds
        rcases inserted other definition found with before | ⟨rfl, -⟩
        · exact .inl ⟨definition, before⟩
        · exact .inr named.symm
      | clip => exact .inl holds
      | note =>
        obtain ⟨key, definition, found, member⟩ := holds
        rcases inserted key definition found with before | ⟨-, rfl⟩
        · exact .inl ⟨key, definition, before, member⟩
        · exact .inr member
      | lane =>
        obtain ⟨key, definition, found, member⟩ := holds
        rcases inserted key definition found with before | ⟨-, rfl⟩
        · exact .inl ⟨key, definition, before, member⟩
        · exact .inr member

theorem putClip_advances (before : Option PatternClip) (value : Option PatternClip) (id : PatternClipId)
    (same : ∀ found, value = some found → found.id = id) :
    Advances sequencer (sequencer.putClip id value) (SequencerCommand.putClip before value).Puts := by
  cases value with
  | none =>
    refine ⟨fun kind => by cases kind <;> exact le_rfl, fun kind id puts => by cases kind <;> exact puts.elim, ?_⟩
    intro kind other holds
    left
    cases kind with
    | clip =>
      obtain ⟨clip, found⟩ := holds
      change (sequencer.clips.erase id)[other]? = _ at found
      rw [lookup_erase] at found
      split at found
      · cases found
      · exact ⟨clip, found⟩
    | _ => exact holds
  | some value =>
    have named := same value rfl
    refine ⟨?_, ?_, ?_⟩
    · intro kind
      cases kind with
      | clip => exact le_max_left _ _
      | _ => exact le_rfl
    · intro kind other puts
      cases kind with
      | clip =>
        have other_is : other = id := Eq.trans puts named
        rw [other_is]
        exact le_max_right _ _
      | _ => exact puts.elim
    · intro kind other holds
      cases kind with
      | clip =>
        obtain ⟨clip, found⟩ := holds
        change (sequencer.clips.insert id value)[other]? = _ at found
        rw [lookup_insert] at found
        split at found
        · rename_i hit
          exact .inr (hit.symm.trans named.symm)
        · exact .inl ⟨clip, found⟩
      | _ => exact .inl holds

theorem applyCommand_advances {command : SequencerCommand} (applied : sequencer.applyCommand command = .ok after) :
    Advances sequencer after command.Puts := by
  cases command with
  | putPattern before value =>
    rw [applyCommand, bind_ok] at applied
    obtain ⟨id, named, applied⟩ := applied
    rw [bind_unit_ok, ensure_ok] at applied
    obtain ⟨⟨agree, -⟩, applied⟩ := applied
    cases applied
    refine putPattern_advances before value id ?_
    rintro found rfl
    exact of_decide_eq_true agree.2
  | putClip before value =>
    rw [applyCommand, bind_ok] at applied
    obtain ⟨id, named, applied⟩ := applied
    rw [bind_unit_ok, ensure_ok] at applied
    obtain ⟨⟨agree, -⟩, applied⟩ := applied
    cases applied
    refine putClip_advances before value id ?_
    rintro found rfl
    exact of_decide_eq_true agree.2
  | setTempoMap before value =>
    simp only [applyCommand, bind_unit_ok, ensure_ok] at applied
    obtain ⟨-, applied⟩ := applied
    cases applied
    refine ⟨fun kind => by cases kind <;> exact le_rfl, fun kind id puts => by cases kind <;> exact puts.elim, ?_⟩
    intro kind id holds
    cases kind <;> exact .inl holds

variable {commands : List SequencerCommand}

theorem applyCommands_advances (applied : sequencer.applyCommands commands = .ok after) :
    Advances sequencer after fun kind id => ∃ command ∈ commands, command.Puts kind id := by
  induction commands generalizing sequencer with
  | nil =>
    cases applied
    exact ⟨fun _ => le_rfl, by simp, fun _ _ holds => .inl holds⟩
  | cons command commands ih =>
    rw [applyCommands, foldlM_cons] at applied
    obtain ⟨middle, first, rest⟩ := bind_ok.mp applied
    have here := applyCommand_advances first
    have later := ih rest
    refine ⟨fun kind => (here.grows kind).trans (later.grows kind), ?_, ?_⟩
    · rintro kind id ⟨other, member, puts⟩
      rcases mem_cons.mp member with rfl | inside
      · exact (here.past kind id puts).mono (later.grows kind)
      · exact later.past kind id ⟨other, inside, puts⟩
    · intro kind id holds
      rcases later.held kind id holds with between | ⟨other, inside, puts⟩
      · rcases here.held kind id between with before | puts
        · exact .inl before
        · exact .inr ⟨command, mem_cons_self, puts⟩
      · exact .inr ⟨other, mem_cons_of_mem _ inside, puts⟩

theorem holds_adopt {kind : IdKind} : (sequencer.adopt candidate).Holds kind id ↔ candidate.Holds kind id := by
  cases kind <;> rfl

theorem next_adopt (kind : IdKind) : (sequencer.adopt candidate).next kind = max (sequencer.next kind) (candidate.next kind) := by
  cases kind <;> rfl

theorem adopt_advances (replayed : sequencer.replay commands = .ok candidate) :
    Advances sequencer (sequencer.adopt candidate) fun kind id => ∃ command ∈ commands, command.Puts kind id := by
  have advances := applyCommands_advances (replay_ok.mp replayed).1
  refine ⟨fun kind => ?_, fun kind id puts => ?_, fun kind id holds => ?_⟩
  · rw [next_adopt]
    exact le_max_left _ _
  · rw [next_adopt]
    exact (advances.past kind id puts).mono (le_max_right _ _)
  · rcases advances.held kind id (holds_adopt.mp holds) with before | puts
    · left
      cases kind <;> exact before
    · exact .inr puts

/-- The content and the allocators of two sequencers are the same. -/
structure Agree (sequencer other : Sequencer) : Prop where
  stored : other.store = sequencer.store
  holds : ∀ kind id, other.Holds kind id ↔ sequencer.Holds kind id
  next : ∀ kind, other.next kind = sequencer.next kind

theorem agree_of_fields {historyLimit : Nat} {undo redo : List HistoryEntry} :
    Agree sequencer { sequencer with historyLimit, undo, redo } := by
  refine ⟨?_, fun kind id => ?_, fun kind => ?_⟩
  · funext key
    cases key <;> rfl
  · cases kind <;> rfl
  · cases kind <;> rfl

theorem perform_cases (sequencer : Sequencer) (action : Action) :
    (∃ commands candidate, sequencer.replay commands = .ok candidate ∧
      Agree (sequencer.adopt candidate) (sequencer.perform action)) ∨
    (∃ kind, action = .allocate kind ∧ sequencer.perform action = (sequencer.allocate kind).2) ∨
    Agree sequencer (sequencer.perform action) := by
  cases action with
  | execute label commands =>
    change _ ∨ _ ∨ Agree sequencer (sequencer.execute label commands).2
    change (∃ _ _, _ ∧ Agree _ (sequencer.execute label commands).2) ∨ _
    unfold execute
    split
    · exact .inr (.inr agree_of_fields)
    · dsimp only
      split
      · exact .inr (.inr agree_of_fields)
      · rename_i candidate replayed
        exact .inl ⟨_, candidate, replayed, agree_of_fields⟩
  | undo =>
    change (∃ _ _, _ ∧ Agree _ sequencer.undoEntry.2) ∨ _ ∨ Agree sequencer sequencer.undoEntry.2
    unfold undoEntry
    split
    · exact .inr (.inr agree_of_fields)
    · dsimp only
      split
      · exact .inr (.inr agree_of_fields)
      · exact .inr (.inr agree_of_fields)
      · rename_i candidate replayed
        exact .inl ⟨_, candidate, replayed, agree_of_fields⟩
  | redo =>
    change (∃ _ _, _ ∧ Agree _ sequencer.redoEntry.2) ∨ _ ∨ Agree sequencer sequencer.redoEntry.2
    unfold redoEntry
    split
    · exact .inr (.inr agree_of_fields)
    · dsimp only
      split
      · exact .inr (.inr agree_of_fields)
      · exact .inr (.inr agree_of_fields)
      · rename_i candidate replayed
        exact .inl ⟨_, candidate, replayed, agree_of_fields⟩
  | setHistoryLimit limit => exact .inr (.inr agree_of_fields)
  | allocate kind => exact .inr (.inl ⟨kind, rfl, rfl⟩)

theorem next_allocate (kind other : IdKind) : (sequencer.allocate kind).2.next other =
    if kind = other then saturatingSucc (sequencer.next other) else sequencer.next other := by
  cases kind <;> cases other <;> rfl

theorem holds_allocate (kind : IdKind) {other : IdKind} :
    (sequencer.allocate kind).2.Holds other id ↔ sequencer.Holds other id := by
  cases kind <;> cases other <;> rfl

theorem store_allocate (kind : IdKind) : (sequencer.allocate kind).2.store = sequencer.store := by
  funext key
  cases kind <;> cases key <;> rfl

theorem le_saturatingSucc (count : U64) : count ≤ saturatingSucc count := by
  have := count.isLt
  rw [Fin.le_def, saturatingSucc_val]
  omega

theorem perform_grows (action : Action) (kind : IdKind) : sequencer.next kind ≤ (sequencer.perform action).next kind := by
  rcases perform_cases sequencer action with ⟨commands, candidate, replayed, agree⟩ | ⟨other, -, same⟩ | agree
  · rw [agree.next]
    exact (adopt_advances replayed).grows kind
  · rw [same, next_allocate]
    split
    · exact le_saturatingSucc _
    · exact le_rfl
  · rw [agree.next]

theorem perform_covered (covered : sequencer.Covered) (action : Action) : (sequencer.perform action).Covered := by
  rcases perform_cases sequencer action with ⟨commands, candidate, replayed, agree⟩ | ⟨other, -, same⟩ | agree
  · intro kind id holds
    rw [agree.next]
    exact (adopt_advances replayed).covered covered kind id ((agree.holds kind id).mp holds)
  · intro kind id holds
    rw [same] at holds
    exact (covered kind id ((holds_allocate other).mp holds)).mono (perform_grows action kind)
  · intro kind id holds
    rw [agree.next]
    exact covered kind id ((agree.holds kind id).mp holds)

theorem perform_valid (valid : sequencer.Valid) (action : Action) : (sequencer.perform action).Valid := by
  rcases perform_cases sequencer action with ⟨commands, candidate, replayed, agree⟩ | ⟨kind, -, same⟩ | agree
  · exact (replay_ok.mp replayed).2.of_store (agree.stored.trans store_adopt)
  · rw [same]
    exact valid.of_store (store_allocate kind)
  · exact valid.of_store agree.stored

end Covering

end Sequencer

open Sequencer

abbrev Events := List (Runs.Event Sequencer Sequencer.Action)

/-- A sequencer without history whose allocators are past what it holds, such as a new one or one that was just read. -/
structure Fresh (sequencer : Sequencer) : Prop where
  valid : sequencer.Valid
  covered : sequencer.Covered
  undo : sequencer.undo = []
  redo : sequencer.redo = []

/-- An identity that was in the content at some time, was put by an accepted transaction, or was handed out. -/
def Appeared (events : Events) (sequencer : Sequencer) (kind : IdKind) (id : U64) : Prop :=
  sequencer.Holds kind id ∨ ∃ event ∈ events, event.before.Holds kind id ∨
    (event.action = .allocate kind ∧ id = (event.before.allocate kind).1) ∨
    ∃ label commands, event.action = .execute label commands ∧ (event.before.execute label commands).1.isOk = true ∧
      ∃ command ∈ commands, command.Puts kind id

/-- The invariant of a run. -/
structure Ledger (events : Events) (sequencer : Sequencer) : Prop where
  valid : sequencer.Valid
  covered : sequencer.Covered
  past : ∀ kind id, Appeared events sequencer kind id → Past (sequencer.next kind) id

theorem allocate_fst (sequencer : Sequencer) (kind : IdKind) : (sequencer.allocate kind).1 = sequencer.next kind := by
  cases kind <;> rfl

variable {sequencer : Sequencer} {events : Events}

theorem execute_past {label : String} {commands : List SequencerCommand}
    (accepted : (sequencer.execute label commands).1.isOk = true) (member : command ∈ commands)
    (puts : command.Puts kind id) : Past ((sequencer.execute label commands).2.next kind) id := by
  cases result : sequencer.execute label commands with
  | mk outcome after =>
    rw [result] at accepted
    cases outcome with
    | error stop => cases accepted
    | ok revision =>
      obtain ⟨candidate, replayed, rfl⟩ := execute_ok (ne_nil_of_mem member) result
      have advances := (adopt_advances replayed).past kind id
        ⟨preparePatternDivergence command, mem_map_of_mem member, puts_prepared puts⟩
      cases kind <;> exact advances

theorem Ledger.step (ledger : Ledger events sequencer) (action : Action) :
    Ledger (events ++ [⟨sequencer, action⟩]) (sequencer.perform action) := by
  refine ⟨perform_valid ledger.valid action, perform_covered ledger.covered action, fun kind id appeared => ?_⟩
  have before : Appeared events sequencer kind id → Past ((sequencer.perform action).next kind) id :=
    fun earlier => (ledger.past kind id earlier).mono (perform_grows action kind)
  rcases appeared with now | ⟨event, member, shown⟩
  · exact perform_covered ledger.covered action kind id now
  · rcases mem_append.mp member with inside | last
    · exact before (.inr ⟨event, inside, shown⟩)
    · cases mem_singleton.mp last
      rcases shown with held | ⟨allocated, rfl⟩ | ⟨label, commands, executed, accepted, command, listed, puts⟩
      · exact before (.inl held)
      · have allocated : action = .allocate kind := allocated
        subst allocated
        change Past ((sequencer.allocate kind).2.next kind) (sequencer.allocate kind).1
        rw [next_allocate, if_pos rfl, allocate_fst]
        exact le_rfl
      · have executed : action = .execute label commands := executed
        subst executed
        exact execute_past accepted listed puts

theorem Ledger.start (fresh : Fresh sequencer) : Ledger [] sequencer := by
  refine ⟨fresh.valid, fresh.covered, fun kind id appeared => ?_⟩
  rcases appeared with now | ⟨event, impossible, -⟩
  · exact fresh.covered kind id now
  · cases impossible

theorem ledger_of_run (run : Run perform Fresh events sequencer) :
    Ledger events sequencer := by
  induction run with
  | start init => exact Ledger.start init
  | step run action ledger => exact ledger.step action

theorem Ledger.allocates (ledger : Ledger events sequencer) (kind : IdKind) :
    (∀ id, Appeared events sequencer kind id → id < (sequencer.allocate kind).1) ↔
      ¬ Appeared events sequencer kind 0xffffffffffffffff := by
  rw [allocate_fst]
  constructor
  · intro above last
    have below := above _ last
    have := (sequencer.next kind).isLt
    have top : (0xffffffffffffffff : U64).val = 0xffffffffffffffff := rfl
    rw [Fin.lt_def, top] at below
    omega
  · intro never id appeared
    have past := ledger.past kind id appeared
    have other : id.val ≠ 0xffffffffffffffff := by
      intro same
      have last : id = 0xffffffffffffffff := Fin.ext same
      exact never (last ▸ appeared)
    have := id.isLt
    rw [Past, Fin.le_def, saturatingSucc_val] at past
    rw [Fin.lt_def]
    omega

def Roomy (event : Runs.Event Sequencer Sequencer.Action) : Prop :=
  event.action = .redo → event.before.redo = [] ∨ event.before.undo.length < event.before.historyLimit

theorem perform_bounded (bounded : sequencer.undo.length ≤ sequencer.historyLimit) (action : Action)
    (roomy : Roomy ⟨sequencer, action⟩) : (sequencer.perform action).undo.length ≤ (sequencer.perform action).historyLimit := by
  cases action with
  | execute label commands =>
    change (sequencer.execute label commands).2.undo.length ≤ (sequencer.execute label commands).2.historyLimit
    unfold execute
    split
    · exact bounded
    · dsimp only
      split
      · exact bounded
      · change (if 0 < sequencer.historyLimit then (_ :: sequencer.undo).take sequencer.historyLimit else sequencer.undo).length ≤
          sequencer.historyLimit
        split
        · exact length_take_le _ _
        · exact bounded
  | undo =>
    change sequencer.undoEntry.2.undo.length ≤ sequencer.undoEntry.2.historyLimit
    unfold undoEntry
    split
    · exact bounded
    · rename_i entry rest stacked
      rw [stacked, length_cons] at bounded
      dsimp only
      split
      · exact bounded
      · exact Nat.le_of_succ_le bounded
      · exact Nat.le_of_succ_le bounded
  | redo =>
    change sequencer.redoEntry.2.undo.length ≤ sequencer.redoEntry.2.historyLimit
    unfold redoEntry
    split
    · exact bounded
    · rename_i entry rest stacked
      have room : sequencer.undo.length < sequencer.historyLimit := by
        rcases roomy rfl with empty | room
        · rw [stacked] at empty
          cases empty
        · exact room
      dsimp only
      split
      · exact bounded
      · exact bounded
      · exact room
  | setHistoryLimit limit => exact length_take_le _ _
  | allocate kind => cases kind <;> exact bounded

structure Faithful (events : Events) (sequencer : Sequencer) : Prop where
  /-- A call that returns an error changes nothing. -/
  atomic : ∀ event ∈ events, ∀ error, (event.before.call event.action).1 = .error (.error error) →
    event.before.perform event.action = event.before
  /-- A transaction of at least one command is undone and redone exactly while there is a history. -/
  reversible : ∀ event ∈ events, ∀ label commands revision after, event.action = .execute label commands → commands ≠ [] →
    0 < event.before.historyLimit → event.before.execute label commands = (.ok revision, after) →
      (∃ puts, putsOf (commands.map preparePatternDivergence) = some puts ∧ after.store = writes puts event.before.store) ∧
        Reversible event.before after
  /-- Identities are handed out in increasing order, above all that appeared, until there is none left. -/
  increasing : ∀ earlier event later, events = earlier ++ event :: later → ∀ kind, event.action = .allocate kind →
    ((∀ id, Appeared earlier event.before kind id → id < (event.before.allocate kind).1) ↔
      ¬ Appeared earlier event.before kind 0xffffffffffffffff)
  /-- The undo stack stays within the limit while every redo has room. -/
  bounded : (∀ event ∈ events, Roomy event) → sequencer.undo.length ≤ sequencer.historyLimit

theorem history_faithful (events : Events) (sequencer : Sequencer) (run : Run perform Fresh events sequencer) :
    Faithful events sequencer where
  atomic event _ error failed := call_atomic failed
  reversible event member label commands revision after _ present kept done := by
    obtain ⟨earlier, later, split⟩ := List.append_of_mem member
    have valid := (ledger_of_run (run.upto split)).valid
    exact ⟨execute_content present done, execute_reversible valid present kept done⟩
  increasing earlier event later split kind _ := (ledger_of_run (run.upto split)).allocates kind
  bounded roomy := by
    refine run.invariant (fun sequencer => sequencer.undo.length ≤ sequencer.historyLimit) ?_ ?_ roomy
    · intro state fresh
      rw [fresh.undo]
      exact Nat.zero_le _
    · intro state action bounded room
      exact perform_bounded bounded action room

def commonTime : TempoMap := ⟨48000, [⟨I64.zero, ⟨500000⟩⟩], [⟨I64.zero, ⟨4, 4⟩⟩]⟩

theorem fresh_new (tempoMap : TempoMap) : Fresh (.new tempoMap) where
  valid := by
    constructor
    · intro id definition held
      exact absurd held (by simp [Sequencer.new])
    · intro id clip held
      exact absurd held (by simp [Sequencer.new])
  covered := by
    intro kind id holds
    cases kind with
    | pattern =>
      obtain ⟨_, held⟩ := holds
      exact absurd held (by simp [Sequencer.new])
    | clip =>
      obtain ⟨_, held⟩ := holds
      exact absurd held (by simp [Sequencer.new])
    | note =>
      obtain ⟨_, _, held, -⟩ := holds
      exact absurd held (by simp [Sequencer.new])
    | lane =>
      obtain ⟨_, _, held, -⟩ := holds
      exact absurd held (by simp [Sequencer.new])
  undo := rfl
  redo := rfl

def silentPattern (id : PatternId) : PatternDefinition := ⟨id, "silent", 960, .notes ⟨∅⟩, .authored, 0⟩

def insertPattern (id : PatternId) : Sequencer.Action := .execute "insert" [.putPattern none (some (silentPattern id))]

theorem insert_undo_faithful :
    ∃ events sequencer, Run perform Fresh events sequencer ∧
      events.map Runs.Event.action = [.allocate .pattern, insertPattern 1, .undo, .redo, .allocate .pattern] ∧
      Faithful events sequencer := by
  obtain ⟨events, run, same⟩ := @Run.taking _ _ perform Fresh _ (fresh_new commonTime)
    [.allocate .pattern, insertPattern 1, .undo, .redo, .allocate .pattern]
  exact ⟨events, _, run, same, history_faithful events _ run⟩

def shortened : List Sequencer.Action := [insertPattern 1, insertPattern 2, .undo, .setHistoryLimit 1, .redo]

theorem redo_exceeds_limit :
    ¬ ∀ events sequencer, Run perform Fresh events sequencer → sequencer.undo.length ≤ sequencer.historyLimit := by
  intro bounded
  obtain ⟨events, run, -⟩ := @Run.taking _ _ perform Fresh _ (fresh_new commonTime) shortened
  have within := bounded events _ run
  have beyond : ¬ (shortened.foldl perform (.new commonTime)).undo.length ≤
      (shortened.foldl perform (.new commonTime)).historyLimit := by decide +kernel
  exact beyond within

end Audec.Sequencer

import Audec.Sequencer.Valid

/-! Commands as guarded puts into a keyed store, and transactions that are undone and redone exactly. -/

open Machine Checked GuardedStore FloatEquality PartialEquality Entries Option
open Std (ExtTreeMap)

namespace Audec.Sequencer

open SequencerCommand

inductive ContentKey where
  | pattern (id : PatternId)
  | clip (id : PatternClipId)
  | tempoMap
  deriving DecidableEq

abbrev Content : ContentKey → Type
  | .pattern _ => Option PatternDefinition
  | .clip _ => Option PatternClip
  | .tempoMap => TempoMap

instance contentBEq : (key : ContentKey) → BEq (Content key)
  | .pattern _ => inferInstanceAs (BEq (Option PatternDefinition))
  | .clip _ => inferInstanceAs (BEq (Option PatternClip))
  | .tempoMap => inferInstanceAs (BEq TempoMap)

instance contentPartialEquiv : (key : ContentKey) → PartialEquivBEq (Content key)
  | .pattern _ => inferInstanceAs (PartialEquivBEq (Option PatternDefinition))
  | .clip _ => inferInstanceAs (PartialEquivBEq (Option PatternClip))
  | .tempoMap => inferInstanceAs (PartialEquivBEq TempoMap)

abbrev ContentStore : Type := (key : ContentKey) → Content key

namespace Sequencer

def store (sequencer : Sequencer) : ContentStore
  | .pattern id => sequencer.patterns[id]?
  | .clip id => sequencer.clips[id]?
  | .tempoMap => sequencer.tempoMap

/-- Equal content, in the sense of the derived `PartialEq`. -/
def Same (sequencer other : Sequencer) : Prop := ∀ key, (sequencer.store key == other.store key) = true

theorem Same.symm {sequencer other : Sequencer} (same : Same sequencer other) : Same other sequencer :=
  fun key => BEq.symm (same key)

theorem Same.of_store {sequencer other third : Sequencer} (same : Same sequencer other) (stored : third.store = sequencer.store) :
    Same third other := by
  intro key
  rw [stored]
  exact same key

/-- What `validate` checks. -/
structure Valid (sequencer : Sequencer) : Prop where
  patterns : ∀ (id : PatternId) (definition : PatternDefinition), sequencer.patterns[id]? = some definition →
    id = definition.id ∧ definition.validate = .ok ()
  clips : ∀ (id : PatternClipId) (clip : PatternClip), sequencer.clips[id]? = some clip →
    id = clip.id ∧ clip.isValid = true ∧ ∃ definition, sequencer.patterns[clip.pattern]? = some definition ∧
      clip.patternOffset.val < (I64.wrap definition.length.val).val ∧
      ¬ (clip.looped = false ∧ definition.length.val < clip.patternOffset.val + clip.length.val)

variable {sequencer other candidate after : Sequencer}

theorem validatePattern_ok {id : PatternId} {definition : PatternDefinition} :
    validatePattern id definition = .ok () ↔ id = definition.id ∧ definition.validate = .ok () := by
  simp only [validatePattern, bind_unit_ok, ensure_ok]

theorem validateClip_ok {id : PatternClipId} {clip : PatternClip} : sequencer.validateClip id clip = .ok () ↔
    id = clip.id ∧ clip.isValid = true ∧ ∃ definition, sequencer.patterns[clip.pattern]? = some definition ∧
      clip.patternOffset.val < (I64.wrap definition.length.val).val ∧
      ¬ (clip.looped = false ∧ definition.length.val < clip.patternOffset.val + clip.length.val) := by
  simp only [validateClip, PatternClip.validate, bind_unit_ok, ensure_ok, lift_ok]
  cases sequencer.patterns[clip.pattern]? with
  | none => simp
  | some definition => simp only [bind_unit_ok, ensure_ok, some.injEq, exists_eq_left']

theorem validate_ok : sequencer.validate = .ok () ↔ sequencer.Valid := by
  simp only [validate, bind_unit_ok, forM_entries_ok, validatePattern_ok, validateClip_ok]
  constructor
  · rintro ⟨patterns, clips⟩
    exact ⟨patterns, clips⟩
  · rintro ⟨patterns, clips⟩
    exact ⟨patterns, clips⟩

theorem Valid.congr (valid : sequencer.Valid) (same : Same sequencer other) : other.Valid where
  patterns id definition held := by
    have equal : (sequencer.patterns[id]? == some definition) = true := held ▸ same (.pattern id)
    obtain ⟨found, there, equal⟩ := some_of_same equal
    obtain ⟨identity, checked⟩ := valid.patterns id found there
    exact ⟨identity.trans ((PatternDefinition.beq_iff _ _).mp equal).1, PatternDefinition.validate_congr equal checked⟩
  clips id clip held := by
    have equal : (sequencer.clips[id]? == some clip) = true := held ▸ same (.clip id)
    obtain ⟨found, there, equal⟩ := some_of_same equal
    obtain ⟨identity, checked, definition, present, offset, inside⟩ := valid.clips id found there
    obtain ⟨ids, patterns, -, lengths, offsets, loops, -, -, -⟩ := (PatternClip.beq_iff _ _).mp equal
    have placed : (other.patterns[clip.pattern]? == some definition) = true := by
      rw [← patterns, ← present]
      exact same.symm (.pattern found.pattern)
    obtain ⟨definition', present', equal'⟩ := some_of_same placed
    obtain ⟨-, -, length, -, -, -⟩ := (PatternDefinition.beq_iff _ _).mp equal'
    refine ⟨identity.trans ids, PatternClip.isValid_congr equal checked, definition', present', ?_, ?_⟩
    · rw [← offsets, length]
      exact offset
    · rw [← loops, ← offsets, ← lengths, length]
      exact inside

theorem Valid.refl (valid : sequencer.Valid) : Same sequencer sequencer := by
  intro key
  cases key with
  | pattern id =>
    cases held : sequencer.patterns[id]? with
    | none => simp only [store, held]; rfl
    | some definition =>
      simp only [store, held]
      exact PatternDefinition.validate_self (valid.patterns id definition held).2
  | clip id =>
    cases held : sequencer.clips[id]? with
    | none => simp only [store, held]; rfl
    | some clip =>
      simp only [store, held]
      exact PatternClip.isValid_self (valid.clips id clip held).2.1
  | tempoMap => exact beq_self_eq_true sequencer.tempoMap

theorem Valid.of_store (valid : sequencer.Valid) (stored : other.store = sequencer.store) : other.Valid :=
  valid.congr (valid.refl.of_store stored).symm

end Sequencer

open Sequencer

/-- The identity that both sides of a command agree on. -/
def agreedId (before after : Option U64) : Option U64 := (before.or after).filter fun id => decide (AgreeOn id before after)

theorem agreedId_swap (before after : Option U64) : agreedId after before = agreedId before after := by
  cases before with
  | none => cases after <;> simp [agreedId, AgreeOn]
  | some a =>
    cases after with
    | none => simp [agreedId, AgreeOn]
    | some b =>
      by_cases same : a = b
      · simp [agreedId, AgreeOn, same]
      · simp [agreedId, AgreeOn, Option.filter, same, Ne.symm same]

theorem agreedId_eq_some {before after : Option U64} {id : U64} :
    agreedId before after = some id ↔ commandId before after = .ok id ∧ AgreeOn id before after := by
  unfold agreedId commandId
  cases before.or after with
  | none => simp
  | some found =>
    simp only [filter_eq_some_iff, some.injEq, decide_eq_true_eq, Except.ok.injEq]

namespace SequencerCommand

def put : SequencerCommand → Option (Put ContentKey Content)
  | .putPattern before after => (agreedId (before.map (·.id)) (after.map (·.id))).map fun id => ⟨.pattern id, before, after⟩
  | .putClip before after => (agreedId (before.map (·.id)) (after.map (·.id))).map fun id => ⟨.clip id, before, after⟩
  | .setTempoMap before after => some ⟨.tempoMap, before, after⟩

theorem put_inverse (command : SequencerCommand) : command.inverse.put = command.put.map Put.inverse := by
  cases command with
  | setTempoMap before after => rfl
  | _ => simp only [inverse, put, map_map, agreedId_swap]; rfl

end SequencerCommand

namespace Sequencer

variable {sequencer candidate after : Sequencer}

theorem store_putPattern (before after : Option PatternDefinition) (id : PatternId) :
    (sequencer.putPattern id after).store = write ⟨.pattern id, before, after⟩ sequencer.store := by
  funext key
  cases key with
  | pattern other =>
    by_cases hit : id = other
    · subst hit
      cases after <;> simp [store, putPattern, write]
    · cases after <;> simp [store, putPattern, write, lookup_insert, lookup_erase, hit, Ne.symm hit]
  | clip other => cases after <;> simp [store, putPattern, write]
  | tempoMap => cases after <;> simp [store, putPattern, write]

theorem store_putClip (before after : Option PatternClip) (id : PatternClipId) :
    (sequencer.putClip id after).store = write ⟨.clip id, before, after⟩ sequencer.store := by
  funext key
  cases key with
  | clip other =>
    by_cases hit : id = other
    · subst hit
      cases after <;> simp [store, putClip, write]
    · cases after <;> simp [store, putClip, write, lookup_insert, lookup_erase, hit, Ne.symm hit]
  | pattern other => cases after <;> simp [store, putClip, write]
  | tempoMap => cases after <;> simp [store, putClip, write]

variable {command : SequencerCommand}

theorem applyCommand_ok (applied : sequencer.applyCommand command = .ok after) :
    ∃ put, command.put = some put ∧ Ready put sequencer.store ∧ after.store = write put sequencer.store := by
  cases command with
  | putPattern before value =>
    rw [applyCommand, bind_ok] at applied
    obtain ⟨id, named, applied⟩ := applied
    rw [bind_unit_ok, ensure_ok] at applied
    obtain ⟨⟨agree, ready⟩, applied⟩ := applied
    cases applied
    refine ⟨⟨.pattern id, before, value⟩, ?_, ready, store_putPattern before value id⟩
    rw [put, agreedId_eq_some.mpr ⟨named, agree⟩]
    rfl
  | putClip before value =>
    rw [applyCommand, bind_ok] at applied
    obtain ⟨id, named, applied⟩ := applied
    rw [bind_unit_ok, ensure_ok] at applied
    obtain ⟨⟨agree, ready⟩, applied⟩ := applied
    cases applied
    refine ⟨⟨.clip id, before, value⟩, ?_, ready, store_putClip before value id⟩
    rw [put, agreedId_eq_some.mpr ⟨named, agree⟩]
    rfl
  | setTempoMap before value =>
    simp only [applyCommand, bind_unit_ok, ensure_ok] at applied
    obtain ⟨ready, applied⟩ := applied
    cases applied
    refine ⟨⟨.tempoMap, before, value⟩, rfl, beq_iff_eq.mpr ready, ?_⟩
    funext key
    cases key <;> simp [store, write]

theorem applyCommand_ready {made : Put ContentKey Content} (puts : command.put = some made)
    (ready : Ready made sequencer.store) : ∃ after, sequencer.applyCommand command = .ok after := by
  cases command with
  | putPattern before value =>
    obtain ⟨id, named, rfl⟩ := map_eq_some_iff.mp puts
    obtain ⟨named, agree⟩ := agreedId_eq_some.mp named
    refine ⟨sequencer.putPattern id value, ?_⟩
    rw [applyCommand, bind_ok]
    refine ⟨id, named, ?_⟩
    rw [bind_unit_ok, ensure_ok]
    exact ⟨⟨agree, ready⟩, rfl⟩
  | putClip before value =>
    obtain ⟨id, named, rfl⟩ := map_eq_some_iff.mp puts
    obtain ⟨named, agree⟩ := agreedId_eq_some.mp named
    refine ⟨sequencer.putClip id value, ?_⟩
    rw [applyCommand, bind_ok]
    refine ⟨id, named, ?_⟩
    rw [bind_unit_ok, ensure_ok]
    exact ⟨⟨agree, ready⟩, rfl⟩
  | setTempoMap before value =>
    cases puts
    refine ⟨{ sequencer with tempoMap := value }, ?_⟩
    simp only [applyCommand, bind_unit_ok, ensure_ok]
    exact ⟨beq_iff_eq.mp ready, rfl⟩

end Sequencer

def putsOf (commands : List SequencerCommand) : Option (List (Put ContentKey Content)) := commands.mapM SequencerCommand.put

variable {commands : List SequencerCommand} {puts : List (Put ContentKey Content)}

theorem putsOf_cons {command : SequencerCommand} :
    putsOf (command :: commands) = some puts ↔
      ∃ put others, command.put = some put ∧ putsOf commands = some others ∧ puts = put :: others := by
  rw [putsOf, List.mapM_cons]
  constructor
  · intro made
    obtain ⟨put, first, rest⟩ := bind_eq_some_iff.mp made
    obtain ⟨others, later, same⟩ := bind_eq_some_iff.mp rest
    cases same
    exact ⟨put, others, first, later, rfl⟩
  · rintro ⟨put, others, first, later, rfl⟩
    rw [putsOf] at later
    rw [first, later]
    rfl

theorem putsOf_undo
    (made : putsOf commands = some puts) :
    putsOf (commands.reverse.map inverse) = some (GuardedStore.undo puts) := by
  induction commands generalizing puts with
  | nil =>
    cases made
    rfl
  | cons command commands ih =>
    obtain ⟨put, others, first, later, rfl⟩ := putsOf_cons.mp made
    have earlier := ih later
    rw [putsOf] at earlier ⊢
    rw [List.reverse_cons, List.map_append, List.mapM_append, earlier, List.map_singleton]
    simp [put_inverse, first, GuardedStore.undo]

namespace Sequencer

variable {sequencer candidate after : Sequencer}

theorem applyCommands_ok (applied : sequencer.applyCommands commands = .ok after) :
    ∃ puts, putsOf commands = some puts ∧ Accepts puts sequencer.store ∧ after.store = writes puts sequencer.store := by
  induction commands generalizing sequencer with
  | nil =>
    cases applied
    exact ⟨[], rfl, trivial, rfl⟩
  | cons command commands ih =>
    rw [applyCommands, List.foldlM_cons] at applied
    obtain ⟨middle, first, rest⟩ := bind_ok.mp applied
    obtain ⟨put, made, ready, stored⟩ := applyCommand_ok first
    obtain ⟨puts, others, accepts, final⟩ := ih rest
    rw [stored] at accepts final
    exact ⟨put :: puts, putsOf_cons.mpr ⟨put, puts, made, others, rfl⟩, ⟨ready, accepts⟩, final⟩

variable {later : Sequencer}

theorem applyCommands_accepts (made : putsOf commands = some puts)
    (accepts : Accepts puts sequencer.store) : ∃ after, sequencer.applyCommands commands = .ok after := by
  induction commands generalizing sequencer puts with
  | nil => exact ⟨sequencer, rfl⟩
  | cons command commands ih =>
    obtain ⟨put, others, first, later, rfl⟩ := putsOf_cons.mp made
    obtain ⟨middle, applied⟩ := applyCommand_ready first accepts.1
    obtain ⟨put', made', -, stored⟩ := applyCommand_ok applied
    rw [first] at made'
    cases made'
    have rest := accepts.2
    rw [← stored] at rest
    obtain ⟨after, finished⟩ := ih later rest
    exact ⟨after, by rw [applyCommands, List.foldlM_cons, applied]; exact finished⟩

theorem store_cloneWithoutHistory : sequencer.cloneWithoutHistory.store = sequencer.store := by
  funext key
  cases key <;> rfl

theorem replay_ok : sequencer.replay commands = .ok candidate ↔
    sequencer.cloneWithoutHistory.applyCommands commands = .ok candidate ∧ candidate.Valid := by
  rw [replay, bind_ok]
  simp only [bind_unit_ok, lift_ok, validate_ok]
  constructor
  · rintro ⟨result, applied, valid, same⟩
    cases same
    exact ⟨applied, valid⟩
  · rintro ⟨applied, valid⟩
    exact ⟨candidate, applied, valid, rfl⟩

theorem replay_puts (done : sequencer.replay commands = .ok candidate) :
    candidate.Valid ∧ ∃ puts, putsOf commands = some puts ∧ Accepts puts sequencer.store ∧
      candidate.store = writes puts sequencer.store := by
  obtain ⟨applied, valid⟩ := replay_ok.mp done
  have puts := applyCommands_ok applied
  rw [store_cloneWithoutHistory] at puts
  exact ⟨valid, puts⟩

theorem replay_accepts {target : Sequencer} (made : putsOf commands = some puts)
    (accepts : Accepts puts sequencer.store) (valid : target.Valid)
    (leads : ∀ key, (writes puts sequencer.store key == target.store key) = true) :
    ∃ candidate, sequencer.replay commands = .ok candidate ∧ Same candidate target := by
  rw [← store_cloneWithoutHistory] at accepts
  obtain ⟨candidate, applied⟩ := applyCommands_accepts made accepts
  obtain ⟨puts', made', -, stored⟩ := applyCommands_ok applied
  rw [made] at made'
  cases made'
  rw [store_cloneWithoutHistory] at stored
  have same : Same candidate target := by
    intro key
    rw [stored]
    exact leads key
  exact ⟨candidate, replay_ok.mpr ⟨applied, valid.congr same.symm⟩, same⟩

theorem replay_backward (valid : sequencer.Valid) (done : sequencer.replay commands = .ok candidate)
    (stored : later.store = candidate.store) :
    ∃ before, later.replay (commands.reverse.map inverse) = .ok before ∧ Same before sequencer := by
  obtain ⟨valid', puts, made, accepts, left⟩ := replay_puts done
  have self : ∀ key, (writes puts sequencer.store key == writes puts sequencer.store key) = true := by
    intro key
    rw [← left]
    exact valid'.refl key
  have ready : Accepts (GuardedStore.undo puts) later.store := by
    rw [stored, left]
    exact (accepts_undo_iff accepts).mpr fun key _ => self key
  refine replay_accepts (putsOf_undo made) ready valid fun key => ?_
  by_cases touched : key ∈ keys puts
  · exact writes_undo _ accepts touched
  · rw [writes_other _ _ (by rwa [mem_keys_undo]), stored, left, writes_other _ _ touched]
    exact valid.refl key

theorem replay_forward (done : sequencer.replay commands = .ok candidate) (same : Same later sequencer) :
    ∃ again, later.replay commands = .ok again ∧ Same again candidate := by
  obtain ⟨valid', puts, made, accepts, left⟩ := replay_puts done
  have self : ∀ key, (writes puts sequencer.store key == writes puts sequencer.store key) = true := by
    intro key
    rw [← left]
    exact valid'.refl key
  have ready : Accepts puts later.store := accepts.congr fun key _ => .inr (BEq.symm (same key))
  refine replay_accepts made ready valid' fun key => ?_
  rw [left]
  exact writes_alike same self key

end Sequencer

end Audec.Sequencer

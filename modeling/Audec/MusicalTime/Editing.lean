import Audec.MusicalTime.Model
import Audec.Sequencer.Edits

/-! When the aggregate accepts a new tempo map: exactly if no pattern placement moves by it. -/

open Machine Checked List
open Std (ExtTreeMap)
open Audec.Sequencer
open Audec.Arrangement (ArrangementState ClipId ClipContent)

namespace Audec.MusicalTime

open Audec.Sequencer.TempoMap

variable {Pattern Rest : Type} {checks : Checks Pattern Rest} {state other : ProjectState Pattern Rest}
  {arrangementClip : ClipId} {sequencerClip : PatternClipId} {after : TempoMap} {revision : U64}

structure SameFrames (before after : TempoMap) (clip : PatternClip) : Prop where
  start : compiled after clip.start = compiled before clip.start
  stop : compiled after clip.stop = compiled before clip.stop
  offset : compiledOffset after clip.patternOffset = compiledOffset before clip.patternOffset

def Unmoved (state : ProjectState Pattern Rest) (after : TempoMap) : Prop :=
  ∀ pair ∈ state.content.placements.toList, ∀ placed, state.content.clips[pair.2]? = some placed → SameFrames state.tempoMap after placed

structure Agrees (state : ProjectState Pattern Rest) (arrangementClip : ClipId) (sequencerClip : PatternClipId) : Prop where
  agrees : ∃ clip region placed, state.content.arrangement.clips[arrangementClip]? = some clip ∧ clip.content = .pattern region ∧
    state.content.clips[sequencerClip]? = some placed ∧ state.content.definitions[region.pattern]? = some placed.pattern ∧
    placed.looped = region.looped ∧ compiled state.tempoMap placed.start = clip.placement.start ∧
    compiled state.tempoMap placed.stop = clip.placement.stop ∧
    compiledOffset state.tempoMap placed.patternOffset = region.contentOffsetFrames.val

variable {α : Type} {schemaVersion : U32} {map : TempoMap}

theorem unless_nil {condition : Prop} [Decidable condition] {item : α} :
    (if condition then [] else [item]) = [] ↔ condition := by
  split <;> simp_all

theorem placementIssues_nil : placementIssues state arrangementClip sequencerClip = [] ↔ Agrees state arrangementClip sequencerClip := by
  constructor
  · intro clean
    unfold placementIssues at clean
    dsimp only at clean
    split at clean
    · cases clean
    · rename_i clip here
      split at clean
      · rename_i region content
        split at clean
        · cases clean
        · rename_i placed there
          simp only [append_eq_nil_iff, unless_nil] at clean
          obtain ⟨⟨pattern, start, stop⟩, offset, looped⟩ := clean
          exact ⟨clip, region, placed, here, content, there, pattern, looped, start, stop, offset⟩
      · cases clean
      · cases clean
  · rintro ⟨clip, region, placed, here, content, there, pattern, looped, start, stop, offset⟩
    unfold placementIssues
    simp [here, content, there, pattern, looped, start, stop, offset]

theorem agrees_retimed (agrees : Agrees state arrangementClip sequencerClip) :
    Agrees { state with tempoMap := after, sequencerRevision := revision } arrangementClip sequencerClip ↔
      ∀ placed, state.content.clips[sequencerClip]? = some placed → SameFrames state.tempoMap after placed := by
  obtain ⟨clip, region, placed, here, content, there, pattern, looped, start, stop, offset⟩ := agrees
  constructor
  · rintro ⟨clip', region', placed', here', content', there', -, -, start', stop', offset'⟩ found same
    obtain rfl : clip = clip' := Option.some.inj (here.symm.trans here')
    obtain rfl : region = region' := ClipContent.pattern.inj (content.symm.trans content')
    obtain rfl : placed = placed' := Option.some.inj (there.symm.trans there')
    obtain rfl : placed = found := Option.some.inj (there.symm.trans same)
    exact ⟨start'.trans start.symm, stop'.trans stop.symm, offset'.trans offset.symm⟩
  · intro same
    obtain ⟨start', stop', offset'⟩ := same placed there
    exact ⟨clip, region, placed, here, content, there, pattern, looped, start'.trans start, stop'.trans stop, offset'.trans offset⟩

theorem placementsIssues_nil {pairs : List (ClipId × PatternClipId)} {linked : List PatternClipId} :
    placementsIssues state pairs linked = [] ↔
      ((pairs.map Prod.snd).Nodup ∧ ∀ pair ∈ pairs, pair.2 ∉ linked) ∧ ∀ pair ∈ pairs, Agrees state pair.1 pair.2 := by
  induction pairs generalizing linked with
  | nil => simp [placementsIssues]
  | cons pair pairs tail =>
    have unlinked : (if pair.2 ∈ linked then [bindingIssue (placementPath pair.1) "sequencer placement is linked more than once"] else []) = [] ↔
        pair.2 ∉ linked := by
      split <;> simp_all
    simp only [placementsIssues, append_eq_nil_iff, unlinked, placementIssues_nil, tail, map_cons, nodup_cons,
      forall_mem_cons, mem_map, not_exists, not_and]
    constructor
    · rintro ⟨⟨fresh, agrees⟩, ⟨once, apart⟩, rest⟩
      refine ⟨⟨⟨fun later member same => ?_, once⟩, fresh, fun later member linked => ?_⟩, agrees, rest⟩
      · exact apart later member (same ▸ mem_cons_self)
      · exact apart later member (mem_cons_of_mem _ linked)
    · rintro ⟨⟨⟨distinct, once⟩, fresh, apart⟩, agrees, rest⟩
      refine ⟨⟨fresh, agrees⟩, ⟨once, fun later member linked => ?_⟩, rest⟩
      rcases mem_cons.mp linked with same | linked
      · exact distinct later member same
      · exact apart later member linked

theorem validate_nil : validateProjectState checks schemaVersion state = [] ↔
    (schemaIssues schemaVersion = [] ∧ checks.arrangement state.content.arrangement = [] ∧ sequencerIssues checks state.content = [] ∧
      checks.domains state.content = [] ∧ checks.media state.content = [] ∧ definitionIssues state.content = [] ∧
      unboundIssues state.content = [] ∧ checks.routing state.content = []) ∧
    sampleRateIssues state = [] ∧ placementsIssues state state.content.placements.toList [] = [] := by
  simp only [validateProjectState, validatePatternBindings, append_eq_nil_iff]
  tauto

theorem validate_retimed (valid : validateProjectState checks schemaVersion state = [])
    (rate : after.sampleRate = state.tempoMap.sampleRate) :
    validateProjectState checks schemaVersion { state with tempoMap := after, sequencerRevision := revision } = [] ↔ Unmoved state after := by
  rw [validate_nil] at valid ⊢
  obtain ⟨others, sampleRate, placements⟩ := valid
  obtain ⟨unlinked, agrees⟩ := placementsIssues_nil.mp placements
  have rated : sampleRateIssues { state with tempoMap := after, sequencerRevision := revision } = sampleRateIssues state := by
    unfold sampleRateIssues
    dsimp only
    rw [rate]
  rw [rated, and_iff_right others, and_iff_right sampleRate, placementsIssues_nil, and_iff_right unlinked]
  exact forall₂_congr fun pair member => agrees_retimed (agrees pair member)

theorem edited_sampleRate {action : TempoMapEdit} (accepted : map.edited action = .ok after) :
    after.sampleRate = map.sampleRate := by
  cases action with
  | setTempo at' tempo =>
    simp only [edited, setTempo, bind_unit_ok, ensure_ok] at accepted
    obtain ⟨-, -, accepted⟩ := accepted
    split at accepted <;> cases accepted <;> rfl
  | removeTempo at' =>
    obtain ⟨⟨changed, removed⟩, done, rfl⟩ := map_ok.mp accepted
    obtain ⟨-, index, -, rfl⟩ := removeTempo_ok done
    rfl
  | setMeter at' signature =>
    obtain ⟨-, -, -, rfl⟩ := setMeter_ok.mp accepted
    rfl
  | removeMeter at' =>
    obtain ⟨⟨changed, removed⟩, done, rfl⟩ := map_ok.mp accepted
    obtain ⟨index, -, -, rfl⟩ := removeMeter_ok done
    rfl

theorem erased_changes {values : List α} {at' : BeatTime} {key : α → BeatTime} {index : Nat}
    (search : SortedSlice.binarySearchByKey values at' key = .ok index) : values ≠ values.eraseIdx index := by
  obtain ⟨below, value, above, same, length, -⟩ := SortedSlice.found search
  intro unchanged
  have shorter := congrArg List.length unchanged
  rw [same, ← length, eraseIdx_append_of_length_le le_rfl, Nat.sub_self, eraseIdx_cons_zero] at shorter
  simp at shorter

theorem removal_changes {intent : MusicalIntent} (removal : intent.sets = false)
    (accepted : map.edited intent.edit = .ok after) : map ≠ after := by
  intro same
  cases intent with
  | adoptTempo tempo rank => cases removal
  | tempoPoint at' tempo => cases removal
  | removeTempoPoint at' =>
    obtain ⟨⟨changed, removed⟩, done, rfl⟩ := map_ok.mp accepted
    obtain ⟨-, index, search, changes⟩ := removeTempo_ok done
    exact erased_changes search (congrArg tempos (same.trans changes.symm))
  | meterPoint at' signature => cases removal
  | removeMeterPoint at' =>
    obtain ⟨⟨changed, removed⟩, done, rfl⟩ := map_ok.mp accepted
    obtain ⟨index, search, -, changes⟩ := removeMeter_ok done
    exact erased_changes search (congrArg meters (same.trans changes.symm))

end Audec.MusicalTime

/-! When a planned edit of the musical time is carried out, and what it leaves as it was. -/

namespace Audec.MusicalTime

variable {Pattern Rest : Type} {checks : Checks Pattern Rest} {controller changed : ProjectController Pattern Rest}
  {before after : TempoMap} {bpmText : Tempo → String} {intent : MusicalIntent}

variable {label : String} {state : ProjectState Pattern Rest} {applied : AppliedEnvelope} {value sequence : U64}
  {revisions : ProjectRevisions}

theorem isBlank_iff : isBlank label = true ↔ ∀ c ∈ label.toList, Arrangement.Marker.isWhitespace c = true := by
  unfold isBlank Arrangement.Marker.trim
  rw [List.isEmpty_iff, reverse_eq_nil_iff, ← dropWhile_eq_nil_iff]
  cases rest : label.toList.dropWhile Arrangement.Marker.isWhitespace with
  | nil => exact iff_of_true rfl rfl
  | cons first others =>
    have stopped := head?_dropWhile_not Arrangement.Marker.isWhitespace label.toList
    rw [rest] at stopped
    refine iff_of_false (fun blank => ?_) (cons_ne_nil _ _)
    have space := dropWhile_eq_nil_iff.mp blank first (mem_reverse.mpr mem_cons_self)
    simp [space] at stopped

theorem not_blank_append {word : String} (rest : String) (letters : isBlank word = false) : isBlank (word ++ rest) = false := by
  rw [← Bool.not_eq_true, isBlank_iff] at *
  intro blank
  exact letters fun c member => blank c (by rw [String.toList_append]; exact mem_append_left _ member)

theorem label_not_blank (bpmText : Tempo → String) (map : TempoMap) (intent : MusicalIntent) : isBlank (intent.label bpmText map) = false := by
  cases intent with
  | adoptTempo tempo rank =>
    cases rank with
    | none => exact not_blank_append _ (not_blank_append _ (by decide))
    | some rank => exact not_blank_append _ (not_blank_append _ (not_blank_append _ (by decide)))
  | tempoPoint at' tempo => exact not_blank_append _ (not_blank_append _ (not_blank_append _ (by decide)))
  | removeTempoPoint at' => exact not_blank_append _ (by decide)
  | meterPoint at' signature =>
    exact not_blank_append _ (not_blank_append _ (not_blank_append _ (not_blank_append _ (not_blank_append _ (by decide)))))
  | removeMeterPoint at' => exact not_blank_append _ (by decide)

def ProjectState.retimed (state : ProjectState Pattern Rest) (map : TempoMap) : ProjectState Pattern Rest :=
  { state with tempoMap := map, sequencerRevision := Fin.ofNat _ (min (state.sequencerRevision.val + 1) 0xffffffffffffffff) }

theorem applyDomainCommands_tempo (here : state.tempoMap = before) (differs : before ≠ after)
    (checked : checks.sequencer state.content.patterns state.content.clips = none) :
    applyDomainCommands checks state [⟨before, after⟩] = .ok (state.retimed after) := by
  unfold applyDomainCommands
  have effective : [(⟨before, after⟩ : SetTempoMap)].filter (fun command => !command.isNoop) = [⟨before, after⟩] := by
    simp [SetTempoMap.isNoop, differs]
  simp only [effective, applyCommands, here, checked]
  rfl

theorem apply_tempo {project committed : DawProject Pattern Rest}
    (here : project.state.tempoMap = before) (differs : before ≠ after) (letters : isBlank label = false)
    (checked : checks.sequencer project.state.content.patterns project.state.content.clips = none) :
    CommandEnvelope.apply checks ⟨label, project.revisions.aggregate, [⟨before, after⟩]⟩ project = .ok (applied, committed) ↔
      validateProjectState checks project.schemaVersion (project.state.retimed after) = [] ∧
      ∃ revisions, project.revisions.advance = .ok revisions ∧
        (⟨⟨label, project.revisions.aggregate, [⟨before, after⟩]⟩, ⟨"Undo " ++ label, revisions.aggregate, [⟨after, before⟩]⟩⟩ : AppliedEnvelope) =
          applied ∧ { project with state := project.state.retimed after, revisions } = committed := by
  have changes : sequencerChanged project.state (project.state.retimed after) = true := by
    simp [sequencerChanged, ProjectState.retimed, here, differs]
  unfold CommandEnvelope.apply DawProject.prepareTransaction DawProject.commitPrepared
  simp [bind_ok, applyDomainCommands_tempo here differs checked, letters, SetTempoMap.isNoop, differs, Except.mapError, changes,
    SetTempoMap.inverse, Unique.exists_iff, PUnit.default_eq_unit]

theorem checkedRevision_ok {next : U64} : checkedRevision value = .ok next ↔ checkedSucc value = some next := by
  unfold checkedRevision
  split <;> simp_all

theorem advance_ok {advanced : ProjectRevisions} : revisions.advance = .ok advanced ↔
    checkedSucc revisions.aggregate = some advanced.aggregate ∧ checkedSucc revisions.sequencer = some advanced.sequencer := by
  unfold ProjectRevisions.advance
  simp only [bind_ok, checkedRevision_ok]
  constructor
  · rintro ⟨aggregate, first, sequencer, second, same⟩
    cases same
    exact ⟨first, second⟩
  · rintro ⟨first, second⟩
    exact ⟨_, first, _, second, rfl⟩

theorem checkRecord_ok {baseRevision resultingRevision : U64} {batch : CommandBatch} :
    ProjectController.checkRecord sequence baseRevision resultingRevision batch = .ok () ↔
      sequence.val ≠ 0 ∧ isBlank batch.label = false ∧ batch.commands ≠ [] ∧ checkedSucc baseRevision = some resultingRevision := by
  unfold ProjectController.checkRecord
  simp only [bind_unit_ok, ensure_ok, Bool.not_eq_true]

/-- The controller after one command that was applied. -/
def ProjectController.recorded (controller : ProjectController Pattern Rest) (map : TempoMap) (revisions : ProjectRevisions) (sequence : U64) :
    ProjectController Pattern Rest :=
  { controller with
    project := { controller.project with state := controller.project.state.retimed map, revisions }
    nextJournalSequence := sequence }

section

variable (here : controller.project.state.tempoMap = before) (differs : before ≠ after) (letters : isBlank label = false)
  (checked : checks.sequencer controller.project.state.content.patterns controller.project.state.content.clips = none)
include here differs letters checked

theorem applyAndRecord_tempo :
    controller.applyAndRecord checks ⟨label, controller.project.revisions.aggregate, [⟨before, after⟩]⟩ = .ok (applied, changed) ↔
      validateProjectState checks controller.project.schemaVersion (controller.project.state.retimed after) = [] ∧
      controller.nextJournalSequence.val ≠ 0 ∧
      ∃ sequence revisions, checkedSucc controller.nextJournalSequence = some sequence ∧ controller.project.revisions.advance = .ok revisions ∧
        (⟨⟨label, controller.project.revisions.aggregate, [⟨before, after⟩]⟩, ⟨"Undo " ++ label, revisions.aggregate, [⟨after, before⟩]⟩⟩ :
          AppliedEnvelope) = applied ∧ controller.recorded after revisions sequence = changed := by
  unfold ProjectController.applyAndRecord
  cases next : checkedSucc controller.nextJournalSequence with
  | none => simp [bind, Except.bind]
  | some sequence =>
    cases room : checkedSucc controller.project.revisions.aggregate with
    | none =>
      simp [bind, Except.bind, advance_ok, room]
    | some resulting =>
      have record : ProjectController.checkRecord controller.nextJournalSequence controller.project.revisions.aggregate resulting
          ⟨label, [⟨before, after⟩]⟩ = .ok () ↔ controller.nextJournalSequence.val ≠ 0 := by
        simp [checkRecord_ok, letters, room]
      simp only [bind_ok, Except.ok.injEq, exists_eq_left', CommandEnvelope.asBatch, Unique.exists_iff, PUnit.default_eq_unit, record,
        Prod.exists, Prod.mk.injEq, apply_tempo here differs letters checked, Option.some.injEq]
      constructor
      · rintro ⟨positive, _, _, ⟨valid, revisions, advanced, rfl, rfl⟩, rfl, rfl⟩
        exact ⟨valid, positive, sequence, revisions, rfl, advanced, rfl, rfl⟩
      · rintro ⟨valid, positive, _, revisions, rfl, advanced, rfl, rfl⟩
        exact ⟨positive, _, _, ⟨valid, revisions, advanced, rfl, rfl⟩, rfl, rfl⟩

def historyOf (label : String) (before after : TempoMap) : HistoryEntry :=
  ⟨⟨label, [⟨before, after⟩]⟩, ⟨"Undo " ++ label, [⟨after, before⟩]⟩⟩

theorem execute_tempo :
    controller.execute checks ⟨label, controller.project.revisions.aggregate, [⟨before, after⟩]⟩ = .ok changed ↔
      validateProjectState checks controller.project.schemaVersion (controller.project.state.retimed after) = [] ∧
      controller.nextJournalSequence.val ≠ 0 ∧
      ∃ sequence revisions, checkedSucc controller.nextJournalSequence = some sequence ∧ controller.project.revisions.advance = .ok revisions ∧
        { controller.recorded after revisions sequence with
          undoStack := (historyOf label before after :: controller.undoStack).take controller.historyLimit, redoStack := [] } = changed := by
  unfold ProjectController.execute
  simp only [bind_ok, Prod.exists, applyAndRecord_tempo here differs letters checked, Except.ok.injEq]
  constructor
  · rintro ⟨_, _, ⟨valid, positive, sequence, revisions, next, advanced, rfl, rfl⟩, rfl⟩
    exact ⟨valid, positive, sequence, revisions, next, advanced, rfl⟩
  · rintro ⟨valid, positive, sequence, revisions, next, advanced, rfl⟩
    exact ⟨_, _, ⟨valid, positive, sequence, revisions, next, advanced, rfl, rfl⟩, rfl⟩

end

theorem undo_tempo {older : List HistoryEntry} (here : controller.project.state.tempoMap = after) (differs : before ≠ after)
    (checked : checks.sequencer controller.project.state.content.patterns controller.project.state.content.clips = none)
    (latest : controller.undoStack = historyOf label before after :: older) :
    (∃ undone, controller.undo checks = .ok (some undone) ∧ undone.project.state.content = controller.project.state.content ∧
        undone.project.state.tempoMap = before) ↔
      validateProjectState checks controller.project.schemaVersion (controller.project.state.retimed before) = [] ∧
      controller.nextJournalSequence.val ≠ 0 ∧
      ∃ sequence revisions, checkedSucc controller.nextJournalSequence = some sequence ∧ controller.project.revisions.advance = .ok revisions := by
  have undone : isBlank ("Undo " ++ label) = false := not_blank_append _ (by decide)
  unfold ProjectController.undo
  rw [latest]
  simp only [bind_ok, Prod.exists, Except.ok.injEq, Option.some.injEq, CommandEnvelope.fromBatch, historyOf,
    applyAndRecord_tempo here differs.symm undone checked]
  constructor
  · rintro ⟨_, ⟨_, _, ⟨valid, positive, sequence, revisions, next, advanced, rfl, rfl⟩, rfl⟩, -⟩
    exact ⟨valid, positive, sequence, revisions, next, advanced⟩
  · rintro ⟨valid, positive, sequence, revisions, next, advanced⟩
    exact ⟨_, ⟨_, _, ⟨valid, positive, sequence, revisions, next, advanced, rfl, rfl⟩, rfl⟩, rfl, rfl⟩

structure Sound (checks : Checks Pattern Rest) (controller : ProjectController Pattern Rest) : Prop where
  valid : validateProjectState checks controller.project.schemaVersion controller.project.state = []
  journal : controller.nextJournalSequence.val ≠ 0
  history : 0 < controller.historyLimit

/-- No counter runs out within the next two commands. -/
structure Room (controller : ProjectController Pattern Rest) : Prop where
  aggregate : controller.project.revisions.aggregate.val + 2 < 0x10000000000000000
  sequencer : controller.project.revisions.sequencer.val + 2 < 0x10000000000000000
  journal : controller.nextJournalSequence.val + 2 < 0x10000000000000000

/-- What an edit has to leave behind: a valid project under the new map, with the same content, whose
    pattern placements are the frames that their clips compile to; and one undo brings the old map back. -/
structure CarriedOut (checks : Checks Pattern Rest) (controller : ProjectController Pattern Rest) (envelope : CommandEnvelope) (after : TempoMap) :
    Prop where
  executed : ∃ changed, controller.execute checks envelope = .ok changed ∧
    validateProjectState checks changed.project.schemaVersion changed.project.state = [] ∧
    changed.project.state.content = controller.project.state.content ∧ changed.project.state.tempoMap = after ∧
    (∀ pair ∈ changed.project.state.content.placements.toList, Agrees changed.project.state pair.1 pair.2) ∧
    ∃ undone, changed.undo checks = .ok (some undone) ∧ undone.project.state.content = controller.project.state.content ∧
      undone.project.state.tempoMap = controller.project.state.tempoMap

def Editable (checks : Checks Pattern Rest) (bpmText : Tempo → String) (controller : ProjectController Pattern Rest) (intent : MusicalIntent)
    (after : TempoMap) : Prop :=
  controller.plan bpmText controller.project.revisions.aggregate intent = .ok none ∨
    ∃ envelope, controller.plan bpmText controller.project.revisions.aggregate intent = .ok (some envelope) ∧
      CarriedOut checks controller envelope after

theorem plan_ok (accepted : controller.project.state.tempoMap.edited intent.edit = .ok after) :
    controller.plan bpmText controller.project.revisions.aggregate intent =
      if intent.sets ∧ controller.project.state.tempoMap = after then .ok none
      else .ok (some ⟨intent.label bpmText controller.project.state.tempoMap, controller.project.revisions.aggregate,
        [⟨controller.project.state.tempoMap, after⟩]⟩) := by
  unfold ProjectController.plan
  simp [accepted, ensure, bind, Except.bind, Except.mapError]

theorem sequencer_checked {schemaVersion : U32}
    (valid : validateProjectState checks schemaVersion state = []) : checks.sequencer state.content.patterns state.content.clips = none := by
  have silent := (validate_nil.mp valid).1.2.2.1
  unfold sequencerIssues at silent
  split at silent
  · assumption
  · cases silent

theorem unmoved_self (state : ProjectState Pattern Rest) : Unmoved state state.tempoMap :=
  fun _ _ _ _ => ⟨rfl, rfl, rfl⟩

theorem succ_exists : (∃ next, checkedSucc value = some next) ↔ value.val + 1 < 0x10000000000000000 := by
  unfold checkedSucc
  split <;> simp_all

section

variable (sound : Sound checks controller) (differs : controller.project.state.tempoMap ≠ after)
include sound differs

theorem undo_after
    (executed : { controller.recorded after revisions sequence with
      undoStack := (historyOf label controller.project.state.tempoMap after :: controller.undoStack).take controller.historyLimit
      redoStack := [] } = changed) :
    (∃ undone, changed.undo checks = .ok (some undone) ∧ undone.project.state.content = controller.project.state.content ∧
        undone.project.state.tempoMap = controller.project.state.tempoMap) ↔
      sequence.val ≠ 0 ∧ ∃ sequence' revisions', checkedSucc sequence = some sequence' ∧ revisions.advance = .ok revisions' := by
  have latest : changed.undoStack = historyOf label controller.project.state.tempoMap after ::
      controller.undoStack.take (controller.historyLimit - 1) := by
    rw [← executed, ← Nat.succ_pred_eq_of_pos sound.history]
    rfl
  have here : changed.project.state.tempoMap = after := by rw [← executed]; rfl
  have content : changed.project.state.content = controller.project.state.content := by rw [← executed]; rfl
  have checked : checks.sequencer changed.project.state.content.patterns changed.project.state.content.clips = none := by
    rw [content]
    exact sequencer_checked sound.valid
  have back : validateProjectState checks changed.project.schemaVersion (changed.project.state.retimed controller.project.state.tempoMap) = [] := by
    rw [← executed]
    exact (validate_retimed sound.valid rfl).mpr (unmoved_self _)
  have counters : changed.nextJournalSequence = sequence ∧ changed.project.revisions = revisions := by rw [← executed]; exact ⟨rfl, rfl⟩
  have undone := undo_tempo here differs checked latest
  rw [content, counters.1, counters.2, and_iff_right back] at undone
  exact undone

theorem carriedOut_iff
    (rate : after.sampleRate = controller.project.state.tempoMap.sampleRate) (letters : isBlank label = false) :
    CarriedOut checks controller ⟨label, controller.project.revisions.aggregate, [⟨controller.project.state.tempoMap, after⟩]⟩ after ↔
      Room controller ∧ Unmoved controller.project.state after := by
  have checked := sequencer_checked sound.valid
  constructor
  · rintro ⟨changed, executed, -, -, -, -, undone⟩
    obtain ⟨valid, -, sequence, revisions, next, advanced, same⟩ := (execute_tempo rfl differs letters checked).mp executed
    obtain ⟨-, sequence', revisions', next', advanced'⟩ := (undo_after sound differs same).mp undone
    obtain ⟨aggregate, sequencer⟩ := advance_ok.mp advanced
    obtain ⟨aggregate', sequencer'⟩ := advance_ok.mp advanced'
    rw [checkedSucc_eq_some] at next next' aggregate aggregate' sequencer sequencer'
    have := revisions'.aggregate.isLt
    have := revisions'.sequencer.isLt
    have := sequence'.isLt
    exact ⟨⟨by omega, by omega, by omega⟩, (validate_retimed sound.valid rate).mp valid⟩
  · rintro ⟨room, unmoved⟩
    have := room.journal
    have := room.aggregate
    have := room.sequencer
    have valid := (@validate_retimed _ _ checks _ after (controller.project.state.retimed after).sequencerRevision _ sound.valid rate).mpr unmoved
    obtain ⟨sequence, next⟩ := succ_exists.mpr (show controller.nextJournalSequence.val + 1 < 0x10000000000000000 by omega)
    obtain ⟨aggregate, first⟩ := succ_exists.mpr (show controller.project.revisions.aggregate.val + 1 < 0x10000000000000000 by omega)
    obtain ⟨sequencer, second⟩ := succ_exists.mpr (show controller.project.revisions.sequencer.val + 1 < 0x10000000000000000 by omega)
    have executed := (execute_tempo rfl differs letters checked).mpr
      ⟨valid, sound.journal, sequence, ⟨aggregate, sequencer⟩, next, advance_ok.mpr ⟨first, second⟩, rfl⟩
    refine ⟨_, executed, valid, rfl, rfl, (placementsIssues_nil.mp (validate_nil.mp valid).2.2).2, ?_⟩
    rw [checkedSucc_eq_some] at next first second
    obtain ⟨sequence', next'⟩ := succ_exists.mpr (show sequence.val + 1 < 0x10000000000000000 by omega)
    obtain ⟨aggregate', first'⟩ := succ_exists.mpr (show aggregate.val + 1 < 0x10000000000000000 by omega)
    obtain ⟨sequencer', second'⟩ := succ_exists.mpr (show sequencer.val + 1 < 0x10000000000000000 by omega)
    exact (undo_after sound differs rfl).mpr ⟨by omega, sequence', ⟨aggregate', sequencer'⟩, next', advance_ok.mpr ⟨first', second'⟩⟩

end

theorem editable_change (sound : Sound checks controller) (accepted : controller.project.state.tempoMap.edited intent.edit = .ok after)
    (differs : controller.project.state.tempoMap ≠ after) :
    Editable checks bpmText controller intent after ↔ Room controller ∧ Unmoved controller.project.state after := by
  unfold Editable
  rw [plan_ok accepted, if_neg fun same => differs same.2, or_iff_right (by simp),
    ← carriedOut_iff sound differs (edited_sampleRate accepted) (label_not_blank bpmText controller.project.state.tempoMap intent)]
  simp

/-- Whatever edit the map accepts, it can be made in the project exactly if it leaves the map as it is, or moves no placement. -/
theorem editable_iff (sound : Sound checks controller) (accepted : controller.project.state.tempoMap.edited intent.edit = .ok after) :
    Editable checks bpmText controller intent after ↔
      intent.sets = true ∧ controller.project.state.tempoMap = after ∨ Room controller ∧ Unmoved controller.project.state after := by
  by_cases unchanged : intent.sets = true ∧ controller.project.state.tempoMap = after
  · unfold Editable
    rw [plan_ok accepted, if_pos unchanged]
    exact iff_of_true (.inl rfl) (.inl unchanged)
  · have differs : controller.project.state.tempoMap ≠ after := by
      cases sets : intent.sets with
      | true => exact fun same => unchanged ⟨sets, same⟩
      | false => exact removal_changes sets accepted
    rw [editable_change sound accepted differs, or_iff_right unchanged]

section Placed

def placedTrack : Arrangement.Track where
  id := ⟨1⟩
  name := "Bass"
  kind := .pattern
  overlap := .mix
  clipIds := [⟨1⟩]
  muted := false
  solo := false
  locked := false
  gainDb := 0
  pan := 0
  color := none

def placedClip : Arrangement.Clip where
  id := ⟨1⟩
  trackId := ⟨1⟩
  name := "Bass"
  placement := ⟨I64.wrap 24000, I64.wrap 48000⟩
  content := .pattern ⟨⟨1⟩, 0, false⟩
  fades := ⟨none, none⟩
  gainDb := 0
  muted := false
  locked := false

def placedState : ProjectState Unit Unit where
  content :=
    { arrangement :=
        { schemaVersion := 1
          sampleRate := 48000
          tracks := (∅ : ExtTreeMap Arrangement.TrackId Arrangement.Track).insert ⟨1⟩ placedTrack
          clips := (∅ : ExtTreeMap ClipId Arrangement.Clip).insert ⟨1⟩ placedClip
          trackOrder := [⟨1⟩]
          nextTrackId := 2
          nextClipId := 2
          markers := ∅ }
      patterns := (∅ : ExtTreeMap SequencerPatternId Unit).insert 1 ()
      clips := (∅ : ExtTreeMap PatternClipId PatternClip).insert 1 ⟨1, 1, I64.wrap 960, 960, I64.zero, false⟩
      definitions := (∅ : ExtTreeMap Arrangement.PatternId SequencerPatternId).insert ⟨1⟩ 1
      placements := (∅ : ExtTreeMap ClipId PatternClipId).insert ⟨1⟩ 1
      rest := () }
  tempoMap := TempoMap.straight
  sequencerRevision := 0

def noIssues : Checks Unit Unit := ⟨fun _ => [], fun _ _ => none, fun _ => [], fun _ => [], fun _ => []⟩

def placedController : ProjectController Unit Unit := ⟨⟨1, placedState, ⟨0, 0⟩⟩, [], [], 1, 256⟩

theorem placedController_sound : Sound noIssues placedController := ⟨by decide, by decide, by decide⟩

def fasterMap : TempoMap := ⟨48000, [⟨I64.zero, ⟨250000⟩⟩], [⟨I64.zero, ⟨4, 4⟩⟩]⟩

theorem faster_accepted : placedController.project.state.tempoMap.edited (MusicalIntent.adoptTempo ⟨250000⟩ none).edit = .ok fasterMap := by
  decide

/-- The map accepts the tempo, and the project does not. -/
theorem faster_refused : Sound noIssues placedController ∧
    placedController.project.state.tempoMap.edited (MusicalIntent.adoptTempo ⟨250000⟩ none).edit = .ok fasterMap ∧
    ¬ Editable noIssues (fun _ => "240.000") placedController (.adoptTempo ⟨250000⟩ none) fasterMap := by
  refine ⟨placedController_sound, faster_accepted, fun editable => ?_⟩
  obtain ⟨-, unmoved⟩ := (editable_change placedController_sound faster_accepted (by decide)).mp editable
  have same := unmoved (⟨1⟩, 1) (by decide) ⟨1, 1, I64.wrap 960, 960, I64.zero, false⟩ (by decide)
  exact absurd same.start (by decide)

theorem faster_editable : Editable noIssues (fun _ => "240.000") placedController (.adoptTempo ⟨250000⟩ none) fasterMap ↔
    (MusicalIntent.adoptTempo ⟨250000⟩ none).sets = true ∧ placedController.project.state.tempoMap = fasterMap ∨
      Room placedController ∧ Unmoved placedController.project.state fasterMap :=
  editable_iff placedController_sound faster_accepted

end Placed

end Audec.MusicalTime

import Audec.Sequencer.Pattern

/-! The sequencer: guarded commands, its history of transactions, and the identities it hands out. -/

namespace Audec.Sequencer

open Machine Checked PatternLang
open Std (ExtTreeMap)

inductive SequencerCommand where
  | putPattern (before after : Option PatternDefinition)
  | putClip (before after : Option PatternClip)
  | setTempoMap (before after : TempoMap)

def SequencerCommand.inverse : SequencerCommand → SequencerCommand
  | .putPattern before after => .putPattern after before
  | .putClip before after => .putClip after before
  | .setTempoMap before after => .setTempoMap after before

structure HistoryEntry where
  label : String
  forward : List SequencerCommand
  backward : List SequencerCommand

structure Sequencer where
  tempoMap : TempoMap
  patterns : ExtTreeMap PatternId PatternDefinition
  clips : ExtTreeMap PatternClipId PatternClip
  nextPatternId : U64
  nextClipId : U64
  nextNoteId : U64
  nextLaneId : U64
  revision : U64
  historyLimit : Nat
  undo : List HistoryEntry
  redo : List HistoryEntry

def saturatingSucc (count : U64) : U64 := (checkedSucc count).getD count

/-- An allocator moved past the greatest of some identities. -/
def raise (next : U64) (ids : List U64) : U64 :=
  match ids.max? with
  | some maximum => max next (saturatingSucc maximum)
  | none => next

namespace PatternContent

def noteIds : PatternContent → List NoteId
  | .notes pattern => pattern.notes.keys
  | .steps _ => []

def laneIds : PatternContent → List StepLaneId
  | .notes _ => []
  | .steps pattern => pattern.lanes.keys

end PatternContent

/-- The identity a command is about: of what it replaces, or else of what it puts. -/
def commandId (before after : Option U64) : Except SequencerError U64 :=
  match before.or after with
  | some id => .ok id
  | none => .error .emptyCommand

/-- Both sides of a command, where there are, have its identity. -/
def AgreeOn (id : U64) (before after : Option U64) : Prop :=
  before.all (fun other => other = id) = true ∧ after.all (fun other => other = id) = true

instance (id : U64) (before after : Option U64) : Decidable (AgreeOn id before after) := inferInstanceAs (Decidable (_ ∧ _))

namespace Sequencer

def new (tempoMap : TempoMap) : Sequencer := ⟨tempoMap, ∅, ∅, 1, 1, 1, 1, 0, 256, [], []⟩

variable (sequencer : Sequencer)

def putPattern (sequencer : Sequencer) (id : PatternId) : Option PatternDefinition → Sequencer
  | some value =>
    { sequencer with
      patterns := sequencer.patterns.insert id value
      nextPatternId := max sequencer.nextPatternId (saturatingSucc id)
      nextNoteId := raise sequencer.nextNoteId value.content.noteIds
      nextLaneId := raise sequencer.nextLaneId value.content.laneIds }
  | none => { sequencer with patterns := sequencer.patterns.erase id }

def putClip (sequencer : Sequencer) (id : PatternClipId) : Option PatternClip → Sequencer
  | some value =>
    { sequencer with
      clips := sequencer.clips.insert id value
      nextClipId := max sequencer.nextClipId (saturatingSucc id) }
  | none => { sequencer with clips := sequencer.clips.erase id }

def applyCommand (sequencer : Sequencer) : SequencerCommand → Except SequencerError Sequencer
  | .putPattern before after => do
    let id ← commandId (before.map (·.id)) (after.map (·.id))
    ensure (AgreeOn id (before.map (·.id)) (after.map (·.id)) ∧ (sequencer.patterns[id]? == before) = true) .staleCommand
    return sequencer.putPattern id after
  | .putClip before after => do
    let id ← commandId (before.map (·.id)) (after.map (·.id))
    ensure (AgreeOn id (before.map (·.id)) (after.map (·.id)) ∧ (sequencer.clips[id]? == before) = true) .staleCommand
    return sequencer.putClip id after
  | .setTempoMap before after => do
    ensure (sequencer.tempoMap = before) .staleCommand
    return { sequencer with tempoMap := after }

def applyCommands (sequencer : Sequencer) (commands : List SequencerCommand) : Except SequencerError Sequencer :=
  commands.foldlM applyCommand sequencer

def validatePattern (id : PatternId) (definition : PatternDefinition) : Except (Stop SequencerError) Unit := do
  ensure (id = definition.id) (.error (.invalidPattern id))
  definition.validate

/-- The checks before have made both lengths fit a signed integer and the offset no less than zero. -/
def validateClip (sequencer : Sequencer) (id : PatternClipId) (clip : PatternClip) : Except (Stop SequencerError) Unit := do
  ensure (id = clip.id) (.error (.invalidClip id))
  lift clip.validate
  match sequencer.patterns[clip.pattern]? with
  | none => .error (.error (.missingPattern clip.pattern))
  | some definition => do
    ensure (clip.patternOffset.val < (I64.wrap definition.length.val).val) (.error (.invalidClip id))
    ensure (¬ (clip.looped = false ∧ definition.length.val < clip.patternOffset.val + clip.length.val))
      (.error (.invalidClip id))

def validate (sequencer : Sequencer) : Except (Stop SequencerError) Unit := do
  sequencer.patterns.toList.forM fun entry => validatePattern entry.1 entry.2
  sequencer.clips.toList.forM fun entry => sequencer.validateClip entry.1 entry.2

def cloneWithoutHistory (sequencer : Sequencer) : Sequencer := { sequencer with undo := [], redo := [] }

def replay (sequencer : Sequencer) (commands : List SequencerCommand) : Except (Stop SequencerError) Sequencer := do
  let candidate ← lift (sequencer.cloneWithoutHistory.applyCommands commands)
  candidate.validate
  return candidate

/-- The content of a candidate; allocators never go back. -/
def adopt (sequencer candidate : Sequencer) : Sequencer :=
  { sequencer with
    tempoMap := candidate.tempoMap
    patterns := candidate.patterns
    clips := candidate.clips
    nextPatternId := max sequencer.nextPatternId candidate.nextPatternId
    nextClipId := max sequencer.nextClipId candidate.nextClipId
    nextNoteId := max sequencer.nextNoteId candidate.nextNoteId
    nextLaneId := max sequencer.nextLaneId candidate.nextLaneId
    revision := saturatingSucc sequencer.revision }

end Sequencer

namespace PatternOrigin

/-- A manual edit of what an origin realized leaves the origin behind. -/
def divergedFrom (before after : PatternOrigin) : PatternOrigin :=
  match before, after with
  | .expression beforeSource beforeTerm beforeBindings _ false, .expression source term bindings table diverged =>
    .expression source term bindings table
      (diverged || decide (source = beforeSource ∧ term = beforeTerm ∧ bindings = beforeBindings))
  | .deprojected beforeProposal false, .deprojected proposal diverged =>
    .deprojected proposal (diverged || decide (proposal = beforeProposal))
  | _, _ => after

end PatternOrigin

def markDivergedAfterManualEdit (before : Option PatternDefinition) (after : PatternDefinition) : PatternDefinition :=
  match before with
  | none => after
  | some before =>
    if before.length ≠ after.length ∨ ¬ (before.content == after.content) = true then
      { after with origin := before.origin.divergedFrom after.origin }
    else after

def preparePatternDivergence : SequencerCommand → SequencerCommand
  | .putPattern before (some after) => .putPattern before (some (markDivergedAfterManualEdit before after))
  | command => command

inductive IdKind where
  | pattern | clip | note | lane
  deriving DecidableEq

namespace Sequencer

variable (sequencer : Sequencer)

/-- The state once a transaction has been adopted; the oldest entries are dropped. -/
def record (sequencer : Sequencer) (entry : HistoryEntry) : Sequencer :=
  { sequencer with
    redo := []
    undo := if 0 < sequencer.historyLimit then (entry :: sequencer.undo).take sequencer.historyLimit else sequencer.undo }

def execute (sequencer : Sequencer) (label : String) (commands : List SequencerCommand) :
    Except (Stop SequencerError) U64 × Sequencer :=
  if commands.isEmpty then (.ok sequencer.revision, sequencer)
  else
    let commands := commands.map preparePatternDivergence
    match sequencer.replay commands with
    | .error stop => (.error stop, sequencer)
    | .ok candidate =>
      let backward := commands.reverse.map SequencerCommand.inverse
      let after := (sequencer.adopt candidate).record ⟨label, commands, backward⟩
      (.ok after.revision, after)

def undoEntry (sequencer : Sequencer) : Except (Stop SequencerError) (Option U64) × Sequencer :=
  match sequencer.undo with
  | [] => (.ok none, sequencer)
  | entry :: rest =>
    let popped := { sequencer with undo := rest }
    match popped.replay entry.backward with
    | .error (.error error) => (.error (.error error), { popped with undo := entry :: popped.undo })
    | .error .panic => (.error .panic, popped)
    | .ok candidate =>
      let adopted := popped.adopt candidate
      (.ok (some adopted.revision), { adopted with redo := entry :: adopted.redo })

def redoEntry (sequencer : Sequencer) : Except (Stop SequencerError) (Option U64) × Sequencer :=
  match sequencer.redo with
  | [] => (.ok none, sequencer)
  | entry :: rest =>
    let popped := { sequencer with redo := rest }
    match popped.replay entry.forward with
    | .error (.error error) => (.error (.error error), { popped with redo := entry :: popped.redo })
    | .error .panic => (.error .panic, popped)
    | .ok candidate =>
      let adopted := popped.adopt candidate
      (.ok (some adopted.revision), { adopted with undo := entry :: adopted.undo })

def setHistoryLimit (sequencer : Sequencer) (limit : Nat) : Sequencer :=
  { sequencer with
    historyLimit := limit
    undo := sequencer.undo.take limit
    redo := sequencer.redo.take limit }

def next (sequencer : Sequencer) : IdKind → U64
  | .pattern => sequencer.nextPatternId
  | .clip => sequencer.nextClipId
  | .note => sequencer.nextNoteId
  | .lane => sequencer.nextLaneId

def allocate (sequencer : Sequencer) : IdKind → U64 × Sequencer
  | .pattern => (sequencer.nextPatternId, { sequencer with nextPatternId := saturatingSucc sequencer.nextPatternId })
  | .clip => (sequencer.nextClipId, { sequencer with nextClipId := saturatingSucc sequencer.nextClipId })
  | .note => (sequencer.nextNoteId, { sequencer with nextNoteId := saturatingSucc sequencer.nextNoteId })
  | .lane => (sequencer.nextLaneId, { sequencer with nextLaneId := saturatingSucc sequencer.nextLaneId })

inductive Action where
  | execute (label : String) (commands : List SequencerCommand)
  | undo | redo
  | setHistoryLimit (limit : Nat)
  | allocate (kind : IdKind)

/-- What a call returns, and the state it leaves. -/
def call (sequencer : Sequencer) : Action → Except (Stop SequencerError) (Option U64) × Sequencer
  | .execute label commands =>
    let (result, after) := sequencer.execute label commands
    (result.map some, after)
  | .undo => sequencer.undoEntry
  | .redo => sequencer.redoEntry
  | .setHistoryLimit limit => (.ok none, sequencer.setHistoryLimit limit)
  | .allocate kind =>
    let (id, after) := sequencer.allocate kind
    (.ok (some id), after)

def perform (sequencer : Sequencer) (action : Action) : Sequencer := (sequencer.call action).2

end Sequencer

end Audec.Sequencer

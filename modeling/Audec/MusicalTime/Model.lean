import Audec.Arrangement.Model
import Audec.Sequencer.TempoMap

/-! The aggregate project as far as edits of its tempo map concern it: the checks that tie pattern
    placements to the map, the transaction, the controller with its history, and the planned edits. -/

open Machine Checked
open Std (ExtTreeMap)
open Audec.Sequencer
open Audec.Arrangement (ArrangementState ClipId ClipContent)

namespace Audec.MusicalTime

abbrev SequencerPatternId := U64

abbrev PatternClipId := U64

structure PatternClip where
  id : PatternClipId
  pattern : SequencerPatternId
  start : BeatTime
  length : U64
  patternOffset : BeatTime
  looped : Bool
  deriving DecidableEq

def PatternClip.stop (clip : PatternClip) : BeatTime := I64.saturate (clip.start.val + min (clip.length.val : Int) 0x7fffffffffffffff)

/-- Everything of a project but its tempo map and its counters. -/
structure Content (Pattern Rest : Type) where
  arrangement : ArrangementState
  patterns : ExtTreeMap SequencerPatternId Pattern
  clips : ExtTreeMap PatternClipId PatternClip
  definitions : ExtTreeMap Arrangement.PatternId SequencerPatternId
  placements : ExtTreeMap ClipId PatternClipId
  rest : Rest

inductive ValidationDomain where
  | project | arrangement | sequencer | automation | assets | mixer | sampleKits | air | bindings

structure BridgeValidationIssue where
  domain : ValidationDomain
  path : String
  message : String

def bindingIssue (path message : String) : BridgeValidationIssue := ⟨.bindings, path, message⟩

/-- The checks that read neither the tempo map nor a counter, in the order they are made. -/
structure Checks (Pattern Rest : Type) where
  arrangement : ArrangementState → List BridgeValidationIssue
  sequencer : ExtTreeMap SequencerPatternId Pattern → ExtTreeMap PatternClipId PatternClip → Option String
  domains : Content Pattern Rest → List BridgeValidationIssue
  media : Content Pattern Rest → List BridgeValidationIssue
  routing : Content Pattern Rest → List BridgeValidationIssue

structure ProjectState (Pattern Rest : Type) where
  content : Content Pattern Rest
  tempoMap : TempoMap
  sequencerRevision : U64

def compiled (map : TempoMap) (tick : BeatTime) : ProjectFrame := (map.beatToFrame tick).getD I64.zero

def compiledOffset (map : TempoMap) (offset : BeatTime) : Nat := (compiled map offset).val.toNat

def placementPath (clip : ClipId) : String := "patterns.placements[" ++ toString clip.raw.val ++ "]"

section Validation

variable {Pattern Rest : Type}

variable (state : ProjectState Pattern Rest)

def placementIssues (state : ProjectState Pattern Rest) (arrangementClip : ClipId) (sequencerClip : PatternClipId) :
    List BridgeValidationIssue :=
  let path := placementPath arrangementClip
  match state.content.arrangement.clips[arrangementClip]? with
  | none => [bindingIssue path "key is not an arrangement clip"]
  | some clip =>
    match clip.content with
    | .pattern region =>
      match state.content.clips[sequencerClip]? with
      | none => [bindingIssue path "references a missing sequencer clip"]
      | some placed =>
        (if state.content.definitions[region.pattern]? = some placed.pattern then []
          else [bindingIssue path "definition link and sequencer clip pattern disagree"]) ++
        (if compiled state.tempoMap placed.start = clip.placement.start ∧ compiled state.tempoMap placed.stop = clip.placement.stop then []
          else [bindingIssue path "sequencer musical placement does not compile to the canonical arrangement range"]) ++
        (if compiledOffset state.tempoMap placed.patternOffset = region.contentOffsetFrames.val ∧ placed.looped = region.looped then []
          else [bindingIssue path "content offset or loop mode disagrees with arrangement metadata"])
    | .audio _ => [bindingIssue path "key is not a pattern clip"]
    | .automation _ => [bindingIssue path "key is not a pattern clip"]

def placementsIssues (state : ProjectState Pattern Rest) : List (ClipId × PatternClipId) → List PatternClipId → List BridgeValidationIssue
  | [], _ => []
  | pair :: rest, linked =>
    (if pair.2 ∈ linked then [bindingIssue (placementPath pair.1) "sequencer placement is linked more than once"] else []) ++
      placementIssues state pair.1 pair.2 ++ placementsIssues state rest (pair.2 :: linked)

def definitionIssues (content : Content Pattern Rest) : List BridgeValidationIssue :=
  content.definitions.toList.flatMap fun pair =>
    if content.patterns.contains pair.2 then []
    else [bindingIssue ("patterns.definitions[" ++ toString pair.1.raw.val ++ "]")
      ("references missing sequencer pattern " ++ toString pair.2.val)]

def ClipContent.isPattern : ClipContent → Bool
  | .pattern _ => true
  | .audio _ => false
  | .automation _ => false

def unboundIssues (content : Content Pattern Rest) : List BridgeValidationIssue :=
  (content.arrangement.clips.toList.flatMap fun pair =>
    if ClipContent.isPattern pair.2.content ∧ ¬ content.placements.contains pair.2.id then
      [bindingIssue ("arrangement.clips[" ++ toString pair.2.id.raw.val ++ "].pattern") "has no sequencer placement binding"]
    else []) ++
  content.clips.toList.flatMap fun pair =>
    if pair.2.id ∈ content.placements.toList.map Prod.snd then []
    else [bindingIssue ("sequencer.clips[" ++ toString pair.2.id.val ++ "]") "has no canonical arrangement placement"]

def validatePatternBindings (state : ProjectState Pattern Rest) : List BridgeValidationIssue :=
  definitionIssues state.content ++ placementsIssues state state.content.placements.toList [] ++ unboundIssues state.content

def schemaVersionNow : U32 := 1

def schemaIssues (schemaVersion : U32) : List BridgeValidationIssue :=
  if schemaVersion = schemaVersionNow then []
  else [⟨.project, "schema_version", "unsupported project schema " ++ toString schemaVersion.val⟩]

def sequencerIssues (checks : Checks Pattern Rest) (content : Content Pattern Rest) : List BridgeValidationIssue :=
  match checks.sequencer content.patterns content.clips with
  | none => []
  | some error => [⟨.sequencer, "state", error⟩]

def sampleRateIssues (state : ProjectState Pattern Rest) : List BridgeValidationIssue :=
  if state.tempoMap.sampleRate = state.content.arrangement.sampleRate then []
  else [bindingIssue "sample_rate" "arrangement and sequencer sample rates differ"]

def validateProjectState (checks : Checks Pattern Rest) (schemaVersion : U32) (state : ProjectState Pattern Rest) :
    List BridgeValidationIssue :=
  schemaIssues schemaVersion ++ checks.arrangement state.content.arrangement ++ sequencerIssues checks state.content ++
    checks.domains state.content ++ sampleRateIssues state ++ checks.media state.content ++ validatePatternBindings state ++
    checks.routing state.content

end Validation

structure SetTempoMap where
  before : TempoMap
  after : TempoMap

namespace SetTempoMap

def inverse (command : SetTempoMap) : SetTempoMap := ⟨command.after, command.before⟩

def isNoop (command : SetTempoMap) : Bool := command.before = command.after

end SetTempoMap

structure CommandBatch where
  label : String
  commands : List SetTempoMap

structure CommandEnvelope where
  label : String
  baseRevision : U64
  commands : List SetTempoMap

def CommandEnvelope.asBatch (envelope : CommandEnvelope) : CommandBatch := ⟨envelope.label, envelope.commands⟩

def CommandEnvelope.fromBatch (baseRevision : U64) (batch : CommandBatch) : CommandEnvelope := ⟨batch.label, baseRevision, batch.commands⟩

inductive ProjectError where
  | revisionConflict (expected actual : U64)
  | domain (detail : String)
  | precondition (commandIndex : Nat) (detail : String)
  | touchedDomainMismatch
  | invalidProject (issues : List BridgeValidationIssue)
  | revisionExhausted
  | journalSequenceExhausted
  | zeroSequence
  | emptyBatchLabel
  | emptyCommandBatch
  | revisionOverflow
  | sequencer (error : SequencerError)

/-- The revisions a tempo edit advances. -/
structure ProjectRevisions where
  aggregate : U64
  sequencer : U64

def checkedRevision (value : U64) : Except ProjectError U64 :=
  match checkedSucc value with
  | some next => .ok next
  | none => .error .revisionExhausted

def ProjectRevisions.advance (revisions : ProjectRevisions) : Except ProjectError ProjectRevisions := do
  let aggregate ← checkedRevision revisions.aggregate
  let sequencer ← checkedRevision revisions.sequencer
  .ok ⟨aggregate, sequencer⟩

structure DawProject (Pattern Rest : Type) where
  schemaVersion : U32
  state : ProjectState Pattern Rest
  revisions : ProjectRevisions

structure AppliedEnvelope where
  envelope : CommandEnvelope
  inverse : CommandEnvelope

section Transaction

variable {Pattern Rest : Type}

def applyCommands : TempoMap → List SetTempoMap → Option TempoMap
  | map, [] => some map
  | map, command :: commands => if map = command.before then applyCommands command.after commands else none

def applyDomainCommands (checks : Checks Pattern Rest) (state : ProjectState Pattern Rest) (commands : List SetTempoMap) :
    Except String (ProjectState Pattern Rest) :=
  let effective := commands.filter fun command => !command.isNoop
  if effective = [] then .ok state
  else
    match applyCommands state.tempoMap effective with
    | none => .error "sequencer batch: command before-state does not match the project"
    | some map =>
      match checks.sequencer state.content.patterns state.content.clips with
      | some error => .error ("sequencer batch: " ++ error)
      | none => .ok { state with tempoMap := map, sequencerRevision := Fin.ofNat _ (min (state.sequencerRevision.val + 1) 0xffffffffffffffff) }

/-- Whether the sequencer is the domain that differs. -/
def sequencerChanged (before after : ProjectState Pattern Rest) : Bool :=
  before.sequencerRevision != after.sequencerRevision || before.tempoMap != after.tempoMap

def DawProject.prepareTransaction (checks : Checks Pattern Rest) (project : DawProject Pattern Rest) (expected : U64)
    (mutate : ProjectState Pattern Rest → Except String (ProjectState Pattern Rest)) : Except ProjectError (ProjectState Pattern Rest) := do
  ensure (expected = project.revisions.aggregate) (.revisionConflict expected project.revisions.aggregate)
  let candidate ← (mutate project.state).mapError .domain
  ensure (sequencerChanged project.state candidate = true) .touchedDomainMismatch
  let issues := validateProjectState checks project.schemaVersion candidate
  ensure (issues = []) (.invalidProject issues)
  .ok candidate

def DawProject.commitPrepared (project : DawProject Pattern Rest) (candidate : ProjectState Pattern Rest) :
    Except ProjectError (DawProject Pattern Rest) := do
  let revisions ← project.revisions.advance
  .ok { project with state := candidate, revisions }

def isBlank (label : String) : Bool := (Arrangement.Marker.trim label.toList).isEmpty

def CommandEnvelope.apply (checks : Checks Pattern Rest) (envelope : CommandEnvelope) (project : DawProject Pattern Rest) :
    Except ProjectError (AppliedEnvelope × DawProject Pattern Rest) := do
  ensure (envelope.baseRevision = project.revisions.aggregate) (.revisionConflict envelope.baseRevision project.revisions.aggregate)
  ensure (¬ isBlank envelope.label) (.domain "command label is empty")
  ensure (envelope.commands ≠ []) (.domain "command batch is empty")
  ensure (¬ envelope.commands.all SetTempoMap.isNoop) (.domain "command batch contains no effective changes")
  let _ ← (applyDomainCommands checks project.state envelope.commands).mapError (.precondition 0)
  let prepared ← project.prepareTransaction checks envelope.baseRevision fun state => applyDomainCommands checks state envelope.commands
  let committed ← project.commitPrepared prepared
  let inverse : CommandEnvelope :=
    ⟨"Undo " ++ envelope.label, committed.revisions.aggregate, envelope.commands.reverse.map SetTempoMap.inverse⟩
  .ok (⟨envelope, inverse⟩, committed)

end Transaction

structure HistoryEntry where
  forward : CommandBatch
  inverse : CommandBatch

structure ProjectController (Pattern Rest : Type) where
  project : DawProject Pattern Rest
  undoStack : List HistoryEntry
  redoStack : List HistoryEntry
  nextJournalSequence : U64
  historyLimit : Nat

namespace ProjectController

variable {Pattern Rest : Type}

def checkRecord (sequence baseRevision resultingRevision : U64) (batch : CommandBatch) : Except ProjectError Unit := do
  ensure (sequence.val ≠ 0) .zeroSequence
  ensure (¬ isBlank batch.label) .emptyBatchLabel
  ensure (batch.commands ≠ []) .emptyCommandBatch
  ensure (checkedSucc baseRevision = some resultingRevision) .revisionOverflow

section

variable (checks : Checks Pattern Rest)

section

variable (controller : ProjectController Pattern Rest)

def applyAndRecord (envelope : CommandEnvelope) :
    Except ProjectError (AppliedEnvelope × ProjectController Pattern Rest) := do
  let nextSequence ←
    match checkedSucc controller.nextJournalSequence with
    | some next => .ok next
    | none => .error .journalSequenceExhausted
  let resultingRevision ←
    match checkedSucc envelope.baseRevision with
    | some next => .ok next
    | none => .error .revisionOverflow
  checkRecord controller.nextJournalSequence envelope.baseRevision resultingRevision envelope.asBatch
  let (applied, project) ← envelope.apply checks controller.project
  .ok (applied, { controller with project, nextJournalSequence := nextSequence })

/-- An entry without a coalescing token is never merged with the one before it. -/
def execute (envelope : CommandEnvelope) :
    Except ProjectError (ProjectController Pattern Rest) := do
  let (applied, changed) ← controller.applyAndRecord checks envelope
  let entry : HistoryEntry := ⟨envelope.asBatch, applied.inverse.asBatch⟩
  .ok { changed with undoStack := (entry :: changed.undoStack).take changed.historyLimit, redoStack := [] }

def undo :
    Except ProjectError (Option (ProjectController Pattern Rest)) :=
  match controller.undoStack with
  | [] => .ok none
  | entry :: older => do
    let envelope := CommandEnvelope.fromBatch controller.project.revisions.aggregate entry.inverse
    let (applied, changed) ← controller.applyAndRecord checks envelope
    .ok (some { changed with undoStack := older, redoStack := { entry with forward := applied.inverse.asBatch } :: changed.redoStack })

end

end

end ProjectController

inductive MusicalIntent where
  | adoptTempo (tempo : Tempo) (candidateRank : Option Nat)
  | tempoPoint (at' : BeatTime) (tempo : Tempo)
  | removeTempoPoint (at' : BeatTime)
  | meterPoint (at' : BeatTime) (signature : TimeSignature)
  | removeMeterPoint (at' : BeatTime)

namespace MusicalIntent

def edit : MusicalIntent → TempoMapEdit
  | .adoptTempo tempo _ => .setTempo I64.zero tempo
  | .tempoPoint at' tempo => .setTempo at' tempo
  | .removeTempoPoint at' => .removeTempo at'
  | .meterPoint at' signature => .setMeter at' signature
  | .removeMeterPoint at' => .removeMeter at'

def barLabel (map : TempoMap) (at' : BeatTime) : String :=
  toString (((map.musicalPosition at').map fun position => position.bar.val + 1).getD 0)

def label (bpmText : Tempo → String) (map : TempoMap) : MusicalIntent → String
  | .adoptTempo tempo none => "Adopt " ++ bpmText tempo ++ " BPM"
  | .adoptTempo tempo (some rank) => "Adopt " ++ bpmText tempo ++ " BPM from rhythm candidate #" ++ toString (rank + 1)
  | .tempoPoint at' tempo => "Tempo " ++ bpmText tempo ++ " BPM at bar " ++ barLabel map at'
  | .removeTempoPoint at' => "Remove tempo point at bar " ++ barLabel map at'
  | .meterPoint at' signature => "Time signature " ++ toString signature.numerator.val ++ "/" ++ toString signature.denominator.val ++
      " at bar " ++ barLabel map at'
  | .removeMeterPoint at' => "Remove time signature at bar " ++ barLabel map at'

/-- Setting a point to what it is plans nothing; a removal always plans a change. -/
def sets : MusicalIntent → Bool
  | .adoptTempo _ _ => true
  | .tempoPoint _ _ => true
  | .removeTempoPoint _ => false
  | .meterPoint _ _ => true
  | .removeMeterPoint _ => false

end MusicalIntent

/-- `none` for a plan that changes nothing. -/
def ProjectController.plan {Pattern Rest : Type} (bpmText : Tempo → String) (controller : ProjectController Pattern Rest)
    (expectedRevision : U64) (intent : MusicalIntent) : Except ProjectError (Option CommandEnvelope) := do
  let actual := controller.project.revisions.aggregate
  ensure (expectedRevision = actual) (.revisionConflict expectedRevision actual)
  let before := controller.project.state.tempoMap
  let after ← (before.edited intent.edit).mapError .sequencer
  if intent.sets ∧ before = after then .ok none
  else .ok (some ⟨intent.label bpmText before, actual, [⟨before, after⟩]⟩)

end Audec.MusicalTime

import Audec.PluginWire.Validate

/-! The messages with all that is written of them. What the checks read is a part of it. -/

open Machine
open Std (ExtTreeMap ExtTreeSet TransCmp LawfulEqCmp)

namespace Audec.PluginWire

/-- The derived order of an enumeration: that of its constructors. -/
abbrev Ranked {α : Type} (rank : α → Nat) := ExtTreeSet α (compareOn rank)

theorem compareOn_eq {α : Type} {rank : α → Nat} (injective : Function.Injective rank) {a b : α} (same : compareOn rank a b = .eq) : a = b :=
  injective (compare_eq_iff_eq.mp same)

def FormatDto.rank : FormatDto → Nat
  | .clap => 0
  | .vst3 => 1

instance FormatDto.lawful : LawfulEqCmp (compareOn FormatDto.rank) :=
  ⟨compareOn_eq fun a b => by cases a <;> cases b <;> decide⟩

def ArchitectureDto.rank : ArchitectureDto → Nat
  | .aarch64 => 0
  | .x86_64 => 1
  | .universal => 2
  | .other => 3

instance ArchitectureDto.lawful : LawfulEqCmp (compareOn ArchitectureDto.rank) :=
  ⟨compareOn_eq fun a b => by cases a <;> cases b <;> decide⟩

def NoteDialectDto.rank : NoteDialectDto → Nat
  | .clap => 0
  | .midi1 => 1
  | .midi2 => 2

instance NoteDialectDto.lawful : LawfulEqCmp (compareOn NoteDialectDto.rank) :=
  ⟨compareOn_eq fun a b => by cases a <;> cases b <;> decide⟩

inductive RoleDto where
  | audioEffect | instrument | noteEffect | analyzer | utility
  deriving DecidableEq

def RoleDto.rank : RoleDto → Nat
  | .audioEffect => 0
  | .instrument => 1
  | .noteEffect => 2
  | .analyzer => 3
  | .utility => 4

instance RoleDto.lawful : LawfulEqCmp (compareOn RoleDto.rank) :=
  ⟨compareOn_eq fun a b => by cases a <;> cases b <;> decide⟩

inductive AudioPortRoleDto where
  | main | auxiliary | sidechain

inductive DeterminismDto where
  | deterministic | seeded | notGuaranteed | unknown

inductive ScanFailureKindDto where
  | timedOut | crashed | invalidAbi | invalidDescriptor | permissionDenied | unsupportedArchitecture | io

inductive RuntimeFailureKindDto where
  | invalidRequest | missingLease | invalidState | invalidLifecycle | backend | io

inductive TailDto where
  | none
  | finiteFrames (frames : U64)
  | infinite | unknown

structure ExecutionDto where
  realtimeSafeClaimed : Bool
  hardRealtimeRequired : Bool
  offlineProcessing : Bool
  editor : Bool
  state : Bool
  latencyReporting : Bool
  tailReporting : Bool
  determinism : DeterminismDto

namespace Wire

abbrev Notes := ExtTreeMap U32 NoteDialectDto

structure ProcessingContractDto extends PluginWire.ProcessingContractDto where
  noteInputs : Notes
  noteOutputs : Notes
  initialLatencyFrames : U32
  initialTail : TailDto
  offline : Bool

structure StateArtifactDto extends PluginWire.StateArtifactDto where
  stateFormatVersion : U32

structure ArtifactDto where
  sha256 : String
  byteLen : U64
  architectures : Ranked ArchitectureDto.rank

def ArtifactDto.checked (artifact : ArtifactDto) : PluginWire.ArtifactDto :=
  ⟨artifact.sha256, artifact.byteLen, artifact.architectures.toList⟩

structure ArtifactGrantDto where
  canonicalPath : String
  fingerprint : ArtifactDto

def ArtifactGrantDto.checked (grant : ArtifactGrantDto) : PluginWire.ArtifactGrantDto :=
  ⟨grant.canonicalPath, grant.fingerprint.checked⟩

structure InstantiateDto where
  requestId : U64
  token : TokenDto
  artifactLease : TokenDto
  plugin : PluginKeyDto
  contract : ProcessingContractDto
  artifact : Option ArtifactGrantDto
  state : Option StateArtifactDto

def InstantiateDto.checked (request : InstantiateDto) : PluginWire.InstantiateDto :=
  ⟨request.requestId, request.token, request.artifactLease, request.plugin, request.contract.toProcessingContractDto,
    request.artifact.map ArtifactGrantDto.checked, request.state.map StateArtifactDto.toStateArtifactDto⟩

structure CapabilitiesDto where
  workerName : String
  workerVersion : String
  workerBuildSha256 : String
  formats : Ranked FormatDto.rank
  architectures : Ranked ArchitectureDto.rank
  scanning : Bool
  realtime : Bool
  offline : Bool
  sharedMemory : Bool
  maximumInstances : Fin 0x10000

def CapabilitiesDto.checked (report : CapabilitiesDto) : PluginWire.CapabilitiesDto :=
  ⟨report.workerName, report.workerVersion, report.workerBuildSha256, report.formats.toList, report.architectures.toList, report.scanning,
    report.realtime, report.offline, report.maximumInstances⟩

structure ScannerDto extends PluginWire.ScannerDto where
  hostArchitecture : ArchitectureDto

structure AudioPortDto extends PluginWire.AudioPortDto where
  role : AudioPortRoleDto
  required : Bool

structure NotePortDto where
  nativeId : U32
  name : String
  direction : PortDirectionDto
  dialects : Ranked NoteDialectDto.rank
  preferred : Option NoteDialectDto

def NotePortDto.checked (port : NotePortDto) : PluginWire.NotePortDto :=
  ⟨port.nativeId, port.name, port.direction, port.dialects.toList, port.preferred⟩

structure ParameterDescriptorDto extends PluginWire.ParameterDescriptorDto where
  module : Option String
  unit : Option String
  automatable : Bool
  modulatable : Bool
  readOnly : Bool
  hidden : Bool

structure PluginDescriptorDto where
  key : PluginKeyDto
  name : String
  vendor : Option String
  version : Option String
  description : Option String
  homepage : Option String
  features : ExtTreeSet String
  roles : Ranked RoleDto.rank
  audioPorts : List AudioPortDto
  notePorts : List NotePortDto
  parameters : List ParameterDescriptorDto
  execution : ExecutionDto

def PluginDescriptorDto.checked (plugin : PluginDescriptorDto) : PluginWire.PluginDescriptorDto :=
  ⟨plugin.key, plugin.name, plugin.vendor, plugin.version, plugin.audioPorts.map AudioPortDto.toAudioPortDto,
    plugin.notePorts.map NotePortDto.checked, plugin.parameters.map ParameterDescriptorDto.toParameterDescriptorDto⟩

structure ScanRecordDto where
  schemaVersion : U32
  canonicalPath : String
  artifact : ArtifactDto
  scanner : ScannerDto
  plugins : List PluginDescriptorDto

def ScanRecordDto.checked (record : ScanRecordDto) : PluginWire.ScanRecordDto :=
  ⟨record.schemaVersion, record.canonicalPath, record.artifact.checked, record.scanner.toScannerDto,
    record.plugins.map PluginDescriptorDto.checked⟩

structure ScanFailureDto where
  kind : ScanFailureKindDto
  detail : String
  scanner : ScannerDto

def ScanFailureDto.checked (failure : ScanFailureDto) : PluginWire.ScanFailureDto := ⟨failure.detail, failure.scanner.toScannerDto⟩

structure RuntimeFailureDto extends PluginWire.RuntimeFailureDto where
  kind : RuntimeFailureKindDto

inductive Message where
  | hello
  | capabilities (capabilities : CapabilitiesDto)
  | scan (request : ScanRequestDto)
  | scanReady (requestId : U64) (record : ScanRecordDto)
  | scanFailed (requestId : U64) (failure : ScanFailureDto)
  | instantiate (request : InstantiateDto)
  | instantiated (requestId : U64) (token : TokenDto) (latencyFrames : U32) (tail : TailDto)
  | bindSharedMemory (binding : SharedMemoryBindingDto)
  | bound (token : TokenDto)
  | activate (token : TokenDto)
  | activated (token : TokenDto)
  | setParameters (request : SetParametersDto)
  | parametersSet (requestId : U64) (token : TokenDto)
  | process (token : TokenDto) (processSequence : U64) (frames inputEventCount : U32)
  | processed (token : TokenDto) (processSequence : U64) (outputEventCount : U32)
  | saveState (request : SaveStateDto)
  | stateSaved (requestId : U64) (state : StateArtifactDto)
  | latencyChanged (token : TokenDto) (frames : U32)
  | tailChanged (token : TokenDto) (tail : TailDto)
  | deactivate (token : TokenDto)
  | deactivated (token : TokenDto)
  | destroy (token : TokenDto)
  | destroyed (token : TokenDto)
  | error (failure : RuntimeFailureDto)
  | shutdown

def Message.checked : Message → PluginWire.Message
  | .hello => .hello
  | .capabilities report => .capabilities report.checked
  | .scan request => .scan request
  | .scanReady requestId record => .scanReady requestId record.checked
  | .scanFailed requestId failure => .scanFailed requestId failure.checked
  | .instantiate request => .instantiate request.checked
  | .instantiated requestId token _ _ => .instantiated requestId token
  | .bindSharedMemory binding => .bindSharedMemory binding
  | .bound token => .bound token
  | .activate token => .activate token
  | .activated token => .activated token
  | .setParameters request => .setParameters request
  | .parametersSet requestId token => .parametersSet requestId token
  | .process token processSequence frames inputEventCount => .process token processSequence frames inputEventCount
  | .processed token processSequence _ => .processed token processSequence
  | .saveState request => .saveState request
  | .stateSaved requestId state => .stateSaved requestId state.toStateArtifactDto
  | .latencyChanged token _ => .latencyChanged token
  | .tailChanged token _ => .tailChanged token
  | .deactivate token => .deactivate token
  | .deactivated token => .deactivated token
  | .destroy token => .destroy token
  | .destroyed token => .destroyed token
  | .error failure => .error failure.toRuntimeFailureDto
  | .shutdown => .shutdown

structure Envelope where
  protocolVersion : U32
  sequence : U64
  message : Message

def Envelope.checked (envelope : Envelope) : PluginWire.Envelope :=
  ⟨envelope.protocolVersion, envelope.sequence, envelope.message.checked⟩

def Envelope.validate (envelope : Envelope) : Except WireError Unit := envelope.checked.validate

end Wire

end Audec.PluginWire

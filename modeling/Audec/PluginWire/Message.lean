import Audec.Lib.Machine
import Audec.Lib.Checked

/-! The messages between a plugin host and its worker, as far as the checks and the session read them. -/

open Machine

namespace Audec.PluginWire

structure TokenDto where
  text : String
  deriving DecidableEq

inductive FormatDto where
  | clap | vst3
  deriving DecidableEq

inductive ArchitectureDto where
  | aarch64 | x86_64 | universal | other
  deriving DecidableEq

structure PluginKeyDto where
  format : FormatDto
  identifier : String
  deriving DecidableEq

inductive ParameterKeyDto where
  | clap (id : U32)
  | vst3 (idHex : String)
  deriving DecidableEq

structure ParameterValueDto where
  key : ParameterKeyDto
  normalized : Float

inductive PortDirectionDto where
  | input | output
  deriving DecidableEq

inductive ChannelLayoutDto where
  | mono | stereo
  | discrete (channels : Fin 0x10000)

def ChannelLayoutDto.channels : ChannelLayoutDto → Fin 0x10000
  | .mono => 1
  | .stereo => 2
  | .discrete channels => channels

inductive NoteDialectDto where
  | clap | midi1 | midi2
  deriving DecidableEq

structure NegotiatedPortDto where
  nativeId : U32
  direction : PortDirectionDto
  layout : ChannelLayoutDto
  channelOffset : Fin 0x10000

structure ProcessingContractDto where
  sampleRate : U32
  minimumFrames : U32
  maximumFrames : U32
  audioPorts : List NegotiatedPortDto

structure StateArtifactDto where
  plugin : PluginKeyDto
  sha256 : String
  byteLen : U64
  relativePath : String

structure ArtifactDto where
  sha256 : String
  byteLen : U64
  architectures : List ArchitectureDto

structure ArtifactGrantDto where
  canonicalPath : String
  fingerprint : ArtifactDto

structure InstantiateDto where
  requestId : U64
  token : TokenDto
  artifactLease : TokenDto
  plugin : PluginKeyDto
  contract : ProcessingContractDto
  artifact : Option ArtifactGrantDto
  state : Option StateArtifactDto

structure SetParametersDto where
  requestId : U64
  token : TokenDto
  values : List ParameterValueDto

inductive SharedMemoryAccessDto where
  | hostWrites | workerWrites
  deriving DecidableEq

structure SharedMemoryRegionDto where
  token : TokenDto
  byteLen : U64
  access : SharedMemoryAccessDto

structure SharedMemoryBindingDto where
  token : TokenDto
  audioInputs : SharedMemoryRegionDto
  audioOutputs : SharedMemoryRegionDto
  eventsToWorker : SharedMemoryRegionDto
  eventsFromWorker : SharedMemoryRegionDto

structure SaveStateDto where
  requestId : U64
  token : TokenDto
  maximumBytes : U64
  outputRelativePath : String

structure CapabilitiesDto where
  workerName : String
  workerVersion : String
  workerBuildSha256 : String
  formats : List FormatDto
  architectures : List ArchitectureDto
  scanning : Bool
  realtime : Bool
  offline : Bool
  maximumInstances : Fin 0x10000

structure ScanRequestDto where
  requestId : U64
  candidatePath : String
  timeoutMillis : U64
  maximumDescriptors : U32
  maximumParametersPerPlugin : U32

structure ScannerDto where
  name : String
  version : String
  buildSha256 : String
  hostOs : String
  hashAlgorithm : String

structure AudioPortDto where
  nativeId : U32
  name : String
  direction : PortDirectionDto
  layouts : List ChannelLayoutDto

structure NotePortDto where
  nativeId : U32
  name : String
  direction : PortDirectionDto
  dialects : List NoteDialectDto
  preferred : Option NoteDialectDto

inductive ParameterMappingDto where
  | linear | logarithmic
  | stepped (steps : U32)
  | enumerated (labels : List String)

structure ParameterDescriptorDto where
  key : ParameterKeyDto
  name : String
  plainMin : Float
  plainMax : Float
  plainDefault : Float
  mapping : ParameterMappingDto

structure PluginDescriptorDto where
  key : PluginKeyDto
  name : String
  vendor : Option String
  version : Option String
  audioPorts : List AudioPortDto
  notePorts : List NotePortDto
  parameters : List ParameterDescriptorDto

structure ScanRecordDto where
  schemaVersion : U32
  canonicalPath : String
  artifact : ArtifactDto
  scanner : ScannerDto
  plugins : List PluginDescriptorDto

structure ScanFailureDto where
  detail : String
  scanner : ScannerDto

structure RuntimeFailureDto where
  requestId : Option U64
  token : Option TokenDto
  recoverable : Bool
  detail : String

inductive Message where
  | hello
  | capabilities (capabilities : CapabilitiesDto)
  | scan (request : ScanRequestDto)
  | scanReady (requestId : U64) (record : ScanRecordDto)
  | scanFailed (requestId : U64) (failure : ScanFailureDto)
  | instantiate (request : InstantiateDto)
  | instantiated (requestId : U64) (token : TokenDto)
  | bindSharedMemory (binding : SharedMemoryBindingDto)
  | bound (token : TokenDto)
  | activate (token : TokenDto)
  | activated (token : TokenDto)
  | setParameters (request : SetParametersDto)
  | parametersSet (requestId : U64) (token : TokenDto)
  | process (token : TokenDto) (processSequence : U64) (frames inputEventCount : U32)
  | processed (token : TokenDto) (processSequence : U64)
  | saveState (request : SaveStateDto)
  | stateSaved (requestId : U64) (state : StateArtifactDto)
  | latencyChanged (token : TokenDto)
  | tailChanged (token : TokenDto)
  | deactivate (token : TokenDto)
  | deactivated (token : TokenDto)
  | destroy (token : TokenDto)
  | destroyed (token : TokenDto)
  | error (failure : RuntimeFailureDto)
  | shutdown

structure Envelope where
  protocolVersion : U32
  sequence : U64
  message : Message

inductive Direction where
  | controllerToWorker | workerToController
  deriving DecidableEq

def Message.direction : Message → Direction
  | .hello => .controllerToWorker
  | .scan _ => .controllerToWorker
  | .instantiate _ => .controllerToWorker
  | .bindSharedMemory _ => .controllerToWorker
  | .activate _ => .controllerToWorker
  | .setParameters _ => .controllerToWorker
  | .process _ _ _ _ => .controllerToWorker
  | .saveState _ => .controllerToWorker
  | .deactivate _ => .controllerToWorker
  | .destroy _ => .controllerToWorker
  | .shutdown => .controllerToWorker
  | _ => .workerToController

end Audec.PluginWire

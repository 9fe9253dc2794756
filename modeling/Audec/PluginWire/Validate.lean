import Audec.PluginWire.Message
import Audec.Lib.Machine

/-! What an envelope is checked for before the session sees it. -/

open Machine Checked

namespace Audec.PluginWire

def workerProtocolVersion : U32 := 1
def scanSchemaVersion : U32 := 1
def maxStateBytes : Nat := 256 * 1024 * 1024
def maxTextBytes : Nat := 4096

inductive PluginValidationError where
  | emptyText (field : String)
  | textTooLong (field : String) (maximum : Nat)
  | invalidDigest
  | invalidProcessingRange
  | invalidNegotiatedPort (nativeId : U32)
  | overlappingAudioBuffers
  | zeroArtifactDigest | emptyArtifact | missingArchitecture
  | invalidSharedMemory
  | nonAbsoluteArtifactPath | invalidScannerLimit
  | unsupportedScanSchema (version : U32)
  | zeroScannerDigest | noPluginDescriptors
  | duplicatePlugin (key : PluginKeyDto)
  | duplicateAudioPort (direction : PortDirectionDto) (nativeId : U32)
  | invalidChannelLayout (nativeId : U32)
  | duplicateNotePort (direction : PortDirectionDto) (nativeId : U32)
  | invalidNoteDialects (nativeId : U32)
  | invalidParameterRange (key : ParameterKeyDto)
  | invalidParameterMapping (key : ParameterKeyDto)
  | duplicateParameter (key : ParameterKeyDto)
  | invalidNormalizedValue
  deriving DecidableEq

inductive WireError where
  | domain (error : PluginValidationError)
  | protocolVersion (actual expected : U32)
  | sequence (direction : String) (actual expected : U64)
  | wrongDirection
  | invalidTransition (detail : String)
  | malformed (detail : String)
  deriving DecidableEq

/-- `char::is_control`. -/
def isControl (c : Char) : Bool := c.toNat < 0x20 || (0x7f ≤ c.toNat && c.toNat < 0xa0)

def domain {α : Type} (checks : Except PluginValidationError α) : Except WireError α := checks.mapError WireError.domain

def validateDomainText (field value : String) (minimum maximum : Nat) : Except PluginValidationError Unit := do
  ensure (minimum ≤ value.length ∧ value.toList.all (fun c => !isControl c) = true) (.emptyText field)
  ensure (value.length ≤ maximum) (.textTooLong field maximum)

def validateOptionalText (field : String) (value : Option String) (maximum : Nat) : Except PluginValidationError Unit :=
  match value with
  | none => .ok ()
  | some value => validateDomainText field value 1 maximum

def validateText (field value : String) : Except WireError Unit :=
  ensure (value ≠ "" ∧ value.utf8ByteSize ≤ maxTextBytes ∧ value.toList.all (fun c => !isControl c) = true)
    (.malformed ("invalid " ++ field))

def isLowerHex (c : Char) : Bool := c.isDigit || ('a' ≤ c && c ≤ 'f')

def isHex (c : Char) : Bool := isLowerHex c || ('A' ≤ c && c ≤ 'F')

def hexDigit (c : Char) : Nat :=
  if c.isDigit then c.toNat - '0'.toNat else c.toNat - 'a'.toNat + 10

def TokenDto.value (token : TokenDto) : Except WireError Nat := do
  ensure (token.text.utf8ByteSize = 32 ∧ token.text.toList.all isLowerHex = true)
    (.malformed "tokens must be 32 lowercase hexadecimal characters")
  return token.text.toList.foldl (fun value c => value * 16 + hexDigit c) 0

/-- What `canonical_digest` checks; it returns whether the digest is not zero. -/
def canonicalDigest (value : String) : Except WireError Bool := do
  ensure (value.utf8ByteSize = 64 ∧ value.toList.all isHex = true) (.domain .invalidDigest)
  ensure (value.toList.all isLowerHex = true) (.malformed "non-canonical SHA-256")
  return value.toList.any (· ≠ '0')

/-- `Path::is_absolute`, of a Unix path. -/
def isAbsolute (path : String) : Bool := path.toList.head? = some '/'

def components (path : String) : List (List Char) := path.toList.splitOn '/'

def validateRelativePath (value : String) : Except WireError Unit := do
  ensure (value ≠ "" ∧ value.utf8ByteSize ≤ maxTextBytes ∧
      value.toList.all (fun c => c ≠ '\x00' && c ≠ '\n' && c ≠ '\x0d') = true)
    (.malformed "invalid session-relative path")
  ensure (isAbsolute value = false ∧ ['.', '.'] ∉ components value) (.malformed "state path escapes the worker session")

def PluginKeyDto.validate (key : PluginKeyDto) : Except PluginValidationError Unit :=
  validateDomainText "plugin identifier" key.identifier 1 1024

def ParameterKeyDto.validate : ParameterKeyDto → Except WireError Unit
  | .clap _ => .ok ()
  | .vst3 idHex => do
    ensure (idHex.utf8ByteSize = 32) (.malformed "invalid VST3 parameter ID")
    ensure (idHex.toList.all isLowerHex = true) (.malformed "invalid lowercase hexadecimal")

def ParameterValueDto.validate (value : ParameterValueDto) : Except WireError Unit := do
  value.key.validate
  ensure (value.normalized.isFinite = true ∧ 0 ≤ value.normalized ∧ value.normalized ≤ 1) (.domain .invalidNormalizedValue)

section Once

variable {α κ ε : Type} [DecidableEq κ]

def eachOnce (key : α → κ) (duplicate : α → ε) (first rest : α → Except ε Unit) : List κ → List α → Except ε Unit
  | _, [] => .ok ()
  | seen, item :: items => do
    first item
    ensure (key item ∉ seen) (duplicate item)
    rest item
    eachOnce key duplicate first rest (key item :: seen) items

end Once

def occupy (port : NegotiatedPortDto) : List (PortDirectionDto × Nat) → Nat → Nat →
    Except PluginValidationError (List (PortDirectionDto × Nat))
  | occupied, _, 0 => .ok occupied
  | occupied, channel, more + 1 => do
    ensure (port.channelOffset.val + channel < 0x10000) (.invalidNegotiatedPort port.nativeId)
    ensure ((port.direction, port.channelOffset.val + channel) ∉ occupied) .overlappingAudioBuffers
    occupy port ((port.direction, port.channelOffset.val + channel) :: occupied) (channel + 1) more

def negotiate : List (PortDirectionDto × U32) → List (PortDirectionDto × Nat) → List NegotiatedPortDto →
    Except PluginValidationError Unit
  | _, _, [] => .ok ()
  | ids, occupied, port :: ports => do
    ensure (port.layout.channels ≠ 0 ∧ (port.direction, port.nativeId) ∉ ids) (.invalidNegotiatedPort port.nativeId)
    let occupied ← occupy port occupied 0 port.layout.channels.val
    negotiate ((port.direction, port.nativeId) :: ids) occupied ports

def ProcessingContractDto.validate (contract : ProcessingContractDto) : Except PluginValidationError Unit := do
  ensure (contract.sampleRate ≠ 0 ∧ contract.minimumFrames ≠ 0 ∧ contract.minimumFrames ≤ contract.maximumFrames ∧
    contract.maximumFrames.val ≤ 1048576) .invalidProcessingRange
  negotiate [] [] contract.audioPorts

def StateArtifactDto.validate (state : StateArtifactDto) : Except WireError Unit := do
  domain state.plugin.validate
  let _ ← canonicalDigest state.sha256
  validateRelativePath state.relativePath
  ensure (state.byteLen.val ≤ maxStateBytes) (.malformed "state artifact exceeds limit")

def ArtifactDto.validate (artifact : ArtifactDto) : Except WireError Unit := do
  let content ← canonicalDigest artifact.sha256
  ensure (content = true) (.domain .zeroArtifactDigest)
  ensure (artifact.byteLen ≠ 0) (.domain .emptyArtifact)
  ensure (artifact.architectures ≠ []) (.domain .missingArchitecture)

def ArtifactGrantDto.validate (grant : ArtifactGrantDto) : Except WireError Unit := do
  ensure (isAbsolute grant.canonicalPath = true ∧ grant.canonicalPath.utf8ByteSize ≤ maxTextBytes)
    (.malformed "artifact grant path must be bounded and absolute")
  grant.fingerprint.validate

def InstantiateDto.validate (request : InstantiateDto) : Except WireError Unit := do
  let token ← request.token.value
  ensure (token ≠ 0) (.malformed "zero instance or lease token")
  let lease ← request.artifactLease.value
  ensure (lease ≠ 0) (.malformed "zero instance or lease token")
  domain request.plugin.validate
  domain request.contract.validate
  match request.artifact with
  | none => .ok ()
  | some artifact => artifact.validate
  match request.state with
  | none => .ok ()
  | some state => do
    state.validate
    ensure (state.plugin = request.plugin) (.malformed "state plugin mismatch")

def SetParametersDto.validate (request : SetParametersDto) : Except WireError Unit := do
  let _ ← request.token.value
  ensure (request.values.length ≤ 1000000) (.malformed "too many parameters")
  eachOnce ParameterValueDto.key (fun _ => WireError.malformed "duplicate parameter") ParameterValueDto.validate
    (fun _ => .ok ()) [] request.values

def SharedMemoryBindingDto.validate (binding : SharedMemoryBindingDto) : Except WireError Unit := do
  let _ ← binding.token.value
  let audioInputs ← binding.audioInputs.token.value
  let audioOutputs ← binding.audioOutputs.token.value
  let eventsToWorker ← binding.eventsToWorker.token.value
  let eventsFromWorker ← binding.eventsFromWorker.token.value
  ensure ((∀ region ∈ [binding.audioInputs, binding.audioOutputs, binding.eventsToWorker, binding.eventsFromWorker],
      region.byteLen ≠ 0) ∧
    binding.audioInputs.byteLen.val ≤ 1024 * 1024 * 1024 ∧ binding.audioOutputs.byteLen.val ≤ 1024 * 1024 * 1024 ∧
    binding.eventsToWorker.byteLen.val ≤ 64 * 1024 * 1024 ∧ binding.eventsFromWorker.byteLen.val ≤ 64 * 1024 * 1024 ∧
    binding.audioInputs.access = .hostWrites ∧ binding.eventsToWorker.access = .hostWrites ∧
    binding.audioOutputs.access = .workerWrites ∧ binding.eventsFromWorker.access = .workerWrites ∧
    [audioInputs, audioOutputs, eventsToWorker, eventsFromWorker].Nodup) (.domain .invalidSharedMemory)

def SaveStateDto.validate (request : SaveStateDto) : Except WireError Unit := do
  let _ ← request.token.value
  validateRelativePath request.outputRelativePath
  ensure (request.maximumBytes ≠ 0 ∧ request.maximumBytes.val ≤ maxStateBytes) (.malformed "invalid state limit")

def CapabilitiesDto.validate (capabilities : CapabilitiesDto) : Except WireError Unit := do
  validateText "worker name" capabilities.workerName
  validateText "worker version" capabilities.workerVersion
  let _ ← canonicalDigest capabilities.workerBuildSha256
  ensure (capabilities.formats ≠ [] ∧ capabilities.architectures ≠ [] ∧ capabilities.maximumInstances ≠ 0 ∧
    (capabilities.scanning = true ∨ capabilities.realtime = true ∨ capabilities.offline = true))
    (.malformed "invalid capabilities")

def ScanRequestDto.validate (request : ScanRequestDto) : Except PluginValidationError Unit := do
  ensure (isAbsolute request.candidatePath = true) .nonAbsoluteArtifactPath
  ensure (request.timeoutMillis ≠ 0 ∧ request.timeoutMillis.val ≤ 300000 ∧ request.maximumDescriptors ≠ 0 ∧
    request.maximumDescriptors.val ≤ 65536 ∧ request.maximumParametersPerPlugin ≠ 0 ∧
    request.maximumParametersPerPlugin.val ≤ 1000000) .invalidScannerLimit

def AudioPortDto.validate (port : AudioPortDto) : Except PluginValidationError Unit :=
  ensure (port.layouts ≠ [] ∧ ∀ layout ∈ port.layouts, layout.channels ≠ 0) (.invalidChannelLayout port.nativeId)

def NotePortDto.validate (port : NotePortDto) : Except PluginValidationError Unit :=
  ensure (port.dialects ≠ [] ∧ ∀ preferred ∈ port.preferred, preferred ∈ port.dialects) (.invalidNoteDialects port.nativeId)

def ParameterDescriptorDto.validate (parameter : ParameterDescriptorDto) : Except PluginValidationError Unit := do
  validateDomainText "parameter name" parameter.name 1 1024
  ensure (parameter.plainMin.isFinite = true ∧ parameter.plainMax.isFinite = true ∧ parameter.plainDefault.isFinite = true ∧
    ¬ parameter.plainMax < parameter.plainMin ∧ parameter.plainMin ≤ parameter.plainDefault ∧
    parameter.plainDefault ≤ parameter.plainMax) (.invalidParameterRange parameter.key)
  match parameter.mapping with
  | .linear => .ok ()
  | .logarithmic => ensure (¬ parameter.plainMin ≤ 0) (.invalidParameterMapping parameter.key)
  | .stepped steps => ensure (2 ≤ steps) (.invalidParameterMapping parameter.key)
  | .enumerated labels => ensure (labels ≠ []) (.invalidParameterMapping parameter.key)

/-- `PluginMetadata::validate`. -/
def PluginDescriptorDto.validateMetadata (plugin : PluginDescriptorDto) : Except PluginValidationError Unit := do
  plugin.key.validate
  validateDomainText "plugin name" plugin.name 1 1024
  validateOptionalText "vendor" plugin.vendor 1024
  validateOptionalText "version" plugin.version 256
  eachOnce (fun port : AudioPortDto => (port.direction, port.nativeId)) (fun port => .duplicateAudioPort port.direction port.nativeId)
    (fun port => validateDomainText "audio port name" port.name 1 1024) AudioPortDto.validate [] plugin.audioPorts
  eachOnce (fun port : NotePortDto => (port.direction, port.nativeId)) (fun port => .duplicateNotePort port.direction port.nativeId)
    (fun port => validateDomainText "note port name" port.name 1 1024) NotePortDto.validate [] plugin.notePorts
  eachOnce ParameterDescriptorDto.key (fun parameter => .duplicateParameter parameter.key) ParameterDescriptorDto.validate
    (fun _ => .ok ()) [] plugin.parameters

def PluginDescriptorDto.validate (plugin : PluginDescriptorDto) : Except WireError Unit := do
  domain plugin.key.validate
  plugin.parameters.forM fun parameter => parameter.key.validate
  domain plugin.validateMetadata

/-- `ScannerProvenance::validate`, given whether the build digest is not zero. -/
def ScannerDto.validateProvenance (scanner : ScannerDto) (build : Bool) : Except PluginValidationError Unit := do
  validateDomainText "scanner name" scanner.name 1 256
  validateDomainText "scanner version" scanner.version 1 256
  validateDomainText "host OS" scanner.hostOs 1 256
  validateDomainText "hash algorithm" scanner.hashAlgorithm 1 64
  ensure (build = true) .zeroScannerDigest

def ScanRecordDto.validate (record : ScanRecordDto) : Except WireError Unit := do
  record.artifact.validate
  let build ← canonicalDigest record.scanner.buildSha256
  record.plugins.forM PluginDescriptorDto.validate
  ensure (record.schemaVersion = scanSchemaVersion) (.domain (.unsupportedScanSchema record.schemaVersion))
  ensure (isAbsolute record.canonicalPath = true) (.domain .nonAbsoluteArtifactPath)
  domain (record.scanner.validateProvenance build)
  ensure (record.plugins ≠ []) (.domain .noPluginDescriptors)
  domain (eachOnce PluginDescriptorDto.key (fun plugin => .duplicatePlugin plugin.key) PluginDescriptorDto.validateMetadata
    (fun _ => .ok ()) [] record.plugins)

def ScanFailureDto.validate (failure : ScanFailureDto) : Except WireError Unit := do
  validateText "scan failure" failure.detail
  let _ ← canonicalDigest failure.scanner.buildSha256

def RuntimeFailureDto.validate (failure : RuntimeFailureDto) : Except WireError Unit := do
  match failure.token with
  | none => .ok ()
  | some token => do
    let _ ← token.value
  validateText "runtime failure" failure.detail

/-- That a message names an instance by a token. -/
def TokenDto.validate (token : TokenDto) : Except WireError Unit := do
  let _ ← token.value

def Message.validate : Message → Except WireError Unit
  | .hello => .ok ()
  | .shutdown => .ok ()
  | .capabilities report => report.validate
  | .scan request => domain request.validate
  | .scanReady _ record => record.validate
  | .scanFailed _ failure => failure.validate
  | .instantiate request => request.validate
  | .instantiated _ token => token.validate
  | .bindSharedMemory binding => binding.validate
  | .setParameters request => request.validate
  | .process token _ frames inputEventCount => do
    token.validate
    ensure (frames ≠ 0 ∧ inputEventCount.val ≤ 1000000) (.malformed "invalid process bounds")
  | .saveState request => request.validate
  | .stateSaved _ state => state.validate
  | .tailChanged token => token.validate
  | .error failure => failure.validate
  | .bound token => token.validate
  | .activate token => token.validate
  | .activated token => token.validate
  | .parametersSet _ token => token.validate
  | .processed token _ => token.validate
  | .latencyChanged token => token.validate
  | .deactivate token => token.validate
  | .deactivated token => token.validate
  | .destroy token => token.validate
  | .destroyed token => token.validate

def Envelope.validate (envelope : Envelope) : Except WireError Unit := do
  ensure (envelope.protocolVersion = workerProtocolVersion) (.protocolVersion envelope.protocolVersion workerProtocolVersion)
  envelope.message.validate

end Audec.PluginWire

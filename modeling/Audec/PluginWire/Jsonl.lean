import Audec.Lib.Buffered
import Audec.PluginWire.Records

/-! Messages as lines of JSON. All but the version and the sequence of an envelope is decoded from a buffered document. -/

open Machine Documents Buffered

namespace Audec.PluginWire

def FormatDto.name : FormatDto → String
  | .clap => "clap"
  | .vst3 => "vst3"

def FormatDto.names : List (String × FormatDto) := [("clap", .clap), ("vst3", .vst3)]

def ArchitectureDto.name : ArchitectureDto → String
  | .aarch64 => "aarch64"
  | .x86_64 => "x86_64"
  | .universal => "universal"
  | .other => "other"

def ArchitectureDto.names : List (String × ArchitectureDto) :=
  [("aarch64", .aarch64), ("x86_64", .x86_64), ("universal", .universal), ("other", .other)]

def PortDirectionDto.name : PortDirectionDto → String
  | .input => "input"
  | .output => "output"

def PortDirectionDto.names : List (String × PortDirectionDto) := [("input", .input), ("output", .output)]

def NoteDialectDto.name : NoteDialectDto → String
  | .clap => "clap"
  | .midi1 => "midi1"
  | .midi2 => "midi2"

def NoteDialectDto.names : List (String × NoteDialectDto) := [("clap", .clap), ("midi1", .midi1), ("midi2", .midi2)]

def SharedMemoryAccessDto.name : SharedMemoryAccessDto → String
  | .hostWrites => "host_writes"
  | .workerWrites => "worker_writes"

def SharedMemoryAccessDto.names : List (String × SharedMemoryAccessDto) := [("host_writes", .hostWrites), ("worker_writes", .workerWrites)]

def RoleDto.name : RoleDto → String
  | .audioEffect => "audio_effect"
  | .instrument => "instrument"
  | .noteEffect => "note_effect"
  | .analyzer => "analyzer"
  | .utility => "utility"

def RoleDto.names : List (String × RoleDto) :=
  [("audio_effect", .audioEffect), ("instrument", .instrument), ("note_effect", .noteEffect), ("analyzer", .analyzer), ("utility", .utility)]

def AudioPortRoleDto.name : AudioPortRoleDto → String
  | .main => "main"
  | .auxiliary => "auxiliary"
  | .sidechain => "sidechain"

def AudioPortRoleDto.names : List (String × AudioPortRoleDto) := [("main", .main), ("auxiliary", .auxiliary), ("sidechain", .sidechain)]

def DeterminismDto.name : DeterminismDto → String
  | .deterministic => "deterministic"
  | .seeded => "seeded"
  | .notGuaranteed => "not_guaranteed"
  | .unknown => "unknown"

def DeterminismDto.names : List (String × DeterminismDto) :=
  [("deterministic", .deterministic), ("seeded", .seeded), ("not_guaranteed", .notGuaranteed), ("unknown", .unknown)]

def ScanFailureKindDto.name : ScanFailureKindDto → String
  | .timedOut => "timed_out"
  | .crashed => "crashed"
  | .invalidAbi => "invalid_abi"
  | .invalidDescriptor => "invalid_descriptor"
  | .permissionDenied => "permission_denied"
  | .unsupportedArchitecture => "unsupported_architecture"
  | .io => "io"

def ScanFailureKindDto.names : List (String × ScanFailureKindDto) :=
  [("timed_out", .timedOut), ("crashed", .crashed), ("invalid_abi", .invalidAbi), ("invalid_descriptor", .invalidDescriptor),
    ("permission_denied", .permissionDenied), ("unsupported_architecture", .unsupportedArchitecture), ("io", .io)]

def RuntimeFailureKindDto.name : RuntimeFailureKindDto → String
  | .invalidRequest => "invalid_request"
  | .missingLease => "missing_lease"
  | .invalidState => "invalid_state"
  | .invalidLifecycle => "invalid_lifecycle"
  | .backend => "backend"
  | .io => "io"

def RuntimeFailureKindDto.names : List (String × RuntimeFailureKindDto) :=
  [("invalid_request", .invalidRequest), ("missing_lease", .missingLease), ("invalid_state", .invalidState),
    ("invalid_lifecycle", .invalidLifecycle), ("backend", .backend), ("io", .io)]

def TokenDto.document (token : TokenDto) : Document := .string token.text

def TokenDto.ofDocument (document : Document) : Option TokenDto := (decodeString document).map TokenDto.mk

def PluginKeyDto.document (key : PluginKeyDto) : Document :=
  .object [("format", .string key.format.name), ("identifier", .string key.identifier)]

def PluginKeyDto.ofDocument (document : Document) : Option PluginKeyDto := do
  let fields ← parts document
  fields.within 2
  let format ← fields.required 0 "format" (decodeName FormatDto.names)
  let identifier ← fields.required 1 "identifier" decodeString
  return { format, identifier }

def ParameterKeyDto.document : ParameterKeyDto → Document
  | .clap id => .object [("format", .string "clap"), ("id", encodeU32 id)]
  | .vst3 idHex => .object [("format", .string "vst3"), ("id_hex", .string idHex)]

def ParameterKeyDto.ofDocument : Document → Option ParameterKeyDto :=
  tagged "format" [
    ("clap", fun fields => do
      fields.within 1
      return .clap (← fields.required 0 "id" decodeU32)),
    ("vst3", fun fields => do
      fields.within 1
      return .vst3 (← fields.required 0 "id_hex" decodeString))]

def ParameterValueDto.document (value : ParameterValueDto) : Document :=
  .object [("key", value.key.document), ("normalized", encodeF64 value.normalized)]

def ParameterValueDto.ofDocument (document : Document) : Option ParameterValueDto := do
  let fields ← parts document
  fields.within 2
  let key ← fields.required 0 "key" ParameterKeyDto.ofDocument
  let normalized ← fields.required 1 "normalized" decodeF64
  return { key, normalized }

def TailDto.document : TailDto → Document
  | .none => .object [("kind", .string "none")]
  | .finiteFrames frames => .object [("kind", .string "finite_frames"), ("frames", encodeU64 frames)]
  | .infinite => .object [("kind", .string "infinite")]
  | .unknown => .object [("kind", .string "unknown")]

def TailDto.ofDocument : Document → Option TailDto :=
  tagged "kind" [("none", unit .none),
    ("finite_frames", fun fields => do
      fields.within 1
      return .finiteFrames (← fields.required 0 "frames" decodeU64)),
    ("infinite", unit .infinite), ("unknown", unit .unknown)]

def ChannelLayoutDto.document : ChannelLayoutDto → Document
  | .mono => .object [("kind", .string "mono")]
  | .stereo => .object [("kind", .string "stereo")]
  | .discrete channels => .object [("kind", .string "discrete"), ("channels", encodeU16 channels)]

def ChannelLayoutDto.ofDocument : Document → Option ChannelLayoutDto :=
  tagged "kind" [("mono", unit .mono), ("stereo", unit .stereo),
    ("discrete", fun fields => do
      fields.within 1
      return .discrete (← fields.required 0 "channels" decodeU16))]

def NegotiatedPortDto.document (port : NegotiatedPortDto) : Document :=
  .object [("native_id", encodeU32 port.nativeId), ("direction", .string port.direction.name), ("layout", port.layout.document),
    ("channel_offset", encodeU16 port.channelOffset)]

def NegotiatedPortDto.ofDocument (document : Document) : Option NegotiatedPortDto := do
  let fields ← parts document
  fields.within 4
  let nativeId ← fields.required 0 "native_id" decodeU32
  let direction ← fields.required 1 "direction" (decodeName PortDirectionDto.names)
  let layout ← fields.required 2 "layout" ChannelLayoutDto.ofDocument
  let channelOffset ← fields.required 3 "channel_offset" decodeU16
  return { nativeId, direction, layout, channelOffset }

def ScanRequestDto.document (request : ScanRequestDto) : Document :=
  .object [("request_id", encodeU64 request.requestId), ("candidate_path", .string request.candidatePath),
    ("timeout_millis", encodeU64 request.timeoutMillis), ("maximum_descriptors", encodeU32 request.maximumDescriptors),
    ("maximum_parameters_per_plugin", encodeU32 request.maximumParametersPerPlugin)]

def ScanRequestDto.ofDocument (document : Document) : Option ScanRequestDto := do
  let fields ← parts document
  fields.within 5
  let requestId ← fields.required 0 "request_id" decodeU64
  let candidatePath ← fields.required 1 "candidate_path" decodeString
  let timeoutMillis ← fields.required 2 "timeout_millis" decodeU64
  let maximumDescriptors ← fields.required 3 "maximum_descriptors" decodeU32
  let maximumParametersPerPlugin ← fields.required 4 "maximum_parameters_per_plugin" decodeU32
  return { requestId, candidatePath, timeoutMillis, maximumDescriptors, maximumParametersPerPlugin }

def SetParametersDto.document (request : SetParametersDto) : Document :=
  .object [("request_id", encodeU64 request.requestId), ("instance", request.token.document),
    ("values", .array (request.values.map ParameterValueDto.document))]

def SetParametersDto.ofDocument (document : Document) : Option SetParametersDto := do
  let fields ← parts document
  fields.within 3
  let requestId ← fields.required 0 "request_id" decodeU64
  let token ← fields.required 1 "instance" TokenDto.ofDocument
  let values ← fields.required 2 "values" (decodeList ParameterValueDto.ofDocument)
  return { requestId, token, values }

def SharedMemoryRegionDto.document (region : SharedMemoryRegionDto) : Document :=
  .object [("token", region.token.document), ("byte_len", encodeU64 region.byteLen), ("access", .string region.access.name)]

def SharedMemoryRegionDto.ofDocument (document : Document) : Option SharedMemoryRegionDto := do
  let fields ← parts document
  fields.within 3
  let token ← fields.required 0 "token" TokenDto.ofDocument
  let byteLen ← fields.required 1 "byte_len" decodeU64
  let access ← fields.required 2 "access" (decodeName SharedMemoryAccessDto.names)
  return { token, byteLen, access }

def SharedMemoryBindingDto.document (binding : SharedMemoryBindingDto) : Document :=
  .object [("instance", binding.token.document), ("audio_inputs", binding.audioInputs.document),
    ("audio_outputs", binding.audioOutputs.document), ("events_to_worker", binding.eventsToWorker.document),
    ("events_from_worker", binding.eventsFromWorker.document)]

def SharedMemoryBindingDto.ofDocument (document : Document) : Option SharedMemoryBindingDto := do
  let fields ← parts document
  fields.within 5
  let token ← fields.required 0 "instance" TokenDto.ofDocument
  let audioInputs ← fields.required 1 "audio_inputs" SharedMemoryRegionDto.ofDocument
  let audioOutputs ← fields.required 2 "audio_outputs" SharedMemoryRegionDto.ofDocument
  let eventsToWorker ← fields.required 3 "events_to_worker" SharedMemoryRegionDto.ofDocument
  let eventsFromWorker ← fields.required 4 "events_from_worker" SharedMemoryRegionDto.ofDocument
  return { token, audioInputs, audioOutputs, eventsToWorker, eventsFromWorker }

def SaveStateDto.document (request : SaveStateDto) : Document :=
  .object [("request_id", encodeU64 request.requestId), ("instance", request.token.document),
    ("maximum_bytes", encodeU64 request.maximumBytes), ("output_relative_path", .string request.outputRelativePath)]

def SaveStateDto.ofDocument (document : Document) : Option SaveStateDto := do
  let fields ← parts document
  fields.within 4
  let requestId ← fields.required 0 "request_id" decodeU64
  let token ← fields.required 1 "instance" TokenDto.ofDocument
  let maximumBytes ← fields.required 2 "maximum_bytes" decodeU64
  let outputRelativePath ← fields.required 3 "output_relative_path" decodeString
  return { requestId, token, maximumBytes, outputRelativePath }

def ParameterMappingDto.document : ParameterMappingDto → Document
  | .linear => .object [("kind", .string "linear")]
  | .logarithmic => .object [("kind", .string "logarithmic")]
  | .stepped steps => .object [("kind", .string "stepped"), ("steps", encodeU32 steps)]
  | .enumerated labels => .object [("kind", .string "enumerated"), ("labels", .array (labels.map Document.string))]

def ParameterMappingDto.ofDocument : Document → Option ParameterMappingDto :=
  tagged "kind" [("linear", unit .linear), ("logarithmic", unit .logarithmic),
    ("stepped", fun fields => do
      fields.within 1
      return .stepped (← fields.required 0 "steps" decodeU32)),
    ("enumerated", fun fields => do
      fields.within 1
      return .enumerated (← fields.required 0 "labels" (decodeList decodeString)))]

def ExecutionDto.document (execution : ExecutionDto) : Document :=
  .object [("realtime_safe_claimed", .bool execution.realtimeSafeClaimed), ("hard_realtime_required", .bool execution.hardRealtimeRequired),
    ("offline_processing", .bool execution.offlineProcessing), ("editor", .bool execution.editor), ("state", .bool execution.state),
    ("latency_reporting", .bool execution.latencyReporting), ("tail_reporting", .bool execution.tailReporting),
    ("determinism", .string execution.determinism.name)]

def ExecutionDto.ofDocument (document : Document) : Option ExecutionDto := do
  let fields ← parts document
  fields.within 8
  let realtimeSafeClaimed ← fields.required 0 "realtime_safe_claimed" decodeBool
  let hardRealtimeRequired ← fields.required 1 "hard_realtime_required" decodeBool
  let offlineProcessing ← fields.required 2 "offline_processing" decodeBool
  let editor ← fields.required 3 "editor" decodeBool
  let state ← fields.required 4 "state" decodeBool
  let latencyReporting ← fields.required 5 "latency_reporting" decodeBool
  let tailReporting ← fields.required 6 "tail_reporting" decodeBool
  let determinism ← fields.required 7 "determinism" (decodeName DeterminismDto.names)
  return { realtimeSafeClaimed, hardRealtimeRequired, offlineProcessing, editor, state, latencyReporting, tailReporting, determinism }

namespace Wire

def encodeNotes : Notes → Document := encodeMap (fun id => toString id.val) fun dialect => .string dialect.name

def decodeNotes : Document → Option Notes := decodeMap decodeKey (decodeName NoteDialectDto.names)

def ProcessingContractDto.document (contract : ProcessingContractDto) : Document :=
  .object [("sample_rate", encodeU32 contract.sampleRate), ("minimum_frames", encodeU32 contract.minimumFrames),
    ("maximum_frames", encodeU32 contract.maximumFrames), ("audio_ports", .array (contract.audioPorts.map NegotiatedPortDto.document)),
    ("note_inputs", encodeNotes contract.noteInputs), ("note_outputs", encodeNotes contract.noteOutputs),
    ("initial_latency_frames", encodeU32 contract.initialLatencyFrames), ("initial_tail", contract.initialTail.document),
    ("offline", .bool contract.offline)]

def ProcessingContractDto.ofDocument (document : Document) : Option ProcessingContractDto := do
  let fields ← parts document
  fields.within 9
  let sampleRate ← fields.required 0 "sample_rate" decodeU32
  let minimumFrames ← fields.required 1 "minimum_frames" decodeU32
  let maximumFrames ← fields.required 2 "maximum_frames" decodeU32
  let audioPorts ← fields.required 3 "audio_ports" (decodeList NegotiatedPortDto.ofDocument)
  let noteInputs ← fields.required 4 "note_inputs" decodeNotes
  let noteOutputs ← fields.required 5 "note_outputs" decodeNotes
  let initialLatencyFrames ← fields.required 6 "initial_latency_frames" decodeU32
  let initialTail ← fields.required 7 "initial_tail" TailDto.ofDocument
  let offline ← fields.required 8 "offline" decodeBool
  return { sampleRate, minimumFrames, maximumFrames, audioPorts, noteInputs, noteOutputs, initialLatencyFrames, initialTail, offline }

def StateArtifactDto.document (state : StateArtifactDto) : Document :=
  .object [("plugin", state.plugin.document), ("state_format_version", encodeU32 state.stateFormatVersion), ("sha256", .string state.sha256),
    ("byte_len", encodeU64 state.byteLen), ("relative_path", .string state.relativePath)]

def StateArtifactDto.ofDocument (document : Document) : Option StateArtifactDto := do
  let fields ← parts document
  fields.within 5
  let plugin ← fields.required 0 "plugin" PluginKeyDto.ofDocument
  let stateFormatVersion ← fields.required 1 "state_format_version" decodeU32
  let sha256 ← fields.required 2 "sha256" decodeString
  let byteLen ← fields.required 3 "byte_len" decodeU64
  let relativePath ← fields.required 4 "relative_path" decodeString
  return { plugin, stateFormatVersion, sha256, byteLen, relativePath }

def encodeArchitectures : Ranked ArchitectureDto.rank → Document := encodeSet fun architecture => .string architecture.name

def decodeArchitectures : Document → Option (Ranked ArchitectureDto.rank) := decodeSet (decodeName ArchitectureDto.names)

def ArtifactDto.document (artifact : ArtifactDto) : Document :=
  .object [("sha256", .string artifact.sha256), ("byte_len", encodeU64 artifact.byteLen),
    ("architectures", encodeArchitectures artifact.architectures)]

def ArtifactDto.ofDocument (document : Document) : Option ArtifactDto := do
  let fields ← parts document
  fields.within 3
  let sha256 ← fields.required 0 "sha256" decodeString
  let byteLen ← fields.required 1 "byte_len" decodeU64
  let architectures ← fields.required 2 "architectures" decodeArchitectures
  return { sha256, byteLen, architectures }

def ArtifactGrantDto.document (grant : ArtifactGrantDto) : Document :=
  .object [("canonical_path", .string grant.canonicalPath), ("fingerprint", grant.fingerprint.document)]

def ArtifactGrantDto.ofDocument (document : Document) : Option ArtifactGrantDto := do
  let fields ← parts document
  fields.within 2
  let canonicalPath ← fields.required 0 "canonical_path" decodeString
  let fingerprint ← fields.required 1 "fingerprint" ArtifactDto.ofDocument
  return { canonicalPath, fingerprint }

def InstantiateDto.document (request : InstantiateDto) : Document :=
  .object ([("request_id", encodeU64 request.requestId), ("instance", request.token.document),
    ("artifact_lease", request.artifactLease.document), ("plugin", request.plugin.document), ("contract", request.contract.document)] ++
    skipped "artifact" ArtifactGrantDto.document (skipped "state" StateArtifactDto.document [] request.state) request.artifact)

def InstantiateDto.ofDocument (document : Document) : Option InstantiateDto := do
  let fields ← parts document
  fields.within 7
  let requestId ← fields.required 0 "request_id" decodeU64
  let token ← fields.required 1 "instance" TokenDto.ofDocument
  let artifactLease ← fields.required 2 "artifact_lease" TokenDto.ofDocument
  let plugin ← fields.required 3 "plugin" PluginKeyDto.ofDocument
  let contract ← fields.required 4 "contract" ProcessingContractDto.ofDocument
  let artifact ← fields.defaulted 5 "artifact" ArtifactGrantDto.ofDocument
  let state ← fields.defaulted 6 "state" StateArtifactDto.ofDocument
  return { requestId, token, artifactLease, plugin, contract, artifact, state }

def CapabilitiesDto.document (report : CapabilitiesDto) : Document :=
  .object [("worker_name", .string report.workerName), ("worker_version", .string report.workerVersion),
    ("worker_build_sha256", .string report.workerBuildSha256), ("formats", encodeSet (fun format => .string format.name) report.formats),
    ("architectures", encodeArchitectures report.architectures), ("scanning", .bool report.scanning), ("realtime", .bool report.realtime),
    ("offline", .bool report.offline), ("shared_memory", .bool report.sharedMemory), ("maximum_instances", encodeU16 report.maximumInstances)]

def CapabilitiesDto.ofDocument (document : Document) : Option CapabilitiesDto := do
  let fields ← parts document
  fields.within 10
  let workerName ← fields.required 0 "worker_name" decodeString
  let workerVersion ← fields.required 1 "worker_version" decodeString
  let workerBuildSha256 ← fields.required 2 "worker_build_sha256" decodeString
  let formats ← fields.required 3 "formats" (decodeSet (decodeName FormatDto.names))
  let architectures ← fields.required 4 "architectures" decodeArchitectures
  let scanning ← fields.required 5 "scanning" decodeBool
  let realtime ← fields.required 6 "realtime" decodeBool
  let offline ← fields.required 7 "offline" decodeBool
  let sharedMemory ← fields.required 8 "shared_memory" decodeBool
  let maximumInstances ← fields.required 9 "maximum_instances" decodeU16
  return { workerName, workerVersion, workerBuildSha256, formats, architectures, scanning, realtime, offline, sharedMemory, maximumInstances }

def ScannerDto.document (scanner : ScannerDto) : Document :=
  .object [("name", .string scanner.name), ("version", .string scanner.version), ("build_sha256", .string scanner.buildSha256),
    ("host_os", .string scanner.hostOs), ("host_architecture", .string scanner.hostArchitecture.name),
    ("hash_algorithm", .string scanner.hashAlgorithm)]

def ScannerDto.ofDocument (document : Document) : Option ScannerDto := do
  let fields ← parts document
  fields.within 6
  let name ← fields.required 0 "name" decodeString
  let version ← fields.required 1 "version" decodeString
  let buildSha256 ← fields.required 2 "build_sha256" decodeString
  let hostOs ← fields.required 3 "host_os" decodeString
  let hostArchitecture ← fields.required 4 "host_architecture" (decodeName ArchitectureDto.names)
  let hashAlgorithm ← fields.required 5 "hash_algorithm" decodeString
  return { name, version, buildSha256, hostOs, hostArchitecture, hashAlgorithm }

def AudioPortDto.document (port : AudioPortDto) : Document :=
  .object [("native_id", encodeU32 port.nativeId), ("name", .string port.name), ("direction", .string port.direction.name),
    ("role", .string port.role.name), ("layouts", .array (port.layouts.map ChannelLayoutDto.document)), ("required", .bool port.required)]

def AudioPortDto.ofDocument (document : Document) : Option AudioPortDto := do
  let fields ← parts document
  fields.within 6
  let nativeId ← fields.required 0 "native_id" decodeU32
  let name ← fields.required 1 "name" decodeString
  let direction ← fields.required 2 "direction" (decodeName PortDirectionDto.names)
  let role ← fields.required 3 "role" (decodeName AudioPortRoleDto.names)
  let layouts ← fields.required 4 "layouts" (decodeList ChannelLayoutDto.ofDocument)
  let required ← fields.required 5 "required" decodeBool
  return { nativeId, name, direction, role, layouts, required }

def NotePortDto.document (port : NotePortDto) : Document :=
  .object ([("native_id", encodeU32 port.nativeId), ("name", .string port.name), ("direction", .string port.direction.name),
    ("dialects", encodeSet (fun dialect => .string dialect.name) port.dialects)] ++
    skipped "preferred" (fun dialect => .string dialect.name) [] port.preferred)

def NotePortDto.ofDocument (document : Document) : Option NotePortDto := do
  let fields ← parts document
  fields.within 5
  let nativeId ← fields.required 0 "native_id" decodeU32
  let name ← fields.required 1 "name" decodeString
  let direction ← fields.required 2 "direction" (decodeName PortDirectionDto.names)
  let dialects ← fields.required 3 "dialects" (decodeSet (decodeName NoteDialectDto.names))
  let preferred ← fields.defaulted 4 "preferred" (decodeName NoteDialectDto.names)
  return { nativeId, name, direction, dialects, preferred }

def ParameterDescriptorDto.document (parameter : ParameterDescriptorDto) : Document :=
  .object ([("key", parameter.key.document), ("name", .string parameter.name)] ++ skipped "module" .string (skipped "unit" .string
    [("plain_min", encodeF64 parameter.plainMin), ("plain_max", encodeF64 parameter.plainMax),
      ("plain_default", encodeF64 parameter.plainDefault), ("mapping", parameter.mapping.document), ("automatable", .bool parameter.automatable),
      ("modulatable", .bool parameter.modulatable), ("read_only", .bool parameter.readOnly), ("hidden", .bool parameter.hidden)]
    parameter.unit) parameter.module)

def ParameterDescriptorDto.ofDocument (document : Document) : Option ParameterDescriptorDto := do
  let fields ← parts document
  fields.within 12
  let key ← fields.required 0 "key" ParameterKeyDto.ofDocument
  let name ← fields.required 1 "name" decodeString
  let module ← fields.defaulted 2 "module" decodeString
  let unit ← fields.defaulted 3 "unit" decodeString
  let plainMin ← fields.required 4 "plain_min" decodeF64
  let plainMax ← fields.required 5 "plain_max" decodeF64
  let plainDefault ← fields.required 6 "plain_default" decodeF64
  let mapping ← fields.required 7 "mapping" ParameterMappingDto.ofDocument
  let automatable ← fields.required 8 "automatable" decodeBool
  let modulatable ← fields.required 9 "modulatable" decodeBool
  let readOnly ← fields.required 10 "read_only" decodeBool
  let hidden ← fields.required 11 "hidden" decodeBool
  return { key, name, module, unit, plainMin, plainMax, plainDefault, mapping, automatable, modulatable, readOnly, hidden }

def PluginDescriptorDto.document (plugin : PluginDescriptorDto) : Document :=
  .object [("key", plugin.key.document), ("name", .string plugin.name), ("vendor", encodeOption .string plugin.vendor),
    ("version", encodeOption .string plugin.version), ("description", encodeOption .string plugin.description),
    ("homepage", encodeOption .string plugin.homepage), ("features", encodeSet .string plugin.features),
    ("roles", encodeSet (fun role => .string role.name) plugin.roles), ("audio_ports", .array (plugin.audioPorts.map AudioPortDto.document)),
    ("note_ports", .array (plugin.notePorts.map NotePortDto.document)),
    ("parameters", .array (plugin.parameters.map ParameterDescriptorDto.document)), ("execution", plugin.execution.document)]

def PluginDescriptorDto.ofDocument (document : Document) : Option PluginDescriptorDto := do
  let fields ← parts document
  fields.within 12
  let key ← fields.required 0 "key" PluginKeyDto.ofDocument
  let name ← fields.required 1 "name" decodeString
  let vendor ← fields.optional 2 "vendor" decodeString
  let version ← fields.optional 3 "version" decodeString
  let description ← fields.optional 4 "description" decodeString
  let homepage ← fields.optional 5 "homepage" decodeString
  let features ← fields.required 6 "features" (decodeSet decodeString)
  let roles ← fields.required 7 "roles" (decodeSet (decodeName RoleDto.names))
  let audioPorts ← fields.required 8 "audio_ports" (decodeList AudioPortDto.ofDocument)
  let notePorts ← fields.required 9 "note_ports" (decodeList NotePortDto.ofDocument)
  let parameters ← fields.required 10 "parameters" (decodeList ParameterDescriptorDto.ofDocument)
  let execution ← fields.required 11 "execution" ExecutionDto.ofDocument
  return { key, name, vendor, version, description, homepage, features, roles, audioPorts, notePorts, parameters, execution }

def ScanRecordDto.document (record : ScanRecordDto) : Document :=
  .object [("schema_version", encodeU32 record.schemaVersion), ("canonical_path", .string record.canonicalPath),
    ("artifact", record.artifact.document), ("scanner", record.scanner.document),
    ("plugins", .array (record.plugins.map PluginDescriptorDto.document))]

def ScanRecordDto.ofDocument (document : Document) : Option ScanRecordDto := do
  let fields ← parts document
  fields.within 5
  let schemaVersion ← fields.required 0 "schema_version" decodeU32
  let canonicalPath ← fields.required 1 "canonical_path" decodeString
  let artifact ← fields.required 2 "artifact" ArtifactDto.ofDocument
  let scanner ← fields.required 3 "scanner" ScannerDto.ofDocument
  let plugins ← fields.required 4 "plugins" (decodeList PluginDescriptorDto.ofDocument)
  return { schemaVersion, canonicalPath, artifact, scanner, plugins }

def ScanFailureDto.document (failure : ScanFailureDto) : Document :=
  .object [("kind", .string failure.kind.name), ("detail", .string failure.detail), ("scanner", failure.scanner.document)]

def ScanFailureDto.ofDocument (document : Document) : Option ScanFailureDto := do
  let fields ← parts document
  fields.within 3
  let kind ← fields.required 0 "kind" (decodeName ScanFailureKindDto.names)
  let detail ← fields.required 1 "detail" decodeString
  let scanner ← fields.required 2 "scanner" ScannerDto.ofDocument
  return { kind, detail, scanner }

def RuntimeFailureDto.document (failure : RuntimeFailureDto) : Document :=
  .object [("request_id", encodeOption encodeU64 failure.requestId), ("instance", encodeOption TokenDto.document failure.token),
    ("kind", .string failure.kind.name), ("recoverable", .bool failure.recoverable), ("detail", .string failure.detail)]

def RuntimeFailureDto.ofDocument (document : Document) : Option RuntimeFailureDto := do
  let fields ← parts document
  fields.within 5
  let requestId ← fields.optional 0 "request_id" decodeU64
  let token ← fields.optional 1 "instance" TokenDto.ofDocument
  let kind ← fields.required 2 "kind" (decodeName RuntimeFailureKindDto.names)
  let recoverable ← fields.required 3 "recoverable" decodeBool
  let detail ← fields.required 4 "detail" decodeString
  return { requestId, token, kind, recoverable, detail }

def Message.fields : Message → Fields
  | .hello => [("kind", .string "hello")]
  | .capabilities report => [("kind", .string "capabilities"), ("capabilities", report.document)]
  | .scan request => [("kind", .string "scan"), ("request", request.document)]
  | .scanReady requestId record => [("kind", .string "scan_ready"), ("request_id", encodeU64 requestId), ("record", record.document)]
  | .scanFailed requestId failure => [("kind", .string "scan_failed"), ("request_id", encodeU64 requestId), ("failure", failure.document)]
  | .instantiate request => [("kind", .string "instantiate"), ("request", request.document)]
  | .instantiated requestId token latencyFrames tail => [("kind", .string "instantiated"), ("request_id", encodeU64 requestId),
      ("instance", token.document), ("latency_frames", encodeU32 latencyFrames), ("tail", tail.document)]
  | .bindSharedMemory binding => [("kind", .string "bind_shared_memory"), ("binding", binding.document)]
  | .bound token => [("kind", .string "bound"), ("instance", token.document)]
  | .activate token => [("kind", .string "activate"), ("instance", token.document)]
  | .activated token => [("kind", .string "activated"), ("instance", token.document)]
  | .setParameters request => [("kind", .string "set_parameters"), ("request", request.document)]
  | .parametersSet requestId token => [("kind", .string "parameters_set"), ("request_id", encodeU64 requestId), ("instance", token.document)]
  | .process token processSequence frames inputEventCount => [("kind", .string "process"), ("instance", token.document),
      ("process_sequence", encodeU64 processSequence), ("frames", encodeU32 frames), ("input_event_count", encodeU32 inputEventCount)]
  | .processed token processSequence outputEventCount => [("kind", .string "processed"), ("instance", token.document),
      ("process_sequence", encodeU64 processSequence), ("output_event_count", encodeU32 outputEventCount)]
  | .saveState request => [("kind", .string "save_state"), ("request", request.document)]
  | .stateSaved requestId state => [("kind", .string "state_saved"), ("request_id", encodeU64 requestId), ("state", state.document)]
  | .latencyChanged token frames => [("kind", .string "latency_changed"), ("instance", token.document), ("frames", encodeU32 frames)]
  | .tailChanged token tail => [("kind", .string "tail_changed"), ("instance", token.document), ("tail", tail.document)]
  | .deactivate token => [("kind", .string "deactivate"), ("instance", token.document)]
  | .deactivated token => [("kind", .string "deactivated"), ("instance", token.document)]
  | .destroy token => [("kind", .string "destroy"), ("instance", token.document)]
  | .destroyed token => [("kind", .string "destroyed"), ("instance", token.document)]
  | .error failure => [("kind", .string "error"), ("failure", failure.document)]
  | .shutdown => [("kind", .string "shutdown")]

def single {α : Type} (name : String) (decode : Document → Option α) (message : α → Message) (fields : Parts) : Option Message := do
  fields.within 1
  return message (← fields.required 0 name decode)

def answer {α : Type} (name : String) (decode : Document → Option α) (message : U64 → α → Message) (fields : Parts) : Option Message := do
  fields.within 2
  let requestId ← fields.required 0 "request_id" decodeU64
  return message requestId (← fields.required 1 name decode)

def change {α : Type} (name : String) (decode : Document → Option α) (message : TokenDto → α → Message) (fields : Parts) : Option Message := do
  fields.within 2
  let token ← fields.required 0 "instance" TokenDto.ofDocument
  return message token (← fields.required 1 name decode)

def Message.variants : List (String × (Parts → Option Message)) := [
  ("hello", unit .hello),
  ("capabilities", single "capabilities" CapabilitiesDto.ofDocument .capabilities),
  ("scan", single "request" ScanRequestDto.ofDocument .scan),
  ("scan_ready", answer "record" ScanRecordDto.ofDocument .scanReady),
  ("scan_failed", answer "failure" ScanFailureDto.ofDocument .scanFailed),
  ("instantiate", single "request" InstantiateDto.ofDocument .instantiate),
  ("instantiated", fun fields => do
    fields.within 4
    let requestId ← fields.required 0 "request_id" decodeU64
    let token ← fields.required 1 "instance" TokenDto.ofDocument
    let latencyFrames ← fields.required 2 "latency_frames" decodeU32
    let tail ← fields.required 3 "tail" TailDto.ofDocument
    return .instantiated requestId token latencyFrames tail),
  ("bind_shared_memory", single "binding" SharedMemoryBindingDto.ofDocument .bindSharedMemory),
  ("bound", single "instance" TokenDto.ofDocument .bound),
  ("activate", single "instance" TokenDto.ofDocument .activate),
  ("activated", single "instance" TokenDto.ofDocument .activated),
  ("set_parameters", single "request" SetParametersDto.ofDocument .setParameters),
  ("parameters_set", answer "instance" TokenDto.ofDocument .parametersSet),
  ("process", fun fields => do
    fields.within 4
    let token ← fields.required 0 "instance" TokenDto.ofDocument
    let processSequence ← fields.required 1 "process_sequence" decodeU64
    let frames ← fields.required 2 "frames" decodeU32
    let inputEventCount ← fields.required 3 "input_event_count" decodeU32
    return .process token processSequence frames inputEventCount),
  ("processed", fun fields => do
    fields.within 3
    let token ← fields.required 0 "instance" TokenDto.ofDocument
    let processSequence ← fields.required 1 "process_sequence" decodeU64
    let outputEventCount ← fields.required 2 "output_event_count" decodeU32
    return .processed token processSequence outputEventCount),
  ("save_state", single "request" SaveStateDto.ofDocument .saveState),
  ("state_saved", answer "state" StateArtifactDto.ofDocument .stateSaved),
  ("latency_changed", change "frames" decodeU32 .latencyChanged),
  ("tail_changed", change "tail" TailDto.ofDocument .tailChanged),
  ("deactivate", single "instance" TokenDto.ofDocument .deactivate),
  ("deactivated", single "instance" TokenDto.ofDocument .deactivated),
  ("destroy", single "instance" TokenDto.ofDocument .destroy),
  ("destroyed", single "instance" TokenDto.ofDocument .destroyed),
  ("error", single "failure" RuntimeFailureDto.ofDocument .error),
  ("shutdown", unit .shutdown)]

def Message.ofFields (fields : Fields) : Option Message := tagged "kind" Message.variants (.object fields)

def Envelope.document (envelope : Envelope) : Document :=
  .object ([("protocol_version", encodeU32 envelope.protocolVersion), ("sequence", encodeU64 envelope.sequence)] ++ envelope.message.fields)

def Envelope.known : List String := ["protocol_version", "sequence"]

def Envelope.ofDocument : Document → Option Envelope
  | .object fields => do
    let protocolVersion ← field fields "protocol_version" decodeU32
    let sequence ← field fields "sequence" decodeU64
    let message ← Message.ofFields (others Envelope.known fields)
    return { protocolVersion, sequence, message }
  | _ => none

structure Json where
  print : Document → String
  parse : String → Option Document

structure Json.Exact (json : Json) (document : Document) : Prop where
  parsed : json.parse (json.print document) = some document
  line : '\n' ∉ (json.print document).toList ∧ '\x0d' ∉ (json.print document).toList

inductive JsonlError where
  | decode
  | wire (error : WireError)

namespace Envelope

def toJsonl (json : Json) (envelope : Envelope) : Except JsonlError String := do
  envelope.validate.mapError .wire
  return json.print envelope.document ++ "\n"

def fromJsonl (json : Json) (line : String) : Except JsonlError Envelope := do
  Checked.ensure ('\n' ∉ line.toList ∧ '\x0d' ∉ line.toList) (.wire (.malformed "expected exactly one JSONL record"))
  let envelope ← ((json.parse line).bind ofDocument).elim (.error .decode) .ok
  envelope.validate.mapError .wire
  return envelope

end Envelope

end Wire

end Audec.PluginWire

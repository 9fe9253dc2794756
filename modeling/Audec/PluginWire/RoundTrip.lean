import Audec.PluginWire.Jsonl

/-! Every field of every message survives the wire, but notes. -/

open Machine Documents Buffered Checked Option
open Std (ExtTreeMap)

namespace Audec.PluginWire

open SharedMemoryBindingDto ParameterDescriptorDto SharedMemoryRegionDto ProcessingContractDto

section Names

@[simp] theorem FormatDto.decode (format : FormatDto) : decodeName FormatDto.names (.string format.name) = some format := by
  cases format <;> rfl

@[simp] theorem ArchitectureDto.decode (architecture : ArchitectureDto) :
    decodeName ArchitectureDto.names (.string architecture.name) = some architecture := by
  cases architecture <;> rfl

@[simp] theorem PortDirectionDto.decode (direction : PortDirectionDto) :
    decodeName PortDirectionDto.names (.string direction.name) = some direction := by
  cases direction <;> rfl

@[simp] theorem NoteDialectDto.decode (dialect : NoteDialectDto) : decodeName NoteDialectDto.names (.string dialect.name) = some dialect := by
  cases dialect <;> rfl

@[simp] theorem SharedMemoryAccessDto.decode (access : SharedMemoryAccessDto) :
    decodeName SharedMemoryAccessDto.names (.string access.name) = some access := by
  cases access <;> rfl

@[simp] theorem RoleDto.decode (role : RoleDto) : decodeName RoleDto.names (.string role.name) = some role := by
  cases role <;> rfl

@[simp] theorem AudioPortRoleDto.decode (role : AudioPortRoleDto) : decodeName AudioPortRoleDto.names (.string role.name) = some role := by
  cases role <;> rfl

@[simp] theorem DeterminismDto.decode (determinism : DeterminismDto) :
    decodeName DeterminismDto.names (.string determinism.name) = some determinism := by
  cases determinism <;> rfl

@[simp] theorem ScanFailureKindDto.decode (kind : ScanFailureKindDto) : decodeName ScanFailureKindDto.names (.string kind.name) = some kind := by
  cases kind <;> rfl

@[simp] theorem RuntimeFailureKindDto.decode (kind : RuntimeFailureKindDto) :
    decodeName RuntimeFailureKindDto.names (.string kind.name) = some kind := by
  cases kind <;> rfl

end Names

@[simp] theorem TokenDto.decode (token : TokenDto) : TokenDto.ofDocument token.document = some token := rfl

@[simp] theorem PluginKeyDto.decode (key : PluginKeyDto) : PluginKeyDto.ofDocument key.document = some key := by
  simp [-bind_eq_bind, PluginKeyDto.ofDocument, PluginKeyDto.document]

@[simp] theorem ParameterKeyDto.decode (key : ParameterKeyDto) : ParameterKeyDto.ofDocument key.document = some key := by
  unfold ParameterKeyDto.ofDocument
  cases key with
  | clap id =>
    refine (tagged_object (by simp) rfl).trans ?_
    simp
  | vst3 idHex =>
    refine (tagged_object (by simp) rfl).trans ?_
    simp

theorem ParameterValueDto.decode {value : ParameterValueDto} (finite : value.normalized.isFinite = true) :
    ParameterValueDto.ofDocument value.document = some value := by
  simp [-bind_eq_bind, ParameterValueDto.ofDocument, ParameterValueDto.document, decodeF64_encode finite]

@[simp] theorem TailDto.decode (tail : TailDto) : TailDto.ofDocument tail.document = some tail := by
  unfold TailDto.ofDocument
  cases tail with
  | none => exact (tagged_object named_nil rfl).trans (unit_named _)
  | finiteFrames frames =>
    refine (tagged_object (by simp) rfl).trans ?_
    simp
  | infinite => exact (tagged_object named_nil rfl).trans (unit_named _)
  | unknown => exact (tagged_object named_nil rfl).trans (unit_named _)

@[simp] theorem ChannelLayoutDto.decode (layout : ChannelLayoutDto) : ChannelLayoutDto.ofDocument layout.document = some layout := by
  unfold ChannelLayoutDto.ofDocument
  cases layout with
  | mono => exact (tagged_object named_nil rfl).trans (unit_named _)
  | stereo => exact (tagged_object named_nil rfl).trans (unit_named _)
  | discrete channels =>
    refine (tagged_object (by simp) rfl).trans ?_
    simp

@[simp] theorem decode_labels (labels : List String) : decodeList decodeString (.array (labels.map Document.string)) = some labels :=
  decodeList_encode fun _ _ => rfl

@[simp] theorem ParameterMappingDto.decode (mapping : ParameterMappingDto) : ParameterMappingDto.ofDocument mapping.document = some mapping := by
  unfold ParameterMappingDto.ofDocument
  cases mapping with
  | linear => exact (tagged_object named_nil rfl).trans (unit_named _)
  | logarithmic => exact (tagged_object named_nil rfl).trans (unit_named _)
  | stepped steps =>
    refine (tagged_object (by simp) rfl).trans ?_
    simp
  | enumerated labels =>
    refine (tagged_object (by simp) rfl).trans ?_
    simp

@[simp] theorem NegotiatedPortDto.decode (port : NegotiatedPortDto) : NegotiatedPortDto.ofDocument port.document = some port := by
  simp [-bind_eq_bind, NegotiatedPortDto.ofDocument, NegotiatedPortDto.document]

@[simp] theorem ScanRequestDto.decode (request : ScanRequestDto) : ScanRequestDto.ofDocument request.document = some request := by
  simp [-bind_eq_bind, ScanRequestDto.ofDocument, ScanRequestDto.document]

theorem SetParametersDto.decode {request : SetParametersDto} (finite : ∀ value ∈ request.values, value.normalized.isFinite = true) :
    SetParametersDto.ofDocument request.document = some request := by
  have values := decodeList_encode fun value member => ParameterValueDto.decode (finite value member)
  simp [-bind_eq_bind, SetParametersDto.ofDocument, SetParametersDto.document, values]

@[simp] theorem SharedMemoryRegionDto.decode (region : SharedMemoryRegionDto) :
    ofDocument region.document = some region := by
  simp [-bind_eq_bind, ofDocument, document]

@[simp] theorem SharedMemoryBindingDto.decode (binding : SharedMemoryBindingDto) :
    ofDocument binding.document = some binding := by
  simp [-bind_eq_bind, ofDocument, document]

@[simp] theorem SaveStateDto.decode (request : SaveStateDto) : SaveStateDto.ofDocument request.document = some request := by
  simp [-bind_eq_bind, SaveStateDto.ofDocument, SaveStateDto.document]

@[simp] theorem ExecutionDto.decode (execution : ExecutionDto) : ExecutionDto.ofDocument execution.document = some execution := by
  simp [-bind_eq_bind, ExecutionDto.ofDocument, ExecutionDto.document]

namespace Wire

@[simp] theorem decodeNotes_empty : decodeNotes (encodeNotes ∅) = some ∅ := rfl

variable {document : Document} {name : String} {α : Type}

theorem decodeNotes_some {notes : Notes} (read : decodeNotes document = some notes) : notes = ∅ := by
  unfold decodeNotes decodeMap at read
  cases document with
  | object fields =>
    cases fields with
    | nil =>
      cases read
      rfl
    | cons field fields => cases read
  | _ => cases read

/-- No notes go either way. -/
structure ProcessingContractDto.Noteless (contract : ProcessingContractDto) : Prop where
  inputs : contract.noteInputs = ∅
  outputs : contract.noteOutputs = ∅

theorem ProcessingContractDto.decode {contract : ProcessingContractDto} (noteless : contract.Noteless) :
    ofDocument contract.document = some contract := by
  have ports := decodeList_encode fun port (_ : port ∈ contract.audioPorts) => port.decode
  obtain ⟨checked, _, _, latency, tail, offline⟩ := contract
  obtain ⟨rfl, rfl⟩ := noteless
  simp [-bind_eq_bind, ofDocument, document, ports]

@[simp] theorem StateArtifactDto.decode (state : StateArtifactDto) : StateArtifactDto.ofDocument state.document = some state := by
  simp [-bind_eq_bind, StateArtifactDto.ofDocument, StateArtifactDto.document]

@[simp] theorem decodeArchitectures_encode (architectures : Ranked ArchitectureDto.rank) :
    decodeArchitectures (encodeArchitectures architectures) = some architectures := decodeSet_encode ArchitectureDto.decode architectures

@[simp] theorem ArtifactDto.decode (artifact : ArtifactDto) : ArtifactDto.ofDocument artifact.document = some artifact := by
  simp [-bind_eq_bind, ArtifactDto.ofDocument, ArtifactDto.document]

@[simp] theorem ArtifactGrantDto.decode (grant : ArtifactGrantDto) : ArtifactGrantDto.ofDocument grant.document = some grant := by
  simp [-bind_eq_bind, ArtifactGrantDto.ofDocument, ArtifactGrantDto.document]

theorem InstantiateDto.decode {request : InstantiateDto} (noteless : request.contract.Noteless) :
    InstantiateDto.ofDocument request.document = some request := by
  have state := @fieldOr_skipped _ [] "state" _ _ StateArtifactDto.decode (fun _ same => by cases same) request.state (by simp)
  have artifact := fun fields => @fieldOr_skipped _ fields "artifact" _ _ ArtifactGrantDto.decode (fun _ same => by cases same) request.artifact
  simp [-bind_eq_bind, InstantiateDto.ofDocument, InstantiateDto.document, ProcessingContractDto.decode noteless, state, artifact]

@[simp] theorem CapabilitiesDto.decode (report : CapabilitiesDto) : CapabilitiesDto.ofDocument report.document = some report := by
  simp [-bind_eq_bind, CapabilitiesDto.ofDocument, CapabilitiesDto.document]

@[simp] theorem ScannerDto.decode (scanner : ScannerDto) : ScannerDto.ofDocument scanner.document = some scanner := by
  simp [-bind_eq_bind, ScannerDto.ofDocument, ScannerDto.document]

@[simp] theorem AudioPortDto.decode (port : AudioPortDto) : AudioPortDto.ofDocument port.document = some port := by
  have layouts := decodeList_encode fun layout (_ : layout ∈ port.layouts) => layout.decode
  simp [-bind_eq_bind, AudioPortDto.ofDocument, AudioPortDto.document, layouts]

@[simp] theorem NotePortDto.decode (port : NotePortDto) : NotePortDto.ofDocument port.document = some port := by
  have preferred := @fieldOr_skipped _ [] "preferred" _ _ NoteDialectDto.decode (fun _ same => by cases same) port.preferred (by simp)
  simp [-bind_eq_bind, NotePortDto.ofDocument, NotePortDto.document, preferred]

def ParameterDescriptorDto.FiniteValues (parameter : ParameterDescriptorDto) : Prop :=
  parameter.plainMin.isFinite = true ∧ parameter.plainMax.isFinite = true ∧ parameter.plainDefault.isFinite = true

theorem decodeOption_text (text : Option String) : decodeOption decodeString (encodeOption .string text) = some text :=
  @decodeOption_encode _ decodeString .string decodeString_string (fun _ same => by cases same) text

theorem ParameterDescriptorDto.decode {parameter : ParameterDescriptorDto} (finite : parameter.FiniteValues) :
    ofDocument parameter.document = some parameter := by
  obtain ⟨least, greatest, initial⟩ := finite
  have text := fun name fields => @fieldOr_skipped _ fields name _ _ decodeString_string (fun _ same => by cases same)
  simp [-bind_eq_bind, ofDocument, document, text, decodeF64_encode least, decodeF64_encode greatest,
    decodeF64_encode initial]

theorem PluginDescriptorDto.decode {plugin : PluginDescriptorDto} (finite : ∀ parameter ∈ plugin.parameters, parameter.FiniteValues) :
    PluginDescriptorDto.ofDocument plugin.document = some plugin := by
  have features := decodeSet_encode decodeString_string plugin.features
  have audio := decodeList_encode fun port (_ : port ∈ plugin.audioPorts) => port.decode
  have notes := decodeList_encode fun port (_ : port ∈ plugin.notePorts) => port.decode
  have parameters := decodeList_encode fun parameter member => ParameterDescriptorDto.decode (finite parameter member)
  simp [-bind_eq_bind, PluginDescriptorDto.ofDocument, PluginDescriptorDto.document, decodeOption_text, features, audio, notes, parameters]

def ScanRecordDto.FiniteValues (record : ScanRecordDto) : Prop := ∀ plugin ∈ record.plugins, ∀ parameter ∈ plugin.parameters, parameter.FiniteValues

theorem ScanRecordDto.decode {record : ScanRecordDto} (finite : record.FiniteValues) : ScanRecordDto.ofDocument record.document = some record := by
  have plugins := decodeList_encode fun plugin member => PluginDescriptorDto.decode (finite plugin member)
  simp [-bind_eq_bind, ScanRecordDto.ofDocument, ScanRecordDto.document, plugins]

@[simp] theorem ScanFailureDto.decode (failure : ScanFailureDto) : ScanFailureDto.ofDocument failure.document = some failure := by
  simp [-bind_eq_bind, ScanFailureDto.ofDocument, ScanFailureDto.document]

@[simp] theorem RuntimeFailureDto.decode (failure : RuntimeFailureDto) : RuntimeFailureDto.ofDocument failure.document = some failure := by
  have requestId := decodeOption_encode decodeU64_encode (fun _ same => by cases same) failure.requestId
  have token := decodeOption_encode TokenDto.decode (fun _ same => by cases same) failure.token
  simp [-bind_eq_bind, RuntimeFailureDto.ofDocument, RuntimeFailureDto.document, requestId, token]

def Message.FiniteValues : Message → Prop
  | .scanReady _ record => record.FiniteValues
  | .setParameters request => ∀ value ∈ request.values, value.normalized.isFinite = true
  | _ => True

def Message.Noteless : Message → Prop
  | .instantiate request => request.contract.Noteless
  | _ => True

variable {decoder : Document → Option α} {value : α}

theorem single_named (message : α → Message) (read : decoder document = some value) : single name decoder message (.named [(name, document)]) = some (message value) := by
  simp [single, read]

theorem answer_named {requestId : U64} (message : U64 → α → Message) (read : decoder document = some value) (other : "request_id" ≠ name) :
    answer name decoder message (.named [("request_id", encodeU64 requestId), (name, document)]) = some (message requestId value) := by
  simp [answer, read, other, other.symm]

theorem change_named {token : TokenDto} (message : TokenDto → α → Message) (read : decoder document = some value) (other : "instance" ≠ name) :
    change name decoder message (.named [("instance", token.document), (name, document)]) = some (message token value) := by
  simp [change, read, other, other.symm]

theorem Message.decode {message : Message} (finite : message.FiniteValues) (noteless : message.Noteless) :
    Message.ofFields message.fields = some message := by
  unfold Message.ofFields
  cases message with
  | hello => exact (tagged_object named_nil rfl).trans (unit_named _)
  | capabilities report => exact (tagged_object (by simp) rfl).trans (single_named _ report.decode)
  | scan request => exact (tagged_object (by simp) rfl).trans (single_named _ request.decode)
  | scanReady requestId record => exact (tagged_object (by simp) rfl).trans (answer_named _ (ScanRecordDto.decode finite) (by decide))
  | scanFailed requestId failure => exact (tagged_object (by simp) rfl).trans (answer_named _ failure.decode (by decide))
  | instantiate request => exact (tagged_object (by simp) rfl).trans (single_named _ (InstantiateDto.decode noteless))
  | instantiated requestId token latencyFrames tail =>
    refine (tagged_object (by simp) rfl).trans ?_
    simp [-bind_eq_bind]
  | bindSharedMemory binding => exact (tagged_object (by simp) rfl).trans (single_named _ binding.decode)
  | bound token => exact (tagged_object (by simp) rfl).trans (single_named _ token.decode)
  | activate token => exact (tagged_object (by simp) rfl).trans (single_named _ token.decode)
  | activated token => exact (tagged_object (by simp) rfl).trans (single_named _ token.decode)
  | setParameters request => exact (tagged_object (by simp) rfl).trans (single_named _ (SetParametersDto.decode finite))
  | parametersSet requestId token => exact (tagged_object (by simp) rfl).trans (answer_named _ token.decode (by decide))
  | process token processSequence frames inputEventCount =>
    refine (tagged_object (by simp) rfl).trans ?_
    simp [-bind_eq_bind]
  | processed token processSequence outputEventCount =>
    refine (tagged_object (by simp) rfl).trans ?_
    simp [-bind_eq_bind]
  | saveState request => exact (tagged_object (by simp) rfl).trans (single_named _ request.decode)
  | stateSaved requestId state => exact (tagged_object (by simp) rfl).trans (answer_named _ state.decode (by decide))
  | latencyChanged token frames => exact (tagged_object (by simp) rfl).trans (change_named _ (decodeU32_encode frames) (by decide))
  | tailChanged token tail => exact (tagged_object (by simp) rfl).trans (change_named _ tail.decode (by decide))
  | deactivate token => exact (tagged_object (by simp) rfl).trans (single_named _ token.decode)
  | deactivated token => exact (tagged_object (by simp) rfl).trans (single_named _ token.decode)
  | destroy token => exact (tagged_object (by simp) rfl).trans (single_named _ token.decode)
  | destroyed token => exact (tagged_object (by simp) rfl).trans (single_named _ token.decode)
  | error failure => exact (tagged_object (by simp) rfl).trans (single_named _ failure.decode)
  | shutdown => exact (tagged_object named_nil rfl).trans (unit_named _)

end Wire

end Audec.PluginWire

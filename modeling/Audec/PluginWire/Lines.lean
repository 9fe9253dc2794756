import Audec.PluginWire.RoundTrip

/-! Which envelopes come back from their line, and that those which come from a line do. -/

open Machine Documents Buffered Checked Option
open Std (ExtTreeMap)

namespace Audec.PluginWire

open ProcessingContractDto Message

section Floats

theorem eachOnce_ok {α κ ε : Type} [DecidableEq κ] {key : α → κ} {duplicate : α → ε} {first rest : α → Except ε Unit} {seen : List κ}
    {items : List α} (passed : eachOnce key duplicate first rest seen items = .ok ()) : ∀ item ∈ items, first item = .ok () ∧ rest item = .ok () := by
  induction items generalizing seen with
  | nil => exact fun _ member => absurd member List.not_mem_nil
  | cons item items ih =>
    unfold eachOnce at passed
    simp only [bind_unit_ok, ensure_ok] at passed
    obtain ⟨before, -, after, others⟩ := passed
    exact List.forall_mem_cons.mpr ⟨⟨before, after⟩, ih others⟩

theorem domain_ok {α : Type} {checks : Except PluginValidationError α} {value : α} (passed : domain checks = .ok value) : checks = .ok value := by
  unfold domain at passed
  cases checks with
  | error error => cases passed
  | ok result => exact congrArg Except.ok (Except.ok.inj passed)

namespace Wire

theorem SetParametersDto.finite {request : SetParametersDto} (valid : request.validate = .ok ()) :
    ∀ value ∈ request.values, value.normalized.isFinite = true := by
  unfold PluginWire.SetParametersDto.validate at valid
  obtain ⟨_, -, valid⟩ := Checked.bind_ok.mp valid
  obtain ⟨-, each⟩ := bind_unit_ok.mp valid
  intro value member
  have checked := (eachOnce_ok each value member).1
  unfold ParameterValueDto.validate at checked
  simp only [bind_unit_ok, ensure_ok] at checked
  exact checked.2.1

theorem ScanRecordDto.finite {record : ScanRecordDto} (valid : record.checked.validate = .ok ()) : record.FiniteValues := by
  unfold PluginWire.ScanRecordDto.validate at valid
  obtain ⟨_, -, valid⟩ := Checked.bind_ok.mp (bind_unit_ok.mp valid).2
  obtain ⟨plugins, -⟩ := bind_unit_ok.mp valid
  intro plugin member parameter inside
  have checked := forM_ok.mp plugins plugin.checked (List.mem_map_of_mem member)
  unfold PluginWire.PluginDescriptorDto.validate at checked
  simp only [bind_unit_ok] at checked
  have metadata := domain_ok checked.2.2
  unfold PluginDescriptorDto.validateMetadata at metadata
  simp only [bind_unit_ok] at metadata
  have ranged := (eachOnce_ok metadata.2.2.2.2.2.2 parameter.toParameterDescriptorDto (List.mem_map_of_mem inside)).1
  unfold PluginWire.ParameterDescriptorDto.validate at ranged
  simp only [bind_unit_ok, ensure_ok] at ranged
  exact ⟨ranged.2.1.1, ranged.2.1.2.1, ranged.2.1.2.2.1⟩

theorem Message.finite {message : Message} (valid : message.checked.validate = .ok ()) : message.FiniteValues := by
  cases message with
  | scanReady requestId record => exact ScanRecordDto.finite valid
  | setParameters request => exact SetParametersDto.finite valid
  | _ => trivial

theorem Envelope.finite {envelope : Envelope} (valid : envelope.validate = .ok ()) : envelope.message.FiniteValues := by
  unfold Envelope.validate PluginWire.Envelope.validate at valid
  rw [bind_unit_ok] at valid
  exact Message.finite valid.2

end Wire

end Floats

section Documents

@[simp] theorem ParameterKeyDto.finite_document (key : ParameterKeyDto) : Finite key.document := by
  cases key <;> simp [ParameterKeyDto.document]

@[simp] theorem TailDto.finite_document (tail : TailDto) : Finite tail.document := by
  cases tail <;> simp [TailDto.document]

@[simp] theorem ChannelLayoutDto.finite_document (layout : ChannelLayoutDto) : Finite layout.document := by
  cases layout <;> simp [ChannelLayoutDto.document]

@[simp] theorem ParameterMappingDto.finite_document (mapping : ParameterMappingDto) : Finite mapping.document := by
  cases mapping <;> simp [ParameterMappingDto.document]

@[simp] theorem TokenDto.finite_document (token : TokenDto) : Finite token.document := trivial

@[simp] theorem PluginKeyDto.finite_document (key : PluginKeyDto) : Finite key.document := by
  simp [PluginKeyDto.document]

@[simp] theorem SharedMemoryRegionDto.finite_document (region : SharedMemoryRegionDto) : Finite region.document := by
  simp [SharedMemoryRegionDto.document]

namespace Wire

@[simp] theorem ProcessingContractDto.finite_document (contract : ProcessingContractDto) : Finite contract.document := by
  simp [document, encodeNotes, NegotiatedPortDto.document]

@[simp] theorem StateArtifactDto.finite_document (state : StateArtifactDto) : Finite state.document := by
  simp [StateArtifactDto.document]

@[simp] theorem ArtifactDto.finite_document (artifact : ArtifactDto) : Finite artifact.document := by
  simp [ArtifactDto.document, encodeArchitectures]

@[simp] theorem ArtifactGrantDto.finite_document (grant : ArtifactGrantDto) : Finite grant.document := by
  simp [ArtifactGrantDto.document]

@[simp] theorem InstantiateDto.finite_document (request : InstantiateDto) : Finite request.document := by
  simp [InstantiateDto.document]

@[simp] theorem ScannerDto.finite_document (scanner : ScannerDto) : Finite scanner.document := by
  simp [ScannerDto.document]

theorem ParameterDescriptorDto.finite_document {parameter : ParameterDescriptorDto} (finite : parameter.FiniteValues) : Finite parameter.document := by
  obtain ⟨least, greatest, initial⟩ := finite
  simp [ParameterDescriptorDto.document, finite_f64 least, finite_f64 greatest, finite_f64 initial]

theorem PluginDescriptorDto.finite_document {plugin : PluginDescriptorDto} (finite : ∀ parameter ∈ plugin.parameters, parameter.FiniteValues) :
    Finite plugin.document := by
  have parameters := fun parameter member => ParameterDescriptorDto.finite_document (finite parameter member)
  simp [PluginDescriptorDto.document, ExecutionDto.document, AudioPortDto.document, NotePortDto.document]
  exact parameters

theorem Message.finite_fields {message : Message} (finite : message.FiniteValues) : FiniteFields message.fields := by
  cases message with
  | scanReady requestId record =>
    have plugins := fun plugin member => PluginDescriptorDto.finite_document (finite plugin member)
    simp [fields, ScanRecordDto.document]
    exact plugins
  | setParameters request =>
    have values : ∀ value ∈ request.values, Finite value.document := fun value member => by
      simp [ParameterValueDto.document, finite_f64 (finite value member)]
    simp [fields, SetParametersDto.document]
    exact values
  | capabilities report => simp [fields, CapabilitiesDto.document, encodeArchitectures]
  | scan request => simp [fields, ScanRequestDto.document]
  | scanFailed requestId failure => simp [fields, ScanFailureDto.document]
  | bindSharedMemory binding => simp [fields, SharedMemoryBindingDto.document]
  | saveState request => simp [fields, SaveStateDto.document]
  | error failure => simp [fields, RuntimeFailureDto.document]
  | _ => simp [fields]

theorem Envelope.finite_document {envelope : Envelope} (finite : envelope.message.FiniteValues) : Finite envelope.document := by
  simp [Envelope.document, Message.finite_fields finite]

end Wire

end Documents

section Buffer

namespace Wire

variable {document : Document} {fields : Parts} {message result : Message} {name : String}

variable {contract : ProcessingContractDto} {α : Type}

theorem ProcessingContractDto.noteless
    (read : ofDocument document = some contract) : contract.Noteless := by
  unfold ofDocument at read
  simp only [bind_eq_bind, bind_eq_some_iff, pure_def, some.injEq] at read
  obtain ⟨fields, -, -, -, _, -, _, -, _, -, _, -, inputs, reads, outputs, reads', _, -, _, -, _, -, rfl⟩ := read
  obtain ⟨_, inputs⟩ := required_read reads
  obtain ⟨_, outputs⟩ := required_read reads'
  exact ⟨decodeNotes_some inputs, decodeNotes_some outputs⟩

theorem InstantiateDto.noteless {request : InstantiateDto} (read : InstantiateDto.ofDocument document = some request) :
    request.contract.Noteless := by
  unfold InstantiateDto.ofDocument at read
  simp only [bind_eq_bind, bind_eq_some_iff, pure_def, some.injEq] at read
  obtain ⟨fields, -, -, -, _, -, _, -, _, -, _, -, contract, reads, _, -, _, -, rfl⟩ := read
  obtain ⟨_, contract⟩ := required_read reads
  exact ProcessingContractDto.noteless contract

theorem unit_noteless (read : unit message fields = some result) (noteless : message.Noteless) :
    result.Noteless := by
  unfold unit at read
  split at read
  · cases read
    exact noteless
  · cases read
    exact noteless
  · cases read

theorem single_noteless {decode : Document → Option α} {message : α → Message}
    (read : single name decode message fields = some result) (noteless : ∀ document value, decode document = some value → (message value).Noteless) :
    result.Noteless := by
  unfold single at read
  simp only [bind_eq_bind, bind_eq_some_iff, pure_def, some.injEq] at read
  obtain ⟨-, -, value, reads, rfl⟩ := read
  obtain ⟨document, decoded⟩ := required_read reads
  exact noteless document value decoded

theorem answer_noteless {decode : Document → Option α} {message : U64 → α → Message}
    (read : answer name decode message fields = some result)
    (noteless : ∀ requestId value, (message requestId value).Noteless) : result.Noteless := by
  unfold answer at read
  simp only [bind_eq_bind, bind_eq_some_iff, pure_def, some.injEq] at read
  obtain ⟨-, -, requestId, -, value, -, rfl⟩ := read
  exact noteless requestId value

theorem change_noteless {decode : Document → Option α} {message : TokenDto → α → Message}
    (read : change name decode message fields = some result)
    (noteless : ∀ token value, (message token value).Noteless) : result.Noteless := by
  unfold change at read
  simp only [bind_eq_bind, bind_eq_some_iff, pure_def, some.injEq] at read
  obtain ⟨-, -, token, -, value, -, rfl⟩ := read
  exact noteless token value

theorem variants_noteless {read : Parts → Option Message} (member : (name, read) ∈ Message.variants)
    (reads : read fields = some message) : message.Noteless := by
  unfold Message.variants at member
  simp only [List.mem_cons, Prod.mk.injEq, List.not_mem_nil, or_false] at member
  rcases member with ⟨-, rfl⟩ | ⟨-, rfl⟩ | ⟨-, rfl⟩ | ⟨-, rfl⟩ | ⟨-, rfl⟩ | ⟨-, rfl⟩ | ⟨-, rfl⟩ | ⟨-, rfl⟩ | ⟨-, rfl⟩ | ⟨-, rfl⟩ | ⟨-, rfl⟩ |
    ⟨-, rfl⟩ | ⟨-, rfl⟩ | ⟨-, rfl⟩ | ⟨-, rfl⟩ | ⟨-, rfl⟩ | ⟨-, rfl⟩ | ⟨-, rfl⟩ | ⟨-, rfl⟩ | ⟨-, rfl⟩ | ⟨-, rfl⟩ | ⟨-, rfl⟩ | ⟨-, rfl⟩ | ⟨-, rfl⟩ | ⟨-, rfl⟩
  · exact unit_noteless reads trivial
  · exact single_noteless reads fun _ _ _ => trivial
  · exact single_noteless reads fun _ _ _ => trivial
  · exact answer_noteless reads fun _ _ => trivial
  · exact answer_noteless reads fun _ _ => trivial
  · exact single_noteless reads fun _ _ decoded => InstantiateDto.noteless decoded
  · simp only [bind_eq_bind, bind_eq_some_iff, pure_def, some.injEq] at reads
    obtain ⟨-, -, _, -, _, -, _, -, _, -, rfl⟩ := reads
    trivial
  · exact single_noteless reads fun _ _ _ => trivial
  · exact single_noteless reads fun _ _ _ => trivial
  · exact single_noteless reads fun _ _ _ => trivial
  · exact single_noteless reads fun _ _ _ => trivial
  · exact single_noteless reads fun _ _ _ => trivial
  · exact answer_noteless reads fun _ _ => trivial
  · simp only [bind_eq_bind, bind_eq_some_iff, pure_def, some.injEq] at reads
    obtain ⟨-, -, _, -, _, -, _, -, _, -, rfl⟩ := reads
    trivial
  · simp only [bind_eq_bind, bind_eq_some_iff, pure_def, some.injEq] at reads
    obtain ⟨-, -, _, -, _, -, _, -, rfl⟩ := reads
    trivial
  · exact single_noteless reads fun _ _ _ => trivial
  · exact answer_noteless reads fun _ _ => trivial
  · exact change_noteless reads fun _ _ => trivial
  · exact change_noteless reads fun _ _ => trivial
  · exact single_noteless reads fun _ _ _ => trivial
  · exact single_noteless reads fun _ _ _ => trivial
  · exact single_noteless reads fun _ _ _ => trivial
  · exact single_noteless reads fun _ _ _ => trivial
  · exact single_noteless reads fun _ _ _ => trivial
  · exact unit_noteless reads trivial

theorem Message.noteless {fields : Fields} (read : Message.ofFields fields = some message) : message.Noteless := by
  unfold Message.ofFields tagged at read
  simp only [bind_eq_bind, bind_eq_some_iff] at read
  obtain ⟨⟨kind, rest⟩, -, decode, chosen, reads⟩ := read
  obtain ⟨name, member⟩ := select_mem chosen
  exact variants_noteless member reads

theorem Envelope.noteless {envelope : Envelope} (read : Envelope.ofDocument document = some envelope) :
    envelope.message.Noteless := by
  cases document with
  | object fields =>
    simp only [Envelope.ofDocument, bind_eq_bind, bind_eq_some_iff, pure_def, some.injEq] at read
    obtain ⟨_, -, _, -, message, reads, rfl⟩ := read
    exact Message.noteless reads
  | _ => cases read

theorem Message.fields_apart (message : Message) : ∀ field ∈ message.fields, field.1 ∉ Envelope.known := by
  cases message <;> simp [fields, Envelope.known]

theorem Envelope.ofDocument_document (envelope : Envelope) :
    Envelope.ofDocument envelope.document = (Message.ofFields envelope.message.fields).map fun message => { envelope with message } := by
  have apart := envelope.message.fields_apart
  have rest : others Envelope.known ([("protocol_version", encodeU32 envelope.protocolVersion), ("sequence", encodeU64 envelope.sequence)] ++
      envelope.message.fields) = envelope.message.fields := by
    unfold others
    rw [List.filter_append, List.filter_eq_self.mpr fun field member => decide_eq_true (apart field member)]
    rfl
  have absent {name : String} (known : name ∈ Envelope.known) : named envelope.message.fields name = [] := by
    unfold named
    rw [List.map_eq_nil_iff, List.filter_eq_nil_iff]
    intro field member same
    exact apart field member (of_decide_eq_true same ▸ known)
  have sequence : named envelope.message.fields "sequence" = [] := absent (by decide)
  have version : named envelope.message.fields "protocol_version" = [] := absent (by decide)
  simp only [Envelope.document, Envelope.ofDocument, rest]
  simp [version, sequence, map_eq_bind]

theorem decodeNotes_noted {notes : Notes} (noted : notes ≠ ∅) : decodeNotes (encodeNotes notes) = none := by
  unfold decodeNotes encodeNotes encodeMap
  cases listed : notes.toList with
  | nil => exact absurd (ExtTreeMap.toList_eq_nil_iff.mp listed) noted
  | cons entry entries => rfl

theorem ProcessingContractDto.unread (noted : ¬ contract.Noteless) :
    ofDocument contract.document = none := by
  have ports := decodeList_encode fun port (_ : port ∈ contract.audioPorts) => port.decode
  by_cases inputs : contract.noteInputs = ∅
  · have outputs : contract.noteOutputs ≠ ∅ := fun outputs => noted ⟨inputs, outputs⟩
    simp [-bind_eq_bind, ofDocument, document, ports, inputs, decodeNotes_noted outputs]
  · simp [-bind_eq_bind, ofDocument, document, ports, decodeNotes_noted inputs]

theorem Message.unread (noted : ¬ message.Noteless) : ofFields message.fields = none := by
  cases message with
  | instantiate request =>
    have contract := ProcessingContractDto.unread noted
    refine (tagged_object (by simp) rfl).trans ?_
    simp [-bind_eq_bind, single, InstantiateDto.ofDocument, InstantiateDto.document, contract]
  | _ => exact absurd trivial noted

namespace Envelope

variable {json : Json} {envelope : Envelope} {line : String}

theorem decode (finite : envelope.message.FiniteValues) (noteless : envelope.message.Noteless) :
    ofDocument envelope.document = some envelope := by
  rw [ofDocument_document, Message.decode finite noteless]
  rfl

theorem unread (noted : ¬ envelope.message.Noteless) : ofDocument envelope.document = none := by
  rw [ofDocument_document, Message.unread noted]
  rfl

theorem fromJsonl_ok : fromJsonl json line = .ok envelope ↔
    ('\n' ∉ line.toList ∧ '\x0d' ∉ line.toList) ∧ (json.parse line).bind ofDocument = some envelope ∧ envelope.validate = .ok () := by
  have passed (envelope : Envelope) : envelope.validate.mapError JsonlError.wire = .ok () ↔ envelope.validate = .ok () := by
    cases envelope.validate <;> simp [Except.mapError]
  unfold fromJsonl
  rw [bind_unit_ok, ensure_ok]
  refine and_congr_right fun _ => ?_
  cases read : (json.parse line).bind ofDocument with
  | none => exact ⟨fun impossible => (by cases impossible), fun impossible => (by cases impossible.1)⟩
  | some decoded =>
    change (decoded.validate.mapError JsonlError.wire >>= fun _ => Except.ok decoded) = _ ↔ _
    rw [bind_unit_ok, passed, Except.ok.injEq, some.injEq]
    constructor
    · rintro ⟨valid, rfl⟩
      exact ⟨rfl, valid⟩
    · rintro ⟨rfl, valid⟩
      exact ⟨valid, rfl⟩

theorem toJsonl_ok (valid : envelope.validate = .ok ()) : toJsonl json envelope = .ok (json.print envelope.document ++ "\n") := by
  unfold toJsonl
  rw [valid]
  rfl

theorem fromJsonl_print (valid : envelope.validate = .ok ()) (exact : Buffered.Finite envelope.document → json.Exact envelope.document) :
    fromJsonl json (json.print envelope.document) = .ok envelope ↔ envelope.message.Noteless := by
  have printed := exact (finite_document (finite valid))
  rw [fromJsonl_ok, printed.parsed]
  change _ ∧ ofDocument envelope.document = _ ∧ _ ↔ _
  constructor
  · rintro ⟨-, read, -⟩
    exact noteless read
  · intro without
    exact ⟨printed.line, decode (finite valid) without, valid⟩

/-- A valid envelope is one line, which is read as the envelope exactly when it has no notes; and an envelope that a line was read as comes
    back from its own line. -/
theorem returns_iff_noteless (json : Json) (envelope : Envelope) (exact : Buffered.Finite envelope.document → json.Exact envelope.document) :
    (envelope.validate = .ok () → ∃ text, toJsonl json envelope = .ok (text ++ "\n") ∧ ('\n' ∉ text.toList ∧ '\x0d' ∉ text.toList) ∧
      (fromJsonl json text = .ok envelope ↔ envelope.message.Noteless)) ∧
    ∀ line, fromJsonl json line = .ok envelope → ∃ text, toJsonl json envelope = .ok (text ++ "\n") ∧ fromJsonl json text = .ok envelope := by
  constructor
  · intro valid
    exact ⟨_, toJsonl_ok valid, (exact (finite_document (finite valid))).line, fromJsonl_print valid exact⟩
  · intro line accepted
    obtain ⟨-, read, valid⟩ := fromJsonl_ok.mp accepted
    obtain ⟨document, -, decoded⟩ := Option.bind_eq_some_iff.mp read
    exact ⟨_, toJsonl_ok valid, (fromJsonl_print valid exact).mpr (noteless decoded)⟩

end Envelope

section Samples

def Json.only (document : Document) (text : String) : Json := ⟨fun _ => text, fun line => if line = text then some document else none⟩

theorem Json.only_exact {document : Document} {text : String} (line : '\n' ∉ text.toList ∧ '\x0d' ∉ text.toList) :
    (Json.only document text).Exact document := ⟨if_pos rfl, line⟩

def shutdown : Envelope := ⟨1, 7, .shutdown⟩

def shutdownText : String := "\x7b\"protocol_version\":1,\"sequence\":7,\"kind\":\"shutdown\"\x7d"

theorem shutdown_returns : ∃ text, Envelope.toJsonl (.only shutdown.document shutdownText) shutdown = .ok (text ++ "\n") ∧
    ('\n' ∉ text.toList ∧ '\x0d' ∉ text.toList) ∧
      (Envelope.fromJsonl (.only shutdown.document shutdownText) text = .ok shutdown ↔ shutdown.message.Noteless) :=
  (Envelope.returns_iff_noteless (.only shutdown.document shutdownText) shutdown fun _ => Json.only_exact (by decide)).1 (by rfl)

def noted : Envelope :=
  ⟨1, 1, .instantiate
    { requestId := 1
      token := ⟨"00000000000000000000000000000001"⟩
      artifactLease := ⟨"00000000000000000000000000000002"⟩
      plugin := ⟨.clap, "org.audec.synth"⟩
      contract :=
        { sampleRate := 48000, minimumFrames := 1, maximumFrames := 512, audioPorts := [], noteInputs := (∅ : Notes).insert 7 .clap, noteOutputs := ∅,
          initialLatencyFrames := 16, initialTail := .finiteFrames 64, offline := false }
      artifact := none
      state := none }⟩

def notedText : String :=
  "\x7b\"protocol_version\":1,\"sequence\":1,\"kind\":\"instantiate\",\"request\":\x7b\"request_id\":1," ++
  ("\"instance\":\"00000000000000000000000000000001\"," ++
  ("\"artifact_lease\":\"00000000000000000000000000000002\"," ++
  ("\"plugin\":\x7b\"format\":\"clap\",\"identifier\":\"org.audec.synth\"\x7d," ++
  ("\"contract\":\x7b\"sample_rate\":48000,\"minimum_frames\":1,\"maximum_frames\":512,\"audio_ports\":[]," ++
  ("\"note_inputs\":\x7b\"7\":\"clap\"\x7d,\"note_outputs\":\x7b\x7d,\"initial_latency_frames\":16," ++
  "\"initial_tail\":\x7b\"kind\":\"finite_frames\",\"frames\":64\x7d,\"offline\":false\x7d\x7d\x7d")))))

theorem notedText_line : '\n' ∉ notedText.toList ∧ '\x0d' ∉ notedText.toList := by
  unfold notedText
  simp only [String.toList_append, List.mem_append, not_or]
  decide

theorem noted_noted : ¬ noted.message.Noteless := by
  intro noteless
  have lookup : ((∅ : Notes).insert 7 NoteDialectDto.clap)[(7 : U32)]? = none := by
    have same : (∅ : Notes).insert 7 .clap = ∅ := noteless.inputs
    rw [same]
    exact ExtTreeMap.getElem?_empty
  rw [Entries.lookup_insert, if_pos rfl] at lookup
  cases lookup

theorem noted_valid : noted.validate = .ok () := by
  decide

/-- The line is written, and cannot be read. -/
theorem noted_lost : Envelope.toJsonl (.only noted.document notedText) noted = .ok (notedText ++ "\n") ∧
    Envelope.fromJsonl (.only noted.document notedText) notedText = .error .decode := by
  have parsed : (Json.only noted.document notedText).parse notedText = some noted.document := (Json.only_exact notedText_line).parsed
  refine ⟨Envelope.toJsonl_ok noted_valid, ?_⟩
  unfold Envelope.fromJsonl
  rw [parsed, Option.bind_some, Envelope.unread noted_noted, ensure, if_pos notedText_line]
  rfl

end Samples

end Wire

end Buffer

end Audec.PluginWire

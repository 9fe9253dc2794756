import Audec.Lib.Documents
import Audec.Lib.Machine
import Audec.Lib.ByteReader

/-! The records of the command journal, how they are written as documents, and what a frame is checked for. -/

open Machine Checked Documents Option

namespace Audec.CommandJournal

structure OpaqueCommandRecord where
  domain : String
  kind : String
  schemaVersion : U32
  payload : Value
  extensions : Extensions

structure DurableIdClaim where
  claimNamespace : String
  kind : String
  id : String
  scope : Option String

structure DurableCoalesceToken where
  editorSession : U64
  gestureKind : U64
  primary : String

structure DurableCommandBatch where
  schemaVersion : U32
  label : String
  coalesce : Option DurableCoalesceToken
  commands : List OpaqueCommandRecord
  idClaims : List DurableIdClaim
  extensions : Extensions

structure JournalFrame where
  frameVersion : U32
  sequence : U64
  baseRevision : U64
  resultingRevision : U64
  operation : String
  batch : DurableCommandBatch
  extensions : Extensions

inductive JournalFrameError where
  | zeroVersion | zeroSequence | emptyOperation
  | zeroBatchVersion | emptyBatchLabel | emptyCommandBatch
  | sequenceOverflow
  | sequenceGap (expected actual : U64)
  | revisionGap (expected actual : U64)
  | revisionOverflow
  | revisionStep (base resulting : U64)

def JournalFrameError.text : JournalFrameError → String
  | .zeroVersion => "journal frame version is zero"
  | .zeroSequence => "journal frame sequence is zero"
  | .emptyOperation => "journal operation is empty"
  | .zeroBatchVersion => "command batch version is zero"
  | .emptyBatchLabel => "command batch label is empty"
  | .emptyCommandBatch => "command batch contains no commands"
  | .sequenceOverflow => "journal sequence overflows u64"
  | .sequenceGap expected actual => s!"journal sequence is disconnected: expected {expected}, actual {actual}"
  | .revisionGap expected actual => s!"journal revision is disconnected: expected {expected}, actual {actual}"
  | .revisionOverflow => "journal revision overflows u64"
  | .revisionStep base resulting => s!"journal revision step {base} -> {resulting} is not exactly one commit"

/-- A commit takes a project to the next revision. -/
def checkRevisionStep (base resulting : U64) : Except JournalFrameError Unit :=
  match checkedSucc base with
  | none => .error .revisionOverflow
  | some expected => ensure (resulting = expected) (.revisionStep base resulting)

namespace JournalFrame

def validate (frame : JournalFrame) : Except JournalFrameError Unit := do
  ensure (frame.frameVersion ≠ 0) .zeroVersion
  ensure (frame.sequence ≠ 0) .zeroSequence
  ensure (Unicode.isBlank frame.operation = false) .emptyOperation
  ensure (frame.batch.schemaVersion ≠ 0) .zeroBatchVersion
  ensure (Unicode.isBlank frame.batch.label = false) .emptyBatchLabel
  ensure (frame.batch.commands.isEmpty = false) .emptyCommandBatch
  checkRevisionStep frame.baseRevision frame.resultingRevision

end JournalFrame

/-- `None` is left out where it is written, and may be there as null where it is read. -/
def decodeOption {α : Type} (decode : Document → Option α) : Document → Option (Option α)
  | .null => some none
  | document => (decode document).map some

namespace OpaqueCommandRecord

def known : List String := ["domain", "kind", "schema_version", "payload"]

def document (record : OpaqueCommandRecord) : Document :=
  .object ([("domain", .string record.domain), ("kind", .string record.kind),
    ("schema_version", encodeU32 record.schemaVersion), ("payload", record.payload.val)] ++ record.extensions.fields)

def ofDocument : Document → Option OpaqueCommandRecord
  | .object fields => do
    let domain ← field fields "domain" decodeString
    let kind ← field fields "kind" decodeString
    let schemaVersion ← field fields "schema_version" decodeU32
    let payload ← field fields "payload" fun payload => some (Value.ofDocument payload)
    return { domain, kind, schemaVersion, payload, extensions := .ofFields (others known fields) }
  | _ => none

/-- No further field takes the name of one the record has. -/
def Distinct (record : OpaqueCommandRecord) : Prop := record.extensions.Apart known

end OpaqueCommandRecord

namespace DurableIdClaim

def document (claim : DurableIdClaim) : Document :=
  .object ([("namespace", .string claim.claimNamespace), ("kind", .string claim.kind), ("id", .string claim.id)] ++
    (claim.scope.map fun scope => ("scope", .string scope)).toList)

def ofDocument : Document → Option DurableIdClaim
  | .object fields => do
    let claimNamespace ← field fields "namespace" decodeString
    let kind ← field fields "kind" decodeString
    let id ← field fields "id" decodeString
    let scope ← fieldOr fields "scope" none (decodeOption decodeString)
    return { claimNamespace, kind, id, scope }
  | .array [claimNamespace, kind, id] => do
    return ⟨← decodeString claimNamespace, ← decodeString kind, ← decodeString id, none⟩
  | .array [claimNamespace, kind, id, scope] => do
    return ⟨← decodeString claimNamespace, ← decodeString kind, ← decodeString id, ← decodeOption decodeString scope⟩
  | _ => none

end DurableIdClaim

namespace DurableCoalesceToken

def document (token : DurableCoalesceToken) : Document :=
  .object [("editor_session", encodeU64 token.editorSession), ("gesture_kind", encodeU64 token.gestureKind),
    ("primary", .string token.primary)]

def ofDocument : Document → Option DurableCoalesceToken
  | .object fields => do
    let editorSession ← field fields "editor_session" decodeU64
    let gestureKind ← field fields "gesture_kind" decodeU64
    let primary ← field fields "primary" decodeString
    return { editorSession, gestureKind, primary }
  | .array [editorSession, gestureKind, primary] => do
    return ⟨← decodeU64 editorSession, ← decodeU64 gestureKind, ← decodeString primary⟩
  | _ => none

end DurableCoalesceToken

namespace DurableCommandBatch

def known : List String := ["schema_version", "label", "coalesce", "commands", "id_claims"]

def document (batch : DurableCommandBatch) : Document :=
  .object ([("schema_version", encodeU32 batch.schemaVersion), ("label", .string batch.label)] ++
    (batch.coalesce.map fun token => ("coalesce", token.document)).toList ++
    [("commands", .array (batch.commands.map OpaqueCommandRecord.document)),
      ("id_claims", .array (batch.idClaims.map DurableIdClaim.document))] ++ batch.extensions.fields)

def ofDocument : Document → Option DurableCommandBatch
  | .object fields => do
    let schemaVersion ← field fields "schema_version" decodeU32
    let label ← field fields "label" decodeString
    let coalesce ← fieldOr fields "coalesce" none (decodeOption DurableCoalesceToken.ofDocument)
    let commands ← fieldOr fields "commands" [] (decodeList OpaqueCommandRecord.ofDocument)
    let idClaims ← fieldOr fields "id_claims" [] (decodeList DurableIdClaim.ofDocument)
    return { schemaVersion, label, coalesce, commands, idClaims, extensions := .ofFields (others known fields) }
  | _ => none

/-- No further field takes the name of one the batch or its commands have, which may not be written. -/
def Distinct (batch : DurableCommandBatch) : Prop :=
  batch.extensions.Apart known ∧ ∀ command ∈ batch.commands, command.Distinct

end DurableCommandBatch

namespace JournalFrame

def known : List String := ["frame_version", "sequence", "base_revision", "resulting_revision", "operation", "batch"]

def document (frame : JournalFrame) : Document :=
  .object ([("frame_version", encodeU32 frame.frameVersion), ("sequence", encodeU64 frame.sequence),
    ("base_revision", encodeU64 frame.baseRevision), ("resulting_revision", encodeU64 frame.resultingRevision),
    ("operation", .string frame.operation), ("batch", frame.batch.document)] ++ frame.extensions.fields)

def ofDocument : Document → Option JournalFrame
  | .object fields => do
    let frameVersion ← field fields "frame_version" decodeU32
    let sequence ← field fields "sequence" decodeU64
    let baseRevision ← field fields "base_revision" decodeU64
    let resultingRevision ← field fields "resulting_revision" decodeU64
    let operation ← field fields "operation" decodeString
    let batch ← field fields "batch" DurableCommandBatch.ofDocument
    return { frameVersion, sequence, baseRevision, resultingRevision, operation, batch,
             extensions := .ofFields (others known fields) }
  | _ => none

/-- No further field of the frame, its batch or its commands takes the name of a field that is already there. -/
def Distinct (frame : JournalFrame) : Prop := frame.extensions.Apart known ∧ frame.batch.Distinct

end JournalFrame

namespace OpaqueCommandRecord

variable {record : OpaqueCommandRecord}

theorem ofDocument_distinct {document : Document} (read : ofDocument document = some record) :
    record.Distinct := by
  unfold ofDocument at read
  split at read
  · simp only [bind_eq_bind, bind_eq_some_iff, pure_def, some.injEq] at read
    obtain ⟨_, -, _, -, _, -, _, -, rfl⟩ := read
    exact Extensions.ofFields_others_apart known _
  · cases read

theorem ofDocument_document (distinct : record.Distinct) :
    ofDocument record.document = some record := by
  unfold ofDocument document
  dsimp only
  rw [distinct.field (by decide) rfl, distinct.field (by decide) rfl, distinct.field (by decide) rfl,
    distinct.field (by decide) rfl, distinct.others, Extensions.ofFields_fields]
  · dsimp only
    rw [decodeU32_encode, Value.ofDocument_val]
    rfl
  · exact List.Subset.refl known

theorem Distinct.plain (distinct : record.Distinct) : record.document.Plain :=
  Extensions.Apart.plain distinct (by decide : known.Nodup) (List.Subset.refl known)
    ⟨trivial, trivial, trivial, record.payload.property, trivial⟩

end OpaqueCommandRecord

theorem DurableIdClaim.document_plain (claim : DurableIdClaim) : claim.document.Plain := by
  obtain ⟨_, _, _, scope⟩ := claim
  cases scope with
  | none => exact ⟨(by decide : ["namespace", "kind", "id"].Nodup), trivial, trivial, trivial, trivial⟩
  | some scope => exact ⟨(by decide : ["namespace", "kind", "id", "scope"].Nodup), trivial, trivial, trivial, trivial, trivial⟩

theorem DurableIdClaim.ofDocument_document (claim : DurableIdClaim) : ofDocument claim.document = some claim := by
  obtain ⟨_, _, _, scope⟩ := claim
  cases scope <;> rfl

theorem DurableCoalesceToken.decodeOption_document (token : DurableCoalesceToken) :
    decodeOption ofDocument token.document = some (some token) := rfl

namespace DurableCommandBatch

variable {batch : DurableCommandBatch}

theorem ofDocument_distinct {document : Document} (read : ofDocument document = some batch) :
    batch.Distinct := by
  unfold ofDocument at read
  split at read
  · simp only [bind_eq_bind, bind_eq_some_iff, pure_def, some.injEq] at read
    obtain ⟨_, -, _, -, _, -, commands, listed, _, -, rfl⟩ := read
    refine ⟨Extensions.ofFields_others_apart known _, ?_⟩
    intro command inside
    rcases fieldOr_read listed with rfl | ⟨document, read⟩
    · cases inside
    · obtain ⟨document, read⟩ := decodeList_each read command inside
      exact OpaqueCommandRecord.ofDocument_distinct read
  · cases read

theorem ofDocument_document (distinct : batch.Distinct) :
    ofDocument batch.document = some batch := by
  obtain ⟨apart, each⟩ := distinct
  have commands : decodeList OpaqueCommandRecord.ofDocument (.array (batch.commands.map OpaqueCommandRecord.document)) =
      some batch.commands := decodeList_encode fun command inside => OpaqueCommandRecord.ofDocument_document (each command inside)
  have claims : decodeList DurableIdClaim.ofDocument (.array (batch.idClaims.map DurableIdClaim.document)) =
      some batch.idClaims := decodeList_encode fun claim _ => claim.ofDocument_document
  unfold ofDocument document
  dsimp only
  cases same : batch.coalesce with
  | none =>
    rw [apart.field (by decide) rfl, apart.field (by decide) rfl, apart.fieldOr_absent (by decide) rfl,
      apart.fieldOr (by decide) rfl, apart.fieldOr (by decide) rfl, apart.others, Extensions.ofFields_fields]
    · dsimp only
      rw [commands, claims, decodeU32_encode, ← same]
      rfl
    · exact (by decide : ["schema_version", "label", "commands", "id_claims"].Sublist known).subset
  | some token =>
    rw [apart.field (by decide) rfl, apart.field (by decide) rfl, apart.fieldOr (by decide) rfl,
      apart.fieldOr (by decide) rfl, apart.fieldOr (by decide) rfl, apart.others, Extensions.ofFields_fields]
    · dsimp only
      rw [commands, claims, decodeU32_encode, token.decodeOption_document, ← same]
      rfl
    · exact List.Subset.refl known

theorem Distinct.plain (distinct : batch.Distinct) : batch.document.Plain := by
  obtain ⟨apart, each⟩ := distinct
  have commands : PlainItems (batch.commands.map OpaqueCommandRecord.document) :=
    plainItems_map fun command inside => (each command inside).plain
  have claims : PlainItems (batch.idClaims.map DurableIdClaim.document) := plainItems_map fun claim _ => claim.document_plain
  unfold document
  cases batch.coalesce with
  | none =>
    have names : ["schema_version", "label", "commands", "id_claims"].Sublist known := by decide
    exact apart.plain (by decide : ["schema_version", "label", "commands", "id_claims"].Nodup) names.subset
      ⟨trivial, trivial, commands, claims, trivial⟩
  | some token =>
    have token' : token.document.Plain :=
      ⟨(by decide : ["editor_session", "gesture_kind", "primary"].Nodup), trivial, trivial, trivial, trivial⟩
    exact apart.plain (by decide : known.Nodup) (List.Subset.refl known) ⟨trivial, trivial, token', commands, claims, trivial⟩

end DurableCommandBatch

namespace JournalFrame

variable {frame : JournalFrame}

theorem Distinct.plain (distinct : frame.Distinct) : frame.document.Plain :=
  distinct.1.plain (by decide : known.Nodup) (List.Subset.refl known)
    ⟨trivial, trivial, trivial, trivial, trivial, distinct.2.plain, trivial⟩

theorem ofDocument_distinct {document : Document} (read : ofDocument document = some frame) :
    frame.Distinct := by
  unfold ofDocument at read
  split at read
  · simp only [bind_eq_bind, bind_eq_some_iff, pure_def, some.injEq] at read
    obtain ⟨_, -, _, -, _, -, _, -, _, -, batch, held, rfl⟩ := read
    obtain ⟨document, read⟩ := field_read held
    exact ⟨Extensions.ofFields_others_apart known _, DurableCommandBatch.ofDocument_distinct read⟩
  · cases read

theorem ofDocument_document (distinct : frame.Distinct) : ofDocument frame.document = some frame := by
  obtain ⟨apart, batch⟩ := distinct
  unfold ofDocument document
  dsimp only
  rw [apart.field (by decide) rfl, apart.field (by decide) rfl, apart.field (by decide) rfl, apart.field (by decide) rfl,
    apart.field (by decide) rfl, apart.field (by decide) rfl, apart.others, Extensions.ofFields_fields]
  · dsimp only
    rw [DurableCommandBatch.ofDocument_document batch, decodeU32_encode]
    rfl
  · exact List.Subset.refl known

end JournalFrame

end Audec.CommandJournal

/-! Framing of the command journal, and the recovery of a prefix of it. -/

open Machine Checked Documents LittleEndian

namespace Audec.CommandJournal

abbrev Bytes := List UInt8

/-- What `serde_json` makes of a document and of a text; a failure is `none`. -/
structure SerdeJson where
  toVec : Document → Option Bytes
  fromSlice : Bytes → Option Document

def frameMagic : Bytes := [0x41, 0x55, 0x44, 0x45, 0x43, 0x4a, 0x31, 0]
def headerLen : Nat := frameMagic.length + 8 + 16
def defaultMaxFrameBytes : U64 := 64 * 1024 * 1024

def fnv1a128 (bytes : Bytes) : BitVec 128 :=
  bytes.foldl (fun hash byte => (hash ^^^ BitVec.ofNat 128 byte.toNat) * 0x0000000001000000000000000000013b#128)
    0x6c62272e07bb014262b821756295c58d#128

inductive JournalEncodeError where
  | invalid (error : JournalFrameError)
  | json
  | frameTooLarge (bytes : Nat)

def frameHeader (payload : Bytes) : Bytes := frameMagic ++ toBytes 8 payload.length ++ toBytes 16 (fnv1a128 payload).toNat

def encodeFrame (json : SerdeJson) (frame : JournalFrame) : Except JournalEncodeError Bytes := do
  frame.validate.mapError .invalid
  match json.toVec frame.document with
  | none => .error .json
  | some payload => do
    ensure (payload.length ≤ defaultMaxFrameBytes.val) (.frameTooLarge payload.length)
    return frameHeader payload ++ payload

inductive JournalCorruption where
  | badMagic
  | frameTooLarge (bytes : Nat)
  | lengthOverflow | checksumMismatch | json
  | invalidFrame (detail : String)
  | sequenceGap (expected actual : U64)
  | revisionGap (expected actual : U64)

inductive JournalTail where
  | clean
  | truncated (offset available : Nat) (required : Option Nat)
  | corrupt (offset : Nat) (error : JournalCorruption)

structure JournalRecovery where
  frames : List JournalFrame
  validBytes : Nat
  tail : JournalTail

def slice? (bytes : Bytes) (start stop : Nat) : Option Bytes :=
  if start ≤ stop ∧ stop ≤ bytes.length then some ((bytes.drop start).take (stop - start)) else none

/-- A slice as an array, which panics at another length. -/
def exactly? (length : Nat) (bytes : Bytes) : Option Bytes := if bytes.length = length then some bytes else none

structure Header where
  magic : Bytes
  payloadLen : Nat
  checksum : Nat

def readHeader (bytes : Bytes) (offset : Nat) : Option Header := do
  let header ← slice? bytes offset (offset + headerLen)
  let magic ← slice? header 0 frameMagic.length
  let payloadLen ← slice? header frameMagic.length (frameMagic.length + 8) >>= exactly? 8
  let checksum ← slice? header (frameMagic.length + 8) headerLen >>= exactly? 16
  return ⟨magic, ofBytes payloadLen, ofBytes checksum⟩

def Header.frameLen (header : Header) (maxFrameBytes : Nat) : Except JournalCorruption Nat := do
  ensure (header.magic = frameMagic) .badMagic
  ensure (header.payloadLen ≤ maxFrameBytes) (.frameTooLarge header.payloadLen)
  ensure (headerLen + header.payloadLen < 0x10000000000000000) .lengthOverflow
  return headerLen + header.payloadLen

def connect (previous : Option JournalFrame) (frame : JournalFrame) : Except JournalCorruption Unit :=
  match previous with
  | none => .ok ()
  | some previous =>
    match checkedSucc previous.sequence with
    | none => .error (.sequenceGap 0xffffffffffffffff frame.sequence)
    | some expected => do
      ensure (frame.sequence = expected) (.sequenceGap expected frame.sequence)
      ensure (frame.baseRevision = previous.resultingRevision) (.revisionGap previous.resultingRevision frame.baseRevision)

def readFrame (json : SerdeJson) (previous : Option JournalFrame) (checksum : Nat) (payload : Bytes) :
    Except JournalCorruption JournalFrame := do
  ensure ((fnv1a128 payload).toNat = checksum) .checksumMismatch
  match (json.fromSlice payload).bind JournalFrame.ofDocument with
  | none => .error .json
  | some frame => do
    frame.validate.mapError fun error => .invalidFrame error.text
    connect previous frame
    return frame

def nextFrame (json : SerdeJson) (maxFrameBytes : Nat) (bytes : Bytes) (offset : Nat) (previous : Option JournalFrame) :
    Option (Except JournalTail (JournalFrame × Nat)) :=
  let available := bytes.length - offset
  if available < headerLen then some (.error (.truncated offset available (some headerLen)))
  else
    match readHeader bytes offset with
    | none => none
    | some header =>
      match header.frameLen maxFrameBytes with
      | .error error => some (.error (.corrupt offset error))
      | .ok length =>
        if available < length then some (.error (.truncated offset available (some length)))
        else
          match slice? bytes (offset + headerLen) (offset + length) with
          | none => none
          | some payload =>
            match readFrame json previous header.checksum payload with
            | .error error => some (.error (.corrupt offset error))
            | .ok frame => some (.ok (frame, length))

def recoverFrom (json : SerdeJson) (maxFrameBytes : Nat) (bytes : Bytes) :
    Nat → List JournalFrame → Nat → Option JournalRecovery
  | 0, _, _ => none
  | steps + 1, frames, offset =>
    if offset < bytes.length then
      match nextFrame json maxFrameBytes bytes offset frames.getLast? with
      | none => none
      | some (.error tail) => some ⟨frames, offset, tail⟩
      | some (.ok (frame, length)) => recoverFrom json maxFrameBytes bytes steps (frames ++ [frame]) (offset + length)
    else some ⟨frames, offset, .clean⟩

def recoverPrefixWithLimit (json : SerdeJson) (bytes : Bytes) (maxFrameBytes : U64) : Option JournalRecovery :=
  recoverFrom json maxFrameBytes.val bytes (bytes.length + 1) [] 0

def recoverPrefix (json : SerdeJson) (bytes : Bytes) : Option JournalRecovery :=
  recoverPrefixWithLimit json bytes defaultMaxFrameBytes

end Audec.CommandJournal

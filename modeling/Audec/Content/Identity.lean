import Audec.Lib.Machine
import Audec.Content.Sha256

/-! Schema-tagged content identities and their canonical bytes. -/

open Std (ExtTreeMap)
open Machine Checked ByteReader LittleEndian Option

namespace Audec.Content

abbrev Bytes := List UInt8

def usizeLimit : Nat := 0x10000000000000000

inductive ContentClass where
  | canonicalEncodedMedia
  | canonicalDecodedPcm
  | recipe
  | renderProduct
  | analysisArtifact
  | modelArtifact
  | readingAttachment
  | runtimeObservation
  | productKey
  | extension
  deriving DecidableEq

namespace ContentClass

def discriminant : ContentClass → UInt8
  | canonicalEncodedMedia => 1
  | canonicalDecodedPcm => 2
  | recipe => 3
  | renderProduct => 4
  | analysisArtifact => 5
  | modelArtifact => 6
  | readingAttachment => 7
  | runtimeObservation => 8
  | productKey => 9
  | extension => 255

def fromDiscriminant (value : UInt8) : Option ContentClass :=
  if value = 1 then some canonicalEncodedMedia
  else if value = 2 then some canonicalDecodedPcm
  else if value = 3 then some recipe
  else if value = 4 then some renderProduct
  else if value = 5 then some analysisArtifact
  else if value = 6 then some modelArtifact
  else if value = 7 then some readingAttachment
  else if value = 8 then some runtimeObservation
  else if value = 9 then some productKey
  else if value = 255 then some extension
  else none

theorem fromDiscriminant_eq_some {value : UInt8} {contentClass : ContentClass} :
    fromDiscriminant value = some contentClass ↔ value = contentClass.discriminant := by
  constructor
  · intro found
    unfold fromDiscriminant at found
    repeat' split at found
    all_goals cases found
    all_goals assumption
  · rintro rfl
    cases contentClass <;> rfl

end ContentClass

structure DependencySlot where
  role : String
  slot : U32
  deriving DecidableEq

inductive IdentityError where
  | invalidLabel (field value : String)
  | zeroSchemaVersion
  | reservedProductKeySchema (name : String)
  | wrongContentClass (expected actual : ContentClass)
  | invalidArtifactClass (actual : ContentClass)
  | invalidProductOutput (actual : ContentClass)
  | duplicateDependency (slot : DependencySlot)
  | malformedCanonical (detail : String)

def asBytes (text : String) : Bytes := text.toByteArray.data.toList

def fromUtf8 (bytes : Bytes) : Option String := String.fromUTF8? ⟨bytes.toArray⟩

theorem fromUtf8_eq_some {bytes : Bytes} {text : String} : fromUtf8 bytes = some text ↔ asBytes text = bytes := by
  unfold fromUtf8 String.fromUTF8? asBytes
  split
  · rename_i valid
    rw [some.injEq]
    constructor
    · rintro rfl
      rfl
    · rintro rfl
      exact String.toByteArray_inj.mp rfl
  · rename_i invalid
    constructor
    · intro impossible
      cases impossible
    · rintro rfl
      exact absurd text.isValidUTF8 invalid

theorem asBytes_injective : Function.Injective asBytes := by
  intro a b same
  have read := fromUtf8_eq_some.mpr (Eq.refl (asBytes b))
  rw [← same, fromUtf8_eq_some.mpr rfl] at read
  exact some.inj read

def maxLabelBytes : Nat := 160

def labelByte (byte : UInt8) : Bool :=
  (0x61 ≤ byte && byte ≤ 0x7a) || (0x30 ≤ byte && byte ≤ 0x39) ||
    byte = 0x2e || byte = 0x2d || byte = 0x5f || byte = 0x2f || byte = 0x3a

/-- A byte that a label neither starts nor ends with. -/
def innerByte (byte : UInt8) : Bool := byte = 0x2e || byte = 0x2f || byte = 0x3a || byte = 0x2d

def hasDouble (byte : UInt8) : Bytes → Bool
  | first :: second :: rest => (first = byte && second = byte) || hasDouble byte (second :: rest)
  | _ => false

def validLabel (value : String) : Prop :=
  asBytes value ≠ [] ∧ (asBytes value).length ≤ maxLabelBytes ∧ (asBytes value).all labelByte = true ∧
    (asBytes value).head?.any innerByte = false ∧ (asBytes value).getLast?.any innerByte = false ∧
    hasDouble 0x2e (asBytes value) = false ∧ hasDouble 0x2f (asBytes value) = false

instance (value : String) : Decidable (validLabel value) := by unfold validLabel; infer_instance

def validateLabel (field value : String) : Except IdentityError Unit := ensure (validLabel value) (.invalidLabel field value)

def productKeySchemaName : String := "audec.product-key"

structure SchemaTag where
  contentClass : ContentClass
  name : String
  version : U32
  labelled : validLabel name
  versioned : version ≠ 0
  reserved : contentClass = .productKey → name = productKeySchemaName

instance decidableEqSchemaTag : DecidableEq SchemaTag := fun tag other =>
  decidable_of_iff (tag.contentClass = other.contentClass ∧ tag.name = other.name ∧ tag.version = other.version) (by
    cases tag
    cases other
    rw [SchemaTag.mk.injEq])

theorem productKey_labelled : validLabel productKeySchemaName := by decide

theorem one_versioned : (1 : U32) ≠ 0 := by decide

namespace SchemaTag

def new (contentClass : ContentClass) (name : String) (version : U32) : Except IdentityError SchemaTag :=
  if labelled : validLabel name then
    if versioned : version = 0 then .error .zeroSchemaVersion
    else if foreign : contentClass = .productKey ∧ name ≠ productKeySchemaName then .error (.reservedProductKeySchema name)
    else .ok ⟨contentClass, name, version, labelled, versioned, fun same => not_not.mp fun other => foreign ⟨same, other⟩⟩
  else .error (.invalidLabel "schema name" name)

def productKey : SchemaTag := ⟨.productKey, productKeySchemaName, 1, productKey_labelled, one_versioned, fun _ => rfl⟩

end SchemaTag

def pushBytes (bytes : Bytes) : Bytes := toBytes 8 bytes.length ++ bytes

def SchemaTag.encodeCanonical (tag : SchemaTag) : Bytes :=
  [tag.contentClass.discriminant] ++ pushBytes (asBytes tag.name) ++ toBytes 4 tag.version.val

abbrev CanonicalReader := Reader (Stop IdentityError)

namespace CanonicalInput

def fail {α : Type} (detail : String) : Except (Stop IdentityError) α := .error (.error (.malformedCanonical detail))

def byte : CanonicalReader UInt8 := fun input =>
  match input.rest with
  | value :: rest => .ok (value, ⟨input.consumed + 1, rest⟩)
  | [] => fail "unexpected end"

def take (n : Nat) : CanonicalReader Bytes := fun input =>
  if input.consumed + n < usizeLimit then
    if n ≤ input.rest.length then .ok (input.rest.take n, ⟨input.consumed + n, input.rest.drop n⟩) else fail "unexpected end"
  else fail "offset overflow"

def tryInto (length : Nat) (bytes : Bytes) : Except (Stop IdentityError) (Vector UInt8 length) :=
  if exactly : bytes.toArray.size = length then .ok ⟨bytes.toArray, exactly⟩ else .error .panic

def array (length : Nat) : CanonicalReader (Vector UInt8 length) := do
  let bytes ← take length
  checking (tryInto length bytes)

def u32 : CanonicalReader U32 := do
  let bytes ← array 4
  pure (Fin.ofNat _ (ofBytes bytes.toList))

def u64 : CanonicalReader U64 := do
  let bytes ← array 8
  pure (Fin.ofNat _ (ofBytes bytes.toList))

/-- A length always fits the word size. -/
def usizeLen : CanonicalReader Nat := do
  let length ← u64
  pure length.val

def bytes : CanonicalReader Bytes := do
  let n ← usizeLen
  take n

def utf8 (detail : String) (bytes : Bytes) : Except IdentityError String :=
  match fromUtf8 bytes with
  | some text => .ok text
  | none => .error (.malformedCanonical detail)

def text (detail : String) : CanonicalReader String := do
  let bytes ← bytes
  checking (lift (utf8 detail bytes))

def string : CanonicalReader String := text "string is not UTF-8"

def knownClass (value : UInt8) : Except IdentityError ContentClass :=
  match ContentClass.fromDiscriminant value with
  | some contentClass => .ok contentClass
  | none => .error (.malformedCanonical "unknown content class")

def contentClass : CanonicalReader ContentClass := do
  let value ← byte
  checking (lift (knownClass value))

/-- Nothing may follow what was read. -/
def finish (input : Input) : Except (Stop IdentityError) Unit := ensure (input.rest = []) (.error (.malformedCanonical "trailing bytes"))

def whole {α : Type} (read : CanonicalReader α) (bytes : Bytes) : Except (Stop IdentityError) α := do
  let result ← read ⟨0, bytes⟩
  finish result.2
  pure result.1

end CanonicalInput

open CanonicalInput

structure SchemaFields where
  contentClass : ContentClass
  name : String
  version : U32

def SchemaTag.readFields : CanonicalReader SchemaFields := do
  let contentClass ← CanonicalInput.contentClass
  let name ← text "schema name is not UTF-8"
  let version ← u32
  pure ⟨contentClass, name, version⟩

def SchemaTag.decodeCanonical (bytes : Bytes) : Except (Stop IdentityError) SchemaTag := do
  let fields ← whole SchemaTag.readFields bytes
  lift (SchemaTag.new fields.contentClass fields.name fields.version)

structure Digest where
  schema : SchemaTag
  sha256 : Vector UInt8 32
  deriving DecidableEq

def contentPreamble : Bytes := asBytes "audec:schema-content:v1" ++ [0]

def Digest.ofBytes (schema : SchemaTag) (bytes : Bytes) : Digest :=
  let encoded := schema.encodeCanonical
  let started := ((Sha256.new.update contentPreamble).update (toBytes 8 encoded.length)).update encoded
  let hasher := (started.update bytes).update (toBytes 8 bytes.length)
  ⟨schema, ⟨hasher.finalize.toArray, hasher.length_finalize⟩⟩

def encodeDigest (digest : Digest) : Bytes := pushBytes digest.schema.encodeCanonical ++ digest.sha256.toList

def Digest.encodeCanonical (digest : Digest) : Bytes := encodeDigest digest

def decodeSchema : CanonicalReader SchemaTag := do
  let bytes ← bytes
  checking (SchemaTag.decodeCanonical bytes)

def decodeSchemaInline : CanonicalReader SchemaTag := do
  let contentClass ← CanonicalInput.contentClass
  let name ← string
  let version ← u32
  checking (lift (SchemaTag.new contentClass name version))

def decodeDigest : CanonicalReader Digest := do
  let schema ← decodeSchema
  let sha256 ← array 32
  pure ⟨schema, sha256⟩

def Digest.decodeCanonical (bytes : Bytes) : Except (Stop IdentityError) Digest := whole decodeDigest bytes

namespace DependencySlot

def code (dependency : DependencySlot) : List Int :=
  (asBytes dependency.role).map (fun byte => (byte.toNat : Int)) ++ [-1, (dependency.slot.val : Int)]

theorem code_injective : Function.Injective code := by
  rintro ⟨role, slot⟩ ⟨role', slot'⟩ same
  unfold code at same
  obtain ⟨roles, slots⟩ := List.append_inj' same rfl
  simp only [List.cons.injEq, and_true, true_and] at slots
  have bytes := List.map_injective_iff.mpr (fun a b same => UInt8.toNat_inj.mp (Int.ofNat.inj same)) roles
  obtain rfl : role = role' := asBytes_injective bytes
  obtain rfl : slot = slot' := Codes.val_injective slots
  rfl

instance linearOrder : LinearOrder DependencySlot := Codes.codedOrder code code_injective

instance transOrd : Std.TransOrd DependencySlot := inferInstance

instance lawfulEqOrd : Std.LawfulEqOrd DependencySlot := ⟨compare_eq_iff_eq.mp⟩

def Valid (dependency : DependencySlot) : Prop := validLabel dependency.role

def new (role : String) (slot : U32) : Except IdentityError DependencySlot := do
  validateLabel "dependency role" role
  pure ⟨role, slot⟩

end DependencySlot

structure RuntimeDependency where
  provider : String
  generation : U64
  observation : Digest

def requireClass (digest : Digest) (expected : ContentClass) : Except IdentityError Unit :=
  ensure (digest.schema.contentClass = expected) (.wrongContentClass expected digest.schema.contentClass)

namespace RuntimeDependency

def Valid (dependency : RuntimeDependency) : Prop :=
  validLabel dependency.provider ∧ dependency.observation.schema.contentClass = .runtimeObservation

def new (provider : String) (generation : U64) (observation : Digest) : Except IdentityError RuntimeDependency := do
  validateLabel "runtime dependency provider" provider
  requireClass observation .runtimeObservation
  pure ⟨provider, generation, observation⟩

end RuntimeDependency

end Audec.Content

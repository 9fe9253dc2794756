import Audec.Lib.Collected
import Audec.Content.Identity

/-! Product keys: what a product was requested from, their builder and their canonical manifest, and
    references to stored objects. -/

open Std (ExtTreeMap)
open Machine Checked ByteReader LittleEndian

namespace Audec.Content

open CanonicalInput

abbrev Slots (α : Type) := ExtTreeMap DependencySlot α

structure ProductKeyBuilder where
  outputSchema : SchemaTag
  recipe : Digest
  encodedMedia : Slots Digest
  decodedPcm : Slots Digest
  products : Slots Digest
  artifacts : Slots Digest
  runtime : Slots RuntimeDependency

structure ProductKey extends ProductKeyBuilder where
  digest : Digest

def encodeSlot (dependency : DependencySlot) : Bytes := pushBytes (asBytes dependency.role) ++ toBytes 4 dependency.slot.val

def encodeDigestEntry (entry : DependencySlot × Digest) : Bytes := encodeSlot entry.1 ++ encodeDigest entry.2

def encodeRuntimeEntry (entry : DependencySlot × RuntimeDependency) : Bytes :=
  encodeSlot entry.1 ++ (pushBytes (asBytes entry.2.provider) ++ (toBytes 8 entry.2.generation.val ++ encodeDigest entry.2.observation))

def encodeEntries {α : Type} (encode : DependencySlot × α → Bytes) (entries : List (DependencySlot × α)) : Bytes :=
  toBytes 8 entries.length ++ entries.flatMap encode

def encodeDigestMap (values : Slots Digest) : Bytes := encodeEntries encodeDigestEntry values.toList

def encodeProductKeyFields (fields : ProductKeyBuilder) : Bytes :=
  fields.outputSchema.encodeCanonical ++ (encodeDigest fields.recipe ++ (encodeDigestMap fields.encodedMedia ++
    (encodeDigestMap fields.decodedPcm ++ (encodeDigestMap fields.products ++ (encodeDigestMap fields.artifacts ++
      encodeEntries encodeRuntimeEntry fields.runtime.toList)))))

def insertUnique {α : Type} (values : Slots α) (slot : DependencySlot) (value : α) : Except IdentityError (Slots α) :=
  match values[slot]? with
  | some _ => .error (.duplicateDependency slot)
  | none => .ok (values.insert slot value)

def ContentClass.isInput (contentClass : ContentClass) : Bool :=
  contentClass = .canonicalEncodedMedia || contentClass = .canonicalDecodedPcm || contentClass = .recipe ||
    contentClass = .runtimeObservation || contentClass = .productKey

def ContentClass.isArtifact (contentClass : ContentClass) : Bool :=
  contentClass = .analysisArtifact || contentClass = .modelArtifact || contentClass = .readingAttachment

namespace ProductKeyBuilder

def add {α : Type} (get : ProductKeyBuilder → Slots α) (set : ProductKeyBuilder → Slots α → ProductKeyBuilder)
    (check : α → Except IdentityError Unit) (builder : ProductKeyBuilder) (slot : DependencySlot) (value : α) :
    Except IdentityError ProductKeyBuilder := do
  check value
  let values ← insertUnique (get builder) slot value
  pure (set builder values)

def addEncodedMedia : ProductKeyBuilder → DependencySlot → Digest → Except IdentityError ProductKeyBuilder :=
  add encodedMedia (fun builder encodedMedia => { builder with encodedMedia }) fun digest => requireClass digest .canonicalEncodedMedia

def addDecodedPcm : ProductKeyBuilder → DependencySlot → Digest → Except IdentityError ProductKeyBuilder :=
  add decodedPcm (fun builder decodedPcm => { builder with decodedPcm }) fun digest => requireClass digest .canonicalDecodedPcm

def addProduct : ProductKeyBuilder → DependencySlot → Digest → Except IdentityError ProductKeyBuilder :=
  add products (fun builder products => { builder with products }) fun digest => requireClass digest .renderProduct

def requireArtifact (digest : Digest) : Except IdentityError Unit :=
  ensure (digest.schema.contentClass.isArtifact = true) (.invalidArtifactClass digest.schema.contentClass)

def addArtifact : ProductKeyBuilder → DependencySlot → Digest → Except IdentityError ProductKeyBuilder :=
  add artifacts (fun builder artifacts => { builder with artifacts }) requireArtifact

def addRuntime : ProductKeyBuilder → DependencySlot → RuntimeDependency → Except IdentityError ProductKeyBuilder :=
  add runtime (fun builder runtime => { builder with runtime }) fun _ => .ok ()

def build (builder : ProductKeyBuilder) : ProductKey :=
  { builder with digest := .ofBytes .productKey (encodeProductKeyFields builder) }

end ProductKeyBuilder

def ProductKey.builder (outputSchema : SchemaTag) (recipe : Digest) : Except IdentityError ProductKeyBuilder := do
  requireClass recipe .recipe
  ensure (outputSchema.contentClass.isInput = false) (.invalidProductOutput outputSchema.contentClass)
  pure ⟨outputSchema, recipe, ∅, ∅, ∅, ∅, ∅⟩

def decodeSlot : CanonicalReader DependencySlot := do
  let role ← string
  let slot ← u32
  checking (lift (DependencySlot.new role slot))

def decodeDigestEntry : CanonicalReader (DependencySlot × Digest) := do
  let slot ← decodeSlot
  let digest ← decodeDigest
  pure (slot, digest)

def decodeRuntimeEntry : CanonicalReader (DependencySlot × RuntimeDependency) := do
  let slot ← decodeSlot
  let provider ← string
  let generation ← u64
  let observation ← decodeDigest
  let dependency ← checking (lift (RuntimeDependency.new provider generation observation))
  pure (slot, dependency)

def decodeInto {α : Type} (decode : CanonicalReader (DependencySlot × α)) : Nat → Slots α → CanonicalReader (Slots α)
  | 0, values => pure values
  | count + 1, values => do
    let entry ← decode
    let values ← checking (lift (insertUnique values entry.1 entry.2))
    decodeInto decode count values

def decodeMap {α : Type} (decode : CanonicalReader (DependencySlot × α)) : CanonicalReader (Slots α) := do
  let count ← usizeLen
  decodeInto decode count ∅

def decodeDigestMap : CanonicalReader (Slots Digest) := decodeMap decodeDigestEntry

/-- The manifest as it was read, before the builder checks it. -/
def decodeFields : CanonicalReader ProductKeyBuilder := do
  let outputSchema ← decodeSchemaInline
  let recipe ← decodeDigest
  let encodedMedia ← decodeDigestMap
  let decodedPcm ← decodeDigestMap
  let products ← decodeDigestMap
  let artifacts ← decodeDigestMap
  let runtime ← decodeMap decodeRuntimeEntry
  pure ⟨outputSchema, recipe, encodedMedia, decodedPcm, products, artifacts, runtime⟩

/-- The builder takes what was read once more. -/
def rebuild (fields : ProductKeyBuilder) : Except IdentityError ProductKeyBuilder := do
  let builder ← ProductKey.builder fields.outputSchema fields.recipe
  let builder ← fields.encodedMedia.toList.foldlM (fun builder entry => builder.addEncodedMedia entry.1 entry.2) builder
  let builder ← fields.decodedPcm.toList.foldlM (fun builder entry => builder.addDecodedPcm entry.1 entry.2) builder
  let builder ← fields.products.toList.foldlM (fun builder entry => builder.addProduct entry.1 entry.2) builder
  let builder ← fields.artifacts.toList.foldlM (fun builder entry => builder.addArtifact entry.1 entry.2) builder
  fields.runtime.toList.foldlM (fun builder entry => builder.addRuntime entry.1 entry.2) builder

namespace ProductKey

def encodeCanonical (key : ProductKey) : Bytes := encodeProductKeyFields key.toProductKeyBuilder

def decodeCanonical (bytes : Bytes) : Except (Stop IdentityError) ProductKey := do
  let fields ← whole decodeFields bytes
  let builder ← lift (rebuild fields)
  pure builder.build

end ProductKey

inductive StoreError where
  | malformedReference (detail : String)
  | identity (error : IdentityError)

def asStoreError : Stop IdentityError → Stop StoreError
  | .error error => .error (.identity error)
  | .panic => .panic

structure ObjectRef where
  digest : Digest
  byteLen : U64
  deriving DecidableEq

def sliceOf (bytes : Bytes) (start stop : Nat) : Except (Stop StoreError) Bytes :=
  if start ≤ stop ∧ stop ≤ bytes.length then .ok ((bytes.take stop).drop start) else .error .panic

def u64Of (bytes : Bytes) : Except (Stop StoreError) U64 :=
  if bytes.length = 8 then .ok (Fin.ofNat _ (LittleEndian.ofBytes bytes)) else .error .panic

def checkedUsize (sum : Nat) (detail : String) : Except (Stop StoreError) Nat :=
  if sum < usizeLimit then .ok sum else .error (.error (.malformedReference detail))

namespace ObjectRef

def encodeCanonical (object : ObjectRef) : Bytes :=
  toBytes 8 object.digest.encodeCanonical.length ++ (object.digest.encodeCanonical ++ toBytes 8 object.byteLen.val)

def decodeCanonical (bytes : Bytes) : Except (Stop StoreError) ObjectRef := do
  ensure (16 ≤ bytes.length) (.error (.malformedReference "object reference is truncated"))
  let digestLen ← u64Of (← sliceOf bytes 0 8)
  let digestEnd ← checkedUsize (8 + digestLen.val) "digest length overflows"
  let byteLenEnd ← checkedUsize (digestEnd + 8) "reference length overflows"
  ensure (byteLenEnd = bytes.length) (.error (.malformedReference "object reference has trailing or missing bytes"))
  let digest ← (Digest.decodeCanonical (← sliceOf bytes 8 digestEnd)).mapError asStoreError
  let byteLen ← u64Of (← sliceOf bytes digestEnd byteLenEnd)
  pure ⟨digest, byteLen⟩

end ObjectRef

end Audec.Content

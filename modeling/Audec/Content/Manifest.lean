import Audec.Content.Exact
import Audec.Content.ProductKey

/-! The product-key manifest as it is listed in bytes, and the key that is read from it. -/

open Std (ExtTreeMap)
open Machine Checked ByteReader LittleEndian Collected List Entries

namespace Audec.Content

open CanonicalInput

theorem DependencySlot.new_ok {role : String} {slot : U32} {dependency : DependencySlot} :
    new role slot = .ok dependency ↔ dependency.Valid ∧ dependency.role = role ∧ dependency.slot = slot := by
  unfold new validateLabel Valid
  rw [bind_unit_ok, ensure_ok]
  constructor
  · rintro ⟨valid, same⟩
    cases same
    exact ⟨valid, rfl, rfl⟩
  · rintro ⟨valid, rfl, rfl⟩
    exact ⟨valid, rfl⟩

theorem RuntimeDependency.new_ok {provider : String} {generation : U64} {observation : Digest} {dependency : RuntimeDependency} :
    new provider generation observation = .ok dependency ↔
      dependency.Valid ∧ dependency.provider = provider ∧ dependency.generation = generation ∧ dependency.observation = observation := by
  unfold new validateLabel requireClass Valid
  rw [bind_unit_ok, ensure_ok, bind_unit_ok, ensure_ok]
  constructor
  · rintro ⟨valid, observed, same⟩
    cases same
    exact ⟨⟨valid, observed⟩, rfl, rfl, rfl⟩
  · rintro ⟨⟨valid, observed⟩, rfl, rfl, rfl⟩
    exact ⟨valid, observed, rfl⟩

theorem reads_decodeSlot : Reads decodeSlot encodeSlot DependencySlot.Valid := by
  refine (reads_string.bind DependencySlot.role (fun dependency => toBytes 4 dependency.slot.val ++ []) (fun _ valid => label_lt valid)
    fun role _ => ?_).congr (fun _ => Iff.rfl) fun dependency _ => by
      rw [append_nil]
      rfl
  refine reads_u32.bind DependencySlot.slot _ (fun _ _ => trivial) fun slot _ => ?_
  apply Exact.checking
  intro dependency
  rw [lift_ok, DependencySlot.new_ok, and_assoc]
  exact Iff.rfl

theorem reads_decodeDigestEntry : Reads decodeDigestEntry encodeDigestEntry fun entry => entry.1.Valid := by
  refine (reads_decodeSlot.bind Prod.fst (fun entry => encodeDigest entry.2 ++ []) (fun _ valid => valid)
    fun slot valid => ?_).congr (fun _ => Iff.rfl) fun entry _ => by
      rw [append_nil]
      rfl
  refine reads_decodeDigest.bind Prod.snd _ (fun _ _ => trivial) fun digest _ => ?_
  refine (reads_pure (slot, digest)).congr (fun entry => ?_) fun _ _ => rfl
  constructor
  · rintro rfl
    exact ⟨⟨valid, rfl⟩, rfl⟩
  · rintro ⟨⟨-, rfl⟩, rfl⟩
    rfl

theorem reads_decodeRuntimeEntry : Reads decodeRuntimeEntry encodeRuntimeEntry fun entry => entry.1.Valid ∧ entry.2.Valid := by
  refine (reads_decodeSlot.bind Prod.fst (fun entry => pushBytes (asBytes entry.2.provider) ++ (toBytes 8 entry.2.generation.val ++
    (encodeDigest entry.2.observation ++ ([] ++ [])))) (fun _ valid => valid.1) fun slot valid => ?_).congr (fun _ => Iff.rfl) fun entry _ => by
      rw [append_nil, append_nil]
      rfl
  refine reads_string.bind (fun entry : DependencySlot × RuntimeDependency => entry.2.provider) _ (fun entry good => label_lt good.1.2.1) fun provider _ => ?_
  refine reads_u64.bind (fun entry : DependencySlot × RuntimeDependency => entry.2.generation) _ (fun _ _ => trivial) fun generation _ => ?_
  refine reads_decodeDigest.bind (fun entry : DependencySlot × RuntimeDependency => entry.2.observation) _ (fun _ _ => trivial) fun observation _ => ?_
  have checked : Reads (checking (lift (RuntimeDependency.new provider generation observation))) (fun _ => [])
      fun dependency => dependency.Valid ∧ dependency.provider = provider ∧ dependency.generation = generation ∧ dependency.observation = observation :=
    Exact.checking fun dependency => by rw [lift_ok, RuntimeDependency.new_ok]
  refine checked.bind Prod.snd _ ?_ fun dependency good => ?_
  · rintro entry ⟨⟨⟨⟨⟨-, valid'⟩, -⟩, provided⟩, generated⟩, observed⟩
    exact ⟨valid', provided, generated, observed⟩
  · refine (reads_pure (slot, dependency)).congr (fun entry => ?_) fun _ _ => rfl
    constructor
    · rintro rfl
      exact ⟨⟨⟨⟨⟨⟨valid, good.1⟩, rfl⟩, good.2.1⟩, good.2.2.1⟩, good.2.2.2⟩, rfl⟩
    · rintro ⟨⟨⟨⟨⟨-, same⟩, -⟩, -⟩, -⟩, same'⟩
      exact Prod.ext same same'

variable {α : Type}

def readEntries {α : Type} (decode : CanonicalReader (DependencySlot × α)) : CanonicalReader (List (DependencySlot × α)) := do
  let count ← usizeLen
  many decode count

variable {decode : CanonicalReader (DependencySlot × α)}

theorem reads_readEntries {encode : DependencySlot × α → Bytes}
    {valid : DependencySlot × α → Prop} (reads : Reads decode encode valid) :
    Reads (readEntries decode) (encodeEntries encode) fun entries => entries.length < usizeLimit ∧ ∀ entry ∈ entries, valid entry := by
  refine reads_usizeLen.bind List.length _ (fun _ good => good.1) fun count small => ?_
  refine (Exact.many reads count).congr (fun entries => ?_) fun _ _ => rfl
  constructor
  · rintro ⟨rfl, good⟩
    exact ⟨⟨small, good⟩, rfl⟩
  · rintro ⟨⟨-, good⟩, same⟩
    exact ⟨same, good⟩

theorem insertUnique_ok {values values' : Slots α} {slot : DependencySlot} {value : α} :
    insertUnique values slot value = .ok values' ↔ values[slot]? = none ∧ values' = values.insert slot value := by
  unfold insertUnique
  cases held : values[slot]? with
  | some _ => simp
  | none => simp [eq_comm]

def FreshFor {α : Type} (values : Slots α) (entries : List (DependencySlot × α)) : Prop :=
  (entries.map Prod.fst).Nodup ∧ ∀ entry ∈ entries, values[entry.1]? = none

theorem freshFor_cons {values : Slots α} {entry : DependencySlot × α} {entries : List (DependencySlot × α)} :
    FreshFor values (entry :: entries) ↔ values[entry.1]? = none ∧ FreshFor (values.insert entry.1 entry.2) entries := by
  unfold FreshFor
  rw [map_cons, nodup_cons]
  constructor
  · rintro ⟨⟨apart, distinct⟩, fresh⟩
    refine ⟨fresh entry mem_cons_self, distinct, fun other member => ?_⟩
    rw [lookup_insert, if_neg, fresh other (mem_cons_of_mem _ member)]
    intro same
    exact apart (same ▸ mem_map_of_mem member)
  · rintro ⟨absent, distinct, fresh⟩
    have apart : ∀ other ∈ entries, entry.1 ≠ other.1 ∧ values[other.1]? = none := by
      intro other member
      have here := fresh other member
      rw [lookup_insert] at here
      split at here
      · cases here
      · rename_i apart
        exact ⟨apart, here⟩
    refine ⟨⟨fun member => ?_, distinct⟩, fun other member => ?_⟩
    · obtain ⟨other, inside, same⟩ := mem_map.mp member
      exact (apart other inside).1 same.symm
    · rcases mem_cons.mp member with rfl | member
      · exact absent
      · exact (apart other member).2

theorem decodeInto_ok {count : Nat} {values result : Slots α} {input after : Input} :
    decodeInto decode count values input = .ok (result, after) ↔
      ∃ entries, many decode count input = .ok (entries, after) ∧ FreshFor values entries ∧ result = collectInto values entries := by
  induction count generalizing values input with
  | zero =>
    unfold decodeInto many
    rw [pure_ok]
    constructor
    · rintro ⟨rfl, rfl⟩
      exact ⟨[], rfl, ⟨nodup_nil, fun _ member => absurd member not_mem_nil⟩, rfl⟩
    · rintro ⟨entries, read, -, rfl⟩
      obtain ⟨rfl, rfl⟩ := pure_ok.mp read
      exact ⟨rfl, rfl⟩
  | succ count tail =>
    unfold decodeInto many
    rw [ByteReader.bind_ok]
    constructor
    · rintro ⟨entry, between, read, rest⟩
      obtain ⟨values', between', inserted, rest⟩ := ByteReader.bind_ok.mp rest
      obtain ⟨checked, rfl⟩ := checking_ok.mp inserted
      obtain ⟨absent, rfl⟩ := insertUnique_ok.mp (lift_ok.mp checked)
      obtain ⟨entries, later, fresh, rfl⟩ := tail.mp rest
      exact ⟨entry :: entries, ByteReader.bind_ok.mpr ⟨_, _, read, ByteReader.bind_ok.mpr ⟨_, _, later, rfl⟩⟩, freshFor_cons.mpr ⟨absent, fresh⟩, rfl⟩
    · rintro ⟨entries, read, fresh, rfl⟩
      obtain ⟨entry, between, here, rest⟩ := ByteReader.bind_ok.mp read
      obtain ⟨others, between', later, ended⟩ := ByteReader.bind_ok.mp rest
      obtain ⟨rfl, rfl⟩ := pure_ok.mp ended
      obtain ⟨absent, fresh⟩ := freshFor_cons.mp fresh
      refine ⟨entry, between, here, ByteReader.bind_ok.mpr ⟨_, _, checking_ok.mpr ⟨lift_ok.mpr (insertUnique_ok.mpr ⟨absent, rfl⟩), rfl⟩, ?_⟩⟩
      exact tail.mpr ⟨others, later, fresh, rfl⟩

theorem decodeMap_ok {result : Slots α} {input after : Input} :
    decodeMap decode input = .ok (result, after) ↔
      ∃ entries, readEntries decode input = .ok (entries, after) ∧ (entries.map Prod.fst).Nodup ∧ result = collect entries := by
  unfold decodeMap readEntries
  simp only [ByteReader.bind_ok, decodeInto_ok]
  constructor
  · rintro ⟨count, between, counted, entries, read, fresh, rfl⟩
    exact ⟨entries, ⟨count, between, counted, read⟩, fresh.1, rfl⟩
  · rintro ⟨entries, ⟨count, between, counted, read⟩, distinct, rfl⟩
    exact ⟨count, between, counted, entries, read, ⟨distinct, fun _ _ => ExtTreeMap.getElem?_empty⟩, rfl⟩

structure Manifest where
  outputSchema : SchemaTag
  recipe : Digest
  encodedMedia : List (DependencySlot × Digest)
  decodedPcm : List (DependencySlot × Digest)
  products : List (DependencySlot × Digest)
  artifacts : List (DependencySlot × Digest)
  runtime : List (DependencySlot × RuntimeDependency)

namespace Manifest

/-- What the bytes of a product key list. -/
def read : CanonicalReader Manifest := do
  let outputSchema ← decodeSchemaInline
  let recipe ← decodeDigest
  let encodedMedia ← readEntries decodeDigestEntry
  let decodedPcm ← readEntries decodeDigestEntry
  let products ← readEntries decodeDigestEntry
  let artifacts ← readEntries decodeDigestEntry
  let runtime ← readEntries decodeRuntimeEntry
  pure ⟨outputSchema, recipe, encodedMedia, decodedPcm, products, artifacts, runtime⟩

def write (manifest : Manifest) : Bytes :=
  manifest.outputSchema.encodeCanonical ++ (encodeDigest manifest.recipe ++ (encodeEntries encodeDigestEntry manifest.encodedMedia ++
    (encodeEntries encodeDigestEntry manifest.decodedPcm ++ (encodeEntries encodeDigestEntry manifest.products ++
      (encodeEntries encodeDigestEntry manifest.artifacts ++ encodeEntries encodeRuntimeEntry manifest.runtime)))))

def DigestsValid (entries : List (DependencySlot × Digest)) : Prop := entries.length < usizeLimit ∧ ∀ entry ∈ entries, entry.1.Valid

structure Valid (manifest : Manifest) : Prop where
  encodedMedia : DigestsValid manifest.encodedMedia
  decodedPcm : DigestsValid manifest.decodedPcm
  products : DigestsValid manifest.products
  artifacts : DigestsValid manifest.artifacts
  runtime : manifest.runtime.length < usizeLimit ∧ ∀ entry ∈ manifest.runtime, entry.1.Valid ∧ entry.2.Valid

theorem reads : Reads read write Valid := by
  refine (reads_decodeSchemaInline.bind Manifest.outputSchema (fun manifest => encodeDigest manifest.recipe ++
    (encodeEntries encodeDigestEntry manifest.encodedMedia ++ (encodeEntries encodeDigestEntry manifest.decodedPcm ++
      (encodeEntries encodeDigestEntry manifest.products ++ (encodeEntries encodeDigestEntry manifest.artifacts ++
        (encodeEntries encodeRuntimeEntry manifest.runtime ++ [])))))) (fun _ _ => trivial) fun outputSchema _ => ?_).congr
          (fun _ => Iff.rfl) fun manifest _ => by
            rw [append_nil]
            rfl
  have digests := reads_readEntries reads_decodeDigestEntry
  refine reads_decodeDigest.bind Manifest.recipe _ (fun _ _ => trivial) fun recipe _ => ?_
  refine digests.bind Manifest.encodedMedia _ (fun _ good => good.1.1.encodedMedia) fun encodedMedia media => ?_
  refine digests.bind Manifest.decodedPcm _ (fun _ good => good.1.1.1.decodedPcm) fun decodedPcm pcm => ?_
  refine digests.bind Manifest.products _ (fun _ good => good.1.1.1.1.products) fun products made => ?_
  refine digests.bind Manifest.artifacts _ (fun _ good => good.1.1.1.1.1.artifacts) fun artifacts kept => ?_
  refine (reads_readEntries reads_decodeRuntimeEntry).bind Manifest.runtime _ (fun _ good => good.1.1.1.1.1.1.runtime) fun runtime ran => ?_
  refine (reads_pure (Manifest.mk outputSchema recipe encodedMedia decodedPcm products artifacts runtime)).congr (fun manifest => ?_) fun _ _ => rfl
  constructor
  · rintro rfl
    exact ⟨⟨⟨⟨⟨⟨⟨⟨media, pcm, made, kept, ran⟩, rfl⟩, rfl⟩, rfl⟩, rfl⟩, rfl⟩, rfl⟩, rfl⟩
  · rintro ⟨⟨⟨⟨⟨⟨⟨-, rfl⟩, rfl⟩, rfl⟩, rfl⟩, rfl⟩, rfl⟩, rfl⟩
    rfl

/-- No slot is listed twice. -/
structure Distinct (manifest : Manifest) : Prop where
  encodedMedia : (manifest.encodedMedia.map Prod.fst).Nodup
  decodedPcm : (manifest.decodedPcm.map Prod.fst).Nodup
  products : (manifest.products.map Prod.fst).Nodup
  artifacts : (manifest.artifacts.map Prod.fst).Nodup
  runtime : (manifest.runtime.map Prod.fst).Nodup

def collected (manifest : Manifest) : ProductKeyBuilder :=
  ⟨manifest.outputSchema, manifest.recipe, collect manifest.encodedMedia, collect manifest.decodedPcm, collect manifest.products,
    collect manifest.artifacts, collect manifest.runtime⟩

theorem decodeFields_ok {fields : ProductKeyBuilder} {input after : Input} :
    decodeFields input = .ok (fields, after) ↔
      ∃ manifest : Manifest, read input = .ok (manifest, after) ∧ manifest.Distinct ∧ fields = manifest.collected := by
  unfold decodeFields read decodeDigestMap
  simp only [ByteReader.bind_ok, decodeMap_ok, pure_ok]
  constructor
  · rintro ⟨outputSchema, i₁, schemas, recipe, i₂, recipes, _, i₃, ⟨encodedMedia, media, distinct₁, rfl⟩, _, i₄,
      ⟨decodedPcm, pcm, distinct₂, rfl⟩, _, i₅, ⟨products, made, distinct₃, rfl⟩, _, i₆, ⟨artifacts, kept, distinct₄, rfl⟩, _, i₇,
      ⟨runtime, ran, distinct₅, rfl⟩, rfl, rfl⟩
    exact ⟨⟨outputSchema, recipe, encodedMedia, decodedPcm, products, artifacts, runtime⟩,
      ⟨outputSchema, i₁, schemas, recipe, i₂, recipes, encodedMedia, i₃, media, decodedPcm, i₄, pcm, products, i₅, made, artifacts, i₆, kept,
        runtime, _, ran, rfl, rfl⟩, ⟨distinct₁, distinct₂, distinct₃, distinct₄, distinct₅⟩, rfl⟩
  · rintro ⟨-, ⟨outputSchema, i₁, schemas, recipe, i₂, recipes, encodedMedia, i₃, media, decodedPcm, i₄, pcm, products, i₅, made, artifacts, i₆,
      kept, runtime, i₇, ran, rfl, rfl⟩, distinct, rfl⟩
    exact ⟨outputSchema, i₁, schemas, recipe, i₂, recipes, _, i₃, ⟨encodedMedia, media, distinct.encodedMedia, rfl⟩, _, i₄,
      ⟨decodedPcm, pcm, distinct.decodedPcm, rfl⟩, _, i₅, ⟨products, made, distinct.products, rfl⟩, _, i₆,
      ⟨artifacts, kept, distinct.artifacts, rfl⟩, _, _, ⟨runtime, ran, distinct.runtime, rfl⟩, rfl, rfl⟩

end Manifest

end Audec.Content

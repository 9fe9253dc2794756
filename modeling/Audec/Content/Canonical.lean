import Audec.Content.Manifest

/-! The canonical identities are exact codecs, the order of a product key's entries apart. -/

open Std (ExtTreeMap)
open Machine Checked ByteReader LittleEndian Collected

namespace Audec.Content

open CanonicalInput Manifest

namespace ProductKeyBuilder

section Adding

variable {α : Type} {get : ProductKeyBuilder → Slots α} {set : ProductKeyBuilder → Slots α → ProductKeyBuilder}
  {check : α → Except IdentityError Unit}

theorem add_ok {builder after : ProductKeyBuilder} {slot : DependencySlot} {value : α} :
    add get set check builder slot value = .ok after ↔
      check value = .ok () ∧ (get builder)[slot]? = none ∧ after = set builder ((get builder).insert slot value) := by
  unfold add
  rw [bind_unit_ok, Checked.bind_ok]
  constructor
  · rintro ⟨checked, values, inserted, same⟩
    obtain ⟨absent, rfl⟩ := insertUnique_ok.mp inserted
    cases same
    exact ⟨checked, absent, rfl⟩
  · rintro ⟨checked, absent, rfl⟩
    exact ⟨checked, _, insertUnique_ok.mpr ⟨absent, rfl⟩, rfl⟩

theorem foldlM_add_ok (get_set : ∀ builder values, get (set builder values) = values)
    (set_set : ∀ builder values values', set (set builder values) values' = set builder values')
    (set_get : ∀ builder, set builder (get builder) = builder) {entries : List (DependencySlot × α)} {builder after : ProductKeyBuilder} :
    entries.foldlM (fun builder entry => add get set check builder entry.1 entry.2) builder = .ok after ↔
      (∀ entry ∈ entries, check entry.2 = .ok ()) ∧ FreshFor (get builder) entries ∧ after = set builder (collectInto (get builder) entries) := by
  induction entries generalizing builder with
  | nil =>
    rw [List.foldlM_nil]
    constructor
    · intro same
      cases same
      exact ⟨fun _ member => absurd member List.not_mem_nil, ⟨List.nodup_nil, fun _ member => absurd member List.not_mem_nil⟩,
        (set_get _).symm⟩
    · rintro ⟨-, -, rfl⟩
      exact congrArg Except.ok (set_get builder).symm
  | cons entry entries tail =>
    rw [List.foldlM_cons, Checked.bind_ok, freshFor_cons]
    simp only [add_ok, tail, List.forall_mem_cons]
    constructor
    · rintro ⟨_, ⟨checked, absent, rfl⟩, all, fresh, rfl⟩
      rw [get_set] at fresh
      refine ⟨⟨checked, all⟩, ⟨absent, fresh⟩, ?_⟩
      rw [set_set, get_set]
      rfl
    · rintro ⟨⟨checked, all⟩, ⟨absent, fresh⟩, rfl⟩
      refine ⟨_, ⟨checked, absent, rfl⟩, all, ?_, ?_⟩
      · rwa [get_set]
      · rw [set_set, get_set]
        rfl

theorem freshFor_toList (values : Slots α) : FreshFor (∅ : Slots α) values.toList :=
  ⟨distinct_keys values, fun _ _ => ExtTreeMap.getElem?_empty⟩

theorem foldlM_toList_ok (get_set : ∀ builder values, get (set builder values) = values)
    (set_set : ∀ builder values values', set (set builder values) values' = set builder values')
    (set_get : ∀ builder, set builder (get builder) = builder) (values : Slots α) {builder after : ProductKeyBuilder} (idle : get builder = ∅) :
    values.toList.foldlM (fun builder entry => add get set check builder entry.1 entry.2) builder = .ok after ↔
      (∀ entry ∈ values.toList, check entry.2 = .ok ()) ∧ after = set builder values := by
  have all : collectInto ∅ values.toList = values := collect_toList values
  rw [foldlM_add_ok get_set set_set set_get, idle, all]
  exact ⟨fun ⟨checked, _, same⟩ => ⟨checked, same⟩, fun ⟨checked, same⟩ => ⟨checked, freshFor_toList values, same⟩⟩

end Adding

structure Classed (fields : ProductKeyBuilder) : Prop where
  recipe : fields.recipe.schema.contentClass = .recipe
  output : fields.outputSchema.contentClass.isInput = false
  encodedMedia : ∀ entry ∈ fields.encodedMedia.toList, requireClass entry.2 .canonicalEncodedMedia = .ok ()
  decodedPcm : ∀ entry ∈ fields.decodedPcm.toList, requireClass entry.2 .canonicalDecodedPcm = .ok ()
  products : ∀ entry ∈ fields.products.toList, requireClass entry.2 .renderProduct = .ok ()
  artifacts : ∀ entry ∈ fields.artifacts.toList, requireArtifact entry.2 = .ok ()

theorem builder_ok {outputSchema : SchemaTag} {recipe : Digest} {builder : ProductKeyBuilder} :
    ProductKey.builder outputSchema recipe = .ok builder ↔ recipe.schema.contentClass = .recipe ∧ outputSchema.contentClass.isInput = false ∧
      builder = ⟨outputSchema, recipe, ∅, ∅, ∅, ∅, ∅⟩ := by
  unfold ProductKey.builder requireClass
  rw [bind_unit_ok, ensure_ok, bind_unit_ok, ensure_ok]
  exact and_congr_right fun _ => and_congr_right fun _ => ⟨fun same => (Except.ok.inj same).symm, fun same => congrArg Except.ok same.symm⟩

theorem rebuild_ok {fields after : ProductKeyBuilder} : rebuild fields = .ok after ↔ fields.Classed ∧ after = fields := by
  obtain ⟨outputSchema, recipe, media, pcm, made, kept, ran⟩ := fields
  have addMedia := fun {after} => @foldlM_toList_ok Digest encodedMedia (fun builder encodedMedia => { builder with encodedMedia })
    (fun digest => requireClass digest .canonicalEncodedMedia) (fun _ _ => rfl) (fun _ _ _ => rfl) (fun _ => rfl) media
    ⟨outputSchema, recipe, ∅, ∅, ∅, ∅, ∅⟩ after rfl
  have addPcm := fun {after} => @foldlM_toList_ok Digest decodedPcm (fun builder decodedPcm => { builder with decodedPcm })
    (fun digest => requireClass digest .canonicalDecodedPcm) (fun _ _ => rfl) (fun _ _ _ => rfl) (fun _ => rfl) pcm
    ⟨outputSchema, recipe, media, ∅, ∅, ∅, ∅⟩ after rfl
  have addMade := fun {after} => @foldlM_toList_ok Digest products (fun builder products => { builder with products })
    (fun digest => requireClass digest .renderProduct) (fun _ _ => rfl) (fun _ _ _ => rfl) (fun _ => rfl) made
    ⟨outputSchema, recipe, media, pcm, ∅, ∅, ∅⟩ after rfl
  have addKept := fun {after} => @foldlM_toList_ok Digest artifacts (fun builder artifacts => { builder with artifacts })
    requireArtifact (fun _ _ => rfl) (fun _ _ _ => rfl) (fun _ => rfl) kept ⟨outputSchema, recipe, media, pcm, made, ∅, ∅⟩ after rfl
  have addRan := fun {after} => @foldlM_toList_ok RuntimeDependency runtime (fun builder runtime => { builder with runtime })
    (fun _ => .ok ()) (fun _ _ => rfl) (fun _ _ _ => rfl) (fun _ => rfl) ran ⟨outputSchema, recipe, media, pcm, made, kept, ∅⟩ after rfl
  unfold rebuild
  simp only [Checked.bind_ok, builder_ok]
  constructor
  · rintro ⟨_, ⟨recipes, outputs, rfl⟩, _, medias, _, pcms, _, mades, _, kepts, rans⟩
    obtain ⟨media_classes, rfl⟩ := addMedia.mp medias
    obtain ⟨pcm_classes, rfl⟩ := addPcm.mp pcms
    obtain ⟨made_classes, rfl⟩ := addMade.mp mades
    obtain ⟨kept_classes, rfl⟩ := addKept.mp kepts
    obtain ⟨-, rfl⟩ := addRan.mp rans
    exact ⟨⟨recipes, outputs, media_classes, pcm_classes, made_classes, kept_classes⟩, rfl⟩
  · rintro ⟨⟨recipes, outputs, medias, pcms, mades, kepts⟩, rfl⟩
    exact ⟨_, ⟨recipes, outputs, rfl⟩, _, addMedia.mpr ⟨medias, rfl⟩, _, addPcm.mpr ⟨pcms, rfl⟩, _, addMade.mpr ⟨mades, rfl⟩, _,
      addKept.mpr ⟨kepts, rfl⟩, addRan.mpr ⟨fun _ _ => rfl, rfl⟩⟩

end ProductKeyBuilder

/-- The entries of a key in the order of their slots. -/
def ProductKeyBuilder.listed (fields : ProductKeyBuilder) : Manifest :=
  ⟨fields.outputSchema, fields.recipe, fields.encodedMedia.toList, fields.decodedPcm.toList, fields.products.toList,
    fields.artifacts.toList, fields.runtime.toList⟩

theorem write_listed (fields : ProductKeyBuilder) : fields.listed.write = encodeProductKeyFields fields := rfl

def Ascending {α : Type} (entries : List (DependencySlot × α)) : Prop := entries.Pairwise fun a b => compare a.1 b.1 = .lt

/-- Each map's entries come in the order of their slots. -/
structure Manifest.Ordered (manifest : Manifest) : Prop where
  encodedMedia : Ascending manifest.encodedMedia
  decodedPcm : Ascending manifest.decodedPcm
  products : Ascending manifest.products
  artifacts : Ascending manifest.artifacts
  runtime : Ascending manifest.runtime

section

variable (fields : ProductKeyBuilder)

theorem listed_ordered : fields.listed.Ordered :=
  ⟨Queue.ordered_keys _, Queue.ordered_keys _, Queue.ordered_keys _, Queue.ordered_keys _, Queue.ordered_keys _⟩

theorem listed_distinct : fields.listed.Distinct :=
  ⟨distinct_keys _, distinct_keys _, distinct_keys _, distinct_keys _, distinct_keys _⟩

theorem collected_listed : fields.listed.collected = fields := by
  unfold ProductKeyBuilder.listed collected
  simp only [collect_toList]

end

theorem listed_collected {manifest : Manifest} (ordered : manifest.Ordered) : manifest.collected.listed = manifest := by
  unfold ProductKeyBuilder.listed collected
  simp only [toList_collect ordered.encodedMedia, toList_collect ordered.decodedPcm, toList_collect ordered.products,
    toList_collect ordered.artifacts, toList_collect ordered.runtime]

def Still {α : Type} (read : CanonicalReader α) : Prop := ∀ input value after, read input = .ok (value, after) → after = input

def Ends {α : Type} (read : CanonicalReader α) : Prop := ∀ input value after, read input = .ok (value, after) → after.consumed < usizeLimit

theorem still_pure {α : Type} (value : α) : Still (pure value) := fun _ _ _ read => (pure_ok.mp read).2.symm

theorem still_checking {α : Type} (check : Except (Stop IdentityError) α) : Still (checking check) :=
  fun _ _ _ read => (checking_ok.mp read).2.symm

theorem Still.bind {α β : Type} {read : CanonicalReader α} (first : Still read) {next : α → CanonicalReader β} (rest : ∀ value, Still (next value)) :
    Still (read >>= next) := by
  intro input value after ran
  obtain ⟨_, between, here, later⟩ := ByteReader.bind_ok.mp ran
  rw [rest _ _ _ _ later, first _ _ _ here]

theorem Ends.still {α β : Type} {read : CanonicalReader α} (first : Ends read) {next : α → CanonicalReader β} (rest : ∀ value, Still (next value)) :
    Ends (read >>= next) := by
  intro input value after ran
  obtain ⟨_, between, here, later⟩ := ByteReader.bind_ok.mp ran
  rw [rest _ _ _ _ later]
  exact first _ _ _ here

theorem Ends.after {α β : Type} {read : CanonicalReader α} {next : α → CanonicalReader β} (rest : ∀ value, Ends (next value)) :
    Ends (read >>= next) := by
  intro input value after ran
  obtain ⟨_, between, -, later⟩ := ByteReader.bind_ok.mp ran
  exact rest _ _ _ _ later

theorem ends_take (n : Nat) : Ends (take n) := by
  intro input value after read
  unfold take at read
  split at read
  · rename_i fits
    split at read
    · cases read
      exact fits
    · cases read
  · cases read

theorem ends_array (length : Nat) : Ends (array length) := (ends_take length).still fun _ => still_checking _

theorem ends_usizeLen : Ends usizeLen := Ends.still ((ends_array 8).still fun _ => still_pure _) fun _ => still_pure _

theorem ends_decodeDigest : Ends decodeDigest := Ends.after fun _ => (ends_array 32).still fun _ => still_pure _

theorem ends_decodeRuntimeEntry : Ends decodeRuntimeEntry :=
  Ends.after fun _ => Ends.after fun _ => Ends.after fun _ => ends_decodeDigest.still fun _ => (still_checking _).bind fun _ => still_pure _

theorem ends_many {α : Type} {decode : CanonicalReader α} (ends : Ends decode) (count : Nat) {input after : Input} {values : List α}
    (within : input.consumed < usizeLimit) (read : many decode count input = .ok (values, after)) : after.consumed < usizeLimit := by
  induction count generalizing input values with
  | zero =>
    obtain ⟨-, rfl⟩ := pure_ok.mp read
    exact within
  | succ count tail =>
    obtain ⟨value, between, here, rest⟩ := ByteReader.bind_ok.mp read
    obtain ⟨others, last, later, ended⟩ := ByteReader.bind_ok.mp rest
    obtain ⟨-, rfl⟩ := pure_ok.mp ended
    exact tail (ends _ _ _ here) later

theorem ends_readEntries {α : Type} {decode : CanonicalReader (DependencySlot × α)} (ends : Ends decode) : Ends (readEntries decode) := by
  intro input values after read
  obtain ⟨count, between, counted, rest⟩ := ByteReader.bind_ok.mp read
  exact ends_many ends count (ends_usizeLen _ _ _ counted) rest

theorem ends_read : Ends read :=
  Ends.after fun _ => Ends.after fun _ => Ends.after fun _ => Ends.after fun _ => Ends.after fun _ => Ends.after fun _ =>
    (ends_readEntries ends_decodeRuntimeEntry).still fun _ => still_pure _

theorem whole_lt {bytes : Bytes} {manifest : Manifest} (read : whole read bytes = .ok manifest) : bytes.length < usizeLimit := by
  obtain ⟨consumed, read⟩ := whole_ok.mp read
  obtain ⟨-, same, counted⟩ := reads.canonical _ _ _ read
  have within := ends_read _ _ _ read
  rw [List.append_nil] at same
  change bytes = _ at same
  change consumed = 0 + _ at counted
  rw [Nat.zero_add] at counted
  rw [same, ← counted]
  exact within

namespace ProductKey

/-- The checks of a key's own: those of the builder and of the slots and dependencies it was given, and the digest it computes. -/
structure Valid (key : ProductKey) : Prop where
  classed : key.Classed
  manifest : key.listed.Valid
  digest_eq : key = key.toProductKeyBuilder.build

theorem decodeCanonical_ok {bytes : Bytes} {key : ProductKey} :
    decodeCanonical bytes = .ok key ↔ ∃ manifest : Manifest, whole read bytes = .ok manifest ∧ manifest.Distinct ∧
      manifest.collected.Classed ∧ key = manifest.collected.build := by
  unfold decodeCanonical
  simp only [Checked.bind_ok, lift_ok, ProductKeyBuilder.rebuild_ok, whole_ok, decodeFields_ok]
  constructor
  · rintro ⟨fields, ⟨consumed, manifest, read, distinct, rfl⟩, _, ⟨classed, rfl⟩, same⟩
    exact ⟨manifest, ⟨consumed, read⟩, distinct, classed, (Except.ok.inj same).symm⟩
  · rintro ⟨manifest, ⟨consumed, read⟩, distinct, classed, rfl⟩
    exact ⟨_, ⟨consumed, manifest, read, distinct, rfl⟩, _, ⟨classed, rfl⟩, rfl⟩

theorem read_listed {key : ProductKey} (valid : key.listed.Valid) (fits : key.encodeCanonical.length < usizeLimit) :
    whole read key.encodeCanonical = .ok key.listed := by
  unfold encodeCanonical at fits ⊢
  rw [← write_listed] at fits ⊢
  exact reads.decodes.accepts key.listed valid fits

theorem decode_encode {key : ProductKey} (valid : key.Valid) (fits : key.encodeCanonical.length < usizeLimit) :
    decodeCanonical key.encodeCanonical = .ok key := by
  refine decodeCanonical_ok.mpr ⟨key.listed, read_listed valid.manifest fits, listed_distinct _, ?_, ?_⟩
  · rw [collected_listed]
    exact valid.classed
  · rw [collected_listed]
    exact valid.digest_eq

def InOrder (bytes : Bytes) : Prop := ∀ manifest, whole Manifest.read bytes = .ok manifest → manifest.Ordered

theorem manifest_valid {manifest : Manifest} (valid : manifest.Valid) (distinct : manifest.Distinct) : manifest.collected.listed.Valid := by
  have digests {entries : List (DependencySlot × Digest)} (valid : Manifest.DigestsValid entries) (distinct : (entries.map Prod.fst).Nodup) :
      Manifest.DigestsValid (collect entries : Slots Digest).toList := by
    have perm : (collect entries : Slots Digest).toList.Perm entries := toList_collect_perm distinct
    exact ⟨perm.length_eq ▸ valid.1, fun entry member => valid.2 entry (perm.mem_iff.mp member)⟩
  have perm : (collect manifest.runtime : Slots RuntimeDependency).toList.Perm manifest.runtime := toList_collect_perm distinct.runtime
  exact ⟨digests valid.encodedMedia distinct.encodedMedia, digests valid.decodedPcm distinct.decodedPcm, digests valid.products distinct.products,
    digests valid.artifacts distinct.artifacts, perm.length_eq ▸ valid.runtime.1, fun entry member => valid.runtime.2 entry (perm.mem_iff.mp member)⟩

theorem encode_decode_iff {bytes : Bytes} {key : ProductKey} (decoded : decodeCanonical bytes = .ok key) :
    key.encodeCanonical = bytes ↔ InOrder bytes := by
  obtain ⟨manifest, read, distinct, classed, rfl⟩ := decodeCanonical_ok.mp decoded
  obtain ⟨valid, written⟩ := reads.decodes.canonical _ _ read
  constructor
  · intro same other listed
    rw [read] at listed
    obtain rfl : manifest = other := Except.ok.inj listed
    have fits : manifest.collected.build.encodeCanonical.length < usizeLimit := same ▸ whole_lt read
    have again := @read_listed manifest.collected.build (manifest_valid valid distinct) fits
    rw [same, read] at again
    rw [Except.ok.inj again]
    exact listed_ordered _
  · intro ordered
    change encodeProductKeyFields manifest.collected = bytes
    rw [← write_listed, listed_collected (ordered manifest read), written]

theorem valid_of_decoded {bytes : Bytes} {key : ProductKey} (decoded : decodeCanonical bytes = .ok key) : key.Valid := by
  obtain ⟨manifest, read, distinct, classed, rfl⟩ := decodeCanonical_ok.mp decoded
  exact ⟨classed, manifest_valid (reads.decodes.canonical _ _ read).1 distinct, rfl⟩

end ProductKey

section Panics

theorem avoids_take (n : Nat) : Avoids .panic (take n) := by
  intro input
  unfold take fail
  split
  · split <;> exact fun same => by cases same
  · exact fun same => by cases same

theorem avoids_checking {α : Type} (check : Except IdentityError α) : Avoids .panic (checking (lift check) : CanonicalReader α) := by
  apply Avoids.checking
  cases check <;> exact fun same => by cases same

theorem avoids_array (length : Nat) : Avoids .panic (array length) := by
  intro input panicked
  change (take length input >>= fun result => checking (tryInto length result.1) result.2) = _ at panicked
  cases taken : take length input with
  | error error =>
    rw [taken] at panicked
    cases panicked
    exact avoids_take length input taken
  | ok result =>
    obtain ⟨counted, -, -⟩ := (reads_take length).canonical result.1 input result.2 taken
    rw [taken] at panicked
    change checking (tryInto length result.1) result.2 = _ at panicked
    unfold tryInto at panicked
    rw [dif_pos (by rw [List.size_toArray, counted])] at panicked
    cases panicked

theorem avoids_u32 : Avoids .panic u32 := (avoids_array 4).bind fun _ => Avoids.pure _

theorem avoids_u64 : Avoids .panic u64 := (avoids_array 8).bind fun _ => Avoids.pure _

theorem avoids_usizeLen : Avoids .panic usizeLen := avoids_u64.bind fun _ => Avoids.pure _

theorem avoids_bytes : Avoids .panic bytes := avoids_usizeLen.bind avoids_take

theorem avoids_text (detail : String) : Avoids .panic (text detail) := avoids_bytes.bind fun _ => avoids_checking _

theorem avoids_string : Avoids .panic string := avoids_text "string is not UTF-8"

theorem avoids_byte : Avoids .panic byte := by
  intro input
  unfold byte fail
  split <;> exact fun same => by cases same

theorem avoids_contentClass : Avoids .panic contentClass := avoids_byte.bind fun _ => avoids_checking _

theorem whole_panic {α : Type} {read : CanonicalReader α} (avoids : Avoids .panic read) (bytes : Bytes) : whole read bytes ≠ .error .panic := by
  intro panicked
  unfold whole finish at panicked
  cases ran : read ⟨0, bytes⟩ with
  | error error =>
    rw [ran] at panicked
    cases panicked
    exact avoids _ ran
  | ok result =>
    rw [ran] at panicked
    change (ensure (result.2.rest = []) _ >>= fun _ => Except.ok result.1) = _ at panicked
    unfold ensure at panicked
    split at panicked <;> cases panicked

theorem lift_panic {α : Type} (check : Except IdentityError α) : lift check ≠ .error .panic := by
  cases check <;> exact fun same => by cases same

theorem bind_checked {ε α β : Type} {first : Except (Stop ε) α} {next : α → Except (Stop ε) β} (avoids : first ≠ .error .panic)
    (rest : ∀ value, first = .ok value → next value ≠ .error .panic) : (first >>= next) ≠ .error .panic := by
  cases here : first with
  | error error =>
    intro same
    cases same
    exact avoids here
  | ok value => exact rest value here

theorem SchemaTag.decodeCanonical_panic (bytes : Bytes) : SchemaTag.decodeCanonical bytes ≠ .error .panic := by
  have fields : Avoids .panic SchemaTag.readFields :=
    avoids_contentClass.bind fun _ => (avoids_text _).bind fun _ => avoids_u32.bind fun _ => Avoids.pure _
  exact bind_checked (whole_panic fields bytes) fun _ _ => lift_panic _

theorem avoids_decodeSchema : Avoids .panic decodeSchema :=
  avoids_bytes.bind fun bytes => Avoids.checking (SchemaTag.decodeCanonical_panic bytes)

theorem avoids_decodeDigest : Avoids .panic decodeDigest :=
  avoids_decodeSchema.bind fun _ => (avoids_array 32).bind fun _ => Avoids.pure _

theorem Digest.decodeCanonical_panic (bytes : Bytes) : Digest.decodeCanonical bytes ≠ .error .panic := whole_panic avoids_decodeDigest bytes

theorem avoids_decodeSlot : Avoids .panic decodeSlot := avoids_string.bind fun _ => avoids_u32.bind fun _ => avoids_checking _

theorem avoids_decodeInto {α : Type} {decode : CanonicalReader (DependencySlot × α)} (avoids : Avoids .panic decode) (count : Nat) (values : Slots α) :
    Avoids .panic (decodeInto decode count values) := by
  induction count generalizing values with
  | zero => exact Avoids.pure values
  | succ count tail => exact avoids.bind fun _ => (avoids_checking _).bind tail

theorem avoids_decodeMap {α : Type} {decode : CanonicalReader (DependencySlot × α)} (avoids : Avoids .panic decode) :
    Avoids .panic (decodeMap decode) :=
  avoids_usizeLen.bind fun count => avoids_decodeInto avoids count ∅

theorem ProductKey.decodeCanonical_panic (bytes : Bytes) : ProductKey.decodeCanonical bytes ≠ .error .panic := by
  have digests : Avoids .panic decodeDigestMap := avoids_decodeMap (avoids_decodeSlot.bind fun _ => avoids_decodeDigest.bind fun _ => Avoids.pure _)
  have runtime : Avoids .panic (decodeMap decodeRuntimeEntry) :=
    avoids_decodeMap (avoids_decodeSlot.bind fun _ => avoids_string.bind fun _ => avoids_u64.bind fun _ => avoids_decodeDigest.bind fun _ =>
      (avoids_checking _).bind fun _ => Avoids.pure _)
  have schema : Avoids .panic decodeSchemaInline := avoids_contentClass.bind fun _ => avoids_string.bind fun _ => avoids_u32.bind fun _ => avoids_checking _
  have fields : Avoids .panic decodeFields :=
    schema.bind fun _ => avoids_decodeDigest.bind fun _ => digests.bind fun _ => digests.bind fun _ => digests.bind fun _ => digests.bind fun _ =>
      runtime.bind fun _ => Avoids.pure _
  refine bind_checked (whole_panic fields bytes) fun _ _ => bind_checked (lift_panic _) fun _ _ same => ?_
  cases same

end Panics

namespace ObjectRef

theorem sliceOf_ok {bytes slice : Bytes} {start stop : Nat} :
    sliceOf bytes start stop = .ok slice ↔ start ≤ stop ∧ stop ≤ bytes.length ∧ slice = (bytes.take stop).drop start := by
  unfold sliceOf
  split
  · rename_i inside
    rw [Except.ok.injEq]
    exact ⟨fun same => ⟨inside.1, inside.2, same.symm⟩, fun good => good.2.2.symm⟩
  · rename_i outside
    exact ⟨fun impossible => (by cases impossible), fun good => absurd ⟨good.1, good.2.1⟩ outside⟩

theorem u64Of_ok {bytes : Bytes} {number : U64} : u64Of bytes = .ok number ↔ toBytes 8 number.val = bytes := by
  unfold u64Of
  constructor
  · intro read
    split at read
    · rename_i counted
      have small : LittleEndian.ofBytes bytes < 0x10000000000000000 := by
        have less := ofBytes_lt bytes
        rw [counted] at less
        exact less
      cases read
      rw [Fin.val_ofNat, Nat.mod_eq_of_lt small, ← counted, toBytes_ofBytes]
    · cases read
  · rintro rfl
    rw [if_pos (length_toBytes 8 _), ofBytes_toBytes (by exact number.isLt)]
    exact congrArg Except.ok (Fin.ext (Nat.mod_eq_of_lt number.isLt))

theorem checkedUsize_ok {sum total : Nat} {detail : String} : checkedUsize sum detail = .ok total ↔ sum < usizeLimit ∧ total = sum := by
  unfold checkedUsize
  split
  · rename_i fits
    rw [Except.ok.injEq]
    exact ⟨fun same => ⟨fits, same.symm⟩, fun good => good.2.symm⟩
  · rename_i overflows
    exact ⟨fun impossible => (by cases impossible), fun good => absurd good.1 overflows⟩

theorem mapError_ok {ε ε' α : Type} {map : ε → ε'} {check : Except ε α} {result : α} : check.mapError map = .ok result ↔ check = .ok result := by
  cases check <;> simp [Except.mapError]

theorem decodeCanonical_ok {bytes : Bytes} {object : ObjectRef} :
    decodeCanonical bytes = .ok object ↔ bytes = object.encodeCanonical := by
  unfold decodeCanonical encodeCanonical
  simp only [Checked.bind_ok, sliceOf_ok, u64Of_ok, checkedUsize_ok, mapError_ok]
  constructor
  · rintro ⟨_, -, _, ⟨-, -, rfl⟩, digestLen, lengths, _, ⟨-, rfl⟩, _, ⟨-, rfl⟩, _, sized, _, ⟨-, inside, rfl⟩, digest, decoded, _,
      ⟨-, -, rfl⟩, byteLen, ending, same⟩
    cases same
    obtain ⟨-, encoded⟩ := Digest.decodes.canonical _ _ decoded
    have counted : digest.encodeCanonical.length = digestLen.val := by
      rw [encoded, List.length_drop, List.length_take_of_le inside]
      exact Nat.add_sub_cancel_left 8 _
    rw [List.drop_zero] at lengths
    rw [ensure_ok.mp sized, List.take_length] at ending
    have start : (bytes.take (8 + digestLen.val)).take 8 = bytes.take 8 := by
      rw [List.take_take, Nat.min_eq_left (Nat.le_add_right 8 _)]
    calc bytes = bytes.take (8 + digestLen.val) ++ bytes.drop (8 + digestLen.val) := (List.take_append_drop _ bytes).symm
      _ = ((bytes.take (8 + digestLen.val)).take 8 ++ (bytes.take (8 + digestLen.val)).drop 8) ++ bytes.drop (8 + digestLen.val) := by
        rw [List.take_append_drop 8 (bytes.take (8 + digestLen.val))]
      _ = _ := by rw [start, ← lengths, ← ending, ← encoded, counted, List.append_assoc]
  · rintro rfl
    have short := length_encodeDigest object.digest
    change object.digest.encodeCanonical.length ≤ 213 at short
    generalize encoded : object.digest.encodeCanonical = middle at short
    have small : middle.length < usizeLimit := lt_of_le_of_lt short (by decide)
    have counted : (Fin.ofNat 0x10000000000000000 middle.length).val = middle.length := Nat.mod_eq_of_lt small
    have first : (toBytes 8 middle.length).length = 8 := length_toBytes 8 _
    have last : (toBytes 8 object.byteLen.val).length = 8 := length_toBytes 8 _
    have length : (toBytes 8 middle.length ++ (middle ++ toBytes 8 object.byteLen.val)).length = 8 + middle.length + 8 := by
      rw [List.length_append, List.length_append, first, last]
      omega
    have bounded : 8 + middle.length + 8 < usizeLimit := by
      unfold usizeLimit
      omega
    refine ⟨(), ensure_ok.mpr (by omega), _, ⟨Nat.zero_le _, by omega, rfl⟩, Fin.ofNat _ middle.length, ?_, _, ⟨?_, rfl⟩, _, ⟨?_, rfl⟩, (),
      ensure_ok.mpr ?_, _, ⟨?_, ?_, rfl⟩, object.digest, ?_, _, ⟨?_, ?_, rfl⟩, object.byteLen, ?_, rfl⟩
    · rw [counted, List.drop_zero, List.take_left' first]
    all_goals rw [counted]
    · omega
    · omega
    · exact length.symm
    · omega
    · omega
    · rw [← List.append_assoc, List.take_left' (by rw [List.length_append, first]), List.drop_left' first, ← encoded]
      exact Digest.decodes.accepts object.digest trivial (encoded ▸ small)
    · omega
    · omega
    · rw [← length, List.take_length, ← List.append_assoc, List.drop_left' (by rw [List.length_append, first])]

theorem decodeCanonical_panic (bytes : Bytes) : decodeCanonical bytes ≠ .error .panic := by
  have sliced {start stop : Nat} (le : start ≤ stop) (inside : stop ≤ bytes.length) : sliceOf bytes start stop ≠ .error .panic := by
    rw [sliceOf_ok.mpr ⟨le, inside, rfl⟩]
    exact fun same => by cases same
  have counted {slice : Bytes} (length : slice.length = 8) : u64Of slice ≠ .error .panic := by
    unfold u64Of
    rw [if_pos length]
    exact fun same => by cases same
  have checked (sum : Nat) (detail : String) : checkedUsize sum detail ≠ .error .panic := by
    unfold checkedUsize
    split <;> exact fun same => by cases same
  have ensured (condition : Prop) [Decidable condition] (detail : String) :
      ensure condition (Stop.error (StoreError.malformedReference detail)) ≠ .error .panic := by
    unfold ensure
    split <;> exact fun same => by cases same
  have digested (slice : Bytes) : (Digest.decodeCanonical slice).mapError asStoreError ≠ .error .panic := by
    have avoids := Digest.decodeCanonical_panic slice
    cases decoded : Digest.decodeCanonical slice with
    | error error =>
      cases error with
      | panic => exact absurd decoded avoids
      | error error => exact fun same => by cases same
    | ok digest => exact fun same => by cases same
  unfold decodeCanonical
  refine bind_checked (ensured _ _) fun _ long => ?_
  have long := ensure_ok.mp long
  refine bind_checked (sliced (Nat.zero_le 8) (by omega)) fun head taken => ?_
  obtain ⟨-, -, rfl⟩ := sliceOf_ok.mp taken
  refine bind_checked (counted (by rw [List.drop_zero, List.length_take_of_le (by omega)])) fun digestLen _ => ?_
  refine bind_checked (checked _ _) fun digestEnd ended => ?_
  refine bind_checked (checked _ _) fun byteLenEnd ended' => ?_
  refine bind_checked (ensured _ _) fun _ sized => ?_
  obtain ⟨-, rfl⟩ := checkedUsize_ok.mp ended
  obtain ⟨-, rfl⟩ := checkedUsize_ok.mp ended'
  have sized := ensure_ok.mp sized
  refine bind_checked (sliced (Nat.le_add_right 8 _) (by omega)) fun middle _ => ?_
  refine bind_checked (digested middle) fun digest _ => ?_
  refine bind_checked (sliced (Nat.le_add_right _ 8) (by omega)) fun tail taken => ?_
  obtain ⟨-, -, rfl⟩ := sliceOf_ok.mp taken
  refine bind_checked (counted (by rw [List.length_drop, List.length_take_of_le (by omega)]; omega)) fun byteLen _ => ?_
  exact fun same => by cases same

end ObjectRef

def ExactCodec {ε α : Type} (encode : α → Bytes) (decode : Bytes → Except (Stop ε) α) : Prop :=
  (∀ value, decode (encode value) = .ok value) ∧ (∀ bytes value, decode bytes = .ok value → encode value = bytes) ∧
    ∀ bytes, decode bytes ≠ .error .panic

/-- All the identities are exact codecs, but a product key is read from its slots in any order and written in theirs. -/
theorem exact_iff_ordered (given : ProductKey) (bytes : Bytes) :
    ExactCodec SchemaTag.encodeCanonical SchemaTag.decodeCanonical ∧ ExactCodec Digest.encodeCanonical Digest.decodeCanonical ∧
      ExactCodec ObjectRef.encodeCanonical ObjectRef.decodeCanonical ∧
      (given.Valid → given.encodeCanonical.length < usizeLimit → ProductKey.decodeCanonical given.encodeCanonical = .ok given) ∧
      (∀ key, ProductKey.decodeCanonical bytes = .ok key → key.Valid ∧ (key.encodeCanonical = bytes ↔ ProductKey.InOrder bytes)) ∧
      ProductKey.decodeCanonical bytes ≠ .error .panic := by
  have tags := SchemaTag.decodes
  have digests := Digest.decodes
  refine ⟨⟨?_, ?_, SchemaTag.decodeCanonical_panic⟩, ⟨?_, ?_, Digest.decodeCanonical_panic⟩, ⟨?_, ?_, ObjectRef.decodeCanonical_panic⟩, ?_, ?_,
    ProductKey.decodeCanonical_panic bytes⟩
  · exact fun tag => tags.accepts tag trivial tag.encodeCanonical_lt
  · exact fun bytes tag decoded => (tags.canonical bytes tag decoded).2
  · exact fun digest => digests.accepts digest trivial (lt_of_le_of_lt (length_encodeDigest digest) (by decide))
  · exact fun bytes digest decoded => (digests.canonical bytes digest decoded).2
  · exact fun object => ObjectRef.decodeCanonical_ok.mpr rfl
  · exact fun bytes object decoded => (ObjectRef.decodeCanonical_ok.mp decoded).symm
  · exact fun valid fits => ProductKey.decode_encode valid fits
  · exact fun key decoded => ⟨ProductKey.valid_of_decoded decoded, ProductKey.encode_decode_iff decoded⟩

section Shuffled

theorem take_labelled : validLabel "take" := by decide

def zeroDigest (contentClass : ContentClass) (free : contentClass ≠ .productKey) : Digest :=
  ⟨⟨contentClass, "take", 1, take_labelled, one_versioned, fun same => absurd same free⟩, Vector.replicate 32 0⟩

theorem media_free : ContentClass.canonicalEncodedMedia ≠ .productKey := by decide

theorem recipe_free : ContentClass.recipe ≠ .productKey := by decide

theorem product_free : ContentClass.renderProduct ≠ .productKey := by decide

/-- Two media, the second slot first. -/
def shuffled : Manifest :=
  ⟨(zeroDigest .renderProduct product_free).schema, zeroDigest .recipe recipe_free,
    [(⟨"take", 1⟩, zeroDigest .canonicalEncodedMedia media_free), (⟨"take", 0⟩, zeroDigest .canonicalEncodedMedia media_free)], [], [], [], []⟩

theorem shuffled_computed : shuffled.write.length < usizeLimit ∧ (shuffled.encodedMedia.map Prod.fst).Nodup ∧
    compare (⟨"take", 1⟩ : DependencySlot) ⟨"take", 0⟩ ≠ .lt ∧ shuffled.collected.build.encodeCanonical.length < usizeLimit := by
  decide +kernel

theorem shuffled_valid : shuffled.Valid := by
  have none {α : Type} {valid : DependencySlot × α → Prop} : ([] : List (DependencySlot × α)).length < usizeLimit ∧ ∀ entry ∈ [], valid entry :=
    ⟨Nat.zero_lt_succ _, fun _ member => absurd member List.not_mem_nil⟩
  refine ⟨⟨by decide, ?_⟩, none, none, none, none⟩
  intro entry member
  rcases List.mem_pair.mp member with rfl | rfl <;> exact take_labelled

theorem shuffled_read : CanonicalInput.whole read shuffled.write = .ok shuffled :=
  reads.decodes.accepts shuffled shuffled_valid shuffled_computed.1

theorem shuffled_classed : shuffled.collected.Classed := by
  have none {α : Type} {good : DependencySlot × α → Prop} : ∀ entry ∈ (collect [] : Slots α).toList, good entry := by
    rw [toList_collect List.Pairwise.nil]
    exact fun _ member => absurd member List.not_mem_nil
  have perm : shuffled.collected.encodedMedia.toList.Perm shuffled.encodedMedia := toList_collect_perm shuffled_computed.2.1
  refine ⟨rfl, rfl, ?_, none, none, none⟩
  intro entry member
  rcases List.mem_pair.mp (perm.mem_iff.mp member) with rfl | rfl <;> rfl

theorem shuffled_decoded : ProductKey.decodeCanonical shuffled.write = .ok shuffled.collected.build := by
  have nodup {α : Type} : (([] : List (DependencySlot × α)).map Prod.fst).Nodup := List.nodup_nil
  exact ProductKey.decodeCanonical_ok.mpr
    ⟨shuffled, shuffled_read, ⟨shuffled_computed.2.1, nodup, nodup, nodup, nodup⟩, shuffled_classed, rfl⟩

theorem shuffled_unordered : ¬ ProductKey.InOrder shuffled.write := by
  intro ordered
  have media := (ordered shuffled shuffled_read).encodedMedia
  have first : compare (⟨"take", 1⟩ : DependencySlot) ⟨"take", 0⟩ = .lt := List.rel_of_pairwise_cons media List.mem_cons_self
  exact shuffled_computed.2.2.1 first

/-- Accepted bytes that their own key does not encode to. -/
theorem shuffled_not_canonical :
    ∃ key, ProductKey.decodeCanonical shuffled.write = .ok key ∧ key.encodeCanonical ≠ shuffled.write :=
  ⟨_, shuffled_decoded, fun same => shuffled_unordered ((ProductKey.encode_decode_iff shuffled_decoded).mp same)⟩

/-- The same key from its own bytes, which are in order. -/
theorem sorted_canonical :
    ProductKey.decodeCanonical shuffled.collected.build.encodeCanonical = .ok shuffled.collected.build ∧
      ProductKey.InOrder shuffled.collected.build.encodeCanonical := by
  obtain ⟨-, -, -, accepts, -⟩ := exact_iff_ordered shuffled.collected.build shuffled.write
  have decoded := accepts (ProductKey.valid_of_decoded shuffled_decoded) shuffled_computed.2.2.2
  obtain ⟨-, -, -, -, canonical, -⟩ := exact_iff_ordered shuffled.collected.build shuffled.collected.build.encodeCanonical
  exact ⟨decoded, (canonical _ decoded).2.mp rfl⟩

end Shuffled

end Audec.Content

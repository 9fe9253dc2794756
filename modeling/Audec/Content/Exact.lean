import Audec.Content.Identity

/-! The readers of canonical input are exact inverses of their writers, and never panic. -/

open Machine Checked ByteReader LittleEndian

namespace Audec.Content

open CanonicalInput SchemaTag

abbrev Reads {α : Type} (read : CanonicalReader α) (write : α → Bytes) (valid : α → Prop) : Prop := Exact usizeLimit read write valid

structure Decodes {ε α : Type} (decode : Bytes → Except ε α) (encode : α → Bytes) (valid : α → Prop) : Prop where
  accepts : ∀ value, valid value → (encode value).length < usizeLimit → decode (encode value) = .ok value
  canonical : ∀ bytes value, decode bytes = .ok value → valid value ∧ encode value = bytes

theorem whole_ok {α : Type} {read : CanonicalReader α} {bytes : Bytes} {value : α} :
    whole read bytes = .ok value ↔ ∃ consumed, read ⟨0, bytes⟩ = .ok (value, ⟨consumed, []⟩) := by
  unfold whole finish
  rw [Checked.bind_ok]
  constructor
  · rintro ⟨⟨result, consumed, rest⟩, read, finished⟩
    simp only [bind_unit_ok, ensure_ok] at finished
    obtain ⟨rfl, same⟩ := finished
    cases same
    exact ⟨consumed, read⟩
  · rintro ⟨consumed, read⟩
    refine ⟨_, read, ?_⟩
    simp only [bind_unit_ok, ensure_ok]
    exact ⟨trivial, rfl⟩

theorem Reads.decodes {α : Type} {read : CanonicalReader α} {write : α → Bytes} {valid : α → Prop} (reads : Reads read write valid) :
    Decodes (whole read) write valid := by
  constructor
  · intro value good fits
    have accepted := reads.accepts value 0 [] good (by rwa [Nat.zero_add])
    rw [List.append_nil] at accepted
    exact whole_ok.mpr ⟨_, accepted⟩
  · intro bytes value decoded
    obtain ⟨consumed, read⟩ := whole_ok.mp decoded
    obtain ⟨good, bytes', -⟩ := reads.canonical _ _ _ read
    rw [List.append_nil] at bytes'
    exact ⟨good, bytes'.symm⟩

theorem reads_byte : Reads byte (fun value => [value]) fun _ => True := by
  constructor
  · intro value consumed rest _ _
    rfl
  · rintro value ⟨consumed, rest⟩ after read
    cases rest with
    | nil => cases read
    | cons head rest =>
      cases read
      exact ⟨trivial, rfl, rfl⟩

theorem reads_take (n : Nat) : Reads (take n) id fun bytes => bytes.length = n := by
  constructor
  · rintro bytes consumed rest rfl fits
    simp only [take, id_eq] at fits ⊢
    rw [if_pos fits, if_pos (by rw [List.length_append]; exact Nat.le_add_right _ _), List.take_left, List.drop_left]
  · intro bytes input after read
    unfold take at read
    split at read
    · split at read
      · rename_i enough
        cases read
        refine ⟨List.length_take_of_le enough, (List.take_append_drop n input.rest).symm, ?_⟩
        rw [id_eq, List.length_take_of_le enough]
      · cases read
    · cases read

theorem reads_array (length : Nat) : Reads (array length) Vector.toList fun _ => True := by
  refine ((reads_take length).bind Vector.toList (fun _ => []) (fun bytes _ => Vector.length_toList) ?_).congr
    (fun _ => Iff.rfl) fun bytes _ => List.append_nil _
  intro bytes counted
  apply Exact.checking
  intro value
  unfold tryInto
  rw [dif_pos (by rw [List.size_toArray, counted]), Except.ok.injEq]
  constructor
  · rintro ⟨-, rfl⟩
    rfl
  · rintro rfl
    exact ⟨trivial, rfl⟩

theorem reads_pure {α : Type} (value : α) : Reads (pure value) (fun _ => []) fun result => result = value := by
  constructor
  · rintro result consumed rest rfl _
    rfl
  · intro result input after read
    obtain ⟨rfl, rfl⟩ := pure_ok.mp read
    exact ⟨rfl, rfl, rfl⟩

theorem reads_number {bound width : Nat} [NeZero bound] (same : bound = 256 ^ width) {read : CanonicalReader (Fin bound)}
    (reader : read = (do let bytes ← array width; pure (Fin.ofNat bound (ofBytes bytes.toList)))) :
    Reads read (fun number => toBytes width number.val) fun _ => True := by
  rw [reader]
  refine ((reads_array width).bind (fun number : Fin bound => ⟨(toBytes width number.val).toArray, by simp⟩) (fun _ => [])
    (fun _ _ => trivial) ?_).congr (fun _ => Iff.rfl) fun number _ => by simp
  intro bytes _
  refine (reads_pure (Fin.ofNat bound (ofBytes bytes.toList))).congr (fun number => ?_) fun _ _ => rfl
  have length : bytes.toList.length = width := Vector.length_toList
  have small : ofBytes bytes.toList < bound := by
    have less := ofBytes_lt bytes.toList
    rwa [length, ← same] at less
  constructor
  · rintro rfl
    refine ⟨trivial, ?_⟩
    apply Vector.toList_inj.mp
    have back := toBytes_ofBytes bytes.toList
    rw [length] at back
    simpa [Nat.mod_eq_of_lt small] using back
  · rintro ⟨-, rfl⟩
    apply Fin.ext
    have fits : number.val < 256 ^ width := same ▸ number.isLt
    simp [ofBytes_toBytes fits]

theorem reads_u32 : Reads u32 (fun number => toBytes 4 number.val) fun _ => True := reads_number (by norm_num) rfl

theorem reads_u64 : Reads u64 (fun number => toBytes 8 number.val) fun _ => True := reads_number (by norm_num) rfl

theorem reads_usizeLen : Reads usizeLen (toBytes 8) fun length => length < usizeLimit := by
  refine (reads_u64.bind (fun length => Fin.ofNat _ length) (fun _ => []) (fun _ _ => trivial) ?_).congr
    (fun _ => Iff.rfl) fun length small => by
      rw [List.append_nil, Fin.val_ofNat, Nat.mod_eq_of_lt (by exact small)]
  intro number _
  refine (reads_pure number.val).congr (fun length => ?_) fun _ _ => rfl
  constructor
  · rintro rfl
    exact ⟨number.isLt, Fin.ext (Nat.mod_eq_of_lt number.isLt)⟩
  · rintro ⟨small, rfl⟩
    exact (Nat.mod_eq_of_lt small).symm

theorem reads_bytes : Reads bytes pushBytes fun bytes => bytes.length < usizeLimit := by
  refine reads_usizeLen.bind List.length id (fun _ small => small) fun length small => ?_
  refine (reads_take length).congr (fun bytes => ?_) fun _ _ => rfl
  constructor
  · rintro rfl
    exact ⟨small, rfl⟩
  · exact And.right

theorem utf8_ok {detail : String} {bytes : Bytes} {text : String} : utf8 detail bytes = .ok text ↔ asBytes text = bytes := by
  rw [← fromUtf8_eq_some, utf8]
  cases fromUtf8 bytes <;> simp

theorem reads_text (detail : String) : Reads (text detail) (fun text => pushBytes (asBytes text))
    fun text => (asBytes text).length < usizeLimit := by
  refine (reads_bytes.bind asBytes (fun _ => []) (fun _ small => small) ?_).congr (fun _ => Iff.rfl)
    fun _ _ => List.append_nil _
  intro bytes small
  apply Exact.checking
  intro text
  rw [lift_ok, utf8_ok]
  constructor
  · exact And.right
  · rintro rfl
    exact ⟨small, rfl⟩

theorem reads_string : Reads string (fun text => pushBytes (asBytes text)) fun text => (asBytes text).length < usizeLimit :=
  reads_text "string is not UTF-8"

theorem knownClass_ok {value : UInt8} {known : ContentClass} : knownClass value = .ok known ↔ value = known.discriminant := by
  rw [← ContentClass.fromDiscriminant_eq_some, knownClass]
  cases ContentClass.fromDiscriminant value <;> simp

theorem reads_contentClass : Reads contentClass (fun known => [known.discriminant]) fun _ => True := by
  refine (reads_byte.bind ContentClass.discriminant (fun _ => []) (fun _ _ => trivial) ?_).congr (fun _ => Iff.rfl)
    fun _ _ => List.append_nil _
  intro value _
  apply Exact.checking
  intro known
  rw [lift_ok, knownClass_ok]
  constructor
  · rintro ⟨-, same⟩
    exact same.symm
  · rintro rfl
    exact ⟨trivial, rfl⟩

theorem label_lt {value : String} (valid : validLabel value) : (asBytes value).length < usizeLimit :=
  lt_of_le_of_lt valid.2.1 (by decide)

namespace SchemaTag

theorem new_ok {contentClass : ContentClass} {name : String} {version : U32} {tag : SchemaTag} :
    new contentClass name version = .ok tag ↔ tag.contentClass = contentClass ∧ tag.name = name ∧ tag.version = version := by
  constructor
  · intro accepted
    unfold new at accepted
    split at accepted
    · split at accepted
      · cases accepted
      · split at accepted
        · cases accepted
        · cases accepted
          exact ⟨rfl, rfl, rfl⟩
    · cases accepted
  · rintro ⟨rfl, rfl, rfl⟩
    unfold new
    rw [dif_pos tag.labelled, dif_neg tag.versioned, dif_neg fun foreign => foreign.2 (tag.reserved foreign.1)]

def fields (tag : SchemaTag) : SchemaFields := ⟨tag.contentClass, tag.name, tag.version⟩

theorem length_encodeCanonical (tag : SchemaTag) : tag.encodeCanonical.length ≤ 173 := by
  have short : (asBytes tag.name).length ≤ maxLabelBytes := tag.labelled.2.1
  unfold maxLabelBytes at short
  simp only [encodeCanonical, pushBytes, List.length_append, List.length_cons, List.length_nil, length_toBytes]
  omega

theorem encodeCanonical_lt (tag : SchemaTag) : tag.encodeCanonical.length < usizeLimit :=
  lt_of_le_of_lt tag.length_encodeCanonical (by decide)

theorem reads_readFields : Reads readFields
    (fun fields => [fields.contentClass.discriminant] ++ (pushBytes (asBytes fields.name) ++ (toBytes 4 fields.version.val ++ [])))
    fun fields => (asBytes fields.name).length < usizeLimit := by
  refine reads_contentClass.bind SchemaFields.contentClass _ (fun _ _ => trivial) fun known _ => ?_
  refine (reads_text "schema name is not UTF-8").bind SchemaFields.name _ (fun _ good => good.1) fun name short => ?_
  refine reads_u32.bind SchemaFields.version _ (fun _ _ => trivial) fun version _ => ?_
  refine (reads_pure (SchemaFields.mk known name version)).congr (fun fields => ?_) fun _ _ => rfl
  constructor
  · rintro rfl
    exact ⟨⟨⟨short, rfl⟩, rfl⟩, rfl⟩
  · rintro ⟨⟨⟨-, rfl⟩, rfl⟩, rfl⟩
    rfl

theorem decodes : Decodes decodeCanonical encodeCanonical fun _ => True := by
  have fields := reads_readFields.decodes
  have written (tag : SchemaTag) : [tag.fields.contentClass.discriminant] ++ (pushBytes (asBytes tag.fields.name) ++
      (toBytes 4 tag.fields.version.val ++ [])) = tag.encodeCanonical := by
    rw [List.append_nil, ← List.append_assoc]
    rfl
  constructor
  · intro tag _ fits
    have decoded := fields.accepts tag.fields (label_lt tag.labelled) (by rw [written]; exact fits)
    rw [written] at decoded
    unfold decodeCanonical
    rw [decoded]
    exact lift_ok.mpr (new_ok.mpr ⟨rfl, rfl, rfl⟩)
  · intro bytes tag decoded
    unfold decodeCanonical at decoded
    obtain ⟨read, decoded, checked⟩ := Checked.bind_ok.mp decoded
    obtain ⟨same, same', same''⟩ := new_ok.mp (lift_ok.mp checked)
    obtain ⟨-, bytes'⟩ := fields.canonical _ _ decoded
    refine ⟨trivial, ?_⟩
    rw [← written, ← bytes']
    unfold SchemaTag.fields
    rw [same, same', same'']

end SchemaTag

theorem reads_decodeSchemaInline : Reads decodeSchemaInline encodeCanonical fun _ => True := by
  refine (reads_contentClass.bind contentClass (fun tag => pushBytes (asBytes tag.name) ++ (toBytes 4 tag.version.val ++ []))
    (fun _ _ => trivial) fun known _ => ?_).congr (fun _ => Iff.rfl) ?_
  · refine reads_string.bind name _ (fun tag _ => label_lt tag.labelled) fun name _ => ?_
    refine reads_u32.bind version _ (fun _ _ => trivial) fun version _ => ?_
    apply Exact.checking
    intro tag
    rw [lift_ok, new_ok, true_and, and_assoc]
  · intro tag _
    rw [List.append_nil, ← List.append_assoc]
    rfl

theorem reads_decodeSchema : Reads decodeSchema (fun tag => pushBytes tag.encodeCanonical) fun _ => True := by
  refine (reads_bytes.bind encodeCanonical (fun _ => []) (fun tag _ => tag.encodeCanonical_lt)
    fun bytes small => ?_).congr (fun _ => Iff.rfl) fun _ _ => List.append_nil _
  apply Exact.checking
  intro tag
  constructor
  · rintro ⟨-, rfl⟩
    exact decodes.accepts tag trivial small
  · intro decoded
    exact decodes.canonical bytes tag decoded

theorem reads_decodeDigest : Reads decodeDigest encodeDigest fun _ => True := by
  refine (reads_decodeSchema.bind Digest.schema (fun digest => digest.sha256.toList ++ []) (fun _ _ => trivial)
    fun schema _ => ?_).congr (fun _ => Iff.rfl) fun digest _ => by
      rw [List.append_nil]
      rfl
  refine (reads_array 32).bind Digest.sha256 _ (fun _ _ => trivial) fun sha256 _ => ?_
  refine (reads_pure (Digest.mk schema sha256)).congr (fun digest => ?_) fun _ _ => rfl
  constructor
  · rintro rfl
    exact ⟨⟨trivial, rfl⟩, rfl⟩
  · rintro ⟨⟨-, rfl⟩, rfl⟩
    rfl

theorem Digest.decodes : Decodes Digest.decodeCanonical Digest.encodeCanonical fun _ => True := reads_decodeDigest.decodes

theorem length_encodeDigest (digest : Digest) : (encodeDigest digest).length ≤ 213 := by
  have short := digest.schema.length_encodeCanonical
  simp only [encodeDigest, pushBytes, List.length_append, length_toBytes, Vector.length_toList]
  omega

end Audec.Content

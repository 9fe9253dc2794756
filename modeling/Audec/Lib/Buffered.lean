import Audec.Lib.Documents

/-! Values decoded from a document that was read before its type was known: records by name or by position,
    enumerations by name or by index, and maps whose keys stay strings. -/

open Machine Documents List
open Std (ExtTreeMap ExtTreeSet TransCmp LawfulEqCmp)

namespace Buffered

variable {α β : Type}

inductive Parts where
  | named (fields : Fields)
  | listed (items : List Document)

def parts : Document → Option Parts
  | .object fields => some (.named fields)
  | .array items => some (.listed items)
  | _ => none

def decodeOption (decode : Document → Option α) : Document → Option (Option α)
  | .null => some none
  | document => (decode document).map some

namespace Parts

def required (position : Nat) (name : String) (decode : Document → Option α) : Parts → Option α
  | .named fields => field fields name decode
  | .listed items => items[position]?.bind decode

def optional (position : Nat) (name : String) (decode : Document → Option α) : Parts → Option (Option α)
  | .named fields => fieldOr fields name none (decodeOption decode)
  | .listed items => items[position]?.bind (decodeOption decode)

/-- A value that may be null or absent. -/
def defaulted (position : Nat) (name : String) (decode : Document → Option α) : Parts → Option (Option α)
  | .named fields => fieldOr fields name none (decodeOption decode)
  | .listed items =>
    match items[position]? with
    | none => some none
    | some document => decodeOption decode document

/-- Names may be unknown, but no position is left over. -/
def within (count : Nat) : Parts → Option Unit
  | .named _ => some ()
  | .listed items => if items.length ≤ count then some () else none

end Parts

def select (table : List (String × β)) : Document → Option β
  | .string name => (table.find? (·.1 = name)).map Prod.snd
  | .number (.natural index) => table[index.val]?.map Prod.snd
  | _ => none

def split (tag : String) : Document → Option (Document × Parts)
  | .object fields =>
    match named fields tag with
    | [kind] => some (kind, .named (fields.filter (·.1 ≠ tag)))
    | _ => none
  | .array (kind :: items) => some (kind, .listed items)
  | _ => none

def tagged (tag : String) (variants : List (String × (Parts → Option α))) (document : Document) : Option α := do
  let (kind, fields) ← split tag document
  let decode ← select variants kind
  decode fields

/-- A variant without fields. -/
def unit (value : α) : Parts → Option α
  | .named _ => some value
  | .listed [] => some value
  | .listed _ => none

def decodeName (table : List (String × α)) : Document → Option α
  | .string name => select table (.string name)
  | .object [(name, .null)] => select table (.string name)
  | .object [(name, .object [])] => select table (.string name)
  | _ => none

def decodeSet {cmp : α → α → Ordering} [TransCmp cmp] (decode : Document → Option α) (document : Document) : Option (ExtTreeSet α cmp) :=
  (decodeList decode document).map fun items => ExtTreeSet.ofList items cmp

def decodeMap {cmp : α → α → Ordering} [TransCmp cmp] (key : String → Option α) (decode : Document → Option β) :
    Document → Option (ExtTreeMap α β cmp)
  | .object fields => fields.foldlM (fun map field => do return map.insert (← key field.1) (← decode field.2)) ∅
  | _ => none

def decodeKey : String → Option U32
  | _ => none

def decodeBool : Document → Option Bool
  | .bool value => some value
  | _ => none

def decodeU16 : Document → Option (Fin 0x10000)
  | .number (.natural value) => if fits : value.val < 0x10000 then some ⟨value.val, fits⟩ else none
  | _ => none

def encodeU16 (value : Fin 0x10000) : Document := .number (.natural ⟨value.val, Nat.lt_trans value.isLt (by decide)⟩)

@[simp] theorem decodeU16_encode (value : Fin 0x10000) : decodeU16 (encodeU16 value) = some value := dif_pos value.isLt

section Floats

open Float.Model

def FiniteBits (bits : U64) : Prop := @UnpackedFloat.unpackExponent Format.binary64 (UInt64.ofFin bits).toBitVec ≠ -1#_

instance (bits : U64) : Decidable (FiniteBits bits) := by unfold FiniteBits; infer_instance

theorem valid_of_finite {bits : U64} (finite : FiniteBits bits) : Format.binary64.Valid (UInt64.ofFin bits).toBitVec :=
  ⟨fun same => absurd same finite⟩

def ofBits (bits : U64) : Float :=
  if finite : FiniteBits bits then .ofModel ⟨UInt64.ofFin bits, valid_of_finite finite⟩ else .ofBits (UInt64.ofFin bits)

/-- A double, which may be written without a fraction. -/
def decodeF64 : Document → Option Float
  | .number (.natural value) => some (.ofNat value.val)
  | .number (.negative below) => some (.ofInt (-(below.val + 1)))
  | .number (.float bits) => some (ofBits bits)
  | _ => none

def encodeF64 (value : Float) : Document := .number (.float value.toBits.toFin)

variable {value : Float}

theorem finiteBits (finite : value.isFinite = true) : FiniteBits value.toBits.toFin := by
  intro same
  change value.toModel.unpack.isFinite = true at finite
  have same : @UnpackedFloat.unpackExponent Format.binary64 value.toModel.toBits.toBitVec = -1#_ := same
  unfold Float.Model.unpack UnpackedFloat.unpack at finite
  rw [if_pos same] at finite
  split at finite <;> cases finite

theorem decodeF64_encode (finite : value.isFinite = true) : decodeF64 (encodeF64 value) = some value := by
  change some (ofBits value.toBits.toFin) = some value
  unfold ofBits
  rw [dif_pos (finiteBits finite)]
  rfl

end Floats

def encodeOption (encode : α → Document) : Option α → Document
  | none => .null
  | some value => encode value

def encodeSet {cmp : α → α → Ordering} [TransCmp cmp] (encode : α → Document) (set : ExtTreeSet α cmp) : Document :=
  .array (set.toList.map encode)

def encodeMap {cmp : α → α → Ordering} [TransCmp cmp] (key : α → String) (encode : β → Document) (map : ExtTreeMap α β cmp) : Document :=
  .object (map.toList.map fun entry => (key entry.1, encode entry.2))

def skipped (name : String) (encode : α → Document) (fields : Fields) : Option α → Fields
  | none => fields
  | some value => (name, encode value) :: fields

mutual

def Finite : Document → Prop
  | .number (.float bits) => FiniteBits bits
  | .array items => FiniteItems items
  | .object fields => FiniteFields fields
  | _ => True

def FiniteItems : List Document → Prop
  | [] => True
  | item :: items => Finite item ∧ FiniteItems items

def FiniteFields : List (String × Document) → Prop
  | [] => True
  | (_, value) :: fields => Finite value ∧ FiniteFields fields

end

section Reading

variable {fields : Fields} {name other : String} {document : Document} {decode : Document → Option α}

/-- Kept as it is written, since a rewriting of every bind takes long. -/
@[simp] theorem some_bind (value : α) (next : α → Option β) : (some value >>= next) = next value := rfl

@[simp] theorem none_bind (next : α → Option β) : (none >>= next) = none := rfl

@[simp] theorem parts_object : parts (.object fields) = some (.named fields) := rfl

@[simp] theorem within_named (count : Nat) : (Parts.named fields).within count = some () := rfl

@[simp] theorem required_named (position : Nat) : (Parts.named fields).required position name decode = field fields name decode := rfl

@[simp] theorem optional_named (position : Nat) :
    (Parts.named fields).optional position name decode = fieldOr fields name none (decodeOption decode) := rfl

@[simp] theorem defaulted_named (position : Nat) :
    (Parts.named fields).defaulted position name decode = fieldOr fields name none (decodeOption decode) := rfl

@[simp] theorem unit_named (value : α) : unit value (.named fields) = some value := rfl

@[simp] theorem named_nil : named [] name = [] := by
  unfold named
  rw [filter_nil, map_nil]

@[simp] theorem named_cons_ne (different : other ≠ name) : named ((other, document) :: fields) name = named fields name := by
  unfold named
  rw [filter_cons_of_neg (by simpa using different)]

theorem named_cons_self : named ((name, document) :: fields) name = document :: named fields name := by
  unfold named
  rw [filter_cons_of_pos (by simp)]
  rfl

@[simp] theorem field_cons_ne (different : other ≠ name) : field ((other, document) :: fields) name decode = field fields name decode := by
  unfold field
  rw [named_cons_ne different]

@[simp] theorem field_cons_self (once : named fields name = []) : field ((name, document) :: fields) name decode = decode document := by
  unfold field
  rw [named_cons_self, once]

@[simp] theorem fieldOr_nil (default : α) : fieldOr [] name default decode = some default := rfl

@[simp] theorem fieldOr_cons_ne (default : α) (different : other ≠ name) :
    fieldOr ((other, document) :: fields) name default decode = fieldOr fields name default decode := by
  unfold fieldOr
  rw [named_cons_ne different]

@[simp] theorem fieldOr_cons_self (default : α) (once : named fields name = []) :
    fieldOr ((name, document) :: fields) name default decode = decode document := by
  unfold fieldOr
  rw [named_cons_self, once]

@[simp] theorem decodeString_string (text : String) : decodeString (.string text) = some text := rfl

@[simp] theorem decodeBool_bool (value : Bool) : decodeBool (.bool value) = some value := rfl

@[simp] theorem decodeOption_object : decodeOption decode (.object fields) = (decode (.object fields)).map some := rfl

variable {encode : α → Document} {value : Option β}

theorem decodeOption_encode (returns : ∀ value, decode (encode value) = some value)
    (written : ∀ value, encode value ≠ .null) (value : Option α) : decodeOption decode (encodeOption encode value) = some value := by
  cases value with
  | none => rfl
  | some value =>
    change decodeOption decode (encode value) = some (some value)
    unfold decodeOption
    split
    · rename_i null
      exact absurd null (written value)
    · rw [returns]
      rfl

@[simp] theorem named_skipped_ne {encode : β → Document} (different : other ≠ name) :
    named (skipped other encode fields value) name = named fields name := by
  cases value with
  | none => rfl
  | some value => exact named_cons_ne different

@[simp] theorem field_skipped_ne {encode : β → Document} (different : other ≠ name) :
    field (skipped other encode fields value) name decode = field fields name decode := by
  cases value with
  | none => rfl
  | some value => exact field_cons_ne different

@[simp] theorem fieldOr_skipped_ne {encode : β → Document} (default : α) (different : other ≠ name) :
    fieldOr (skipped other encode fields value) name default decode = fieldOr fields name default decode := by
  cases value with
  | none => rfl
  | some value => exact fieldOr_cons_ne default different

theorem fieldOr_skipped (returns : ∀ value, decode (encode value) = some value)
    (written : ∀ value, encode value ≠ .null) (value : Option α) (absent : named fields name = []) :
    fieldOr (skipped name encode fields value) name none (decodeOption decode) = some value := by
  cases value with
  | none =>
    unfold fieldOr
    rw [skipped, absent]
  | some value => exact (fieldOr_cons_self none absent).trans (decodeOption_encode returns written (some value))

theorem tagged_object {variants : List (String × (Parts → Option α))} {tag kind : String} {read : Parts → Option α}
    (absent : named fields tag = []) (chosen : select variants (.string kind) = some read) :
    tagged tag variants (.object ((tag, .string kind) :: fields)) = read (.named fields) := by
  have rest : ((tag, Document.string kind) :: fields).filter (·.1 ≠ tag) = fields := by
    rw [filter_cons_of_neg (by simp), filter_eq_self]
    intro entry member
    apply decide_eq_true
    intro same
    have found : entry.2 ∈ named fields tag := mem_map_of_mem (mem_filter.mpr ⟨member, decide_eq_true same⟩)
    rw [absent] at found
    exact not_mem_nil found
  unfold tagged split
  simp only [named_cons_self, absent, rest]
  change (select variants (.string kind)).bind (fun decode => decode (.named fields)) = _
  rw [chosen]
  rfl

@[simp] theorem decodeSet_encode {cmp : α → α → Ordering} [TransCmp cmp] [LawfulEqCmp cmp]
    (returns : ∀ value, decode (encode value) = some value) (set : ExtTreeSet α cmp) : decodeSet decode (encodeSet encode set) = some set := by
  unfold decodeSet encodeSet
  rw [decodeList_encode fun value _ => returns value, Option.map_some, Option.some.injEq]
  classical
  apply ExtTreeSet.ext_mem
  intro value
  rw [ExtTreeSet.mem_ofList, contains_eq_mem, decide_eq_true_eq, ExtTreeSet.mem_toList]

theorem select_mem {variants : List (String × β)} {kind : Document} {read : β} (chosen : select variants kind = some read) :
    ∃ name, (name, read) ∈ variants := by
  unfold select at chosen
  split at chosen
  · obtain ⟨⟨name, _⟩, found, rfl⟩ := Option.map_eq_some_iff.mp chosen
    exact ⟨name, mem_of_find?_eq_some found⟩
  · obtain ⟨⟨name, _⟩, found, rfl⟩ := Option.map_eq_some_iff.mp chosen
    exact ⟨name, mem_of_getElem? found⟩
  · cases chosen

theorem required_read {position : Nat} {read : Parts} {value : α} (reads : read.required position name decode = some value) :
    ∃ document, decode document = some value := by
  cases read with
  | named fields => exact field_read reads
  | listed items =>
    obtain ⟨document, -, decoded⟩ := Option.bind_eq_some_iff.mp reads
    exact ⟨document, decoded⟩

end Reading

section Finiteness

@[simp] theorem finite_bool (value : Bool) : Finite (.bool value) := trivial

@[simp] theorem finite_string (text : String) : Finite (.string text) := trivial

@[simp] theorem finite_u16 (value : Fin 0x10000) : Finite (encodeU16 value) := trivial

@[simp] theorem finite_u32 (value : U32) : Finite (encodeU32 value) := trivial

@[simp] theorem finite_u64 (value : U64) : Finite (encodeU64 value) := trivial

theorem finite_f64 {value : Float} (finite : value.isFinite = true) : Finite (encodeF64 value) := finiteBits finite

variable {fields : Fields} {encode : α → Document}

@[simp] theorem finite_object : Finite (.object fields) ↔ FiniteFields fields := Iff.rfl

@[simp] theorem finiteFields_nil : FiniteFields [] := trivial

variable {name : String} {cmp : α → α → Ordering}

@[simp] theorem finiteFields_cons {document : Document} :
    FiniteFields ((name, document) :: fields) ↔ Finite document ∧ FiniteFields fields := Iff.rfl

@[simp] theorem finite_array_map {items : List α} :
    Finite (.array (items.map encode)) ↔ ∀ item ∈ items, Finite (encode item) := by
  induction items with
  | nil => simp [Finite, FiniteItems]
  | cons item items ih =>
    rw [forall_mem_cons, ← ih]
    exact Iff.rfl

section

variable (finite : ∀ value, Finite (encode value))
include finite

@[simp] theorem finite_encodeOption (value : Option α) :
    Finite (encodeOption encode value) := by
  cases value with
  | none => trivial
  | some value => exact finite value

@[simp] theorem finite_skipped
    (value : Option α) : FiniteFields (skipped name encode fields value) ↔ FiniteFields fields := by
  cases value with
  | none => exact Iff.rfl
  | some value => exact ⟨And.right, fun rest => ⟨finite value, rest⟩⟩

@[simp] theorem finite_encodeSet [TransCmp cmp]
    (set : ExtTreeSet α cmp) : Finite (encodeSet encode set) := finite_array_map.mpr fun value _ => finite value

end

@[simp] theorem finite_encodeMap [TransCmp cmp] {key : α → String} {encode : β → Document}
    (finite : ∀ value, Finite (encode value)) (map : ExtTreeMap α β cmp) : Finite (encodeMap key encode map) := by
  unfold encodeMap
  rw [finite_object]
  induction map.toList with
  | nil => trivial
  | cons entry entries ih => exact ⟨finite entry.2, ih⟩

end Finiteness

end Buffered

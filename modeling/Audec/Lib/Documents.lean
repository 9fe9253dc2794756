import Audec.Lib.Machine
import Audec.Lib.Entries

/-! Documents of named fields, as a text format keeps them, and records with an open set of further fields. -/

open Machine Entries List
open Std (ExtTreeMap)

namespace Documents

inductive Number where
  | natural (value : U64)
  /-- The number that many below minus one. -/
  | negative (below : Fin 0x8000000000000000)
  /-- A finite double, by its bits. -/
  | float (bits : U64)

/-- A document in the order of its text, in which a name may be repeated. -/
inductive Document where
  | null
  | bool (value : Bool)
  | number (value : Number)
  | string (value : String)
  | array (items : List Document)
  | object (fields : List (String × Document))

abbrev Fields := List (String × Document)

mutual

def Document.Plain : Document → Prop
  | .array items => PlainItems items
  | .object fields => (fields.map Prod.fst).Nodup ∧ PlainFields fields
  | _ => True

def PlainItems : List Document → Prop
  | [] => True
  | item :: items => item.Plain ∧ PlainItems items

def PlainFields : List (String × Document) → Prop
  | [] => True
  | (_, value) :: fields => value.Plain ∧ PlainFields fields

end

def putField (fields : Fields) (name : String) (value : Document) : Fields :=
  if name ∈ fields.map Prod.fst then fields.map fun field => if field.1 = name then (name, value) else field
  else fields ++ [(name, value)]

mutual

/-- A document read into maps, where the last value of a name counts. -/
def Document.settle : Document → Document
  | .array items => .array (settleItems items)
  | .object fields => .object (settleFields [] fields)
  | document => document

def settleItems : List Document → List Document
  | [] => []
  | item :: items => item.settle :: settleItems items

def settleFields (seen : List (String × Document)) : List (String × Document) → List (String × Document)
  | [] => seen
  | (name, value) :: fields => settleFields (putField seen name value.settle) fields

end

theorem putField_names (fields : Fields) (name : String) (value : Document) :
    (putField fields name value).map Prod.fst =
      if name ∈ fields.map Prod.fst then fields.map Prod.fst else fields.map Prod.fst ++ [name] := by
  unfold putField
  split
  · rw [map_map]
    apply map_congr_left
    rintro ⟨other, kept⟩ -
    dsimp only [Function.comp]
    split
    · rename_i same
      exact same.symm
    · rfl
  · rw [map_append]
    rfl

theorem PlainFields.of_forall {fields : Fields} (each : ∀ field ∈ fields, field.2.Plain) : PlainFields fields := by
  induction fields with
  | nil => trivial
  | cons field fields ih =>
    exact ⟨each field mem_cons_self, ih fun other inside => each other (mem_cons_of_mem _ inside)⟩

theorem PlainFields.each {fields : Fields} (plain : PlainFields fields) : ∀ field ∈ fields, field.2.Plain := by
  induction fields with
  | nil => exact fun _ inside => nomatch inside
  | cons field fields ih =>
    intro other inside
    rcases mem_cons.mp inside with rfl | inside
    · exact plain.1
    · exact ih plain.2 other inside

variable {name : String} {α : Type}

theorem putField_plain {fields : Fields} {value : Document} (plain : (Document.object fields).Plain)
    (plain' : value.Plain) : (Document.object (putField fields name value)).Plain := by
  obtain ⟨nodup, each⟩ := plain
  constructor
  · rw [putField_names]
    split
    · exact nodup
    · rename_i absent
      rw [nodup_append]
      refine ⟨nodup, nodup_singleton name, ?_⟩
      rintro other inside last held rfl
      rw [mem_singleton.mp held] at inside
      exact absent inside
  · apply PlainFields.of_forall
    intro field inside
    unfold putField at inside
    split at inside
    · obtain ⟨old, held, rfl⟩ := mem_map.mp inside
      split
      · exact plain'
      · exact each.each old held
    · rcases mem_append.mp inside with held | last
      · exact each.each field held
      · cases mem_singleton.mp last
        exact plain'

mutual

theorem Document.settle_plain : ∀ document : Document, document.settle.Plain
  | .null => trivial
  | .bool _ => trivial
  | .number _ => trivial
  | .string _ => trivial
  | .array items => settleItems_plain items
  | .object fields => settleFields_plain fields [] ⟨nodup_nil, trivial⟩

theorem settleItems_plain : ∀ items : List Document, PlainItems (settleItems items)
  | [] => trivial
  | item :: items => ⟨item.settle_plain, settleItems_plain items⟩

theorem settleFields_plain : ∀ (fields : List (String × Document)) (seen : Fields), (Document.object seen).Plain →
    (Document.object (settleFields seen fields)).Plain
  | [], _, plain => plain
  | (_, value) :: fields, _, plain => settleFields_plain fields _ (putField_plain plain value.settle_plain)

end

mutual

theorem Document.settle_of_plain : ∀ document : Document, document.Plain → document.settle = document
  | .null, _ => rfl
  | .bool _, _ => rfl
  | .number _, _ => rfl
  | .string _, _ => rfl
  | .array items, plain => congrArg Document.array (settleItems_of_plain items plain)
  | .object fields, plain => congrArg Document.object (settleFields_of_plain fields [] plain.1 plain.2)

theorem settleItems_of_plain : ∀ items : List Document, PlainItems items → settleItems items = items
  | [], _ => rfl
  | item :: items, plain => congrArg₂ List.cons (item.settle_of_plain plain.1) (settleItems_of_plain items plain.2)

theorem settleFields_of_plain : ∀ (fields : List (String × Document)) (seen : Fields),
    ((seen ++ fields).map Prod.fst).Nodup → PlainFields fields → settleFields seen fields = seen ++ fields
  | [], seen, _, _ => (append_nil seen).symm
  | (name, value) :: fields, seen, nodup, plain => by
    have absent : name ∉ seen.map Prod.fst := by
      intro inside
      rw [map_append] at nodup
      exact (nodup_append.mp nodup).2.2 name inside name mem_cons_self rfl
    have put : putField seen name value = seen ++ [(name, value)] := if_neg absent
    rw [settleFields, value.settle_of_plain plain.1, put, settleFields_of_plain fields _ _ plain.2]
    · rw [append_assoc]
      rfl
    · rwa [append_assoc]

end

/-- A document without repeated names. -/
def Value := { document : Document // document.Plain }

namespace Value

def ofDocument (document : Document) : Value := ⟨document.settle, document.settle_plain⟩

theorem ofDocument_val (value : Value) : ofDocument value.val = value :=
  Subtype.ext (value.val.settle_of_plain value.property)

end Value

def named (fields : Fields) (name : String) : List Document := (fields.filter (·.1 = name)).map Prod.snd

def field {α : Type} (fields : Fields) (name : String) (decode : Document → Option α) : Option α :=
  match named fields name with
  | [document] => decode document
  | _ => none

def fieldOr {α : Type} (fields : Fields) (name : String) (default : α) (decode : Document → Option α) : Option α :=
  match named fields name with
  | [] => some default
  | [document] => decode document
  | _ => none

variable {decode : Document → Option α} {value : α} {items : List α} {encode : α → Document}

theorem field_read {fields : Fields}
    (held : field fields name decode = some value) : ∃ document, decode document = some value := by
  unfold field at held
  split at held
  · exact ⟨_, held⟩
  · cases held

theorem fieldOr_read {fields : Fields} {default : α}
    (held : fieldOr fields name default decode = some value) : value = default ∨ ∃ document, decode document = some value := by
  unfold fieldOr at held
  split at held
  · exact .inl (Option.some.inj held).symm
  · exact .inr ⟨_, held⟩
  · cases held

def others (known : List String) (fields : Fields) : Fields := fields.filter (·.1 ∉ known)

def decodeU64 : Document → Option U64
  | .number (.natural value) => some value
  | _ => none

def decodeU32 : Document → Option U32
  | .number (.natural value) => if fits : value.val < 0x100000000 then some ⟨value.val, fits⟩ else none
  | _ => none

def decodeString : Document → Option String
  | .string value => some value
  | _ => none

def decodeList {α : Type} (decode : Document → Option α) : Document → Option (List α)
  | .array items => items.mapM decode
  | _ => none

def encodeU64 (value : U64) : Document := .number (.natural value)

def encodeU32 (value : U32) : Document := .number (.natural ⟨value.val, Nat.lt_trans value.isLt (by decide)⟩)

@[simp] theorem decodeU64_encode (value : U64) : decodeU64 (encodeU64 value) = some value := rfl

@[simp] theorem decodeU32_encode (value : U32) : decodeU32 (encodeU32 value) = some value := dif_pos value.isLt

theorem decodeList_each {document : Document}
    (read : decodeList decode document = some items) : ∀ item ∈ items, ∃ document, decode document = some item := by
  unfold decodeList at read
  split at read
  · rename_i documents
    induction documents generalizing items with
    | nil =>
      cases read
      exact fun _ inside => nomatch inside
    | cons document documents ih =>
      rw [mapM_cons] at read
      simp only [Option.bind_eq_bind, Option.bind_eq_some_iff, Option.pure_def, Option.some.injEq] at read
      obtain ⟨first, decoded, rest, decoded', rfl⟩ := read
      intro item inside
      rcases mem_cons.mp inside with rfl | inside
      · exact ⟨document, decoded⟩
      · exact ih decoded' item inside
  · cases read

theorem decodeList_encode
    (each : ∀ item ∈ items, decode (encode item) = some item) : decodeList decode (.array (items.map encode)) = some items := by
  change (items.map encode).mapM decode = some items
  rw [mapM_map]
  induction items with
  | nil => rfl
  | cons item items ih =>
    rw [mapM_cons, Function.comp_apply, each item mem_cons_self, ih fun other inside => each other (mem_cons_of_mem _ inside)]
    rfl

/-- The further fields of a record, which it keeps without knowing them. -/
abbrev Extensions := ExtTreeMap String Value

namespace Extensions

def fields (extensions : Extensions) : Fields := extensions.toList.map fun entry => (entry.1, entry.2.val)

def ofFields (fields : Fields) : Extensions := ExtTreeMap.ofList (fields.map fun field => (field.1, Value.ofDocument field.2))

def Apart (known : List String) (extensions : Extensions) : Prop := ∀ name ∈ known, extensions[name]? = none

variable {name : String} {fixed : Fields}

theorem absent_iff {extensions : Extensions} : extensions[name]? = none ↔ name ∉ extensions := by
  rw [ExtTreeMap.mem_iff_isSome_getElem?, Bool.not_eq_true, Option.isSome_eq_false_iff, Option.isNone_iff_eq_none]

theorem fields_names (extensions : Extensions) : extensions.fields.map Prod.fst = extensions.keys := by
  unfold fields
  rw [map_map, ← ExtTreeMap.map_fst_toList_eq_keys]
  rfl

theorem ofFields_fields (extensions : Extensions) : ofFields extensions.fields = extensions := by
  unfold ofFields fields
  rw [map_map]
  have same : ((fun field : String × Document => (field.1, Value.ofDocument field.2)) ∘ fun entry : String × Value =>
      (entry.1, entry.2.val)) = id := by
    funext ⟨name, value⟩
    exact congrArg (Prod.mk name) value.ofDocument_val
  rw [same, map_id]
  apply ExtTreeMap.ext_getElem?
  intro name
  cases held : extensions[name]? with
  | some value =>
    exact ExtTreeMap.getElem?_ofList_of_mem Std.ReflCmp.compare_self ExtTreeMap.distinct_keys_toList (mem_toList.mpr held)
  | none =>
    apply ExtTreeMap.getElem?_ofList_of_contains_eq_false
    rw [ExtTreeMap.map_fst_toList_eq_keys, contains_eq_mem, decide_eq_false_iff_not, ExtTreeMap.mem_keys]
    exact absent_iff.mp held

theorem apart_iff {known : List String} {extensions : Extensions} :
    Apart known extensions ↔ ∀ name ∈ known, name ∉ extensions.fields.map Prod.fst := by
  unfold Apart
  refine forall₂_congr fun name _ => ?_
  rw [fields_names, ExtTreeMap.mem_keys, absent_iff]

theorem ofFields_others_apart (known : List String) (fields : Fields) : Apart known (ofFields (others known fields)) := by
  intro name inside
  apply ExtTreeMap.getElem?_ofList_of_contains_eq_false
  rw [map_map, contains_eq_mem, decide_eq_false_iff_not]
  intro found
  obtain ⟨entry, held, rfl⟩ := mem_map.mp found
  have unknown := (mem_filter.mp held).2
  exact of_decide_eq_true unknown inside

variable {known : List String} {extensions : Extensions}

theorem Apart.named (apart : Apart known extensions) (inside : name ∈ known) (fixed : Fields) :
    named (fixed ++ extensions.fields) name = Documents.named fixed name := by
  unfold Documents.named
  have none' : extensions.fields.filter (·.1 = name) = [] := by
    rw [filter_eq_nil_iff]
    intro entry held same
    have same' := of_decide_eq_true same
    exact apart_iff.mp apart name inside (mem_map.mpr ⟨entry, held, same'⟩)
  rw [filter_append, none', append_nil]

variable {document : Document}

section

variable (apart : Apart known extensions)
include apart

section

variable (inside : name ∈ known) (once : Documents.named fixed name = [document])
include inside once

theorem Apart.field {α : Type} (decode : Document → Option α) :
    field (fixed ++ extensions.fields) name decode = decode document := by
  unfold Documents.field
  rw [apart.named inside, once]

theorem Apart.fieldOr {α : Type} (default : α) (decode : Document → Option α) :
    fieldOr (fixed ++ extensions.fields) name default decode = decode document := by
  unfold Documents.fieldOr
  rw [apart.named inside, once]

end

theorem Apart.fieldOr_absent {α : Type} (inside : name ∈ known)
    (absent : Documents.named fixed name = []) (default : α) (decode : Document → Option α) :
    Documents.fieldOr (fixed ++ extensions.fields) name default decode = some default := by
  unfold Documents.fieldOr
  rw [apart.named inside, absent]

theorem Apart.others (within : fixed.map Prod.fst ⊆ known) :
    others known (fixed ++ extensions.fields) = extensions.fields := by
  unfold Documents.others
  have none' : fixed.filter (·.1 ∉ known) = [] := by
    rw [filter_eq_nil_iff]
    intro entry held outside
    exact of_decide_eq_true outside (within (mem_map_of_mem held))
  have all : extensions.fields.filter (·.1 ∉ known) = extensions.fields := by
    rw [filter_eq_self]
    intro entry held
    apply decide_eq_true
    exact fun inside => apart_iff.mp apart entry.1 inside (mem_map_of_mem held)
  rw [filter_append, none', all, nil_append]

theorem Apart.plain (nodup : (fixed.map Prod.fst).Nodup)
    (within : fixed.map Prod.fst ⊆ known) (plain : PlainFields fixed) : (Document.object (fixed ++ extensions.fields)).Plain := by
  constructor
  · rw [map_append, nodup_append]
    refine ⟨nodup, ?_, ?_⟩
    · rw [fields_names]
      exact ExtTreeMap.nodup_keys
    · rintro name inside _ inside' rfl
      exact apart_iff.mp apart name (within inside) inside'
  · apply PlainFields.of_forall
    intro entry held
    rcases mem_append.mp held with held | held
    · exact plain.each entry held
    · obtain ⟨extension, -, rfl⟩ := mem_map.mp held
      exact extension.2.property

end

end Extensions

theorem plainItems_map (each : ∀ item ∈ items, (encode item).Plain) :
    PlainItems (items.map encode) := by
  induction items with
  | nil => trivial
  | cons item items ih => exact ⟨each item mem_cons_self, ih fun other inside => each other (mem_cons_of_mem _ inside)⟩

end Documents

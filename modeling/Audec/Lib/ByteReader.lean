import Audec.Lib.Checked

/-! Natural numbers as bytes, the lowest first. -/

open List

namespace LittleEndian

def toBytes : Nat → Nat → List UInt8
  | 0, _ => []
  | width + 1, number => UInt8.ofNat number :: toBytes width (number / 256)

def ofBytes : List UInt8 → Nat
  | [] => 0
  | byte :: bytes => byte.toNat + 256 * ofBytes bytes

@[simp] theorem length_toBytes (width number : Nat) : (toBytes width number).length = width := by
  induction width generalizing number with
  | zero => rfl
  | succ width ih => rw [toBytes, length_cons, ih]

theorem ofBytes_toBytes {width number : Nat} (fits : number < 256 ^ width) : ofBytes (toBytes width number) = number := by
  induction width generalizing number with
  | zero =>
    rw [pow_zero] at fits
    exact (Nat.lt_one_iff.mp fits).symm
  | succ width ih =>
    have rest : number / 256 < 256 ^ width := by
      rw [pow_succ] at fits
      exact Nat.div_lt_of_lt_mul (Nat.mul_comm _ _ ▸ fits)
    rw [toBytes, ofBytes, ih rest, UInt8.toNat_ofNat']
    exact Nat.mod_add_div number 256

theorem ofBytes_lt (bytes : List UInt8) : ofBytes bytes < 256 ^ bytes.length := by
  induction bytes with
  | nil => exact Nat.one_pos
  | cons byte bytes tail =>
    have small := byte.toNat_lt
    rw [ofBytes, length_cons, pow_succ]
    omega

theorem toBytes_ofBytes (bytes : List UInt8) : toBytes bytes.length (ofBytes bytes) = bytes := by
  induction bytes with
  | nil => rfl
  | cons byte bytes tail =>
    have small := byte.toNat_lt
    have rest : (byte.toNat + 256 * ofBytes bytes) / 256 = ofBytes bytes := by omega
    have low : UInt8.ofNat (byte.toNat + 256 * ofBytes bytes) = byte := by
      apply UInt8.toNat_inj.mp
      rw [UInt8.toNat_ofNat']
      omega
    rw [length_cons, ofBytes, toBytes, rest, low, tail]

end LittleEndian

/-! Codes as lists of integers, to order records and enumerations field by field. -/

namespace Codes

variable {α β : Type}

/-- A code that can be read off the front of whatever follows it. -/
def SelfDelimiting (code : α → List Int) : Prop :=
  ∀ a b rest rest', code a ++ rest = code b ++ rest' → a = b ∧ rest = rest'

namespace SelfDelimiting

theorem injective {code : α → List Int} (delimited : SelfDelimiting code) : Function.Injective code := by
  intro a b same
  apply (delimited a b [] [] _).1
  rw [same]

theorem single {field : α → Int} (injective : Function.Injective field) : SelfDelimiting (fun a => [field a]) := by
  intro a b rest rest' same
  obtain ⟨head, tail⟩ := List.cons.inj same
  exact ⟨injective head, tail⟩

end SelfDelimiting

abbrev codedOrder (code : α → List Int) (injective : Function.Injective code) : LinearOrder α :=
  LinearOrder.lift' code injective

theorem val_injective {bound : Nat} : Function.Injective (fun number : Fin bound => (number.val : Int)) := by
  intro a b same
  exact Fin.ext (Int.ofNat.inj same)

def textCode (text : String) : List Int := text.toList.map (fun c => (c.toNat : Int)) ++ [-1]

theorem textCode_delimited : SelfDelimiting textCode := by
  have chars : ∀ (a b : List Char) (rest rest' : List Int),
      a.map (fun c => (c.toNat : Int)) ++ -1 :: rest = b.map (fun c => (c.toNat : Int)) ++ -1 :: rest' → a = b ∧ rest = rest' := by
    intro a
    induction a with
    | nil =>
      intro b rest rest' same
      cases b with
      | nil => exact ⟨rfl, (List.cons.inj same).2⟩
      | cons c b =>
        have impossible : (-1 : Int) = (c.toNat : Int) := (List.cons.inj same).1
        omega
    | cons c a ih =>
      intro b rest rest' same
      cases b with
      | nil =>
        have impossible : (c.toNat : Int) = -1 := (List.cons.inj same).1
        omega
      | cons c' b =>
        obtain ⟨head, tail⟩ := List.cons.inj same
        obtain ⟨rfl, rfl⟩ := ih b rest rest' tail
        exact ⟨congrArg (· :: a) (Char.toNat_inj.mp (Int.ofNat.inj head)), rfl⟩
  intro a b rest rest' same
  unfold textCode at same
  rw [append_assoc, append_assoc] at same
  obtain ⟨texts, rests⟩ := chars _ _ _ _ same
  exact ⟨String.toList_inj.mp texts, rests⟩

end Codes

/-! Readers of bytes from the front of an input, and the writers they are exact inverses of. -/

open Checked

namespace ByteReader

variable {ε α β : Type}

/-- The bytes still to be read, and how many were. -/
structure Input where
  consumed : Nat
  rest : List UInt8

abbrev Reader (ε α : Type) := Input → Except ε (α × Input)

def done (value : α) : Reader ε α := fun input => .ok (value, input)

def thenRead (first : Reader ε α) (next : α → Reader ε β) : Reader ε β := fun input =>
  first input >>= fun result => next result.1 result.2

instance : Monad (Reader ε) where
  pure := done
  bind := thenRead

def checking (check : Except ε α) : Reader ε α := fun input => check.map fun value => (value, input)

variable {after input : Input} {result : α}

theorem bind_ok {first : Reader ε α} {next : α → Reader ε β} {result : β} :
    (first >>= next) input = .ok (result, after) ↔
      ∃ value between, first input = .ok (value, between) ∧ next value between = .ok (result, after) := by
  change (first input >>= fun result => next result.1 result.2) = _ ↔ _
  rw [Checked.bind_ok]
  exact ⟨fun ⟨⟨value, between⟩, read, rest⟩ => ⟨value, between, read, rest⟩, fun ⟨value, between, read, rest⟩ => ⟨(value, between), read, rest⟩⟩

@[simp] theorem pure_ok {value : α} :
    (pure value : Reader ε α) input = .ok (result, after) ↔ value = result ∧ input = after := by
  change Except.ok (value, input) = _ ↔ _
  rw [Except.ok.injEq, Prod.mk.injEq]

@[simp] theorem checking_ok {check : Except ε α} :
    checking check input = .ok (result, after) ↔ check = .ok result ∧ input = after := by
  cases check <;> simp [checking, Except.map]

/-- A reader accepts exactly what a writer writes of the valid values, whatever follows, as long as the
    bytes read are counted below a limit. -/
structure Exact (limit : Nat) (read : Reader ε α) (write : α → List UInt8) (valid : α → Prop) : Prop where
  accepts : ∀ value consumed rest, valid value → consumed + (write value).length < limit →
    read ⟨consumed, write value ++ rest⟩ = .ok (value, ⟨consumed + (write value).length, rest⟩)
  canonical : ∀ value input after, read input = .ok (value, after) →
    valid value ∧ input.rest = write value ++ after.rest ∧ after.consumed = input.consumed + (write value).length

namespace Exact

variable {limit : Nat} {read : Reader ε α} {write : α → List UInt8} {valid : α → Prop}

theorem bind (first : Exact limit read write valid) (part : β → α) (write' : β → List UInt8) {next : α → Reader ε β} {valid' : β → Prop}
    (parts : ∀ result, valid' result → valid (part result))
    (rest : ∀ value, valid value → Exact limit (next value) write' fun result => valid' result ∧ part result = value) :
    Exact limit (read >>= next) (fun result => write (part result) ++ write' result) valid' := by
  constructor
  · intro result consumed remaining good fits
    rw [length_append] at fits
    have here := first.accepts (part result) consumed (write' result ++ remaining) (parts result good) (by omega)
    have later := (rest (part result) (parts result good)).accepts result (consumed + (write (part result)).length) remaining ⟨good, rfl⟩ (by omega)
    rw [bind_ok]
    rw [append_assoc, length_append, ← Nat.add_assoc]
    exact ⟨_, _, here, later⟩
  · intro result input after read
    obtain ⟨value, between, here, later⟩ := bind_ok.mp read
    obtain ⟨good, bytes, counted⟩ := first.canonical _ _ _ here
    obtain ⟨⟨good', same⟩, bytes', counted'⟩ := (rest value good).canonical _ _ _ later
    refine ⟨good', ?_, ?_⟩
    · rw [bytes, bytes', same, append_assoc]
    · rw [counted', counted, same, length_append, Nat.add_assoc]

theorem checking {check : Except ε α} (accepts : ∀ value, valid value ↔ check = .ok value) :
    Exact limit (ByteReader.checking check) (fun _ => []) valid := by
  constructor
  · intro value consumed rest good _
    rw [checking_ok]
    exact ⟨(accepts value).mp good, rfl⟩
  · intro value input after read
    rw [checking_ok] at read
    obtain ⟨checked, rfl⟩ := read
    exact ⟨(accepts value).mpr checked, rfl, rfl⟩

theorem congr (exact_ : Exact limit read write valid) {write' : α → List UInt8} {valid' : α → Prop} (same : ∀ value, valid value ↔ valid' value)
    (writes : ∀ value, valid value → write value = write' value) : Exact limit read write' valid' := by
  constructor
  · intro value consumed rest good fits
    have good' := (same value).mpr good
    rw [← writes value good'] at fits ⊢
    exact exact_.accepts value consumed rest good' fits
  · intro value input after read
    obtain ⟨good, bytes, counted⟩ := exact_.canonical value input after read
    rw [writes value good] at bytes counted
    exact ⟨(same value).mp good, bytes, counted⟩

end Exact

def many (read : Reader ε α) : Nat → Reader ε (List α)
  | 0 => pure []
  | count + 1 => do
    let value ← read
    let values ← many read count
    pure (value :: values)

theorem Exact.many {limit : Nat} {read : Reader ε α} {write : α → List UInt8} {valid : α → Prop} (one : Exact limit read write valid) (count : Nat) :
    Exact limit (ByteReader.many read count) (fun values => values.flatMap write) fun values => values.length = count ∧ ∀ value ∈ values, valid value := by
  induction count with
  | zero =>
    constructor
    · rintro values consumed rest ⟨none, -⟩ -
      obtain rfl := length_eq_zero_iff.mp none
      rfl
    · intro values input after read
      obtain ⟨rfl, rfl⟩ := pure_ok.mp read
      exact ⟨⟨rfl, fun _ member => absurd member not_mem_nil⟩, rfl, rfl⟩
  | succ count tail =>
    constructor
    · rintro values consumed rest ⟨counted, good⟩ fits
      cases values with
      | nil => cases counted
      | cons value values =>
        rw [flatMap_cons, length_append] at fits
        have here := one.accepts value consumed (values.flatMap write ++ rest) (good value mem_cons_self) (by omega)
        have later := tail.accepts values (consumed + (write value).length) rest
          ⟨Nat.succ.inj counted, fun other member => good other (mem_cons_of_mem _ member)⟩ (by omega)
        unfold ByteReader.many
        rw [bind_ok, flatMap_cons, append_assoc, length_append, ← Nat.add_assoc]
        refine ⟨_, _, here, bind_ok.mpr ⟨_, _, later, pure_ok.mpr ⟨rfl, rfl⟩⟩⟩
    · intro values input after read
      unfold ByteReader.many at read
      obtain ⟨value, between, here, read⟩ := bind_ok.mp read
      obtain ⟨others, last, later, read⟩ := bind_ok.mp read
      obtain ⟨rfl, rfl⟩ := pure_ok.mp read
      obtain ⟨good, bytes, counted⟩ := one.canonical _ _ _ here
      obtain ⟨⟨length, all⟩, bytes', counted'⟩ := tail.canonical _ _ _ later
      refine ⟨⟨by rw [length_cons, length], ?_⟩, ?_, ?_⟩
      · intro other member
        rcases mem_cons.mp member with rfl | member
        · exact good
        · exact all other member
      · rw [bytes, bytes', flatMap_cons, append_assoc]
      · rw [counted', counted, flatMap_cons, length_append, Nat.add_assoc]

/-- A reader that never stops in a given way. -/
def Avoids (bad : ε) (read : Reader ε α) : Prop := ∀ input, read input ≠ .error bad

namespace Avoids

variable {bad : ε} {read : Reader ε α}

theorem pure (value : α) : Avoids bad (Pure.pure value : Reader ε α) := by
  intro input same
  cases same

theorem checking {check : Except ε α} (avoids : check ≠ .error bad) : Avoids bad (ByteReader.checking check) := by
  intro input same
  cases checked : check with
  | ok value =>
    rw [checked] at same
    cases same
  | error error =>
    rw [checked] at same
    cases same
    exact avoids checked

theorem bind (first : Avoids bad read) {next : α → Reader ε β} (rest : ∀ value, Avoids bad (next value)) : Avoids bad (read >>= next) := by
  intro input
  change (read input >>= fun result => next result.1 result.2) ≠ _
  cases here : read input with
  | ok result => exact rest result.1 result.2
  | error error =>
    intro same
    cases same
    exact first input here

end Avoids

end ByteReader

import Audec.Lib.Mixing
import Audec.Sequencer.Runs

/-! What the probability of a note or of a hit is drawn from. -/

open Machine Checked Mixing List Entries Option

namespace Audec.Sequencer

open PatternLang

def hash64 (value : BitVec 64) : BitVec 64 :=
  let value := value ^^^ (value >>> 30)
  let value := value * 0xbf58476d1ce4e5b9#64
  let value := value ^^^ (value >>> 27)
  let value := value * 0x94d049bb133111eb#64
  value ^^^ (value >>> 31)

def performanceIdentity (seed clip event : U64) (cycle : I64) (sub : Fin 0x100) : BitVec 64 :=
  hash64 (BitVec.ofNat 64 seed.val ^^^ (BitVec.ofNat 64 clip.val).rotateLeft 11 ^^^ (BitVec.ofNat 64 event.val).rotateLeft 29 ^^^
    (BitVec.ofInt 64 cycle.val).rotateLeft 43 ^^^ BitVec.ofNat 64 sub.val)

/-- What a clip plays once: a note, or one of the hits of a step. -/
inductive Played where
  | note (id : NoteId)
  | hit (lane : StepLaneId) (index : U32) (ratchet : Fin 0x100)
  deriving DecidableEq

structure Occurrence where
  clip : PatternClipId
  cycle : I64
  played : Played
  deriving DecidableEq

def Played.event : Played → U64
  | .note id => id
  | .hit lane index _ => lane ^^^ Fin.ofNat _ index.val

def Played.sub : Played → Fin 0x100
  | .note _ => 0
  | .hit _ _ ratchet => ratchet

def Occurrence.identity (seed : U64) (occurrence : Occurrence) : BitVec 64 :=
  performanceIdentity seed occurrence.clip occurrence.played.event occurrence.cycle occurrence.played.sub

/-- The steps that a cycle plays: the stored ones, or what an undiverged expression makes for it. -/
def PatternDefinition.Steps (definition : PatternDefinition) (cycle : I64) (steps : StepPattern) : Prop :=
  definition.content = .steps steps ∨
    ∃ source termHash bindingsHash bindings term output, definition.origin = .expression source termHash bindingsHash bindings false ∧
      parse source = .ok term ∧ evalSteps term ⟨bindings.entries, definition.length, Fin.ofNat _ cycle.val.toNat, bindings.countable⟩ = .ok output ∧
      steps = output.pattern

def PatternDefinition.Plays (definition : PatternDefinition) (cycle : I64) : Played → Prop
  | .note id => ∃ pattern note, definition.content = .notes pattern ∧ note ∈ Entries.values pattern.notes ∧ note.id = id
  | .hit laneId index ratchet => definition.content.isSteps = true ∧ ∃ steps lane step, definition.Steps cycle steps ∧
      lane ∈ Entries.values steps.lanes ∧ lane.id = laneId ∧ lane.steps[index]? = some step ∧ ratchet.val < max step.ratchets.val 1

/-- Every occurrence that is scheduled is among these; whether it is depends on the window and on the extent of its clip. -/
def Sequencer.Places (sequencer : Sequencer) (occurrence : Occurrence) : Prop :=
  ∃ clip definition, clip ∈ Entries.values sequencer.clips ∧ clip.id = occurrence.clip ∧ clip.muted = false ∧
    sequencer.patterns[clip.pattern]? = some definition ∧ 0 ≤ occurrence.cycle.val ∧ (clip.looped = false → occurrence.cycle.val = 0) ∧
    definition.Plays occurrence.cycle occurrence.played

def Played.Small : Played → Prop
  | .note id => id.val < 0x400
  | .hit lane index _ => lane.val < 0x400 ∧ index.val < 0x400

/-- Ids, indices and cycles of ten bits. -/
structure Occurrence.Small (occurrence : Occurrence) : Prop where
  clip : occurrence.clip.val < 0x400
  cycle : occurrence.cycle.val < 0x400
  played : occurrence.played.Small

/-! ### What an identity tells -/

theorem hash64_injective : Function.Injective hash64 := by
  have first := @xorShift_injective 64 30 (by decide)
  have second := (@mul_injective 64 0xbf58476d1ce4e5b9#64 0x96de1b173f119089#64 (by decide)).comp first
  have third := (@xorShift_injective 64 27 (by decide)).comp second
  have fourth := (@mul_injective 64 0x94d049bb133111eb#64 0x319642b2d24d8ec3#64 (by decide)).comp third
  exact (@xorShift_injective 64 31 (by decide)).comp fourth

/-- The word without the seed: ten bits from each of the bits 11, 29 and 43 on, and eight below them. -/
def word (clip event cycle sub : BitVec 64) : BitVec 64 :=
  clip.rotateLeft 11 ^^^ event.rotateLeft 29 ^^^ cycle.rotateLeft 43 ^^^ sub

structure Packed (clip event cycle sub : BitVec 64) : Prop where
  clip : clip.toNat < 2 ^ 10
  event : event.toNat < 2 ^ 10
  cycle : cycle.toNat < 2 ^ 10
  sub : sub.toNat < 2 ^ 8

section Packed

variable {clip event cycle sub clip' event' cycle' sub' : BitVec 64} (packed : Packed clip event cycle sub)
include packed

theorem word_fields :
    (∀ i < 10, (word clip event cycle sub).getLsbD (11 + i) = clip.getLsbD i) ∧ (∀ i < 10, (word clip event cycle sub).getLsbD (29 + i) = event.getLsbD i) ∧
      (∀ i < 10, (word clip event cycle sub).getLsbD (43 + i) = cycle.getLsbD i) ∧ ∀ i < 8, (word clip event cycle sub).getLsbD i = sub.getLsbD i := by
  unfold word
  refine ⟨fun i inside => ?_, fun i inside => ?_, fun i inside => ?_, fun i inside => ?_⟩ <;>
    simp (disch := omega) only [BitVec.getLsbD_xor, bit_field packed.clip, bit_field packed.event, bit_field packed.cycle, bit_beside packed.clip,
      bit_beside packed.event, bit_beside packed.cycle, bit_of_small packed.sub, Bool.xor_false, Bool.false_xor]

theorem word_injective (packed' : Packed clip' event' cycle' sub') (same : word clip event cycle sub = word clip' event' cycle' sub') :
    clip = clip' ∧ event = event' ∧ cycle = cycle' ∧ sub = sub' := by
  obtain ⟨clips, events, cycles, subs⟩ := word_fields packed
  obtain ⟨clips', events', cycles', subs'⟩ := word_fields packed'
  rw [same] at clips events cycles subs
  exact ⟨eq_of_bits packed.clip packed'.clip fun i inside => (clips i inside).symm.trans (clips' i inside),
    eq_of_bits packed.event packed'.event fun i inside => (events i inside).symm.trans (events' i inside),
    eq_of_bits packed.cycle packed'.cycle fun i inside => (cycles i inside).symm.trans (cycles' i inside),
    eq_of_bits packed.sub packed'.sub fun i inside => (subs i inside).symm.trans (subs' i inside)⟩

end Packed

theorem toNat_ofNat {n : Nat} (x : Fin n) (small : n ≤ 0x10000000000000000) : (BitVec.ofNat 64 x.val).toNat = x.val := by
  rw [BitVec.toNat_ofNat, Nat.mod_eq_of_lt (x.isLt.trans_le small)]

theorem ofNat_injective {n : Nat} {x y : Fin n} (small : n ≤ 0x10000000000000000) (same : BitVec.ofNat 64 x.val = BitVec.ofNat 64 y.val) : x = y := by
  refine Fin.ext ?_
  rw [← toNat_ofNat x small, same, toNat_ofNat y small]

theorem toNat_ofInt {x : I64} (nonneg : 0 ≤ x.val) (small : x.val < 0x400) : (BitVec.ofInt 64 x.val).toNat = x.val.toNat := by
  rw [BitVec.toNat_ofInt, Int.emod_eq_of_lt nonneg (small.trans (by decide))]

namespace Occurrence

variable {occurrence a b : Occurrence}

theorem Small.event (small : occurrence.Small) : occurrence.played.event.val < 0x400 := by
  have played := small.played
  revert played
  cases occurrence.played with
  | note id =>
    intro small
    exact small
  | hit lane index ratchet =>
    intro small
    have whole : (Fin.ofNat 0x10000000000000000 index.val).val = index.val := Nat.mod_eq_of_lt (small.2.trans (by decide))
    have mixed : lane.val ^^^ index.val < 2 ^ 10 := Nat.xor_lt_two_pow small.1 small.2
    calc
      _ ≤ lane.val ^^^ (Fin.ofNat 0x10000000000000000 index.val).val := Nat.mod_le _ _
      _ < _ := by rw [whole]; exact mixed

theorem Small.packed (small : occurrence.Small) (nonneg : 0 ≤ occurrence.cycle.val) :
    Packed (BitVec.ofNat 64 occurrence.clip.val) (BitVec.ofNat 64 occurrence.played.event.val) (BitVec.ofInt 64 occurrence.cycle.val)
      (BitVec.ofNat 64 occurrence.played.sub.val) where
  clip := by rw [toNat_ofNat _ le_rfl]; exact small.clip
  event := by rw [toNat_ofNat _ le_rfl]; exact small.event
  cycle := by
    have below := small.cycle
    rw [toNat_ofInt nonneg below]
    omega
  sub := by rw [toNat_ofNat _ (by decide)]; exact occurrence.played.sub.isLt

theorem identity_eq_iff {seed : U64} (left : a.Small) (right : b.Small) (nonneg : 0 ≤ a.cycle.val) (nonneg' : 0 ≤ b.cycle.val) :
    a.identity seed = b.identity seed ↔ a.clip = b.clip ∧ a.cycle = b.cycle ∧ a.played.event = b.played.event ∧ a.played.sub = b.played.sub := by
  constructor
  · intro same
    have folded := hash64_injective same
    simp only [BitVec.xor_assoc, BitVec.xor_right_inj] at folded
    simp only [← BitVec.xor_assoc] at folded
    obtain ⟨clip, event, cycle, sub⟩ := word_injective (left.packed nonneg) (right.packed nonneg') folded
    refine ⟨ofNat_injective le_rfl clip, I64.val_injective ?_, ofNat_injective le_rfl event, ofNat_injective (by decide) sub⟩
    have number := congrArg BitVec.toNat cycle
    rw [toNat_ofInt nonneg left.cycle, toNat_ofInt nonneg' right.cycle] at number
    omega
  · rintro ⟨clip, cycle, event, sub⟩
    unfold identity
    rw [clip, cycle, event, sub]

end Occurrence

/-! ### The occurrences of a project -/

section Project

variable {sequencer : Sequencer} {a b : Occurrence}

/-- One clip plays either notes or steps. -/
theorem content_of_places (valid : sequencer.validate = .ok ()) (left : sequencer.Places a) (right : sequencer.Places b) (same : a.clip = b.clip) :
    ∃ definition : PatternDefinition, definition.Plays a.cycle a.played ∧ definition.Plays b.cycle b.played := by
  obtain ⟨clip, definition, member, named, -, held, -, -, plays⟩ := left
  obtain ⟨clip', definition', member', named', -, held', -, -, plays'⟩ := right
  obtain ⟨id, found⟩ := mem_values.mp member
  obtain ⟨id', found'⟩ := mem_values.mp member'
  have clips := (Sequencer.validate_ok.mp valid).clips
  rw [(clips id clip found).1, named, same] at found
  rw [(clips id' clip' found').1, named'] at found'
  obtain rfl := some.inj (found.symm.trans found')
  obtain rfl := some.inj (held.symm.trans held')
  exact ⟨definition, plays, plays'⟩

theorem same_kind {definition : PatternDefinition} {cycle cycle' : I64} {id : NoteId} {lane : StepLaneId} {index : U32} {ratchet : Fin 0x100}
    (note : definition.Plays cycle (.note id)) : ¬ definition.Plays cycle' (.hit lane index ratchet) := by
  rintro ⟨steps, -⟩
  obtain ⟨pattern, _, notes, -⟩ := note
  rw [notes] at steps
  cases steps

end Project

/-- Occurrences of small numbers are told apart unless one clip plays steps of two lanes at once whose ids and indices mix to one number. -/
theorem identities_distinct_iff {sequencer : Sequencer} (valid : sequencer.validate = .ok ()) (seed : U64) {scheduled : Set Occurrence}
    (placed : ∀ occurrence ∈ scheduled, sequencer.Places occurrence) (small : ∀ occurrence ∈ scheduled, occurrence.Small) :
    (∀ a ∈ scheduled, ∀ b ∈ scheduled, a ≠ b → a.identity seed ≠ b.identity seed) ↔
      ∀ clip cycle ratchet lane index lane' index', ⟨clip, cycle, .hit lane index ratchet⟩ ∈ scheduled →
        ⟨clip, cycle, .hit lane' index' ratchet⟩ ∈ scheduled → lane ^^^ Fin.ofNat _ index.val = lane' ^^^ Fin.ofNat _ index'.val →
        lane = lane' ∧ index = index' := by
  have alike (a : Occurrence) (member : a ∈ scheduled) (b : Occurrence) (member' : b ∈ scheduled) : a.identity seed = b.identity seed ↔
      a.clip = b.clip ∧ a.cycle = b.cycle ∧ a.played.event = b.played.event ∧ a.played.sub = b.played.sub := by
    obtain ⟨_, _, _, _, _, _, nonneg, -⟩ := placed a member
    obtain ⟨_, _, _, _, _, _, nonneg', -⟩ := placed b member'
    exact Occurrence.identity_eq_iff (small a member) (small b member') nonneg nonneg'
  constructor
  · intro distinct clip cycle ratchet lane index lane' index' member member' mixed
    by_contra apart
    refine distinct _ member _ member' (fun same => ?_) ((alike _ member _ member').mpr ⟨rfl, rfl, mixed, rfl⟩)
    cases same
    exact apart ⟨rfl, rfl⟩
  · intro separate a member b member' apart same
    obtain ⟨clips, cycles, events, subs⟩ := (alike a member b member').mp same
    obtain ⟨definition, plays, plays'⟩ := content_of_places valid (placed a member) (placed b member') clips
    obtain ⟨clip, cycle, played⟩ := a
    obtain ⟨clip', cycle', played'⟩ := b
    obtain rfl : clip = clip' := clips
    obtain rfl : cycle = cycle' := cycles
    cases played with
    | note id =>
      cases played' with
      | note id' =>
        obtain rfl : id = id' := events
        exact apart rfl
      | hit lane index ratchet => exact same_kind plays plays'
    | hit lane index ratchet =>
      cases played' with
      | note id => exact same_kind plays' plays
      | hit lane' index' ratchet' =>
        obtain rfl : ratchet = ratchet' := subs
        obtain ⟨rfl, rfl⟩ := separate _ _ _ _ _ _ _ member member' events
        exact apart rfl

def evenStep : StepEvent := ⟨1, 0.5, I32.zero, 0, 1, 0, 0⟩

/-- One clip over two lanes, with the first step of one and some step of the other. -/
def twoLanes (index : U32) : Sequencer :=
  { Sequencer.new commonTime with
    patterns := Collected.collect [(1, ⟨1, "steps", 960, .steps ⟨240, 0, Collected.collect [
      (2, ⟨2, "kick".toList, .sample 1, none, Collected.collect [(0, evenStep)]⟩),
      (3, ⟨3, "snare".toList, .sample 2, none, Collected.collect [(index, evenStep)]⟩)]⟩, .authored, 0⟩)]
    clips := Collected.collect [(1, ⟨1, 1, I64.zero, 960, I64.zero, false, 0, 1, false⟩)] }

def kick : Occurrence := ⟨1, I64.zero, .hit 2 0 0⟩

def snare (index : U32) : Occurrence := ⟨1, I64.zero, .hit 3 index 0⟩

theorem twoLanes_places (index : U32) : ∀ occurrence ∈ ({kick, snare index} : Set Occurrence), (twoLanes index).Places occurrence := by
  rintro _ (rfl | rfl)
  · exact ⟨_, _, mem_singleton.mpr rfl, rfl, rfl, rfl, le_rfl, fun _ => rfl, rfl, _, _, _, .inl rfl, mem_cons_self, rfl, rfl, Nat.zero_lt_one⟩
  · exact ⟨_, _, mem_singleton.mpr rfl, rfl, rfl, rfl, le_rfl, fun _ => rfl, rfl, _, _, _, .inl rfl, mem_cons_of_mem _ mem_cons_self, rfl,
      Std.ExtTreeMap.getElem?_insert_self, Nat.zero_lt_one⟩

theorem twoLanes_small {index : U32} (small : index.val < 0x400) : ∀ occurrence ∈ ({kick, snare index} : Set Occurrence), occurrence.Small := by
  rintro _ (rfl | rfl)
  · exact ⟨(by decide : 1 < 0x400), (by decide : (0 : Int) < 0x400), (by decide : 2 < 0x400), (by decide : 0 < 0x400)⟩
  · exact ⟨(by decide : 1 < 0x400), (by decide : (0 : Int) < 0x400), (by decide : 3 < 0x400), small⟩

theorem lanes_share_identities : ¬ ∀ (sequencer : Sequencer) (seed : U64) (scheduled : Set Occurrence), sequencer.validate = .ok () →
    (∀ occurrence ∈ scheduled, sequencer.Places occurrence) → (∀ occurrence ∈ scheduled, occurrence.Small) →
    ∀ a ∈ scheduled, ∀ b ∈ scheduled, a ≠ b → a.identity seed ≠ b.identity seed := by
  intro distinct
  exact distinct (twoLanes 1) 0 {kick, snare 1} rfl (twoLanes_places 1) (twoLanes_small (by decide)) kick (.inl rfl) (snare 1) (.inr rfl) (by decide) rfl

theorem lanes_told_apart : (twoLanes 0).validate = .ok () ∧
    ∀ seed, ∀ a ∈ ({kick, snare 0} : Set Occurrence), ∀ b ∈ ({kick, snare 0} : Set Occurrence), a ≠ b → a.identity seed ≠ b.identity seed := by
  refine ⟨rfl, fun seed => (identities_distinct_iff rfl seed (twoLanes_places 0) (twoLanes_small (by decide))).mpr ?_⟩
  rintro _ _ _ lane index lane' index' (same | same) (same' | same') mixed <;> cases same <;> cases same'
  · exact ⟨rfl, rfl⟩
  · exact absurd mixed (by decide)
  · exact absurd mixed (by decide)
  · exact ⟨rfl, rfl⟩

end Audec.Sequencer

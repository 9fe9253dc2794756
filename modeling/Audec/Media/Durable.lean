import Audec.Media.Recording

/-! The journal of a recording is its durable prefix, and the blocks of the FIFO continue it. -/

open Std (ExtTreeMap)
open Machine Checked Runs List Entries

namespace Audec.Media

/-- Spans laid end to end from a frame. -/
def Consecutive (start : Int) : List (Int × Nat) → Prop
  | [] => True
  | (first, frames) :: rest => first = start ∧ Consecutive (start + frames) rest

def frameTotal (spans : List (Int × Nat)) : Nat := (spans.map Prod.snd).sum

@[simp] theorem frameTotal_nil : frameTotal [] = 0 := rfl

@[simp] theorem frameTotal_cons (span : Int × Nat) (spans : List (Int × Nat)) :
    frameTotal (span :: spans) = span.2 + frameTotal spans := by
  simp [frameTotal]

@[simp] theorem frameTotal_append (spans others : List (Int × Nat)) :
    frameTotal (spans ++ others) = frameTotal spans + frameTotal others := by
  simp [frameTotal]

variable {spans : List (Int × Nat)}

theorem consecutive_append {start : Int} {others : List (Int × Nat)} :
    Consecutive start (spans ++ others) ↔ Consecutive start spans ∧ Consecutive (start + frameTotal spans) others := by
  induction spans generalizing start with
  | nil => simp [Consecutive]
  | cons span spans tail =>
    obtain ⟨first, frames⟩ := span
    rw [cons_append, Consecutive, Consecutive, tail, frameTotal_cons, Nat.cast_add, add_assoc, and_assoc]

theorem le_frameTotal (positive : ∀ span ∈ spans, 0 < span.2) : spans.length ≤ frameTotal spans := by
  induction spans with
  | nil => exact le_refl 0
  | cons span spans tail =>
    have := positive span mem_cons_self
    have := tail fun other member => positive other (mem_cons_of_mem _ member)
    rw [frameTotal_cons, length_cons]
    omega

theorem frameTotal_le {most : Nat} (bounded : ∀ span ∈ spans, span.2 ≤ most) :
    frameTotal spans ≤ spans.length * most := by
  induction spans with
  | nil => exact Nat.zero_le _
  | cons span spans tail =>
    have := bounded span mem_cons_self
    have := tail fun other member => bounded other (mem_cons_of_mem _ member)
    rw [frameTotal_cons, length_cons, Nat.succ_mul]
    omega

def RecordingJournalEntry.span {D : Type} (entry : RecordingJournalEntry D) : Int × Nat :=
  (entry.firstProjectFrame.val, entry.frames.val)

def CaptureBlock.span (block : CaptureBlock) : Int × Nat := (block.firstProjectFrame.val, block.frames.val)

namespace RecordingJournalWriter

variable {D : Type}

def journalSpans (writer : RecordingJournalWriter D) : List (Int × Nat) := writer.journal.map RecordingJournalEntry.span

def pendingSpans (writer : RecordingJournalWriter D) : List (Int × Nat) := (Entries.values writer.pending).map CaptureBlock.span

structure DurablePrefix (header : RecordingJournalHeader D) (writer : RecordingJournalWriter D) : Prop where
  sequences : writer.journal.map (fun entry => entry.sequence.val) = List.range writer.journal.length
  frames : Consecutive header.startProjectFrame.val writer.journalSpans
  recoverable : writer.recoverableFrames.val = frameTotal writer.journalSpans
  increasing : (writer.journal.map RecordingJournalEntry.durableByteEnd).Pairwise (· < ·)
  pendingSequences : (Entries.values writer.pending).map (fun block => block.sequence.val) =
    List.range' writer.journal.length writer.pending.size
  pendingFrames : Consecutive (header.startProjectFrame.val + writer.recoverableFrames.val) writer.pendingSpans
  bounded : writer.pending.size ≤ header.fifo.capacityBlocks.val

structure Recorded (header : RecordingJournalHeader D) (writer : RecordingJournalWriter D) : Prop
    extends DurablePrefix header writer where
  header_eq : writer.header = header
  next : writer.nextSequence.val = writer.journal.length
  keyed : ∀ entry ∈ writer.pending.toList, entry.2.sequence = entry.1
  journalPositive : ∀ span ∈ writer.journalSpans, 0 < span.2
  pendingPositive : ∀ span ∈ writer.pendingSpans, 0 < span.2
  limited : writer.framesAcknowledged.val + frameTotal writer.pendingSpans < 0x8001000000000000

variable {header : RecordingJournalHeader D} {writer : RecordingJournalWriter D}

theorem pendingSpans_length (writer : RecordingJournalWriter D) : writer.pendingSpans.length = writer.pending.size := by
  unfold pendingSpans Entries.values
  rw [length_map, length_map, ExtTreeMap.length_toList]

theorem pendingSpans_le (writer : RecordingJournalWriter D) : frameTotal writer.pendingSpans ≤ writer.pending.size * 0xffffffff := by
  rw [← pendingSpans_length]
  apply frameTotal_le
  rintro span member
  obtain ⟨block, -, rfl⟩ := mem_map.mp member
  have := block.frames.isLt
  change block.frames.val ≤ _
  omega

theorem Recorded.pendingKeys (recorded : Recorded header writer) :
    writer.pending.toList.map (fun entry => entry.1.val) = List.range' writer.journal.length writer.pending.size := by
  rw [← recorded.pendingSequences]
  unfold Entries.values
  rw [map_map]
  apply map_congr_left
  intro entry member
  change entry.1.val = entry.2.sequence.val
  rw [recorded.keyed entry member]

theorem Recorded.journal_le (recorded : Recorded header writer) :
    writer.journal.length + writer.pending.size ≤ writer.framesAcknowledged.val + frameTotal writer.pendingSpans := by
  have journal := le_frameTotal recorded.journalPositive
  have pending := le_frameTotal recorded.pendingPositive
  have acknowledged : writer.framesAcknowledged.val = _ := recorded.recoverable
  rw [pendingSpans_length] at pending
  rw [journalSpans, length_map] at journal
  rw [acknowledged, journalSpans]
  omega

theorem new_ok {header : RecordingJournalHeader D} (accepted : new header = .ok writer) : writer = ⟨header, .capturing, 0, 0, ∅, []⟩ := by
  simp only [new, bind_unit_ok] at accepted
  exact (Except.ok.inj accepted.2.2).symm

theorem new_recorded (accepted : new header = .ok writer) : Recorded header writer := by
  have idle : Entries.values (∅ : ExtTreeMap U64 CaptureBlock) = [] := rfl
  rw [new_ok accepted]
  constructor
  case toDurablePrefix => constructor <;> simp [journalSpans, pendingSpans, recoverableFrames, idle, Consecutive]
  case keyed => exact fun entry member => absurd member not_mem_nil
  all_goals simp [journalSpans, pendingSpans, idle]

theorem Recorded.expectedSequence_val (recorded : Recorded header writer) :
    writer.expectedSequence.val = writer.journal.length + writer.pending.size := by
  have counted := recorded.journal_le
  have limited := recorded.limited
  have fits : writer.pending.size < 0x10000000000000000 := by omega
  rw [expectedSequence, Fin.val_add, Fin.val_ofNat, Nat.mod_eq_of_lt fits, recorded.next, Nat.mod_eq_of_lt (by omega)]

theorem checkedAdd_val {a c : I64} {b : Int} (added : checkedAdd a b = some c) : c.val = a.val + b := by
  unfold checkedAdd at added
  split at added
  · cases added
    rfl
  · cases added

theorem tryFrom_val {x : U64} {y : I64} (converted : tryFrom x = some y) : y.val = x.val ∧ x.val < 0x8000000000000000 := by
  unfold tryFrom at converted
  split at converted
  · rename_i fits
    cases converted
    exact ⟨rfl, fits⟩
  · cases converted

theorem foldl_checkedAdd {blocks : List CaptureBlock} {base frame : I64}
    (added : blocks.foldlM (fun frame block => checkedAdd frame block.frames.val) base = some frame) :
    frame.val = base.val + frameTotal (blocks.map CaptureBlock.span) := by
  induction blocks generalizing base with
  | nil =>
    cases added
    simp
  | cons block blocks tail =>
    rw [foldlM_cons, Option.bind_eq_bind, Option.bind_eq_some_iff] at added
    obtain ⟨next, first, rest⟩ := added
    rw [tail rest, checkedAdd_val first, map_cons, frameTotal_cons, Nat.cast_add, add_assoc]
    rfl

theorem expectedFrame_val {frame : I64} (expected : writer.expectedFrame = some frame) :
    frame.val = writer.header.startProjectFrame.val + writer.framesAcknowledged.val + frameTotal writer.pendingSpans ∧
      writer.framesAcknowledged.val < 0x8000000000000000 := by
  simp only [expectedFrame, Option.bind_eq_bind, Option.bind_eq_some_iff] at expected
  obtain ⟨acknowledged, small, base, start, rest⟩ := expected
  obtain ⟨same, below⟩ := tryFrom_val small
  refine ⟨?_, below⟩
  rw [foldl_checkedAdd rest, checkedAdd_val start, same]
  rfl

variable {block : CaptureBlock}

theorem checkBlock_ok [DecidableEq D] (checked : writer.checkBlock block = .ok ()) :
    writer.state = .capturing ∧ writer.pending.size < writer.header.fifo.capacityBlocks.val ∧ block.sequence = writer.expectedSequence ∧
      block.frames ≠ 0 ∧ writer.expectedFrame = some block.firstProjectFrame := by
  simp only [checkBlock, bind_unit_ok, ensure_ok] at checked
  obtain ⟨capturing, room, sequence, frames, samples⟩ := checked
  rw [bind_ok] at samples
  obtain ⟨_, -, rest⟩ := samples
  simp only [bind_unit_ok, ensure_ok] at rest
  obtain ⟨-, -, placed⟩ := rest
  refine ⟨capturing, room, sequence, frames.1, ?_⟩
  split at placed
  · cases placed
  · rename_i frame expected
    rw [expected, ensure_ok.mp placed]

section

variable (recorded : Recorded header writer)
include recorded

theorem Recorded.toList_enqueued (numbered : block.sequence = writer.expectedSequence) :
    (writer.pending.insert block.sequence block).toList = writer.pending.toList ++ [(block.sequence, block)] := by
  apply Queue.toList_insert_last
  intro entry member
  have number : entry.1.val ∈ writer.pending.toList.map (fun entry => entry.1.val) := mem_map_of_mem member
  rw [recorded.pendingKeys, mem_range'_1] at number
  rw [compare_lt_iff_lt, Fin.lt_def, numbered, recorded.expectedSequence_val]
  exact number.2

theorem enqueue_recorded [DecidableEq D] (checked : writer.checkBlock block = .ok ()) :
    Recorded header { writer with pending := writer.pending.insert block.sequence block } := by
  obtain ⟨-, room, numbered, frames, placed⟩ := checkBlock_ok checked
  obtain ⟨first, below⟩ := expectedFrame_val placed
  have entries := recorded.toList_enqueued numbered
  have values : Entries.values (writer.pending.insert block.sequence block) = Entries.values writer.pending ++ [block] := by
    rw [Entries.values, entries, map_append, map_singleton, Entries.values]
  have size : (writer.pending.insert block.sequence block).size = writer.pending.size + 1 := by
    rw [← ExtTreeMap.length_toList, entries, length_append, ExtTreeMap.length_toList, length_singleton]
  have spans : pendingSpans { writer with pending := writer.pending.insert block.sequence block } = writer.pendingSpans ++ [block.span] := by
    rw [pendingSpans, values, map_append, map_singleton, pendingSpans]
  refine ⟨⟨recorded.sequences, recorded.frames, recorded.recoverable, recorded.increasing, ?_, ?_, ?_⟩,
    recorded.header_eq, recorded.next, ?_, recorded.journalPositive, ?_, ?_⟩
  · rw [values, map_append, recorded.pendingSequences, size, range'_1_concat, map_singleton, numbered,
      recorded.expectedSequence_val]
  · rw [spans, consecutive_append]
    refine ⟨recorded.pendingFrames, ?_, trivial⟩
    rw [first, recorded.header_eq]
    rfl
  · rw [size, ← recorded.header_eq]
    exact room
  · intro entry member
    rw [entries, mem_append, mem_singleton] at member
    rcases member with queued | rfl
    · exact recorded.keyed entry queued
    · rfl
  · intro span member
    rw [spans, mem_append, mem_singleton] at member
    rcases member with queued | rfl
    · exact recorded.pendingPositive span queued
    · exact Fin.pos_iff_ne_zero.mpr frames
  · have queued := pendingSpans_le writer
    have capacity := recorded.header_eq ▸ room
    have small := header.fifo.capacityBlocks.isLt
    have width : block.span.2 < 0x100000000 := block.frames.isLt
    rw [spans, frameTotal_append, frameTotal_cons, frameTotal_nil]
    change writer.framesAcknowledged.val + _ < _
    nlinarith [recorded.bounded]

section

variable (held : writer.pending[writer.nextSequence]? = some block)
include held

theorem Recorded.toList_acknowledged :
    writer.pending.toList = (writer.nextSequence, block) :: (writer.pending.erase writer.nextSequence).toList := by
  have keys := recorded.pendingKeys
  cases entries : writer.pending.toList with
  | nil =>
    rw [← mem_toList, entries] at held
    cases held
  | cons entry rest =>
    obtain ⟨key, value⟩ := entry
    have size : writer.pending.size = rest.length + 1 := by rw [← ExtTreeMap.length_toList, entries, length_cons]
    rw [entries, size, range'_succ, map_cons, List.cons.injEq, ← recorded.next] at keys
    obtain rfl : key = writer.nextSequence := Fin.ext keys.1
    have found : writer.pending[writer.nextSequence]? = some value := mem_toList.mp (entries ▸ mem_cons_self)
    obtain rfl : value = block := Option.some.inj (found.symm.trans held)
    rw [Queue.toList_erase_first entries]

theorem Recorded.acknowledge_fits : writer.framesAcknowledged.val + block.frames.val < 0x10000000000000000 := by
  have limited := recorded.limited
  have spans : writer.pendingSpans = block.span :: ((writer.pending.erase writer.nextSequence).toList.map Prod.snd).map CaptureBlock.span := by
    rw [pendingSpans, Entries.values, recorded.toList_acknowledged held, map_cons, map_cons]
  rw [spans, frameTotal_cons] at limited
  change _ + (block.frames.val + _) < _ at limited
  omega

end

end

theorem increasing_append {ends : List U64} {durableByteEnd : U64} (increasing : ends.Pairwise (· < ·))
    (after : ∀ previous, ends.getLast? = some previous → previous < durableByteEnd) : (ends ++ [durableByteEnd]).Pairwise (· < ·) := by
  refine pairwise_append.mpr ⟨increasing, pairwise_singleton _ _, fun earlier member last alone => ?_⟩
  cases mem_singleton.mp alone
  rcases eq_nil_or_concat ends with rfl | ⟨others, previous, rfl⟩
  · cases member
  · rw [concat_eq_append] at member increasing after
    have least := after previous getLast?_concat
    rcases mem_append.mp member with before | same
    · exact lt_trans ((pairwise_append.mp increasing).2.2 earlier before previous mem_cons_self) least
    · rwa [mem_singleton.mp same]

section

variable (recorded : Recorded header writer)
include recorded

theorem acknowledge_recorded (held : writer.pending[writer.nextSequence]? = some block)
    {durableByteEnd : U64} (after : writer.durableAfter durableByteEnd) (payloadDigest : D)
    (fits : writer.framesAcknowledged.val + block.frames.val < 0x10000000000000000) :
    Recorded header { writer with
      pending := writer.pending.erase writer.nextSequence
      framesAcknowledged := ⟨writer.framesAcknowledged.val + block.frames.val, fits⟩
      journal := writer.journal ++ [⟨writer.nextSequence, block.firstProjectFrame, block.frames, durableByteEnd, payloadDigest⟩]
      nextSequence := writer.nextSequence + 1 } := by
  have entries := recorded.toList_acknowledged held
  have values : Entries.values writer.pending = block :: Entries.values (writer.pending.erase writer.nextSequence) := by
    rw [Entries.values, entries, map_cons, Entries.values]
  have size : writer.pending.size = (writer.pending.erase writer.nextSequence).size + 1 := by
    rw [← ExtTreeMap.length_toList, entries, length_cons, ExtTreeMap.length_toList]
  have spans : writer.pendingSpans = block.span :: (Entries.values (writer.pending.erase writer.nextSequence)).map CaptureBlock.span := by
    rw [pendingSpans, values, map_cons]
  have acknowledged : writer.framesAcknowledged.val = frameTotal writer.journalSpans := recorded.recoverable
  have continued := recorded.pendingFrames
  rw [spans] at continued
  obtain ⟨start, continued⟩ := continued
  have counted := recorded.journal_le
  have limited := recorded.limited
  refine ⟨⟨?_, ?_, ?_, ?_, ?_, ?_, ?_⟩, recorded.header_eq, ?_, ?_, ?_, ?_, ?_⟩
  · rw [map_append, recorded.sequences, map_singleton, recorded.next, length_append, length_singleton, range_succ]
  · rw [journalSpans, map_append, consecutive_append]
    exact ⟨recorded.frames, start.trans (by rw [recorded.recoverable]; rfl), trivial⟩
  · rw [journalSpans, map_append, frameTotal_append]
    change writer.framesAcknowledged.val + _ = _
    rw [acknowledged]
    rfl
  · rw [map_append]
    apply increasing_append recorded.increasing
    intro previous last
    rw [getLast?_map, Option.map_eq_some_iff] at last
    obtain ⟨entry, last, rfl⟩ := last
    unfold durableAfter at after
    rwa [last] at after
  · have queued := recorded.pendingSequences
    rw [values, size, range'_succ, map_cons, List.cons.injEq] at queued
    rw [queued.2, length_append, length_singleton]
  · rw [recoverableFrames, Nat.cast_add, ← add_assoc]
    exact continued
  · have bounded := recorded.bounded
    rw [size] at bounded
    exact Nat.le_of_succ_le bounded
  · rw [Fin.val_add_one_of_lt', recorded.next, length_append, length_singleton]
    rw [recorded.next]
    omega
  · intro entry member
    exact recorded.keyed entry (entries ▸ mem_cons_of_mem _ member)
  · intro span member
    rw [journalSpans, map_append, mem_append, map_singleton, mem_singleton] at member
    rcases member with earlier | rfl
    · exact recorded.journalPositive span earlier
    · exact recorded.pendingPositive block.span (spans ▸ mem_cons_self)
  · intro span member
    exact recorded.pendingPositive span (spans ▸ mem_cons_of_mem _ member)
  · rw [spans, frameTotal_cons] at limited
    change writer.framesAcknowledged.val + block.frames.val + _ < _
    rw [add_assoc]
    exact limited

theorem abort_recorded : Recorded header writer.abort := by
  have idle : Entries.values writer.abort.pending = [] := rfl
  have spans : writer.abort.pendingSpans = [] := rfl
  refine ⟨⟨recorded.sequences, recorded.frames, recorded.recoverable, recorded.increasing, by rw [idle]; rfl, trivial, Nat.zero_le _⟩,
    recorded.header_eq, recorded.next, fun entry member => absurd member not_mem_nil, recorded.journalPositive,
    fun span member => absurd member not_mem_nil, ?_⟩
  have limited := recorded.limited
  rw [spans, frameTotal_nil]
  exact lt_of_le_of_lt (Nat.le_add_right _ _) limited

theorem Recorded.with_state (state : RecordingWriterState D) :
    Recorded header { writer with state } := by
  obtain ⟨⟨sequences, frames, recoverable, increasing, pendingSequences, pendingFrames, bounded⟩, header_eq, next, keyed,
    journalPositive, pendingPositive, limited⟩ := recorded
  exact ⟨⟨sequences, frames, recoverable, increasing, pendingSequences, pendingFrames, bounded⟩, header_eq, next, keyed,
    journalPositive, pendingPositive, limited⟩

end

end RecordingJournalWriter

end Audec.Media

import Audec.Media.Durable

/-! Runs of a recording, and what becomes of a finalized one. -/

open Std (ExtTreeMap)
open Machine Checked Runs List

namespace Audec.Media.RecordingJournalWriter

variable {D : Type} [DecidableEq D]

abbrev Recording (header : RecordingJournalHeader D) : List (Event (RecordingJournalWriter D) (Action D)) → RecordingJournalWriter D → Prop :=
  Run (fun writer action => (writer.call action).1) fun writer => new header = .ok writer

variable {header : RecordingJournalHeader D} {writer : RecordingJournalWriter D}

theorem enqueue_spec (recorded : Recorded header writer) (block : CaptureBlock) :
    (∃ error, writer.enqueueFromFifo block = (writer, .error error)) ∨
      ∃ after, writer.enqueueFromFifo block = (after, .ok ()) ∧ Recorded header after ∧ after.state = .capturing ∧ writer.state = .capturing := by
  unfold enqueueFromFifo
  split
  · exact .inl ⟨_, rfl⟩
  · rename_i checked
    have capturing := (checkBlock_ok checked).1
    exact .inr ⟨_, rfl, enqueue_recorded recorded checked, capturing, capturing⟩

section

variable (recorded : Recorded header writer)
include recorded

theorem acknowledge_spec (sequence durableByteEnd : U64) (payloadDigest : D) :
    (∃ error, writer.acknowledgeDurable sequence durableByteEnd payloadDigest = (writer, .error error) ∧ error ≠ .arithmeticOverflow) ∨
      ∃ after, writer.acknowledgeDurable sequence durableByteEnd payloadDigest = (after, .ok ()) ∧ Recorded header after ∧
        after.state = writer.state := by
  unfold acknowledgeDurable
  split
  · exact .inl ⟨_, rfl, by simp⟩
  rename_i expected
  obtain rfl : sequence = writer.nextSequence := not_not.mp expected
  split
  · exact .inl ⟨_, rfl, by simp⟩
  rename_i block held
  split
  · exact .inl ⟨_, rfl, by simp⟩
  rename_i increasing
  rw [dif_pos (recorded.acknowledge_fits held)]
  exact .inr ⟨_, rfl, acknowledge_recorded recorded held (not_not.mp increasing) payloadDigest _, rfl⟩

theorem requestFinalize_spec :
    (∃ error, writer.requestFinalize = (writer, .error error)) ∨
      ∃ after, writer.requestFinalize = (after, .ok ()) ∧ Recorded header after ∧ after.state = .finalizing ∧ writer.state = .capturing := by
  unfold requestFinalize
  split
  · exact .inl ⟨_, rfl⟩
  rename_i capturing
  split
  · exact .inl ⟨_, rfl⟩
  · exact .inr ⟨_, rfl, recorded.with_state _, rfl, not_not.mp capturing⟩

theorem acknowledgeFinalized_spec (encodedSource : EncodedSourceId D) (decodedPcm : DecodedPcmId D) :
    (∃ error, writer.acknowledgeFinalized encodedSource decodedPcm = (writer, .error error)) ∨
      ∃ after, writer.acknowledgeFinalized encodedSource decodedPcm = (after, .ok ()) ∧ Recorded header after ∧ writer.state = .finalizing := by
  unfold acknowledgeFinalized
  split
  · exact .inl ⟨_, rfl⟩
  · rename_i finalizing
    exact .inr ⟨_, rfl, recorded.with_state _, not_not.mp finalizing⟩

/-- A call that returns an error leaves the writer as it was; any other keeps it recorded. -/
theorem call_spec (action : Action D) :
    (∃ error, writer.call action = (writer, .error error)) ∨ ∃ after, writer.call action = (after, .ok ()) ∧ Recorded header after := by
  cases action with
  | enqueueFromFifo block =>
    obtain failed | ⟨after, called, kept, -⟩ := enqueue_spec recorded block
    · exact .inl failed
    · exact .inr ⟨after, called, kept⟩
  | acknowledgeDurable sequence durableByteEnd payloadDigest =>
    obtain ⟨error, failed, -⟩ | ⟨after, called, kept, -⟩ := acknowledge_spec recorded sequence durableByteEnd payloadDigest
    · exact .inl ⟨error, failed⟩
    · exact .inr ⟨after, called, kept⟩
  | requestFinalize =>
    obtain failed | ⟨after, called, kept, -⟩ := requestFinalize_spec recorded
    · exact .inl failed
    · exact .inr ⟨after, called, kept⟩
  | acknowledgeFinalized encodedSource decodedPcm =>
    obtain failed | ⟨after, called, kept, -⟩ := acknowledgeFinalized_spec recorded encodedSource decodedPcm
    · exact .inl failed
    · exact .inr ⟨after, called, kept⟩
  | abort => exact .inr ⟨writer.abort, rfl, abort_recorded recorded⟩

theorem call_recorded (action : Action D) : Recorded header (writer.call action).1 := by
  obtain ⟨error, failed⟩ | ⟨after, called, kept⟩ := call_spec recorded action
  · rw [failed]
    exact recorded
  · rw [called]
    exact kept

theorem call_settled {action : Action D} (settled : writer.state ≠ .capturing ∧ writer.state ≠ .finalizing)
    (kept : action ≠ .abort) : (writer.call action).1.state = writer.state := by
  cases action with
  | enqueueFromFifo block =>
    obtain ⟨error, failed⟩ | ⟨-, -, -, -, capturing⟩ := enqueue_spec recorded block
    · rw [call, failed]
    · exact absurd capturing settled.1
  | acknowledgeDurable sequence durableByteEnd payloadDigest =>
    obtain ⟨error, failed, -⟩ | ⟨after, called, -, same⟩ := acknowledge_spec recorded sequence durableByteEnd payloadDigest
    · rw [call, failed]
    · rw [call, called, same]
  | requestFinalize =>
    obtain ⟨error, failed⟩ | ⟨-, -, -, -, capturing⟩ := requestFinalize_spec recorded
    · rw [call, failed]
    · exact absurd capturing settled.1
  | acknowledgeFinalized encodedSource decodedPcm =>
    obtain ⟨error, failed⟩ | ⟨-, -, -, finalizing⟩ := acknowledgeFinalized_spec recorded encodedSource decodedPcm
    · rw [call, failed]
    · exact absurd finalizing settled.2
  | abort => exact absurd rfl kept

end

variable {events : List (Event (RecordingJournalWriter D) (Action D))}

section

variable (run : Recording header events writer)
include run

theorem run_recorded : Recorded header writer := by
  induction run with
  | start accepted => exact new_recorded accepted
  | step run action ih => exact call_recorded ih action

theorem before_recorded : ∀ event ∈ events, Recorded header event.before := by
  intro event member
  obtain ⟨earlier, later, split⟩ := append_of_mem member
  exact run_recorded (run.upto split)

theorem run_aborted (aborted : ∃ event ∈ events, event.action = .abort) : writer.state = .aborted := by
  induction run with
  | start => simp at aborted
  | step run action ih =>
    by_cases last : action = .abort
    · rw [last]
      rfl
    · obtain ⟨event, member, abort⟩ := aborted
      rcases mem_append.mp member with earlier | same
      · have before := ih ⟨event, earlier, abort⟩
        rw [← before]
        exact call_settled (run_recorded run) (by simp [before]) last
      · rw [mem_singleton.mp same] at abort
        exact absurd abort last

end

def Discards (event : Event (RecordingJournalWriter D) (Action D)) : Prop :=
  event.action = .abort ∧ ∃ encodedSource decodedPcm, event.before.state = .finalized encodedSource decodedPcm

structure Faithful (header : RecordingJournalHeader D) (events : List (Event (RecordingJournalWriter D) (Action D)))
    (writer : RecordingJournalWriter D) : Prop where
  durable : ∀ reached ∈ events.map Event.before ++ [writer], DurablePrefix header reached
  unchanged : ∀ event ∈ events, ∀ error, (event.before.call event.action).2 = .error error → (event.before.call event.action).1 = event.before
  unreachable : ∀ event ∈ events, ∀ sequence durableByteEnd payloadDigest,
    event.action = .acknowledgeDurable sequence durableByteEnd payloadDigest →
      (event.before.call event.action).2 ≠ .error .arithmeticOverflow
  finalized : ∀ earlier event later, events = earlier ++ event :: later → ∀ encodedSource decodedPcm,
    event.before.state = .finalized encodedSource decodedPcm → writer.state = .finalized encodedSource decodedPcm

theorem run_finalized (run : Recording header events writer) (kept : ∀ event ∈ events, ¬Discards event) :
    ∀ earlier event later, events = earlier ++ event :: later → ∀ encodedSource decodedPcm,
      event.before.state = .finalized encodedSource decodedPcm → writer.state = .finalized encodedSource decodedPcm := by
  induction run with
  | start =>
    intro earlier event later split
    simp at split
  | @step events writer run action ih =>
    intro earlier event later split encodedSource decodedPcm finalized
    have before : writer.state = .finalized encodedSource decodedPcm := by
      rcases Run.split_last split with ⟨-, rfl, -⟩ | ⟨later, -, same⟩
      · exact finalized
      · exact ih (fun event member => kept event (mem_append_left _ member)) _ _ _ same _ _ finalized
    rw [← before]
    apply call_settled (run_recorded run) (by simp [before])
    intro abort
    exact kept ⟨writer, action⟩ (mem_append_right _ (mem_singleton_self _)) ⟨abort, _, _, before⟩

/-- A run keeps every promise exactly when no abort discards a finalized recording. -/
theorem faithful_iff (run : Recording header events writer) : Faithful header events writer ↔ ∀ event ∈ events, ¬Discards event := by
  constructor
  · rintro promised event member ⟨abort, encodedSource, decodedPcm, finalized⟩
    obtain ⟨earlier, later, split⟩ := List.append_of_mem member
    have stays := promised.finalized _ _ _ split _ _ finalized
    rw [run_aborted run ⟨event, member, abort⟩] at stays
    cases stays
  · intro kept
    refine ⟨?_, ?_, ?_, run_finalized run kept⟩
    · intro reached member
      rcases List.mem_append.mp member with before | last
      · obtain ⟨event, taken, rfl⟩ := List.mem_map.mp before
        exact (before_recorded run event taken).toDurablePrefix
      · rw [List.mem_singleton.mp last]
        exact (run_recorded run).toDurablePrefix
    · intro event member error failed
      obtain ⟨_, called⟩ | ⟨_, called, -⟩ := call_spec (before_recorded run event member) event.action
      · rw [called]
      · rw [called] at failed
        cases failed
    · intro event member sequence durableByteEnd payloadDigest acknowledges
      rw [acknowledges, call]
      obtain ⟨error, called, other⟩ | ⟨_, called, -⟩ := acknowledge_spec (before_recorded run event member) sequence durableByteEnd payloadDigest
      · rw [called]
        exact fun same => other (Except.error.inj same)
      · rw [called]
        exact fun same => by cases same

section Example

def stereoHeader : RecordingJournalHeader Bool := ⟨1, false, 7, .zero, 48000, 2, ⟨2, 4, 2⟩⟩

def stereoWriter : RecordingJournalWriter Bool := ⟨stereoHeader, .capturing, 0, 0, ∅, []⟩

def completed : List (Action Bool) :=
  [.enqueueFromFifo ⟨0, .zero, 4, List.replicate 8 0⟩, .acknowledgeDurable 0 32 false, .requestFinalize, .acknowledgeFinalized ⟨true⟩ ⟨false⟩]

def completedWriter : RecordingJournalWriter Bool := completed.foldl (fun writer action => (writer.call action).1) stereoWriter

theorem completed_run : ∃ events, Recording stereoHeader events completedWriter ∧ events.map Event.action = completed :=
  @Run.taking _ _ _ (fun writer => new stereoHeader = .ok writer) _ rfl completed

theorem completed_finalized : completedWriter.state = .finalized ⟨true⟩ ⟨false⟩ := by decide

theorem completed_faithful : ∃ events, Recording stereoHeader events completedWriter ∧ events.map Event.action = completed ∧
    completedWriter.recoverableFrames = 4 ∧ Faithful stereoHeader events completedWriter := by
  obtain ⟨events, run, actions⟩ := completed_run
  refine ⟨events, run, actions, by decide, (faithful_iff run).mpr ?_⟩
  rintro event member ⟨abort, -⟩
  have taken : event.action ∈ completed := actions ▸ List.mem_map_of_mem member
  rw [abort] at taken
  simp [completed] at taken

/-- An abort after the last acknowledgement forgets the identities of the finalized take. -/
theorem abort_discards : ¬∀ events writer, Recording stereoHeader events writer → Faithful stereoHeader events writer := by
  intro claimed
  obtain ⟨events, run, -⟩ := completed_run
  have promised := claimed _ _ (run.step .abort)
  have stays := promised.finalized events ⟨completedWriter, .abort⟩ [] rfl _ _ completed_finalized
  cases stays

end Example

end Audec.Media.RecordingJournalWriter

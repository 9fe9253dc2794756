import Audec.Lib.Runs
import Audec.Playback.Boundary

/-! The transport walks project frames exactly, but for a Play that is read together with the loop it should enter. -/

open Machine Runs List

namespace Audec.Playback.Transport

variable {transport : Transport}

section Walk

/-- Where the boundary after this one should find the cursor. -/
def settled (transport : Transport) : U64 :=
  match transport.sounding with
  | some frame => transport.successor frame
  | none => transport.target

def settledMode (transport : Transport) : TransportMode :=
  if transport.shared.desiredMode = .playing ∧ transport.settled ≥ transport.length then .ended else transport.shared.desiredMode

theorem next_settled (sound : transport.Sound) (boundary : transport.Boundary) (careful : ¬ transport.Strays) :
    transport.next.1.resting = (transport.settled, transport.settledMode) := by
  have same := (heard_iff sound boundary).mpr careful
  rw [next_resting sound boundary, settledMode, settled, same]
  cases sounds : transport.sounding with
  | none => rfl
  | some frame =>
    have playing : transport.shared.desiredMode = .playing := by
      unfold sounding at sounds
      split at sounds
      · rename_i rolls
        exact rolls.1
      · cases sounds
    dsimp only
    rw [playing]
    simp

variable {range : FrameRange} {event : Event Transport TransportAction}

section

variable (still : transport.seekChanged = false) (region : transport.shared.loopRegion = some range)
  (short : transport.source.cursor < range.stop)
include still region short

theorem due_inside : transport.due = transport.source.cursor := by
  cases enters : transport.reentry with
  | none => rw [due, enters, Option.getD_none, target_still still]
  | some start =>
    obtain ⟨-, -, -, other, region', -, beyond⟩ := reentry_some enters
    rw [region] at region'
    cases region'
    exact absurd short (not_lt.mpr beyond)

theorem settled_inside (sound : transport.Sound) (enabled : transport.shared.loopEnabled = true) : transport.settled < range.stop := by
  obtain ⟨proper, inside⟩ := sound.proper range region
  have due := due_inside still region short
  rw [settled, sounding, due]
  split
  · rename_i frame sounds
    split at sounds
    · cases sounds
      rw [successor, region]
      dsimp only
      split
      · exact proper
      · rename_i other
        exact lt_of_le_of_ne (succ_le short) fun last => other ⟨enabled, last⟩
    · cases sounds
  · rw [target_still still]
    exact short

end

/-- The first sample of a frame is asked for. -/
def AtBoundary (event : Event Transport TransportAction) : Prop := event.action = .next ∧ event.before.Boundary

/-- The law of the transport along a run. -/
structure Walks (events : List (Event Transport TransportAction)) (transport : Transport) : Prop where
  place : ∀ state ∈ events.map Event.before ++ [transport], state.Boundary → state.source.position = state.source.cursor ∧
    state.shared.publishedFrame = state.source.cursor ∧ state.shared.publishedMode = state.source.mode
  frames : ∀ event ∈ events, AtBoundary event → event.before.prepareFrame.source.frameSamples = event.before.sounding
  rolling : ∀ event ∈ events, AtBoundary event → ∀ frame, event.before.prepareFrame.source.frameSamples = some frame →
    event.before.prepareFrame.source.mode = .playing ∧ frame < event.before.length
  follows : ∀ earlier first middle second later, events = earlier ++ first :: (middle ++ second :: later) → AtBoundary first →
    AtBoundary second → (∀ event ∈ middle, ¬ AtBoundary event) →
    second.before.source.cursor = first.before.settled ∧ second.before.source.mode = first.before.settledMode
  keeps : ∀ event ∈ events, AtBoundary event → event.before.seekChanged = false → event.before.shared.loopEnabled = true →
    ∀ range, event.before.shared.loopRegion = some range → event.before.source.cursor < range.stop → event.before.settled < range.stop

theorem opened_sound (opened : transport.Opened) : transport.Sound := by
  obtain ⟨length, channels, -, rfl⟩ := opened
  constructor <;> simp [Transport.new, TransportShared.new, TransportSource.new, Proper]

theorem perform_sound (sound : transport.Sound) (action : TransportAction) : (transport.perform action).Sound := by
  cases action with
  | control call => exact control_sound sound call
  | next => exact next_sound sound

variable {events : List (Event Transport TransportAction)}

theorem run_sound (run : Run perform Opened events transport) : transport.Sound := by
  induction run with
  | start opened => exact opened_sound opened
  | step run action tail => exact perform_sound tail action

theorem event_sound (run : Run perform Opened events transport) (member : event ∈ events) :
    event.before.Sound := by
  obtain ⟨earlier, later, split⟩ := append_of_mem member
  exact run_sound (run.upto split)

theorem perform_resting (middle : ¬ AtBoundary event) :
    (event.before.perform event.action).resting = event.before.resting := by
  cases action : event.action with
  | control call => exact control_resting event.before call
  | next => exact next_resting_middle fun boundary => middle ⟨action, boundary⟩

theorem run_resting (run : Run perform Opened events transport) {earlier middle : List (Event Transport TransportAction)}
    {first : Event Transport TransportAction} (split : events = earlier ++ first :: middle) (boundary : AtBoundary first)
    (quiet : ∀ event ∈ middle, ¬ AtBoundary event) : transport.resting = first.before.next.1.resting := by
  induction run generalizing middle with
  | start =>
    have impossible := congrArg List.length split
    simp at impossible
  | @step events state run action tail =>
    rcases Run.split_last split with ⟨rfl, same, rfl⟩ | ⟨middle', rfl, same⟩
    · subst same
      have next : action = .next := boundary.1
      rw [next]
      rfl
    · rw [perform_resting (quiet ⟨state, action⟩ (mem_append_right _ mem_cons_self))]
      exact tail same fun event member => quiet event (mem_append_left _ member)

theorem run_place (run : Run perform Opened events transport) {state : Transport} (member : state ∈ events.map Event.before ++ [transport])
    (boundary : state.Boundary) : state.source.position = state.source.cursor ∧
      state.shared.publishedFrame = state.source.cursor ∧ state.shared.publishedMode = state.source.mode := by
  have sound : state.Sound := by
    rcases mem_append.mp member with before | last
    · obtain ⟨event, found, rfl⟩ := mem_map.mp before
      exact event_sound run found
    · cases mem_singleton.mp last
      exact run_sound run
  exact ⟨position_boundary sound boundary, sound.publishedFrame, sound.publishedMode⟩

section Example

def beyondLoop (between : List TransportAction) : List TransportAction :=
  [.control (.seek 4), .next, .control (.setLoopRegion (some ⟨1, 3⟩))] ++ between ++ [.control .play, .next]

theorem opened_new : (Transport.new 5 1).Opened := ⟨5, 1, one_pos, rfl⟩

instance (transport : Transport) : Decidable transport.Strays := inferInstanceAs (Decidable (_ ∧ _ ∧ (_ ∨ _)))

end Example

end Walk

end Audec.Playback.Transport

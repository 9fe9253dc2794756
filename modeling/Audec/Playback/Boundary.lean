import Audec.Playback.Transport

/-! What a frame boundary reads and renders, and what holds of a transport whatever the order of its controls and frames. -/

open Machine Checked

namespace Audec.Playback.Transport

open TransportShared

variable {transport : Transport}

def Boundary (transport : Transport) : Prop := transport.source.channelCursor = 0

instance (transport : Transport) : Decidable transport.Boundary := inferInstanceAs (Decidable (_ = _))

/-- Where the transport stands once a boundary has read the controls. -/
def target (transport : Transport) : U64 :=
  if transport.seekChanged then min transport.shared.desiredFrame transport.length else transport.source.cursor

def modeThere (transport : Transport) : TransportMode :=
  if transport.shared.desiredMode = .playing ∧ transport.target ≥ transport.length then .ended else transport.shared.desiredMode

def Proper (length : U64) (region : Option FrameRange) : Prop := ∀ range, region = some range → range.start < range.stop ∧ range.stop ≤ length

structure Sound (transport : Transport) : Prop where
  applied : transport.shared.appliedSeekGeneration = transport.source.seenSeekGeneration
  generation : transport.source.seenSeekGeneration ≤ transport.shared.seekGeneration
  publishedFrame : transport.shared.publishedFrame = transport.source.cursor
  publishedMode : transport.shared.publishedMode = transport.source.mode
  position : transport.source.position =
    if transport.source.channelCursor ≠ 0 ∧ transport.source.renderedFrame = true then transport.source.cursor + 1 else transport.source.cursor
  within : transport.source.cursor ≤ transport.length
  playing : transport.source.mode = .playing → transport.source.cursor < transport.length
  ended : transport.source.mode = .ended → transport.source.cursor = transport.length
  rendered : transport.source.channelCursor ≠ 0 → transport.source.renderedFrame = true → transport.source.mode = .playing
  proper : Proper transport.length transport.shared.loopRegion
  properSource : Proper transport.length transport.source.loopRegion
  enabled : transport.shared.loopEnabled = true → transport.shared.loopRegion.isSome = true
  enabledSource : transport.source.loopEnabled = true → transport.source.loopRegion.isSome = true
  disarmed : transport.source.loopEnabled = false → transport.source.loopArmed = false
  armed : ∀ range, transport.source.loopRegion = some range → transport.source.loopEnabled = true →
    transport.source.cursor < range.stop → transport.source.loopArmed = true
  inside : ∀ range, transport.source.loopRegion = some range → transport.source.loopEnabled = true → transport.source.loopArmed = true →
    transport.source.mode = .playing ∨ transport.source.mode = .ended → transport.source.cursor < range.stop
  desired : transport.shared.desiredMode ≠ .ended
  ahead : transport.source.mode = .stopped ∨ transport.source.mode = .paused → transport.shared.desiredMode = .playing →
    transport.seekChanged = false → transport.source.cursor < transport.length
  parked : transport.shared.desiredMode = .stopped → transport.seekChanged = false → transport.source.mode = .stopped
  revision : ∀ seen, transport.source.seenControlRevision = some seen → seen ≤ transport.shared.controlRevision
  seen : transport.source.seenControlRevision = some transport.shared.controlRevision →
    transport.source.loopRegion = transport.shared.loopRegion ∧ transport.source.loopEnabled = transport.shared.loopEnabled ∧
      transport.seekChanged = false ∧ transport.source.mode = transport.modeThere

/-- What a boundary reads. -/
structure Read (transport read : Transport) : Prop where
  length : read.length = transport.length
  channels : read.channels = transport.channels
  channelCursor : read.source.channelCursor = transport.source.channelCursor
  cursor : read.source.cursor = transport.target
  position : read.source.position = transport.target
  mode : read.source.mode = transport.modeThere
  loopRegion : read.source.loopRegion = transport.shared.loopRegion
  loopEnabled : read.source.loopEnabled = transport.shared.loopEnabled
  loopArmed : read.source.loopArmed =
    if transport.shared.loopEnabled = false then false
    else if transport.seekChanged || transport.loopChanged then
      transport.shared.loopRegion.any fun range => transport.target < range.stop ∨ transport.shared.desiredMode ≠ .playing
    else transport.source.loopArmed
  seen : read.source.seenControlRevision = some transport.shared.controlRevision
  seenSeek : read.source.seenSeekGeneration = transport.shared.seekGeneration
  shared : read.shared = { transport.shared with
    appliedSeekGeneration := transport.shared.seekGeneration
    publishedFrame := transport.target
    publishedMode := transport.modeThere }

variable {read : Transport}

theorem Read.publishedFrame (reads : Read transport read) : read.shared.publishedFrame = transport.target := by
  rw [reads.shared]

theorem Read.publishedMode (reads : Read transport read) : read.shared.publishedMode = transport.modeThere := by
  rw [reads.shared]

theorem target_le (sound : transport.Sound) : transport.target ≤ transport.length := by
  unfold target
  split
  · exact min_le_right _ _
  · exact sound.within

theorem seekChanged_eq_false : transport.seekChanged = false ↔ transport.shared.seekGeneration = transport.source.seenSeekGeneration := by
  rw [seekChanged, decide_eq_false_iff_not, not_not]

section

variable (sound : transport.Sound)
include sound

theorem position_boundary (boundary : transport.Boundary) : transport.source.position = transport.source.cursor := by
  rw [sound.position, if_neg fun middle => middle.1 boundary]

theorem loopEnabled_and :
    (transport.shared.loopEnabled && transport.shared.loopRegion.isSome) = transport.shared.loopEnabled := by
  cases enabled : transport.shared.loopEnabled with
  | false => rfl
  | true => rw [sound.enabled enabled, Bool.and_self]

section

variable (boundary : transport.Boundary)
include boundary

theorem read_seen
    (seen : transport.source.seenControlRevision = some transport.shared.controlRevision) : Read transport transport := by
  obtain ⟨region, enabled, unchanged, mode⟩ := sound.seen seen
  have target : transport.target = transport.source.cursor := by
    simp only [Transport.target, unchanged, Bool.false_eq_true, if_false]
  have generation := seekChanged_eq_false.mp unchanged
  have same : transport.loopChanged = false := by
    rw [loopChanged, region, enabled, loopEnabled_and sound]
    simp
  have position := position_boundary sound boundary
  refine ⟨rfl, rfl, rfl, target.symm, position.trans target.symm, mode, region, enabled, ?_, seen, generation.symm, ?_⟩
  · rw [unchanged, same, ← enabled]
    split
    · rename_i disabled
      exact sound.disarmed disabled
    · rfl
  · exact TransportShared.ext rfl rfl rfl rfl (sound.applied.trans generation.symm) rfl rfl (sound.publishedMode.trans mode)
      (sound.publishedFrame.trans target.symm)

theorem followSeek_read : transport.readControl.followSeek =
    { transport.readControl with
      source.cursor := transport.target
      source.position := transport.target
      source.seenSeekGeneration := transport.shared.seekGeneration
      shared.appliedSeekGeneration := transport.shared.seekGeneration } := by
  have same : transport.readControl.seekChanged = transport.seekChanged := rfl
  unfold followSeek
  rw [same]
  cases changed : transport.seekChanged with
  | false =>
    have generation := seekChanged_eq_false.mp changed
    have target : transport.target = transport.source.cursor := by
      rw [Transport.target, changed, if_neg Bool.false_ne_true]
    rw [if_neg Bool.false_ne_true, target]
    exact Transport.ext rfl rfl (TransportShared.ext rfl rfl rfl rfl (sound.applied.trans generation.symm) rfl rfl rfl rfl)
      (TransportSource.ext (show transport.source.position = _ from position_boundary sound boundary) rfl rfl rfl rfl rfl rfl rfl rfl rfl generation.symm)
  | true =>
    have target : transport.target = min transport.shared.desiredFrame transport.length := by
      rw [Transport.target, changed, if_pos rfl]
    rw [if_pos rfl]
    simp only [readControl, locate, target, min_assoc, min_self]

theorem read_unseen
    (unseen : transport.source.seenControlRevision ≠ some transport.shared.controlRevision) : Read transport transport.applyControl := by
  unfold applyControl
  rw [if_neg unseen]
  dsimp only
  rw [followSeek_read sound boundary]
  have enabled := loopEnabled_and sound
  constructor <;> simp only [readControl, armLoop, endAtLength, publish, modeThere, enabled] <;> split <;> simp_all

theorem applyControl_read : Read transport transport.applyControl := by
  by_cases seen : transport.source.seenControlRevision = some transport.shared.controlRevision
  · rw [applyControl, if_pos seen]
    exact read_seen sound boundary seen
  · exact read_unseen sound boundary seen

end

end

section Prepare

/-- The loop start that the source enters at, from where the control has led. -/
def entry (transport : Transport) : Option U64 := if transport.modeThere = .playing then transport.applyControl.wrapped else none

/-- The frame that a boundary renders. -/
def heard (transport : Transport) : Option U64 :=
  if transport.modeThere = .playing then some (transport.entry.getD transport.target) else none

theorem modeThere_playing (playing : transport.modeThere = .playing) :
    transport.shared.desiredMode = .playing ∧ transport.target < transport.length := by
  unfold modeThere at playing
  split at playing
  · cases playing
  · rename_i short
    refine ⟨playing, ?_⟩
    by_contra reached
    exact short ⟨playing, not_lt.mp reached⟩

variable {start frame : U64}

theorem wrapped_some (wraps : transport.wrapped = some start) : ∃ range, transport.source.loopRegion = some range ∧
    range.start = start ∧ transport.source.loopEnabled = true ∧ transport.source.loopArmed = true ∧
      transport.source.cursor ≥ range.stop := by
  unfold wrapped at wraps
  split at wraps
  · rename_i on
    obtain ⟨enabled, armed⟩ := Bool.and_eq_true_iff.mp on
    obtain ⟨range, found, start⟩ := Option.map_eq_some_iff.mp wraps
    obtain ⟨region, beyond⟩ := Option.filter_eq_some_iff.mp found
    exact ⟨range, region, start, enabled, armed, of_decide_eq_true beyond⟩
  · cases wraps

section

variable (sound : transport.Sound) (boundary : transport.Boundary)
include sound boundary

theorem entry_lt (enters : transport.entry = some start) :
    start < transport.length := by
  unfold entry at enters
  split at enters
  · obtain ⟨range, region, rfl, -⟩ := wrapped_some enters
    rw [(applyControl_read sound boundary).loopRegion] at region
    obtain ⟨proper, inside⟩ := sound.proper range region
    exact lt_of_lt_of_le proper inside
  · cases enters

theorem heard_lt (hears : transport.heard = some frame) :
    frame < transport.length := by
  unfold heard at hears
  split at hears
  · rename_i playing
    cases hears
    cases enters : transport.entry with
    | none => exact (modeThere_playing playing).2
    | some start => exact entry_lt sound boundary enters
  · cases hears

theorem prepareFrame_silent (silent : transport.heard = none) :
    transport.prepareFrame =
      { transport.applyControl with source.renderedFrame := false, source.frameSamples := none } := by
  have read := applyControl_read sound boundary
  unfold heard at silent
  split at silent
  · cases silent
  · rename_i idle
    unfold prepareFrame
    exact if_pos (read.mode ▸ idle)

theorem prepareFrame_heard (hears : transport.heard = some frame) :
    transport.prepareFrame =
      { transport.applyControl with
        source.renderedFrame := true
        source.frameSamples := some frame
        source.cursor := frame
        source.position := frame + 1
        shared.publishedFrame := frame } := by
  have read := applyControl_read sound boundary
  have within := heard_lt sound boundary hears
  unfold heard at hears
  split at hears
  · rename_i playing
    have rolling : transport.applyControl.source.mode = .playing := read.mode.trans playing
    cases hears
    have entered : transport.entry = transport.applyControl.wrapped := if_pos playing
    unfold prepareFrame enterLoop
    dsimp only
    rw [if_neg (not_not.mpr rolling)]
    have same : ({ transport.applyControl with source.renderedFrame := false, source.frameSamples := none } : Transport).wrapped =
        transport.entry := entered.symm
    rw [same]
    cases enters : transport.entry with
    | none =>
      rw [enters] at within
      have short : transport.applyControl.source.cursor < transport.applyControl.length := by
        rw [read.cursor, read.length]
        exact within
      have inside : transport.applyControl.source.position < transport.applyControl.length := by
        rw [read.position, read.length]
        exact within
      dsimp only
      rw [if_neg (not_le.mpr short), renderFrame]
      dsimp only
      rw [if_pos inside]
      refine Transport.ext rfl rfl (TransportShared.ext rfl rfl rfl rfl rfl rfl rfl rfl ?_)
        (TransportSource.ext ?_ ?_ rfl ?_ rfl rfl rfl rfl rfl rfl rfl)
      · exact read.publishedFrame
      · exact congrArg (· + 1) read.position
      · exact congrArg some read.position
      · exact read.cursor
    | some start =>
      rw [enters] at within
      have located : min start transport.applyControl.length = start := by
        rw [read.length]
        exact min_eq_left within.le
      have short : start < transport.applyControl.length := by
        rw [read.length]
        exact within
      simp only [publish, locate, located, renderFrame, if_neg (not_le.mpr short), if_pos short, Option.getD_some]
      refine Transport.ext rfl rfl (TransportShared.ext rfl rfl rfl rfl rfl rfl rfl ?_ rfl) rfl
      exact read.mode.trans read.publishedMode.symm
  · cases hears

end

end Prepare

section Law

section

variable (transport : Transport)

/-- The start of an enabled loop whose end the cursor has passed, where a Play from a stopped or paused transport enters. -/
def reentry : Option U64 :=
  if (transport.source.mode = .stopped ∨ transport.source.mode = .paused) ∧ transport.seekChanged = false ∧
      transport.shared.loopEnabled = true then
    (transport.shared.loopRegion.filter fun range => transport.source.cursor ≥ range.stop).map FrameRange.start
  else none

/-- The frame that is to be rendered next. -/
def due : U64 := transport.reentry.getD transport.target

/-- What a boundary should render. -/
def sounding : Option U64 :=
  if transport.shared.desiredMode = .playing ∧ transport.due < transport.length then some transport.due else none

def Strays : Prop :=
  transport.shared.desiredMode = .playing ∧ transport.reentry.isSome = true ∧
    (transport.loopChanged = true ∨ transport.source.loopArmed = false)

end

variable {start : U64}

theorem reentry_some (enters : transport.reentry = some start) :
    (transport.source.mode = .stopped ∨ transport.source.mode = .paused) ∧ transport.seekChanged = false ∧
      transport.shared.loopEnabled = true ∧ ∃ range, transport.shared.loopRegion = some range ∧ range.start = start ∧
        transport.source.cursor ≥ range.stop := by
  unfold reentry at enters
  split at enters
  · rename_i idle
    obtain ⟨range, found, start⟩ := Option.map_eq_some_iff.mp enters
    obtain ⟨region, beyond⟩ := Option.filter_eq_some_iff.mp found
    exact ⟨idle.1, idle.2.1, idle.2.2, range, region, start, of_decide_eq_true beyond⟩
  · cases enters

theorem target_still (still : transport.seekChanged = false) : transport.target = transport.source.cursor := by
  rw [target, still, if_neg Bool.false_ne_true]

section

variable (sound : transport.Sound) (boundary : transport.Boundary)
include sound boundary

theorem entry_some (enters : transport.entry = some start) :
    transport.reentry = some start ∧ transport.loopChanged = false ∧ transport.source.loopArmed = true := by
  have read := applyControl_read sound boundary
  unfold entry at enters
  split at enters
  · rename_i playing
    obtain ⟨desired, -⟩ := modeThere_playing playing
    obtain ⟨range, region, rfl, enabled, armed, beyond⟩ := wrapped_some enters
    rw [read.loopRegion] at region
    rw [read.loopEnabled] at enabled
    rw [read.cursor] at beyond
    rw [read.loopArmed, enabled, if_neg Bool.noConfusion, region] at armed
    split at armed
    · rcases of_decide_eq_true armed with inside | idle
      · exact absurd inside (not_lt.mpr beyond)
      · exact absurd desired idle
    · rename_i unchanged
      obtain ⟨still, same⟩ := Bool.or_eq_false_iff.mp (Bool.eq_false_iff.mpr unchanged)
      rw [target_still still] at beyond
      have kept : transport.source.loopRegion = some range ∧ transport.source.loopEnabled = true := by
        rw [loopChanged, decide_eq_false_iff_not, loopEnabled_and sound] at same
        grind
      have idle : transport.source.mode = .stopped ∨ transport.source.mode = .paused := by
        have inside := sound.inside range kept.1 kept.2 armed
        cases mode : transport.source.mode with
        | stopped => exact .inl rfl
        | paused => exact .inr rfl
        | playing => exact absurd (inside (.inl mode)) (not_lt.mpr beyond)
        | ended => exact absurd (inside (.inr mode)) (not_lt.mpr beyond)
      refine ⟨?_, same, armed⟩
      rw [reentry, if_pos ⟨idle, still, enabled⟩, region]
      simp [beyond]
  · cases enters

theorem entry_of_reentry (enters : transport.reentry = some start)
    (playing : transport.modeThere = .playing) (same : transport.loopChanged = false) (armed : transport.source.loopArmed = true) :
    transport.entry = some start := by
  have read := applyControl_read sound boundary
  obtain ⟨-, still, enabled, range, region, rfl, beyond⟩ := reentry_some enters
  rw [entry, if_pos playing, wrapped, read.loopEnabled, read.loopArmed, read.loopRegion, read.cursor, still, same, enabled, region,
    armed, target_still still]
  simp [beyond]

theorem heard_iff : transport.heard = transport.sounding ↔ ¬ transport.Strays := by
  cases enters : transport.reentry with
  | none =>
    have outside : transport.entry = none := by
      cases entered : transport.entry with
      | none => rfl
      | some start =>
        rw [(entry_some sound boundary entered).1] at enters
        cases enters
    refine iff_of_true ?_ fun strays => ?_
    · rw [heard, sounding, due, outside, enters, Option.getD_none, modeThere]
      grind
    · rw [Strays, enters] at strays
      cases strays.2.1
  | some start =>
    obtain ⟨idle, still, enabled, range, region, rfl, beyond⟩ := reentry_some enters
    obtain ⟨proper, inside⟩ := sound.proper range region
    by_cases desired : transport.shared.desiredMode = .playing
    · have short := sound.ahead idle desired still
      have playing : transport.modeThere = .playing := by
        rw [modeThere, target_still still, if_neg fun reached => not_le.mpr short reached.2, desired]
      have sounds : transport.sounding = some range.start := by
        have within : range.start < transport.length := lt_of_lt_of_le proper inside
        rw [sounding, due, enters, Option.getD_some, if_pos ⟨desired, within⟩]
      rw [sounds, heard, if_pos playing, target_still still, Option.some_inj]
      constructor
      · rintro same ⟨-, -, strays⟩
        cases entered : transport.entry with
        | none =>
          rw [entered, Option.getD_none] at same
          exact absurd (same ▸ beyond) (not_le.mpr proper)
        | some other =>
          obtain ⟨-, unchanged, armed⟩ := entry_some sound boundary entered
          rw [unchanged, armed] at strays
          simp at strays
      · intro careful
        have kept : transport.loopChanged = false ∧ transport.source.loopArmed = true := by
          rw [Strays, enters] at careful
          simpa [desired] using careful
        rw [entry_of_reentry sound boundary enters playing kept.1 kept.2, Option.getD_some]
    · refine iff_of_true ?_ fun strays => desired strays.1
      have idle : transport.modeThere ≠ .playing := fun playing => desired (modeThere_playing playing).1
      rw [heard, if_neg idle, sounding, if_neg fun sounds => desired sounds.1]

end

end Law

section Preserved

variable {range : FrameRange} {frame length : U64} {channel : Nat} {shared : TransportShared}

variable {after : TransportShared}

theorem armed_read (sound : transport.Sound) (reads : Read transport read)
    (region : transport.shared.loopRegion = some range) (enabled : transport.shared.loopEnabled = true) (short : transport.target < range.stop) :
    read.source.loopArmed = true := by
  rw [reads.loopArmed, if_neg (by simp [enabled]), region]
  split
  · simp [short]
  · rename_i unchanged
    obtain ⟨still, same⟩ := Bool.or_eq_false_iff.mp (Bool.eq_false_iff.mpr unchanged)
    rw [loopChanged, decide_eq_false_iff_not, loopEnabled_and sound] at same
    rw [target_still still] at short
    exact sound.armed range (by grind) (by grind) short

theorem modeThere_not_ended_of_idle {mode : TransportMode} (there : transport.modeThere = mode)
    (idle : mode = .stopped ∨ mode = .paused) : transport.shared.desiredMode ≠ .playing := by
  intro desired
  rw [modeThere] at there
  split at there
  · subst there
    simp at idle
  · rw [desired] at there
    subst there
    simp at idle

section

variable (sound : transport.Sound)
include sound

theorem target_ended (ended : transport.modeThere = .ended) : transport.target = transport.length := by
  unfold modeThere at ended
  split at ended
  · rename_i reached
    exact le_antisymm (target_le sound) reached.2
  · exact absurd ended sound.desired

theorem inside_ended (reads : Read transport read) (ended : transport.modeThere = .ended)
    (region : transport.shared.loopRegion = some range) (enabled : transport.shared.loopEnabled = true)
    (armed : read.source.loopArmed = true) : transport.target < range.stop := by
  have desired : transport.shared.desiredMode = .playing := by
    unfold modeThere at ended
    split at ended
    · rename_i reached
      exact reached.1
    · exact absurd ended sound.desired
  rw [reads.loopArmed, if_neg (by simp [enabled]), region] at armed
  split at armed
  · simpa [desired] using armed
  · rename_i unchanged
    obtain ⟨still, same⟩ := Bool.or_eq_false_iff.mp (Bool.eq_false_iff.mpr unchanged)
    rw [loopChanged, decide_eq_false_iff_not, loopEnabled_and sound] at same
    have reached := target_ended sound ended
    rw [target_still still] at reached ⊢
    refine sound.inside range (by grind) (by grind) armed ?_
    have ahead := sound.ahead
    cases mode : transport.source.mode with
    | playing => exact .inl rfl
    | ended => exact .inr rfl
    | stopped => exact absurd reached (ahead (.inl mode) desired still).ne
    | paused => exact absurd reached (ahead (.inr mode) desired still).ne

section

variable (boundary : transport.Boundary) (hears : transport.heard = some frame) (region : transport.shared.loopRegion = some range)
  (enabled : transport.shared.loopEnabled = true)
include boundary hears region enabled

theorem inside_heard
    (armed : transport.applyControl.source.loopArmed = true) : frame < range.stop := by
  have read := applyControl_read sound boundary
  unfold heard at hears
  split at hears
  · rename_i playing
    cases hears
    cases enters : transport.entry with
    | none =>
      rw [entry, if_pos playing, wrapped, read.loopEnabled, enabled, armed, read.loopRegion, region, read.cursor] at enters
      simpa using enters
    | some start =>
      rw [entry, if_pos playing] at enters
      obtain ⟨other, region', rfl, -⟩ := wrapped_some enters
      rw [read.loopRegion, region] at region'
      cases region'
      exact (sound.proper range region).1
  · cases hears

theorem armed_heard
    (short : frame < range.stop) : transport.applyControl.source.loopArmed = true := by
  have read := applyControl_read sound boundary
  unfold heard at hears
  split at hears
  · rename_i playing
    cases hears
    cases enters : transport.entry with
    | none =>
      rw [enters] at short
      exact armed_read sound read region enabled short
    | some start =>
      rw [entry, if_pos playing] at enters
      exact (wrapped_some enters).choose_spec.2.2.2.1
  · cases hears

end

theorem prepareFrame_sound (boundary : transport.Boundary) (middle : channel ≠ 0) :
    Sound { transport.prepareFrame with source.channelCursor := channel } := by
  have read := applyControl_read sound boundary
  have disarmed (disabled : transport.shared.loopEnabled = false) : transport.applyControl.source.loopArmed = false := by
    rw [read.loopArmed, if_pos disabled]
  cases hears : transport.heard with
  | none =>
    have idle : transport.modeThere ≠ .playing := by
      intro playing
      rw [heard, if_pos playing] at hears
      cases hears
    rw [prepareFrame_silent sound boundary hears]
    constructor
    all_goals simp only [read.length, read.cursor, read.position, read.mode, read.loopRegion, read.loopEnabled, read.seen, read.seenSeek,
      read.shared]
    case generation => exact le_refl _
    case position => simp
    case within => exact target_le sound
    case playing => exact fun playing => absurd playing idle
    case ended => exact target_ended sound
    case rendered => exact fun _ impossible => absurd impossible Bool.false_ne_true
    case proper => exact sound.proper
    case properSource => exact sound.proper
    case enabled => exact sound.enabled
    case enabledSource => exact sound.enabled
    case disarmed => exact disarmed
    case armed => exact fun range region enabled => armed_read sound read region enabled
    case inside =>
      intro range region enabled armed mode
      exact inside_ended sound read (mode.resolve_left idle) region enabled armed
    case desired => exact sound.desired
    case ahead => exact fun mode desired => absurd desired (modeThere_not_ended_of_idle rfl mode)
    case parked =>
      intro stopped _
      rw [modeThere, stopped]
      simp
    case revision =>
      intro seen same
      cases same
      exact le_refl _
    case seen => simp [modeThere, seekChanged, target]
  | some frame =>
    have playing : transport.modeThere = .playing := by
      by_contra idle
      rw [heard, if_neg idle] at hears
      cases hears
    have short := heard_lt sound boundary hears
    rw [prepareFrame_heard sound boundary hears]
    constructor
    all_goals simp only [read.length, read.mode, read.loopRegion, read.loopEnabled, read.seen, read.seenSeek, read.shared, playing]
    case generation => exact le_refl _
    case position => simp [middle]
    case within => exact short.le
    case playing => exact fun _ => short
    case ended => exact fun impossible => by cases impossible
    case rendered => exact fun _ _ => trivial
    case proper => exact sound.proper
    case properSource => exact sound.proper
    case enabled => exact sound.enabled
    case enabledSource => exact sound.enabled
    case disarmed => exact disarmed
    case armed => exact fun range region enabled => armed_heard sound boundary hears region enabled
    case inside => exact fun range region enabled armed _ => inside_heard sound boundary hears region enabled armed
    case desired => exact sound.desired
    case ahead => simp
    case parked =>
      intro stopped _
      rw [(modeThere_playing playing).1] at stopped
      cases stopped
    case revision =>
      intro seen same
      cases same
      exact le_refl _
    case seen =>
      have desired := (modeThere_playing playing).1
      simp [modeThere, seekChanged, target, desired, short]

theorem middle_sound (middle : ¬ transport.Boundary) (next : channel ≠ 0) :
    Sound { transport with source.channelCursor := channel } :=
  { sound with
    position := by
      have same := sound.position
      simp only [Boundary] at middle
      simpa [middle, next] using same
    rendered := fun _ => sound.rendered middle }

end

theorem succ_val (short : frame < length) : (frame + 1).val = frame.val + 1 := by
  have bound := length.isLt
  have less := Fin.lt_def.mp short
  rw [Fin.val_add]
  exact Nat.mod_eq_of_lt (by simp; omega)

theorem succ_le (short : frame < length) : frame + 1 ≤ length := by
  rw [Fin.le_def, succ_val short]
  exact short

theorem lt_succ (short : frame < length) : frame < frame + 1 := by
  rw [Fin.lt_def, succ_val short]
  exact Nat.lt_succ_self _

/-- Where the cursor goes when the frame at it has been played. -/
def stepped (transport : Transport) : U64 :=
  match ({ transport with source.cursor := transport.source.cursor + 1 } : Transport).wrapped with
  | some start => start
  | none => transport.source.cursor + 1

theorem stepped_cases (transport : Transport) :
    (transport.stepped = transport.source.cursor + 1 ∧ ∀ range, transport.source.loopRegion = some range →
        transport.source.loopEnabled = true → transport.source.loopArmed = true → transport.source.cursor + 1 < range.stop) ∨
      ∃ range, transport.source.loopRegion = some range ∧ transport.source.loopEnabled = true ∧ transport.source.loopArmed = true ∧
        range.stop ≤ transport.source.cursor + 1 ∧ transport.stepped = range.start := by
  unfold stepped
  cases wraps : ({ transport with source.cursor := transport.source.cursor + 1 } : Transport).wrapped with
  | none =>
    refine .inl ⟨rfl, fun range region enabled armed => ?_⟩
    rw [wrapped] at wraps
    dsimp only at wraps
    rw [enabled, armed, region] at wraps
    simpa using wraps
  | some start =>
    obtain ⟨range, region, same, enabled, armed, beyond⟩ := wrapped_some wraps
    exact .inr ⟨range, region, enabled, armed, beyond, same.symm⟩

section

variable (sound : transport.Sound)
include sound

theorem stepped_le (playing : transport.source.mode = .playing) : transport.stepped ≤ transport.length := by
  rcases transport.stepped_cases with ⟨same, -⟩ | ⟨range, region, -, -, -, same⟩
  · rw [same]
    exact succ_le (sound.playing playing)
  · rw [same]
    obtain ⟨proper, inside⟩ := sound.properSource range region
    exact proper.le.trans inside

theorem finishFrame_rendered (middle : ¬ transport.Boundary) (rendered : transport.source.renderedFrame = true) :
    ({ transport with source.channelCursor := 0 } : Transport).finishFrame =
      { transport with
        source.channelCursor := 0
        source.cursor := transport.stepped
        source.position := transport.stepped
        source.mode := if transport.stepped ≥ transport.length then .ended else transport.source.mode
        shared.publishedFrame := transport.stepped
        shared.publishedMode := if transport.stepped ≥ transport.length then .ended else transport.source.mode } := by
  have playing := sound.rendered middle rendered
  have bound := stepped_le sound playing
  have position : transport.source.position = transport.source.cursor + 1 := by
    rw [sound.position, if_pos ⟨middle, rendered⟩]
  have same : ({ transport with source.channelCursor := 0, source.cursor := transport.source.cursor + 1 } : Transport).wrapped =
      ({ transport with source.cursor := transport.source.cursor + 1 } : Transport).wrapped := rfl
  unfold finishFrame advance
  dsimp only
  rw [if_neg (by simp [rendered]), same]
  unfold stepped at bound ⊢
  cases wraps : ({ transport with source.cursor := transport.source.cursor + 1 } : Transport).wrapped with
  | none =>
    rw [wraps] at bound
    dsimp only [endBeyond] at bound ⊢
    by_cases reached : transport.source.cursor + 1 ≥ transport.length
    · have last : transport.length = transport.source.cursor + 1 := le_antisymm reached bound
      rw [if_pos reached, if_pos reached]
      simp only [publish, last, position]
    · rw [if_neg reached, if_neg reached]
      simp only [publish, position]
  | some start =>
    obtain ⟨range, region, rfl, -⟩ := wrapped_some wraps
    obtain ⟨proper, inside⟩ := sound.properSource range region
    have short : range.start < transport.length := lt_of_lt_of_le proper inside
    have located : min range.start transport.length = range.start := min_eq_left short.le
    simp only [endBeyond, locate, publish, located, ge_iff_le, not_le.mpr short, if_false]

theorem finishFrame_sound (middle : ¬ transport.Boundary) :
    Sound ({ transport with source.channelCursor := 0 } : Transport).finishFrame := by
  cases rendered : transport.source.renderedFrame with
  | false =>
    have same : ({ transport with source.channelCursor := 0 } : Transport).finishFrame = { transport with source.channelCursor := 0 } :=
      if_pos rendered
    rw [same]
    refine { sound with position := ?_, rendered := fun impossible => absurd rfl impossible }
    have position := sound.position
    rw [if_neg fun both => by simp [rendered] at both] at position
    simpa using position
  | true =>
    have playing := sound.rendered middle rendered
    have bound := stepped_le sound playing
    have short := sound.playing playing
    have shape := transport.stepped_cases
    rw [finishFrame_rendered sound middle rendered]
    constructor
    all_goals simp only
    case applied => exact sound.applied
    case generation => exact sound.generation
    case position => simp
    case within => exact bound
    case playing =>
      split
      · exact fun impossible => by cases impossible
      · rename_i ahead
        exact fun _ => not_le.mp ahead
    case ended =>
      split
      · rename_i reached
        exact fun _ => le_antisymm bound reached
      · exact fun ended => by rw [playing] at ended; cases ended
    case rendered => exact fun impossible => absurd rfl impossible
    case proper => exact sound.proper
    case properSource => exact sound.properSource
    case enabled => exact sound.enabled
    case enabledSource => exact sound.enabledSource
    case disarmed => exact sound.disarmed
    case armed =>
      intro range region enabled before
      rcases shape with ⟨same, -⟩ | ⟨-, -, -, armed, -, -⟩
      · rw [same] at before
        exact sound.armed range region enabled ((lt_succ short).trans before)
      · exact armed
    case inside =>
      intro range region enabled armed _
      rcases shape with ⟨same, ahead⟩ | ⟨other, region', -, -, -, same⟩
      · rw [same]
        exact ahead range region enabled armed
      · rw [region] at region'
        cases region'
        rw [same]
        exact (sound.properSource range region).1
    case desired => exact sound.desired
    case ahead =>
      intro idle
      rw [playing] at idle
      split at idle <;> simp at idle
    case parked =>
      intro stopped still
      have idle := sound.parked stopped still
      rw [playing] at idle
      cases idle
    case revision => exact sound.revision
    case seen =>
      intro seen
      obtain ⟨region, enabled, still, mode⟩ := sound.seen seen
      obtain ⟨desired, -⟩ := modeThere_playing (mode.symm.trans playing)
      refine ⟨region, enabled, still, ?_⟩
      have unchanged := seekChanged_eq_false.mp still
      simp [modeThere, target, seekChanged, unchanged, desired, playing]

theorem ready_sound (middle : channel ≠ 0) :
    Sound { transport.ready with source.channelCursor := channel } := by
  unfold ready
  by_cases boundary : transport.source.channelCursor = 0
  · rw [if_pos boundary]
    exact prepareFrame_sound sound boundary middle
  · rw [if_neg boundary]
    exact middle_sound sound boundary middle

theorem next_sound : transport.next.1.Sound := by
  have middle := ready_sound sound (Nat.succ_ne_zero transport.ready.source.channelCursor)
  have finished := finishFrame_sound middle (Nat.succ_ne_zero _)
  unfold next
  dsimp only
  split
  · exact finished
  · exact middle

end

structure Written (length : U64) (shared after : TransportShared) : Prop where
  revision : after.controlRevision = shared.controlRevision + 2
  applied : after.appliedSeekGeneration = shared.appliedSeekGeneration
  publishedFrame : after.publishedFrame = shared.publishedFrame
  publishedMode : after.publishedMode = shared.publishedMode
  generation : after.seekGeneration = shared.seekGeneration ∨ after.seekGeneration = shared.seekGeneration + 1
  proper : Proper length shared.loopRegion → Proper length after.loopRegion
  enabled : (shared.loopEnabled = true → shared.loopRegion.isSome = true) → after.loopEnabled = true → after.loopRegion.isSome = true
  desired : shared.desiredMode ≠ .ended → after.desiredMode ≠ .ended
  ahead : after.desiredMode = .playing → after.seekGeneration = shared.seekGeneration → shared.pendingSeek = false →
    shared.desiredMode = .playing ∨ shared.publishedFrame < length
  parked : after.desiredMode = .stopped → after.seekGeneration = shared.seekGeneration → shared.desiredMode = .stopped

theorem play_written (length : U64) (shared : TransportShared) : Written length shared (shared.play length) := by
  unfold play
  cases ended : shared.atEnd length with
  | true =>
    constructor <;> simp [writeControl, requestSeek]
  | false =>
    constructor <;> simp [writeControl]
    intro idle
    right
    rw [atEnd, idle] at ended
    simp at ended
    exact ended.2

theorem pause_written (length : U64) (shared : TransportShared) : Written length shared shared.pause := by
  unfold pause
  dsimp only
  split
  · rename_i stopped
    constructor <;> simp [writeControl, stopped]
  · constructor <;> simp [writeControl]

theorem locatedMode_ne_ended (shared : TransportShared) (frame : U64) : shared.locatedMode frame ≠ .ended := by
  unfold locatedMode
  split
  · simp
  · split <;> simp

theorem editedMode_ne_ended (shared : TransportShared) : shared.editedMode ≠ .ended := by
  unfold editedMode normalizedControlMode
  grind

theorem editedMode_playing (playing : shared.editedMode = .playing) : shared.desiredMode = .playing := by
  unfold editedMode normalizedControlMode at playing
  grind

theorem editedMode_stopped (stopped : shared.editedMode = .stopped) : shared.desiredMode = .stopped := by
  unfold editedMode normalizedControlMode at stopped
  grind

theorem seek_written (length : U64) (shared : TransportShared) (frame : U64) : Written length shared (shared.seek length frame) := by
  constructor <;> simp [seek, writeControl, requestSeek, locatedMode_ne_ended]

theorem checkLoop_ok {range : Option FrameRange} (checked : checkLoop length range = .ok ()) :
    Proper length range := by
  rintro known rfl
  obtain ⟨proper, inside⟩ := bind_unit_ok.mp checked
  exact ⟨ensure_ok.mp proper, ensure_ok.mp inside⟩

theorem setLoopState_written {range : Option FrameRange} {enabled : Bool} {locate : Option U64}
    (written : shared.setLoopState length range enabled locate = .ok after) : Written length shared after := by
  obtain ⟨checked, written⟩ := bind_unit_ok.mp written
  have proper := checkLoop_ok checked
  cases locate with
  | none =>
    cases written
    constructor <;> simp [writeControl, proper, editedMode_ne_ended]
    · exact fun playing _ => .inl (editedMode_playing playing)
    · exact editedMode_stopped
  | some frame =>
    cases written
    constructor <;> simp [writeControl, requestSeek, proper, locatedMode_ne_ended]

section

variable (length shared)
include length shared

theorem setLoopState_cases (range : Option FrameRange) (enabled : Bool) (locate : Option U64) :
    (shared.setLoopState length range enabled locate).toOption.getD shared = shared ∨
      Written length shared ((shared.setLoopState length range enabled locate).toOption.getD shared) := by
  cases result : shared.setLoopState length range enabled locate with
  | ok after => exact .inr (setLoopState_written result)
  | error error => exact .inl rfl

theorem setLoopEnabled_written (enabled : Bool) :
    Written length shared (shared.setLoopEnabled enabled) := by
  constructor <;> simp [setLoopEnabled, writeControl, editedMode_ne_ended]
  · exact fun playing _ => .inl (editedMode_playing playing)
  · exact editedMode_stopped

theorem control_written (call : Control) :
    shared.control length call = shared ∨ Written length shared (shared.control length call) := by
  cases call with
  | play => exact .inr (play_written length shared)
  | pause => exact .inr (pause_written length shared)
  | toggle =>
    refine .inr ?_
    show Written length shared (shared.toggle length)
    unfold toggle
    split
    · constructor <;> simp [writeControl]
    · exact play_written length shared
  | stop =>
    refine .inr ?_
    constructor <;> simp [TransportShared.control, TransportShared.stop, TransportShared.writeControl, TransportShared.requestSeek]
  | seek frame => exact .inr (seek_written length shared frame)
  | setLoopRegion range => exact setLoopState_cases length shared range _ _
  | setLoopState range enabled locate => exact setLoopState_cases length shared range enabled locate
  | setLoopEnabled enabled => exact .inr (setLoopEnabled_written length shared enabled)

end

theorem written_sound (sound : transport.Sound) (written : Written transport.length transport.shared after) :
    Sound { transport with shared := after } := by
  have pending : transport.shared.pendingSeek = transport.seekChanged := by
    rw [pendingSeek, seekChanged, sound.applied]
  have generation := sound.generation
  have unsought (still : ({ transport with shared := after } : Transport).seekChanged = false) :
      after.seekGeneration = transport.shared.seekGeneration ∧ transport.seekChanged = false := by
    have unchanged : after.seekGeneration = transport.source.seenSeekGeneration := seekChanged_eq_false.mp still
    have same : after.seekGeneration = transport.shared.seekGeneration := by
      rcases written.generation with same | next <;> omega
    exact ⟨same, seekChanged_eq_false.mpr (same.symm.trans unchanged)⟩
  refine
    { sound with
      applied := written.applied.trans sound.applied
      generation := ?_
      publishedFrame := written.publishedFrame.trans sound.publishedFrame
      publishedMode := written.publishedMode.trans sound.publishedMode
      proper := written.proper sound.proper
      enabled := written.enabled sound.enabled
      desired := written.desired sound.desired
      ahead := ?_
      parked := ?_
      revision := ?_
      seen := ?_ }
  · show transport.source.seenSeekGeneration ≤ after.seekGeneration
    rcases written.generation with same | next <;> omega
  · intro idle desired still
    obtain ⟨same, before⟩ := unsought still
    rcases written.ahead desired same (pending.trans before) with playing | short
    · exact sound.ahead idle playing before
    · rw [sound.publishedFrame] at short
      exact short
  · intro stopped still
    obtain ⟨same, before⟩ := unsought still
    exact sound.parked (written.parked stopped same) before
  · intro seen same
    have bound := sound.revision seen same
    show seen ≤ after.controlRevision
    rw [written.revision]
    omega
  · intro seen
    have bound := sound.revision _ seen
    rw [written.revision] at bound
    omega

theorem control_sound (sound : transport.Sound) (call : Control) : (transport.control call).Sound := by
  rcases control_written transport.length transport.shared call with same | written
  · rw [control, same]
    exact sound
  · exact written_sound sound written

end Preserved

section Resting

section

variable (transport : Transport)

def resting : U64 × TransportMode :=
  if transport.Boundary then (transport.source.cursor, transport.source.mode)
  else
    let finished := ({ transport with source.channelCursor := 0 } : Transport).finishFrame
    (finished.source.cursor, finished.source.mode)

section

variable (shared : TransportShared)

theorem advance_shared :
    ({ transport with shared } : Transport).advance = { transport.advance with shared } := by
  have wraps : ({ transport with shared, source.cursor := transport.source.cursor + 1 } : Transport).wrapped =
      ({ transport with source.cursor := transport.source.cursor + 1 } : Transport).wrapped := rfl
  unfold advance
  dsimp only
  rw [wraps]
  cases ({ transport with source.cursor := transport.source.cursor + 1 } : Transport).wrapped <;> rfl

theorem endBeyond_shared :
    ({ transport with shared } : Transport).endBeyond = { transport.endBeyond with shared } := by
  unfold endBeyond
  dsimp only
  split <;> rfl

theorem finishFrame_shared :
    ({ transport with shared } : Transport).finishFrame.source = transport.finishFrame.source := by
  unfold finishFrame
  rw [advance_shared, endBeyond_shared]
  dsimp only
  split <;> rfl

end

theorem control_resting (call : Control) : (transport.control call).resting = transport.resting := by
  have same := finishFrame_shared { transport with source.channelCursor := 0 } (transport.shared.control transport.length call)
  unfold resting
  exact if_congr Iff.rfl rfl (Prod.ext (congrArg TransportSource.cursor same) (congrArg TransportSource.mode same))

end

section

variable (boundary : transport.Boundary)
include boundary

theorem advance_boundary : transport.advance.Boundary := by
  unfold advance
  dsimp only
  split <;> exact boundary

theorem endBeyond_boundary : transport.endBeyond.Boundary := by
  unfold endBeyond
  split <;> exact boundary

theorem finishFrame_boundary : transport.finishFrame.Boundary := by
  unfold finishFrame
  split
  · exact boundary
  · exact endBeyond_boundary (advance_boundary boundary)

end

theorem middle_resting (prepared : Transport) {channel : Nat} (middle : channel ≠ 0) :
    (if channel = prepared.channels then ({ prepared with source.channelCursor := 0 } : Transport).finishFrame
      else { prepared with source.channelCursor := channel }).resting =
    (({ prepared with source.channelCursor := 0 } : Transport).finishFrame.source.cursor,
      ({ prepared with source.channelCursor := 0 } : Transport).finishFrame.source.mode) := by
  split
  · exact if_pos (finishFrame_boundary (show Boundary { prepared with source.channelCursor := 0 } from rfl))
  · exact if_neg middle

theorem next_resting_ready (transport : Transport) : transport.next.1.resting =
    (({ transport.ready with source.channelCursor := 0 } : Transport).finishFrame.source.cursor,
      ({ transport.ready with source.channelCursor := 0 } : Transport).finishFrame.source.mode) :=
  middle_resting transport.ready (Nat.succ_ne_zero transport.ready.source.channelCursor)

theorem next_resting_middle (middle : ¬ transport.Boundary) : transport.next.1.resting = transport.resting := by
  have same : transport.ready = transport := if_neg middle
  rw [next_resting_ready, same, resting, if_neg middle]

def successor (transport : Transport) (frame : U64) : U64 :=
  match transport.shared.loopRegion with
  | some range => if transport.shared.loopEnabled = true ∧ frame + 1 = range.stop then range.start else frame + 1
  | none => frame + 1

section

variable (sound : transport.Sound) (boundary : transport.Boundary)
include sound boundary

theorem prepareFrame_loop :
    transport.prepareFrame.source.loopRegion = transport.shared.loopRegion ∧
      transport.prepareFrame.source.loopEnabled = transport.shared.loopEnabled ∧
        transport.prepareFrame.source.mode = transport.modeThere ∧ transport.prepareFrame.length = transport.length := by
  have read := applyControl_read sound boundary
  cases hears : transport.heard with
  | none =>
    rw [prepareFrame_silent sound boundary hears]
    exact ⟨read.loopRegion, read.loopEnabled, read.mode, read.length⟩
  | some frame =>
    rw [prepareFrame_heard sound boundary hears]
    exact ⟨read.loopRegion, read.loopEnabled, read.mode, read.length⟩

theorem prepareFrame_frame :
    transport.prepareFrame.source.frameSamples = transport.heard := by
  cases hears : transport.heard with
  | none => rw [prepareFrame_silent sound boundary hears]
  | some frame => rw [prepareFrame_heard sound boundary hears]

theorem stepped_heard {frame : U64} (hears : transport.heard = some frame) :
    ({ transport.prepareFrame with source.channelCursor := 1 } : Transport).stepped = transport.successor frame := by
  have middle := prepareFrame_sound sound boundary one_ne_zero
  obtain ⟨region, enabled, mode, -⟩ := prepareFrame_loop sound boundary
  have cursor : transport.prepareFrame.source.cursor = frame := by
    rw [prepareFrame_heard sound boundary hears]
  have short := heard_lt sound boundary hears
  have shape := ({ transport.prepareFrame with source.channelCursor := 1 } : Transport).stepped_cases
  generalize ({ transport.prepareFrame with source.channelCursor := 1 } : Transport).stepped = result at shape ⊢
  dsimp only at shape
  rw [cursor, region, enabled] at shape
  rcases shape with ⟨same, ahead⟩ | ⟨range, known, on, armed, beyond, same⟩
  · rw [same]
    unfold successor
    split
    · rename_i range known
      rw [if_neg]
      rintro ⟨on, last⟩
      have armed := middle.armed range (region.trans known) (enabled.trans on) (by
        dsimp only
        rw [cursor, ← last]
        exact lt_succ short)
      exact absurd last (ahead range known on armed).ne
    · rfl
  · rw [same]
    have inside : frame < range.stop := by
      have playing : transport.modeThere = .playing := by
        by_contra idle
        rw [heard, if_neg idle] at hears
        cases hears
      have inside := middle.inside range (region.trans known) (enabled.trans on) armed (.inl (mode.trans playing))
      dsimp only at inside
      rw [cursor] at inside
      exact inside
    rw [successor, known]
    exact (if_pos ⟨on, le_antisymm (succ_le inside) beyond⟩).symm

theorem next_resting : transport.next.1.resting =
    match transport.heard with
    | some frame => (transport.successor frame, if transport.successor frame ≥ transport.length then .ended else .playing)
    | none => (transport.target, transport.modeThere) := by
  have read := applyControl_read sound boundary
  have ready : transport.ready = transport.prepareFrame := if_pos boundary
  rw [next_resting_ready, ready]
  cases hears : transport.heard with
  | none =>
    have shape := prepareFrame_silent sound boundary hears
    have silent : ({ transport.prepareFrame with source.channelCursor := 0 } : Transport).finishFrame =
        { transport.prepareFrame with source.channelCursor := 0 } := by
      rw [shape]
      exact if_pos rfl
    rw [silent, shape]
    exact Prod.ext read.cursor read.mode
  | some frame =>
    obtain ⟨-, -, mode, length⟩ := prepareFrame_loop sound boundary
    have playing : transport.modeThere = .playing := by
      by_contra idle
      rw [heard, if_neg idle] at hears
      cases hears
    have middle := prepareFrame_sound sound boundary one_ne_zero
    have rendered : transport.prepareFrame.source.renderedFrame = true := by
      rw [prepareFrame_heard sound boundary hears]
    have shape := finishFrame_rendered middle one_ne_zero rendered
    have step := stepped_heard sound boundary hears
    show (({ ({ transport.prepareFrame with source.channelCursor := 1 } : Transport) with source.channelCursor := 0 } : Transport).finishFrame.source.cursor,
      ({ ({ transport.prepareFrame with source.channelCursor := 1 } : Transport) with source.channelCursor := 0 } : Transport).finishFrame.source.mode) = _
    rw [shape, step]
    dsimp only
    rw [mode, length, playing]

end

end Resting

end Audec.Playback.Transport

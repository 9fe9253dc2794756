import Audec.Playback.Walk

/-! Control calls do not depend on when the audio thread reads them, but for a seek to the end and for an unread loop. -/

open Machine Checked Runs Option

namespace Audec.Playback.Transport

open TransportShared

variable {transport plain woven : Transport}

section Frame

def frame (transport : Transport) : Transport := ({ transport.prepareFrame with source.channelCursor := 0 } : Transport).finishFrame

theorem frame_boundary (transport : Transport) : transport.frame.Boundary :=
  finishFrame_boundary (show Boundary { transport.prepareFrame with source.channelCursor := 0 } from rfl)

theorem frame_sound (sound : transport.Sound) (boundary : transport.Boundary) : transport.frame.Sound := by
  have middle := prepareFrame_sound sound boundary one_ne_zero
  have finished := finishFrame_sound middle one_ne_zero
  exact finished

/-- What a frame leaves of the controls: all of them, and they have been read. -/
structure Played (transport after : Transport) : Prop where
  length : after.length = transport.length
  desired : after.shared.desiredMode = transport.shared.desiredMode
  loopRegion : after.shared.loopRegion = transport.shared.loopRegion
  loopEnabled : after.shared.loopEnabled = transport.shared.loopEnabled
  seen : after.source.seenControlRevision = some after.shared.controlRevision

theorem frame_played (sound : transport.Sound) (boundary : transport.Boundary) : Played transport transport.frame := by
  have read := applyControl_read sound boundary
  cases hears : transport.heard with
  | none =>
    have shape : transport.frame =
        { transport.applyControl with source.renderedFrame := false, source.frameSamples := none, source.channelCursor := 0 } := by
      unfold frame
      rw [prepareFrame_silent sound boundary hears]
      exact if_pos rfl
    rw [shape]
    constructor <;> simp only [read.length, read.shared, read.seen]
  | some frame =>
    have middle := prepareFrame_sound sound boundary one_ne_zero
    have rendered : transport.prepareFrame.source.renderedFrame = true := by
      rw [prepareFrame_heard sound boundary hears]
    have shape := finishFrame_rendered middle one_ne_zero rendered
    rw [show transport.frame = _ from shape]
    constructor <;> simp only [prepareFrame_heard sound boundary hears, read.length, read.shared, read.seen]

theorem frame_rests (sound : transport.Sound) (boundary : transport.Boundary) : (transport.frame.source.cursor, transport.frame.source.mode) =
    match transport.heard with
    | some frame => (transport.successor frame, if transport.successor frame ≥ transport.length then .ended else .playing)
    | none => (transport.target, transport.modeThere) := by
  have rests := next_resting sound boundary
  rw [next_resting_ready, show transport.ready = transport.prepareFrame from if_pos boundary] at rests
  exact rests

end Frame

section Effect

def ranOut (transport : Transport) : Prop := transport.source.mode = .ended ∧ transport.seekChanged = false

structure Effect where
  mode : TransportMode
  seek : Option U64
  loopRegion : Option FrameRange
  loopEnabled : Bool

structure Effect.Done (effect : Effect) (shared after : TransportShared) : Prop where
  mode : after.desiredMode = effect.mode
  loopRegion : after.loopRegion = effect.loopRegion
  loopEnabled : after.loopEnabled = effect.loopEnabled
  still : effect.seek = none → after.seekGeneration = shared.seekGeneration ∧ after.desiredFrame = shared.desiredFrame
  sought : ∀ frame, effect.seek = some frame → after.seekGeneration = shared.seekGeneration + 1 ∧ after.desiredFrame = frame

/-- A call sees only whether playback is at the end or has run into it, besides what was asked for. -/
def effectOf (length : U64) (desired : TransportMode) (region : Option FrameRange) (enabled atEnd ranOut : Bool) : Control → Effect
  | .play => ⟨.playing, if atEnd then some 0 else none, region, enabled⟩
  | .pause => ⟨if desired = .stopped then .stopped else .paused, none, region, enabled⟩
  | .toggle =>
    if desired = .playing ∧ ranOut = false then ⟨.paused, none, region, enabled⟩
    else ⟨.playing, if atEnd then some 0 else none, region, enabled⟩
  | .stop => ⟨.stopped, some 0, region, enabled⟩
  | .seek frame => ⟨located desired ranOut (min frame length), some (min frame length), region, enabled⟩
  | .setLoopRegion range => loop range range.isSome none
  | .setLoopState range on locate => loop range on locate
  | .setLoopEnabled on => ⟨edited desired ranOut, none, region, on && region.isSome⟩
where
  located (desired : TransportMode) (ranOut : Bool) (frame : U64) : TransportMode :=
    if desired = .playing ∧ ranOut = false then .playing else if desired = .stopped ∧ frame = 0 then .stopped else .paused
  edited (desired : TransportMode) (ranOut : Bool) : TransportMode :=
    if ranOut then .paused else TransportShared.normalizedControlMode desired
  loop (range : Option FrameRange) (on : Bool) (locate : Option U64) : Effect :=
    match TransportShared.checkLoop length range with
    | .error _ => ⟨desired, none, region, enabled⟩
    | .ok () =>
      match locate.map fun frame => min frame length with
      | some frame => ⟨located desired ranOut frame, some frame, range, on && range.isSome⟩
      | none => ⟨edited desired ranOut, none, range, on && range.isSome⟩

def effect (shared : TransportShared) (length : U64) : Control → Effect :=
  effectOf length shared.desiredMode shared.loopRegion shared.loopEnabled (shared.atEnd length)
    (shared.publishedMode = .ended ∧ shared.pendingSeek = false)

section

variable (shared : TransportShared)
include shared

theorem stillPlaying_eq : shared.stillPlaying =
    (shared.desiredMode = .playing ∧ decide (shared.publishedMode = .ended ∧ shared.pendingSeek = false) = false : Bool) := by
  unfold stillPlaying
  cases shared.pendingSeek <;> simp

theorem locatedMode_eq (frame : U64) : shared.locatedMode frame =
    effectOf.located shared.desiredMode (shared.publishedMode = .ended ∧ shared.pendingSeek = false) frame := by
  unfold locatedMode effectOf.located
  rw [stillPlaying_eq]
  simp only [decide_eq_true_eq]

theorem editedMode_eq : shared.editedMode =
    effectOf.edited shared.desiredMode (shared.publishedMode = .ended ∧ shared.pendingSeek = false) := by
  unfold editedMode effectOf.edited
  simp only [decide_eq_true_eq]

theorem setLoopState_done (length : U64) (range : Option FrameRange) (on : Bool) (locate : Option U64) :
    (effectOf.loop length shared.desiredMode shared.loopRegion shared.loopEnabled
      (shared.publishedMode = .ended ∧ shared.pendingSeek = false) range on locate).Done shared
      ((shared.setLoopState length range on locate).toOption.getD shared) := by
  unfold effectOf.loop setLoopState
  cases checked : checkLoop length range with
  | error error => constructor <;> simp [bind, Except.bind, Except.toOption]
  | ok done =>
    cases locate with
    | none =>
      constructor <;> simp [bind, Except.bind, Except.toOption, editedMode_eq, writeControl]
    | some frame =>
      constructor <;> simp [bind, Except.bind, Except.toOption, locatedMode_eq, writeControl, requestSeek]

theorem play_done (length : U64) :
    (⟨.playing, if shared.atEnd length then some 0 else none, shared.loopRegion, shared.loopEnabled⟩ : Effect).Done shared
      (shared.play length) := by
  unfold play
  cases shared.atEnd length <;> constructor <;> simp [writeControl, requestSeek]

theorem control_done (length : U64) (call : Control) :
    (effect shared length call).Done shared (shared.control length call) := by
  cases call with
  | play => exact play_done shared length
  | pause => constructor <;> simp [effect, effectOf, TransportShared.control, TransportShared.pause, TransportShared.writeControl]
  | toggle =>
    show (effect shared length .toggle).Done shared (shared.toggle length)
    unfold TransportShared.toggle effect effectOf
    rw [stillPlaying_eq]
    by_cases playing : shared.desiredMode = .playing ∧ decide (shared.publishedMode = .ended ∧ shared.pendingSeek = false) = false
    · rw [if_pos (decide_eq_true playing), if_pos playing]
      constructor <;> simp [TransportShared.writeControl]
    · rw [if_neg (fun both => playing (of_decide_eq_true both)), if_neg playing]
      exact play_done shared length
  | stop => constructor <;> simp [effect, effectOf, TransportShared.control, TransportShared.stop, TransportShared.writeControl, TransportShared.requestSeek]
  | seek frame =>
    constructor <;> simp [effect, effectOf, TransportShared.control, TransportShared.seek, TransportShared.writeControl,
      TransportShared.requestSeek, locatedMode_eq]
  | setLoopRegion range => exact setLoopState_done shared length range range.isSome none
  | setLoopState range on locate => exact setLoopState_done shared length range on locate
  | setLoopEnabled on =>
    constructor <;> simp [effect, effectOf, TransportShared.control, TransportShared.setLoopEnabled, TransportShared.writeControl, editedMode_eq]

end

end Effect

section Alike

def SeeksEnd (transport : Transport) : Prop := transport.seekChanged = true ∧ transport.target = transport.length

/-- A call that would be taken otherwise if the seek to the end had been read. -/
def Early (transport : Transport) : Control → Prop
  | .play | .toggle => transport.SeeksEnd
  | .pause | .stop => False
  | .seek _ | .setLoopRegion _ | .setLoopState _ _ _ | .setLoopEnabled _ => transport.SeeksEnd ∧ transport.shared.desiredMode = .playing

/-- Two transports that were given the same calls, where the second has read more of them. -/
structure Alike (plain woven : Transport) : Prop where
  length : plain.length = woven.length
  desired : plain.shared.desiredMode = woven.shared.desiredMode
  target : plain.target = woven.target
  loopRegion : plain.shared.loopRegion = woven.shared.loopRegion
  loopEnabled : plain.shared.loopEnabled = woven.shared.loopEnabled
  pending : woven.seekChanged = true → plain.seekChanged = true
  ranOut : plain.shared.desiredMode = .playing → (plain.ranOut ↔ woven.ranOut) ∨ plain.SeeksEnd

theorem Alike.refl (transport : Transport) : Alike transport transport := ⟨rfl, rfl, rfl, rfl, rfl, id, fun _ => .inl Iff.rfl⟩

section

variable (sound : transport.Sound)
include sound

theorem pendingSeek_eq : transport.shared.pendingSeek = transport.seekChanged := by
  rw [pendingSeek, seekChanged, sound.applied]

theorem published_ranOut :
    (transport.shared.publishedMode = .ended ∧ transport.shared.pendingSeek = false) ↔ transport.ranOut := by
  rw [ranOut, sound.publishedMode, pendingSeek_eq sound]

theorem atEnd_iff :
    transport.shared.atEnd transport.length = true ↔ transport.seekChanged = false ∧ transport.target = transport.length := by
  have ended := sound.ended
  have within := sound.within
  rw [atEnd, pendingSeek_eq sound, sound.publishedMode, sound.publishedFrame]
  cases still : transport.seekChanged with
  | true => simp
  | false =>
    rw [target_still still]
    simp only [Bool.not_false, Bool.true_and, Bool.or_eq_true, decide_eq_true_eq, true_and]
    exact ⟨fun last => last.elim ended fun reached => le_antisymm within reached, fun last => .inr last.ge⟩

theorem ranOut_atEnd (out : transport.ranOut) : transport.shared.atEnd transport.length = true := by
  rw [atEnd_iff sound, target_still out.2]
  exact ⟨out.2, sound.ended out.1⟩

theorem ranOut_not_stopped (out : transport.ranOut) : transport.shared.desiredMode ≠ .stopped := by
  intro stopped
  have parked := sound.parked stopped out.2
  rw [out.1] at parked
  cases parked

end

section

variable (alike : Alike plain woven) (sound : plain.Sound) (sound' : woven.Sound)
include alike sound sound'

theorem Alike.atEnd (clear : ¬ plain.SeeksEnd) :
    plain.shared.atEnd plain.length = woven.shared.atEnd woven.length := by
  rw [Bool.eq_iff_iff, atEnd_iff sound, atEnd_iff sound', alike.target, alike.length]
  constructor
  · rintro ⟨still, last⟩
    refine ⟨?_, last⟩
    by_contra pending
    have sought := alike.pending (eq_true_of_ne_false pending)
    rw [still] at sought
    cases sought
  · rintro ⟨still, last⟩
    refine ⟨?_, last⟩
    by_contra pending
    exact clear ⟨eq_true_of_ne_false pending, by rw [alike.target, alike.length, last]⟩

section

variable (clear : plain.shared.desiredMode = .playing → ¬ plain.SeeksEnd)
include clear

theorem Alike.out_eq (playing : plain.shared.desiredMode = .playing) :
    decide (plain.shared.publishedMode = .ended ∧ plain.shared.pendingSeek = false) =
      decide (woven.shared.publishedMode = .ended ∧ woven.shared.pendingSeek = false) := by
  refine decide_eq_decide.mpr ?_
  rw [published_ranOut sound, published_ranOut sound']
  exact (alike.ranOut playing).resolve_right (clear playing)

theorem Alike.located_eq (frame : U64) :
    effectOf.located plain.shared.desiredMode (plain.shared.publishedMode = .ended ∧ plain.shared.pendingSeek = false) frame =
      effectOf.located woven.shared.desiredMode (woven.shared.publishedMode = .ended ∧ woven.shared.pendingSeek = false) frame := by
  by_cases playing : plain.shared.desiredMode = .playing
  · rw [alike.out_eq sound sound' clear playing, alike.desired]
  · unfold effectOf.located
    rw [← alike.desired]
    simp only [playing, false_and, if_false]

theorem Alike.edited_eq :
    effectOf.edited plain.shared.desiredMode (plain.shared.publishedMode = .ended ∧ plain.shared.pendingSeek = false) =
      effectOf.edited woven.shared.desiredMode (woven.shared.publishedMode = .ended ∧ woven.shared.pendingSeek = false) := by
  cases desired : plain.shared.desiredMode with
  | playing =>
    rw [alike.out_eq sound sound' clear desired, ← alike.desired, desired]
  | paused =>
    rw [← alike.desired, desired]
    exact (ite_self _).trans (ite_self _).symm
  | stopped =>
    have here : ¬ (plain.shared.publishedMode = .ended ∧ plain.shared.pendingSeek = false) :=
      fun out => ranOut_not_stopped sound ((published_ranOut sound).mp out) desired
    have there : ¬ (woven.shared.publishedMode = .ended ∧ woven.shared.pendingSeek = false) :=
      fun out => ranOut_not_stopped sound' ((published_ranOut sound').mp out) (alike.desired ▸ desired)
    rw [← alike.desired, desired, decide_eq_false here, decide_eq_false there]
  | ended => exact absurd desired sound.desired

theorem Alike.loop_eq (range : Option FrameRange) (on : Bool) (locate : Option U64) :
    effectOf.loop plain.length plain.shared.desiredMode plain.shared.loopRegion plain.shared.loopEnabled
        (plain.shared.publishedMode = .ended ∧ plain.shared.pendingSeek = false) range on locate =
      effectOf.loop woven.length woven.shared.desiredMode woven.shared.loopRegion woven.shared.loopEnabled
        (woven.shared.publishedMode = .ended ∧ woven.shared.pendingSeek = false) range on locate := by
  unfold effectOf.loop
  rw [alike.length, alike.loopRegion, alike.loopEnabled, alike.edited_eq sound sound' clear]
  cases checkLoop woven.length range with
  | error error =>
    dsimp only
    rw [alike.desired]
  | ok done =>
    cases locate with
    | none => rfl
    | some frame =>
      dsimp only [map_some]
      rw [alike.located_eq sound sound' clear]

end

theorem Alike.effect_eq {call : Control}
    (careful : ¬ plain.Early call) : effect plain.shared plain.length call = effect woven.shared woven.length call := by
  unfold effect effectOf
  cases call with
  | play =>
    dsimp only
    rw [alike.atEnd sound sound' careful, alike.loopRegion, alike.loopEnabled]
  | pause =>
    dsimp only
    rw [alike.desired, alike.loopRegion, alike.loopEnabled]
  | toggle =>
    dsimp only
    rw [alike.atEnd sound sound' careful, alike.loopRegion, alike.loopEnabled]
    by_cases playing : plain.shared.desiredMode = .playing
    · rw [alike.out_eq sound sound' (fun _ => careful) playing, alike.desired]
    · rw [← alike.desired]
      simp only [playing, false_and, if_false]
  | stop =>
    dsimp only
    rw [alike.loopRegion, alike.loopEnabled]
  | seek frame =>
    have clear (playing : plain.shared.desiredMode = .playing) : ¬ plain.SeeksEnd := fun last => careful ⟨last, playing⟩
    dsimp only
    rw [alike.located_eq sound sound' clear, alike.length, alike.loopRegion, alike.loopEnabled]
  | setLoopRegion range => exact alike.loop_eq sound sound' (fun playing last => careful ⟨last, playing⟩) range _ none
  | setLoopState range on locate => exact alike.loop_eq sound sound' (fun playing last => careful ⟨last, playing⟩) range on locate
  | setLoopEnabled on =>
    have clear (playing : plain.shared.desiredMode = .playing) : ¬ plain.SeeksEnd := fun last => careful ⟨last, playing⟩
    dsimp only
    rw [alike.edited_eq sound sound' clear, alike.loopRegion]

end

theorem effect_playing {length : U64} {desired : TransportMode} {region : Option FrameRange} {enabled atEnd ranOut : Bool} {call : Control}
    (playing : (effectOf length desired region enabled atEnd ranOut call).mode = .playing)
    (still : (effectOf length desired region enabled atEnd ranOut call).seek = none) : desired = .playing ∨ atEnd = false := by
  have edited (there : effectOf.edited desired ranOut = .playing) : desired = .playing := by
    unfold effectOf.edited normalizedControlMode at there
    grind
  have loop (range : Option FrameRange) (on : Bool) (locate : Option U64)
      (there : (effectOf.loop length desired region enabled ranOut range on locate).mode = .playing)
      (unmoved : (effectOf.loop length desired region enabled ranOut range on locate).seek = none) : desired = .playing := by
    unfold effectOf.loop at there unmoved
    cases checked : checkLoop length range with
    | error error =>
      rw [checked] at there
      exact there
    | ok done =>
      rw [checked] at there unmoved
      cases locate with
      | none => exact edited there
      | some frame => cases unmoved
  cases call with
  | play =>
    cases atEnd with
    | false => exact .inr rfl
    | true => cases still
  | pause =>
    simp only [effectOf] at playing
    split at playing <;> cases playing
  | toggle =>
    cases atEnd with
    | false => exact .inr rfl
    | true =>
      simp only [effectOf] at still
      split at still
      · rename_i rolls
        exact .inl rolls.1
      · cases still
  | stop => cases still
  | seek frame => cases still
  | setLoopRegion range => exact .inl (loop range _ none playing still)
  | setLoopState range on locate => exact .inl (loop range on locate playing still)
  | setLoopEnabled on => exact .inl (edited playing)

theorem control_still {effect : Effect} {call : Control} (done : effect.Done transport.shared (transport.control call).shared)
    (still : effect.seek = none) : (transport.control call).seekChanged = transport.seekChanged ∧
      (transport.control call).target = transport.target := by
  obtain ⟨generation, desired⟩ := done.still still
  have same : (transport.control call).seekChanged = transport.seekChanged := by
    rw [seekChanged, seekChanged, generation]
    rfl
  refine ⟨same, ?_⟩
  rw [target, target, same, desired]
  rfl

theorem control_sought (sound : transport.Sound) {effect : Effect} {call : Control} {frame : U64}
    (done : effect.Done transport.shared (transport.control call).shared) (sought : effect.seek = some frame) :
    (transport.control call).seekChanged = true ∧ (transport.control call).target = min frame transport.length := by
  obtain ⟨generation, desired⟩ := done.sought frame sought
  have bound := sound.generation
  have changed : (transport.control call).seekChanged = true := by
    rw [seekChanged, generation, decide_eq_true_eq]
    show transport.shared.seekGeneration + 1 ≠ transport.source.seenSeekGeneration
    omega
  refine ⟨changed, ?_⟩
  rw [target, changed, if_pos rfl, desired]
  rfl

section

variable (alike : Alike plain woven) (sound : plain.Sound) (sound' : woven.Sound)
include alike sound sound'

theorem Alike.control {call : Control}
    (careful : ¬ plain.Early call) : Alike (plain.control call) (woven.control call) := by
  have same := alike.effect_eq sound sound' careful
  have done : (effect plain.shared plain.length call).Done plain.shared (plain.control call).shared := control_done plain.shared plain.length call
  have done' : (effect plain.shared plain.length call).Done woven.shared (woven.control call).shared := by
    rw [same]
    exact control_done woven.shared woven.length call
  have desired := done.mode.trans done'.mode.symm
  have region := done.loopRegion.trans done'.loopRegion.symm
  have enabled := done.loopEnabled.trans done'.loopEnabled.symm
  cases sought : (effect plain.shared plain.length call).seek with
  | some frame =>
    obtain ⟨pending, target⟩ := control_sought sound done sought
    obtain ⟨pending', target'⟩ := control_sought sound' done' sought
    refine ⟨alike.length, desired, ?_, region, enabled, fun _ => pending, fun _ => .inl (iff_of_false ?_ ?_)⟩
    · rw [target, target', alike.length]
    · exact fun out => Bool.noConfusion (pending.symm.trans out.2)
    · exact fun out => Bool.noConfusion (pending'.symm.trans out.2)
  | none =>
    obtain ⟨pending, target⟩ := control_still done sought
    obtain ⟨pending', target'⟩ := control_still done' sought
    have out : (plain.control call).ranOut ↔ plain.ranOut := by
      rw [Transport.ranOut, Transport.ranOut, pending]
      rfl
    have out' : (woven.control call).ranOut ↔ woven.ranOut := by
      rw [Transport.ranOut, Transport.ranOut, pending']
      rfl
    have last : (plain.control call).SeeksEnd ↔ plain.SeeksEnd := by
      rw [SeeksEnd, SeeksEnd, pending, target]
      rfl
    refine ⟨alike.length, desired, ?_, region, enabled, ?_, ?_⟩
    · rw [target, target', alike.target]
    · rw [pending, pending']
      exact alike.pending
    · intro playing
      rw [out, out', last]
      by_cases clear : plain.SeeksEnd
      · exact .inr clear
      · rcases effect_playing (done.mode.symm.trans playing) sought with before | short
        · exact alike.ranOut before
        · refine .inl (iff_of_false (fun there => ?_) fun there => ?_)
          · rw [ranOut_atEnd sound there] at short
            cases short
          · rw [alike.atEnd sound sound' clear, ranOut_atEnd sound' there] at short
            cases short

theorem Alike.frame (boundary : woven.Boundary)
    (silent : woven.modeThere ≠ .playing) : Alike plain woven.frame := by
  have played := frame_played sound' boundary
  have quiet : woven.heard = none := if_neg silent
  have rests := frame_rests sound' boundary
  rw [quiet] at rests
  obtain ⟨cursor, mode⟩ := Prod.mk.inj rests
  have read : woven.frame.seekChanged = false := ((frame_sound sound' boundary).seen played.seen).2.2.1
  have target := (target_still read).trans cursor
  refine ⟨alike.length.trans played.length.symm, alike.desired.trans played.desired.symm, alike.target.trans target.symm,
    alike.loopRegion.trans played.loopRegion.symm, alike.loopEnabled.trans played.loopEnabled.symm, ?_, ?_⟩
  · intro pending
    rw [read] at pending
    cases pending
  · intro playing
    have ended : woven.modeThere = .ended := by
      unfold modeThere at silent ⊢
      rw [← alike.desired, playing] at silent ⊢
      split
      · rfl
      · rename_i short
        rw [if_neg short] at silent
        exact absurd rfl silent
    have last : plain.target = plain.length := by
      rw [alike.target, alike.length]
      exact target_ended sound' ended
    cases pending : plain.seekChanged with
    | true => exact .inr ⟨pending, last⟩
    | false =>
      have there := target_still pending
      refine .inl (iff_of_true ⟨?_, pending⟩ ⟨mode.trans ended, read⟩)
      cases here : plain.source.mode with
      | ended => rfl
      | playing => exact absurd (there.symm.trans last) (sound.playing here).ne
      | stopped => exact absurd (there.symm.trans last) (sound.ahead (.inl here) playing pending).ne
      | paused => exact absurd (there.symm.trans last) (sound.ahead (.inr here) playing pending).ne

end

end Alike

section Outcome

def Held (transport : Transport) : Prop :=
  ∀ range, transport.modeThere = .playing → transport.shared.loopRegion = some range → transport.shared.loopEnabled = true →
    range.stop ≤ transport.target → transport.seekChanged = false ∧ transport.loopChanged = false ∧ transport.source.loopArmed = true

def passed (transport : Transport) : Option U64 :=
  if transport.shared.loopEnabled = true then
    (transport.shared.loopRegion.filter fun range => transport.target ≥ range.stop).map FrameRange.start
  else none

theorem entry_held (sound : transport.Sound) (boundary : transport.Boundary) (held : transport.Held)
    (playing : transport.modeThere = .playing) : transport.entry = transport.passed := by
  have read := applyControl_read sound boundary
  rw [entry, if_pos playing, wrapped, passed, read.loopEnabled, read.loopRegion, read.cursor]
  cases enabled : transport.shared.loopEnabled with
  | false => rfl
  | true =>
    rw [Bool.true_and, if_pos rfl]
    split
    · rfl
    · rename_i unarmed
      cases beyond : transport.shared.loopRegion.filter fun range => transport.target ≥ range.stop with
      | none => rfl
      | some range =>
        obtain ⟨region, past⟩ := filter_eq_some_iff.mp beyond
        obtain ⟨still, same, armed⟩ := held range playing region enabled (of_decide_eq_true past)
        rw [read.loopArmed, still, same, enabled] at unarmed
        exact absurd armed (by simpa using unarmed)

theorem Alike.modeThere (alike : Alike plain woven) : plain.modeThere = woven.modeThere := by
  rw [Transport.modeThere, Transport.modeThere, alike.desired, alike.target, alike.length]

theorem heard_held (sound : transport.Sound) (boundary : transport.Boundary) (held : transport.Held) : transport.heard =
    if transport.modeThere = .playing then some (transport.passed.getD transport.target) else none := by
  rw [heard]
  split
  · rename_i playing
    rw [entry_held sound boundary held playing]
  · rfl

theorem heard_unheld (sound : transport.Sound) (boundary : transport.Boundary) (unheld : ¬ transport.Held) :
    transport.modeThere = .playing ∧ transport.heard = some transport.target ∧
      ∃ start, transport.passed = some start ∧ start < transport.target := by
  simp only [Held, not_forall] at unheld
  obtain ⟨range, playing, region, enabled, past, loose⟩ := unheld
  have outside : transport.entry = none := by
    cases enters : transport.entry with
    | none => rfl
    | some start =>
      obtain ⟨reenters, same, armed⟩ := entry_some sound boundary enters
      exact absurd ⟨(reentry_some reenters).2.1, same, armed⟩ loose
  have found : transport.passed = some range.start := by
    rw [passed, if_pos enabled, region]
    simp [past]
  exact ⟨playing, by rw [heard, if_pos playing, outside, getD_none], range.start, found,
    lt_of_lt_of_le (sound.proper range region).1 past⟩

theorem Alike.passed (alike : Alike plain woven) : plain.passed = woven.passed := by
  rw [Transport.passed, Transport.passed, alike.target, alike.loopRegion, alike.loopEnabled]

theorem Alike.heard_iff (alike : Alike plain woven) (sound : plain.Sound) (sound' : woven.Sound) (boundary : plain.Boundary)
    (boundary' : woven.Boundary) : plain.heard = woven.heard ↔ (plain.Held ↔ woven.Held) := by
  by_cases held : plain.Held
  · by_cases held' : woven.Held
    · refine iff_of_true ?_ (iff_of_true held held')
      rw [heard_held sound boundary held, heard_held sound' boundary' held', alike.modeThere, alike.passed, alike.target]
    · obtain ⟨playing, there, start, found, short⟩ := heard_unheld sound' boundary' held'
      refine iff_of_false ?_ fun both => held' (both.mp held)
      rw [heard_held sound boundary held, if_pos (alike.modeThere.trans playing), there, alike.passed, found]
      exact fun same => short.ne (some.inj same)
  · obtain ⟨playing, here, start, found, short⟩ := heard_unheld sound boundary held
    by_cases held' : woven.Held
    · refine iff_of_false ?_ fun both => held (both.mpr held')
      rw [heard_held sound' boundary' held', if_pos (alike.modeThere.symm.trans playing), here, ← alike.passed, found]
      exact fun same => short.ne (some.inj same).symm
    · obtain ⟨-, there, -⟩ := heard_unheld sound' boundary' held'
      refine iff_of_true ?_ (iff_of_false held held')
      rw [here, there, alike.target]

structure Same (plain woven : Transport) : Prop where
  sound : plain.Sound
  sound' : woven.Sound
  boundary : plain.Boundary
  boundary' : woven.Boundary
  seen : plain.source.seenControlRevision = some plain.shared.controlRevision
  seen' : woven.source.seenControlRevision = some woven.shared.controlRevision
  length : plain.length = woven.length
  desired : plain.shared.desiredMode = woven.shared.desiredMode
  cursor : plain.source.cursor = woven.source.cursor
  mode : plain.source.mode = woven.source.mode
  loopRegion : plain.shared.loopRegion = woven.shared.loopRegion
  loopEnabled : plain.shared.loopEnabled = woven.shared.loopEnabled

theorem heard_seen (sound : transport.Sound) (boundary : transport.Boundary)
    (seen : transport.source.seenControlRevision = some transport.shared.controlRevision) :
    transport.heard = if transport.source.mode = .playing then some transport.source.cursor else none := by
  obtain ⟨-, -, still, mode⟩ := sound.seen seen
  rw [heard, ← mode, target_still still]
  split
  · rename_i playing
    cases enters : transport.entry with
    | none => rfl
    | some start =>
      obtain ⟨idle, -⟩ := reentry_some (entry_some sound boundary enters).1
      rw [playing] at idle
      simp at idle
  · rfl

theorem Same.heard (same : Same plain woven) : plain.heard = woven.heard := by
  rw [heard_seen same.sound same.boundary same.seen, heard_seen same.sound' same.boundary' same.seen', same.mode, same.cursor]

theorem same_frame (sound : plain.Sound) (sound' : woven.Sound) (boundary : plain.Boundary) (boundary' : woven.Boundary)
    (alike : Alike plain woven) (heard : plain.heard = woven.heard) : Same plain.frame woven.frame := by
  have played := frame_played sound boundary
  have played' := frame_played sound' boundary'
  have rests : (plain.frame.source.cursor, plain.frame.source.mode) = (woven.frame.source.cursor, woven.frame.source.mode) := by
    rw [frame_rests sound boundary, frame_rests sound' boundary', heard, alike.target, alike.modeThere, alike.length]
    cases woven.heard with
    | none => rfl
    | some frame =>
      dsimp only
      rw [successor, successor, alike.loopRegion, alike.loopEnabled]
  obtain ⟨cursor, mode⟩ := Prod.mk.inj rests
  exact
    { sound := frame_sound sound boundary
      sound' := frame_sound sound' boundary'
      boundary := frame_boundary plain
      boundary' := frame_boundary woven
      seen := played.seen
      seen' := played'.seen
      length := played.length.trans (alike.length.trans played'.length.symm)
      desired := played.desired.trans (alike.desired.trans played'.desired.symm)
      cursor
      mode
      loopRegion := played.loopRegion.trans (alike.loopRegion.trans played'.loopRegion.symm)
      loopEnabled := played.loopEnabled.trans (alike.loopEnabled.trans played'.loopEnabled.symm) }

theorem Same.alike (same : Same plain woven) : Alike plain woven := by
  obtain ⟨-, -, still, -⟩ := same.sound.seen same.seen
  obtain ⟨-, -, still', -⟩ := same.sound'.seen same.seen'
  refine ⟨same.length, same.desired, ?_, same.loopRegion, same.loopEnabled, ?_, fun _ => .inl ?_⟩
  · rw [target_still still, target_still still', same.cursor]
  · rw [still']
    exact fun impossible => by cases impossible
  · rw [ranOut, ranOut, still, still', same.mode]

theorem Same.frame (same : Same plain woven) : Same plain.frame woven.frame :=
  same_frame same.sound same.sound' same.boundary same.boundary' same.alike same.heard

structure SameOutcome (plain woven : Transport) : Prop where
  rendered : ∀ count : Nat, (Transport.frame^[count] plain).prepareFrame.source.frameSamples =
    (Transport.frame^[count] woven).prepareFrame.source.frameSamples
  published : ∀ count : Nat, (Transport.frame^[count + 1] plain).shared.publishedMode = (Transport.frame^[count + 1] woven).shared.publishedMode ∧
    (Transport.frame^[count + 1] plain).shared.publishedFrame = (Transport.frame^[count + 1] woven).shared.publishedFrame
  loop : ∀ count : Nat, (Transport.frame^[count] plain).shared.loopRegion = (Transport.frame^[count] woven).shared.loopRegion ∧
    (Transport.frame^[count] plain).shared.loopEnabled = (Transport.frame^[count] woven).shared.loopEnabled

section

variable (sound : plain.Sound) (sound' : woven.Sound) (boundary : plain.Boundary) (boundary' : woven.Boundary) (alike : Alike plain woven)
  (heard : plain.heard = woven.heard)
include sound sound' boundary boundary' alike heard

theorem same_frames (count : Nat) :
    Same (Transport.frame^[count + 1] plain) (Transport.frame^[count + 1] woven) := by
  induction count with
  | zero => exact same_frame sound sound' boundary boundary' alike heard
  | succ count tail =>
    rw [Function.iterate_succ_apply', Function.iterate_succ_apply' Transport.frame (count + 1) woven]
    exact tail.frame

theorem sameOutcome : SameOutcome plain woven := by
  have later := same_frames sound sound' boundary boundary' alike heard
  refine ⟨fun count => ?_, fun count => ?_, fun count => ?_⟩
  · cases count with
    | zero =>
      show plain.prepareFrame.source.frameSamples = woven.prepareFrame.source.frameSamples
      rw [prepareFrame_frame sound boundary, prepareFrame_frame sound' boundary', heard]
    | succ count =>
      have same := later count
      rw [prepareFrame_frame same.sound same.boundary, prepareFrame_frame same.sound' same.boundary', same.heard]
  · have same := later count
    rw [same.sound.publishedMode, same.sound'.publishedMode, same.sound.publishedFrame, same.sound'.publishedFrame]
    exact ⟨same.mode, same.cursor⟩
  · cases count with
    | zero => exact ⟨alike.loopRegion, alike.loopEnabled⟩
    | succ count => exact ⟨(later count).loopRegion, (later count).loopEnabled⟩

end

end Outcome

section Weave

def weave (transport : Transport) : Option Control → Transport
  | some call => transport.control call
  | none => transport.frame

/-- The frames that are woven in render nothing. -/
def Silent (transport : Transport) : List (Option Control) → Prop
  | [] => True
  | step :: steps => (step = none → transport.modeThere ≠ .playing) ∧ Silent (transport.weave step) steps

/-- No call comes while a seek to the end is unread that would be taken otherwise if it were read. -/
def Careful (transport : Transport) : List Control → Prop
  | [] => True
  | call :: calls => ¬ transport.Early call ∧ Careful (transport.control call) calls

theorem control_boundary (boundary : transport.Boundary) (call : Control) : (transport.control call).Boundary := boundary

theorem weave_alike {steps : List (Option Control)} (sound : plain.Sound) (sound' : woven.Sound) (boundary : plain.Boundary)
    (boundary' : woven.Boundary) (alike : Alike plain woven) (silent : woven.Silent steps) (careful : plain.Careful steps.reduceOption) :
    (steps.reduceOption.foldl control plain).Sound ∧ (steps.foldl weave woven).Sound ∧ (steps.reduceOption.foldl control plain).Boundary ∧
      (steps.foldl weave woven).Boundary ∧ Alike (steps.reduceOption.foldl control plain) (steps.foldl weave woven) := by
  induction steps generalizing plain woven with
  | nil => exact ⟨sound, sound', boundary, boundary', alike⟩
  | cons step steps tail =>
    cases step with
    | none =>
      have quiet := silent.1 rfl
      exact tail sound (frame_sound sound' boundary') boundary (frame_boundary woven) (alike.frame sound sound' boundary' quiet) silent.2 careful
    | some call =>
      rw [List.reduceOption_cons_of_some] at careful ⊢
      exact tail (control_sound sound call) (control_sound sound' call) (control_boundary boundary call) (control_boundary boundary' call)
        (alike.control sound sound' careful.1) silent.2 careful.2

variable {events : List (Event Transport TransportAction)}

section Example

def seekPlay (target : U64) : List (Option Control) := [some (.seek target), none, some .play]

theorem seekPlay_silent (target : U64) : (Transport.new 5 1).Silent (seekPlay target) := by
  unfold seekPlay
  simp only [Silent, reduceCtorEq, false_implies, true_and, and_true, true_implies]
  unfold modeThere
  split
  · exact fun impossible => by cases impossible
  · show (if _ then _ else _) ≠ _
    split <;> simp

end Example

end Weave

end Audec.Playback.Transport

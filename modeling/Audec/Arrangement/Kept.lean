import Audec.Arrangement.Cut
import Audec.Arrangement.RoundTrip
import Audec.Arrangement.Shape

/-! What trimming and splitting keep of a clip: the content under every frame that is left. -/

open Machine Checked OrderedKeys GuardedStore Option
open Std (ExtTreeMap)

namespace Audec.Arrangement

open Fin ClipContent SourceRange

def StretchRatio.value (ratio : StretchRatio) : ℚ := ratio.sourceFrames.val / ratio.projectFrames.val

def ClipContent.coordinate (content : ClipContent) (offset : ℚ) : ℚ :=
  match content with
  | .audio region =>
    if region.playback.reverse then region.source.stop.val - region.playback.ratio.value * offset
    else region.source.start.val + region.playback.ratio.value * offset
  | .pattern region => region.contentOffsetFrames.val + offset
  | .automation region => region.contentOffsetFrames.val + offset

def SourceRange.contains (range : SourceRange) (frame : Nat) : Prop := range.start.val ≤ frame ∧ frame < range.stop.val

def fadeFrames (fade : Option Fade) : Nat := fade.elim 0 fun fade => fade.duration.val

namespace Clip

def reads (clip : Clip) (frame : Frame) : ℚ :=
  clip.content.coordinate (frame.val - clip.placement.start.val)

def Mapped (clip : Clip) : Prop :=
  ∀ region, clip.content = .audio region →
    region.playback.ratio.sourceOffset clip.placement.len = .ok region.source.len

structure Continues (part clip : Clip) : Prop where
  within : ∀ frame, part.placement.contains frame → clip.placement.contains frame
  reads : ∀ frame, part.placement.contains frame → part.reads frame = clip.reads frame
  mapped : part.Mapped
  fadeIn : (fadeFrames part.fades.fadeIn : Int) ≤ part.placement.extent
  fadeOut : (fadeFrames part.fades.fadeOut : Int) ≤ part.placement.extent

structure Adjoins (reverse : Bool) (left right whole : SourceRange) : Prop where
  touching : if reverse then right.stop = left.start else left.stop = right.start
  union : ∀ frame, whole.contains frame ↔ left.contains frame ∨ right.contains frame

structure Divides (left right clip : Clip) : Prop where
  leftPart : left.Continues clip
  rightPart : right.Continues clip
  once : ∀ frame, clip.placement.contains frame → (left.placement.contains frame ↔ ¬ right.placement.contains frame)
  sources : ∀ region, clip.content = .audio region → ∃ first second, left.content = .audio first ∧
    right.content = .audio second ∧ Adjoins region.playback.reverse first.source second.source region.source
  fadeIn : fadeFrames left.fades.fadeIn + fadeFrames right.fades.fadeIn = fadeFrames clip.fades.fadeIn
  fadeOut : fadeFrames left.fades.fadeOut + fadeFrames right.fades.fadeOut = fadeFrames clip.fades.fadeOut

def Silent (clip : Clip) : Prop := ∀ region, clip.content ≠ .audio region

def TrimsExactly (clip : Clip) (newStart : Frame) : Prop :=
  clip.Silent → newStart.val - clip.placement.start.val < 0x8000000000000000

/-- The frames before the boundary are counted exactly, or the content is audio from a range that is not
    reversed. -/
def SplitsExactly (clip : Clip) (boundary : Frame) : Prop :=
  (∀ region, clip.content = .audio region → region.source.start ≤ region.source.stop) ∧
    (clip.Silent → boundary.val - clip.placement.start.val < 0x8000000000000000)

end Clip

theorem framesBetween_val {first last : Frame} (ordered : first ≤ last) :
    ((framesBetween first last).val : Int) = min (last.val - first.val) (0x8000000000000000 - 1) := by
  rw [I64.le_iff] at ordered
  simp only [framesBetween, I64.saturatingSub, I64.saturate]
  omega

theorem len_val {range : FrameRange} (ordered : range.start ≤ range.stop) :
    (range.len : Int) = min range.extent (0x8000000000000000 - 1) := by
  rw [← FrameRange.measured_val]
  exact framesBetween_val ordered

theorem checkedAdd_ok {value sum : U64} {delta : Nat} :
    checkedAdd value delta = .ok sum ↔ sum.val = value.val + delta := by
  unfold checkedAdd
  have := sum.isLt
  split
  · rw [Except.ok.injEq, Fin.ext_iff]
    exact eq_comm
  · simp only [reduceCtorEq, false_iff]
    omega

theorem checkedSub_ok {value difference : U64} {delta : Nat} :
    checkedSub value delta = .ok difference ↔ difference.val + delta = value.val := by
  unfold checkedSub
  split
  · rw [Except.ok.injEq, Fin.ext_iff]
    constructor
    · intro same
      simp only at same
      omega
    · intro same
      simp only
      omega
  · simp only [reduceCtorEq, false_iff]
    omega

theorem sourceOffset_value {ratio : StretchRatio} {offset mapped : Nat} (nonzero : ratio.projectFrames ≠ 0)
    (done : ratio.sourceOffset offset = .ok mapped) : (mapped : ℚ) = ratio.value * offset := by
  have exact := ArrangementState.sourceOffset_ok done
  have positive : (ratio.projectFrames.val : ℚ) ≠ 0 := by
    intro zero
    exact nonzero (val_eq_zero_iff.mp (by exact_mod_cast zero))
  rw [StretchRatio.value, div_mul_eq_mul_div, eq_div_iff positive]
  exact_mod_cast exact.trans (mul_comm _ _)

def ClipContent.Proportional (content : ClipContent) : Prop :=
  ∀ region, content = .audio region → region.playback.ratio.projectFrames ≠ 0

variable {content left right : ClipContent} {delta : U64}

variable {after : ClipContent} {region : AudioRegion} {moved : Nat} {range : SourceRange}

theorem advanceContent_coordinate (proportional : content.Proportional)
    (done : advanceContent delta content = .ok after) (offset : ℚ) :
    after.coordinate offset = content.coordinate (offset + delta.val) := by
  cases content with
  | audio region =>
    simp only [advanceContent, bind_ok] at done
    obtain ⟨-, -, moved, mapped, -, -, done⟩ := done
    have value := sourceOffset_value (proportional region rfl) mapped
    split at done
    · rename_i reverse
      obtain ⟨stop, fits, done⟩ := bind_ok.mp done
      cases done
      rw [checkedSub_ok] at fits
      simp only [coordinate, reverse, if_true, ← fits, Nat.cast_add, value]
      ring
    · rename_i forward
      obtain ⟨start, fits, done⟩ := bind_ok.mp done
      cases done
      rw [checkedAdd_ok] at fits
      simp only [coordinate, forward, Bool.false_eq_true, if_false, fits, Nat.cast_add, value]
      ring
  | pattern region =>
    obtain ⟨moved, fits, done⟩ := bind_ok.mp done
    cases done
    rw [checkedAdd_ok] at fits
    simp only [coordinate, fits, Nat.cast_add]
    ring
  | automation region =>
    obtain ⟨moved, fits, done⟩ := bind_ok.mp done
    cases done
    rw [checkedAdd_ok] at fits
    simp only [coordinate, fits, Nat.cast_add]
    ring

theorem retreatContentEnd_coordinate
    (done : retreatContentEnd delta content = .ok after) (offset : ℚ) :
    after.coordinate offset = content.coordinate offset := by
  cases content with
  | audio region =>
    simp only [retreatContentEnd, bind_ok] at done
    obtain ⟨-, -, moved, -, -, -, done⟩ := done
    split at done
    · rename_i reverse
      obtain ⟨start, -, done⟩ := bind_ok.mp done
      cases done
      simp only [coordinate, reverse, if_true]
    · rename_i forward
      obtain ⟨stop, -, done⟩ := bind_ok.mp done
      cases done
      simp only [coordinate, forward, Bool.false_eq_true, if_false]
  | pattern region =>
    cases done
    rfl
  | automation region =>
    cases done
    rfl

theorem coordinate_injective {clip : Clip} (silent : clip.Silent) {offset other : ℚ}
    (same : clip.content.coordinate offset = clip.content.coordinate other) : offset = other := by
  cases content : clip.content with
  | audio region => exact absurd content (silent region)
  | pattern region =>
    rw [content] at same
    exact add_left_cancel same
  | automation region =>
    rw [content] at same
    exact add_left_cancel same

theorem splitContent_left
    (done : splitContent delta content = .ok (left, right)) (offset : ℚ) :
    left.coordinate offset = content.coordinate offset := by
  cases content with
  | audio region =>
    simp only [splitContent, bind_ok] at done
    obtain ⟨-, -, moved, -, done⟩ := done
    split at done
    · rename_i reverse
      cases done
      simp only [coordinate, reverse, if_true]
    · rename_i forward
      cases done
      simp only [coordinate, forward, Bool.false_eq_true, if_false]
  | pattern region =>
    obtain ⟨moved, -, done⟩ := bind_ok.mp done
    cases done
    rfl
  | automation region =>
    obtain ⟨moved, -, done⟩ := bind_ok.mp done
    cases done
    rfl

theorem splitContent_audio
    (done : splitContent delta (.audio region) = .ok (left, right)) :
    ∃ moved, region.playback.ratio.sourceOffset delta.val = .ok moved ∧
      ((region.playback.reverse = true ∧
        left = .audio { region with source := ⟨region.source.stop - Fin.ofNat _ moved, region.source.stop⟩ } ∧
        right = .audio { region with source := ⟨region.source.start, region.source.stop - Fin.ofNat _ moved⟩ }) ∨
      (region.playback.reverse = false ∧
        left = .audio { region with source := ⟨region.source.start, region.source.start + Fin.ofNat _ moved⟩ } ∧
        right = .audio { region with source := ⟨region.source.start + Fin.ofNat _ moved, region.source.stop⟩ })) := by
  simp only [splitContent, bind_ok] at done
  obtain ⟨-, -, moved, mapped, done⟩ := done
  refine ⟨moved, mapped, ?_⟩
  split at done
  · rename_i reverse
    cases done
    exact Or.inl ⟨reverse, rfl, rfl⟩
  · rename_i forward
    cases done
    exact Or.inr ⟨Bool.eq_false_iff.mpr forward, rfl, rfl⟩

theorem boundary_forward (ordered : range.start ≤ range.stop)
    (within : moved ≤ range.len) :
    (range.start + Fin.ofNat 0x10000000000000000 moved).val = range.start.val + moved := by
  have length := len_of_ordered ordered
  unfold extent at length
  have := range.stop.isLt
  rw [val_add, val_ofNat, Nat.mod_eq_of_lt (by omega : moved < 0x10000000000000000)]
  exact Nat.mod_eq_of_lt (by omega)

theorem boundary_reverse (ordered : range.start ≤ range.stop)
    (within : moved ≤ range.len) :
    (range.stop - Fin.ofNat 0x10000000000000000 moved).val + moved = range.stop.val := by
  have length := len_of_ordered ordered
  unfold extent at length
  have := range.stop.isLt
  have small : (Fin.ofNat 0x10000000000000000 moved).val = moved := by
    rw [val_ofNat]
    exact Nat.mod_eq_of_lt (by omega)
  rw [sub_val_of_le (by rw [le_def, small]; omega), small]
  omega

def ClipContent.Reaches (content : ClipContent) (delta : U64) : Prop :=
  ∀ region, content = .audio region → region.source.start ≤ region.source.stop ∧
    ∀ moved, region.playback.ratio.sourceOffset delta.val = .ok moved → moved ≤ region.source.len

theorem splitContent_right (proportional : content.Proportional)
    (reaches : content.Reaches delta) (done : splitContent delta content = .ok (left, right)) (offset : ℚ) :
    right.coordinate offset = content.coordinate (offset + delta.val) := by
  cases content with
  | audio region =>
    obtain ⟨moved, mapped, halves⟩ := splitContent_audio done
    have value := sourceOffset_value (proportional region rfl) mapped
    obtain ⟨ordered, within⟩ := reaches region rfl
    rcases halves with ⟨reverse, -, rfl⟩ | ⟨forward, -, rfl⟩
    · have boundary := boundary_reverse ordered (within moved mapped)
      simp only [coordinate, reverse, if_true, ← boundary, Nat.cast_add, value]
      ring
    · have boundary := boundary_forward ordered (within moved mapped)
      simp only [coordinate, forward, Bool.false_eq_true, if_false, boundary, Nat.cast_add, value]
      ring
  | pattern region =>
    obtain ⟨moved, advanced, done⟩ := bind_ok.mp done
    cases done
    exact advanceContent_coordinate proportional advanced offset
  | automation region =>
    obtain ⟨moved, advanced, done⟩ := bind_ok.mp done
    cases done
    exact advanceContent_coordinate proportional advanced offset

theorem splitFadeIn_sum (leftLen : U64) (fade : Option Fade) :
    fadeFrames (cutFade (splitFadeIn leftLen) fade).1 + fadeFrames (cutFade (splitFadeIn leftLen) fade).2 =
      fadeFrames fade := by
  cases fade with
  | none => rfl
  | some fade =>
    change fadeFrames (splitFadeIn leftLen fade).1 + fadeFrames (splitFadeIn leftLen fade).2 = fade.duration.val
    unfold splitFadeIn
    split
    · rfl
    · rename_i long
      have later := (not_le.mp long).le
      change leftLen.val + (fade.duration - leftLen).val = fade.duration.val
      rw [sub_val_of_le later]
      have := le_def.mp later
      omega

theorem splitFadeOut_sum {total leftLen : U64} (inside : leftLen ≤ total) {fade : Option Fade}
    (fits : fadeFrames fade ≤ total.val) :
    fadeFrames (cutFade (splitFadeOut total leftLen) fade).1 +
      fadeFrames (cutFade (splitFadeOut total leftLen) fade).2 = fadeFrames fade := by
  cases fade with
  | none => rfl
  | some fade =>
    change fade.duration.val ≤ total.val at fits
    change fadeFrames (splitFadeOut total leftLen fade).1 + fadeFrames (splitFadeOut total leftLen fade).2 =
      fade.duration.val
    have start : (total - fade.duration).val = total.val - fade.duration.val := sub_val_of_le fits
    have rest : (total - leftLen).val = total.val - leftLen.val := sub_val_of_le inside
    dsimp only [splitFadeOut]
    split
    · exact Nat.zero_add _
    · rename_i late
      rw [not_le, lt_def, start] at late
      change (fade.duration - (total - leftLen)).val + (total - leftLen).val = fade.duration.val
      rw [sub_val_of_le (by rw [le_def, rest]; omega), rest]
      omega

namespace ArrangementState

variable {clip : Clip} {id : ClipId} {state : ArrangementState}

section

variable (valid : Valid state) (held : state.clips[id]? = some clip)
include valid held

theorem Valid.mapped : clip.Mapped := by
  intro region audio
  have checked := valid.content held
  rw [audio] at checked
  rw [validateContent, validateAudio, bind_unit_ok, bind_ok] at checked
  obtain ⟨-, mapped, offset, later⟩ := checked
  rw [bind_unit_ok, ensure_ok] at later
  rw [← later.1]
  exact offset

theorem Valid.proportional : clip.content.Proportional :=
  fun _ audio => (valid.sourceLength held audio).2.1

theorem Valid.fades :
    fadeFrames clip.fades.fadeIn ≤ clip.placement.len ∧ fadeFrames clip.fades.fadeOut ≤ clip.placement.len := by
  have checked := valid.clips id clip held
  unfold validateClip at checked
  split at checked
  · cases checked
  · simp only [bind_unit_ok, validateFades, forM_ok] at checked
    have fits : ∀ fade ∈ clip.fades.fadeIn.toList ++ clip.fades.fadeOut.toList,
        fade.duration.val ≤ clip.placement.len := by
      intro fade listed
      have sound := checked.2.2.2.1 fade listed
      rw [validateFade, ensure_ok] at sound
      exact sound.2.1
    constructor
    · cases edge : clip.fades.fadeIn with
      | none => exact Nat.zero_le _
      | some fade => exact fits fade (by simp [edge])
    · cases edge : clip.fades.fadeOut with
      | none => exact Nat.zero_le _
      | some fade => exact fits fade (by simp [edge])

end

theorem Valid.continues (valid : Valid state) {part : Clip}
    (held : state.clips[id]? = some part) (ordered : part.placement.start ≤ part.placement.stop)
    (within : ∀ frame, part.placement.contains frame → clip.placement.contains frame)
    (reads : ∀ frame, part.placement.contains frame → part.reads frame = clip.reads frame) : part.Continues clip := by
  have length := len_val ordered
  have fades := valid.fades held
  refine ⟨within, reads, valid.mapped held, ?_, ?_⟩
  · have := fades.1
    omega
  · have := fades.2
    omega

theorem editableClip_ok
    (done : state.editableClip id = .ok clip) : state.clips[id]? = some clip := by
  rw [editableClip, bind_ok] at done
  obtain ⟨found, required, done⟩ := done
  simp only [bind_ok] at done
  obtain ⟨-, -, track, -, -, -, done⟩ := done
  cases done
  unfold requireClip at required
  split at required
  · rename_i held
    cases required
    exact held
  · cases required

theorem allocateClipId_ok (done : state.allocateClipId = .ok id) :
    id = ⟨state.nextClipId⟩ := by
  unfold allocateClipId at done
  split at done
  · cases done
    rfl
  · cases done

theorem Valid.fresh (valid : Valid state) : state.clips[(⟨state.nextClipId⟩ : ClipId)]? = none := by
  cases held : state.clips[(⟨state.nextClipId⟩ : ClipId)]? with
  | none => rfl
  | some clip =>
    have below := (valid.clipIds _ ((mem_keys_iff _ _).mpr ⟨clip, held⟩)).2
    exact absurd below (lt_irrefl _)

variable {operations : List ArrangementOperation} {result : ArrangementState}

theorem commit_clips
    (done : state.commit operations = .ok result) (id : ClipId) :
    result.clips[id]? = writes (puts operations) state.content (.clip id) := by
  obtain ⟨edited, effect, rfl, -⟩ := commit_ok done
  exact congrFun effect.content (.clip id)

theorem commit_valid
    (done : state.commit operations = .ok result) : Valid result := by
  obtain ⟨edited, -, -, valid⟩ := commit_ok done
  exact valid

end ArrangementState

open ArrangementState

/-- A trim that keeps the content in place: one clip is left of the clip, over the new placement, and no other
    clip is touched. -/
structure KeepsTrimmed (state edited : ArrangementState) (id : ClipId) (clip : Clip) (placement : FrameRange) : Prop where
  part : ∃ part : Clip, edited.clips[id]? = some part ∧ part.placement = placement ∧ part.Continues clip
  others : ∀ other : ClipId, other ≠ id → edited.clips[other]? = state.clips[other]?

structure KeepsSplit (state edited : ArrangementState) (id rightId : ClipId) (clip : Clip) (boundary : Frame) : Prop where
  parts : ∃ left right : Clip, edited.clips[id]? = some left ∧ edited.clips[rightId]? = some right ∧
    left.placement = ⟨clip.placement.start, boundary⟩ ∧ right.placement = ⟨boundary, clip.placement.stop⟩ ∧
    left.Divides right clip
  fresh : state.clips[rightId]? = none
  others : ∀ other : ClipId, other ≠ id → other ≠ rightId → edited.clips[other]? = state.clips[other]?

namespace ArrangementEditor

theorem apply_accepted {editor edited : ArrangementEditor} {transaction : ArrangementTransaction} {revision : U64}
    (accepted : editor.apply transaction = (edited, .ok revision)) :
    transaction.isNoop = true ∧ edited = editor ∨
      transaction.isNoop = false ∧ editor.state.commit transaction.operations = .ok edited.state := by
  cases change : transaction.isNoop with
  | false => exact Or.inr ⟨rfl, (apply_change accepted change).1⟩
  | true =>
    left
    unfold apply at accepted
    rw [change] at accepted
    split at accepted
    · cases accepted
    · cases accepted
      exact ⟨rfl, rfl⟩

variable {editor edited : ArrangementEditor} {id : ClipId} {before after : Clip}

theorem replaceClip_ok {label : String} (valid : Valid editor.state) (held : editor.state.clips[id]? = some before)
    (done : editor.replaceClip label before after = (edited, .ok ())) :
    Valid edited.state ∧ (∀ other : ClipId, other ≠ id → edited.state.clips[other]? = editor.state.clips[other]?) ∧
      (edited.state.clips[id]? = some after ∨ edited.state.clips[id]? = some before ∧ (before == after) = true) := by
  have filed := valid.clipsFiled id before held
  unfold replaceClip at done
  cases applied : editor.apply ⟨label, [.putClip (some before) (some after)]⟩ with
  | mk result outcome =>
    simp only [applied, Prod.mk.injEq] at done
    obtain ⟨rfl, finished⟩ := done
    cases outcome with
    | error stop => cases finished
    | ok revision =>
      rcases apply_accepted applied with ⟨noop, rfl⟩ | ⟨-, committed⟩
      · refine ⟨valid, fun _ _ => rfl, Or.inr ⟨held, ?_⟩⟩
        simpa [ArrangementTransaction.isNoop, ArrangementOperation.isNoop] using noop
      · have stored : puts [.putClip (some before) (some after)] = [⟨.clip id, some before, some after⟩] := by
          rw [← filed]
          rfl
        refine ⟨commit_valid committed, fun other different => ?_, Or.inl ?_⟩
        · rw [commit_clips committed, stored, writes_cons, writes_nil, write_other _ _ (by simpa using different)]
          rfl
        · rw [commit_clips committed, stored, writes_cons, writes_nil]
          exact write_key _ _

variable {newStart newEnd : Frame} {state : ArrangementState} {clip : Clip}

theorem trimLeft_ok (done : editor.trimLeft id newStart = (edited, .ok ())) :
    ∃ before after, editor.state.trimmedLeft id newStart = .ok (before, after) ∧
      editor.replaceClip "Trim clip left" before after = (edited, .ok ()) := by
  unfold trimLeft at done
  split at done
  · cases done
  · rename_i before after trimmed
    exact ⟨before, after, trimmed, done⟩

theorem trimRight_ok (done : editor.trimRight id newEnd = (edited, .ok ())) :
    ∃ before after, editor.state.trimmedRight id newEnd = .ok (before, after) ∧
      editor.replaceClip "Trim clip right" before after = (edited, .ok ()) := by
  unfold trimRight at done
  split at done
  · cases done
  · rename_i before after trimmed
    exact ⟨before, after, trimmed, done⟩

theorem trimmedLeft_ok
    (done : state.trimmedLeft id newStart = .ok (before, after)) :
    state.clips[id]? = some before ∧ before.placement.start ≤ newStart ∧ newStart < before.placement.stop ∧
      after.placement = ⟨newStart, before.placement.stop⟩ ∧
      advanceContent (framesBetween before.placement.start newStart) before.content = .ok after.content := by
  rw [trimmedLeft, bind_ok] at done
  obtain ⟨found, editable, done⟩ := done
  rw [bind_unit_ok, ensure_ok, bind_ok] at done
  obtain ⟨inside, content, advanced, done⟩ := done
  cases done
  push Not at inside
  exact ⟨editableClip_ok editable, inside.1, inside.2, rfl, advanced⟩

theorem trimmedRight_ok
    (done : state.trimmedRight id newEnd = .ok (before, after)) :
    state.clips[id]? = some before ∧ before.placement.start < newEnd ∧ newEnd ≤ before.placement.stop ∧
      after.placement = ⟨before.placement.start, newEnd⟩ ∧
      retreatContentEnd (framesBetween newEnd before.placement.stop) before.content = .ok after.content := by
  rw [trimmedRight, bind_ok] at done
  obtain ⟨found, editable, done⟩ := done
  rw [bind_unit_ok, ensure_ok, bind_ok] at done
  obtain ⟨inside, content, retreated, done⟩ := done
  cases done
  push Not at inside
  exact ⟨editableClip_ok editable, inside.1, inside.2, rfl, retreated⟩

theorem audio_delta_exact {region : AudioRegion} {content : ClipContent} {first last : Frame} {placement : FrameRange}
    (ordered : first ≤ last) (covers : placement.start ≤ placement.stop)
    (length : region.source.len * region.playback.ratio.projectFrames.val =
      placement.len * region.playback.ratio.sourceFrames.val)
    (positive : region.playback.ratio.projectFrames ≠ 0)
    (done : advanceContent (framesBetween first last) (.audio region) = .ok content) :
    ((framesBetween first last).val : Int) = last.val - first.val := by
  simp only [advanceContent, bind_ok] at done
  obtain ⟨-, -, moved, mapped, _, checked, -⟩ := done
  have shorter := ensure_ok.mp checked
  have offset := sourceOffset_ok mapped
  have denominator : 0 < region.playback.ratio.projectFrames.val := pos_iff_ne_zero.mpr positive
  -- fewer source frames are passed over than there are, so fewer project frames than are measured
  have fewer : (framesBetween first last).val < placement.len := by
    by_contra reached
    push Not at reached
    have scaled := Nat.mul_le_mul_right region.playback.ratio.sourceFrames.val reached
    rw [← length, ← offset] at scaled
    exact absurd (Nat.le_of_mul_le_mul_right scaled denominator) (not_le.mpr shorter)
  have measured := framesBetween_val ordered
  have limit := len_val covers
  omega

section

variable (valid : Valid editor.state) (held : editor.state.clips[id]? = some clip)
include valid held

theorem continues_self
    (covers : clip.placement.start ≤ clip.placement.stop) : clip.Continues clip :=
  valid.continues held covers (fun _ inside => inside) fun _ _ => rfl

theorem trimLeft_keeps_iff (done : editor.trimLeft id newStart = (edited, .ok ())) :
    KeepsTrimmed editor.state edited.state id clip ⟨newStart, clip.placement.stop⟩ ↔ clip.TrimsExactly newStart := by
  obtain ⟨before, after, trimmed, replaced⟩ := trimLeft_ok done
  obtain ⟨found, ordered, inside, placement, advanced⟩ := trimmedLeft_ok trimmed
  obtain rfl : clip = before := some.inj (held.symm.trans found)
  obtain ⟨revalid, others, stored⟩ := replaceClip_ok valid held replaced
  have covers : clip.placement.start ≤ clip.placement.stop := ordered.trans inside.le
  have measured := framesBetween_val ordered
  have moves : ∀ offset, after.content.coordinate offset =
      clip.content.coordinate (offset + (framesBetween clip.placement.start newStart).val) :=
    advanceContent_coordinate (valid.proportional held) advanced
  constructor
  · rintro ⟨⟨part, held', placed, continues⟩, -⟩ silent
    rcases stored with changed | ⟨-, same⟩
    · obtain rfl : after = part := some.inj (changed.symm.trans held')
      have reads := continues.reads newStart (by rw [placement]; exact ⟨le_rfl, inside⟩)
      rw [Clip.reads, Clip.reads, moves, placement] at reads
      have counted := coordinate_injective silent reads
      rw [sub_self, zero_add] at counted
      have exact : ((framesBetween clip.placement.start newStart).val : Int) = newStart.val - clip.placement.start.val := by
        exact_mod_cast counted
      omega
    · have still : clip.placement = ⟨newStart, clip.placement.stop⟩ :=
        ((Clip.beq_iff _ _).mp same).2.2.2.1.trans placement
      have start : clip.placement.start = newStart := congrArg FrameRange.start still
      rw [start]
      omega
  · intro exact
    have counted : ((framesBetween clip.placement.start newStart).val : Int) =
        newStart.val - clip.placement.start.val := by
      by_cases silent : clip.Silent
      · have := exact silent
        omega
      · unfold Clip.Silent at silent
        push Not at silent
        obtain ⟨region, content⟩ := silent
        obtain ⟨-, positive, length⟩ := valid.sourceLength held content
        rw [content] at advanced
        exact audio_delta_exact ordered covers length positive advanced
    refine ⟨?_, others⟩
    rcases stored with changed | ⟨still, same⟩
    · refine ⟨after, changed, placement, revalid.continues changed ?_ ?_ ?_⟩
      · rw [placement]
        exact inside.le
      · rw [placement]
        rintro frame ⟨late, early⟩
        exact ⟨ordered.trans late, early⟩
      · intro frame _
        rw [Clip.reads, Clip.reads, moves, placement]
        congr 1
        have rational : ((framesBetween clip.placement.start newStart).val : ℚ) =
            newStart.val - clip.placement.start.val := by exact_mod_cast counted
        rw [rational]
        ring
    · have placed := ((Clip.beq_iff _ _).mp same).2.2.2.1.trans placement
      exact ⟨clip, still, placed, continues_self valid held covers⟩

theorem trimRight_keeps (done : editor.trimRight id newEnd = (edited, .ok ())) :
    KeepsTrimmed editor.state edited.state id clip ⟨clip.placement.start, newEnd⟩ := by
  obtain ⟨before, after, trimmed, replaced⟩ := trimRight_ok done
  obtain ⟨found, inside, ordered, placement, retreated⟩ := trimmedRight_ok trimmed
  obtain rfl : clip = before := some.inj (held.symm.trans found)
  obtain ⟨revalid, others, stored⟩ := replaceClip_ok valid held replaced
  refine ⟨?_, others⟩
  rcases stored with changed | ⟨still, same⟩
  · refine ⟨after, changed, placement, revalid.continues changed ?_ ?_ ?_⟩
    · rw [placement]
      exact inside.le
    · rw [placement]
      rintro frame ⟨late, early⟩
      exact ⟨late, early.trans_le ordered⟩
    · intro frame _
      rw [Clip.reads, Clip.reads, retreatContentEnd_coordinate retreated, placement]
  · have placed := ((Clip.beq_iff _ _).mp same).2.2.2.1.trans placement
    exact ⟨clip, still, placed, continues_self valid held (inside.le.trans ordered)⟩

end

variable {boundary : Frame}

theorem splitClip_ok {rightId : ClipId} (done : editor.splitClip id boundary = (edited, .ok rightId)) :
    ∃ before left right revision, editor.state.halves id boundary = .ok (before, left, right) ∧ right.id = rightId ∧
      editor.apply ⟨"Split clip", [.putClip (some before) (some left), .putClip none (some right)]⟩ =
        (edited, .ok revision) := by
  unfold splitClip at done
  split at done
  · cases done
  · rename_i before left right cut
    cases applied : editor.apply ⟨"Split clip", [.putClip (some before) (some left), .putClip none (some right)]⟩ with
    | mk result outcome =>
      simp only [applied, Prod.mk.injEq] at done
      obtain ⟨rfl, finished⟩ := done
      cases outcome with
      | error stop => cases finished
      | ok revision =>
        cases finished
        exact ⟨before, left, right, revision, cut, rfl, applied⟩

structure Halves (state : ArrangementState) (clip left right : Clip) (boundary : Frame) : Prop where
  after : clip.placement.start < boundary
  before : boundary < clip.placement.stop
  fresh : right.id = ⟨state.nextClipId⟩
  first : left.placement = ⟨clip.placement.start, boundary⟩
  second : right.placement = ⟨boundary, clip.placement.stop⟩
  contents : splitContent (framesBetween clip.placement.start boundary) clip.content = .ok (left.content, right.content)
  fades : (left.fades, right.fades) =
    splitFades clip.fades clip.placement.measured (framesBetween clip.placement.start boundary)

theorem halves_ok {left right : Clip}
    (done : state.halves id boundary = .ok (before, left, right)) :
    state.clips[id]? = some before ∧ Halves state before left right boundary := by
  rw [halves, bind_ok] at done
  obtain ⟨found, editable, done⟩ := done
  rw [bind_unit_ok, ensure_ok, bind_ok] at done
  obtain ⟨inside, rightId, allocated, done⟩ := done
  rw [bind_ok] at done
  obtain ⟨contents, cut, done⟩ := done
  cases done
  push Not at inside
  exact ⟨editableClip_ok editable, lt_of_le_of_ne inside.1.1 inside.2.symm, inside.1.2, allocateClipId_ok allocated,
    rfl, rfl, cut, rfl⟩

end ArrangementEditor

/-- Two ranges meeting at a boundary inside a third, in the order they are played. -/
structure Meet (reverse : Bool) (first second whole : SourceRange) : Prop where
  touching : if reverse then second.stop = first.start else first.stop = second.start
  outer : if reverse then first.stop = whole.stop ∧ second.start = whole.start
    else first.start = whole.start ∧ second.stop = whole.stop

theorem splitContent_lengths
    (done : splitContent delta (.audio region) = .ok (left, right)) :
    ∃ moved first second, region.playback.ratio.sourceOffset delta.val = .ok moved ∧
      left = .audio { region with source := first } ∧ right = .audio { region with source := second } ∧
      Meet region.playback.reverse first second region.source ∧
      (moved ≤ region.source.len → first.len = moved ∧ second.len + moved = region.source.len) := by
  obtain ⟨moved, mapped, halves⟩ := splitContent_audio done
  have low := region.source.start.isLt
  have high := region.source.stop.isLt
  rcases halves with ⟨reverse, rfl, rfl⟩ | ⟨forward, rfl, rfl⟩
  · refine ⟨moved, _, _, mapped, rfl, rfl, ⟨by simp [reverse], by simp [reverse]⟩, fun within => ?_⟩
    simp only [len, Fin.sub_def, Fin.val_ofNat] at within ⊢
    omega
  · refine ⟨moved, _, _, mapped, rfl, rfl, ⟨by simp [forward], by simp [forward]⟩, fun within => ?_⟩
    simp only [len, Fin.sub_def, Fin.add_def, Fin.val_ofNat] at within ⊢
    omega

theorem adjoins_iff {reverse : Bool} {first second whole : SourceRange} (meet : Meet reverse first second whole)
    (sum : first.len + second.len = whole.len) (left : first.len ≠ 0) (right : second.len ≠ 0) :
    Clip.Adjoins reverse first second whole ↔ whole.start ≤ whole.stop := by
  obtain ⟨⟨a⟩, ⟨b⟩⟩ := first
  obtain ⟨⟨c⟩, ⟨d⟩⟩ := second
  obtain ⟨⟨e⟩, ⟨f⟩⟩ := whole
  obtain ⟨touching, outer⟩ := meet
  simp only [len, sub_def] at sum left right
  constructor
  · rintro ⟨-, union⟩
    rw [le_def]
    by_contra wrapped
    have early := union a
    have late := union c
    simp only [contains] at early late
    cases reverse <;> simp at touching outer wrapped <;> omega
  · intro ordered
    refine ⟨touching, fun frame => ?_⟩
    rw [le_def] at ordered
    cases reverse <;> simp [contains] at touching outer ordered ⊢ <;> omega

namespace ArrangementEditor

variable {editor edited : ArrangementEditor} {id : ClipId} {boundary : Frame} {clip left right : Clip}

structure Stored (state edited : ArrangementState) (id : ClipId) (clip left right : Clip) (boundary : Frame) : Prop where
  halves : Halves state clip left right boundary
  valid : Valid edited
  first : edited.clips[id]? = some left
  second : edited.clips[right.id]? = some right
  others : ∀ other : ClipId, other ≠ id → other ≠ right.id → edited.clips[other]? = state.clips[other]?

theorem splitClip_stored {rightId : ClipId} (valid : Valid editor.state) (held : editor.state.clips[id]? = some clip)
    (done : editor.splitClip id boundary = (edited, .ok rightId)) :
    ∃ left right, right.id = rightId ∧ Stored editor.state edited.state id clip left right boundary := by
  obtain ⟨before, left, right, revision, cut, named, applied⟩ := splitClip_ok done
  obtain ⟨found, halves⟩ := halves_ok cut
  obtain rfl : clip = before := some.inj (held.symm.trans found)
  have filed := valid.clipsFiled id clip held
  have apart : right.id ≠ id := by
    intro same
    have absent := valid.fresh
    rw [← halves.fresh, same, held] at absent
    cases absent
  have stored : puts [.putClip (some clip) (some left), .putClip none (some right)] =
      [⟨.clip id, some clip, some left⟩, ⟨.clip right.id, none, some right⟩] := by
    rw [← filed]
    rfl
  rcases apply_accepted applied with ⟨noop, -⟩ | ⟨-, committed⟩
  · simp [ArrangementTransaction.isNoop, ArrangementOperation.isNoop] at noop
  · refine ⟨left, right, named, halves, commit_valid committed, ?_, ?_, fun other different new => ?_⟩
    · rw [commit_clips committed, stored, writes_cons, writes_cons, writes_nil,
        write_other _ _ (by simpa using apart.symm)]
      exact write_key _ _
    · rw [commit_clips committed, stored, writes_cons, writes_cons, writes_nil]
      exact write_key _ _
    · rw [commit_clips committed, stored, writes_cons, writes_cons, writes_nil, write_other _ _ (by simpa using new),
        write_other _ _ (by simpa using different)]
      rfl

namespace Stored

variable {state result : ArrangementState} (stored : Stored state result id clip left right boundary)

include stored

theorem measured_le : framesBetween clip.placement.start boundary ≤ clip.placement.measured := by
  have part := framesBetween_val stored.halves.after.le
  have whole := framesBetween_val (stored.halves.after.trans stored.halves.before).le
  have early := (I64.lt_iff _ _).mp stored.halves.before
  rw [le_def]
  change (framesBetween _ _).val ≤ (framesBetween clip.placement.start clip.placement.stop).val
  omega

theorem audio (valid : Valid state) (held : state.clips[id]? = some clip) {region : AudioRegion}
    (content : clip.content = .audio region) :
    ∃ moved first second, region.playback.ratio.sourceOffset (framesBetween clip.placement.start boundary).val = .ok moved ∧
      moved ≤ region.source.len ∧ left.content = .audio { region with source := first } ∧
      right.content = .audio { region with source := second } ∧
      Meet region.playback.reverse first second region.source ∧ first.len + second.len = region.source.len ∧
      first.len ≠ 0 ∧ second.len ≠ 0 ∧
      ((framesBetween clip.placement.start boundary).val : Int) = boundary.val - clip.placement.start.val := by
  have contents := stored.halves.contents
  rw [content] at contents
  obtain ⟨moved, first, second, mapped, leftContent, rightContent, meet, lengths⟩ := splitContent_lengths contents
  obtain ⟨source, project, whole⟩ := valid.sourceLength held content
  have numerator : 0 < region.playback.ratio.sourceFrames.val := pos_iff_ne_zero.mpr source
  have denominator : 0 < region.playback.ratio.projectFrames.val := pos_iff_ne_zero.mpr project
  have offset := sourceOffset_ok mapped
  have part := framesBetween_val stored.halves.after.le
  have after := (I64.lt_iff _ _).mp stored.halves.after
  have within : moved ≤ region.source.len := by
    refine Nat.le_of_mul_le_mul_right ?_ denominator
    rw [offset, whole, ← FrameRange.measured_val]
    exact Nat.mul_le_mul_right _ (le_def.mp stored.measured_le)
  obtain ⟨firstLen, sum⟩ := lengths within
  obtain ⟨-, -, rest⟩ := stored.valid.sourceLength stored.second rightContent
  have tail : (framesBetween boundary clip.placement.stop).val = right.placement.len := by
    rw [stored.halves.second]
    rfl
  have tailVal := framesBetween_val stored.halves.before.le
  have before := (I64.lt_iff _ _).mp stored.halves.before
  have whole' := framesBetween_val (stored.halves.after.trans stored.halves.before).le
  have placements : right.placement.len + (framesBetween clip.placement.start boundary).val = clip.placement.len := by
    refine Nat.eq_of_mul_eq_mul_right numerator ?_
    rw [add_mul, ← whole, ← sum, add_mul, offset, rest]
  change ((clip.placement.len : Nat) : Int) = _ at whole'
  have firstPositive : first.len ≠ 0 := by
    rw [firstLen]
    rintro rfl
    rw [zero_mul, eq_comm, mul_eq_zero] at offset
    omega
  have secondPositive : second.len ≠ 0 := by
    intro zero
    rw [zero, zero_mul, eq_comm, mul_eq_zero] at rest
    rcases rest with none | none
    · omega
    · exact numerator.ne' none
  refine ⟨moved, first, second, mapped, within, leftContent, rightContent, meet, by omega, firstPositive,
    secondPositive, by omega⟩

theorem keeps_iff (valid : Valid state) (held : state.clips[id]? = some clip) :
    KeepsSplit state result id right.id clip boundary ↔ clip.SplitsExactly boundary := by
  obtain ⟨after, before, fresh, first, second, contents, fades⟩ := stored.halves
  have early := (I64.lt_iff _ _).mp after
  have part := framesBetween_val after.le
  constructor
  · rintro ⟨⟨left', right', held', heldRight, -, -, divides⟩, -, -⟩
    obtain rfl : left = left' := some.inj (stored.first.symm.trans held')
    obtain rfl : right = right' := some.inj (stored.second.symm.trans heldRight)
    constructor
    · intro region content
      obtain ⟨moved, source, source', -, -, leftContent, rightContent, meet, sum, positive, positive', -⟩ :=
        stored.audio valid held content
      obtain ⟨found, found', leftFound, rightFound, adjoins⟩ := divides.sources region content
      rw [leftContent] at leftFound
      rw [rightContent] at rightFound
      cases leftFound
      cases rightFound
      exact (adjoins_iff meet sum positive positive').mp adjoins
    · intro silent
      have reads := divides.rightPart.reads boundary (by rw [second]; exact ⟨le_rfl, before⟩)
      have moves := splitContent_right (valid.proportional held) (fun region content => absurd content (silent region))
        contents
      rw [Clip.reads, Clip.reads, moves, second] at reads
      have counted := coordinate_injective silent reads
      rw [sub_self, zero_add] at counted
      have exact : ((framesBetween clip.placement.start boundary).val : Int) =
          boundary.val - clip.placement.start.val := by exact_mod_cast counted
      omega
  · rintro ⟨ordered, counts⟩
    have counted : ((framesBetween clip.placement.start boundary).val : Int) =
        boundary.val - clip.placement.start.val := by
      by_cases silent : clip.Silent
      · have := counts silent
        omega
      · unfold Clip.Silent at silent
        push Not at silent
        obtain ⟨region, content⟩ := silent
        obtain ⟨-, -, -, -, -, -, -, -, -, -, -, exact⟩ := stored.audio valid held content
        exact exact
    have rational : ((framesBetween clip.placement.start boundary).val : ℚ) =
        boundary.val - clip.placement.start.val := by exact_mod_cast counted
    have reaches : clip.content.Reaches (framesBetween clip.placement.start boundary) := by
      intro region content
      obtain ⟨moved, -, -, mapped, within, -⟩ := stored.audio valid held content
      refine ⟨ordered region content, fun other same => ?_⟩
      rw [mapped] at same
      cases same
      exact within
    have cut := fades
    simp only [splitFades, Prod.mk.injEq] at cut
    obtain ⟨leftFades, rightFades⟩ := cut
    refine ⟨⟨left, right, stored.first, stored.second, first, second, ?_⟩, fresh ▸ valid.fresh, stored.others⟩
    refine ⟨?_, ?_, ?_, ?_, ?_, ?_⟩
    · refine stored.valid.continues stored.first ?_ ?_ ?_
      · rw [first]
        exact after.le
      · rw [first]
        rintro frame ⟨late, inside⟩
        exact ⟨late, inside.trans before⟩
      · intro frame _
        rw [Clip.reads, Clip.reads, splitContent_left contents, first]
    · refine stored.valid.continues stored.second ?_ ?_ ?_
      · rw [second]
        exact before.le
      · rw [second]
        rintro frame ⟨late, inside⟩
        exact ⟨after.le.trans late, inside⟩
      · intro frame _
        rw [Clip.reads, Clip.reads, splitContent_right (valid.proportional held) reaches contents, second, rational]
        congr 1
        ring
    · rintro frame ⟨late, inside⟩
      rw [first, second]
      simp [FrameRange.contains, late, inside]
    · intro region content
      obtain ⟨moved, source, source', -, -, leftContent, rightContent, meet, sum, positive, positive', -⟩ :=
        stored.audio valid held content
      exact ⟨_, _, leftContent, rightContent, (adjoins_iff meet sum positive positive').mpr (ordered region content)⟩
    · rw [leftFades, rightFades]
      exact splitFadeIn_sum _ _
    · rw [leftFades, rightFades]
      exact splitFadeOut_sum stored.measured_le (valid.fades held).2

end Stored

/-- Trims and splits keep the content in place exactly when the frames they pass over are counted without
    saturation, or, in audio, when a split source is not reversed; a trim of the right edge always does. -/
theorem cuts_keep_content_iff (editor : ArrangementEditor) (id : ClipId) (clip : Clip)
    (valid : editor.state.validate = .ok ()) (held : editor.state.clips[id]? = some clip) :
    (∀ newStart edited, editor.trimLeft id newStart = (edited, .ok ()) →
      (KeepsTrimmed editor.state edited.state id clip ⟨newStart, clip.placement.stop⟩ ↔ clip.TrimsExactly newStart)) ∧
    (∀ newEnd edited, editor.trimRight id newEnd = (edited, .ok ()) →
      KeepsTrimmed editor.state edited.state id clip ⟨clip.placement.start, newEnd⟩) ∧
    ∀ boundary edited rightId, editor.splitClip id boundary = (edited, .ok rightId) →
      (KeepsSplit editor.state edited.state id rightId clip boundary ↔ clip.SplitsExactly boundary) := by
  rw [validate_ok_iff] at valid
  refine ⟨fun newStart edited done => trimLeft_keeps_iff valid held done,
    fun newEnd edited done => trimRight_keeps valid held done, fun boundary edited rightId done => ?_⟩
  obtain ⟨left, right, rfl, stored⟩ := splitClip_stored valid held done
  exact stored.keeps_iff valid held

end ArrangementEditor

def frameAt (value : Int) : Frame := I64.saturate value

def fourFrames : FrameRange := ⟨frameAt 0, frameAt 4⟩

def allFrames : FrameRange := ⟨frameAt (-0x8000000000000000), frameAt 0x7fffffffffffffff⟩

section

variable (placement : FrameRange)

def editorOver : ArrangementEditor := .opened (withClip placement)

def patternClip : Clip where
  id := ⟨1⟩
  trackId := ⟨1⟩
  name := "Clip"
  placement := placement
  content := .pattern { pattern := ⟨1⟩, contentOffsetFrames := 0, looped := false }
  fades := { fadeIn := none, fadeOut := none }
  gainDb := 0
  muted := false
  locked := false

theorem patternClip_silent : (patternClip placement).Silent := fun _ => nofun

end

theorem four_frames_split_kept :
    KeepsSplit (editorOver fourFrames).state ((editorOver fourFrames).splitClip ⟨1⟩ (frameAt 2)).1.state ⟨1⟩ ⟨2⟩
      (patternClip fourFrames) (frameAt 2) := by
  have cuts := ArrangementEditor.cuts_keep_content_iff (editorOver fourFrames) ⟨1⟩ (patternClip fourFrames) (by decide)
    (by rfl)
  refine (cuts.2.2 (frameAt 2) _ ⟨2⟩ (Prod.ext rfl (by rfl))).mpr ⟨fun region => nofun, fun _ => by decide⟩

/-- A clip of more than the greatest signed number of frames is cut at a distance that is not the one measured: its
    right part, and what a trim leaves, start reading before the frame they stand at. -/
theorem all_frames_misread :
    (editorOver allFrames).state.validate = .ok () ∧
      ((editorOver allFrames).splitClip ⟨1⟩ (frameAt 1)).2 = .ok ⟨2⟩ ∧
      ¬ KeepsSplit (editorOver allFrames).state ((editorOver allFrames).splitClip ⟨1⟩ (frameAt 1)).1.state ⟨1⟩ ⟨2⟩
        (patternClip allFrames) (frameAt 1) ∧
      ((editorOver allFrames).trimLeft ⟨1⟩ (frameAt 1)).2 = .ok () ∧
      ¬ KeepsTrimmed (editorOver allFrames).state ((editorOver allFrames).trimLeft ⟨1⟩ (frameAt 1)).1.state ⟨1⟩
        (patternClip allFrames) ⟨frameAt 1, allFrames.stop⟩ := by
  have accepted : (editorOver allFrames).state.validate = .ok () := by decide
  have valid := (validate_ok_iff _).mp accepted
  have held : (editorOver allFrames).state.clips[(⟨1⟩ : ClipId)]? = some (patternClip allFrames) := by rfl
  have far : ¬ (frameAt 1).val - (patternClip allFrames).placement.start.val < 0x8000000000000000 := by decide
  have split : ((editorOver allFrames).splitClip ⟨1⟩ (frameAt 1)).2 = .ok ⟨2⟩ := by rfl
  have trimmed : ((editorOver allFrames).trimLeft ⟨1⟩ (frameAt 1)).2 = .ok () := by rfl
  refine ⟨accepted, split, fun keeps => ?_, trimmed, fun keeps => ?_⟩
  · obtain ⟨left, right, named, stored⟩ := ArrangementEditor.splitClip_stored valid held (Prod.ext rfl split)
    rw [← named] at keeps
    exact far (((stored.keeps_iff valid held).mp keeps).2 (patternClip_silent _))
  · have exact := (ArrangementEditor.trimLeft_keeps_iff valid held (Prod.ext rfl trimmed)).mp keeps
    exact far (exact (patternClip_silent _))

end Audec.Arrangement

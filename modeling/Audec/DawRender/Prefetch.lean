import Audec.DawRender.Demands

/-! Prefetched media: the demands of a window against everything that rendering it reads. -/

open Machine Checked List
open Std (ExtTreeMap)

namespace Audec.DawRender

open Arrangement CompiledAudioClip
open MediaBlockDemand (ranges)

variable {arrangement : ArrangementState} {schedule : RenderSchedule} {whole window : RenderWindow}
  {descriptors : AssetId → Option MediaAssetDescriptor}

theorem compileClip_mapped (valid : arrangement.Valid) {audible : Bool} {trackId : TrackId} {id : ClipId} {clip : Clip}
    (held : arrangement.clips[id]? = some clip) {compiled : CompiledAudioClip}
    (done : compileClip whole audible trackId clip = some compiled) : compiled.Mapped := by
  unfold compileClip at done
  split at done
  · cases done
  dsimp only at done
  split at done
  · cases done
  split at done
  next region content =>
    cases done
    obtain ⟨source, project, length⟩ := valid.sourceLength held content
    exact ⟨source, project, length⟩
  next => cases done

variable {clip : CompiledAudioClip} {demand : MediaBlockDemand} {descriptor : MediaAssetDescriptor}

theorem compileRenderSchedule_mapped (compiled : compileRenderSchedule arrangement whole = .ok schedule)
    (inside : clip ∈ schedule.audioClips) : clip.Mapped := by
  unfold compileRenderSchedule at compiled
  rw [bind_unit_ok, bind_unit_ok] at compiled
  obtain ⟨-, accepted, done⟩ := compiled
  have valid : arrangement.Valid := by
    rw [← ArrangementState.validate_ok_iff]
    cases checked : arrangement.validate with
    | ok _ => rfl
    | error _ =>
      rw [checked] at accepted
      cases accepted
  cases done
  rw [mem_insertionSort] at inside
  obtain ⟨trackId, -, inside⟩ := mem_flatMap.mp inside
  obtain ⟨track, -, inside⟩ := mem_flatMap.mp inside
  obtain ⟨source, placed, done⟩ := mem_filterMap.mp inside
  obtain ⟨id, -, held⟩ := mem_filterMap.mp placed
  exact compileClip_mapped valid held done

theorem described (admitted : mediaDiagnostics schedule descriptors = [])
    (inside : clip ∈ schedule.audioClips) (renderable : clip.renderable = true) :
    ∃ descriptor, descriptors clip.asset = some descriptor ∧ clip.sourceEnd ≤ descriptor.frameCount ∧
      validChannelMap clip.channels descriptor.format := by
  have silent := filterMap_eq_nil_iff.mp admitted clip (mem_filter.mpr ⟨inside, renderable⟩)
  split at silent
  · cases silent
  next descriptor found =>
    refine ⟨descriptor, found, ?_⟩
    rw [Option.map_eq_none_iff] at silent
    unfold invalidReason at silent
    split at silent
    · cases silent
    split at silent
    · cases silent
    next fits =>
      rw [not_or, not_lt, not_not] at fits
      exact fits

def AskedFor (schedule : RenderSchedule) (window : RenderWindow) (asset : AssetId) (frame : Nat) : Prop :=
  ∃ clip ∈ schedule.audioClips, clip.renderable = true ∧ clip.asset = asset ∧ clip.Asks window frame

def Demanded (demands : List MediaBlockDemand) (asset : AssetId) (frame : Nat) : Prop :=
  ∃ demand ∈ demands, demand.asset = asset ∧ demand.startFrame ≤ frame ∧ frame < demand.endFrame

def unmerged (schedule : RenderSchedule) (window : RenderWindow) : List MediaBlockDemand :=
  ((schedule.audioClips.filter fun clip => clip.renderable ∧ clip.placement.intersects window).flatMap
    (·.demandsFor window)).insertionSort fun a b => a.sortKey ≤ b.sortKey

theorem mem_unmerged : demand ∈ unmerged schedule window ↔
    ∃ clip ∈ schedule.audioClips, clip.renderable = true ∧ demand ∈ clip.demandsFor window := by
  unfold unmerged
  simp only [mem_insertionSort, mem_flatMap, mem_filter, decide_eq_true_eq]
  constructor
  · rintro ⟨clip, ⟨inside, renderable, -⟩, demanded⟩
    exact ⟨clip, inside, renderable, demanded⟩
  · rintro ⟨clip, inside, renderable, demanded⟩
    refine ⟨clip, ⟨inside, renderable, ?_⟩, demanded⟩
    unfold demandsFor at demanded
    split at demanded
    · cases demanded
    · exact RenderWindow.intersects_of_intersection ‹_›

theorem unmerged_sorted (schedule : RenderSchedule) (window : RenderWindow) :
    (unmerged schedule window).Pairwise fun a b => ranges.position a ≤ ranges.position b := by
  have total : Std.Total fun a b : MediaBlockDemand => a.sortKey ≤ b.sortKey := ⟨fun a b => le_total _ _⟩
  have sorted := pairwise_insertionSort (fun a b : MediaBlockDemand => a.sortKey ≤ b.sortKey)
    ((schedule.audioClips.filter fun clip => clip.renderable ∧ clip.placement.intersects window).flatMap (·.demandsFor window))
  refine sorted.imp fun {a b} ordered => Coalesce.Ranges.position_le_iff.mpr ?_
  rcases Prod.Lex.toLex_le_toLex.mp ordered with before | ⟨same, ordered⟩
  · exact .inl before
  · refine .inr ⟨same, ?_⟩
    rcases Prod.Lex.toLex_le_toLex.mp ordered with before | ⟨same, -⟩
    · exact before.le
    · exact same.le

theorem demanded_iff (mapped : ∀ clip ∈ schedule.audioClips, clip.Mapped) (asset : AssetId) (frame : Nat) :
    Demanded (mediaDemandsForWindow schedule window) asset frame ↔ AskedFor schedule window asset frame := by
  refine (Coalesce.Ranges.merge_covers (unmerged_sorted schedule window) asset frame).trans ?_
  constructor
  · rintro ⟨demand, among, covers⟩
    obtain ⟨clip, inside, renderable, demanded⟩ := mem_unmerged.mp among
    exact ⟨clip, inside, renderable,
      (covers_for (mapped clip inside) asset frame).mp ⟨demand, demanded, covers⟩⟩
  · rintro ⟨clip, inside, renderable, asks⟩
    obtain ⟨demand, demanded, covers⟩ := (covers_for (mapped clip inside) asset frame).mpr asks
    exact ⟨demand, mem_unmerged.mpr ⟨clip, inside, renderable, demanded⟩, covers⟩

theorem demands_apart (schedule : RenderSchedule) (window : RenderWindow) :
    (mediaDemandsForWindow schedule window).Pairwise fun a b =>
      a.asset < b.asset ∨ a.asset = b.asset ∧ a.endFrame < b.startFrame :=
  Coalesce.Ranges.merge_apart (unmerged_sorted schedule window)

theorem CompiledAudioClip.demandsFor_ends
    (demanded : demand ∈ clip.demandsFor window) : demand.asset = clip.asset ∧ demand.endFrame ≤ clip.sourceEnd.val := by
  have bounded {stop : Nat} : min stop clip.sourceEnd.val ≤ clip.sourceEnd.val := min_le_right _ _
  unfold demandsFor at demanded
  split at demanded
  · cases demanded
  next overlap found =>
    by_cases unlooped : clip.loopMode = .off
    · by_cases placed : (clip.positionAt overlap.start.val).isSome ∧ (clip.positionAt (overlap.stop.val - 1)).isSome
      · obtain ⟨⟨first, first'⟩, last, last'⟩ := placed.imp Option.isSome_iff_exists.mp Option.isSome_iff_exists.mp
        rw [demandsOver_between unlooped first' last'] at demanded
        obtain ⟨same, stop⟩ := MediaBlockDemand.new_ok demanded
        exact ⟨same, stop ▸ bounded⟩
      · rw [not_and_or] at placed
        rw [demandsOver_unplaced unlooped (placed.imp Option.not_isSome_iff_eq_none.mp Option.not_isSome_iff_eq_none.mp)] at demanded
        cases demanded
    · rw [demandsOver_looped unlooped] at demanded
      obtain ⟨projectFrame, -, demanded⟩ := mem_flatMap.mp demanded
      obtain ⟨position, -, demanded⟩ := mem_flatMap.mp demanded
      obtain ⟨same, stop⟩ := MediaBlockDemand.new_ok demanded
      exact ⟨same, stop ▸ bounded⟩

theorem demands_end (admitted : mediaDiagnostics schedule descriptors = [])
    (inside : demand ∈ mediaDemandsForWindow schedule window) : demand.startFrame < demand.endFrame ∧
      ∃ descriptor, descriptors demand.asset = some descriptor ∧ demand.endFrame ≤ descriptor.frameCount.val := by
  refine ⟨demand.ordered, ?_⟩
  obtain ⟨item, among, asset, stop⟩ := Coalesce.Ranges.merge_stops inside
  obtain ⟨clip, held, renderable, demanded⟩ := mem_unmerged.mp among
  obtain ⟨same, ends⟩ := demandsFor_ends demanded
  obtain ⟨descriptor, found, fits, -⟩ := described admitted held renderable
  refine ⟨descriptor, ?_, ?_⟩
  · rw [← found, ← same]
    exact congrArg descriptors asset.symm
  · have bound := Fin.le_def.mp fits
    have same' : item.endFrame = demand.endFrame := stop
    omega

structure MediaBlockProvider.HoldsExactly (provider : MediaBlockProvider) (descriptors : AssetId → Option MediaAssetDescriptor)
    (demands : List MediaBlockDemand) : Prop where
  described : provider.descriptor = descriptors
  samples : ∀ asset descriptor, descriptors asset = some descriptor → ∀ frame channel, channel < descriptor.format.channels →
    ((∃ sample, provider.sample asset frame channel = .ok sample) ↔ Demanded demands asset frame)

structure Prefetched (schedule : RenderSchedule) (descriptors : AssetId → Option MediaAssetDescriptor) (window : RenderWindow) :
    Prop where
  /-- Every frame that is read for a clip is demanded. -/
  reads : ∀ clip ∈ schedule.audioClips, clip.renderable = true → ∀ descriptor, descriptors clip.asset = some descriptor →
    ∀ frame, clip.Reads descriptor window frame → Demanded (mediaDemandsForWindow schedule window) clip.asset frame
  /-- Every demand covers a frame and ends within its asset. -/
  ends : ∀ demand ∈ mediaDemandsForWindow schedule window, demand.startFrame < demand.endFrame ∧
    ∃ descriptor, descriptors demand.asset = some descriptor ∧ demand.endFrame ≤ descriptor.frameCount.val
  /-- The demands are sorted, and those of an asset neither meet nor touch. -/
  apart : (mediaDemandsForWindow schedule window).Pairwise fun a b =>
    a.asset < b.asset ∨ a.asset = b.asset ∧ a.endFrame < b.startFrame
  /-- Rendering from the demanded frames alone finds none unavailable. -/
  supplied : ∀ provider : MediaBlockProvider, provider.HoldsExactly descriptors (mediaDemandsForWindow schedule window) →
    ∀ clip ∈ schedule.audioClips, clip.renderable = true → ∀ descriptor, descriptors clip.asset = some descriptor →
      clip.renderFromProviderInto descriptor provider window = .empty

/-- A frame heard at the end of a source range that its asset goes on after, and a frame of an unlooped clip that the
    window outlasts, are read from frames that some clip asks for. -/
def MadeUp (schedule : RenderSchedule) (descriptors : AssetId → Option MediaAssetDescriptor) (window : RenderWindow) : Prop :=
  ∀ clip ∈ schedule.audioClips, clip.renderable = true → ∀ descriptor, descriptors clip.asset = some descriptor →
    ∀ projectFrame position, clip.HeardAt window projectFrame position →
      (floorFrame position + 1 = clip.sourceEnd.val ∧ clip.sourceEnd < descriptor.frameCount →
        AskedFor schedule window clip.asset clip.sourceEnd.val) ∧
      (clip.loopMode = .off ∧ clip.Outlasted window →
        AskedFor schedule window clip.asset (floorFrame position) ∧
          AskedFor schedule window clip.asset (upperNeighbour descriptor (floorFrame position)))

/-- The upper neighbour of a position is the next frame of the source range, or the frame it ends before, or with the
    asset's last frame the position's own. -/
theorem upperNeighbour_cases {lower : Nat}
    (fits : clip.sourceEnd ≤ descriptor.frameCount) (below : lower < clip.sourceEnd.val) :
    (upperNeighbour descriptor lower = lower + 1 ∧ lower + 1 < clip.sourceEnd.val) ∨
      (upperNeighbour descriptor lower = clip.sourceEnd.val ∧ lower + 1 = clip.sourceEnd.val ∧
        clip.sourceEnd < descriptor.frameCount) ∨
      (upperNeighbour descriptor lower = lower ∧ clip.sourceEnd = descriptor.frameCount) := by
  have bound := Fin.le_def.mp fits
  have limit := descriptor.frameCount.isLt
  rw [Fin.lt_def, Fin.ext_iff]
  unfold upperNeighbour saturatingAdd
  omega

theorem reads_asked_iff (admitted : mediaDiagnostics schedule descriptors = []) :
    (∀ clip ∈ schedule.audioClips, clip.renderable = true → ∀ descriptor, descriptors clip.asset = some descriptor →
      ∀ frame, clip.Reads descriptor window frame → AskedFor schedule window clip.asset frame) ↔
    MadeUp schedule descriptors window := by
  constructor
  · intro asked clip inside renderable descriptor found projectFrame position heard
    have lower := asked clip inside renderable descriptor found _ ⟨projectFrame, position, heard, .inl rfl⟩
    have upper := asked clip inside renderable descriptor found _ ⟨projectFrame, position, heard, .inr rfl⟩
    refine ⟨?_, fun _ => ⟨lower, upper⟩⟩
    rintro ⟨last, more⟩
    rcases upperNeighbour_cases more.le heard.below with ⟨-, further⟩ | ⟨next, -⟩ | ⟨-, whole⟩
    · omega
    · rwa [next] at upper
    · exact absurd whole more.ne
  · intro madeUp clip inside renderable descriptor found frame read
    obtain ⟨projectFrame, position, heard, which⟩ := read
    obtain ⟨edge, outlasted⟩ := madeUp clip inside renderable descriptor found projectFrame position heard
    obtain ⟨descriptor', found', fits, -⟩ := described admitted inside renderable
    rw [found] at found'
    cases found'
    by_cases past : clip.loopMode = .off ∧ clip.Outlasted window
    · rcases which with rfl | rfl
      · exact (outlasted past).1
      · exact (outlasted past).2
    · have own : AskedFor schedule window clip.asset (floorFrame position) :=
        ⟨clip, inside, renderable, rfl, heard.asks past⟩
      rcases which with rfl | rfl
      · exact own
      · rcases upperNeighbour_cases fits heard.below with ⟨next, further⟩ | ⟨next, last⟩ | ⟨same, -⟩
        · rw [next]
          exact ⟨clip, inside, renderable, rfl, heard.asks_next past further⟩
        · rw [next]
          exact edge last
        · rw [same]
          exact own

variable {mapping : ChannelMapping} {provider : MediaBlockProvider}

theorem channelsRead_lt {format : AudioFormat} (valid : validChannelMap mapping format)
    {channel : Fin 0x10000} (read : channel ∈ channelsRead mapping format.channels) : channel < format.channels := by
  have some' : format.channels.val ≠ 0 := fun zero => format.audible (Fin.val_eq_zero_iff.mp zero)
  have zero : (0 : Fin 0x10000).val = 0 := rfl
  have one : (1 : Fin 0x10000).val = 1 := rfl
  have pair (stereo : 2 ≤ format.channels.val) (member : channel ∈ [0, (1 : Fin 0x10000)]) : channel < format.channels := by
    rw [Fin.lt_def]
    rcases mem_cons.mp member with rfl | member
    · omega
    · cases mem_singleton.mp member
      omega
  cases mapping with
  | all =>
    have read : channel ∈ if format.channels = 1 then [0] else [0, 1] := read
    split at read
    next single =>
      cases mem_singleton.mp read
      rw [single]
      decide
    next several =>
      have other : format.channels.val ≠ 1 := fun only => several (Fin.ext only)
      exact pair (by omega) read
  | channels selected =>
    have within : channel ∈ selected := by
      match selected with
      | [] => exact read
      | [only] => exact read
      | left :: right :: rest =>
        rcases mem_cons.mp read with rfl | read
        · exact mem_cons_self
        · cases mem_singleton.mp read
          exact mem_cons_of_mem _ mem_cons_self
    exact valid channel within
  | monoSum =>
    obtain ⟨index, below, rfl⟩ := mem_map.mp read
    have below := mem_range.mp below
    have limit := format.channels.isLt
    rw [Fin.lt_def, Fin.val_ofNat, Nat.mod_eq_of_lt (below.trans limit)]
    exact below
  | mid => exact pair valid read
  | side => exact pair valid read

theorem mapM_available {items : List (Fin 0x10000)} {step : Fin 0x10000 → Except MediaReadError (Float32 × Float32)}
    (each : ∀ item ∈ items, ∃ result, step item = .ok result) : ∃ results, items.mapM step = .ok results := by
  induction items with
  | nil => exact ⟨[], rfl⟩
  | cons item items ih =>
    obtain ⟨result, done⟩ := each item mem_cons_self
    obtain ⟨results, rest⟩ := ih fun other inside => each other (mem_cons_of_mem _ inside)
    refine ⟨result :: results, ?_⟩
    rw [mapM_cons, done]
    simp only [rest, bind, Except.bind, pure, Except.pure]

theorem read_available {asset : AssetId}
    {position : Quantity}
    (held : ∀ channel ∈ channelsRead mapping descriptor.format.channels,
      (∃ sample, provider.sample asset (floorFrame position) channel = .ok sample) ∧
        ∃ sample, provider.sample asset (upperNeighbour descriptor (floorFrame position)) channel = .ok sample) :
    ∃ samples, readSourceStereoFromProvider provider asset descriptor mapping position = .ok samples := by
  refine mapM_available fun channel read => ?_
  obtain ⟨⟨lower, lower'⟩, upper, upper'⟩ := held channel read
  refine ⟨(lower, upper), ?_⟩
  simp only [lower', upper', Except.mapError, bind, Except.bind, pure, Except.pure]

theorem report_empty
    {demands : List MediaBlockDemand} (found : descriptors clip.asset = some descriptor)
    (channels : validChannelMap clip.channels descriptor.format) (holds : provider.HoldsExactly descriptors demands)
    (covered : ∀ frame, clip.Reads descriptor window frame → Demanded demands clip.asset frame) :
    clip.renderFromProviderInto descriptor provider window = .empty := by
  unfold renderFromProviderInto
  split
  · rfl
  next overlap overlaps =>
    refine List.foldlRecOn overlap.frames _ (motive := fun report => report = MediaRenderReport.empty) rfl fun report unreported frame inside => ?_
    rw [unreported]
    unfold readFrame
    split
    · rfl
    next position heard =>
      have held (which : Nat) (read : which = floorFrame position ∨ which = upperNeighbour descriptor (floorFrame position))
          (channel : Fin 0x10000) (among : channel ∈ channelsRead clip.channels descriptor.format.channels) :
          ∃ sample, provider.sample clip.asset which channel = .ok sample :=
        (holds.samples _ _ found _ _ (channelsRead_lt channels among)).mpr
          (covered which ⟨frame, position, ⟨overlap, overlaps, inside, heard⟩, read⟩)
      obtain ⟨samples, done⟩ := read_available fun channel among =>
        ⟨held _ (.inl rfl) channel among, held _ (.inr rfl) channel among⟩
      rw [done]

/-- The demands of a window cover every read of rendering it, and are in order, exactly when what lies beyond the
    clips' own demands is made up for. -/
theorem prefetched_iff (compiled : compileRenderSchedule arrangement whole = .ok schedule)
    (admitted : mediaDiagnostics schedule descriptors = []) (window : RenderWindow) :
    Prefetched schedule descriptors window ↔ MadeUp schedule descriptors window := by
  have mapped : ∀ clip ∈ schedule.audioClips, clip.Mapped := fun clip inside => compileRenderSchedule_mapped compiled inside
  rw [← reads_asked_iff admitted]
  constructor
  · intro prefetched clip inside renderable descriptor found frame read
    exact (demanded_iff mapped _ _).mp (prefetched.reads clip inside renderable descriptor found frame read)
  · intro asked
    have reads : ∀ clip ∈ schedule.audioClips, clip.renderable = true → ∀ descriptor, descriptors clip.asset = some descriptor →
        ∀ frame, clip.Reads descriptor window frame → Demanded (mediaDemandsForWindow schedule window) clip.asset frame :=
      fun clip inside renderable descriptor found frame read =>
        (demanded_iff mapped _ _).mpr (asked clip inside renderable descriptor found frame read)
    refine ⟨reads, fun demand inside => demands_end admitted inside, demands_apart schedule window, ?_⟩
    intro provider holds clip inside renderable descriptor found
    obtain ⟨descriptor', found', -, channels⟩ := described admitted inside renderable
    rw [found] at found'
    cases found'
    exact report_empty found channels holds (reads clip inside renderable descriptor found)

/-- The first two frames of a source, placed at the start. -/
def takeRegion : AudioRegion where
  asset := ⟨1⟩
  source := ⟨0, 2⟩
  playback := { ratio := unity, preservePitch := true, pitchSemitones := 0.0, reverse := false, algorithm := .preservePitch,
                warpMarkers := [] }
  channels := .all
  loopMode := .off

def twoFrames : RenderWindow := ⟨I64.zero, ⟨2, by decide, by decide⟩⟩

def oneTake : ArrangementState where
  schemaVersion := 1
  sampleRate := 48000
  tracks := (∅ : ExtTreeMap TrackId Track).insert ⟨1⟩
    { id := ⟨1⟩, name := "Track", kind := .audio, overlap := .mix, clipIds := [⟨1⟩], muted := false, solo := false,
      locked := false, gainDb := 0, pan := 0, color := none }
  clips := (∅ : ExtTreeMap ClipId Clip).insert ⟨1⟩
    { id := ⟨1⟩, trackId := ⟨1⟩, name := "Take", placement := ⟨twoFrames.start, twoFrames.stop⟩, content := .audio takeRegion,
      fades := { fadeIn := none, fadeOut := none }, gainDb := 0, muted := false, locked := false }
  trackOrder := [⟨1⟩]
  nextTrackId := 2
  nextClipId := 2
  markers := ∅

def take : CompiledAudioClip where
  id := ⟨1⟩
  track := ⟨1⟩
  placement := twoFrames
  asset := ⟨1⟩
  sourceStart := 0
  sourceEnd := 2
  ratioSourceFrames := 1
  ratioProjectFrames := 1
  reverse := false
  channels := .all
  loopMode := .off
  renderable := true

def takeSchedule : RenderSchedule := ⟨twoFrames, 48000, [take]⟩

theorem take_compiled : compileRenderSchedule oneTake twoFrames = .ok takeSchedule := by
  have accepted : oneTake.validate = .ok () := by decide
  unfold compileRenderSchedule
  rw [accepted]
  rfl


def mono : AudioFormat := ⟨48000, 1, by decide⟩

def takeOf (frameCount : U64) : AssetId → Option MediaAssetDescriptor := fun _ => some ⟨mono, frameCount⟩

theorem take_overlap : take.placement.intersection twoFrames = some twoFrames := by decide

theorem take_lasting : ¬ take.Outlasted twoFrames := by
  rintro ⟨overlap, found, past⟩
  rw [take_overlap] at found
  cases found
  exact absurd past (by decide)

theorem take_last : take.positionAt 1 = some (some 1) := by
  have starts : take.first = 0 := Nat.cast_zero
  have ends : take.last = 1 := by norm_num [last, take]
  have advanced : take.relative (take.projectOffset 1) = 1 := by
    have offset : take.projectOffset 1 = 1 := by decide
    have ratio : take.ratioSourceFrames.val = 1 ∧ take.ratioProjectFrames.val = 1 := ⟨rfl, rfl⟩
    unfold relative
    rw [offset, ratio.1, ratio.2]
    norm_num
  have ordered : take.sourceStart ≤ take.sourceEnd := by decide
  have heard := ((compileRenderSchedule_mapped take_compiled mem_cons_self).positioned_iff ordered (take.projectOffset 1)).mpr
    (by decide)
  obtain ⟨position, heard⟩ := Option.isSome_iff_exists.mp heard
  have placed : take.place 1 = 1 := by
    have start : take.sourceStart.val = 0 := rfl
    have forward : take.reverse = false := rfl
    unfold place clamp
    rw [starts, ends, start, forward]
    norm_num
  have same := sourcePosition_off rfl heard
  rw [advanced, placed] at same
  unfold positionAt
  rw [heard, same]

/-- A take of its whole asset is prefetched. -/
theorem whole_take_prefetched : Prefetched takeSchedule (takeOf 2) twoFrames := by
  refine (prefetched_iff take_compiled (by decide) twoFrames).mpr ?_
  intro clip inside renderable descriptor found projectFrame position heard
  cases List.mem_singleton.mp inside
  cases found
  refine ⟨?_, fun past => absurd past.2 take_lasting⟩
  rintro ⟨-, more⟩
  exact absurd more (by decide)

/-- The last frame of a take is interpolated with the frame after it, which is not demanded. -/
theorem last_frame_undemanded : ¬ ∀ (arrangement : ArrangementState) (whole : RenderWindow) (schedule : RenderSchedule)
    (descriptors : AssetId → Option MediaAssetDescriptor) (window : RenderWindow),
    compileRenderSchedule arrangement whole = .ok schedule → mediaDiagnostics schedule descriptors = [] →
      whole.start ≤ window.start → window.start < window.stop → window.stop ≤ whole.stop →
        Prefetched schedule descriptors window := by
  intro always
  have prefetched := always oneTake twoFrames takeSchedule (takeOf 4) twoFrames take_compiled (by decide) le_rfl (by decide) le_rfl
  have heard : take.HeardAt twoFrames 1 (some 1) := ⟨twoFrames, take_overlap, by decide, take_last⟩
  have read : take.Reads ⟨mono, 4⟩ twoFrames 2 := ⟨1, some 1, heard, .inr (by decide)⟩
  have demanded := prefetched.reads take List.mem_cons_self rfl ⟨mono, 4⟩ rfl 2 read
  have mapped : ∀ clip ∈ takeSchedule.audioClips, clip.Mapped := fun clip inside => compileRenderSchedule_mapped take_compiled inside
  obtain ⟨clip, inside, -, -, asks⟩ := (demanded_iff mapped _ _).mp demanded
  cases List.mem_singleton.mp inside
  exact absurd asks.1 (by decide)

end Audec.DawRender

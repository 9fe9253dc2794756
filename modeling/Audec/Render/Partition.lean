import Audec.Render.SlotOrder
import Audec.Render.TileCache

/-! Layouts partition their plan: the cores of the tiles follow each other from one end of the extent to the other. -/

open Machine Checked List

namespace Audec.Render

open Machine.I64 TileGrid

theorem val_max (a b : I64) : (max a b).val = max a.val b.val := Monotone.map_max (f := val) fun _ _ order => order

theorem val_min (a b : I64) : (min a b).val = min a.val b.val := Monotone.map_min (f := val) fun _ _ order => order

section Grid

variable {grid : TileGrid} {extent : RenderSpan}

theorem TileGrid.frames_pos (grid : TileGrid) : (0 : Int) < grid.tileFrames.val := by
  have power := grid.power
  unfold isPowerOfTwo at power
  have nonzero := (of_decide_eq_true power).1
  omega

theorem TileGrid.indexFor_val (frame : I64) : (grid.indexFor frame).val = frame.val / grid.tileFrames.val := by
  have positive := grid.frames_pos
  have lower := frame.lower
  have upper := frame.upper
  have below : frame.val / grid.tileFrames.val ≤ max frame.val 0 := by
    rcases le_or_gt 0 frame.val with early | late
    · exact (Int.ediv_le_self _ early).trans (le_max_left _ _)
    · exact (Int.ediv_neg_of_neg_of_pos late positive).le.trans (le_max_right _ _)
  have above : min frame.val 0 ≤ frame.val / grid.tileFrames.val := by
    rcases le_or_gt 0 frame.val with early | late
    · exact (min_le_right _ _).trans (Int.ediv_nonneg early positive.le)
    · refine (min_le_left _ _).trans ((Int.le_ediv_iff_mul_le positive).mpr ?_)
      nlinarith
  exact wrap_val (by omega) (by omega)

section

variable (grid : TileGrid)

def lastIndex (extent : RenderSpan) : Int := (extent.stop.val - 1) / grid.tileFrames.val

def firstIndex (extent : RenderSpan) : Int := extent.start.val / grid.tileFrames.val

theorem indexFor_last (proper : extent.start < extent.stop) : (grid.indexFor (.wrap (extent.stop.val - 1))).val = lastIndex grid extent := by
  have order : extent.start.val < extent.stop.val := proper
  have lower := extent.start.lower
  have upper := extent.stop.upper
  rw [indexFor_val, wrap_val (by omega) (by omega)]
  rfl

theorem firstIndex_le (proper : extent.start < extent.stop) : firstIndex grid extent ≤ lastIndex grid extent := by
  have order : extent.start.val < extent.stop.val := proper
  exact Int.ediv_le_ediv grid.frames_pos (by omega)

theorem firstIndex_start (extent : RenderSpan) : firstIndex grid extent * grid.tileFrames.val ≤ extent.start.val ∧
    extent.start.val < (firstIndex grid extent + 1) * grid.tileFrames.val :=
  ⟨Int.ediv_mul_le _ grid.frames_pos.ne', Int.lt_ediv_add_one_mul_self _ grid.frames_pos⟩

theorem lastIndex_stop (extent : RenderSpan) : lastIndex grid extent * grid.tileFrames.val < extent.stop.val ∧
    extent.stop.val ≤ (lastIndex grid extent + 1) * grid.tileFrames.val := by
  have low : lastIndex grid extent * grid.tileFrames.val ≤ extent.stop.val - 1 := Int.ediv_mul_le _ grid.frames_pos.ne'
  have high : extent.stop.val - 1 < (lastIndex grid extent + 1) * grid.tileFrames.val := Int.lt_ediv_add_one_mul_self _ grid.frames_pos
  omega

end

end Grid

section Cores

variable {plan : RenderPlan} {policy : TileRenderPolicy} {scope : RenderScope} {spec : TileRenderSpec}

theorem RenderSpan.intersection_eq {span other core : RenderSpan} (common : span.intersection other = some core) :
    core.start.val = max span.start.val other.start.val ∧ core.stop.val = min span.stop.val other.stop.val := by
  unfold RenderSpan.intersection at common
  dsimp only at common
  split at common
  · cases common
    exact ⟨val_max _ _, val_min _ _⟩
  · cases common

theorem TileOf.core (tile : TileOf plan scope spec) :
    spec.core.start.val = max (spec.index.val * spec.grid.tileFrames.val) plan.extent.start.val ∧
      spec.core.stop.val = min ((spec.index.val + 1) * spec.grid.tileFrames.val) plan.extent.stop.val := by
  obtain ⟨full, inside, common⟩ := tile.span
  obtain ⟨start, stop⟩ := RenderSpan.intersection_eq common
  rw [(span_ok inside).1] at start
  rw [(span_ok inside).2] at stop
  exact ⟨start, stop⟩

theorem contextFor_ok {extent core context : RenderSpan} {lookbehind lookahead : U64}
    (padded : contextFor extent core lookbehind lookahead = .ok context) :
    context.start.val = max (core.start.val - lookbehind.val) extent.start.val ∧
      context.stop.val = min (core.stop.val + lookahead.val) extent.stop.val := by
  unfold contextFor at padded
  simp only [bind_unit_ok, ensure_ok, mapError_ok, RenderSpan.new_ok] at padded
  obtain ⟨small, small', low, high, -, rfl⟩ := padded
  have lower := core.start.lower
  have upper := core.start.upper
  have lower' := core.stop.lower
  have upper' := core.stop.upper
  have start : (wrap (core.start.val - lookbehind.val)).val = core.start.val - lookbehind.val := wrap_val low (by omega)
  have stop : (wrap (core.stop.val + lookahead.val)).val = core.stop.val + lookahead.val := wrap_val (by omega) high
  exact ⟨(val_max _ _).trans (by rw [start]), (val_min _ _).trans (by rw [stop])⟩

structure Admitted (plan : RenderPlan) (policy : TileRenderPolicy) (frames : U64 × U64) : Prop where
  known : contextFrames plan.tileability = .ok frames
  tileability : policy.tileability = plan.tileability
  ceiling : max frames.1 frames.2 ≤ policy.maximumContextFrames

structure Partition (plan : RenderPlan) (frames : U64 × U64) (layout : TileLayout) : Prop where
  first : layout.tiles.head?.map (·.core.start) = some plan.extent.start
  consecutive : layout.tiles.IsChain fun spec next => spec.core.stop = next.core.start
  last : layout.tiles.getLast?.map (·.core.stop) = some plan.extent.stop
  disjoint : layout.tiles.Pairwise fun spec later => spec.core.intersects later.core = false
  union : ∀ frame : I64, (plan.extent.start ≤ frame ∧ frame < plan.extent.stop) ↔
    ∃ spec ∈ layout.tiles, spec.core.start ≤ frame ∧ frame < spec.core.stop
  context : ∀ spec ∈ layout.tiles,
    spec.context.start.val = max (spec.core.start.val - frames.1.val) plan.extent.start.val ∧
      spec.context.stop.val = min (spec.core.stop.val + frames.2.val) plan.extent.stop.val
  keys : ∀ spec ∈ layout.tiles, ∃ key, spec.productKey = .ok key
  slots : ∀ id publicationLoop, ∃ cohort, PlaybackCohort.new id publicationLoop layout.requiredSlots [] = .ok cohort
  apart : ∀ id publicationLoop products left right,
    PlaybackCohort.new id publicationLoop layout.requiredSlots products ≠ .error (.overlappingCohortSlots left right)

theorem Placed.core {tiles : List TileRenderSpec} (placed : Placed plan policy scope tiles) {offset : Nat} (bound : offset < tiles.length) :
    tiles[offset].core.start.val =
        max ((firstIndex policy.grid plan.extent + offset) * policy.grid.tileFrames.val) plan.extent.start.val ∧
      tiles[offset].core.stop.val =
        min ((firstIndex policy.grid plan.extent + offset + 1) * policy.grid.tileFrames.val) plan.extent.stop.val := by
  obtain ⟨tile, grid, index⟩ := placed.tile offset bound
  rw [indexFor_val] at index
  obtain ⟨start, stop⟩ := tile.core
  rw [grid, index] at start stop
  exact ⟨start, stop⟩

theorem Placed.length {tiles : List TileRenderSpec} (placed : Placed plan policy scope tiles) (proper : plan.extent.start < plan.extent.stop) :
    (tiles.length : Int) = lastIndex policy.grid plan.extent - firstIndex policy.grid plan.extent + 1 := by
  rw [placed.count, indexFor_last _ proper, indexFor_val]
  rfl

section Arithmetic

variable {grid : TileGrid} {extent : RenderSpan} {index : Int}

theorem mul_frames_le (grid : TileGrid) {other : Int} (order : index ≤ other) : index * grid.tileFrames.val ≤ other * grid.tileFrames.val :=
  mul_le_mul_of_nonneg_right order grid.frames_pos.le

theorem start_after (grid : TileGrid) (extent : RenderSpan) (later : firstIndex grid extent < index) : extent.start.val < index * grid.tileFrames.val :=
  (firstIndex_start grid extent).2.trans_le (mul_frames_le grid later)

theorem stop_before (grid : TileGrid) (extent : RenderSpan) (earlier : index < lastIndex grid extent) : (index + 1) * grid.tileFrames.val < extent.stop.val :=
  (mul_frames_le grid (show index + 1 ≤ lastIndex grid extent by omega)).trans_lt (lastIndex_stop grid extent).1

end Arithmetic

end Cores

section Layout

variable {plan : RenderPlan} {policy : TileRenderPolicy} {scope : RenderScope} {layout : TileLayout} {frames : U64 × U64}

variable {tiles : List TileRenderSpec} {extent : RenderSpan}

section

variable (placed : Placed plan policy scope tiles) (proper : plan.extent.start < plan.extent.stop)
include placed proper

theorem Placed.nonempty :
    0 < tiles.length := by
  have length := placed.length proper
  have order := firstIndex_le policy.grid proper
  omega

theorem Placed.first :
    tiles.head?.map (·.core.start) = some plan.extent.start := by
  have nonempty := placed.nonempty proper
  obtain ⟨start, -⟩ := placed.core nonempty
  rw [Nat.cast_zero, add_zero, max_eq_right (firstIndex_start _ plan.extent).1] at start
  rw [head?_eq_getElem?, getElem?_eq_getElem nonempty, Option.map_some, val_injective start]

theorem Placed.last :
    tiles.getLast?.map (·.core.stop) = some plan.extent.stop := by
  have nonempty := placed.nonempty proper
  have length := placed.length proper
  obtain ⟨-, stop⟩ := placed.core (Nat.sub_lt nonempty Nat.one_pos)
  have place : firstIndex policy.grid plan.extent + (tiles.length - 1 : Nat) = lastIndex policy.grid plan.extent := by omega
  rw [place, min_eq_right (lastIndex_stop _ plan.extent).2] at stop
  rw [getLast?_eq_getElem?, getElem?_eq_getElem (Nat.sub_lt nonempty Nat.one_pos), Option.map_some, val_injective stop]

theorem Placed.consecutive :
    tiles.IsChain fun spec next => spec.core.stop = next.core.start := by
  rw [isChain_iff_getElem]
  intro offset bound
  have length := placed.length proper
  obtain ⟨-, stop⟩ := placed.core (show offset < tiles.length by omega)
  obtain ⟨start, -⟩ := placed.core bound
  have inside := stop_before policy.grid plan.extent (show firstIndex policy.grid plan.extent + offset < _ by omega)
  have begun := start_after policy.grid plan.extent
    (show _ < firstIndex policy.grid plan.extent + (offset + 1 : Nat) by omega)
  apply val_injective
  rw [stop, start, min_eq_left inside.le, max_eq_left begun.le, Nat.cast_add, Nat.cast_one, add_assoc]

theorem Placed.union
    (frame : I64) : (plan.extent.start ≤ frame ∧ frame < plan.extent.stop) ↔
      ∃ spec ∈ tiles, spec.core.start ≤ frame ∧ frame < spec.core.stop := by
  have positive := policy.grid.frames_pos
  constructor
  · rintro ⟨begun, ended⟩
    have low : firstIndex policy.grid plan.extent ≤ frame.val / policy.grid.tileFrames.val := Int.ediv_le_ediv positive begun
    have high : frame.val / policy.grid.tileFrames.val ≤ lastIndex policy.grid plan.extent :=
      Int.ediv_le_ediv positive (by rw [lt_iff] at ended; omega)
    obtain ⟨offset, place⟩ := Int.eq_ofNat_of_zero_le (show 0 ≤ frame.val / policy.grid.tileFrames.val - firstIndex policy.grid plan.extent by omega)
    have length := placed.length proper
    have bound : offset < tiles.length := by omega
    obtain ⟨start, stop⟩ := placed.core bound
    have index : firstIndex policy.grid plan.extent + offset = frame.val / policy.grid.tileFrames.val := by
      omega
    rw [index] at start stop
    refine ⟨tiles[offset], getElem_mem bound, ?_, ?_⟩
    · rw [le_iff, start]
      exact max_le (Int.ediv_mul_le _ positive.ne') begun
    · rw [lt_iff, stop]
      exact lt_min (Int.lt_ediv_add_one_mul_self _ positive) ended
  · rintro ⟨spec, member, begun, ended⟩
    obtain ⟨offset, bound, rfl⟩ := getElem_of_mem member
    obtain ⟨start, stop⟩ := placed.core bound
    rw [le_iff, start] at begun
    rw [lt_iff, stop] at ended
    rw [le_iff, lt_iff]
    exact ⟨(le_max_right _ _).trans begun, ended.trans_le (min_le_right _ _)⟩

end

theorem TileOf.keyed {spec : TileRenderSpec} (tile : TileOf plan scope spec) : ∃ key, spec.productKey = .ok key := by
  obtain ⟨full, inside, common⟩ := tile.span
  obtain ⟨start, stop⟩ := RenderSpan.intersection_eq common
  have extent : spec.plan.compiledExtent = plan.extent := congrArg RenderPlanId.compiledExtent tile.ofPlan
  have contained : plan.extent.containsSpan spec.core = true := by
    unfold RenderSpan.containsSpan
    rw [decide_eq_true_eq, le_iff, le_iff, start, stop]
    exact ⟨le_max_right _ _, min_le_right _ _⟩
  unfold TileRenderSpec.productKey RenderProductKey.new
  rw [extent]
  refine ⟨_, bind_unit_ok.mpr ⟨ensure_ok.mpr contained, bind_unit_ok.mpr ⟨?_, rfl⟩⟩⟩
  unfold checkPartition
  refine bind_ok.mpr ⟨full, inside, ?_⟩
  rw [common]
  exact ensure_ok.mpr rfl

theorem enter_apart {target : RenderPlanId} {required : List RenderSlot} {entries : Std.ExtTreeMap RenderSlot CohortProduct}
    {entry : CohortProduct} {left right : RenderSlot} (stopped : enter target required entries entry = .error (.overlappingCohortSlots left right)) :
    False := by
  simp only [enter, bind_error, ensure_error] at stopped
  rcases stopped with ⟨-, other⟩ | ⟨_, -, checked | ⟨_, -, ⟨-, other⟩ | ⟨_, -, other⟩⟩⟩
  · cases other
  · unfold CohortProduct.validateFor at checked
    split at checked
    · cases checked
    · cases provenance : entry.provenance with
      | renderedForTarget =>
        rw [provenance] at checked
        cases (ensure_error.mp checked).2
      | reused fromPlan proof =>
        rw [provenance] at checked
        cases (ensure_error.mp checked).2
  · cases other
  · cases other

theorem TileLayout.newForScope_partition (proper : plan.extent.start < plan.extent.stop) (admitted : Admitted plan policy frames)
    (accepted : TileLayout.newForScope plan policy scope = .ok layout) : Partition plan frames layout := by
  obtain ⟨-, -, placed⟩ := TileLayout.newForScope_placed accepted
  have tiling := TileLayout.newForScope_tiling accepted
  have each : ∀ spec ∈ layout.tiles, TileOf plan scope spec := by
    intro spec member
    obtain ⟨offset, bound, rfl⟩ := getElem_of_mem member
    exact (placed.tile offset bound).1
  have some : layout.requiredSlots ≠ [] := by
    have nonempty := placed.nonempty proper
    rw [TileLayout.requiredSlots, ne_eq, map_eq_nil_iff]
    exact ne_nil_of_length_pos nonempty
  refine ⟨placed.first proper, placed.consecutive proper, placed.last proper, ?_, placed.union proper, ?_, ?_, ?_, ?_⟩
  · exact pairwise_map.mp tiling.disjoint
  · intro spec member
    have context := (each spec member).context
    rw [contextOf, admitted.known] at context
    exact contextFor_ok context
  · exact fun spec member => (each spec member).keyed
  · intro id publicationLoop
    unfold PlaybackCohort.new
    rw [sortedSlots_sorted tiling.sorted]
    dsimp only
    rw [overlapping_disjoint tiling.disjoint]
    exact ⟨_, bind_unit_ok.mpr ⟨ensure_ok.mpr some, rfl⟩⟩
  · intro id publicationLoop products left right
    unfold PlaybackCohort.new
    rw [sortedSlots_sorted tiling.sorted]
    dsimp only
    rw [overlapping_disjoint tiling.disjoint, ensure, if_pos some]
    intro failed
    cases filled : products.foldlM (enter id.plan layout.requiredSlots) ∅ with
    | ok entries =>
      rw [filled] at failed
      cases failed
    | error error =>
      rw [filled] at failed
      cases failed
      obtain ⟨before, entry, -, stopped⟩ := foldlM_error filled
      exact enter_apart stopped

/-- The extent stays this many frames away from both ends of the timeline. -/
structure Inside (extent : RenderSpan) (margin : Int) : Prop where
  start : -0x8000000000000000 + margin ≤ extent.start.val
  stop : extent.stop.val + margin ≤ 0x7fffffffffffffff

theorem Inside.mono {margin less : Int} (inside : Inside extent margin) (smaller : less ≤ margin) :
    Inside extent less := by
  obtain ⟨start, stop⟩ := inside
  exact ⟨by omega, by omega⟩

theorem TileGrid.span_inside {grid : TileGrid} (inside : Inside extent grid.tileFrames.val) {index : I64}
    (low : firstIndex grid extent ≤ index.val) (high : index.val ≤ lastIndex grid extent) : ∃ full, grid.span index = .ok full := by
  have positive := grid.frames_pos
  have start : (index.val + 1) * grid.tileFrames.val = index.val * grid.tileFrames.val + grid.tileFrames.val := by ring
  have above := mul_frames_le grid low
  have below := mul_frames_le grid high
  have first := (firstIndex_start grid extent).2
  have last := (lastIndex_stop grid extent).1
  rw [add_mul, one_mul] at first
  obtain ⟨farStart, farStop⟩ := inside
  unfold span
  dsimp only
  rw [if_neg (by omega)]
  refine ⟨_, mapError_ok.mpr (RenderSpan.new_ok.mpr ⟨?_, rfl⟩)⟩
  rw [lt_iff, wrap_val (by omega) (by omega), wrap_val (by omega) (by omega)]
  omega

theorem contextFor_inside {core : RenderSpan} {lookbehind lookahead : U64} (before : Inside extent lookbehind.val)
    (after : Inside extent lookahead.val) (proper : core.start < core.stop) (start : extent.start ≤ core.start) (stop : core.stop ≤ extent.stop) :
    ∃ context, contextFor extent core lookbehind lookahead = .ok context := by
  rw [lt_iff] at proper
  rw [le_iff] at start stop
  obtain ⟨low, high⟩ := before
  obtain ⟨low', high'⟩ := after
  unfold contextFor
  simp only [bind_unit_ok, ensure_ok, mapError_ok, RenderSpan.new_ok]
  refine ⟨_, by omega, by omega, by omega, by omega, ?_, rfl⟩
  rw [lt_iff, val_max, val_min, wrap_val (by omega) (by omega), wrap_val (by omega) (by omega)]
  omega

theorem tileSpec_inside (proper : plan.extent.start < plan.extent.stop) (tile : Inside plan.extent policy.grid.tileFrames.val)
    (before : Inside plan.extent frames.1.val) (after : Inside plan.extent frames.2.val) {index : I64}
    (low : firstIndex policy.grid plan.extent ≤ index.val) (high : index.val ≤ lastIndex policy.grid plan.extent) :
    ∃ spec, tileSpec plan policy scope frames index = .ok spec := by
  obtain ⟨full, inside⟩ := span_inside tile low high
  obtain ⟨fullStart, fullStop⟩ := span_ok inside
  have order : plan.extent.start.val < plan.extent.stop.val := proper
  have positive := policy.grid.frames_pos
  have above := mul_frames_le policy.grid (show firstIndex policy.grid plan.extent + 1 ≤ index.val + 1 by omega)
  have below := mul_frames_le policy.grid high
  have first := (firstIndex_start policy.grid plan.extent).2
  have last := (lastIndex_stop policy.grid plan.extent).1
  have length : (index.val + 1) * policy.grid.tileFrames.val = index.val * policy.grid.tileFrames.val + policy.grid.tileFrames.val := by ring
  have common : max full.start plan.extent.start < min full.stop plan.extent.stop := by
    rw [lt_iff, val_max, val_min, fullStart, fullStop]
    omega
  let core : RenderSpan := ⟨max full.start plan.extent.start, min full.stop plan.extent.stop⟩
  have overlap : full.intersection plan.extent = some core := if_pos common
  obtain ⟨context, padded⟩ := @contextFor_inside _ core _ _ before after common (le_max_right _ _) (min_le_right _ _)
  refine ⟨⟨plan.id, scope, policy.grid, index, core, context, policy.boundaryRecipe⟩, ?_⟩
  refine bind_ok.mpr ⟨full, mapError_ok.mpr inside, ?_⟩
  rw [overlap]
  exact bind_ok.mpr ⟨context, padded, rfl⟩

/-- How many tiles apart the ends of the extent lie; the layout counts one more. -/
def tileSpread (grid : TileGrid) (extent : RenderSpan) : Int := lastIndex grid extent - firstIndex grid extent

theorem tileCount_iff (proper : plan.extent.start < plan.extent.stop) :
    (∃ count, tileCount (policy.grid.indexFor plan.extent.start) (policy.grid.indexFor (.wrap (plan.extent.stop.val - 1))) = .ok count) ↔
      tileSpread policy.grid plan.extent < 0x7fffffffffffffff := by
  have order := firstIndex_le policy.grid proper
  have first : (policy.grid.indexFor plan.extent.start).val = firstIndex policy.grid plan.extent := indexFor_val _
  have last := indexFor_last policy.grid proper
  unfold tileCount tileSpread
  simp only [bind_unit_ok, ensure_ok]
  rw [first, last]
  constructor
  · rintro ⟨count, fits, -⟩
    omega
  · intro small
    exact ⟨_, by omega, rfl⟩

theorem TileLayout.newForScope_inside (proper : plan.extent.start < plan.extent.stop) (admitted : Admitted plan policy frames)
    (inside : Inside plan.extent (max policy.grid.tileFrames.val (max frames.1.val frames.2.val))) :
    (∃ layout, TileLayout.newForScope plan policy scope = .ok layout) ↔ tileSpread policy.grid plan.extent < 0x7fffffffffffffff := by
  rw [← tileCount_iff proper]
  constructor
  · rintro ⟨layout, accepted⟩
    unfold TileLayout.newForScope at accepted
    obtain ⟨_, -, accepted⟩ := bind_ok.mp accepted
    obtain ⟨_, -, accepted⟩ := bind_ok.mp accepted
    obtain ⟨_, -, accepted⟩ := bind_ok.mp accepted
    obtain ⟨count, counted, -⟩ := bind_ok.mp accepted
    exact ⟨count, counted⟩
  · rintro ⟨count, counted⟩
    have number := tileCount_ok counted
    rw [indexFor_last _ proper, indexFor_val] at number
    have each : ∀ offset ∈ List.range count, ∃ spec,
        tileSpec plan policy scope frames (.wrap ((policy.grid.indexFor plan.extent.start).val + (offset : Nat))) = .ok spec ∧ True := by
      intro offset member
      rw [mem_range] at member
      have low := (policy.grid.indexFor plan.extent.start).lower
      have high := (policy.grid.indexFor (.wrap (plan.extent.stop.val - 1))).upper
      rw [indexFor_last _ proper] at high
      have first : (policy.grid.indexFor plan.extent.start).val = firstIndex policy.grid plan.extent := indexFor_val _
      have index : (wrap ((policy.grid.indexFor plan.extent.start).val + (offset : Int))).val =
          firstIndex policy.grid plan.extent + offset := by
        rw [wrap_val (by omega) (by change _ = lastIndex _ _ - firstIndex _ _ + 1 at number; omega), first]
      obtain ⟨spec, made⟩ := tileSpec_inside proper (inside.mono (le_max_left _ _))
        (inside.mono ((le_max_left _ _).trans (le_max_right _ _))) (inside.mono ((le_max_right _ _).trans (le_max_right _ _)))
        (show firstIndex policy.grid plan.extent ≤ _ by rw [index]; omega)
        (show _ ≤ lastIndex policy.grid plan.extent by change _ = lastIndex _ _ - firstIndex _ _ + 1 at number; rw [index]; omega)
      exact ⟨spec, made, trivial⟩
    obtain ⟨tiles, made, -⟩ := exists_mapM each
    refine ⟨⟨plan.id, .fromPlan plan, policy, tiles⟩, bind_unit_ok.mpr ⟨ensure_ok.mpr admitted.tileability, ?_⟩⟩
    refine bind_ok.mpr ⟨frames, admitted.known, bind_unit_ok.mpr ⟨ensure_ok.mpr admitted.ceiling, ?_⟩⟩
    exact bind_ok.mpr ⟨count, counted, bind_ok.mpr ⟨tiles, made, rfl⟩⟩

def singles : TileGrid := ⟨1, by decide⟩

def unitPolicy : TileRenderPolicy := ⟨singles, 4, plainRecipe, .boundedHistory 2 1⟩

def extentPlan (start stop : Int) : RenderPlan :=
  ⟨⟨1, 7, .zero, ⟨0, 0, 0, 0, 0, 0, 0, 0, 0⟩, ⟨.saturate start, .saturate stop⟩, plainEngine, [], unstamped_sorted⟩, .bitExact,
    .boundedHistory 2 1⟩

theorem unitPolicy_admitted (start stop : Int) : Admitted (extentPlan start stop) unitPolicy (2, 1) := ⟨rfl, rfl, by decide⟩

end Layout

end Audec.Render

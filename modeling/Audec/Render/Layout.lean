import Audec.Render.Tiles

/-! The tiles of a layout: in timeline order, disjoint, and each determined by its place in the grid. -/

open Machine Checked List

namespace Audec.Render

variable {span : RenderSpan} {plan : RenderPlan} {policy : TileRenderPolicy} {scope : RenderScope}
  {spec : TileRenderSpec}

theorem RenderSpan.intersection_some {other core : RenderSpan} (common : span.intersection other = some core) :
    span.start ≤ core.start ∧ core.stop ≤ span.stop ∧ core.start < core.stop := by
  unfold RenderSpan.intersection at common
  dsimp only at common
  split at common
  · rename_i proper
    cases common
    exact ⟨le_max_left _ _, min_le_left _ _, proper⟩
  · cases common

theorem RenderSpan.new_ok {start stop : I64} : RenderSpan.new start stop = .ok span ↔ start < stop ∧ ⟨start, stop⟩ = span := by
  unfold RenderSpan.new
  split
  · rename_i proper
    simp [proper]
  · rename_i improper
    simp [improper]

theorem mapError_ok {ε ε' α : Type} {first : Except ε α} {convert : ε → ε'} {result : α} :
    first.mapError convert = .ok result ↔ first = .ok result := by
  cases first <;> simp [Except.mapError]

theorem TileGrid.span_ok {grid : TileGrid} {index : I64} (inside : grid.span index = .ok span) :
    span.start.val = index.val * grid.tileFrames.val ∧ span.stop.val = (index.val + 1) * grid.tileFrames.val := by
  unfold TileGrid.span at inside
  dsimp only at inside
  split at inside
  · cases inside
  · rename_i fits
    rw [not_or, not_lt, not_lt] at fits
    obtain ⟨-, rfl⟩ := RenderSpan.new_ok.mp (mapError_ok.mp inside)
    have positive : 0 ≤ (grid.tileFrames.val : Int) := Int.natCast_nonneg _
    constructor
    · exact I64.wrap_val fits.1 (by omega)
    · rw [add_mul, one_mul]
      exact I64.wrap_val (by omega) (by omega)

/-- The history and lookahead of a core, as the plan's graph needs it. -/
def contextOf (plan : RenderPlan) (core : RenderSpan) : Except RenderTileError RenderSpan := do
  let frames ← contextFrames plan.tileability
  contextFor plan.extent core frames.1 frames.2

structure TileOf (plan : RenderPlan) (scope : RenderScope) (spec : TileRenderSpec) : Prop where
  ofPlan : spec.plan = plan.id
  inScope : spec.scope = scope
  span : ∃ full, spec.grid.span spec.index = .ok full ∧ full.intersection plan.extent = some spec.core
  context : contextOf plan spec.core = .ok spec.context

theorem tileSpec_ok {frames : U64 × U64} {index : I64}
    (known : contextFrames plan.tileability = .ok frames)
    (accepted : tileSpec plan policy scope frames index = .ok spec) :
    TileOf plan scope spec ∧ spec.grid = policy.grid ∧ spec.index = index := by
  unfold tileSpec at accepted
  obtain ⟨full, inside, accepted⟩ := bind_ok.mp accepted
  split at accepted
  · cases accepted
  · rename_i core common
    obtain ⟨context, padded, accepted⟩ := bind_ok.mp accepted
    cases accepted
    refine ⟨⟨rfl, rfl, ⟨full, mapError_ok.mp inside, common⟩, ?_⟩, rfl, rfl⟩
    exact bind_ok.mpr ⟨frames, known, padded⟩

structure Tiling (plan : RenderPlan) (layout : TileLayout) : Prop where
  ofPlan : layout.plan = plan.id
  input : layout.input = .fromPlan plan
  tiles : ∃ scope, ∀ spec ∈ layout.tiles, TileOf plan scope spec
  ordered : layout.tiles.Pairwise fun spec later => spec.core.stop ≤ later.core.start

theorem TileOf.nonempty (tile : TileOf plan scope spec) :
    spec.core.start < spec.core.stop := by
  obtain ⟨full, -, common⟩ := tile.span
  exact (RenderSpan.intersection_some common).2.2

theorem TileOf.before {later : TileRenderSpec} (tile : TileOf plan scope spec)
    (next : TileOf plan scope later) (grid : spec.grid = later.grid) (order : spec.index.val < later.index.val) :
    spec.core.stop ≤ later.core.start := by
  obtain ⟨full, inside, common⟩ := tile.span
  obtain ⟨full', inside', common'⟩ := next.span
  obtain ⟨-, stop, -⟩ := RenderSpan.intersection_some common
  obtain ⟨start, -, -⟩ := RenderSpan.intersection_some common'
  rw [I64.le_iff] at stop start ⊢
  rw [(TileGrid.span_ok inside).2] at stop
  rw [(TileGrid.span_ok inside').1] at start
  have frames : (0 : Int) ≤ spec.grid.tileFrames.val := Int.natCast_nonneg _
  have steps : (spec.index.val + 1) * spec.grid.tileFrames.val ≤ later.index.val * spec.grid.tileFrames.val :=
    mul_le_mul_of_nonneg_right (by omega) frames
  rw [← grid] at start
  omega

theorem tileCount_ok {first last : I64} {count : Nat} (accepted : tileCount first last = .ok count) :
    (count : Int) = last.val - first.val + 1 := by
  unfold tileCount at accepted
  dsimp only at accepted
  obtain ⟨_, bounded, accepted⟩ := bind_ok.mp accepted
  rw [ensure_ok] at bounded
  cases accepted
  omega

structure Placed (plan : RenderPlan) (policy : TileRenderPolicy) (scope : RenderScope) (tiles : List TileRenderSpec) : Prop where
  count : (tiles.length : Int) = (policy.grid.indexFor (.wrap (plan.extent.stop.val - 1))).val - (policy.grid.indexFor plan.extent.start).val + 1
  tile : ∀ (offset : Nat) (bound : offset < tiles.length), TileOf plan scope tiles[offset] ∧ tiles[offset].grid = policy.grid ∧
    tiles[offset].index.val = (policy.grid.indexFor plan.extent.start).val + offset

theorem TileLayout.newForScope_placed {layout : TileLayout}
    (accepted : TileLayout.newForScope plan policy scope = .ok layout) :
    layout.plan = plan.id ∧ layout.input = .fromPlan plan ∧ Placed plan policy scope layout.tiles := by
  unfold TileLayout.newForScope at accepted
  obtain ⟨_, -, accepted⟩ := bind_ok.mp accepted
  obtain ⟨frames, known, accepted⟩ := bind_ok.mp accepted
  obtain ⟨_, -, accepted⟩ := bind_ok.mp accepted
  obtain ⟨count, counted, accepted⟩ := bind_ok.mp accepted
  obtain ⟨tiles, all, accepted⟩ := bind_ok.mp accepted
  cases accepted
  obtain ⟨length, each⟩ := forall₂_iff_get.mp (mapM_ok.mp all)
  rw [length_range] at length
  have bounded := tileCount_ok counted
  refine ⟨rfl, rfl, ?_, ?_⟩
  · dsimp only
    omega
  intro offset bound
  change offset < tiles.length at bound
  have made := each offset (by rw [length_range]; omega) bound
  simp only [get_eq_getElem, getElem_range] at made
  obtain ⟨tile, grid, index⟩ := tileSpec_ok known made
  refine ⟨tile, grid, ?_⟩
  have lower := (policy.grid.indexFor plan.extent.start).lower
  have upper := (policy.grid.indexFor (.wrap (plan.extent.stop.val - 1))).upper
  rw [index]
  exact I64.wrap_val (by omega) (by omega)

theorem TileLayout.newForScope_tiling {layout : TileLayout}
    (accepted : TileLayout.newForScope plan policy scope = .ok layout) : Tiling plan layout := by
  obtain ⟨ofPlan, input, placed⟩ := TileLayout.newForScope_placed accepted
  refine ⟨ofPlan, input, ⟨scope, ?_⟩, ?_⟩
  · intro spec member
    obtain ⟨offset, bound, rfl⟩ := getElem_of_mem member
    exact (placed.tile offset bound).1
  · rw [pairwise_iff_getElem]
    intro earlier later bound bound' order
    obtain ⟨tile, grid, index⟩ := placed.tile earlier bound
    obtain ⟨tile', grid', index'⟩ := placed.tile later bound'
    exact tile.before tile' (grid.trans grid'.symm) (by omega)

namespace Tiling

variable {layout : TileLayout}

section

variable (tiling : Tiling plan layout)
include tiling

theorem sorted : layout.requiredSlots.Pairwise (· < ·) := by
  obtain ⟨scope, tiles⟩ := tiling.tiles
  unfold TileLayout.requiredSlots
  rw [pairwise_map]
  refine tiling.ordered.imp_of_mem fun {spec later} member member' order => ?_
  have start : spec.core.start < later.core.start := lt_of_lt_of_le (tiles spec member).nonempty order
  show RenderSlot.code spec.slot < RenderSlot.code later.slot
  unfold RenderSlot.code TileRenderSpec.slot RenderSpan.code
  rw [(tiles spec member).inScope, (tiles later member').inScope]
  apply append_left_lt
  exact List.Lex.rel start

theorem nodup : layout.requiredSlots.Nodup := tiling.sorted.imp fun order => ne_of_lt order

theorem disjoint : layout.requiredSlots.Pairwise fun slot later => slot.span.intersects later.span = false := by
  unfold TileLayout.requiredSlots
  rw [pairwise_map]
  refine tiling.ordered.imp fun {spec later} order => ?_
  unfold RenderSpan.intersects TileRenderSpec.slot
  rw [decide_eq_false_iff_not]
  rintro ⟨-, overlap⟩
  exact absurd overlap (not_lt.mpr order)

end

end Tiling

end Audec.Render

import Audec.Render.Chain

/-! Incremental rendering plays what cold rendering plays. -/

open Machine Checked Filling Runs List
open Std (ExtTreeMap)

namespace Audec.Render

abbrev Engine := RenderPlan → TileRenderSpec → List Float32

/-- Between two plans whose difference the change set describes, a tile that no impact of its scope reaches sounds the same. -/
def SoundFor (render : Engine) (previous target : RenderPlan) (changes : ChangeSet) : Prop :=
  previous.determinism = .bitExact → target.determinism = .bitExact → changes.ExactFor previous.id target.id → changes.routingChanged = false →
    ∀ scope spec, TileOf target scope spec → changes.Spares spec.scope spec.context →
      render previous { spec with plan := previous.id } = render target spec

def RenderedBy (render : Engine) (plan : RenderPlan) (rendered : ExtTreeMap I64 RenderProduct) (tiles : List TileRenderSpec) : Prop :=
  ∀ spec ∈ tiles, ∀ product, rendered[spec.index]? = some product → product.producedBy = spec.key → product.interleaved = render plan spec

def Faithful (render : Engine) (publication : Publication) : Prop :=
  ∀ (slot : RenderSlot) (entry : CohortProduct), publication.cohort.entries[slot]? = some entry →
    ∀ spec, TileOf publication.plan slot.scope spec → spec.slot = slot →
      entry.product.producedBy.partition = .tile spec.grid spec.index → entry.product.producedBy.boundaryRecipe = spec.boundaryRecipe →
        entry.product.interleaved = render publication.plan spec

variable {plan : RenderPlan} {render : Engine} {rendered : ExtTreeMap I64 RenderProduct}

theorem TileOf.unique {scope scope' : RenderScope} {spec other : TileRenderSpec} (tile : TileOf plan scope spec)
    (tile' : TileOf plan scope' other) (slot : spec.slot = other.slot) (grid : spec.grid = other.grid) (index : spec.index = other.index)
    (recipe : spec.boundaryRecipe = other.boundaryRecipe) : spec = other := by
  obtain ⟨specPlan, specScope, specGrid, specIndex, core, context, specRecipe⟩ := spec
  obtain ⟨otherPlan, otherScope, otherGrid, otherIndex, core', context', otherRecipe⟩ := other
  have plans : specPlan = otherPlan := tile.ofPlan.trans tile'.ofPlan.symm
  obtain ⟨rfl, rfl⟩ : specScope = otherScope ∧ core = core' := by
    unfold TileRenderSpec.slot at slot
    exact ⟨congrArg RenderSlot.scope slot, congrArg RenderSlot.span slot⟩
  have contexts := tile.context.symm.trans tile'.context
  rw [Except.ok.injEq] at contexts
  dsimp only at grid index recipe contexts
  rw [plans, grid, index, recipe, contexts]

section Step

variable {before : Publication} {edit : Edit}

theorem TileOf.back {previous target : RenderPlan} (comparable : Comparable previous target) {scope : RenderScope} {spec : TileRenderSpec}
    (tile : TileOf target scope spec) : TileOf previous scope { spec with plan := previous.id } where
  ofPlan := rfl
  inScope := tile.inScope
  span := by
    rw [comparable.extent]
    exact tile.span
  context := by
    unfold contextOf
    rw [comparable.extent, comparable.tileability]
    exact tile.context

variable {scope : RenderScope} {spec : TileRenderSpec} {product : CohortProduct}

section

variable (faithful : Faithful render before) (sound : SoundFor render before.plan edit.target edit.proof.changes)
include faithful sound

theorem carried_faithful
    (tile : TileOf edit.target scope spec) {entry : CohortProduct}
    (carried : Carried before edit spec entry) : entry.product.interleaved = render edit.target spec := by
  have played : entry.product.interleaved = render before.plan { spec with plan := before.plan.id } := by
    refine faithful spec.slot entry carried.held { spec with plan := before.plan.id } ?_ rfl carried.partition carried.recipe
    have back := tile.back carried.comparable
    rwa [← tile.inScope] at back
  rw [played]
  rcases carried.clean with same | ⟨exactly, unrouted, described⟩
  · have plans : before.plan = edit.target :=
      RenderPlan.ext same (carried.comparable.previousExact.trans carried.comparable.targetExact.symm) carried.comparable.tileability
    rw [plans, ← tile.ofPlan]
  · apply sound carried.comparable.previousExact carried.comparable.targetExact exactly unrouted scope spec tile
    rcases described with ⟨-, silent⟩ | ⟨-, -, spared⟩
    · intro bus impact held
      rw [silent, ExtTreeMap.getElem?_empty] at held
      cases held
    · exact spared

theorem fills_faithful
    (played : RenderedBy render edit.target edit.rendered edit.layout.tiles)
    (tile : TileOf edit.target scope spec) (member : spec ∈ edit.layout.tiles)
    (fills : Fills (CarriedAs before edit) edit.rendered spec product) : product.product.interleaved = render edit.target spec := by
  rcases fills with ⟨entry, carried, rfl⟩ | ⟨-, fresh, held, key, rfl⟩
  · have heard := carried_faithful faithful sound tile carried
    exact heard
  · exact played spec member fresh held key

end

theorem Fills.place
    (fills : Fills (CarriedAs before edit) edit.rendered spec product) :
    product.product.producedBy.partition = .tile spec.grid spec.index ∧ product.product.producedBy.boundaryRecipe = spec.boundaryRecipe := by
  rcases fills with ⟨entry, carried, rfl⟩ | ⟨-, fresh, -, key, rfl⟩
  · exact ⟨carried.partition, carried.recipe⟩
  · dsimp only
    rw [key]
    exact ⟨rfl, rfl⟩

theorem faithful_of_fills {carried : TileRenderSpec → CohortProduct → Prop} {rendered : ExtTreeMap I64 RenderProduct}
    (slots : ∀ spec product, carried spec product → product.slot = spec.slot) {plan : RenderPlan} {layout : TileLayout} (tiling : Tiling plan layout)
    {products : List CohortProduct} (filled : List.Forall₂ (Fills carried rendered) layout.tiles products) {publication : Publication}
    (samePlan : publication.plan = plan) (entries : publication.cohort.entries = insertItems (·.slot) ∅ products)
    (place : ∀ spec product, Fills carried rendered spec product →
      product.product.producedBy.partition = .tile spec.grid spec.index ∧ product.product.producedBy.boundaryRecipe = spec.boundaryRecipe)
    (plays : ∀ scope, ∀ spec ∈ layout.tiles, TileOf plan scope spec → ∀ product, Fills carried rendered spec product →
      product.product.interleaved = render plan spec) : Faithful render publication := by
  subst samePlan
  obtain ⟨scope, tiles⟩ := tiling.tiles
  intro slot entry held spec tile slotOf partition recipe
  rw [entries] at held
  obtain ⟨own, member, rfl, fills⟩ := lookup_filled_slots slots tiling filled held
  obtain ⟨partition', recipe'⟩ := place own entry fills
  rw [partition', ProductPartition.tile.injEq] at partition
  have same : spec = own := tile.unique (tiles own member) slotOf partition.1.symm partition.2.symm (recipe.symm.trans recipe')
  rw [same]
  exact plays scope own member (tiles own member) entry fills

theorem perform_faithful (kept : before.Kept) (complete : edit.Complete before) (faithful : Faithful render before)
    (sound : SoundFor render before.plan edit.target edit.proof.changes)
    (played : RenderedBy render edit.target edit.rendered edit.layout.tiles) : Faithful render (edit.perform before) := by
  rcases perform_cases kept complete with ⟨same, -⟩ | ⟨products, filled, -, same⟩
  · rw [same]
    exact faithful
  · rw [same]
    exact faithful_of_fills CarriedAs.slot complete.tiling filled rfl rfl (fun spec product fills => fills.place)
      fun scope spec member tile product fills => fills_faithful faithful sound played tile member fills

end Step

theorem Cold.faithful {publication : Publication} {layout : TileLayout}
    (cold : Cold publication layout rendered) (played : RenderedBy render publication.plan rendered layout.tiles) :
    Faithful render publication := by
  obtain ⟨-, products, filled, entries⟩ := cold.filled
  refine faithful_of_fills (fun _ _ impossible => impossible.elim) cold.tiling filled rfl entries ?_ ?_
  · rintro spec product (impossible | ⟨-, fresh, -, key, rfl⟩)
    · exact impossible.elim
    · dsimp only
      rw [key]
      exact ⟨rfl, rfl⟩
  · rintro scope spec member tile product (impossible | ⟨-, fresh, held, key, rfl⟩)
    · exact impossible.elim
    · exact played spec member fresh held key

abbrev PlayedChain (render : Engine) := Run (fun before (edit : Edit) => edit.perform before) fun publication =>
  ∃ layout rendered, Cold publication layout rendered ∧ RenderedBy render publication.plan rendered layout.tiles

structure Played (render : Engine) (before : Publication) (edit : Edit) : Prop where
  complete : edit.Complete before
  rendered : RenderedBy render edit.target edit.rendered edit.layout.tiles
  sound : SoundFor render before.plan edit.target edit.proof.changes

theorem chain_faithful {events : List (Event Publication Edit)} {state : Publication} (chain : PlayedChain render events state)
    (played : ∀ event ∈ events, Played render event.before event.action) : state.Kept ∧ Faithful render state := by
  refine chain.invariant (fun state => state.Kept ∧ Faithful render state) ?_ ?_ played
  · rintro publication ⟨layout, rendered, cold, heard⟩
    exact ⟨cold.kept, cold.faithful heard⟩
  · rintro before edit ⟨kept, faithful⟩ played
    exact ⟨perform_kept kept played.complete, perform_faithful kept played.complete faithful played.sound played.rendered⟩

def TileCohortDraft.samples (draft : TileCohortDraft) : List (RenderSlot × List Float32) :=
  draft.products.map fun product => (product.slot, product.product.interleaved)

theorem samples_of_fills {carried : TileRenderSpec → CohortProduct → Prop}
    (slots : ∀ spec product, carried spec product → product.slot = spec.slot)
    {tiles : List TileRenderSpec} {products : List CohortProduct} (filled : List.Forall₂ (Fills carried rendered) tiles products)
    (plays : ∀ spec ∈ tiles, ∀ product, Fills carried rendered spec product → product.product.interleaved = render plan spec) :
    (products.map fun product => (product.slot, product.product.interleaved)) = tiles.map fun spec => (spec.slot, render plan spec) := by
  induction filled with
  | nil => rfl
  | cons fills rest tail =>
    rw [map_cons, map_cons, fills.slot slots, plays _ mem_cons_self _ fills,
      tail fun spec member => plays spec (mem_cons_of_mem _ member)]

/-- Along every chain of played edits, each edit decides every slot of its layout once, reuses only what the engine plays for the tile
    under the new plan, and finishes with the samples of a cold work plan. -/
theorem incremental_plays_cold (render : Engine) {events : List (Event Publication Edit)} {state : Publication}
    (chain : PlayedChain render events state) (played : ∀ event ∈ events, Played render event.before event.action) :
    ∀ event ∈ events, ∃ work draft, event.action.derive event.before = .ok work ∧ work.finish event.action.rendered = .ok draft ∧
      work.decisions.map TileDecision.slot = event.action.layout.requiredSlots ∧ event.action.layout.requiredSlots.Nodup ∧
      (∀ product, .reuse product ∈ work.decisions → ∃ spec ∈ event.action.layout.tiles, product.slot = spec.slot ∧
        product.product.interleaved = render event.action.target spec) ∧
      ∀ rendered coldDraft, Supplies rendered (event.action.layout.tiles.map .render) →
        RenderedBy render event.action.target rendered event.action.layout.tiles →
          (TileWorkPlan.cold event.action.layout event.action.publicationLoop).finish rendered = .ok coldDraft →
            draft.samples = coldDraft.samples := by
  intro event member
  have kept : event.before.Kept ∧ Faithful render event.before := by
    obtain ⟨earlier, later, split⟩ := List.append_of_mem member
    exact chain_faithful (chain.upto split) fun other inside => played other (split ▸ List.mem_append_left _ inside)
  obtain ⟨complete, heard, sound⟩ := played event member
  have tiling := complete.tiling
  obtain ⟨scope, tiles⟩ := tiling.tiles
  obtain ⟨decisions, derived, decided⟩ := derive_ok kept.1 tiling
  obtain ⟨products, finished, filled⟩ := finish_ok CarriedAs.slot tiling.planned decided (complete.supplies _ derived)
  refine ⟨_, _, derived, finished, decided_slots CarriedAs.slot decided, tiling.nodup, ?_, ?_⟩
  · intro product reused
    obtain ⟨offset, bound, same⟩ := List.getElem_of_mem reused
    obtain ⟨length, each⟩ := List.forall₂_iff_get.mp decided
    dsimp only at bound same
    have decides := each offset (by omega) bound
    simp only [List.get_eq_getElem] at decides
    have inside := List.getElem_mem (l := event.action.layout.tiles) (n := offset) (by omega)
    rcases decides with ⟨other, ⟨entry, carried, rfl⟩, reuse⟩ | ⟨-, render⟩
    · rw [same, TileDecision.reuse.injEq] at reuse
      subst reuse
      have heard := carried_faithful kept.2 sound (tiles _ inside) carried
      exact ⟨_, inside, rfl, heard⟩
    · rw [same] at render
      cases render
  · intro rendered coldDraft supplies plays cold
    have coldDecided : List.Forall₂ (Decides fun _ _ => False) event.action.layout.tiles (event.action.layout.tiles.map .render) := by
      rw [List.forall₂_map_right_iff, List.forall₂_same]
      exact fun spec _ => .inr ⟨fun _ impossible => impossible, rfl⟩
    obtain ⟨coldProducts, coldFinished, coldFilled⟩ :=
      @finish_ok _ _ _ _ _ (fun _ _ impossible => impossible.elim) event.action.publicationLoop tiling.planned coldDecided supplies
    unfold TileWorkPlan.cold at cold
    rw [tiling.ofPlan, coldFinished, Except.ok.injEq] at cold
    rw [← cold]
    unfold TileCohortDraft.samples
    dsimp only
    rw [samples_of_fills CarriedAs.slot filled fun spec inside product fills =>
        fills_faithful kept.2 sound heard (tiles spec inside) inside fills,
      samples_of_fills (fun _ _ impossible => impossible.elim) coldFilled]
    rintro spec inside product (impossible | ⟨-, fresh, held, key, rfl⟩)
    · exact impossible.elim
    · exact plays spec inside fresh held key

section Example

variable {arrangement : U64}

theorem lookup_renderTiles (specs : List TileRenderSpec) {rendered : ExtTreeMap I64 RenderProduct} {index : I64}
    {product : RenderProduct}
    (held : (specs.foldl (fun rendered spec => rendered.insert spec.index (renderTile arrangement spec)) rendered)[index]? = some product) :
    rendered[index]? = some product ∨ ∃ spec ∈ specs, product = renderTile arrangement spec := by
  induction specs generalizing rendered with
  | nil => exact .inl held
  | cons first specs tail =>
    rw [foldl_cons] at held
    rcases tail held with before | ⟨spec, member, same⟩
    · rcases Entries.held_insert.mp before with ⟨-, rfl⟩ | ⟨-, before⟩
      · exact .inr ⟨first, mem_cons_self, rfl⟩
      · exact .inl before
    · exact .inr ⟨spec, mem_cons_of_mem _ member, same⟩

theorem renderTiles_rendered {specs tiles : List TileRenderSpec} (context : ∀ spec ∈ specs, spec ∈ tiles)
    (tiling : Tiling (tilePlan arrangement) ⟨(tilePlan arrangement).id, .fromPlan (tilePlan arrangement), tilePolicy, tiles⟩) :
    RenderedBy tailSamples (tilePlan arrangement) (renderTiles arrangement specs) tiles := by
  intro spec member product held key
  rcases lookup_renderTiles specs held with impossible | ⟨own, inside, rfl⟩
  · rw [ExtTreeMap.getElem?_empty] at impossible
    cases impossible
  · obtain ⟨scope, each⟩ := tiling.tiles
    have keys : own.key = spec.key := key
    unfold TileRenderSpec.key at keys
    rw [RenderProductKey.mk.injEq, ProductPartition.tile.injEq] at keys
    obtain ⟨-, scopes, cores, ⟨grids, indices⟩, recipes⟩ := keys
    have slots : own.slot = spec.slot := by
      unfold TileRenderSpec.slot
      rw [scopes, cores]
    rw [(each own (context own inside)).unique (each spec member) slots grids indices recipes]
    rfl

theorem tailEdit_sound : SoundFor tailSamples (tilePlan 0) (tilePlan 1) (tailEdit 1).proof.changes := by
  intro _ _ _ _ scope spec tile spared
  have silent : ¬ (spec.scope = .master ∧ I64.saturate 20 < spec.context.stop ∧ spec.context.start < I64.saturate 24) := by
    rintro ⟨master, before, after⟩
    have impact : (tailEdit 1).proof.changes.audio[BusId.mk 1]? = some (.ranges [⟨.saturate 20, .saturate 24⟩]) := by decide
    rw [master] at spared
    exact spared ⟨1⟩ _ impact trivial ⟨_, mem_singleton_self _, before, after⟩
  unfold tailSamples
  dsimp only
  rw [if_neg silent, if_neg silent]

theorem first_edit_plays_cold : ∃ work, (tailEdit 1).derive coldPublication = .ok work ∧
    work.decisions.map TileDecision.slot = (tileLayout 1).requiredSlots := by
  have accepted : TileLayout.newForScope (tilePlan 1) tilePolicy .master = .ok (tileLayout 1) := by decide +kernel
  have cold : RenderedBy tailSamples (tilePlan 0) (renderTiles 0 (tileLayout 0).tiles) (tileLayout 0).tiles :=
    renderTiles_rendered (fun spec member => member) coldPublication_cold.tiling
  have fresh : RenderedBy tailSamples (tilePlan 1) (tailEdit 1).rendered (tileLayout 1).tiles := by
    refine renderTiles_rendered (fun spec member => ?_) (TileLayout.newForScope_tiling accepted)
    exact List.mem_cons_of_mem _ member
  have chain : PlayedChain tailSamples ([] ++ [⟨coldPublication, tailEdit 1⟩]) ((tailEdit 1).perform coldPublication) :=
    (Run.start ⟨tileLayout 0, _, coldPublication_cold, cold⟩).step (tailEdit 1)
  obtain ⟨work, draft, derived, -, slots, -⟩ := incremental_plays_cold tailSamples chain (by
    intro event member
    cases List.mem_singleton.mp member
    exact ⟨firstEdit_complete, fresh, tailEdit_sound⟩) ⟨coldPublication, tailEdit 1⟩ (List.mem_singleton_self _)
  exact ⟨work, derived, slots⟩

end Example

end Audec.Render

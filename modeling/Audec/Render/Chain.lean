import Audec.Render.Publish

/-! Chains of edits: which of them publish a cohort. -/

open Machine Checked Filling Runs List
open Std (ExtTreeMap ExtTreeSet)

namespace Audec.Render

structure Cold (publication : Publication) (layout : TileLayout) (rendered : ExtTreeMap I64 RenderProduct) : Prop where
  accepted : ∃ policy scope, TileLayout.newForScope publication.plan policy scope = .ok layout
  supplies : Supplies rendered (layout.tiles.map .render)
  published : ∃ publicationLoop sequence,
    ((TileWorkPlan.cold layout publicationLoop).finish rendered >>= fun draft => draft.publish sequence) = .ok publication.cohort

namespace Cold

variable {publication : Publication} {layout : TileLayout} {rendered : ExtTreeMap I64 RenderProduct}

theorem tiling (cold : Cold publication layout rendered) : Tiling publication.plan layout := by
  obtain ⟨policy, scope, accepted⟩ := cold.accepted
  exact TileLayout.newForScope_tiling accepted

theorem filled (cold : Cold publication layout rendered) :
    publication.cohort.id.plan = publication.plan.id ∧ ∃ products, List.Forall₂ (Fills (fun _ _ => False) rendered) layout.tiles products ∧
      publication.cohort.entries = insertItems (·.slot) ∅ products := by
  obtain ⟨publicationLoop, sequence, published⟩ := cold.published
  have decided : List.Forall₂ (Decides fun _ _ => False) layout.tiles (layout.tiles.map .render) := by
    rw [forall₂_map_right_iff, forall₂_same]
    exact fun spec _ => .inr ⟨fun _ impossible => impossible, rfl⟩
  obtain ⟨products, finished, filled⟩ := finish_ok (fun _ _ impossible => impossible.elim) cold.tiling.planned decided cold.supplies
  unfold TileWorkPlan.cold at published
  rw [cold.tiling.ofPlan, finished] at published
  obtain ⟨-, -, same⟩ := (publish_filled (fun _ _ impossible => impossible.elim) cold.tiling filled publicationLoop sequence).mp published
  rw [← same]
  exact ⟨rfl, products, filled, rfl⟩

theorem kept (cold : Cold publication layout rendered) : publication.Kept := by
  obtain ⟨plan, products, filled, entries⟩ := cold.filled
  refine ⟨plan, fun slot entry held => ?_⟩
  rw [entries] at held
  obtain ⟨spec, -, rfl, fills⟩ := lookup_filled_slots (fun _ _ impossible => impossible.elim) cold.tiling filled held
  rcases fills with impossible | ⟨-, fresh, -, key, rfl⟩
  · exact impossible.elim
  · dsimp only
    rw [key]
    exact ⟨rfl, rfl, rfl⟩

end Cold

section Step

variable {before : Publication} {edit : Edit}

theorem perform_cases (kept : before.Kept) (complete : edit.Complete before) :
    (edit.perform before = before ∧ ¬ (edit.layout.tiles ≠ [] ∧ Fresh before edit)) ∨
      ∃ products, List.Forall₂ (Fills (CarriedAs before edit) edit.rendered) edit.layout.tiles products ∧
        (edit.layout.tiles ≠ [] ∧ Fresh before edit) ∧
        edit.perform before = ⟨edit.target, ⟨edit.target.id, edit.sequence⟩, edit.publicationLoop, edit.layout.requiredSlots,
          insertItems (·.slot) ∅ products, .ready⟩ := by
  obtain ⟨products, filled, published⟩ := publish_ok kept complete
  unfold Edit.perform
  split
  · rename_i cohort accepted
    obtain ⟨fresh, rfl⟩ := (published cohort).mp accepted
    exact .inr ⟨products, filled, fresh, rfl⟩
  · rename_i error refused
    refine .inl ⟨rfl, fun fresh => ?_⟩
    rw [(published _).mpr ⟨fresh, rfl⟩] at refused
    cases refused

theorem fills_kept (kept : before.Kept) {spec : TileRenderSpec} {product : CohortProduct}
    (fills : Fills (CarriedAs before edit) edit.rendered spec product) :
    product.slot = spec.slot ∧ product.product.producedBy.scope = spec.slot.scope ∧ product.product.producedBy.core = spec.slot.span := by
  rcases fills with ⟨entry, carried, rfl⟩ | ⟨-, fresh, -, key, rfl⟩
  · obtain ⟨-, scope, core⟩ := kept.slots spec.slot entry carried.held
    exact ⟨rfl, scope, core⟩
  · dsimp only
    rw [key]
    exact ⟨rfl, rfl, rfl⟩

theorem perform_kept (kept : before.Kept) (complete : edit.Complete before) : (edit.perform before).Kept := by
  rcases perform_cases kept complete with ⟨same, -⟩ | ⟨products, filled, -, same⟩
  · rw [same]
    exact kept
  · rw [same]
    refine ⟨rfl, fun slot entry held => ?_⟩
    obtain ⟨spec, -, rfl, fills⟩ := lookup_filled_slots CarriedAs.slot complete.tiling filled held
    exact fills_kept kept fills

end Step

abbrev Chain := Run (fun before (edit : Edit) => edit.perform before) fun publication => ∃ layout rendered, Cold publication layout rendered

section Chain

variable {events : List (Event Publication Edit)} {state : Publication}

theorem chain_kept (chain : Chain events state) (complete : ∀ event ∈ events, event.action.Complete event.before) : state.Kept := by
  refine chain.invariant Publication.Kept ?_ (fun _ _ kept complete => perform_kept kept complete) complete
  rintro publication ⟨layout, rendered, cold⟩
  exact cold.kept

theorem chain_kept_before (chain : Chain events state) (complete : ∀ event ∈ events, event.action.Complete event.before)
    {event : Event Publication Edit} (member : event ∈ events) : event.before.Kept := by
  obtain ⟨earlier, later, split⟩ := append_of_mem member
  exact chain_kept (chain.upto split) fun other inside => complete other (split ▸ mem_append_left _ inside)

end Chain

def Publishes (before : Publication) (edit : Edit) : Prop :=
  ∃ draft cohort, edit.draft before = .ok draft ∧
    PlaybackCohort.new ⟨edit.target.id, edit.sequence⟩ draft.publicationLoop draft.required draft.products = .ok cohort ∧
    cohort.readiness = .ready ∧ cohort.required = edit.layout.requiredSlots ∧ edit.layout.requiredSlots.Nodup ∧
    ∀ slot, slot ∈ cohort.entries ↔ slot ∈ edit.layout.requiredSlots

theorem publishes_iff {before : Publication} {edit : Edit} (kept : before.Kept) (complete : edit.Complete before) :
    Publishes before edit ↔ edit.layout.tiles ≠ [] ∧ Fresh before edit := by
  obtain ⟨products, filled, published⟩ := publish_ok kept complete
  have accepted : ∀ {draft cohort}, edit.draft before = .ok draft →
      (edit.publish before = .ok cohort ↔
        PlaybackCohort.new ⟨draft.plan, edit.sequence⟩ draft.publicationLoop draft.required draft.products = .ok cohort) := by
    intro draft cohort drafted
    unfold Edit.publish
    rw [drafted]
    exact mapError_ok
  obtain ⟨products', drafted, -⟩ := draft_ok kept complete
  constructor
  · rintro ⟨draft, cohort, drafted', new, -⟩
    rw [drafted, Except.ok.injEq] at drafted'
    subst drafted'
    exact ((published cohort).mp ((accepted drafted).mpr new)).1
  · intro fresh
    refine ⟨_, _, drafted, (accepted drafted).mp ((published _).mpr ⟨fresh, rfl⟩), rfl, rfl, complete.tiling.nodup, fun slot => ?_⟩
    have slots : products.map CohortProduct.slot = edit.layout.requiredSlots := filled_slots CarriedAs.slot filled
    have distinct : (products.map CohortProduct.slot).Nodup := slots ▸ complete.tiling.nodup
    rw [← slots, ExtTreeMap.mem_iff_isSome_getElem?, Option.isSome_iff_exists, mem_map]
    simp only [lookup_filled distinct]

/-- Along every chain of edits from a cold cohort, an edit publishes exactly when its layout has a tile and nothing is carried over
    that was rendered before the last plan. -/
theorem chain_publishes_iff {events : List (Event Publication Edit)} {state : Publication} (chain : Chain events state)
    (complete : ∀ event ∈ events, event.action.Complete event.before) :
    ∀ event ∈ events, Publishes event.before event.action ↔ event.action.layout.tiles ≠ [] ∧ Fresh event.before event.action :=
  fun event member => publishes_iff (chain_kept_before chain complete member) (complete event member)

section Example

theorem sixteen_power : isPowerOfTwo 16 := by decide

def sixteen : TileGrid := ⟨16, sixteen_power⟩

def tilePlan (arrangement : U64) : RenderPlan :=
  ⟨⟨1, 7, .zero, ⟨0, arrangement, 0, 0, 0, 0, 0, 0, 0⟩, ⟨.saturate 0, .saturate 32⟩, plainEngine, [], unstamped_sorted⟩, .bitExact, .stateless⟩

def tilePolicy : TileRenderPolicy := ⟨sixteen, 0, plainRecipe, .stateless⟩

def tileOf (arrangement : U64) (index start stop : Int) : TileRenderSpec :=
  ⟨(tilePlan arrangement).id, .master, sixteen, .saturate index, ⟨.saturate start, .saturate stop⟩, ⟨.saturate start, .saturate stop⟩, plainRecipe⟩

def tileLayout (arrangement : U64) : TileLayout :=
  ⟨(tilePlan arrangement).id, .fromPlan (tilePlan arrangement), tilePolicy, [tileOf arrangement 0 0 16, tileOf arrangement 1 16 32]⟩

def tailSamples (plan : RenderPlan) (spec : TileRenderSpec) : List Float32 :=
  List.replicate 32 (if spec.scope = .master ∧ I64.saturate 20 < spec.context.stop ∧ spec.context.start < I64.saturate 24 then
    Float32.ofNat plan.id.revisions.arrangement.val else 0)

def renderTile (arrangement : U64) (spec : TileRenderSpec) : RenderProduct :=
  ⟨⟨plainRecipe, plainEngine.format, 16⟩, spec.key, tailSamples (tilePlan arrangement) spec⟩

def renderTiles (arrangement : U64) (specs : List TileRenderSpec) : ExtTreeMap I64 RenderProduct :=
  specs.foldl (fun rendered spec => rendered.insert spec.index (renderTile arrangement spec)) ∅

def tailEdit (arrangement : U64) : Edit where
  target := tilePlan arrangement
  layout := tileLayout arrangement
  publicationLoop := none
  proof := ⟨plainRecipe, (ChangeSet.default.touch .arrangement).invalidateRange ⟨1⟩ ⟨.saturate 20, .saturate 24⟩⟩
  rendered := renderTiles arrangement [tileOf arrangement 1 16 32]
  sequence := arrangement

def coldResult : Except RenderTileError PlaybackCohort :=
  (TileWorkPlan.cold (tileLayout 0) none).finish (renderTiles 0 (tileLayout 0).tiles) >>= fun draft => draft.publish 0

def coldCohort : PlaybackCohort := coldResult.toOption.getD ⟨⟨(tilePlan 0).id, 0⟩, none, [], ∅, .ready⟩

def coldPublication : Publication := ⟨tilePlan 0, coldCohort⟩

def suppliedBy (rendered : ExtTreeMap I64 RenderProduct) : TileDecision → Bool
  | .render spec => rendered[spec.index]?.any fun product => product.producedBy = spec.key
  | .reuse _ => true

theorem supplies_of_check {rendered : ExtTreeMap I64 RenderProduct} {decisions : List TileDecision}
    (checked : (decisions.all (suppliedBy rendered) &&
      rendered.keys.all fun index => decide (index ∈ decisions.filterMap TileWorkPlan.consumedIndex)) = true) : Supplies rendered decisions := by
  rw [Bool.and_eq_true, all_eq_true, all_eq_true] at checked
  constructor
  · intro spec member
    obtain ⟨product, held, same⟩ := (Option.any_eq_true _ _).mp (checked.1 _ member)
    exact ⟨product, held, of_decide_eq_true same⟩
  · intro index held
    obtain ⟨decision, member, same⟩ := mem_filterMap.mp (of_decide_eq_true (checked.2 index (ExtTreeMap.mem_keys.mpr held)))
    cases decision with
    | render spec => exact ⟨spec, member, Option.some.inj same⟩
    | reuse product => cases same

theorem coldPublication_cold : Cold coldPublication (tileLayout 0) (renderTiles 0 (tileLayout 0).tiles) where
  accepted := ⟨tilePolicy, .master, by decide +kernel⟩
  supplies := supplies_of_check (by decide)
  published := by
    refine ⟨none, 0, ?_⟩
    have done : coldResult.toOption.isSome = true := by decide
    show coldResult = .ok coldCohort
    unfold coldCohort
    cases result : coldResult with
    | ok cohort => rfl
    | error error =>
      rw [result] at done
      cases done

theorem tailEdit_complete {before : Publication} {arrangement : U64}
    (accepted : TileLayout.newForScope (tilePlan arrangement) tilePolicy .master = .ok (tileLayout arrangement))
    (checked : ((tailEdit arrangement).derive before).toOption.all (fun work => work.decisions.all (suppliedBy (tailEdit arrangement).rendered) &&
      (tailEdit arrangement).rendered.keys.all fun index => decide (index ∈ work.decisions.filterMap TileWorkPlan.consumedIndex)) = true) :
    (tailEdit arrangement).Complete before where
  layout := ⟨tilePolicy, .master, accepted⟩
  proof := by
    have nonzero : plainRecipe.isZero = false := by decide
    exact nonzero
  supplies := by
    intro work derived
    rw [derived] at checked
    exact supplies_of_check checked

theorem firstEdit_complete : (tailEdit 1).Complete coldPublication := tailEdit_complete (by decide +kernel) (by decide +kernel)

theorem first_edit_publishes : Publishes coldPublication (tailEdit 1) := by
  have chain : Chain ([] ++ [⟨coldPublication, tailEdit 1⟩]) ((tailEdit 1).perform coldPublication) :=
    (Run.start ⟨tileLayout 0, _, coldPublication_cold⟩).step (tailEdit 1)
  have complete : ∀ event ∈ [] ++ [(⟨coldPublication, tailEdit 1⟩ : Event Publication Edit)], event.action.Complete event.before := by
    intro event member
    cases List.mem_singleton.mp member
    exact firstEdit_complete
  refine (chain_publishes_iff chain complete ⟨coldPublication, tailEdit 1⟩ (List.mem_singleton_self _)).mpr ⟨List.cons_ne_nil _ _, ?_⟩
  intro spec member entry carried
  have fresh : (tileLayout 1).tiles.all (fun spec => (coldPublication.cohort.entries[spec.slot]?).all fun entry =>
      entry.product.producedBy.plan = coldPublication.plan.id) = true := by decide
  have own := List.all_eq_true.mp fresh spec member
  rw [carried.held] at own
  exact of_decide_eq_true own

/-- The first tile is untouched by both edits: the second one carries it over from a plan before the last, and is refused. -/
theorem second_edit_refused : ¬ ∀ (events : List (Event Publication Edit)) (state : Publication), Chain events state →
    (∀ event ∈ events, event.action.Complete event.before) → ∀ event ∈ events, Publishes event.before event.action := by
  intro claim
  have chain := ((Run.start ⟨tileLayout 0, _, coldPublication_cold⟩ : Chain [] coldPublication).step (tailEdit 1)).step (tailEdit 2)
  have complete : ∀ event ∈ [] ++ [(⟨coldPublication, tailEdit 1⟩ : Event Publication Edit)] ++ [⟨(tailEdit 1).perform coldPublication, tailEdit 2⟩],
      event.action.Complete event.before := by
    intro event member
    rcases List.mem_append.mp member with first | second
    · cases List.mem_singleton.mp first
      exact firstEdit_complete
    · cases List.mem_singleton.mp second
      exact tailEdit_complete (by decide +kernel) (by decide +kernel)
  obtain ⟨draft, cohort, drafted, new, -⟩ := claim _ _ chain complete _ (List.mem_append_right _ (List.mem_singleton_self _))
  have refused : ((tailEdit 2).draft ((tailEdit 1).perform coldPublication)).toOption.all (fun draft =>
      (PlaybackCohort.new ⟨(tilePlan 2).id, 2⟩ draft.publicationLoop draft.required draft.products).toOption.isNone) = true := by decide
  rw [drafted] at refused
  have none : (PlaybackCohort.new ⟨(tilePlan 2).id, 2⟩ draft.publicationLoop draft.required draft.products).toOption.isNone = true := refused
  have same : PlaybackCohort.new ⟨(tilePlan 2).id, 2⟩ draft.publicationLoop draft.required draft.products = .ok cohort := new
  rw [same] at none
  cases none

end Example

end Audec.Render

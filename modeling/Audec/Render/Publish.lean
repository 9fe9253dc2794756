import Audec.Lib.Filling
import Audec.Lib.Runs
import Audec.Render.Layout

/-! Publishing tiles over a chain of edits: what is reused, and when the cohort accepts it. -/

open Machine Checked Filling Runs List
open Std (ExtTreeMap ExtTreeSet)

namespace Audec.Render

open TileWorkPlan Std.ExtTreeSet ConsumedRevisionStamp

section Cohort

variable {slots : List RenderSlot}

theorem sortedSlots_sorted (sorted : slots.Pairwise (· < ·)) : sortedSlots slots = slots := by
  unfold sortedSlots
  rw [Pairwise.insertionSort_eq (sorted.imp le_of_lt)]
  exact destutter_of_isChain _ _ (sorted.imp ne_of_lt).isChain

theorem overlapping_disjoint (disjoint : slots.Pairwise fun slot later => slot.span.intersects later.span = false) :
    overlapping slots = none := by
  induction slots with
  | nil => rfl
  | cons slot slots tail =>
    obtain ⟨first, disjoint⟩ := pairwise_cons.mp disjoint
    cases slots with
    | nil => rfl
    | cons next slots =>
      unfold overlapping
      rw [if_neg, tail disjoint]
      rintro ⟨-, overlap⟩
      rw [first next mem_cons_self] at overlap
      cases overlap

theorem enter_ok {target : RenderPlanId} {required : List RenderSlot} (entries : ExtTreeMap RenderSlot CohortProduct)
    (product : CohortProduct) (after : ExtTreeMap RenderSlot CohortProduct) :
    enter target required entries product = .ok after ↔
      (product.slot ∈ required ∧ product.validateFor target = .ok ()) ∧ product.slot ∉ entries ∧
        entries.insert product.slot product = after := by
  unfold enter
  rw [bind_unit_ok, bind_unit_ok, bind_unit_ok, ensure_ok, ensure_ok, Except.ok.injEq, and_assoc]

theorem PlaybackCohort.new_ok {id : PlaybackCohortId} {publicationLoop : Option RenderSpan} {products : List CohortProduct}
    (sorted : (products.map (·.slot)).Pairwise (· < ·))
    (disjoint : (products.map (·.slot)).Pairwise fun slot later => slot.span.intersects later.span = false) {cohort : PlaybackCohort} :
    PlaybackCohort.new id publicationLoop (products.map (·.slot)) products = .ok cohort ↔
      products ≠ [] ∧ (∀ product ∈ products, product.validateFor id.plan = .ok ()) ∧
        ⟨id, publicationLoop, products.map (·.slot), insertItems (·.slot) ∅ products, .ready⟩ = cohort := by
  have distinct : (products.map (·.slot)).Nodup := sorted.imp ne_of_lt
  have covered : ((products.map (·.slot)).filter (· ∉ insertItems (·.slot) ∅ products)) = [] := by
    rw [filter_eq_nil_iff]
    intro slot required
    obtain ⟨product, member, rfl⟩ := mem_map.mp required
    rw [decide_eq_true_eq, not_not, ExtTreeMap.mem_iff_isSome_getElem?, (lookup_filled distinct).mpr ⟨member, rfl⟩]
    rfl
  unfold PlaybackCohort.new
  rw [sortedSlots_sorted sorted]
  dsimp only
  rw [overlapping_disjoint disjoint]
  dsimp only
  rw [bind_unit_ok, ensure_ok, bind_ok, ne_eq, map_eq_nil_iff]
  simp only [fill_ok enter_ok]
  constructor
  · rintro ⟨some, _, ⟨passes, -, -, rfl⟩, same⟩
    rw [covered, if_pos rfl] at same
    exact ⟨some, fun product member => (passes product member).2, Except.ok.inj same⟩
  · rintro ⟨some, passes, rfl⟩
    refine ⟨some, _, ⟨fun product member => ⟨mem_map_of_mem member, passes product member⟩, distinct, ?_, rfl⟩, ?_⟩
    · exact fun product _ => ExtTreeMap.not_mem_empty
    · rw [covered, if_pos rfl]

end Cohort

section Reuse

/-- Two plans between which tiles may be reused. -/
structure Comparable (previous target : RenderPlan) : Prop where
  schemaVersion : previous.id.schemaVersion = target.id.schemaVersion
  projectNamespace : previous.id.projectNamespace = target.id.projectNamespace
  extent : previous.extent = target.extent
  format : previous.format = target.format
  previousExact : previous.determinism = .bitExact
  targetExact : target.determinism = .bitExact
  engine : previous.id.engine = target.id.engine
  tileability : previous.tileability = target.tileability

variable {previous target : RenderPlan} {span : RenderSpan} {changes : ChangeSet}

theorem comparable_iff : incomparable previous target = false ↔ Comparable previous target := by
  unfold incomparable
  rw [decide_eq_false_iff_not]
  simp only [not_or, ne_eq, not_not]
  constructor
  · rintro ⟨schema, space, extent, format, exactly, exactly', engine, tileability⟩
    exact ⟨schema, space, extent, format, exactly, exactly', engine, tileability⟩
  · rintro ⟨schema, space, extent, format, exactly, exactly', engine, tileability⟩
    exact ⟨schema, space, extent, format, exactly, exactly', engine, tileability⟩

def RenderScope.Hears : RenderScope → BusId → Prop
  | .bus number _, source => source = ⟨number⟩
  | _, _ => True

def ChangeSet.Spares (changes : ChangeSet) (scope : RenderScope) (span : RenderSpan) : Prop :=
  ∀ bus impact, changes.audio[bus]? = some impact → scope.Hears bus → ¬ impact.Touches span

def Clean (previous target : RenderPlan) (changes : ChangeSet) (spec : TileRenderSpec) : Prop :=
  previous.id = target.id ∨
    (changes.ExactFor previous.id target.id ∧ changes.routingChanged = false ∧
      (((∀ domain, previous.id.DomainChanged target.id domain ↔ domain = .air) ∧ changes.audio = ∅) ∨
        ((∃ domain, domain ≠ .air ∧ previous.id.DomainChanged target.id domain) ∧ changes.audio ≠ ∅ ∧
          changes.Spares spec.scope spec.context)))

theorem impactIntersects_iff {impact : BusImpact} : impactIntersects span impact = true ↔ impact.Touches span := by
  cases impact with
  | whole => simp [impactIntersects, BusImpact.Touches]
  | ranges impacted => simp [impactIntersects, BusImpact.Touches]

theorem scopeImpactIntersects_iff {scope : RenderScope} :
    scopeImpactIntersects changes scope span = false ↔ changes.Spares scope span := by
  have any : (Entries.values changes.audio).any (impactIntersects span) = false ↔
      ∀ (bus : BusId) (impact : BusImpact), changes.audio[bus]? = some impact → ¬ impact.Touches span := by
    rw [any_eq_false]
    simp only [Entries.mem_values, impactIntersects_iff, forall_exists_index]
    exact ⟨fun all bus impact held => all impact bus held, fun all impact bus held => all bus impact held⟩
  unfold scopeImpactIntersects ChangeSet.Spares
  cases scope with
  | bus number tap =>
    simp only [RenderScope.Hears]
    cases held : changes.audio[BusId.mk number]? with
    | none =>
      simp only [Option.any_none, true_iff]
      rintro bus impact held' rfl
      rw [held] at held'
      cases held'
    | some impact =>
      rw [Option.any_some, Bool.eq_false_iff, ne_eq, impactIntersects_iff]
      constructor
      · rintro spared bus other held' rfl
        rw [held, Option.some.injEq] at held'
        exact held' ▸ spared
      · exact fun all => all ⟨number⟩ impact held rfl
  | _ => simpa only [RenderScope.Hears, true_implies, forall_const] using any

theorem mem_changedDomains {previous target : RenderPlanId} {domain : ProjectDomain} :
    domain ∈ (master previous.revisions).changedDomains (.master target.revisions) ↔
      domain ≠ .air ∧ previous.DomainChanged target domain := by
  have inserted : ∀ (changed : ExtTreeSet ProjectDomain) (other : ProjectDomain) (condition : Prop) [Decidable condition],
      domain ∈ (if condition then changed.insert other else changed) ↔ domain ∈ changed ∨ (condition ∧ other = domain) := by
    intro changed other condition _
    split
    · rename_i holds
      rw [mem_insert, compare_eq_iff_eq]
      simp [holds, or_comm]
    · rename_i fails
      simp [fails]
  unfold changedDomains RenderPlanId.DomainChanged
  simp only [foldl_cons, foldl_nil, inserted, not_mem_empty, false_or, master]
  cases domain <;> simp [ProjectRevisionStamp.generation]

theorem clean_iff {spec : TileRenderSpec} :
    (reuseTerms previous target (.master target.id.revisions) changes).clean spec = true ↔ Clean previous target changes spec := by
  set changed := (master previous.id.revisions).changedDomains (.master target.id.revisions) with changedIs
  set all := (if previous.id.revisions.air ≠ target.id.revisions.air then changed.insert .air else changed) with allIs
  have member : ∀ domain, domain ∈ all ↔ previous.id.DomainChanged target.id domain := by
    intro domain
    rw [allIs]
    split
    · rename_i air
      rw [mem_insert, compare_eq_iff_eq, changedIs, mem_changedDomains]
      by_cases same : domain = .air
      · subst same
        simpa [RenderPlanId.DomainChanged, ProjectRevisionStamp.generation] using air
      · simp [same, Ne.symm same]
    · rename_i air
      rw [changedIs, mem_changedDomains]
      by_cases same : domain = .air
      · subst same
        simpa [RenderPlanId.DomainChanged, ProjectRevisionStamp.generation] using not_not.mp air
      · simp [same]
  have exactly : all = changes.domains ↔ changes.ExactFor previous.id target.id := by
    constructor
    · intro same domain
      rw [← same, member]
    · intro named
      apply ext_mem
      intro domain
      rw [member, named]
  have onlyAir : all = empty.insert .air ↔ ∀ domain, previous.id.DomainChanged target.id domain ↔ domain = .air := by
    have single : ∀ domain, domain ∈ (empty : ExtTreeSet ProjectDomain compare).insert .air ↔ domain = .air := by
      intro domain
      rw [mem_insert, compare_eq_iff_eq, empty_eq_emptyc, or_iff_left not_mem_empty]
      exact eq_comm
    constructor
    · intro same domain
      rw [← member, same, single]
    · intro only
      apply ext_mem
      intro domain
      rw [member, single, only]
  have forward : (!changed.isEmpty) = true ↔ ∃ domain, domain ≠ .air ∧ previous.id.DomainChanged target.id domain := by
    rw [Bool.not_eq_true', Bool.eq_false_iff, ne_eq, ExtTreeSet.isEmpty_iff, ExtTreeSet.eq_empty_iff_forall_not_mem, not_forall]
    simp only [not_not, changedIs, mem_changedDomains]
  have terms : reuseTerms previous target (.master target.id.revisions) changes =
      ⟨changes, previous.id = target.id, all = empty.insert .air ∧ all = changes.domains ∧ ¬ changes.routingChanged ∧ changes.audio.isEmpty,
        !changed.isEmpty && decide (all = changes.domains) && !changes.routingChanged && !changes.audio.isEmpty⟩ := rfl
  rw [terms]
  unfold ReuseTerms.clean Clean
  dsimp only
  rw [← exactly, ← onlyAir, ← forward, ← scopeImpactIntersects_iff, ← ExtTreeMap.isEmpty_iff, ne_eq, ← ExtTreeMap.isEmpty_iff]
  cases changes.routingChanged <;> cases changes.audio.isEmpty <;> cases scopeImpactIntersects changes spec.scope spec.context <;>
    by_cases same : previous.id = target.id <;> by_cases exact' : all = changes.domains <;> simp [same, exact']

end Reuse

structure Publication where
  plan : RenderPlan
  cohort : PlaybackCohort

structure Edit where
  target : RenderPlan
  layout : TileLayout
  publicationLoop : Option RenderSpan
  proof : TileReuseProof
  rendered : ExtTreeMap I64 RenderProduct
  sequence : U64

def TileCohortDraft.publish (draft : TileCohortDraft) (sequence : U64) : Except RenderTileError PlaybackCohort :=
  (PlaybackCohort.new ⟨draft.plan, sequence⟩ draft.publicationLoop draft.required draft.products).mapError .product

namespace Edit

variable (before : Publication) (edit : Edit)

def derive : Except RenderTileError TileWorkPlan :=
  TileWorkPlan.derive before.cohort before.plan edit.target edit.layout edit.publicationLoop edit.proof

def draft : Except RenderTileError TileCohortDraft := do
  let work ← edit.derive before
  work.finish edit.rendered

def publish : Except RenderTileError PlaybackCohort := do
  let draft ← edit.draft before
  draft.publish edit.sequence

/-- A cohort that is refused leaves the last one in place. -/
def perform : Publication :=
  match edit.publish before with
  | .ok cohort => ⟨edit.target, cohort⟩
  | .error _ => before

end Edit

def TileRenderSpec.key (spec : TileRenderSpec) : RenderProductKey :=
  ⟨spec.plan, spec.scope, spec.core, .tile spec.grid spec.index, spec.boundaryRecipe⟩

structure Supplies (rendered : ExtTreeMap I64 RenderProduct) (decisions : List TileDecision) : Prop where
  each : ∀ spec, .render spec ∈ decisions → ∃ product, rendered[spec.index]? = some product ∧ product.producedBy = spec.key
  only : ∀ index ∈ rendered, ∃ spec, .render spec ∈ decisions ∧ spec.index = index

structure Carried (before : Publication) (edit : Edit) (spec : TileRenderSpec) (entry : CohortProduct) : Prop where
  comparable : Comparable before.plan edit.target
  clean : Clean before.plan edit.target edit.proof.changes spec
  held : before.cohort.entries[spec.slot]? = some entry
  partition : entry.product.producedBy.partition = .tile spec.grid spec.index
  recipe : entry.product.producedBy.boundaryRecipe = spec.boundaryRecipe

structure Publication.Kept (publication : Publication) : Prop where
  plan : publication.cohort.id.plan = publication.plan.id
  slots : ∀ (slot : RenderSlot) (entry : CohortProduct), publication.cohort.entries[slot]? = some entry →
    entry.slot = slot ∧ entry.product.producedBy.scope = slot.scope ∧ entry.product.producedBy.core = slot.span

section Finish

variable {carried : TileRenderSpec → CohortProduct → Prop} {rendered : ExtTreeMap I64 RenderProduct} {target : RenderPlanId}

section

variable (carried : TileRenderSpec → CohortProduct → Prop)

def Decides (spec : TileRenderSpec) (decision : TileDecision) : Prop :=
  (∃ product, carried spec product ∧ decision = .reuse product) ∨ ((∀ product, ¬ carried spec product) ∧ decision = .render spec)

def Fills (rendered : ExtTreeMap I64 RenderProduct) (spec : TileRenderSpec)
    (product : CohortProduct) : Prop :=
  carried spec product ∨
    ((∀ product, ¬ carried spec product) ∧
      ∃ fresh, rendered[spec.index]? = some fresh ∧ fresh.producedBy = spec.key ∧ product = ⟨spec.slot, fresh, .renderedForTarget⟩)

end

variable {spec : TileRenderSpec} {decisions : List TileDecision} {tiles : List TileRenderSpec}
  {products : List CohortProduct} {layout : TileLayout}

variable {decision : TileDecision} {plan : RenderPlan}

theorem Decides.slot (slots : ∀ spec product, carried spec product → product.slot = spec.slot)
    (decides : Decides carried spec decision) : decision.slot = spec.slot := by
  rcases decides with ⟨product, held, rfl⟩ | ⟨-, rfl⟩
  · exact slots spec product held
  · rfl

theorem Fills.slot (slots : ∀ spec product, carried spec product → product.slot = spec.slot)
    {product : CohortProduct} (fills : Fills carried rendered spec product) : product.slot = spec.slot := by
  rcases fills with held | ⟨-, fresh, -, -, rfl⟩
  · exact slots spec product held
  · rfl

theorem finishTile_fills (planned : spec.plan = target)
    (decides : Decides carried spec decision)
    (supplied : decision = .render spec → ∃ product, rendered[spec.index]? = some product ∧ product.producedBy = spec.key) :
    ∃ product, finishTile target rendered decision = .ok product ∧ Fills carried rendered spec product := by
  rcases decides with ⟨product, held, rfl⟩ | ⟨none, rfl⟩
  · exact ⟨product, rfl, .inl held⟩
  · obtain ⟨product, held, key⟩ := supplied rfl
    refine ⟨⟨spec.slot, product, .renderedForTarget⟩, ?_, .inr ⟨none, product, held, key, rfl⟩⟩
    unfold finishTile
    dsimp only
    rw [held]
    dsimp only
    rw [key, if_neg]
    simp [TileRenderSpec.key, planned]

theorem finish_tiles (planned : ∀ spec ∈ tiles, spec.plan = target)
    (decided : List.Forall₂ (Decides carried) tiles decisions)
    (supplied : ∀ spec, .render spec ∈ decisions → ∃ product, rendered[spec.index]? = some product ∧ product.producedBy = spec.key) :
    ∃ products, decisions.mapM (finishTile target rendered) = .ok products ∧
      List.Forall₂ (Fills carried rendered) tiles products := by
  induction decided with
  | nil => exact ⟨[], rfl, .nil⟩
  | cons decides rest tail =>
    obtain ⟨first, others⟩ := forall_mem_cons.mp planned
    obtain ⟨product, finished, fills⟩ := finishTile_fills first decides fun same => supplied _ (same ▸ mem_cons_self)
    obtain ⟨products, all, filled⟩ := tail others fun spec member => supplied spec (mem_cons_of_mem _ member)
    refine ⟨product :: products, ?_, .cons fills filled⟩
    rw [mapM_ok] at all ⊢
    exact .cons finished all

section

variable (slots : ∀ spec product, carried spec product → product.slot = spec.slot)
include slots

theorem decided_slots
    (decided : List.Forall₂ (Decides carried) tiles decisions) :
    decisions.map TileDecision.slot = tiles.map TileRenderSpec.slot := by
  induction decided with
  | nil => rfl
  | cons decides rest tail => rw [map_cons, map_cons, tail, decides.slot slots]

theorem filled_slots
    (filled : List.Forall₂ (Fills carried rendered) tiles products) :
    products.map (·.slot) = tiles.map TileRenderSpec.slot := by
  induction filled with
  | nil => rfl
  | cons fills rest tail => rw [map_cons, map_cons, tail, fills.slot slots]

theorem finish_ok
    {publicationLoop : Option RenderSpan} (planned : ∀ spec ∈ layout.tiles, spec.plan = target)
    (decided : List.Forall₂ (Decides carried) layout.tiles decisions) (supplies : Supplies rendered decisions) :
    ∃ products, finish ⟨target, publicationLoop, decisions⟩ rendered =
        .ok ⟨target, publicationLoop, layout.requiredSlots, products⟩ ∧
      List.Forall₂ (Fills carried rendered) layout.tiles products := by
  obtain ⟨products, all, filled⟩ := finish_tiles planned decided supplies.each
  refine ⟨products, ?_, filled⟩
  have expected : rendered.keys.find? (· ∉ decisions.filterMap consumedIndex) = none := by
    rw [find?_eq_none]
    intro index listed
    obtain ⟨spec, member, same⟩ := supplies.only index (ExtTreeMap.mem_keys.mp listed)
    rw [decide_eq_true_eq, not_not, mem_filterMap]
    exact ⟨.render spec, member, by rw [consumedIndex, same]⟩
  unfold finish
  rw [bind_ok]
  refine ⟨products, all, ?_⟩
  dsimp only
  rw [expected, decided_slots slots decided]
  rfl

end

theorem forall_matched {α β : Type} {related : α → β → Prop} {left : α → Prop} {right : β → Prop} {items : List α} {others : List β}
    (matched : List.Forall₂ related items others) (same : ∀ item ∈ items, ∀ other, related item other → (right other ↔ left item)) :
    (∀ other ∈ others, right other) ↔ ∀ item ∈ items, left item := by
  induction matched with
  | nil => simp
  | cons first rest tail =>
    rw [forall_mem_cons, forall_mem_cons, same _ mem_cons_self _ first,
      tail fun item member => same item (mem_cons_of_mem _ member)]

theorem publish_filled (slots : ∀ spec product, carried spec product → product.slot = spec.slot)
    (tiling : Tiling plan layout) (filled : List.Forall₂ (Fills carried rendered) layout.tiles products)
    (publicationLoop : Option RenderSpan) (sequence : U64) {cohort : PlaybackCohort} :
    TileCohortDraft.publish ⟨target, publicationLoop, layout.requiredSlots, products⟩ sequence = .ok cohort ↔
      layout.tiles ≠ [] ∧ (∀ product ∈ products, product.validateFor target = .ok ()) ∧
        ⟨⟨target, sequence⟩, publicationLoop, layout.requiredSlots, insertItems (·.slot) ∅ products, .ready⟩ = cohort := by
  have same : products.map (·.slot) = layout.requiredSlots := filled_slots slots filled
  have some : products ≠ [] ↔ layout.tiles ≠ [] := by
    rw [← length_pos_iff, ← length_pos_iff, filled.length_eq]
  unfold TileCohortDraft.publish
  dsimp only
  rw [mapError_ok, ← same, PlaybackCohort.new_ok (same ▸ tiling.sorted) (same ▸ tiling.disjoint), some]

theorem lookup_filled_slots (slots : ∀ spec product, carried spec product → product.slot = spec.slot)
    (tiling : Tiling plan layout)
    (filled : List.Forall₂ (Fills carried rendered) layout.tiles products) {slot : RenderSlot} {entry : CohortProduct}
    (held : (insertItems CohortProduct.slot ∅ products)[slot]? = some entry) :
    ∃ spec ∈ layout.tiles, spec.slot = slot ∧ Fills carried rendered spec entry := by
  have same : products.map CohortProduct.slot = layout.requiredSlots := filled_slots slots filled
  rw [lookup_filled (same ▸ tiling.nodup)] at held
  obtain ⟨member, rfl⟩ := held
  obtain ⟨offset, bound, rfl⟩ := getElem_of_mem member
  obtain ⟨length, each⟩ := forall₂_iff_get.mp filled
  have fills := each offset (by omega) bound
  simp only [get_eq_getElem] at fills
  exact ⟨_, getElem_mem _, (fills.slot slots).symm, fills⟩

end Finish

section Derivation

variable {before : Publication} {edit : Edit}

def CarriedAs (before : Publication) (edit : Edit) (spec : TileRenderSpec) (product : CohortProduct) : Prop :=
  ∃ entry, Carried before edit spec entry ∧ product = ⟨spec.slot, entry.product, .reused before.plan.id edit.proof.id⟩

theorem CarriedAs.slot (spec : TileRenderSpec) (product : CohortProduct) (carried : CarriedAs before edit spec product) :
    product.slot = spec.slot := by
  obtain ⟨entry, -, rfl⟩ := carried
  rfl

theorem previousBySlot_kept (kept : before.Kept) : previousBySlot before.cohort = before.cohort.entries :=
  refill fun found item held => (kept.slots found item held).1

variable {spec : TileRenderSpec}

theorem sameTile_iff {entry : CohortProduct} :
    sameTile spec entry = true ↔
      entry.product.producedBy.partition = .tile spec.grid spec.index ∧ entry.product.producedBy.boundaryRecipe = spec.boundaryRecipe := by
  unfold sameTile
  rw [decide_eq_true_eq]

theorem decideTile_decides (kept : before.Kept) (comparable : Comparable before.plan edit.target) (spec : TileRenderSpec) :
    Decides (CarriedAs before edit) spec (decideTile before.plan edit.proof
      (reuseTerms before.plan edit.target (.master edit.target.id.revisions) edit.proof.changes) (previousBySlot before.cohort) spec) := by
  rw [previousBySlot_kept kept]
  unfold decideTile
  cases found : reusable (reuseTerms before.plan edit.target (.master edit.target.id.revisions) edit.proof.changes) before.cohort.entries spec with
  | some entry =>
    unfold reusable at found
    split at found
    · rename_i clean
      obtain ⟨held, same⟩ := Option.filter_eq_some_iff.mp found
      obtain ⟨partition, recipe⟩ := sameTile_iff.mp same
      exact .inl ⟨_, ⟨entry, ⟨comparable, clean_iff.mp clean, held, partition, recipe⟩, rfl⟩, rfl⟩
    · cases found
  | none =>
    refine .inr ⟨?_, rfl⟩
    rintro product ⟨entry, ⟨-, clean, held, partition, recipe⟩, -⟩
    unfold reusable at found
    rw [if_pos (clean_iff.mpr clean), held, Option.filter_some, if_pos (sameTile_iff.mpr ⟨partition, recipe⟩)] at found
    cases found

theorem derive_ok (kept : before.Kept) (tiling : Tiling edit.target edit.layout) :
    ∃ decisions, edit.derive before = .ok ⟨edit.target.id, edit.publicationLoop, decisions⟩ ∧
      List.Forall₂ (Decides (CarriedAs before edit)) edit.layout.tiles decisions := by
  unfold Edit.derive derive
  rw [if_neg (not_or.mpr ⟨not_not.mpr kept.plan, not_not.mpr tiling.ofPlan⟩)]
  by_cases comparable : incomparable before.plan edit.target = true
  · rw [if_pos comparable]
    refine ⟨_, by rw [cold, tiling.ofPlan], ?_⟩
    rw [forall₂_map_right_iff, forall₂_same]
    intro spec _
    refine .inr ⟨?_, rfl⟩
    rintro product ⟨entry, carried, -⟩
    rw [comparable_iff.mpr carried.comparable] at comparable
    cases comparable
  · rw [if_neg comparable, tiling.input]
    refine ⟨_, rfl, ?_⟩
    rw [forall₂_map_right_iff, forall₂_same]
    intro spec _
    exact decideTile_decides kept (comparable_iff.mp (Bool.not_eq_true _ ▸ comparable)) spec

theorem validateFor_ok (kept : before.Kept) (nonzero : edit.proof.id.isZero = false) {product : CohortProduct}
    (planned : spec.plan = edit.target.id) (fills : Fills (CarriedAs before edit) edit.rendered spec product) :
    product.validateFor edit.target.id = .ok () ↔ ∀ entry, Carried before edit spec entry → entry.product.producedBy.plan = before.plan.id := by
  unfold CohortProduct.validateFor
  rcases fills with ⟨entry, carried, rfl⟩ | ⟨none, rendered, held, key, rfl⟩
  · obtain ⟨-, scope, core⟩ := kept.slots spec.slot entry carried.held
    dsimp only
    rw [if_neg (not_or.mpr ⟨not_not.mpr scope, not_not.mpr core⟩), ensure_ok, and_iff_left nonzero]
    constructor
    · intro same other carried'
      have agree := carried.held.symm.trans carried'.held
      rw [Option.some.injEq] at agree
      rw [← agree]
      exact same
    · exact fun all => all entry carried
  · dsimp only
    rw [key, if_neg, ensure_ok]
    · exact ⟨fun _ entry carried => absurd ⟨entry, carried, rfl⟩ (none _), fun _ => planned⟩
    · simp [TileRenderSpec.key, TileRenderSpec.slot]

def Fresh (before : Publication) (edit : Edit) : Prop :=
  ∀ spec ∈ edit.layout.tiles, ∀ entry, Carried before edit spec entry → entry.product.producedBy.plan = before.plan.id

/-- An edit of a chain: a layout of its own plan, a proof that names something, and a product for every tile to render. -/
structure Edit.Complete (before : Publication) (edit : Edit) : Prop where
  layout : ∃ policy scope, TileLayout.newForScope edit.target policy scope = .ok edit.layout
  proof : edit.proof.id.isZero = false
  supplies : ∀ work, edit.derive before = .ok work → Supplies edit.rendered work.decisions

theorem Edit.Complete.tiling (complete : edit.Complete before) : Tiling edit.target edit.layout := by
  obtain ⟨policy, scope, accepted⟩ := complete.layout
  exact TileLayout.newForScope_tiling accepted

theorem Tiling.planned {plan : RenderPlan} {layout : TileLayout} (tiling : Tiling plan layout) : ∀ spec ∈ layout.tiles, spec.plan = plan.id := by
  obtain ⟨scope, tiles⟩ := tiling.tiles
  exact fun spec member => (tiles spec member).ofPlan

theorem draft_ok (kept : before.Kept) (complete : edit.Complete before) :
    ∃ products, edit.draft before = .ok ⟨edit.target.id, edit.publicationLoop, edit.layout.requiredSlots, products⟩ ∧
      List.Forall₂ (Fills (CarriedAs before edit) edit.rendered) edit.layout.tiles products := by
  obtain ⟨decisions, derived, decided⟩ := derive_ok kept complete.tiling
  obtain ⟨products, finished, filled⟩ := finish_ok CarriedAs.slot complete.tiling.planned decided (complete.supplies _ derived)
  exact ⟨products, bind_ok.mpr ⟨_, derived, finished⟩, filled⟩

theorem publish_ok (kept : before.Kept) (complete : edit.Complete before) :
    ∃ products, List.Forall₂ (Fills (CarriedAs before edit) edit.rendered) edit.layout.tiles products ∧ ∀ cohort, edit.publish before = .ok cohort ↔
      (edit.layout.tiles ≠ [] ∧ Fresh before edit) ∧
        ⟨⟨edit.target.id, edit.sequence⟩, edit.publicationLoop, edit.layout.requiredSlots, insertItems (·.slot) ∅ products, .ready⟩ = cohort := by
  obtain ⟨products, drafted, filled⟩ := draft_ok kept complete
  refine ⟨products, filled, fun cohort => ?_⟩
  have passes : (∀ product ∈ products, product.validateFor edit.target.id = .ok ()) ↔ Fresh before edit :=
    forall_matched filled fun spec member product fills => validateFor_ok kept complete.proof (complete.tiling.planned spec member) fills
  unfold Edit.publish
  rw [drafted]
  show TileCohortDraft.publish _ _ = _ ↔ _
  rw [publish_filled CarriedAs.slot complete.tiling filled, passes, and_assoc]

end Derivation

end Audec.Render

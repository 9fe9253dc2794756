import Audec.Render.Products

/-! Incremental rendering in tiles: the layout of one plan, and which tiles of a published cohort the next plan reuses. -/

open Machine Checked
open Std (ExtTreeMap ExtTreeSet)

namespace Audec.Render

structure ConsumedRevisionStamp where
  arrangement : U64
  sequencer : U64
  automation : U64
  assets : U64
  mixer : U64
  sampleKits : U64
  bindings : U64
  deriving DecidableEq

namespace ConsumedRevisionStamp

def master (revisions : ProjectRevisionStamp) : ConsumedRevisionStamp where
  arrangement := revisions.arrangement
  sequencer := revisions.sequencer
  automation := revisions.automation
  assets := revisions.assets
  mixer := revisions.mixer
  sampleKits := revisions.sampleKits
  bindings := revisions.bindings

def changedDomains (stamp next : ConsumedRevisionStamp) : ExtTreeSet ProjectDomain :=
  [(ProjectDomain.arrangement, stamp.arrangement, next.arrangement), (.sequencer, stamp.sequencer, next.sequencer),
    (.automation, stamp.automation, next.automation), (.assets, stamp.assets, next.assets), (.mixer, stamp.mixer, next.mixer),
    (.sampleKits, stamp.sampleKits, next.sampleKits), (.bindings, stamp.bindings, next.bindings)].foldl
    (fun changed entry => if entry.2.1 ≠ entry.2.2 then changed.insert entry.1 else changed) ∅

end ConsumedRevisionStamp

structure TileInputStamp where
  consumedRevisions : ConsumedRevisionStamp
  engine : EngineRecipeStamp
  dependencies : List RenderDependencyStamp
  deriving DecidableEq

def TileInputStamp.fromPlan (plan : RenderPlan) : TileInputStamp where
  consumedRevisions := .master plan.id.revisions
  engine := plan.id.engine
  dependencies := plan.id.dependencies

structure TileRenderPolicy where
  grid : TileGrid
  maximumContextFrames : U64
  boundaryRecipe : ExactDigest
  tileability : Tileability
  deriving DecidableEq

structure TileRenderSpec where
  plan : RenderPlanId
  scope : RenderScope
  grid : TileGrid
  index : I64
  core : RenderSpan
  context : RenderSpan
  boundaryRecipe : ExactDigest
  deriving DecidableEq

namespace TileRenderSpec

def slot (spec : TileRenderSpec) : RenderSlot := ⟨spec.scope, spec.core⟩

end TileRenderSpec

inductive RenderTileError where
  | policyTileabilityMismatch (policy plan : Tileability)
  | contextCeilingExceeded (required ceiling : U64)
  | contextOverflow | checkpointRequired | sequentialOnly | tooManyTiles
  | tileOutsidePlan (index : I64)
  | planIdentityMismatch
  | missingRenderedTile (index : I64)
  | unexpectedRenderedTile (index : I64)
  | renderedTileMismatch (index : I64)
  | product (error : RenderProductError)
  deriving DecidableEq

structure TileLayout where
  plan : RenderPlanId
  input : TileInputStamp
  policy : TileRenderPolicy
  tiles : List TileRenderSpec
  deriving DecidableEq

def contextFor (extent core : RenderSpan) (lookbehind lookahead : U64) : Except RenderTileError RenderSpan := do
  ensure (lookbehind.val < 0x8000000000000000) .contextOverflow
  ensure (lookahead.val < 0x8000000000000000) .contextOverflow
  ensure (-0x8000000000000000 ≤ core.start.val - lookbehind.val) .contextOverflow
  ensure (core.stop.val + lookahead.val < 0x8000000000000000) .contextOverflow
  (RenderSpan.new (max (.wrap (core.start.val - lookbehind.val)) extent.start)
    (min (.wrap (core.stop.val + lookahead.val)) extent.stop)).mapError fun _ => .contextOverflow

def contextFrames : Tileability → Except RenderTileError (U64 × U64)
  | .stateless => .ok (0, 0)
  | .boundedHistory lookbehind lookahead => .ok (lookbehind, lookahead)
  | .checkpointable => .error .checkpointRequired
  | .sequentialOnly => .error .sequentialOnly

def tileSpec (plan : RenderPlan) (policy : TileRenderPolicy) (scope : RenderScope) (frames : U64 × U64) (index : I64) :
    Except RenderTileError TileRenderSpec := do
  let full ← (policy.grid.span index).mapError .product
  match full.intersection plan.extent with
  | none => .error (.tileOutsidePlan index)
  | some core =>
    let context ← contextFor plan.extent core frames.1 frames.2
    .ok ⟨plan.id, scope, policy.grid, index, core, context, policy.boundaryRecipe⟩

def tileCount (first last : I64) : Except RenderTileError Nat := do
  let count := last.val - first.val + 1
  ensure (-0x8000000000000000 ≤ last.val - first.val ∧ last.val - first.val < 0x8000000000000000 - 1 ∧ 0 ≤ count) .tooManyTiles
  .ok count.toNat

namespace TileLayout

def newForScope (plan : RenderPlan) (policy : TileRenderPolicy) (scope : RenderScope) : Except RenderTileError TileLayout := do
  ensure (policy.tileability = plan.tileability) (.policyTileabilityMismatch policy.tileability plan.tileability)
  let frames ← contextFrames plan.tileability
  let required := max frames.1 frames.2
  ensure (required ≤ policy.maximumContextFrames) (.contextCeilingExceeded required policy.maximumContextFrames)
  let first := policy.grid.indexFor plan.extent.start
  let last := policy.grid.indexFor (.wrap (plan.extent.stop.val - 1))
  let count ← tileCount first last
  let tiles ← (List.range count).mapM fun (offset : Nat) => tileSpec plan policy scope frames (.wrap (first.val + offset))
  .ok ⟨plan.id, .fromPlan plan, policy, tiles⟩

def requiredSlots (layout : TileLayout) : List RenderSlot := layout.tiles.map TileRenderSpec.slot

end TileLayout

inductive TileDecision where
  | render (spec : TileRenderSpec)
  | reuse (product : CohortProduct)

def TileDecision.slot : TileDecision → RenderSlot
  | .render spec => spec.slot
  | .reuse product => product.slot

structure TileReuseProof where
  id : ExactDigest
  changes : ChangeSet

structure TileWorkPlan where
  target : RenderPlanId
  publicationLoop : Option RenderSpan
  decisions : List TileDecision

structure TileCohortDraft where
  plan : RenderPlanId
  publicationLoop : Option RenderSpan
  required : List RenderSlot
  products : List CohortProduct

def impactIntersects (span : RenderSpan) : BusImpact → Bool
  | .whole => true
  | .ranges ranges => ranges.any fun changed => changed.start < span.stop ∧ span.start < changed.stop

def scopeImpactIntersects (changes : ChangeSet) (scope : RenderScope) (span : RenderSpan) : Bool :=
  match scope with
  | .bus bus _ => changes.audio[BusId.mk bus]?.any (impactIntersects span)
  | _ => (Entries.values changes.audio).any (impactIntersects span)

/-- What may not differ between two plans for any tile to be reused. -/
def incomparable (previous target : RenderPlan) : Bool :=
  previous.id.schemaVersion ≠ target.id.schemaVersion ∨ previous.id.projectNamespace ≠ target.id.projectNamespace ∨
    previous.extent ≠ target.extent ∨ previous.format ≠ target.format ∨ previous.determinism ≠ .bitExact ∨
    target.determinism ≠ .bitExact ∨ previous.id.engine ≠ target.id.engine ∨ previous.tileability ≠ target.tileability

/-- What the loop over the tiles decides by, computed once before it. -/
structure ReuseTerms where
  changes : ChangeSet
  samePlan : Bool
  airOnlyChange : Bool
  rangeProofUsable : Bool

def reuseTerms (previous target : RenderPlan) (consumed : ConsumedRevisionStamp) (changes : ChangeSet) : ReuseTerms :=
  let changed := (ConsumedRevisionStamp.master previous.id.revisions).changedDomains consumed
  let allChanged := if previous.id.revisions.air ≠ target.id.revisions.air then changed.insert .air else changed
  let exactDomainProof := allChanged = changes.domains
  { changes
    samePlan := previous.id = target.id
    airOnlyChange := allChanged = ExtTreeSet.empty.insert .air ∧ exactDomainProof ∧ ¬ changes.routingChanged ∧ changes.audio.isEmpty
    rangeProofUsable := !changed.isEmpty && exactDomainProof && !changes.routingChanged && !changes.audio.isEmpty }

namespace ReuseTerms

def clean (terms : ReuseTerms) (spec : TileRenderSpec) : Bool :=
  if terms.samePlan || terms.airOnlyChange then true
  else if terms.rangeProofUsable then !scopeImpactIntersects terms.changes spec.scope spec.context
  else false

end ReuseTerms

def sameTile (spec : TileRenderSpec) (entry : CohortProduct) : Bool :=
  entry.product.producedBy.partition = .tile spec.grid spec.index ∧ entry.product.producedBy.boundaryRecipe = spec.boundaryRecipe

def previousBySlot (previous : PlaybackCohort) : ExtTreeMap RenderSlot CohortProduct :=
  previous.products.foldl (fun bySlot entry => bySlot.insert entry.slot entry) ∅

def reusable (terms : ReuseTerms) (bySlot : ExtTreeMap RenderSlot CohortProduct) (spec : TileRenderSpec) : Option CohortProduct :=
  if terms.clean spec then bySlot[spec.slot]?.filter (sameTile spec) else none

namespace TileWorkPlan

def cold (layout : TileLayout) (publicationLoop : Option RenderSpan) : TileWorkPlan :=
  ⟨layout.plan, publicationLoop, layout.tiles.map .render⟩

def decideTile (previousPlan : RenderPlan) (proof : TileReuseProof) (terms : ReuseTerms)
    (bySlot : ExtTreeMap RenderSlot CohortProduct) (spec : TileRenderSpec) : TileDecision :=
  match reusable terms bySlot spec with
  | some entry => .reuse ⟨spec.slot, entry.product, .reused previousPlan.id proof.id⟩
  | none => .render spec

def derive (previous : PlaybackCohort) (previousPlan targetPlan : RenderPlan) (targetLayout : TileLayout)
    (publicationLoop : Option RenderSpan) (proof : TileReuseProof) : Except RenderTileError TileWorkPlan :=
  if previous.id.plan ≠ previousPlan.id ∨ targetLayout.plan ≠ targetPlan.id then .error .planIdentityMismatch
  else if incomparable previousPlan targetPlan then .ok (cold targetLayout publicationLoop)
  else
    let terms := reuseTerms previousPlan targetPlan targetLayout.input.consumedRevisions proof.changes
    .ok ⟨targetPlan.id, publicationLoop, targetLayout.tiles.map (decideTile previousPlan proof terms (previousBySlot previous))⟩

def finishTile (target : RenderPlanId) (rendered : ExtTreeMap I64 RenderProduct) :
    TileDecision → Except RenderTileError CohortProduct
  | .reuse product => .ok product
  | .render spec =>
    match rendered[spec.index]? with
    | none => .error (.missingRenderedTile spec.index)
    | some product =>
      if product.producedBy.plan ≠ target ∨ product.producedBy.scope ≠ spec.scope ∨ product.producedBy.core ≠ spec.core ∨
          product.producedBy.boundaryRecipe ≠ spec.boundaryRecipe ∨ product.producedBy.partition ≠ .tile spec.grid spec.index then
        .error (.renderedTileMismatch spec.index)
      else
        .ok ⟨spec.slot, product, .renderedForTarget⟩

def consumedIndex : TileDecision → Option I64
  | .render spec => some spec.index
  | .reuse _ => none

def finish (work : TileWorkPlan) (rendered : ExtTreeMap I64 RenderProduct) : Except RenderTileError TileCohortDraft := do
  let products ← work.decisions.mapM (finishTile work.target rendered)
  match rendered.keys.find? (· ∉ work.decisions.filterMap consumedIndex) with
  | some unexpected => .error (.unexpectedRenderedTile unexpected)
  | none => .ok ⟨work.target, work.publicationLoop, work.decisions.map TileDecision.slot, products⟩

end TileWorkPlan

end Audec.Render

import Audec.Render.Plan

/-! Rendered PCM products, and the cohorts that publish them for one target plan. -/

open Machine Checked Codes
open Std (ExtTreeMap)

namespace Audec.Render

def isPowerOfTwo (frames : U32) : Bool := frames.val ≠ 0 ∧ frames.val &&& (frames.val - 1) = 0

structure TileGrid where
  tileFrames : U32
  power : isPowerOfTwo tileFrames
  deriving DecidableEq

inductive ProductPartition where
  | wholeBounce
  | tile (grid : TileGrid) (index : I64)
  | contiguousRun (anchorFrame : I64) (sequence : U32)
  deriving DecidableEq

structure RenderSlot where
  scope : RenderScope
  span : RenderSpan
  deriving DecidableEq

def BusTap.position : BusTap → Int
  | .preFader => 0
  | .postFader => 1
  | .output => 2

theorem BusTap.position_injective : Function.Injective BusTap.position := by
  intro a b same
  cases a <;> cases b <;> first | rfl | cases same

def RenderScope.code : RenderScope → List Int
  | .master => [0]
  | .bus number tap => [1, number.val, tap.position]
  | .track number => [2, number.val]
  | .explanation id => [3, id.origin.val, id.number.val]

theorem RenderScope.code_delimited : SelfDelimiting RenderScope.code := by
  intro a b rest rest' same
  cases a with
  | explanation id =>
    cases b with
    | explanation other =>
      obtain ⟨origin, number⟩ := id
      obtain ⟨origin', number'⟩ := other
      simp_all [RenderScope.code, Fin.ext_iff]
    | _ => simp [RenderScope.code] at same
  | _ => cases b <;> simp_all [RenderScope.code, Fin.ext_iff, BusTap.position_injective.eq_iff]

def RenderSpan.code (span : RenderSpan) : List Int := [span.start.val, span.stop.val]

theorem RenderSpan.code_delimited : SelfDelimiting RenderSpan.code := by
  rintro ⟨start, stop⟩ ⟨start', stop'⟩ rest rest' same
  simp_all [RenderSpan.code, I64.val_injective.eq_iff]

def RenderSlot.code (slot : RenderSlot) : List Int := slot.scope.code ++ slot.span.code

theorem RenderSlot.code_delimited : SelfDelimiting RenderSlot.code := by
  rintro ⟨scope, span⟩ ⟨scope', span'⟩ rest rest' same
  simp only [RenderSlot.code, List.append_assoc] at same
  obtain ⟨rfl, spans⟩ := RenderScope.code_delimited _ _ _ _ same
  obtain ⟨rfl, tails⟩ := RenderSpan.code_delimited _ _ _ _ spans
  exact ⟨rfl, tails⟩

namespace RenderSlot

instance linearOrder : LinearOrder RenderSlot := codedOrder code code_delimited.injective

instance transOrd : Std.TransOrd RenderSlot := inferInstance

instance lawfulEqOrd : Std.LawfulEqOrd RenderSlot := ⟨compare_eq_iff_eq.mp⟩

end RenderSlot

structure RenderProductId where
  pcm : ExactDigest
  format : RenderFormat
  frames : U64
  deriving DecidableEq

inductive RenderProductError where
  | invalidTileFrames (frames : U32)
  | tileRangeOverflow (index : I64)
  | tileSpanMismatch (expected actual : RenderSpan)
  | outsidePlan (product plan : RenderSpan)
  | productTooLarge
  | sampleCount (expected actual : Nat)
  | nonFiniteSample (index : Nat)
  | productSlotMismatch | wrongProductPlan | invalidReuseProof | emptyCohort
  | overlappingCohortSlots (left right : RenderSlot)
  | unexpectedCohortSlot (slot : RenderSlot)
  | duplicateCohortSlot (slot : RenderSlot)
  | digestCollision (id : RenderProductId)
  deriving DecidableEq

namespace TileGrid

def new (tileFrames : U32) : Except RenderProductError TileGrid :=
  if power : isPowerOfTwo tileFrames then .ok ⟨tileFrames, power⟩ else .error (.invalidTileFrames tileFrames)

def indexFor (grid : TileGrid) (frame : I64) : I64 := .wrap (frame.val / grid.tileFrames.val)

def span (grid : TileGrid) (index : I64) : Except RenderProductError RenderSpan :=
  let start := index.val * grid.tileFrames.val
  let stop := start + grid.tileFrames.val
  if start < -0x8000000000000000 ∨ stop > 0x7fffffffffffffff then .error (.tileRangeOverflow index)
  else (RenderSpan.new (.wrap start) (.wrap stop)).mapError fun _ => .tileRangeOverflow index

end TileGrid

structure RenderProductKey where
  plan : RenderPlanId
  scope : RenderScope
  core : RenderSpan
  partition : ProductPartition
  boundaryRecipe : ExactDigest
  deriving DecidableEq

def checkPartition (extent core : RenderSpan) : ProductPartition → Except RenderProductError Unit
  | .tile grid index => do
    let tile ← grid.span index
    match tile.intersection extent with
    | none => .error (.outsidePlan tile extent)
    | some expected => ensure (expected = core) (.tileSpanMismatch expected core)
  | _ => .ok ()

def RenderProductKey.new (plan : RenderPlanId) (scope : RenderScope) (core : RenderSpan) (partition : ProductPartition)
    (boundaryRecipe : ExactDigest) : Except RenderProductError RenderProductKey := do
  ensure (plan.compiledExtent.containsSpan core) (.outsidePlan core plan.compiledExtent)
  checkPartition plan.compiledExtent core partition
  .ok ⟨plan, scope, core, partition, boundaryRecipe⟩

structure RenderProduct where
  id : RenderProductId
  producedBy : RenderProductKey
  interleaved : List Float32

def RenderProduct.new (pcmDigest : ExactDigest) (producedBy : RenderProductKey) (interleaved : List Float32) :
    Except RenderProductError RenderProduct := do
  let format := producedBy.plan.engine.format
  let expected := producedBy.core.len.val * format.channels.val
  ensure (expected < 0x10000000000000000) .productTooLarge
  ensure (interleaved.length = expected) (.sampleCount expected interleaved.length)
  match interleaved.findIdx? fun sample => !sample.isFinite with
  | some index => .error (.nonFiniteSample index)
  | none => .ok ⟨⟨pcmDigest, format, producedBy.core.len⟩, producedBy, interleaved⟩

inductive CohortProductProvenance where
  | renderedForTarget
  | reused (fromPlan : RenderPlanId) (proof : ExactDigest)

structure CohortProduct where
  slot : RenderSlot
  product : RenderProduct
  provenance : CohortProductProvenance

def CohortProduct.validateFor (entry : CohortProduct) (target : RenderPlanId) : Except RenderProductError Unit :=
  if entry.product.producedBy.scope ≠ entry.slot.scope ∨ entry.product.producedBy.core ≠ entry.slot.span then
    .error .productSlotMismatch
  else
    match entry.provenance with
    | .renderedForTarget => ensure (entry.product.producedBy.plan = target) .wrongProductPlan
    | .reused fromPlan proof => ensure (entry.product.producedBy.plan = fromPlan ∧ proof.isZero = false) .invalidReuseProof

structure PlaybackCohortId where
  plan : RenderPlanId
  sequence : U64
  deriving DecidableEq

inductive CohortReadiness where
  | priming (missing : List RenderSlot)
  | ready
  deriving DecidableEq

structure PlaybackCohort where
  id : PlaybackCohortId
  publicationLoop : Option RenderSpan
  required : List RenderSlot
  entries : ExtTreeMap RenderSlot CohortProduct
  readiness : CohortReadiness

def overlapping : List RenderSlot → Option (RenderSlot × RenderSlot)
  | left :: right :: rest =>
    if left.scope = right.scope ∧ left.span.intersects right.span then some (left, right) else overlapping (right :: rest)
  | _ => none

/-- `sort` and `dedup`. -/
def sortedSlots (required : List RenderSlot) : List RenderSlot :=
  (required.insertionSort (· ≤ ·)).destutter (· ≠ ·)

def enter (target : RenderPlanId) (required : List RenderSlot) (entries : ExtTreeMap RenderSlot CohortProduct)
    (product : CohortProduct) : Except RenderProductError (ExtTreeMap RenderSlot CohortProduct) := do
  ensure (product.slot ∈ required) (.unexpectedCohortSlot product.slot)
  product.validateFor target
  ensure (product.slot ∉ entries) (.duplicateCohortSlot product.slot)
  .ok (entries.insert product.slot product)

namespace PlaybackCohort

def new (id : PlaybackCohortId) (publicationLoop : Option RenderSpan) (required : List RenderSlot) (products : List CohortProduct) :
    Except RenderProductError PlaybackCohort := do
  let required := sortedSlots required
  ensure (required ≠ []) .emptyCohort
  match overlapping required with
  | some (left, right) => .error (.overlappingCohortSlots left right)
  | none =>
    let entries ← products.foldlM (enter id.plan required) ∅
    let missing := required.filter (· ∉ entries)
    .ok ⟨id, publicationLoop, required, entries, if missing = [] then .ready else .priming missing⟩

def products (cohort : PlaybackCohort) : List CohortProduct := Entries.values cohort.entries

def isReady (cohort : PlaybackCohort) : Bool := cohort.readiness = .ready

end PlaybackCohort

end Audec.Render

import Audec.Lib.Machine
import Audec.Lib.ByteReader

/-! The structural identity of a renderable project state: revisions, dependencies, engine recipe and extent. -/

open Machine Checked Codes

namespace Audec.Render

abbrev U16 := Fin 0x10000
abbrev U128 := Fin 0x100000000000000000000000000000000

structure ExactDigest where
  bytes : Vector UInt8 32
  deriving DecidableEq

def ExactDigest.zero : ExactDigest := ⟨Vector.replicate 32 0⟩

def ExactDigest.isZero (digest : ExactDigest) : Bool := digest = .zero

inductive ProjectDomain where
  | arrangement | sequencer | automation | assets | mixer | sampleKits | air | bindings
  deriving DecidableEq

namespace ProjectDomain

def position : ProjectDomain → Fin 8
  | .arrangement => 0
  | .sequencer => 1
  | .automation => 2
  | .assets => 3
  | .mixer => 4
  | .sampleKits => 5
  | .air => 6
  | .bindings => 7

theorem position_injective : Function.Injective position := by
  intro a b same
  cases a <;> cases b <;> first | rfl | cases same

def code (domain : ProjectDomain) : List Int := [domain.position.val]

theorem code_delimited : SelfDelimiting code := .single (val_injective.comp position_injective)

instance linearOrder : LinearOrder ProjectDomain := LinearOrder.lift' position position_injective

instance transOrd : Std.TransOrd ProjectDomain := inferInstance

instance lawfulEqOrd : Std.LawfulEqOrd ProjectDomain := ⟨compare_eq_iff_eq.mp⟩

end ProjectDomain

structure BusId where
  raw : U64
  deriving DecidableEq

namespace BusId

theorem raw_injective : Function.Injective BusId.raw := by
  rintro ⟨a⟩ ⟨b⟩ same
  cases same
  rfl

def code (bus : BusId) : List Int := [bus.raw.val]

theorem code_delimited : SelfDelimiting code := .single (val_injective.comp raw_injective)

instance linearOrder : LinearOrder BusId := LinearOrder.lift' BusId.raw raw_injective

instance transOrd : Std.TransOrd BusId := inferInstance

instance lawfulEqOrd : Std.LawfulEqOrd BusId := ⟨compare_eq_iff_eq.mp⟩

end BusId

inductive RenderDependencyKey where
  | mediaAsset (asset : U64)
  | analysisArtifact (origin : U128) (number : U64)
  | pluginInstance (plugin : U64)
  | modelArtifact (origin : U128) (number : U64)
  | external (origin : U128) (number : U128)
  deriving DecidableEq

namespace RenderDependencyKey

def code : RenderDependencyKey → List Int
  | .mediaAsset asset => [0, asset.val]
  | .analysisArtifact origin number => [1, origin.val, number.val]
  | .pluginInstance plugin => [2, plugin.val]
  | .modelArtifact origin number => [3, origin.val, number.val]
  | .external origin number => [4, origin.val, number.val]

theorem code_delimited : SelfDelimiting code := by
  intro a b rest rest' same
  cases a <;> cases b <;> simp_all [code, Fin.ext_iff]

instance linearOrder : LinearOrder RenderDependencyKey := codedOrder code code_delimited.injective

instance transOrd : Std.TransOrd RenderDependencyKey := inferInstance

instance lawfulEqOrd : Std.LawfulEqOrd RenderDependencyKey := ⟨compare_eq_iff_eq.mp⟩

end RenderDependencyKey

structure RenderDependencyStamp where
  key : RenderDependencyKey
  content : ExactDigest
  runtimeGeneration : U64
  deriving DecidableEq

/-- A half-open range of project frames. Its fields are public, so it may be empty or reversed. -/
structure RenderSpan where
  start : I64
  stop : I64
  deriving DecidableEq

inductive RenderPlanError where
  | emptySpan (start stop : I64)
  | zeroSampleRate | zeroChannels | zeroBlockFrames
  | duplicateDependency (key : RenderDependencyKey)

namespace RenderSpan

def new (start stop : I64) : Except RenderPlanError RenderSpan :=
  if start < stop then .ok ⟨start, stop⟩ else .error (.emptySpan start stop)

def len (span : RenderSpan) : U64 := Fin.ofNat _ ((span.stop.saturatingSub span.start).val % 0x10000000000000000).toNat

def containsSpan (span other : RenderSpan) : Bool := span.start ≤ other.start ∧ other.stop ≤ span.stop

def intersects (span other : RenderSpan) : Bool := span.start < other.stop ∧ other.start < span.stop

def intersection (span other : RenderSpan) : Option RenderSpan :=
  let start := max span.start other.start
  let stop := min span.stop other.stop
  if start < stop then some ⟨start, stop⟩ else none

end RenderSpan

structure RenderFormat where
  sampleRate : U32
  channels : U16
  rateNonzero : sampleRate ≠ 0
  channelsNonzero : channels ≠ 0
  deriving DecidableEq

def RenderFormat.new (sampleRate : U32) (channels : U16) : Except RenderPlanError RenderFormat :=
  if noRate : sampleRate = 0 then .error .zeroSampleRate
  else if noChannels : channels = 0 then .error .zeroChannels
  else .ok ⟨sampleRate, channels, noRate, noChannels⟩

structure ProjectRevisionStamp where
  aggregate : U64
  arrangement : U64
  sequencer : U64
  automation : U64
  assets : U64
  mixer : U64
  sampleKits : U64
  air : U64
  bindings : U64
  deriving DecidableEq

def ProjectRevisionStamp.generation (revisions : ProjectRevisionStamp) : ProjectDomain → U64
  | .arrangement => revisions.arrangement
  | .sequencer => revisions.sequencer
  | .automation => revisions.automation
  | .assets => revisions.assets
  | .mixer => revisions.mixer
  | .sampleKits => revisions.sampleKits
  | .air => revisions.air
  | .bindings => revisions.bindings

structure EngineRecipeStamp where
  engineAbi : U32
  format : RenderFormat
  canonicalBlockFrames : U32
  performanceSeed : U64
  configuration : ExactDigest
  blockNonzero : canonicalBlockFrames ≠ 0
  deriving DecidableEq

def EngineRecipeStamp.new (engineAbi : U32) (format : RenderFormat) (canonicalBlockFrames : U32) (performanceSeed : U64)
    (configuration : ExactDigest) : Except RenderPlanError EngineRecipeStamp :=
  if noFrames : canonicalBlockFrames = 0 then .error .zeroBlockFrames
  else .ok ⟨engineAbi, format, canonicalBlockFrames, performanceSeed, configuration, noFrames⟩

inductive DeterminismGrade where
  | bitExact | stableWithinTolerance | nonDeterministic
  deriving DecidableEq

inductive BusTap where
  | preFader | postFader | output
  deriving DecidableEq

structure ExplanationScopeId where
  origin : U128
  number : U64
  deriving DecidableEq

inductive RenderScope where
  | master
  | bus (bus : U64) (tap : BusTap)
  | track (track : U64)
  | explanation (id : ExplanationScopeId)
  deriving DecidableEq

inductive Tileability where
  | stateless
  | boundedHistory (lookbehindFrames lookaheadFrames : U64)
  | checkpointable
  | sequentialOnly
  deriving DecidableEq

structure RenderPlanId where
  schemaVersion : U16
  projectNamespace : U128
  snapshot : ExactDigest
  revisions : ProjectRevisionStamp
  compiledExtent : RenderSpan
  engine : EngineRecipeStamp
  dependencies : List RenderDependencyStamp
  sorted : dependencies.Pairwise fun left right => left.key < right.key
  deriving DecidableEq

/-- The first of two neighbours with the same key. -/
def adjacentDuplicate : List RenderDependencyStamp → Option RenderDependencyKey
  | left :: right :: rest => if left.key = right.key then some left.key else adjacentDuplicate (right :: rest)
  | _ => none

theorem strictly_sorted {stamps : List RenderDependencyStamp} (sorted : stamps.Pairwise fun left right => left.key ≤ right.key)
    (distinct : adjacentDuplicate stamps = none) : stamps.Pairwise fun left right => left.key < right.key := by
  induction stamps with
  | nil => exact List.Pairwise.nil
  | cons left rest tail =>
    obtain ⟨first, others⟩ := List.pairwise_cons.mp sorted
    cases rest with
    | nil => exact List.pairwise_singleton _ _
    | cons right rest =>
      unfold adjacentDuplicate at distinct
      split at distinct
      · cases distinct
      · rename_i different
        have strict := tail others distinct
        have next : left.key < right.key := lt_of_le_of_ne (first right List.mem_cons_self) different
        refine List.pairwise_cons.mpr ⟨fun other member => ?_, strict⟩
        rcases List.mem_cons.mp member with rfl | later
        · exact next
        · exact next.trans ((List.pairwise_cons.mp strict).1 other later)

def sortStamps (stamps : List RenderDependencyStamp) : List RenderDependencyStamp :=
  stamps.insertionSort fun left right => left.key ≤ right.key

theorem sortStamps_sorted (stamps : List RenderDependencyStamp) :
    (sortStamps stamps).Pairwise fun left right => left.key ≤ right.key := by
  have total : Std.Total fun left right : RenderDependencyStamp => left.key ≤ right.key := ⟨fun _ _ => le_total _ _⟩
  have trans : IsTrans RenderDependencyStamp fun left right => left.key ≤ right.key := ⟨fun _ _ _ => le_trans⟩
  exact List.pairwise_insertionSort _ _

def RenderPlanId.schemaVersionNow : U16 := 1

def RenderPlanId.new (projectNamespace : U128) (snapshot : ExactDigest) (revisions : ProjectRevisionStamp) (compiledExtent : RenderSpan)
    (engine : EngineRecipeStamp) (dependencies : List RenderDependencyStamp) : Except RenderPlanError RenderPlanId :=
  match duplicate : adjacentDuplicate (sortStamps dependencies) with
  | some key => .error (.duplicateDependency key)
  | none =>
    .ok ⟨schemaVersionNow, projectNamespace, snapshot, revisions, compiledExtent, engine, sortStamps dependencies,
      strictly_sorted (sortStamps_sorted dependencies) duplicate⟩

def RenderPlanId.DomainChanged (previous target : RenderPlanId) (domain : ProjectDomain) : Prop :=
  previous.revisions.generation domain ≠ target.revisions.generation domain

@[ext]
structure RenderPlan where
  id : RenderPlanId
  determinism : DeterminismGrade
  tileability : Tileability
  deriving DecidableEq

def RenderPlan.format (plan : RenderPlan) : RenderFormat := plan.id.engine.format

def RenderPlan.extent (plan : RenderPlan) : RenderSpan := plan.id.compiledExtent

section Example

theorem rate_nonzero : (48000 : U32) ≠ 0 := by decide
theorem channels_nonzero : (2 : U16) ≠ 0 := by decide
theorem block_nonzero : (512 : U32) ≠ 0 := by decide

def plainEngine : EngineRecipeStamp := ⟨1, ⟨48000, 2, rate_nonzero, channels_nonzero⟩, 512, 9, .zero, block_nonzero⟩

theorem unstamped_sorted : ([] : List RenderDependencyStamp).Pairwise fun left right => left.key < right.key := .nil

def plainRecipe : ExactDigest := ⟨Vector.replicate 32 3⟩

end Example

end Audec.Render

/-! What a project command may have changed: domains, audio ranges of buses, and routing. -/

open Machine Codes
open Std (ExtTreeMap ExtTreeSet)

namespace Audec.Render

/-- A half-open range of signed project frames. Its fields are public. -/
structure AudioRange where
  start : I64
  stop : I64
  deriving DecidableEq

namespace AudioRange

structure Invalid where
  start : I64
  stop : I64

def new (start stop : I64) : Except Invalid AudioRange :=
  if start ≥ stop then .error ⟨start, stop⟩ else .ok ⟨start, stop⟩

def intersectsOrTouches (range other : AudioRange) : Bool := range.start ≤ other.stop ∧ other.start ≤ range.stop

def union (range other : AudioRange) : Option AudioRange :=
  if range.intersectsOrTouches other then some ⟨min range.start other.start, max range.stop other.stop⟩ else none

def code (range : AudioRange) : List Int := [range.start.val, range.stop.val]

theorem code_delimited : SelfDelimiting code := by
  rintro ⟨start, stop⟩ ⟨start', stop'⟩ rest rest' same
  simp_all [code, I64.val_injective.eq_iff]

/-- The derived order: by start, then by end. -/
def precedes (range other : AudioRange) : Bool :=
  range.start < other.start ∨ (range.start = other.start ∧ range.stop ≤ other.stop)

end AudioRange

def absorb (normalized : List AudioRange) (range : AudioRange) : List AudioRange :=
  match normalized.getLast? with
  | none => normalized ++ [range]
  | some last =>
    match last.union range with
    | none => normalized ++ [range]
    | some merged => normalized.dropLast ++ [merged]

def normalizeRanges (ranges : List AudioRange) : List AudioRange :=
  (ranges.insertionSort fun range other => range.precedes other).foldl absorb []

inductive BusImpact where
  | whole
  | ranges (ranges : List AudioRange)
  deriving DecidableEq

namespace BusImpact

def ofRanges (incoming : List AudioRange) : BusImpact := .ranges (normalizeRanges incoming)

def isEmpty : BusImpact → Bool
  | .whole => false
  | .ranges impacted => impacted.isEmpty

def merge : BusImpact → BusImpact → BusImpact
  | .whole, _ => .whole
  | _, .whole => .whole
  | .ranges left, .ranges right => .ranges (normalizeRanges (left ++ right))

/-- Some frame of the span may have changed. -/
def Touches (span : RenderSpan) : BusImpact → Prop
  | .whole => True
  | .ranges impacted => ∃ range ∈ impacted, range.start < span.stop ∧ span.start < range.stop

end BusImpact

structure ChangeSet where
  domains : ExtTreeSet ProjectDomain
  audio : ExtTreeMap BusId BusImpact
  routingChanged : Bool

namespace ChangeSet

def default : ChangeSet := ⟨∅, ∅, false⟩

def touch (changes : ChangeSet) (domain : ProjectDomain) : ChangeSet := { changes with domains := changes.domains.insert domain }

def impact (changes : ChangeSet) (bus : BusId) (incoming : BusImpact) : ChangeSet :=
  match changes.audio[bus]? with
  | none => { changes with audio := changes.audio.insert bus incoming }
  | some held => { changes with audio := changes.audio.insert bus (held.merge incoming) }

def invalidateRange (changes : ChangeSet) (bus : BusId) (range : AudioRange) : ChangeSet :=
  changes.impact bus (.ranges [range])

def invalidateRanges (changes : ChangeSet) (bus : BusId) (ranges : List AudioRange) : ChangeSet :=
  let incoming := BusImpact.ofRanges ranges
  if incoming.isEmpty then changes else changes.impact bus incoming

def invalidateBus (changes : ChangeSet) (bus : BusId) : ChangeSet :=
  { changes with audio := changes.audio.insert bus .whole }

def markRoutingChanged (changes : ChangeSet) : ChangeSet := { changes with routingChanged := true }

def ExactFor (changes : ChangeSet) (previous target : RenderPlanId) : Prop :=
  ∀ domain, domain ∈ changes.domains ↔ previous.DomainChanged target domain

end ChangeSet

end Audec.Render

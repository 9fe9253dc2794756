import Audec.Lib.Topmost
import Audec.Mixer.Model
import Audec.PatternLang.Realize

/-! The instruments of a schedule: those the caller configured, merged with the authoritative routes of its kits. -/

open Machine List Std.ExtTreeMap Entries Function
open Std (ExtTreeMap ExtTreeSet)

namespace Audec.DawEngine

open Mixer (BusId)
open PatternLang (TriggerTarget)

inductive SamplerMode where
  | oneShot
  | gated

inductive SampleLoopMode where
  | forward
  | pingPong

structure SampleLoopSpan where
  startFrame : U64
  endFrame : U64
  mode : SampleLoopMode

structure SampleEnvelope where
  attackFrames : U64
  decayFrames : U64
  sustain : Float32
  releaseFrames : U64

structure SamplerParams where
  mode : SamplerMode
  gainDb : Float32
  pan : Float32
  maximumVoices : Nat
  triggerAsset : Option U64
  chokeGroup : Option U32
  loopRegion : Option SampleLoopSpan
  reverse : Bool
  envelope : SampleEnvelope

/-- `α` stands for the parameters of a subtractive synthesizer and `β` for the PCM of a sample. -/
inductive BuiltInInstrumentDefinition (α β : Type) where
  | subtractive (params : α)
  | sampler (sample : β) (params : SamplerParams)

structure BuiltInInstrumentRoute (α β : Type) where
  definition : BuiltInInstrumentDefinition α β
  bus : BusId

/-- A persistent sample alias resolved into a definition, which listens to that alias. -/
structure ResolvedSamplerRoute (β : Type) where
  sampleAlias : U64
  bus : BusId
  sample : β
  params : SamplerParams
  triggers : params.triggerAsset = some sampleAlias

structure DuplicateSamplerConsumerSuppressed where
  sampleAlias : U64
  retainedInstrument : U64
  suppressedInstrument : U64

/-- What routing reads of an event. -/
inductive ScheduledKind where
  | loopBoundary
  | noteOff (instrument : Option U64)
  | noteOn (instrument : Option U64)
  | noteExpression (instrument : Option U64)
  | trigger (target : TriggerTarget) (chokeGroup : Option U32)

variable {α β : Type}

def BuiltInInstrumentDefinition.consumes (definition : BuiltInInstrumentDefinition α β) (identity : U64) : ScheduledKind → Bool
  | .loopBoundary => true
  | .noteOff instrument | .noteOn instrument | .noteExpression instrument => instrument == some identity
  | .trigger target _ =>
    match definition, target with
    | .subtractive _, .instrumentNote instrument _ => instrument == identity
    | .sampler _ params, .sample asset => params.triggerAsset == some asset
    | _, _ => false

def BuiltInInstrumentDefinition.samplerParams : BuiltInInstrumentDefinition α β → Option SamplerParams
  | .sampler _ params => some params
  | .subtractive _ => none

/-- The alias a definition listens to. -/
def BuiltInInstrumentDefinition.triggerAlias (definition : BuiltInInstrumentDefinition α β) : Option U64 :=
  definition.samplerParams.bind (·.triggerAsset)

abbrev Routes (α β : Type) := ExtTreeMap U64 (BuiltInInstrumentRoute α β)

/-- The state of the walk over the configured instruments. -/
structure Configuring (α β : Type) where
  samplerBehavior : ExtTreeMap U64 (U64 × SamplerParams)
  merged : Routes α β
  diagnostics : List DuplicateSamplerConsumerSuppressed

def configure (authoritativeAliases : ExtTreeSet U64) (state : Configuring α β) (entry : U64 × BuiltInInstrumentRoute α β) :
    Configuring α β :=
  match entry.2.definition.triggerAlias with
  | none => { state with merged := state.merged.insert entry.1 entry.2 }
  | some heard =>
    match state.samplerBehavior[heard]?, entry.2.definition.samplerParams with
    | some (retained, _), _ => { state with diagnostics := state.diagnostics ++ [⟨heard, retained, entry.1⟩] }
    | none, some params => { state with
        samplerBehavior := state.samplerBehavior.insert heard (entry.1, params)
        merged := if heard ∈ authoritativeAliases then state.merged else state.merged.insert entry.1 entry.2 }
    -- unreachable: only a sampler has an alias
    | none, none => state

/-- The search for a generated identity, from the given one down. At zero `saturating_sub` stays where it is, so a map
that is full keeps the loop from ending: `none`. -/
def generate (merged : Routes α β) : Nat → Option U64
  | 0 => if merged.contains 0 then none else some 0
  | n + 1 => if merged.contains (Fin.ofNat _ (n + 1)) then generate merged n else some (Fin.ofNat _ (n + 1))

def saturatingPred (x : U64) : U64 := ⟨x.val - 1, by omega⟩

/-- The definition of an authoritative route, with the behavior that was configured for its alias. -/
def ResolvedSamplerRoute.behaving (route : ResolvedSamplerRoute β) (behavior : Option SamplerParams) :
    BuiltInInstrumentRoute α β where
  definition := .sampler route.sample (match behavior with
    | none => route.params
    | some behavior => { route.params with mode := behavior.mode, maximumVoices := behavior.maximumVoices })
  bus := route.bus

/-- The state of the walk over the authoritative routes. -/
structure Assigning (α β : Type) where
  merged : Routes α β
  generatedIdentity : U64

def assign (samplerBehavior : ExtTreeMap U64 (U64 × SamplerParams)) (state : Assigning α β) (route : ResolvedSamplerRoute β) :
    Option (Assigning α β) :=
  match samplerBehavior[route.sampleAlias]? with
  | some (identity, params) => some { state with merged := state.merged.insert identity (route.behaving (some params)) }
  | none => do
    let identity ← generate state.merged state.generatedIdentity.val
    some { merged := state.merged.insert identity (route.behaving none), generatedIdentity := saturatingPred identity }

/-- `none` where the source loops forever. -/
def mergeInstrumentRoutes (configured : Routes α β) (authoritative : List (ResolvedSamplerRoute β))
    (diagnostics : List DuplicateSamplerConsumerSuppressed) : Option (Routes α β × List DuplicateSamplerConsumerSuppressed) := do
  let authoritativeAliases := ExtTreeSet.ofList (authoritative.map (·.sampleAlias))
  let walked := configured.toList.foldl (configure authoritativeAliases) ⟨∅, ∅, diagnostics⟩
  let assigned ← authoritative.foldlM (assign walked.samplerBehavior) ⟨walked.merged, ⟨0xffffffffffffffff, by decide⟩⟩
  some (assigned.merged, walked.diagnostics)

abbrev Entry (α β : Type) := U64 × BuiltInInstrumentRoute α β

/-- The first of some entries that listens to an alias: among the configured instruments, the one of lowest identity. -/
def lowest (entries : List (Entry α β)) (heard : U64) : Option (Entry α β) :=
  entries.find? fun entry => entry.2.definition.triggerAlias == some heard

/-- The identity and the parameters of the sampler of lowest identity for an alias. -/
def behaviorFor (entries : List (Entry α β)) (heard : U64) : Option (U64 × SamplerParams) :=
  (lowest entries heard).bind fun entry => entry.2.definition.samplerParams.map (entry.1, ·)

/-- An authoritative route with the mode and voices of the lowest sampler configured for its alias. -/
def routed (configured : Routes α β) (route : ResolvedSamplerRoute β) : BuiltInInstrumentRoute α β :=
  route.behaving ((behaviorFor configured.toList route.sampleAlias).map Prod.snd)

def Claimed (routes : List (ResolvedSamplerRoute β)) : Set U64 := {heard | ∃ route ∈ routes, route.sampleAlias = heard}

/-- Nothing is lost and nothing doubled by a merge. -/
structure Keeps (configured : Routes α β) (authoritative : List (ResolvedSamplerRoute β)) (merged : Routes α β) : Prop where
  subtractives : ∀ (identity : U64) params bus, configured[identity]? = some ⟨.subtractive params, bus⟩ →
    merged[identity]? = some ⟨.subtractive params, bus⟩
  consumed : ∀ heard chokeGroup, lowest configured.toList heard ≠ none ∨ heard ∈ Claimed authoritative → ∃! identity : U64,
    ∃ held, merged[identity]? = some held ∧ held.definition.consumes identity (.trigger (.sample heard) chokeGroup)
  authoritatives : ∀ route ∈ authoritative, ∀ (identity : U64) held chokeGroup, merged[identity]? = some held →
    held.definition.consumes identity (.trigger (.sample route.sampleAlias) chokeGroup) → held = routed configured route
  others : ∀ heard ∉ Claimed authoritative, ∀ identity held, lowest configured.toList heard = some (identity, held) →
    merged[identity]? = some held

/-- The merge ends, and loses and doubles nothing. -/
def NothingLost (configured : Routes α β) (authoritative : List (ResolvedSamplerRoute β))
    (diagnostics : List DuplicateSamplerConsumerSuppressed) : Prop :=
  ∃ merged diagnostics', mergeInstrumentRoutes configured authoritative diagnostics = some (merged, diagnostics') ∧
    Keeps configured authoritative merged

/-- An entry that is the first for what it listens to, unless that is claimed. -/
def Kept (claimed : Set U64) (entries : List (Entry α β)) (entry : Entry α β) : Prop :=
  entry ∈ entries ∧ ∀ heard, entry.2.definition.triggerAlias = some heard → heard ∉ claimed ∧ lowest entries heard = some entry

section

variable (configured : Routes α β)

/-- Identities in use when the earlier routes have been walked, apart from the generated ones: those of the configured
routes that are kept, and of the samplers that an earlier route overrides. -/
def Reserved (authoritative earlier : List (ResolvedSamplerRoute β)) : Set U64 :=
  {identity | ∃ held, Kept (Claimed authoritative \ Claimed earlier) configured.toList (identity, held)}

/-- How many routes need a generated identity. -/
def generatedCount (routes : List (ResolvedSamplerRoute β)) : Nat :=
  routes.countP fun route => (lowest configured.toList route.sampleAlias).isNone

/-- A route finds its identity unused: one is left for it besides those generated before it, or enough of them lie above
the one it was configured under. -/
def RoomFor (authoritative earlier : List (ResolvedSamplerRoute β)) (route : ResolvedSamplerRoute β) : Prop :=
  match lowest configured.toList route.sampleAlias with
  | none => generatedCount configured earlier < {identity | identity ∉ Reserved configured authoritative earlier}.ncard
  | some (own, _) => generatedCount configured earlier ≤
      {identity | own < identity ∧ identity ∉ Reserved configured authoritative earlier}.ncard

end

/-- There is room for each of some routes, once those before it have been walked. -/
def Rooms (configured : Routes α β) (authoritative : List (ResolvedSamplerRoute β)) :
    List (ResolvedSamplerRoute β) → List (ResolvedSamplerRoute β) → Prop
  | _, [] => True
  | earlier, route :: later =>
    RoomFor configured authoritative earlier route ∧ Rooms configured authoritative (earlier ++ [route]) later

def Room (configured : Routes α β) (authoritative : List (ResolvedSamplerRoute β)) : Prop := Rooms configured authoritative [] authoritative

/-! ### The walk over the configured instruments -/

structure Walked (aliases : ExtTreeSet U64) (entries : List (Entry α β)) (state : Configuring α β) : Prop where
  behavior : ∀ heard : U64, state.samplerBehavior[heard]? = behaviorFor entries heard
  merged : ∀ (identity : U64) held, state.merged[identity]? = some held ↔ Kept {heard | heard ∈ aliases} entries (identity, held)

variable {aliases : ExtTreeSet U64} {claimed : Set U64} {entries : List (Entry α β)} {entry earlier : Entry α β}
  {state : Configuring α β} {identity heard : U64} {held : BuiltInInstrumentRoute α β}

theorem consumes_sample {definition : BuiltInInstrumentDefinition α β} {chokeGroup : Option U32} :
    definition.consumes identity (.trigger (.sample heard) chokeGroup) = true ↔ definition.triggerAlias = some heard := by
  cases definition with
  | subtractive params => simp [BuiltInInstrumentDefinition.consumes, BuiltInInstrumentDefinition.triggerAlias, BuiltInInstrumentDefinition.samplerParams]
  | sampler sample params => simp [BuiltInInstrumentDefinition.consumes, BuiltInInstrumentDefinition.triggerAlias, BuiltInInstrumentDefinition.samplerParams]

theorem lowest_spec (found : lowest entries heard = some entry) : entry ∈ entries ∧ entry.2.definition.triggerAlias = some heard :=
  ⟨mem_of_find?_eq_some found, by simpa using find?_some found⟩

theorem lowest_ne_none (inside : entry ∈ entries) (listens : entry.2.definition.triggerAlias = some heard) :
    lowest entries heard ≠ none := by
  intro none
  have := find?_eq_none.mp none entry inside
  simp [listens] at this

theorem lowest_snoc : lowest (entries ++ [entry]) heard =
    (lowest entries heard).or (if entry.2.definition.triggerAlias = some heard then some entry else none) := by
  simp [lowest, find?_append, find?_singleton]

theorem lowest_snoc_of_ne_none (found : lowest entries heard ≠ none) : lowest (entries ++ [entry]) heard = lowest entries heard := by
  obtain ⟨first, found⟩ := Option.ne_none_iff_exists'.mp found
  rw [lowest_snoc, found, Option.some_or]

theorem behaviorFor_eq_none : behaviorFor entries heard = none ↔ lowest entries heard = none := by
  cases found : lowest entries heard with
  | none => simp [behaviorFor, found]
  | some entry =>
    obtain ⟨params, sampler, -⟩ := Option.bind_eq_some_iff.mp (lowest_spec found).2
    simp [behaviorFor, found, sampler]

theorem kept_snoc (inside : earlier ∈ entries) : Kept claimed (entries ++ [entry]) earlier ↔ Kept claimed entries earlier := by
  unfold Kept
  simp only [inside, mem_append, true_or, true_and]
  apply forall₂_congr
  intro heard listens
  rw [lowest_snoc_of_ne_none (lowest_ne_none inside listens)]

section

variable (walked : Walked aliases entries state) (last : ∀ earlier ∈ entries, earlier.1 < entry.1)
include walked last

/-- A step of the walk adds the next entry to the map if it is kept. -/
theorem Walked.snoc {after : Configuring α β}
    (behavior : ∀ heard : U64, after.samplerBehavior[heard]? = behaviorFor (entries ++ [entry]) heard)
    (kept : Kept {heard | heard ∈ aliases} (entries ++ [entry]) entry → after.merged = state.merged.insert entry.1 entry.2)
    (dropped : ¬ Kept {heard | heard ∈ aliases} (entries ++ [entry]) entry → after.merged = state.merged) :
    Walked aliases (entries ++ [entry]) after := by
  refine ⟨behavior, fun place held => ?_⟩
  by_cases same : entry.1 = place
  · subst same
    have fresh : state.merged[entry.1]? = none := by
      rw [Option.eq_none_iff_forall_ne_some]
      intro held found
      exact lt_irrefl entry.1 (last (entry.1, held) ((walked.merged _ held).mp found).1)
    have only : Kept {heard | heard ∈ aliases} (entries ++ [entry]) (entry.1, held) → entry = (entry.1, held) := by
      intro kept
      rcases mem_append.mp kept.1 with inside | inside
      · exact (lt_irrefl entry.1 (last (entry.1, held) inside)).elim
      · exact (mem_singleton.mp inside).symm
    by_cases keep : Kept {heard | heard ∈ aliases} (entries ++ [entry]) entry
    · rw [kept keep, getElem?_insert_self]
      constructor
      · rintro ⟨rfl⟩
        exact keep
      · intro kept
        rw [congrArg Prod.snd (only kept)]
    · rw [dropped keep, fresh]
      constructor
      · intro absurd
        cases absurd
      · intro kept
        rw [← only kept] at kept
        exact (keep kept).elim
  · have looked : after.merged[place]? = state.merged[place]? := by
      by_cases keep : Kept {heard | heard ∈ aliases} (entries ++ [entry]) entry
      · rw [kept keep, ExtTreeMap.getElem?_insert, if_neg (by rwa [compare_eq_iff_eq])]
      · rw [dropped keep]
    rw [looked, walked.merged]
    constructor
    · intro kept
      exact (kept_snoc kept.1).mpr kept
    · intro kept
      rcases mem_append.mp kept.1 with inside | inside
      · exact (kept_snoc inside).mp kept
      · exact (same (congrArg Prod.fst (mem_singleton.mp inside)).symm).elim

theorem Walked.configure :
    Walked aliases (entries ++ [entry]) (configure aliases state entry) := by
  cases listens : entry.2.definition.triggerAlias with
  | none =>
    simp only [DawEngine.configure, listens]
    refine walked.snoc last (fun heard => ?_) (fun _ => rfl) fun dropped => (dropped ⟨by simp, by simp [listens]⟩).elim
    rw [walked.behavior, behaviorFor, behaviorFor, lowest_snoc]
    simp [listens]
  | some heard =>
    obtain ⟨params, sampler, -⟩ := Option.bind_eq_some_iff.mp listens
    have known := walked.behavior heard
    cases unheard : lowest entries heard with
    | some first =>
      obtain ⟨params', sampler', -⟩ := Option.bind_eq_some_iff.mp (lowest_spec unheard).2
      simp only [behaviorFor, unheard, Option.bind_some, sampler', Option.map_some] at known
      have found : lowest entries heard ≠ none := by simp [unheard]
      simp only [DawEngine.configure, listens, known]
      refine walked.snoc last (fun heard' => ?_) (fun kept => ?_) fun _ => rfl
      · have stays : lowest (entries ++ [entry]) heard' = lowest entries heard' := by
          by_cases same : heard = heard'
          · exact same ▸ lowest_snoc_of_ne_none found
          · rw [lowest_snoc, if_neg fun equal => same (Option.some.inj (listens.symm.trans equal)), Option.or_none]
        rw [walked.behavior, behaviorFor, behaviorFor, stays]
      · have own := (kept.2 heard listens).2
        rw [lowest_snoc_of_ne_none found] at own
        exact (lt_irrefl _ (last _ (lowest_spec own).1)).elim
    | none =>
      rw [behaviorFor_eq_none.mpr unheard] at known
      have own : lowest (entries ++ [entry]) heard = some entry := by
        rw [lowest_snoc, unheard, if_pos listens, Option.none_or]
      have kept_iff : Kept {heard | heard ∈ aliases} (entries ++ [entry]) entry ↔ heard ∉ aliases := by
        refine ⟨fun kept => (kept.2 heard listens).1, fun free => ⟨by simp, fun heard' listens' => ?_⟩⟩
        cases Option.some.inj (listens.symm.trans listens')
        exact ⟨free, own⟩
      simp only [DawEngine.configure, listens, known, sampler]
      refine walked.snoc last (fun heard' => ?_) (fun kept => if_neg (kept_iff.mp kept))
        fun dropped => if_pos (not_not.mp fun free => dropped (kept_iff.mpr free))
      by_cases same : heard = heard'
      · subst same
        simp [behaviorFor, own, sampler]
      · rw [ExtTreeMap.getElem?_insert, if_neg (by rwa [compare_eq_iff_eq]), walked.behavior, behaviorFor, behaviorFor, lowest_snoc,
          if_neg fun equal => same (Option.some.inj (listens.symm.trans equal)), Option.or_none]

end

theorem walked (aliases : ExtTreeSet U64) (configured : Routes α β) (diagnostics : List DuplicateSamplerConsumerSuppressed) :
    Walked aliases configured.toList (configured.toList.foldl (configure aliases) ⟨∅, ∅, diagnostics⟩) := by
  have ordered := Queue.ordered_keys configured
  generalize configured.toList = entries at ordered
  induction entries using List.reverseRecOn with
  | nil => exact ⟨fun _ => by simp [behaviorFor, lowest], fun _ _ => by simp [Kept]⟩
  | append_singleton entries entry ih =>
    rw [pairwise_append] at ordered
    rw [foldl_append]
    exact (ih ordered.1).configure fun earlier inside =>
      compare_lt_iff_lt.mp (ordered.2.2 earlier inside entry (mem_singleton_self entry))

/-! ### The walk over the authoritative routes -/

variable {configured merged : Routes α β} {routes earlier later : List (ResolvedSamplerRoute β)} {route next : ResolvedSamplerRoute β}
  {behavior : ExtTreeMap U64 (U64 × SamplerParams)} {assigning after : Assigning α β} {given : Set U64} {place : U64 → U64}

theorem behaving_listens (route : ResolvedSamplerRoute β) (behavior : Option SamplerParams) :
    (route.behaving behavior : BuiltInInstrumentRoute α β).definition.triggerAlias = some route.sampleAlias := by
  cases behavior with
  | none => exact route.triggers
  | some behavior => exact route.triggers

theorem routed_listens (configured : Routes α β) (route : ResolvedSamplerRoute β) :
    (routed configured route).definition.triggerAlias = some route.sampleAlias :=
  behaving_listens route _

theorem claimed_snoc : heard ∈ Claimed (earlier ++ [next]) ↔ heard ∈ Claimed earlier ∨ next.sampleAlias = heard := by
  simp [Claimed, or_and_right, exists_or]

/-- A walked route puts the identity that it was configured under into use. -/
theorem reserved_snoc (routes : List (ResolvedSamplerRoute β)) : Reserved configured routes (earlier ++ [next]) =
    Reserved configured routes earlier ∪ {identity | ∃ held, lowest configured.toList next.sampleAlias = some (identity, held)} := by
  ext identity
  constructor
  · rintro ⟨held, inside, kept⟩
    by_cases listens : held.definition.triggerAlias = some next.sampleAlias
    · exact .inr ⟨held, (kept _ listens).2⟩
    · refine .inl ⟨held, inside, fun heard listens' => ⟨fun open' => (kept heard listens').1 ⟨open'.1, fun walked => ?_⟩, (kept heard listens').2⟩⟩
      rcases claimed_snoc.mp walked with walked | rfl
      · exact open'.2 walked
      · exact listens listens'
  · rintro (⟨held, inside, kept⟩ | ⟨held, found⟩)
    · exact ⟨held, inside, fun heard listens => ⟨fun open' => (kept heard listens).1 ⟨open'.1, fun walked => open'.2 (claimed_snoc.mpr (.inl walked))⟩,
        (kept heard listens).2⟩⟩
    · obtain ⟨inside, listens⟩ := lowest_spec found
      refine ⟨held, inside, fun heard listens' => ?_⟩
      cases Option.some.inj (listens.symm.trans listens')
      exact ⟨fun open' => open'.2 (claimed_snoc.mpr (.inr rfl)), found⟩

/-- Some authoritative routes have been walked, and no identity was used twice: the map holds the kept routes, and each
walked one at its place. -/
structure Assigned (configured : Routes α β) (routes earlier : List (ResolvedSamplerRoute β)) (given : Set U64) (place : U64 → U64)
    (assigning : Assigning α β) : Prop where
  topmost : Topmost.Given (Reserved configured routes earlier) given
  count : given.ncard = generatedCount configured earlier
  cursor : ∀ identity, assigning.generatedIdentity < identity → identity ∈ Reserved configured routes earlier ∪ given
  members : ∀ identity, identity ∈ assigning.merged ↔ identity ∈ Reserved configured routes earlier ∪ given
  generated : ∀ identity ∈ given, ∃ route ∈ earlier, lowest configured.toList route.sampleAlias = none ∧ place route.sampleAlias = identity
  holds : ∀ (identity : U64) held, assigning.merged[identity]? = some held ↔
    Kept (Claimed routes) configured.toList (identity, held) ∨
    ∃ route ∈ earlier, place route.sampleAlias = identity ∧ held = routed configured route

/-- The map after a step that found its identity unused. -/
theorem Assigned.put (assigned : Assigned configured routes earlier given place assigning) (fresh : identity ∉ assigning.merged)
    (distinct : ∀ route ∈ earlier, route.sampleAlias ≠ next.sampleAlias) {other : U64} :
    (assigning.merged.insert identity (routed configured next))[other]? = some held ↔
      Kept (Claimed routes) configured.toList (other, held) ∨ ∃ route ∈ earlier ++ [next],
        update place next.sampleAlias identity route.sampleAlias = other ∧ held = routed configured route := by
  have walked : (∃ route ∈ earlier ++ [next], update place next.sampleAlias identity route.sampleAlias = other ∧
      held = routed configured route) ↔
      (∃ route ∈ earlier, place route.sampleAlias = other ∧ held = routed configured route) ∨ identity = other ∧ held = routed configured next := by
    simp only [mem_append, mem_singleton, or_and_right, exists_or, exists_eq_left, update_self]
    apply or_congr_left
    apply exists_congr
    intro route
    apply and_congr_right
    intro inside
    rw [update_of_ne (distinct route inside)]
  rw [walked, ← or_assoc, ← assigned.holds other held, ExtTreeMap.getElem?_insert]
  simp only [compare_eq_iff_eq]
  by_cases same : identity = other
  · subst same
    rw [if_pos rfl, ExtTreeMap.getElem?_eq_none fresh]
    simp [eq_comm]
  · simp [same]

theorem generate_free {n : Nat} (found : generate merged n = some identity) : identity ∉ merged := by
  fun_induction generate merged n with
  | case1 used => cases found
  | case2 free =>
    cases found
    rwa [ExtTreeMap.contains_iff_mem] at free
  | case3 n used ih => exact ih found
  | case4 n free =>
    cases found
    rwa [ExtTreeMap.contains_iff_mem] at free

/-- The search passes over used identities only. -/
theorem generate_passed {n : Nat} (bound : n < 0x10000000000000000) {other : U64} (low : other.val ≤ n)
    (above : ∀ identity, generate merged n = some identity → identity < other) : other ∈ merged := by
  fun_induction generate merged n with
  | case1 used =>
    rw [Fin.ext (a := other) (b := 0) (Nat.le_zero.mp low)]
    exact ExtTreeMap.contains_iff_mem.mp used
  | case2 free => exact absurd (above 0 rfl) (not_lt.mpr low)
  | case3 n used ih =>
    rcases Nat.lt_or_eq_of_le low with below | top
    · exact ih (by omega) (by omega) above
    · have value : (Fin.ofNat 0x10000000000000000 (n + 1)).val = n + 1 := Nat.mod_eq_of_lt bound
      rw [Fin.ext (top.trans value.symm)]
      exact ExtTreeMap.contains_iff_mem.mp used
  | case4 n free => exact absurd (above _ rfl) (not_lt.mpr (low.trans (Nat.mod_eq_of_lt bound).ge))

/-- No instrument listens to an alias. -/
def Unheard (merged : Routes α β) (heard : U64) : Prop :=
  ∀ (identity : U64) held, merged[identity]? = some held → held.definition.triggerAlias ≠ some heard

/-- With room, the next route finds its identity unused. Without, it finds none or takes that of a walked route. -/
def Outcome (configured : Routes α β) (behavior : ExtTreeMap U64 (U64 × SamplerParams)) (routes earlier : List (ResolvedSamplerRoute β))
    (next : ResolvedSamplerRoute β) (assigning : Assigning α β) : Prop :=
  RoomFor configured routes earlier next ∧ (∃ given place after, assign behavior assigning next = some after ∧
    Assigned configured routes (earlier ++ [next]) given place after) ∨
  ¬ RoomFor configured routes earlier next ∧ ∀ after, assign behavior assigning next = some after →
    ∃ route ∈ earlier, Unheard after.merged route.sampleAlias

section

variable (assigned : Assigned configured routes earlier given place assigning) (distinct : ∀ route ∈ earlier, route.sampleAlias ≠ next.sampleAlias)
include assigned distinct

/-- A route that is not configured takes the greatest identity that is left, if one is. -/
theorem Assigned.assign_generated (unconfigured : lowest configured.toList next.sampleAlias = none)
    (behaves : behavior[next.sampleAlias]? = behaviorFor configured.toList next.sampleAlias) :
    Outcome configured behavior routes earlier next assigning := by
  have unknown := behaviorFor_eq_none.mpr unconfigured
  have room_iff : RoomFor configured routes earlier next ↔
      ∃ identity, identity ∉ Reserved configured routes earlier ∪ given := by
    rw [assigned.topmost.exists_iff, assigned.count]
    simp only [RoomFor, unconfigured]
  cases found : generate assigning.merged assigning.generatedIdentity.val with
  | none =>
    refine .inr ⟨?_, fun after stepped => by simp [assign, behaves, unknown, found] at stepped⟩
    rw [room_iff]
    rintro ⟨identity, free⟩
    rcases le_or_gt identity assigning.generatedIdentity with low | high
    · exact free ((assigned.members identity).mp (generate_passed assigning.generatedIdentity.isLt low fun _ some' => by simp [found] at some'))
    · exact free (assigned.cursor identity high)
  | some identity =>
    have left : identity ∉ Reserved configured routes earlier ∪ given :=
      fun used => generate_free found ((assigned.members identity).mpr used)
    have greatest : ∀ other, identity < other → other ∈ Reserved configured routes earlier ∪ given := by
      intro other higher
      rcases le_or_gt other assigning.generatedIdentity with low | high
      · refine (assigned.members other).mp (generate_passed assigning.generatedIdentity.isLt low fun _ same => ?_)
        exact Option.some.inj (found.symm.trans same) ▸ higher
      · exact assigned.cursor other high
    have reserved : Reserved configured routes (earlier ++ [next]) = Reserved configured routes earlier := by
      simp [reserved_snoc, unconfigured]
    refine .inl ⟨room_iff.mpr ⟨identity, left⟩, insert identity given, update place next.sampleAlias identity,
      ⟨assigning.merged.insert identity (routed configured next), saturatingPred identity⟩,
      by simp [assign, behaves, unknown, found, routed], ?_⟩
    refine ⟨?_, ?_, ?_, ?_, ?_, fun _ _ => assigned.put (generate_free found) distinct⟩
    · rw [reserved]
      exact assigned.topmost.give left greatest
    · rw [Set.ncard_insert_of_notMem (fun inside => left (.inr inside)) (Set.toFinite _), assigned.count]
      simp [generatedCount, countP_append, unconfigured]
    · intro other higher
      rw [reserved, Set.union_insert]
      rcases lt_trichotomy identity other with above | rfl | below
      · exact .inr (greatest other above)
      · exact .inl rfl
      · simp only [saturatingPred, Fin.lt_def] at higher below
        omega
    · intro other
      rw [reserved, Set.union_insert, mem_insert, compare_eq_iff_eq, assigned.members, Set.mem_insert_iff, eq_comm]
    · rintro other (rfl | inside)
      · exact ⟨next, by simp, unconfigured, update_self ..⟩
      · obtain ⟨route, member, unknown, placed⟩ := assigned.generated other inside
        exact ⟨route, mem_append_left _ member, unknown, by rw [update_of_ne (distinct route member), placed]⟩

/-- A configured route takes its identity, and with it whatever was generated there. -/
theorem Assigned.assign_configured (among : next ∈ routes)
    (own : lowest configured.toList next.sampleAlias = some (identity, held))
    (behaves : behavior[next.sampleAlias]? = behaviorFor configured.toList next.sampleAlias) :
    Outcome configured behavior routes earlier next assigning := by
  obtain ⟨inside, listens⟩ := lowest_spec own
  obtain ⟨params, sampler, -⟩ := Option.bind_eq_some_iff.mp listens
  have known : behaviorFor configured.toList next.sampleAlias = some (identity, params) := by
    simpa [behaviorFor, own] using sampler
  have same_of {other : BuiltInInstrumentRoute α β} (inside' : (identity, other) ∈ configured.toList) : other = held :=
    Option.some.inj ((mem_toList.mp inside').symm.trans (mem_toList.mp inside))
  have unreserved : identity ∉ Reserved configured routes earlier := by
    rintro ⟨other, inside', kept⟩
    cases same_of inside'
    refine (kept _ listens).1 ⟨⟨next, among, rfl⟩, ?_⟩
    rintro ⟨route, walked, same⟩
    exact distinct route walked same
  have room_iff : RoomFor configured routes earlier next ↔ identity ∉ given := by
    rw [assigned.topmost.notMem_iff unreserved, assigned.count]
    simp only [RoomFor, own]
  have step : assign behavior assigning next = some { assigning with merged := assigning.merged.insert identity (routed configured next) } := by
    simp [assign, behaves, known, routed]
  by_cases fresh : identity ∈ given
  · refine .inr ⟨fun room => room_iff.mp room fresh, fun after stepped => ?_⟩
    cases Option.some.inj (step.symm.trans stepped)
    obtain ⟨route, walked, unconfigured, placed⟩ := assigned.generated identity fresh
    refine ⟨route, walked, fun other held found heard => ?_⟩
    rw [ExtTreeMap.getElem?_insert] at found
    split at found
    · cases found
      rw [routed_listens] at heard
      exact distinct route walked (Option.some.inj heard).symm
    next apart =>
      rcases (assigned.holds other held).mp found with kept | ⟨route', -, placed', rfl⟩
      · exact lowest_ne_none kept.1 heard unconfigured
      · rw [routed_listens] at heard
        rw [Option.some.inj heard, placed] at placed'
        exact apart (compare_eq_iff_eq.mpr placed')
  · have free : identity ∉ assigning.merged := by
      rw [assigned.members]
      rintro (reserved | inside)
      · exact unreserved reserved
      · exact fresh inside
    have reserved : Reserved configured routes (earlier ++ [next]) = insert identity (Reserved configured routes earlier) := by
      rw [reserved_snoc, own, Set.insert_eq, Set.union_comm]
      congr 1
      ext other
      simp [eq_comm]
    refine .inl ⟨room_iff.mpr fresh, given, update place next.sampleAlias identity, _, step, ?_⟩
    refine ⟨?_, ?_, ?_, ?_, ?_, fun _ _ => assigned.put free distinct⟩
    · rw [reserved]
      exact assigned.topmost.reserve fresh
    · rw [assigned.count]
      simp [generatedCount, countP_append, own]
    · intro other higher
      rw [reserved, Set.insert_union]
      exact .inr (assigned.cursor other higher)
    · intro other
      rw [reserved, Set.insert_union, mem_insert, compare_eq_iff_eq, assigned.members, Set.mem_insert_iff, eq_comm]
    · intro other inside
      obtain ⟨route, member, unknown, placed⟩ := assigned.generated other inside
      exact ⟨route, mem_append_left _ member, unknown, by rw [update_of_ne (distinct route member), placed]⟩

end

theorem Unheard.insert (unheard : Unheard merged heard) (apart : held.definition.triggerAlias ≠ some heard) :
    Unheard (merged.insert identity held) heard := by
  intro other found' found
  rw [ExtTreeMap.getElem?_insert] at found
  split at found
  · cases found
    exact apart
  · exact unheard other found' found

theorem Unheard.run (unheard : Unheard assigning.merged heard) (apart : ∀ route ∈ later, route.sampleAlias ≠ heard)
    (ran : later.foldlM (assign behavior) assigning = some after) : Unheard after.merged heard := by
  induction later generalizing assigning with
  | nil =>
    cases ran
    exact unheard
  | cons route later ih =>
    rw [foldlM_cons, Option.bind_eq_bind, Option.bind_eq_some_iff] at ran
    obtain ⟨middle, step, rest⟩ := ran
    refine ih ?_ (fun other inside => apart other (mem_cons_of_mem _ inside)) rest
    have other (behavior : Option SamplerParams) : (route.behaving behavior : BuiltInInstrumentRoute α β).definition.triggerAlias ≠ some heard := by
      rw [behaving_listens]
      exact fun same => apart route mem_cons_self (Option.some.inj same)
    unfold assign at step
    split at step
    · cases step
      exact unheard.insert (other _)
    · obtain ⟨identity, -, rest⟩ := Option.bind_eq_some_iff.mp step
      cases rest
      exact unheard.insert (other _)

theorem Assigned.keeps (assigned : Assigned configured routes routes given place assigning)
    (distinct : (routes.map (·.sampleAlias)).Nodup) : Keeps configured routes assigning.merged := by
  -- whoever listens to an alias with an authoritative route is that route
  have routed_of {route : ResolvedSamplerRoute β} (inside : route ∈ routes) {identity : U64} {held : BuiltInInstrumentRoute α β}
      (found : assigning.merged[identity]? = some held) (listens : held.definition.triggerAlias = some route.sampleAlias) :
      place route.sampleAlias = identity ∧ held = routed configured route := by
    rcases (assigned.holds identity held).mp found with kept | ⟨other, inside', placed, rfl⟩
    · exact ((kept.2 _ listens).1 ⟨route, inside, rfl⟩).elim
    · rw [routed_listens] at listens
      obtain rfl := inj_on_of_nodup_map distinct inside' inside (Option.some.inj listens)
      exact ⟨placed, rfl⟩
  have others {heard identity : U64} {held : BuiltInInstrumentRoute α β} (free : heard ∉ Claimed routes)
      (own : lowest configured.toList heard = some (identity, held)) : assigning.merged[identity]? = some held := by
    obtain ⟨inside, listens⟩ := lowest_spec own
    refine (assigned.holds identity held).mpr (.inl ⟨inside, fun heard' listens' => ?_⟩)
    cases Option.some.inj (listens.symm.trans listens')
    exact ⟨free, own⟩
  refine ⟨?_, ?_, ?_, fun heard free identity held => others free⟩
  · intro identity params bus held
    exact (assigned.holds identity _).mpr (.inl ⟨mem_toList.mpr held, fun heard listens => by cases listens⟩)
  · intro heard chokeGroup occurs
    simp only [consumes_sample]
    by_cases claimed : heard ∈ Claimed routes
    · obtain ⟨route, inside, rfl⟩ := claimed
      refine ⟨place route.sampleAlias, ⟨routed configured route, (assigned.holds _ _).mpr (.inr ⟨route, inside, rfl, rfl⟩),
        routed_listens configured route⟩, ?_⟩
      rintro identity ⟨held, found, listens⟩
      exact (routed_of inside found listens).1.symm
    · obtain ⟨⟨identity, held⟩, own⟩ := Option.ne_none_iff_exists'.mp (occurs.resolve_right claimed)
      refine ⟨identity, ⟨held, others claimed own, (lowest_spec own).2⟩, ?_⟩
      rintro other ⟨held', found, listens⟩
      rcases (assigned.holds other held').mp found with kept | ⟨walked, inside, -, rfl⟩
      · exact congrArg Prod.fst (Option.some.inj ((kept.2 _ listens).2.symm.trans own))
      · rw [routed_listens] at listens
        exact (claimed ⟨walked, inside, Option.some.inj listens⟩).elim
  · intro route inside identity held chokeGroup found consumes
    exact (routed_of inside found (consumes_sample.mp consumes)).2

/-- The rest of the walk succeeds and keeps everything if and only if there is room for each route that is left. -/
theorem Assigned.run_iff (assigned : Assigned configured routes earlier given place assigning)
    (behaves : ∀ heard : U64, behavior[heard]? = behaviorFor configured.toList heard) (distinct : (routes.map (·.sampleAlias)).Nodup)
    (whole : routes = earlier ++ later) :
    (∃ after, later.foldlM (assign behavior) assigning = some after ∧ Keeps configured routes after.merged) ↔
      Rooms configured routes earlier later := by
  induction later generalizing earlier given place assigning with
  | nil =>
    rw [append_nil] at whole
    subst whole
    exact ⟨fun _ => trivial, fun _ => ⟨assigning, rfl, assigned.keeps distinct⟩⟩
  | cons next later ih =>
    have apart := distinct
    rw [whole, map_append, map_cons, nodup_append] at apart
    have before : ∀ route ∈ earlier, route.sampleAlias ≠ next.sampleAlias := fun route inside =>
      apart.2.2 _ (mem_map_of_mem inside) _ mem_cons_self
    have outcome : Outcome configured behavior routes earlier next assigning := by
      cases own : lowest configured.toList next.sampleAlias with
      | none => exact assigned.assign_generated before own (behaves _)
      | some entry => exact assigned.assign_configured before (by simp [whole]) own (behaves _)
    rw [foldlM_cons, Option.bind_eq_bind, Rooms]
    rcases outcome with ⟨room, given', place', after, step, assigned'⟩ | ⟨crowded, lost⟩
    · rw [step, Option.bind_some, ih assigned' (by rw [whole, append_assoc]; rfl), and_iff_right room]
    · refine ⟨?_, fun rooms => (crowded rooms.1).elim⟩
      rintro ⟨final, ran, keeps⟩
      obtain ⟨after, step, ran⟩ := Option.bind_eq_some_iff.mp ran
      obtain ⟨route, inside, unheard⟩ := lost after step
      have silent := unheard.run (fun other later same => apart.2.2 _ (mem_map_of_mem inside) _
        (mem_cons_of_mem _ (mem_map_of_mem later)) same.symm) ran
      obtain ⟨identity, ⟨held, found, consumes⟩, -⟩ := keeps.consumed route.sampleAlias none (.inr ⟨route, by simp [whole, inside], rfl⟩)
      exact (silent identity held found (consumes_sample.mp consumes)).elim

/-- Nothing is lost exactly when every authoritative route finds its identity unused. -/
theorem mergeInstrumentRoutes_keeps_iff (configured : Routes α β) {authoritative : List (ResolvedSamplerRoute β)}
    (diagnostics : List DuplicateSamplerConsumerSuppressed) (distinct : (authoritative.map (·.sampleAlias)).Nodup) :
    NothingLost configured authoritative diagnostics ↔ Room configured authoritative := by
  have walked := walked (ExtTreeSet.ofList (authoritative.map (·.sampleAlias))) configured diagnostics
  have among : {heard | heard ∈ ExtTreeSet.ofList (authoritative.map (·.sampleAlias))} = Claimed authoritative := by
    ext heard
    simp [Claimed, ExtTreeSet.mem_ofList]
  unfold NothingLost mergeInstrumentRoutes
  dsimp only
  generalize configured.toList.foldl (configure (ExtTreeSet.ofList (authoritative.map (·.sampleAlias)))) ⟨∅, ∅, diagnostics⟩ = start at walked ⊢
  have merged := walked.merged
  rw [among] at merged
  have assigned : Assigned configured authoritative [] ∅ id ⟨start.merged, ⟨0xffffffffffffffff, by decide⟩⟩ := by
    refine ⟨.empty _, by simp [generatedCount], fun identity higher => ?_, fun identity => ?_, fun _ absent => absurd absent (Set.notMem_empty _), ?_⟩
    · have := identity.isLt
      simp only [Fin.lt_def] at higher
      omega
    · rw [ExtTreeMap.mem_iff_isSome_getElem?, Option.isSome_iff_exists]
      simp [merged, Reserved, Claimed]
    · intro identity held
      simp [merged]
  rw [Room, ← assigned.run_iff walked.behavior distinct rfl]
  constructor
  · rintro ⟨merged, diagnostics', ran, keeps⟩
    obtain ⟨after, walked, same⟩ := Option.bind_eq_some_iff.mp ran
    cases same
    exact ⟨after, walked, keeps⟩
  · rintro ⟨after, walked, keeps⟩
    exact ⟨after.merged, start.diagnostics, Option.bind_eq_some_iff.mpr ⟨after, walked, rfl⟩, keeps⟩

def plain (heard : U64) : SamplerParams where
  mode := .oneShot
  gainDb := 0
  pan := 0
  maximumVoices := 32
  triggerAsset := some heard
  chokeGroup := none
  loopRegion := none
  reverse := false
  envelope := { attackFrames := 0, decayFrames := 0, sustain := 1, releaseFrames := 0 }

/-- The route of a kit for an alias. -/
def kit (heard : U64) : ResolvedSamplerRoute Unit := ⟨heard, 0, (), plain heard, rfl⟩

/-- A sampler configured for an alias under an identity of the caller's choice. -/
def explicit (identity heard : U64) : Routes Unit Unit :=
  (∅ : Routes Unit Unit).insert identity ⟨.sampler () { plain heard with mode := .gated }, 0⟩

theorem low_identity_keeps : NothingLost (explicit 5 2) [kit 1, kit 2] [] ↔ Room (explicit 5 2) [kit 1, kit 2] :=
  mergeInstrumentRoutes_keeps_iff _ _ (by decide)

/-- The sampler generated for the first alias has the identity that the second one was configured under. -/
theorem last_identity_loses : ¬ NothingLost (explicit 0xffffffffffffffff 2) [kit 1, kit 2] [] := by
  rintro ⟨merged, diagnostics, ran, keeps⟩
  obtain ⟨identity, ⟨held, found, consumes⟩, -⟩ := keeps.consumed 1 none (.inr ⟨kit 1, by simp, rfl⟩)
  have silent : (mergeInstrumentRoutes (explicit 0xffffffffffffffff 2) [kit 1, kit 2] []).map
      (fun result => result.1.toList.all fun entry => entry.2.definition.triggerAlias != some 1) = some true := by decide +kernel
  rw [ran, Option.map_some, Option.some.injEq, List.all_eq_true] at silent
  have := silent _ (Entries.mem_toList.mpr found)
  rw [consumes_sample.mp consumes] at this
  simp at this

end Audec.DawEngine

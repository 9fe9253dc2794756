import Audec.Lib.Coalesce
import Audec.Render.Plan

/-! Change sets are determined by what they cover, so the order and the grouping of the changes do not matter. -/

open Machine List Std.ExtTreeMap
open Std (ExtTreeMap ExtTreeSet)

namespace Audec.Render

open ChangeSet Coalesce.Ranges

namespace AudioRange

/-- What the constructor accepts. -/
def Proper (range : AudioRange) : Prop := range.start < range.stop

theorem new_ok_iff {start stop : I64} {range : AudioRange} : new start stop = .ok range ↔ range = ⟨start, stop⟩ ∧ range.Proper := by
  unfold new Proper
  split
  next inverted =>
    constructor
    · rintro ⟨⟩
    · rintro ⟨rfl, proper⟩
      exact absurd proper inverted.not_gt
  next ordered =>
    constructor
    · rintro ⟨⟩
      exact ⟨rfl, not_le.mp ordered⟩
    · rintro ⟨rfl, -⟩
      rfl

def Covers (range : AudioRange) (frame : I64) : Prop := range.start ≤ frame ∧ frame < range.stop

def asRanges : Coalesce.Ranges AudioRange Unit I64 where
  key _ := ()
  start := start
  stop := stop
  extend range stop' := ⟨range.start, max range.stop stop'⟩
  extend_key _ _ := rfl
  extend_start _ _ := rfl
  extend_stop _ _ := rfl

theorem asRanges_covers {range : AudioRange} {frame : I64} : asRanges.Covers range () frame ↔ range.Covers frame := by
  unfold Coalesce.Ranges.Covers
  exact and_iff_right rfl

theorem asRanges_apart {range other : AudioRange} : asRanges.Apart range other ↔ range.stop < other.start := by
  unfold Coalesce.Ranges.Apart
  simp [asRanges]

theorem asRanges_position_le {range other : AudioRange} : asRanges.position range ≤ asRanges.position other ↔ range.start ≤ other.start := by
  rw [position_le_iff]
  simp [asRanges]

theorem asRanges_determined (range other : AudioRange) (level : asRanges.position range = asRanges.position other)
    (stops : asRanges.stop range = asRanges.stop other) : range = other := by
  have starts : range.start = other.start :=
    le_antisymm (asRanges_position_le.mp level.le) (asRanges_position_le.mp level.ge)
  cases range
  cases other
  congr

theorem precedes_iff {range other : AudioRange} : range.precedes other = true ↔ toLex (range.start, range.stop) ≤ toLex (other.start, other.stop) := by
  unfold precedes
  rw [decide_eq_true_iff, Prod.Lex.toLex_le_toLex]

end AudioRange

open AudioRange

/-! ### Normal ranges -/

/-- Sorted, none empty, and a gap between any two. -/
structure Normal (ranges : List AudioRange) : Prop where
  proper : ∀ range ∈ ranges, range.Proper
  apart : ranges.Pairwise fun range later => range.stop < later.start

theorem Normal.asRanges_apart {ranges : List AudioRange} (normal : Normal ranges) : ranges.Pairwise asRanges.Apart :=
  normal.apart.imp AudioRange.asRanges_apart.mpr

theorem foldl_absorb {front rest : List AudioRange} {previous : AudioRange}
    (proper : ∀ range ∈ rest, range.Proper) (sorted : (previous :: rest).Pairwise fun a b => a.start ≤ b.start) :
    rest.foldl absorb (front ++ [previous]) = front ++ asRanges.mergeFrom previous rest := by
  induction rest generalizing front previous with
  | nil => rfl
  | cons next rest ih =>
    obtain ⟨first, later⟩ := pairwise_cons.mp sorted
    have starts := first next mem_cons_self
    have reaches : previous.start ≤ next.stop := starts.trans (proper next mem_cons_self).le
    have properRest : ∀ range ∈ rest, range.Proper := fun range inside => proper range (mem_cons_of_mem _ inside)
    rw [foldl_cons, absorb, getLast?_concat]
    dsimp only
    unfold mergeFrom AudioRange.union intersectsOrTouches
    by_cases touching : next.start ≤ previous.stop
    · rw [if_pos (decide_eq_true ⟨reaches, touching⟩), if_pos ⟨rfl, touching⟩, min_eq_left starts]
      dsimp only
      rw [dropLast_concat]
      apply ih properRest
      refine pairwise_cons.mpr ⟨fun range inside => ?_, later.of_cons⟩
      exact first range (mem_cons_of_mem _ inside)
    · have gap : decide (previous.start ≤ next.stop ∧ next.start ≤ previous.stop) = false := decide_eq_false fun both => touching both.2
      rw [gap, if_neg Bool.false_ne_true, if_neg fun both => touching both.2]
      dsimp only
      rw [ih properRest later, append_assoc]
      rfl

theorem foldl_absorb_nil {ranges : List AudioRange} (proper : ∀ range ∈ ranges, range.Proper)
    (sorted : ranges.Pairwise fun a b => a.start ≤ b.start) : ranges.foldl absorb [] = asRanges.merge ranges := by
  cases ranges with
  | nil => rfl
  | cons first rest => exact @foldl_absorb [] rest first (fun range inside => proper range (mem_cons_of_mem _ inside)) sorted

section Sorted

variable (ranges : List AudioRange)

theorem mem_sorted {range : AudioRange} : range ∈ ranges.insertionSort (fun a b => a.precedes b) ↔ range ∈ ranges :=
  (ranges.perm_insertionSort _).mem_iff

theorem sorted_starts : (ranges.insertionSort fun a b => a.precedes b).Pairwise fun a b => a.start ≤ b.start := by
  have : Std.Total fun a b : AudioRange => a.precedes b = true := ⟨fun a b => by
    rw [precedes_iff, precedes_iff]
    exact le_total _ _⟩
  have : IsTrans AudioRange fun a b => a.precedes b = true := ⟨fun a b c before after => by
    rw [precedes_iff] at before after ⊢
    exact before.trans after⟩
  apply (pairwise_insertionSort _ ranges).imp
  intro a b ordered
  rcases Prod.Lex.toLex_le_toLex.mp (precedes_iff.mp ordered) with before | ⟨level, -⟩
  · exact before.le
  · exact level.le

end Sorted

section Normalized

variable {ranges : List AudioRange}

section

variable (proper : ∀ range ∈ ranges, range.Proper)
include proper

theorem normalizeRanges_eq :
    normalizeRanges ranges = asRanges.merge (ranges.insertionSort fun a b => a.precedes b) :=
  foldl_absorb_nil (fun range inside => proper range ((mem_sorted ranges).mp inside)) (sorted_starts ranges)

theorem normalizeRanges_covers (frame : I64) :
    (∃ range ∈ normalizeRanges ranges, range.Covers frame) ↔ ∃ range ∈ ranges, range.Covers frame := by
  have merged := merge_covers ((sorted_starts ranges).imp asRanges_position_le.mpr) () frame
  rw [← normalizeRanges_eq proper] at merged
  simpa only [asRanges_covers, mem_sorted] using merged

theorem normalizeRanges_normal : Normal (normalizeRanges ranges) where
  apart := by
    rw [normalizeRanges_eq proper]
    exact (merge_apart ((sorted_starts ranges).imp asRanges_position_le.mpr)).imp AudioRange.asRanges_apart.mp
  proper := by
    rw [normalizeRanges_eq proper]
    exact merge_proper fun range inside => proper range ((mem_sorted ranges).mp inside)

end

theorem Normal.eq_of_covers {others : List AudioRange} (normal : Normal ranges) (normal' : Normal others)
    (same : ∀ frame, (∃ range ∈ ranges, range.Covers frame) ↔ ∃ range ∈ others, range.Covers frame) : ranges = others := by
  apply Coalesce.Ranges.eq_of_covers asRanges_determined normal.proper normal'.proper normal.asRanges_apart normal'.asRanges_apart
  intro key frame
  cases key
  simpa only [asRanges_covers] using same frame

end Normalized

/-! ### What a bus impact covers -/

namespace BusImpact

def covers : BusImpact → AudioRange → Bool
  | .whole, _ => true
  | .ranges held, range => held.any fun candidate => candidate.start ≤ range.start ∧ candidate.stop ≥ range.stop

def Covers : BusImpact → I64 → Prop
  | .whole, _ => True
  | .ranges held, frame => ∃ range ∈ held, range.Covers frame

def Canonical : BusImpact → Prop
  | .whole => True
  | .ranges held => held ≠ [] ∧ Normal held

theorem canonical_singleton {range : AudioRange} (proper : range.Proper) : (ranges [range]).Canonical :=
  ⟨cons_ne_nil _ _, forall_mem_singleton.mpr proper, pairwise_singleton _ _⟩

variable {impact other : BusImpact}

/-- The last frame is in no range, since ranges stop before a frame. -/
theorem exists_not_covers (held : List AudioRange) : ∃ frame, ¬ (ranges held).Covers frame := by
  refine ⟨I64.saturate 0x7fffffffffffffff, ?_⟩
  rintro ⟨range, -, -, below⟩
  rw [I64.lt_iff, I64.saturate_val _ (by decide) (by decide)] at below
  have := range.stop.upper
  omega

section

variable (canonical : impact.Canonical)
include canonical

theorem eq_of_covers (canonical' : other.Canonical)
    (same : ∀ frame, impact.Covers frame ↔ other.Covers frame) : impact = other := by
  cases impact with
  | whole =>
    cases other with
    | whole => rfl
    | ranges held =>
      obtain ⟨frame, missed⟩ := exists_not_covers held
      exact absurd ((same frame).mp trivial) missed
  | ranges held =>
    cases other with
    | whole =>
      obtain ⟨frame, missed⟩ := exists_not_covers held
      exact absurd ((same frame).mpr trivial) missed
    | ranges held' => rw [canonical.2.eq_of_covers canonical'.2 same]

theorem Canonical.exists_covers : ∃ frame, impact.Covers frame := by
  cases impact with
  | whole => exact ⟨I64.zero, trivial⟩
  | ranges held =>
    obtain ⟨range, inside⟩ := exists_mem_of_ne_nil held canonical.1
    exact ⟨range.start, range, inside, le_rfl, canonical.2.proper range inside⟩

theorem Canonical.covers_iff {range : AudioRange} (proper : range.Proper) :
    impact.covers range = true ↔ ∀ frame, range.Covers frame → impact.Covers frame := by
  cases impact with
  | whole => simp [covers, Covers]
  | ranges held =>
    have spanned := covers_span_iff canonical.2.asRanges_apart () proper
    simp only [asRanges_covers] at spanned
    simp only [covers, Covers, any_eq_true, decide_eq_true_iff]
    constructor
    · rintro ⟨candidate, inside, above, below⟩ frame ⟨after, before⟩
      exact spanned.mp ⟨candidate, inside, trivial, above, below⟩ frame after before
    · intro every
      obtain ⟨candidate, inside, -, above, below⟩ := spanned.mpr fun frame after before => every frame ⟨after, before⟩
      exact ⟨candidate, inside, above, below⟩

end

theorem ofRanges_covers {incoming : List AudioRange} (proper : ∀ range ∈ incoming, range.Proper) (frame : I64) :
    (ofRanges incoming).Covers frame ↔ ∃ range ∈ incoming, range.Covers frame :=
  normalizeRanges_covers proper frame

theorem proper_append {left right : List AudioRange} (canonical : (ranges left).Canonical) (canonical' : (ranges right).Canonical) :
    ∀ range ∈ left ++ right, range.Proper :=
  forall_mem_append.mpr ⟨canonical.2.proper, canonical'.2.proper⟩

theorem merge_covers (canonical : impact.Canonical) (canonical' : other.Canonical) (frame : I64) :
    (impact.merge other).Covers frame ↔ impact.Covers frame ∨ other.Covers frame := by
  cases impact with
  | whole => simp [merge, Covers]
  | ranges left =>
    cases other with
    | whole => simp [merge, Covers]
    | ranges right =>
      have joined := normalizeRanges_covers (proper_append canonical canonical') frame
      simpa only [merge, Covers, mem_append, or_and_right, exists_or] using joined

theorem canonical_of_covers {incoming : List AudioRange} (proper : ∀ range ∈ incoming, range.Proper) {frame : I64}
    (covered : ∃ range ∈ incoming, range.Covers frame) : (ranges (normalizeRanges incoming)).Canonical := by
  refine ⟨?_, normalizeRanges_normal proper⟩
  obtain ⟨range, inside, -⟩ := (normalizeRanges_covers proper frame).mpr covered
  exact ne_nil_of_mem inside

theorem merge_canonical (canonical : impact.Canonical) (canonical' : other.Canonical) : (impact.merge other).Canonical := by
  cases impact with
  | whole => trivial
  | ranges left =>
    cases other with
    | whole => trivial
    | ranges right =>
      obtain ⟨frame, range, inside, covered⟩ := canonical.exists_covers
      exact canonical_of_covers (proper_append canonical canonical') ⟨range, mem_append_left _ inside, covered⟩

end BusImpact

/-! ### Change sets -/

namespace ChangeSet

def merge (changes other : ChangeSet) : ChangeSet :=
  let changes := { changes with
    domains := other.domains.toList.foldl (fun domains domain => domains.insert domain) changes.domains
    routingChanged := changes.routingChanged || other.routingChanged }
  other.audio.toList.foldl (fun changes incoming => changes.impact incoming.1 incoming.2) changes

def Invalidates (changes : ChangeSet) (bus : BusId) (frame : I64) : Prop :=
  ∃ impact, changes.audio[bus]? = some impact ∧ impact.Covers frame

def Canonical (changes : ChangeSet) : Prop := ∀ (bus : BusId) (impact : BusImpact), changes.audio[bus]? = some impact → impact.Canonical

variable {changes other : ChangeSet}

theorem audio_eq_none_iff (canonical : changes.Canonical) {bus : BusId} :
    changes.audio[bus]? = none ↔ ∀ frame, ¬ changes.Invalidates bus frame := by
  constructor
  · rintro none frame ⟨impact, held, -⟩
    cases none.symm.trans held
  · intro never
    cases held : changes.audio[bus]? with
    | none => rfl
    | some impact =>
      obtain ⟨frame, covered⟩ := (canonical bus impact held).exists_covers
      exact absurd ⟨impact, held, covered⟩ (never frame)

theorem invalidates_iff {bus : BusId} {impact : BusImpact} (held : changes.audio[bus]? = some impact) (frame : I64) :
    changes.Invalidates bus frame ↔ impact.Covers frame := by
  constructor
  · rintro ⟨found, here, covered⟩
    cases held.symm.trans here
    exact covered
  · exact fun covered => ⟨impact, held, covered⟩

theorem eq_of_same (canonical : changes.Canonical) (canonical' : other.Canonical)
    (domains : ∀ domain, domain ∈ changes.domains ↔ domain ∈ other.domains)
    (frames : ∀ bus frame, changes.Invalidates bus frame ↔ other.Invalidates bus frame)
    (routing : changes.routingChanged = true ↔ other.routingChanged = true) : changes = other := by
  have audio : changes.audio = other.audio := by
    apply ExtTreeMap.ext_getElem?
    intro bus
    cases held : changes.audio[bus]? with
    | none =>
      symm
      rw [audio_eq_none_iff canonical'] 
      intro frame
      rw [← frames]
      exact (audio_eq_none_iff canonical).mp held frame
    | some impact =>
      cases held' : other.audio[bus]? with
      | none =>
        obtain ⟨frame, covered⟩ := (canonical bus impact held).exists_covers
        have found := (frames bus frame).mp ⟨impact, held, covered⟩
        exact absurd found ((audio_eq_none_iff canonical').mp held' frame)
      | some impact' =>
        congr 1
        apply BusImpact.eq_of_covers (canonical bus impact held) (canonical' bus impact' held')
        intro frame
        rw [← invalidates_iff held, ← invalidates_iff held', frames]
  have named : changes.domains = other.domains := ExtTreeSet.ext_mem domains
  have flagged : changes.routingChanged = other.routingChanged := Bool.eq_iff_iff.mpr routing
  cases changes
  cases other
  simp_all

section Impact

variable {incoming : BusImpact} (canonical : changes.Canonical) (canonical' : incoming.Canonical) (bus : BusId)

include canonical canonical'

theorem impact_canonical : (changes.impact bus incoming).Canonical := by
  intro other impact held
  unfold ChangeSet.impact at held
  split at held
  · rw [ExtTreeMap.getElem?_insert] at held
    split at held
    · cases held
      exact canonical'
    · exact canonical other impact held
  next before here =>
    rw [ExtTreeMap.getElem?_insert] at held
    split at held
    · cases held
      exact BusImpact.merge_canonical (canonical bus before here) canonical'
    · exact canonical other impact held

theorem impact_invalidates (other : BusId) (frame : I64) :
    (changes.impact bus incoming).Invalidates other frame ↔ changes.Invalidates other frame ∨ bus = other ∧ incoming.Covers frame := by
  unfold impact Invalidates
  split
  next fresh =>
    simp only [ExtTreeMap.getElem?_insert, compare_eq_iff_eq]
    split
    next same =>
      cases same
      simp [fresh]
    next different => simp [different]
  next before here =>
    simp only [ExtTreeMap.getElem?_insert, compare_eq_iff_eq]
    split
    next same =>
      cases same
      simp [here, BusImpact.merge_covers (canonical bus before here) canonical']
    next different => simp [different]

end Impact

@[simp] theorem impact_domains (bus : BusId) (incoming : BusImpact) : (changes.impact bus incoming).domains = changes.domains := by
  unfold impact
  split <;> rfl

@[simp] theorem impact_routingChanged (bus : BusId) (incoming : BusImpact) :
    (changes.impact bus incoming).routingChanged = changes.routingChanged := by
  unfold impact
  split <;> rfl

theorem foldl_impact (entries : List (BusId × BusImpact)) (canonical : changes.Canonical) (each : ∀ entry ∈ entries, entry.2.Canonical) :
    let merged := entries.foldl (fun changes incoming => changes.impact incoming.1 incoming.2) changes
    merged.Canonical ∧ merged.domains = changes.domains ∧ merged.routingChanged = changes.routingChanged ∧
      ∀ bus frame, merged.Invalidates bus frame ↔
        changes.Invalidates bus frame ∨ ∃ entry ∈ entries, entry.1 = bus ∧ entry.2.Covers frame := by
  induction entries generalizing changes with
  | nil => simpa using canonical
  | cons entry entries ih =>
    obtain ⟨first, later⟩ := forall_mem_cons.mp each
    obtain ⟨still, domains, routing, frames⟩ := ih (impact_canonical canonical first entry.1) later
    refine ⟨still, ?_, ?_, fun bus frame => ?_⟩
    · rw [foldl_cons, domains, impact_domains]
    · rw [foldl_cons, routing, impact_routingChanged]
    · rw [foldl_cons, frames, impact_invalidates canonical first]
      simp [or_assoc]

theorem mem_foldl_insert (added : List ProjectDomain) (domains : ExtTreeSet ProjectDomain) (domain : ProjectDomain) :
    domain ∈ added.foldl (fun domains domain => domains.insert domain) domains ↔ domain ∈ domains ∨ domain ∈ added := by
  induction added generalizing domains with
  | nil => simp
  | cons first added ih =>
    rw [foldl_cons, ih, ExtTreeSet.mem_insert, compare_eq_iff_eq, mem_cons, eq_comm]
    tauto

section Merge

variable (canonical : changes.Canonical) (canonical' : other.Canonical)

include canonical canonical'

theorem merge_spec : (changes.merge other).Canonical ∧
    (∀ domain, domain ∈ (changes.merge other).domains ↔ domain ∈ changes.domains ∨ domain ∈ other.domains) ∧
    ((changes.merge other).routingChanged = true ↔ changes.routingChanged = true ∨ other.routingChanged = true) ∧
    ∀ bus frame, (changes.merge other).Invalidates bus frame ↔ changes.Invalidates bus frame ∨ other.Invalidates bus frame := by
  have each : ∀ entry ∈ other.audio.toList, entry.2.Canonical := by
    rintro ⟨bus, impact⟩ inside
    exact canonical' bus impact (mem_toList_iff_getElem?_eq_some.mp inside)
  have start : Canonical { changes with
      domains := other.domains.toList.foldl (fun domains domain => domains.insert domain) changes.domains
      routingChanged := changes.routingChanged || other.routingChanged } := canonical
  obtain ⟨still, domains, routing, frames⟩ := foldl_impact other.audio.toList start each
  refine ⟨still, fun domain => ?_, ?_, fun bus frame => ?_⟩
  · unfold merge
    rw [domains, mem_foldl_insert, ExtTreeSet.mem_toList]
  · unfold merge
    rw [routing, Bool.or_eq_true]
  · unfold merge
    rw [frames]
    apply or_congr Iff.rfl
    unfold Invalidates
    simp only [Prod.exists, mem_toList_iff_getElem?_eq_some]
    constructor
    · rintro ⟨_, impact, held, rfl, covered⟩
      exact ⟨impact, held, covered⟩
    · rintro ⟨impact, held, covered⟩
      exact ⟨bus, impact, held, rfl, covered⟩

end Merge

theorem default_canonical : default.Canonical := by
  intro bus impact held
  cases getElem?_empty.symm.trans held

end ChangeSet

/-- One call of a method that records a change. -/
inductive Change where
  | touch (domain : ProjectDomain)
  | invalidateRange (bus : BusId) (range : AudioRange)
  | invalidateRanges (bus : BusId) (ranges : List AudioRange)
  | invalidateBus (bus : BusId)
  | markRoutingChanged

namespace Change

def apply (changes : ChangeSet) : Change → ChangeSet
  | .touch domain => changes.touch domain
  | .invalidateRange bus range => changes.invalidateRange bus range
  | .invalidateRanges bus ranges => changes.invalidateRanges bus ranges
  | .invalidateBus bus => changes.invalidateBus bus
  | .markRoutingChanged => changes.markRoutingChanged

def ranges : Change → List AudioRange
  | .invalidateRange _ range => [range]
  | .invalidateRanges _ ranges => ranges
  | _ => []

def Made (change : Change) : Prop := ∀ range ∈ change.ranges, AudioRange.new range.start range.stop = .ok range

theorem Made.proper {change : Change} (made : change.Made) {range : AudioRange} (inside : range ∈ change.ranges) : range.Proper :=
  (AudioRange.new_ok_iff.mp (made range inside)).2

def Covers (bus : BusId) (frame : I64) : Change → Prop
  | .invalidateRange named range => named = bus ∧ range.Covers frame
  | .invalidateRanges named ranges => named = bus ∧ ∃ range ∈ ranges, range.Covers frame
  | .invalidateBus named => named = bus
  | _ => False

theorem covers_append {calls : List Change} {last : Change} {bus : BusId} {frame : I64} :
    (∃ change ∈ calls ++ [last], change.Covers bus frame) ↔ (∃ change ∈ calls, change.Covers bus frame) ∨ last.Covers bus frame := by
  simp only [mem_append, mem_singleton, or_and_right, exists_or, exists_eq_left]

end Change

inductive Built : List Change → ChangeSet → Prop
  | default : Built [] .default
  | call {calls changes} (built : Built calls changes) (change : Change) (made : change.Made) : Built (calls ++ [change]) (change.apply changes)
  | merge {calls more changes other} (built : Built calls changes) (built' : Built more other) : Built (calls ++ more) (changes.merge other)

structure Describes (calls : List Change) (changes : ChangeSet) : Prop where
  canonical : changes.Canonical
  domains : ∀ domain, domain ∈ changes.domains ↔ .touch domain ∈ calls
  frames : ∀ bus frame, changes.Invalidates bus frame ↔ ∃ change ∈ calls, change.Covers bus frame
  routing : changes.routingChanged = true ↔ .markRoutingChanged ∈ calls

namespace Describes

variable {calls more : List Change} {changes other : ChangeSet}

section

variable (described : Describes calls changes)
include described

theorem merge (described' : Describes more other) :
    Describes (calls ++ more) (changes.merge other) := by
  obtain ⟨merged, domains, routing, frames⟩ := merge_spec described.canonical described'.canonical
  refine ⟨merged, fun domain => ?_, fun bus frame => ?_, ?_⟩
  · rw [domains, described.domains, described'.domains, mem_append]
  · rw [frames, described.frames, described'.frames]
    simp only [mem_append, or_and_right, exists_or]
  · rw [routing, described.routing, described'.routing, mem_append]

theorem impact {change : Change} {bus : BusId} {incoming : BusImpact}
    (canonical : incoming.Canonical) (covers : ∀ named frame, change.Covers named frame ↔ bus = named ∧ incoming.Covers frame)
    (quiet : ∀ domain, change ≠ .touch domain) (routed : change ≠ .markRoutingChanged) :
    Describes (calls ++ [change]) (changes.impact bus incoming) := by
  refine ⟨impact_canonical described.canonical canonical bus, fun domain => ?_, fun named frame => ?_, ?_⟩
  · rw [impact_domains, described.domains]
    simp [(quiet domain).symm]
  · rw [impact_invalidates described.canonical canonical, described.frames, ← covers]
    simp [or_and_right, exists_or]
  · rw [impact_routingChanged, described.routing]
    simp [routed.symm]

theorem call {change : Change} (made : change.Made) :
    Describes (calls ++ [change]) (change.apply changes) := by
  cases change with
  | touch domain =>
    refine ⟨described.canonical, fun other => ?_, fun bus frame => ?_, ?_⟩
    · simp only [Change.apply, touch, ExtTreeSet.mem_insert, compare_eq_iff_eq, described.domains]
      simp [eq_comm, or_comm]
    · rw [Change.covers_append, ← described.frames]
      exact (or_iff_left id).symm
    · simpa [Change.apply, touch] using described.routing
  | invalidateRange bus range =>
    apply described.impact (BusImpact.canonical_singleton (made.proper mem_cons_self))
    · intro named frame
      simp [Change.Covers, BusImpact.Covers]
    · exact fun _ => Change.noConfusion
    · exact Change.noConfusion
  | invalidateRanges bus ranges =>
    have proper : ∀ range ∈ ranges, range.Proper := fun range inside => made.proper inside
    unfold Change.apply invalidateRanges
    dsimp only
    split
    next empty =>
      have none : ∀ frame, ¬ ∃ range ∈ ranges, range.Covers frame := by
        intro frame covered
        exact (BusImpact.canonical_of_covers proper covered).1 (List.isEmpty_iff.mp empty)
      refine ⟨described.canonical, fun domain => ?_, fun named frame => ?_, ?_⟩
      · simpa using described.domains domain
      · rw [Change.covers_append, ← described.frames]
        exact (or_iff_left fun covered => none frame covered.2).symm
      · simpa using described.routing
    next some =>
      have canonical : (BusImpact.ofRanges ranges).Canonical :=
        ⟨fun empty => some (List.isEmpty_iff.mpr empty), normalizeRanges_normal proper⟩
      apply described.impact canonical
      · intro named frame
        rw [BusImpact.ofRanges_covers proper]
        rfl
      · exact fun _ => Change.noConfusion
      · exact Change.noConfusion
  | invalidateBus bus =>
    refine ⟨fun named impact held => ?_, fun domain => ?_, fun named frame => ?_, ?_⟩
    · simp only [Change.apply, invalidateBus, ExtTreeMap.getElem?_insert] at held
      split at held
      · cases held
        trivial
      · exact described.canonical named impact held
    · simpa [Change.apply, invalidateBus] using described.domains domain
    · rw [Change.covers_append, ← described.frames]
      simp only [Change.apply, invalidateBus, ChangeSet.Invalidates, ExtTreeMap.getElem?_insert, compare_eq_iff_eq, Change.Covers]
      split
      next here => simp [BusImpact.Covers, here]
      next different => simp [different]
    · simpa [Change.apply, invalidateBus] using described.routing
  | markRoutingChanged =>
    refine ⟨described.canonical, fun domain => ?_, fun bus frame => ?_, ?_⟩
    · simpa [Change.apply, markRoutingChanged] using described.domains domain
    · rw [Change.covers_append, ← described.frames]
      exact (or_iff_left id).symm
    · simp [Change.apply, markRoutingChanged]

theorem eq_of_same (described' : Describes more other)
    (same : ∀ change, change ∈ calls ↔ change ∈ more) : changes = other := by
  apply ChangeSet.eq_of_same described.canonical described'.canonical
  · intro domain
    rw [described.domains, described'.domains, same]
  · intro bus frame
    simp only [described.frames, described'.frames, same]
  · rw [described.routing, described'.routing, same]

end

end Describes

namespace Built

variable {calls : List Change} {changes : ChangeSet}

theorem describes (built : Built calls changes) : Describes calls changes := by
  induction built with
  | default =>
    refine ⟨default_canonical, fun domain => ?_, fun bus frame => ?_, ?_⟩
    · simp [ChangeSet.default]
    · simp [ChangeSet.Invalidates, ChangeSet.default]
    · simp [ChangeSet.default]
  | call _ change made described => exact described.call made
  | merge _ _ described described' => exact described.merge described'

/-- Built change sets are a semilattice under merging, and depend only on which calls were made. -/
theorem semilattice (built : Built calls changes) :
    (∀ (bus : BusId) (impact : BusImpact), changes.audio[bus]? = some impact → impact.Canonical) ∧
    (∀ bus frame, changes.Invalidates bus frame ↔ ∃ change ∈ calls, change.Covers bus frame) ∧
    (∀ (bus : BusId) (impact : BusImpact) (range : AudioRange), changes.audio[bus]? = some impact →
      AudioRange.new range.start range.stop = .ok range →
      (impact.covers range = true ↔ ∀ frame, range.Covers frame → changes.Invalidates bus frame)) ∧
    changes.merge changes = changes ∧ changes.merge .default = changes ∧ ChangeSet.default.merge changes = changes ∧
    (∀ more other, Built more other → changes.merge other = other.merge changes ∧
      ∀ further third, Built further third → (changes.merge other).merge third = changes.merge (other.merge third)) ∧
    ∀ more other, Built more other → (∀ change, change ∈ calls ↔ change ∈ more) → changes = other := by
  have described := built.describes
  have canonical := described.canonical
  refine ⟨canonical, described.frames, ?_, ?_, ?_, ?_, ?_, ?_⟩
  · intro bus impact range held made
    rw [(canonical bus impact held).covers_iff (AudioRange.new_ok_iff.mp made).2]
    simp only [ChangeSet.invalidates_iff held]
  · exact (described.merge described).eq_of_same described (by simp)
  · exact (described.merge default.describes).eq_of_same described (by simp)
  · exact (default.describes.merge described).eq_of_same described (by simp)
  · intro more other built'
    have described' := built'.describes
    refine ⟨(described.merge described').eq_of_same (described'.merge described) (by simp [or_comm]), fun further third built'' => ?_⟩
    have described'' := built''.describes
    exact ((described.merge described').merge described'').eq_of_same (described.merge (described'.merge described'')) (by simp)
  · intro more other built' same
    exact described.eq_of_same built'.describes same

/-- Two ranges that touch, recorded in either order, once by one set and once by two. -/
theorem halves_commute :
    (ChangeSet.default.invalidateRange ⟨1⟩ ⟨.wrap 0, .wrap 4⟩).invalidateRange ⟨1⟩ ⟨.wrap 4, .wrap 8⟩ =
      (ChangeSet.default.invalidateRange ⟨1⟩ ⟨.wrap 4, .wrap 8⟩).merge (ChangeSet.default.invalidateRange ⟨1⟩ ⟨.wrap 0, .wrap 4⟩) := by
  have early : Change.Made (.invalidateRange ⟨1⟩ ⟨.wrap 0, .wrap 4⟩) := List.forall_mem_singleton.mpr rfl
  have late : Change.Made (.invalidateRange ⟨1⟩ ⟨.wrap 4, .wrap 8⟩) := List.forall_mem_singleton.mpr rfl
  have forwards := (Built.default.call _ early).call _ late
  have backwards := (Built.default.call _ late).merge (Built.default.call _ early)
  have depends := (semilattice forwards).2.2.2.2.2.2.2
  exact depends _ _ backwards fun change => by simp [or_comm]

end Built

end Audec.Render

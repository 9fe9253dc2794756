import Audec.Media.Store

/-! The bounded queue of chunks to decode: one request a chunk, the most urgent first. -/

open Std (ExtTreeMap)
open Machine Checked Runs Std.ExtTreeMap Entries

namespace Audec.Media

inductive RequestPriority where
  | playback
  | activeLoop
  | visible
  | lookahead
  | background

def RequestPriority.rank : RequestPriority → Nat
  | .playback => 0
  | .activeLoop => 1
  | .visible => 2
  | .lookahead => 3
  | .background => 4

structure PrefetchPolicy where
  maxQueued : U64
  maxInFlight : U64

def PrefetchPolicy.validate (policy : PrefetchPolicy) : Except StreamingMediaError PrefetchPolicy := do
  ensure (¬ (policy.maxQueued = 0 ∨ policy.maxInFlight = 0 ∨ policy.maxQueued < policy.maxInFlight)) .invalidPrefetchPolicy
  pure policy

structure DecodeRequest (D : Type) where
  key : PcmChunkKey D
  priority : RequestPriority
  distanceChunks : U32
  demandEpoch : U64

/-- The smaller, the more urgent. -/
def DecodeRequest.orderingKey {D : Type} (request : DecodeRequest D) : Nat ×ₗ U32 ×ₗ PcmChunkKey D :=
  toLex (request.priority.rank, toLex (request.distanceChunks, request.key))

theorem DecodeRequest.orderingKey_inj {D : Type} {request other : DecodeRequest D} (same : request.orderingKey = other.orderingKey) :
    request.key = other.key := by
  simp only [orderingKey, EmbeddingLike.apply_eq_iff_eq, Prod.mk.injEq] at same
  exact same.2.2

structure DecodeRequestQueue (D : Type) [LinearOrder D] where
  policy : PrefetchPolicy
  queued : ExtTreeMap (PcmChunkKey D) (DecodeRequest D)
  inFlight : ExtTreeMap (PcmChunkKey D) (DecodeRequest D)

namespace DecodeRequestQueue

variable {D : Type} [LinearOrder D]

def new (policy : PrefetchPolicy) : Except StreamingMediaError (DecodeRequestQueue D) := do
  let policy ← policy.validate
  pure ⟨policy, ∅, ∅⟩

/-- The pending work that goes first when there is no room; no two requests are equally urgent. -/
def worst (queue : DecodeRequestQueue D) : Option (DecodeRequest D) := (Entries.values queue.queued).argmax DecodeRequest.orderingKey

def submit (queue : DecodeRequestQueue D) (request : DecodeRequest D) : DecodeRequestQueue D × Bool :=
  if queue.inFlight.contains request.key then (queue, false)
  else match queue.queued[request.key]? with
    | some existing =>
      if request.orderingKey < existing.orderingKey then ({ queue with queued := queue.queued.insert request.key request }, true)
      else (queue, false)
    | none =>
      if queue.queued.size < queue.policy.maxQueued.val then ({ queue with queued := queue.queued.insert request.key request }, true)
      else match queue.worst with
        | some worst =>
          if request.orderingKey < worst.orderingKey then
            ({ queue with queued := (queue.queued.erase worst.key).insert request.key request }, true)
          else (queue, false)
        | none => (queue, false)

def submitAll (queue : DecodeRequestQueue D) (requests : List (DecodeRequest D)) : DecodeRequestQueue D :=
  requests.foldl (fun queue request => (queue.submit request).1) queue

def startNext (queue : DecodeRequestQueue D) : DecodeRequestQueue D × Option (DecodeRequest D) :=
  if queue.policy.maxInFlight.val ≤ queue.inFlight.size then (queue, none)
  else match (Entries.values queue.queued).argmin DecodeRequest.orderingKey with
    | some next => ({ queue with queued := queue.queued.erase next.key, inFlight := queue.inFlight.insert next.key next }, some next)
    | none => (queue, none)

def complete (queue : DecodeRequestQueue D) (key : PcmChunkKey D) : DecodeRequestQueue D × Bool :=
  ({ queue with inFlight := queue.inFlight.erase key }, queue.inFlight.contains key)

def cancelBeforeEpoch (queue : DecodeRequestQueue D) (minimumEpoch : U64) : DecodeRequestQueue D × Nat :=
  let queued := queue.queued.filter fun _ request => minimumEpoch ≤ request.demandEpoch
  ({ queue with queued }, queue.queued.size - queued.size)

inductive Action (D : Type) where
  | submit (request : DecodeRequest D)
  | startNext
  | complete (key : PcmChunkKey D)
  | cancelBeforeEpoch (minimumEpoch : U64)

def perform (queue : DecodeRequestQueue D) : Action D → DecodeRequestQueue D
  | .submit request => (queue.submit request).1
  | .startNext => queue.startNext.1
  | .complete key => (queue.complete key).1
  | .cancelBeforeEpoch minimumEpoch => (queue.cancelBeforeEpoch minimumEpoch).1

structure Kept (queue : DecodeRequestQueue D) : Prop where
  named : ∀ (key : PcmChunkKey D) (request : DecodeRequest D), queue.queued[key]? = some request → request.key = key
  apart : ∀ key : PcmChunkKey D, queue.queued[key]? = none ∨ queue.inFlight[key]? = none
  queuedBound : queue.queued.size ≤ queue.policy.maxQueued.val
  inFlightBound : queue.inFlight.size ≤ queue.policy.maxInFlight.val

theorem new_kept {policy : PrefetchPolicy} {queue : DecodeRequestQueue D} (made : new policy = .ok queue) :
    queue.policy = policy ∧ queue.Kept ∧ 0 < policy.maxQueued.val ∧ queue.queued = ∅ ∧ queue.inFlight = ∅ := by
  obtain ⟨checked, validated, built⟩ := bind_ok.mp made
  obtain ⟨_, valid, same⟩ := bind_ok.mp validated
  cases same
  cases built
  have positive := ensure_ok.mp valid
  simp only [not_or, Fin.ext_iff, Fin.coe_ofNat_eq_mod] at positive
  refine ⟨rfl, ⟨?_, ?_, ?_, ?_⟩, by omega, rfl, rfl⟩
  · intro key request held
    rw [getElem?_empty] at held
    cases held
  · exact fun key => .inl getElem?_empty
  · exact (size_empty).trans_le (Nat.zero_le _)
  · exact (size_empty).trans_le (Nat.zero_le _)

variable {worst : DecodeRequest D} {requests' : List (DecodeRequest D)}

theorem worst_spec {queue : DecodeRequestQueue D} (kept : queue.Kept) (found : queue.worst = some worst) :
    queue.queued[worst.key]? = some worst ∧
      ∀ (key : PcmChunkKey D) (request : DecodeRequest D), queue.queued[key]? = some request → request.orderingKey ≤ worst.orderingKey := by
  obtain ⟨key, held⟩ := mem_values.mp (List.argmax_mem found)
  refine ⟨by rwa [kept.named key worst held], fun key request held => ?_⟩
  exact List.le_of_mem_argmax (mem_values.mpr ⟨key, held⟩) found

inductive Submitted (queue : DecodeRequestQueue D) (request : DecodeRequest D) : DecodeRequestQueue D × Bool → Prop where
  | flying (started : queue.inFlight[request.key]? ≠ none) : Submitted queue request (queue, false)
  | upgraded (existing : DecodeRequest D) (landed : queue.inFlight[request.key]? = none) (held : queue.queued[request.key]? = some existing)
    (rises : request.orderingKey < existing.orderingKey) :
    Submitted queue request ({ queue with queued := queue.queued.insert request.key request }, true)
  | repeated (existing : DecodeRequest D) (landed : queue.inFlight[request.key]? = none) (held : queue.queued[request.key]? = some existing)
    (remains : existing.orderingKey ≤ request.orderingKey) : Submitted queue request (queue, false)
  | added (landed : queue.inFlight[request.key]? = none) (absent : queue.queued[request.key]? = none)
    (room : queue.queued.size < queue.policy.maxQueued.val) :
    Submitted queue request ({ queue with queued := queue.queued.insert request.key request }, true)
  | replaced (worst : DecodeRequest D) (landed : queue.inFlight[request.key]? = none) (absent : queue.queued[request.key]? = none)
    (full : queue.policy.maxQueued.val ≤ queue.queued.size) (found : queue.worst = some worst)
    (rises : request.orderingKey < worst.orderingKey) :
    Submitted queue request ({ queue with queued := (queue.queued.erase worst.key).insert request.key request }, true)
  | refused (landed : queue.inFlight[request.key]? = none) (absent : queue.queued[request.key]? = none)
    (full : queue.policy.maxQueued.val ≤ queue.queued.size)
    (more : ∀ (key : PcmChunkKey D) (other : DecodeRequest D), queue.queued[key]? = some other → other.orderingKey ≤ request.orderingKey) :
    Submitted queue request (queue, false)

theorem submit_spec {queue : DecodeRequestQueue D} (kept : queue.Kept) (request : DecodeRequest D) :
    Submitted queue request (queue.submit request) := by
  unfold submit
  split
  · rename_i started
    rw [contains_iff_mem, mem_iff_isSome_getElem?] at started
    exact .flying (Option.isSome_iff_ne_none.mp started)
  · rename_i waiting
    rw [contains_iff_mem, mem_iff_isSome_getElem?, Bool.not_eq_true, Option.isSome_eq_false_iff, Option.isNone_iff_eq_none] at waiting
    split
    · rename_i existing held
      split
      · rename_i rises
        exact .upgraded existing waiting held rises
      · rename_i remains
        exact .repeated existing waiting held (not_lt.mp remains)
    · rename_i absent
      split
      · rename_i room
        exact .added waiting absent room
      · rename_i full
        split
        · rename_i worst found
          split
          · rename_i rises
            exact .replaced worst waiting absent (not_lt.mp full) found rises
          · rename_i remains
            refine .refused waiting absent (not_lt.mp full) fun key other held => ?_
            exact ((worst_spec kept found).2 key other held).trans (not_lt.mp remains)
        · rename_i none
          refine .refused waiting absent (not_lt.mp full) fun key other held => ?_
          rw [worst, List.argmax_eq_none] at none
          have inside := mem_values.mpr ⟨key, held⟩
          rw [none] at inside
          cases inside

theorem lookup_replaced (queue : DecodeRequestQueue D) (request worst : DecodeRequest D) (key : PcmChunkKey D) :
    ((queue.queued.erase worst.key).insert request.key request)[key]? =
      if request.key = key then some request else if worst.key = key then none else queue.queued[key]? := by
  rw [lookup_insert, lookup_erase]

variable {request : DecodeRequest D} {requests : List (DecodeRequest D)} {key : PcmChunkKey D}

theorem size_replaced {queue : DecodeRequestQueue D} (kept : queue.Kept) (found : queue.worst = some worst)
    (absent : queue.queued[request.key]? = none) :
    ((queue.queued.erase worst.key).insert request.key request).size = queue.queued.size := by
  have held := (worst_spec kept found).1
  have missing : (queue.queued.erase worst.key).contains request.key = false := by
    rw [contains_eq_isSome_getElem?, lookup_erase]
    split
    · rfl
    · rw [absent]
      rfl
  have counted := (toList_perm held).length_eq
  rw [List.length_cons, length_toList, length_toList] at counted
  rw [size_insert, missing, if_neg Bool.false_ne_true, counted]

theorem lookup_filter (queue : DecodeRequestQueue D) (minimumEpoch : U64) (key : PcmChunkKey D) :
    (queue.cancelBeforeEpoch minimumEpoch).1.queued[key]? =
      queue.queued[key]?.filter fun request => minimumEpoch ≤ request.demandEpoch := by
  change (ExtTreeMap.filter _ queue.queued)[key]? = _
  rw [getElem?_filter']

theorem Kept.fewer {queue after : DecodeRequestQueue D} (kept : queue.Kept) (policy : after.policy = queue.policy)
    (queued : ∀ key : PcmChunkKey D, after.queued[key]? = none ∨ after.queued[key]? = queue.queued[key]?)
    (inFlight : ∀ key : PcmChunkKey D, after.inFlight[key]? = none ∨ after.inFlight[key]? = queue.inFlight[key]?)
    (queuedSize : after.queued.size ≤ queue.queued.size) (inFlightSize : after.inFlight.size ≤ queue.inFlight.size) : after.Kept := by
  refine ⟨fun key request held => ?_, fun key => ?_, ?_, ?_⟩
  · rcases queued key with gone | same
    · rw [gone] at held
      cases held
    · exact kept.named key request (same ▸ held)
  · rcases queued key with gone | same
    · exact .inl gone
    · rcases inFlight key with landed | same'
      · exact .inr landed
      · rw [same, same']
        exact kept.apart key
  · rw [policy]
    exact queuedSize.trans kept.queuedBound
  · rw [policy]
    exact inFlightSize.trans kept.inFlightBound

theorem Kept.added {queue : DecodeRequestQueue D} (kept : queue.Kept)
    {queued : ExtTreeMap (PcmChunkKey D) (DecodeRequest D)} (landed : queue.inFlight[request.key]? = none)
    (here : queued[request.key]? = some request)
    (others : ∀ key : PcmChunkKey D, request.key ≠ key → queued[key]? = none ∨ queued[key]? = queue.queued[key]?)
    (size : queued.size ≤ queue.policy.maxQueued.val) : Kept { queue with queued } := by
  refine ⟨fun key other held => ?_, fun key => ?_, size, kept.inFlightBound⟩
  · by_cases same : request.key = key
    · subst same
      change queued[request.key]? = some other at held
      rw [here] at held
      cases held
      rfl
    · rcases others key same with gone | old
      · exact absurd (held.symm.trans gone) (Option.some_ne_none other)
      · exact kept.named key other (old ▸ held)
  · by_cases same : request.key = key
    · exact .inr (same ▸ landed)
    · rcases others key same with gone | old
      · exact .inl gone
      · change queued[key]? = none ∨ _
        rw [old]
        exact kept.apart key

theorem submit_kept {queue : DecodeRequestQueue D} (kept : queue.Kept) (request : DecodeRequest D) : (queue.submit request).1.Kept := by
  have done := submit_spec kept request
  generalize queue.submit request = result at done
  cases done with
  | flying | repeated | refused => exact kept
  | upgraded existing landed held rises =>
    have member : queue.queued.contains request.key = true := by
      rw [contains_eq_isSome_getElem?, held]
      rfl
    refine kept.added landed ?_ (fun key other => ?_) ?_
    · rw [lookup_insert, if_pos rfl]
    · rw [lookup_insert, if_neg other]
      exact .inr rfl
    · rw [size_insert, if_pos member]
      exact kept.queuedBound
  | added landed absent room =>
    refine kept.added landed ?_ (fun key other => ?_) (size_insert_le.trans room)
    · rw [lookup_insert, if_pos rfl]
    · rw [lookup_insert, if_neg other]
      exact .inr rfl
  | replaced worst landed absent full found rises =>
    refine kept.added landed ?_ (fun key other => ?_) ?_
    · rw [lookup_replaced, if_pos rfl]
    · rw [lookup_replaced, if_neg other]
      split
      · exact .inl rfl
      · exact .inr rfl
    · rw [size_replaced kept found absent]
      exact kept.queuedBound

inductive Started (queue : DecodeRequestQueue D) : DecodeRequestQueue D × Option (DecodeRequest D) → Prop where
  | busy (full : queue.policy.maxInFlight.val ≤ queue.inFlight.size) : Started queue (queue, none)
  | idle (room : queue.inFlight.size < queue.policy.maxInFlight.val) (empty : ∀ key : PcmChunkKey D, queue.queued[key]? = none) :
    Started queue (queue, none)
  | started (next : DecodeRequest D) (room : queue.inFlight.size < queue.policy.maxInFlight.val) (held : queue.queued[next.key]? = some next)
    (least : ∀ (key : PcmChunkKey D) (request : DecodeRequest D), queue.queued[key]? = some request → next.orderingKey ≤ request.orderingKey) :
    Started queue ({ queue with queued := queue.queued.erase next.key, inFlight := queue.inFlight.insert next.key next }, some next)

theorem startNext_spec {queue : DecodeRequestQueue D} (kept : queue.Kept) : Started queue queue.startNext := by
  unfold startNext
  split
  · rename_i full
    exact .busy full
  · rename_i room
    split
    · rename_i next found
      obtain ⟨key, held⟩ := mem_values.mp (List.argmin_mem found)
      refine .started next (not_le.mp room) (by rwa [kept.named key next held]) fun other request queued => ?_
      exact List.le_of_mem_argmin (mem_values.mpr ⟨other, queued⟩) found
    · rename_i none
      refine .idle (not_le.mp room) fun key => ?_
      rw [List.argmin_eq_none] at none
      refine Option.eq_none_iff_forall_ne_some.mpr fun request held => ?_
      have inside := mem_values.mpr ⟨key, held⟩
      rw [none] at inside
      cases inside

theorem startNext_kept {queue : DecodeRequestQueue D} (kept : queue.Kept) : queue.startNext.1.Kept := by
  have done := startNext_spec kept
  generalize queue.startNext = result at done
  cases done with
  | busy | idle => exact kept
  | started next room held least =>
    refine ⟨fun key request queued => ?_, fun key => ?_, ?_, size_insert_le.trans room⟩
    · change (queue.queued.erase next.key)[key]? = some request at queued
      rw [lookup_erase] at queued
      split at queued
      · cases queued
      · exact kept.named key request queued
    · change (queue.queued.erase next.key)[key]? = none ∨ (queue.inFlight.insert next.key next)[key]? = none
      rw [lookup_erase, lookup_insert]
      split
      · exact .inl rfl
      · exact kept.apart key
    · exact size_erase_le.trans kept.queuedBound

theorem perform_kept {queue : DecodeRequestQueue D} (kept : queue.Kept) (action : Action D) : (queue.perform action).Kept := by
  cases action with
  | submit request => exact submit_kept kept request
  | startNext => exact startNext_kept kept
  | complete key =>
    refine kept.fewer rfl (fun _ => .inr rfl) (fun other => ?_) le_rfl size_erase_le
    change (queue.inFlight.erase key)[other]? = none ∨ (queue.inFlight.erase key)[other]? = queue.inFlight[other]?
    rw [lookup_erase]
    split
    · exact .inl rfl
    · exact .inr rfl
  | cancelBeforeEpoch minimumEpoch =>
    refine kept.fewer rfl (fun key => ?_) (fun _ => .inr rfl) size_filter_le_size le_rfl
    rw [perform, lookup_filter]
    cases queue.queued[key]? with
    | none => exact .inl rfl
    | some request =>
      rw [Option.filter_some]
      split
      · exact .inr rfl
      · exact .inl rfl

/-- The queue holds the best request of each chunk asked for, up to its bound: what is not queued found the queue
    full of chunks whose requests are all more urgent. -/
structure MostUrgent (queue : DecodeRequestQueue D) (requests : List (DecodeRequest D)) : Prop where
  best : ∀ (key : PcmChunkKey D) (held : DecodeRequest D), queue.queued[key]? = some held →
    held ∈ requests ∧ held.key = key ∧ ∀ other ∈ requests, other.key = key → held.orderingKey ≤ other.orderingKey
  bounded : queue.queued.size ≤ queue.policy.maxQueued.val
  others : ∀ other ∈ requests, queue.queued[other.key]? = none → queue.queued.size = queue.policy.maxQueued.val ∧
    ∀ (key : PcmChunkKey D) (held : DecodeRequest D), queue.queued[key]? = some held → held.orderingKey < other.orderingKey

theorem MostUrgent.concat {queue after : DecodeRequestQueue D}
    (urgent : queue.MostUrgent requests) (bounded : after.queued.size ≤ after.policy.maxQueued.val)
    (best : ∀ (key : PcmChunkKey D) (held : DecodeRequest D), after.queued[key]? = some held →
      (held = request ∧ request.key = key ∧ ∀ other ∈ requests, other.key = key → request.orderingKey ≤ other.orderingKey) ∨
      (queue.queued[key]? = some held ∧ (request.key = key → held.orderingKey ≤ request.orderingKey)))
    (others : ∀ other ∈ requests ++ [request], after.queued[other.key]? = none → after.queued.size = after.policy.maxQueued.val ∧
      ∀ (key : PcmChunkKey D) (held : DecodeRequest D), after.queued[key]? = some held → held.orderingKey < other.orderingKey) :
    after.MostUrgent (requests ++ [request]) := by
  refine ⟨fun key held queued => ?_, bounded, others⟩
  rcases best key held queued with ⟨rfl, named, least⟩ | ⟨old, least⟩
  · refine ⟨List.mem_append_right _ List.mem_cons_self, named, fun other member same => ?_⟩
    rcases List.mem_append.mp member with before | last
    · exact least other before same
    · rw [List.mem_singleton.mp last]
  · obtain ⟨inside, named, least'⟩ := urgent.best key held old
    refine ⟨List.mem_append_left _ inside, named, fun other member same => ?_⟩
    rcases List.mem_append.mp member with before | last
    · exact least' other before same
    · rw [List.mem_singleton] at last
      subst last
      exact least same

theorem submit_mostUrgent {queue : DecodeRequestQueue D} (kept : queue.Kept)
    (idle : queue.inFlight = ∅) (urgent : queue.MostUrgent requests) (request : DecodeRequest D) :
    (queue.submit request).1.MostUrgent (requests ++ [request]) := by
  have done := submit_spec kept request
  have bounded := (submit_kept kept request).queuedBound
  generalize queue.submit request = result at done bounded
  cases done with
  | flying started =>
    rw [idle, getElem?_empty] at started
    exact absurd rfl started
  | upgraded existing landed held rises =>
    have below := (urgent.best request.key existing held).2.2
    have contained : queue.queued.contains request.key = true := by
      rw [contains_eq_isSome_getElem?, held]
      rfl
    refine urgent.concat bounded (fun key other queued => ?_) (fun other member absent => ?_)
    · rcases held_insert.mp queued with ⟨same, rfl⟩ | ⟨distinct, queued⟩
      · exact .inl ⟨rfl, same, fun other inside named => rises.le.trans (below other inside (named.trans same.symm))⟩
      · exact .inr ⟨queued, fun same => absurd same distinct⟩
    · rw [lookup_insert] at absent
      split at absent
      · cases absent
      · rename_i distinct
        have inside : other ∈ requests := by
          rcases List.mem_append.mp member with before | last
          · exact before
          · exact absurd (congrArg DecodeRequest.key (List.mem_singleton.mp last)).symm distinct
        obtain ⟨full, more⟩ := urgent.others other inside absent
        refine ⟨?_, fun key next queued => ?_⟩
        · rw [size_insert, if_pos contained]
          exact full
        · rcases held_insert.mp queued with ⟨-, rfl⟩ | ⟨-, queued⟩
          · exact rises.trans (more request.key existing held)
          · exact more key next queued
  | repeated existing landed held remains =>
    refine urgent.concat bounded (fun key other queued => .inr ⟨queued, fun same => ?_⟩) (fun other member absent => ?_)
    · subst same
      cases held.symm.trans queued
      exact remains
    · rcases List.mem_append.mp member with before | last
      · exact urgent.others other before absent
      · rw [List.mem_singleton.mp last, held] at absent
        cases absent
  | added landed absent room =>
    have everything : ∀ other ∈ requests, queue.queued[other.key]? ≠ none :=
      fun other inside missing => absurd (urgent.others other inside missing).1 room.ne
    refine urgent.concat bounded (fun key other queued => ?_) (fun other member missing => ?_)
    · rcases held_insert.mp queued with ⟨same, rfl⟩ | ⟨distinct, queued⟩
      · refine .inl ⟨rfl, same, fun other inside named => ?_⟩
        rw [← same] at named
        exact absurd (named ▸ absent) (everything other inside)
      · exact .inr ⟨queued, fun same => absurd same distinct⟩
    · rw [lookup_insert] at missing
      split at missing
      · cases missing
      · rename_i distinct
        rcases List.mem_append.mp member with before | last
        · exact absurd missing (everything other before)
        · exact absurd (congrArg DecodeRequest.key (List.mem_singleton.mp last)).symm distinct
  | replaced worst landed absent full found rises =>
    obtain ⟨held, most⟩ := worst_spec kept found
    refine urgent.concat bounded (fun key other queued => ?_) (fun other member missing => ?_)
    · rw [lookup_replaced] at queued
      split at queued
      · rename_i same
        cases queued
        refine .inl ⟨rfl, same, fun other inside named => ?_⟩
        rw [← same] at named
        have more := (urgent.others other inside (named ▸ absent)).2 worst.key worst held
        exact (rises.trans more).le
      · rename_i distinct
        split at queued
        · cases queued
        · exact .inr ⟨queued, fun same => absurd same distinct⟩
    · refine ⟨?_, fun key next queued => ?_⟩
      · rw [size_replaced kept found absent]
        exact le_antisymm kept.queuedBound full
      · have above : worst.orderingKey ≤ other.orderingKey := by
          rw [lookup_replaced] at missing
          split at missing
          · cases missing
          · rename_i distinct
            have inside : other ∈ requests := by
              rcases List.mem_append.mp member with before | last
              · exact before
              · exact absurd (congrArg DecodeRequest.key (List.mem_singleton.mp last)).symm distinct
            split at missing
            · rename_i same
              exact (urgent.best worst.key worst held).2.2 other inside same.symm
            · exact ((urgent.others other inside missing).2 worst.key worst held).le
        rw [lookup_replaced] at queued
        split at queued
        · cases queued
          exact rises.trans_le above
        · split at queued
          · cases queued
          · rename_i apart
            have named := (urgent.best key next queued).2.1
            refine (lt_of_le_of_ne (most key next queued) fun same => apart ?_).trans_le above
            exact (DecodeRequest.orderingKey_inj same).symm.trans named
  | refused landed absent full more =>
    refine urgent.concat bounded (fun key other queued => .inr ⟨queued, fun same => more key other queued⟩) (fun other member missing => ?_)
    rcases List.mem_append.mp member with before | last
    · exact urgent.others other before missing
    · rw [List.mem_singleton] at last
      subst last
      refine ⟨le_antisymm kept.queuedBound full, fun key next queued => lt_of_le_of_ne (more key next queued) fun same => ?_⟩
      rw [← DecodeRequest.orderingKey_inj same, (urgent.best key next queued).2.1, queued] at absent
      cases absent

theorem submit_frame {queue : DecodeRequestQueue D} (kept : queue.Kept) (request : DecodeRequest D) :
    (queue.submit request).1.policy = queue.policy ∧ (queue.submit request).1.inFlight = queue.inFlight := by
  have done := submit_spec kept request
  generalize queue.submit request = result at done
  cases done <;> exact ⟨rfl, rfl⟩

theorem perform_policy {queue : DecodeRequestQueue D} (kept : queue.Kept) (action : Action D) : (queue.perform action).policy = queue.policy := by
  cases action with
  | submit request => exact (submit_frame kept request).1
  | startNext =>
    have done := startNext_spec kept
    change queue.startNext.1.policy = _
    generalize queue.startNext = result at done
    cases done <;> rfl
  | complete => rfl
  | cancelBeforeEpoch => rfl

theorem submitAll_mostUrgent {queue : DecodeRequestQueue D} (kept : queue.Kept) (queued : queue.queued = ∅) (idle : queue.inFlight = ∅)
    (requests : List (DecodeRequest D)) : (queue.submitAll requests).MostUrgent requests ∧ (queue.submitAll requests).policy = queue.policy := by
  suffices (queue.submitAll requests).Kept ∧ (queue.submitAll requests).inFlight = ∅ ∧ (queue.submitAll requests).policy = queue.policy ∧
      (queue.submitAll requests).MostUrgent requests from ⟨this.2.2.2, this.2.2.1⟩
  induction requests using List.reverseRecOn with
  | nil =>
    refine ⟨kept, idle, rfl, fun key held found => ?_, kept.queuedBound, fun other member => nomatch member⟩
    change queue.queued[key]? = some held at found
    rw [queued, getElem?_empty] at found
    cases found
  | append_singleton requests request before =>
    obtain ⟨kept', idle', policy, urgent⟩ := before
    have unfolded : queue.submitAll (requests ++ [request]) = ((queue.submitAll requests).submit request).1 :=
      List.foldl_concat _ _ _ _
    obtain ⟨samePolicy, sameFlights⟩ := submit_frame kept' request
    rw [unfolded]
    exact ⟨submit_kept kept' request, sameFlights.trans idle', samePolicy.trans policy, submit_mostUrgent kept' idle' urgent request⟩

theorem MostUrgent.holds {queue other : DecodeRequestQueue D} (urgent : queue.MostUrgent requests)
    (urgent' : other.MostUrgent requests') (same : ∀ request, request ∈ requests ↔ request ∈ requests') (policy : queue.policy = other.policy)
    (held : queue.queued[key]? ≠ none) : other.queued[key]? ≠ none := by
  intro absent
  obtain ⟨request, found⟩ := Option.ne_none_iff_exists'.mp held
  obtain ⟨asked, named, -⟩ := urgent.best key request found
  subst named
  obtain ⟨full, below⟩ := urgent'.others request ((same request).mp asked) absent
  have size : queue.queued.size ≤ other.queued.size := by
    rw [full, ← policy]
    exact urgent.bounded
  obtain ⟨key', held', absent'⟩ := exists_key_of_size_le size held absent
  obtain ⟨request', found'⟩ := Option.ne_none_iff_exists'.mp held'
  obtain ⟨asked', named', -⟩ := urgent'.best key' request' found'
  subst named'
  have above := (urgent.others request' ((same request').mpr asked') absent').2 request.key request found
  exact lt_asymm above (below request'.key request' found')

theorem MostUrgent.unique {queue other : DecodeRequestQueue D} (urgent : queue.MostUrgent requests)
    (urgent' : other.MostUrgent requests') (same : ∀ request, request ∈ requests ↔ request ∈ requests') (policy : queue.policy = other.policy)
    (key : PcmChunkKey D) : queue.queued[key]?.map DecodeRequest.orderingKey = other.queued[key]?.map DecodeRequest.orderingKey := by
  cases found : queue.queued[key]? with
  | none =>
    cases found' : other.queued[key]? with
    | none => rfl
    | some request =>
      have back := urgent'.holds urgent (fun request => (same request).symm) policy.symm (found' ▸ Option.some_ne_none request)
      exact absurd found back
  | some request =>
    obtain ⟨request', found'⟩ := Option.ne_none_iff_exists'.mp (urgent.holds urgent' same policy (found ▸ Option.some_ne_none request))
    obtain ⟨asked, named, least⟩ := urgent.best key request found
    obtain ⟨asked', named', least'⟩ := urgent'.best key request' found'
    rw [found', Option.map_some, Option.map_some]
    exact congrArg some (le_antisymm (least request' ((same request').mpr asked') named') (least' request ((same request).mp asked) named))

def Leaves (event : Event (DecodeRequestQueue D) (Action D)) (key : PcmChunkKey D) : Prop :=
  match event.action with
  | .submit request => (event.before.queued[key]? ≠ none ∨ request.key = key ∧ event.before.inFlight[key]? = none) ∧
    (event.before.perform event.action).queued[key]? = none
  | .startNext => event.before.queued[key]? ≠ none ∧ (event.before.perform event.action).queued[key]? = none
  | _ => False

/-- The chunk has been asked for under the epoch, and it has neither lost its place nor started since. -/
def Demanded (events : List (Event (DecodeRequestQueue D) (Action D))) (key : PcmChunkKey D) (epoch : U64) : Prop :=
  ∃ earlier submission between request, events = earlier ++ submission :: between ∧ submission.action = .submit request ∧
    request.key = key ∧ request.demandEpoch = epoch ∧ ∀ event ∈ submission :: between, ¬ Leaves event key

def KeepsDemanded (events : List (Event (DecodeRequestQueue D) (Action D))) : Prop :=
  ∀ earlier cancellation later minimumEpoch key epoch, events = earlier ++ cancellation :: later →
    cancellation.action = .cancelBeforeEpoch minimumEpoch → Demanded earlier key epoch → minimumEpoch ≤ epoch →
    cancellation.before.queued[key]? ≠ none → (cancellation.before.cancelBeforeEpoch minimumEpoch).1.queued[key]? ≠ none

/-- A submission that the queue takes is the latest demand of its chunk, and one that it has already at no less
    urgency is no later demand. -/
def Renews (earlier : List (Event (DecodeRequestQueue D) (Action D))) (event : Event (DecodeRequestQueue D) (Action D)) : Prop :=
  match event.action with
  | .submit request => event.before.inFlight[request.key]? = none →
    match event.before.queued[request.key]? with
    | some existing =>
      if request.orderingKey < existing.orderingKey then ∀ epoch, Demanded earlier request.key epoch → epoch ≤ request.demandEpoch
      else request.demandEpoch ≤ existing.demandEpoch
    | none => (event.before.queued.size < event.before.policy.maxQueued.val ∨
        ∃ (key : PcmChunkKey D) (other : DecodeRequest D), event.before.queued[key]? = some other ∧ request.orderingKey < other.orderingKey) →
      ∀ epoch, Demanded earlier request.key epoch → epoch ≤ request.demandEpoch
  | _ => True

theorem Demanded.concat {events : List (Event (DecodeRequestQueue D) (Action D))} {last : Event (DecodeRequestQueue D) (Action D)}
    {epoch : U64} (demanded : Demanded (events ++ [last]) key epoch) :
    ¬ Leaves last key ∧ (Demanded events key epoch ∨
      ∃ request, last.action = .submit request ∧ request.key = key ∧ request.demandEpoch = epoch) := by
  obtain ⟨earlier, submission, between, request, split, submitted, named, asked, stays⟩ := demanded
  rcases Run.split_last split with ⟨rfl, rfl, rfl⟩ | ⟨between', rfl, rfl⟩
  · exact ⟨stays _ List.mem_cons_self, .inr ⟨request, submitted, named, asked⟩⟩
  · refine ⟨stays _ (List.mem_cons_of_mem _ (List.mem_append_right _ List.mem_cons_self)), .inl ?_⟩
    refine ⟨earlier, submission, between', request, rfl, submitted, named, asked, fun event member => stays event ?_⟩
    rcases List.mem_cons.mp member with rfl | later
    · exact List.mem_cons_self
    · exact List.mem_cons_of_mem _ (List.mem_append_left _ later)

theorem not_demanded_nil (key : PcmChunkKey D) (epoch : U64) : ¬ Demanded [] key epoch := by
  rintro ⟨earlier, submission, between, request, split, -⟩
  exact List.append_ne_nil_of_right_ne_nil earlier (List.cons_ne_nil submission between) split.symm

theorem demanded_submit (events : List (Event (DecodeRequestQueue D) (Action D))) (queue : DecodeRequestQueue D) (request : DecodeRequest D)
    (queued : (queue.submit request).1.queued[request.key]? ≠ none) :
    Demanded (events ++ [⟨queue, .submit request⟩]) request.key request.demandEpoch := by
  refine ⟨events, _, [], request, rfl, rfl, rfl, rfl, fun event member => ?_⟩
  rw [List.mem_singleton] at member
  subst member
  exact fun leaves => queued leaves.2

def Current (events : List (Event (DecodeRequestQueue D) (Action D))) (queue : DecodeRequestQueue D) : Prop :=
  ∀ (key : PcmChunkKey D) (held : DecodeRequest D), queue.queued[key]? = some held → ∀ epoch, Demanded events key epoch → epoch ≤ held.demandEpoch

theorem queued_after {queue : DecodeRequestQueue D} (kept : queue.Kept) (action : Action D) {held : DecodeRequest D}
    (found : (queue.perform action).queued[key]? = some held) :
    queue.queued[key]? = some held ∨ action = .submit held ∧ held.key = key := by
  cases action with
  | submit request =>
    have done := submit_spec kept request
    change (queue.submit request).1.queued[key]? = some held at found
    generalize queue.submit request = result at done found
    cases done with
    | flying | repeated | refused => exact .inl found
    | upgraded | added =>
      rcases held_insert.mp found with ⟨same, rfl⟩ | ⟨-, found⟩
      · exact .inr ⟨rfl, same⟩
      · exact .inl found
    | replaced =>
      rw [lookup_replaced] at found
      split at found
      · rename_i same
        cases found
        exact .inr ⟨rfl, same⟩
      · split at found
        · cases found
        · exact .inl found
  | startNext =>
    have done := startNext_spec kept
    change queue.startNext.1.queued[key]? = some held at found
    generalize queue.startNext = result at done found
    cases done with
    | busy | idle => exact .inl found
    | started =>
      rw [lookup_erase] at found
      split at found
      · cases found
      · exact .inl found
  | complete => exact .inl found
  | cancelBeforeEpoch minimumEpoch =>
    rw [perform, lookup_filter, Option.filter_eq_some_iff] at found
    exact .inl found.1

theorem submit_current {events : List (Event (DecodeRequestQueue D) (Action D))} {queue : DecodeRequestQueue D} (kept : queue.Kept)
    (current : Current events queue) (renews : Renews events ⟨queue, .submit request⟩) :
    Current (events ++ [⟨queue, .submit request⟩]) (queue.submit request).1 := by
  intro key held found epoch demanded
  have done := submit_spec kept request
  have asked : Demanded events key epoch ∨ request.key = key ∧ request.demandEpoch = epoch := by
    obtain ⟨-, before | ⟨other, submitted, named, same⟩⟩ := demanded.concat
    · exact .inl before
    · cases submitted
      exact .inr ⟨named, same⟩
  -- the submitted request is in the queue, with an epoch no earlier than the others of its chunk
  have taken (latest : ∀ epoch, Demanded events request.key epoch → epoch ≤ request.demandEpoch) (named : request.key = key)
      (same : held = request) : epoch ≤ held.demandEpoch := by
    subst named
    subst same
    rcases asked with before | ⟨-, own⟩
    · exact latest epoch before
    · exact own.ge
  -- the queue holds what it held, and the submission was for another chunk or is no later
  have old (found : queue.queued[key]? = some held) (own : request.key = key → request.demandEpoch ≤ held.demandEpoch) :
      epoch ≤ held.demandEpoch := by
    rcases asked with before | ⟨named, same⟩
    · exact current key held found epoch before
    · exact same.ge.trans (own named)
  generalize queue.submit request = result at done found
  cases done with
  | flying started =>
    refine old found fun named => ?_
    rcases kept.apart key with absent | landed
    · exact absurd (found.symm.trans absent) (Option.some_ne_none held)
    · exact absurd (named ▸ landed) started
  | upgraded existing landed present rises =>
    rw [lookup_insert] at found
    have latest := renews landed
    simp only [present, if_pos rises] at latest
    split at found
    · rename_i named
      exact taken latest named (Option.some.inj found).symm
    · rename_i distinct
      exact old found fun named => absurd named distinct
  | repeated existing landed present remains =>
    have latest := renews landed
    simp only [present, if_neg (not_lt.mpr remains)] at latest
    refine old found fun named => ?_
    subst named
    cases present.symm.trans found
    exact latest
  | added landed absent room =>
    have latest := renews landed
    simp only [absent] at latest
    rw [lookup_insert] at found
    split at found
    · rename_i named
      exact taken (latest (.inl room)) named (Option.some.inj found).symm
    · rename_i distinct
      exact old found fun named => absurd named distinct
  | replaced worst landed absent full chosen rises =>
    have latest := renews landed
    simp only [absent] at latest
    rw [lookup_replaced] at found
    split at found
    · rename_i named
      exact taken (latest (.inr ⟨worst.key, worst, (worst_spec kept chosen).1, rises⟩)) named (Option.some.inj found).symm
    · rename_i distinct
      split at found
      · cases found
      · exact old found fun named => absurd named distinct
  | refused landed absent full more =>
    refine old found fun named => ?_
    rw [← named, absent] at found
    cases found

theorem perform_current {events : List (Event (DecodeRequestQueue D) (Action D))} {queue : DecodeRequestQueue D} (kept : queue.Kept)
    (current : Current events queue) {action : Action D} (renews : Renews events ⟨queue, action⟩) :
    Current (events ++ [⟨queue, action⟩]) (queue.perform action) := by
  have other (unsubmitted : ∀ request, action ≠ .submit request) : Current (events ++ [⟨queue, action⟩]) (queue.perform action) := by
    intro key held found epoch demanded
    rcases queued_after kept action found with before | ⟨submitted, -⟩
    · obtain ⟨-, asked | ⟨request, submitted, -⟩⟩ := demanded.concat
      · exact current key held before epoch asked
      · exact absurd submitted (unsubmitted request)
    · exact absurd submitted (unsubmitted held)
  cases action with
  | submit request => exact submit_current kept current renews
  | startNext => exact other fun _ => nofun
  | complete => exact other fun _ => nofun
  | cancelBeforeEpoch => exact other fun _ => nofun

variable {policy : PrefetchPolicy} {initial queue : DecodeRequestQueue D} {events : List (Event (DecodeRequestQueue D) (Action D))}

section

variable (made : new policy = .ok initial) (run : Run perform (· = initial) events queue)
include made run

theorem run_kept : queue.Kept ∧ queue.policy = policy := by
  induction run with
  | start same =>
    subst same
    obtain ⟨same, kept, -⟩ := new_kept made
    exact ⟨kept, same⟩
  | step run action before => exact ⟨perform_kept before.1 action, (perform_policy before.1 action).trans before.2⟩

theorem run_current
    (renews : Run.Allowed Renews events) : queue.Kept ∧ Current events queue := by
  refine run.history (fun events queue => queue.Kept ∧ Current events queue) ?_ ?_ renews
  · rintro queue rfl
    obtain ⟨-, kept, -, queued, -⟩ := new_kept made
    refine ⟨kept, fun key held found => ?_⟩
    rw [queued, getElem?_empty] at found
    cases found
  · rintro events queue action ⟨kept, current⟩ renews
    exact ⟨perform_kept kept action, perform_current kept current renews⟩

theorem run_keepsDemanded
    (renews : Run.Allowed Renews events) : KeepsDemanded events := by
  rintro earlier cancellation later minimumEpoch key epoch split action demanded reaches held
  obtain ⟨request, found⟩ := Option.ne_none_iff_exists'.mp held
  have before : Run.Allowed Renews earlier := (split ▸ renews : Run.Allowed Renews (earlier ++ cancellation :: later)).init
  have current := (run_current made (run.upto split) before).2 key request found epoch demanded
  rw [lookup_filter, found, Option.filter_some, if_pos (by simpa using reaches.trans current)]
  exact Option.some_ne_none request

end

/-- Over every run the queue keeps each chunk in one place, within the bounds of its policy, and starts the least
    queued request; submissions alone, in whatever order, leave the most urgent of the best requests of each chunk; and
    while every submission that takes or holds a place in the queue is the latest demand of its chunk, no cancellation
    drops a chunk that is still demanded. -/
theorem queue_keeps_valuable (made : new policy = .ok initial) (run : Run perform (· = initial) events queue) :
    ((∀ key : PcmChunkKey D, queue.queued[key]? = none ∨ queue.inFlight[key]? = none) ∧
      queue.queued.size ≤ policy.maxQueued.val ∧ queue.inFlight.size ≤ policy.maxInFlight.val) ∧
    (∀ next, queue.startNext.2 = some next → queue.queued[next.key]? = some next ∧
      ∀ (key : PcmChunkKey D) (request : DecodeRequest D), queue.queued[key]? = some request → next.orderingKey ≤ request.orderingKey) ∧
    (queue.startNext.2 = none → policy.maxInFlight.val ≤ queue.inFlight.size ∨ ∀ key : PcmChunkKey D, queue.queued[key]? = none) ∧
    (∀ requests, (initial.submitAll requests).MostUrgent requests ∧
      ∀ others, requests.Perm others → ∀ key : PcmChunkKey D, (initial.submitAll requests).queued[key]?.map DecodeRequest.orderingKey =
        (initial.submitAll others).queued[key]?.map DecodeRequest.orderingKey) ∧
    (Run.Allowed Renews events → KeepsDemanded events) := by
  obtain ⟨kept, same⟩ := run_kept made run
  obtain ⟨-, kept', -, queued, idle⟩ := new_kept made
  have started := startNext_spec kept
  refine ⟨⟨kept.apart, same ▸ kept.queuedBound, same ▸ kept.inFlightBound⟩, ?_, ?_, fun requests => ?_, run_keepsDemanded made run⟩
  · intro next found
    generalize queue.startNext = result at started found
    cases started with
    | busy | idle => cases found
    | started next' room held least =>
      cases found
      exact ⟨held, least⟩
  · intro none
    generalize queue.startNext = result at started none
    cases started with
    | busy full => exact .inl (same ▸ full)
    | idle room empty => exact .inr empty
    | started => cases none
  · obtain ⟨urgent, policy⟩ := submitAll_mostUrgent kept' queued idle requests
    refine ⟨urgent, fun others perm => ?_⟩
    obtain ⟨urgent', policy'⟩ := submitAll_mostUrgent kept' queued idle others
    exact urgent.unique urgent' (fun request => perm.mem_iff) (policy.trans policy'.symm)

def chunkRequest (index : U64) (priority : RequestPriority) (demandEpoch : U64) : DecodeRequest Nat :=
  ⟨⟨⟨1⟩, ⟨48000, 2, 4⟩, index⟩, priority, 0, demandEpoch⟩

def emptyQueue : DecodeRequestQueue Nat := ⟨⟨2, 1⟩, ∅, ∅⟩

theorem emptyQueue_new : new ⟨2, 1⟩ = .ok emptyQueue := rfl

/-- A chunk asked for again at the same urgency keeps its old epoch. -/
def renewal : List (Action Nat) := [.submit (chunkRequest 0 .visible 1), .submit (chunkRequest 0 .visible 2), .cancelBeforeEpoch 2]

theorem renewed_chunk_dropped : Run perform (· = emptyQueue) (trace perform emptyQueue renewal) (renewal.foldl perform emptyQueue) ∧
    ¬ KeepsDemanded (trace perform emptyQueue renewal) := by
  refine ⟨@Run.tracing _ _ _ (· = emptyQueue) _ rfl renewal, fun keeps => ?_⟩
  have demanded := demanded_submit [⟨emptyQueue, .submit (chunkRequest 0 .visible 1)⟩]
    (perform emptyQueue (.submit (chunkRequest 0 .visible 1))) (chunkRequest 0 .visible 2) (by decide +kernel)
  have dropped : ((renewal.foldl perform emptyQueue).queued[(chunkRequest 0 .visible 2).key]?) = none := by decide +kernel
  exact keeps [_, _] _ [] 2 _ 2 rfl rfl demanded le_rfl (by decide +kernel) dropped

/-- A chunk asked for more urgently and later. -/
def upgrade : List (Action Nat) := [.submit (chunkRequest 0 .background 1), .submit (chunkRequest 0 .playback 2), .cancelBeforeEpoch 2]

theorem upgrade_renews : Run.Allowed Renews (trace perform emptyQueue upgrade) := by
  have first : Renews [] ⟨emptyQueue, .submit (chunkRequest 0 .background 1)⟩ :=
    fun _ _ epoch demanded => absurd demanded (not_demanded_nil _ epoch)
  have second : Renews [⟨emptyQueue, .submit (chunkRequest 0 .background 1)⟩]
      ⟨perform emptyQueue (.submit (chunkRequest 0 .background 1)), .submit (chunkRequest 0 .playback 2)⟩ := by
    intro landed
    have present : (perform emptyQueue (.submit (chunkRequest 0 .background 1))).queued[(chunkRequest 0 .playback 2).key]? =
      some (chunkRequest 0 .background 1) := rfl
    have rises : (chunkRequest 0 .playback 2).orderingKey < (chunkRequest 0 .background 1).orderingKey := by decide +kernel
    rw [present]
    dsimp only
    rw [if_pos rises]
    intro epoch demanded
    change Demanded ([] ++ [_]) _ epoch at demanded
    obtain ⟨-, before | ⟨request, submitted, -, rfl⟩⟩ := demanded.concat
    · exact absurd before (not_demanded_nil _ epoch)
    · cases submitted
      decide
  exact ((Run.Allowed.nil.concat first).concat second).concat trivial

/-- After an upgrade under the later epoch, a cancellation keeps the chunk. -/
theorem upgraded_chunk_kept : (upgrade.foldl perform emptyQueue).queued[(chunkRequest 0 .playback 2).key]? ≠ none := by
  have kept := (queue_keeps_valuable emptyQueue_new (@Run.tracing _ _ _ (· = emptyQueue) _ rfl upgrade)).2.2.2.2 upgrade_renews
  have demanded := demanded_submit [⟨emptyQueue, .submit (chunkRequest 0 .background 1)⟩]
    (perform emptyQueue (.submit (chunkRequest 0 .background 1))) (chunkRequest 0 .playback 2) (by decide +kernel)
  exact kept [_, _] _ [] 2 _ 2 rfl rfl demanded le_rfl (by decide +kernel)

end DecodeRequestQueue

end Audec.Media

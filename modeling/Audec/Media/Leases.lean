import Audec.Media.Store

/-! The media store over whole runs: leased audio stays, the books balance, and what leaves is what was
    touched longest ago. -/

open Std (ExtTreeMap)
open Machine Checked Runs Weights Entries List

namespace Audec.Media.BoundedMediaStore

open PinnedLru Option

variable {D : Type} [LinearOrder D]

/-- The resident keys that a call marks as most recently used, in turn. -/
def memoryTouches (store : BoundedMediaStore D) : Action D → List (PcmChunkKey D)
  | .publishResident chunk => if (store.publishResident chunk).2.toBool then [chunk.key] else []
  | .acquire key => if key ∈ store.residents then [key] else []
  | .readSlice slice relativeStart frameCount => (store.reads slice relativeStart frameCount).1
  | _ => []

def diskTouches (store : BoundedMediaStore D) : Action D → List (PcmChunkKey D)
  | .publishDiskRecord record => if (store.publishDiskRecord record).2.toBool then [record.key] else []
  | .touchDisk key => [key]
  | _ => []

def Action.publishedChunk : Action D → Option (PcmChunkKey D)
  | .publishResident chunk => some chunk.key
  | _ => none

def Action.publishedRecord : Action D → Option (PcmChunkKey D)
  | .publishDiskRecord record => some record.key
  | _ => none

def EvictsOldest (store : BoundedMediaStore D) (log : List (PcmChunkKey D)) (published : Option (PcmChunkKey D))
    (before after : PcmChunkKey D → Prop) : Prop :=
  ∀ key, before key → ¬after key → ¬store.Leased key ∧
    ∀ other, before other → after other → ¬store.Leased other → published ≠ some other → LessRecent log key other

variable {log : List (PcmChunkKey D)} {lru : PinnedLru (PcmChunkKey D)}

variable {published : Option (PcmChunkKey D)} {key : PcmChunkKey D} {budget : U64} {action : Action D}
  {chunk : PcmChunk D} {record : DiskChunkRecord D} {error : StreamingMediaError}

theorem evictsOldest_of_kept {store : BoundedMediaStore D}
    {before after : PcmChunkKey D → Prop} (kept : ∀ key, before key → after key) : EvictsOldest store log published before after :=
  fun key held gone => absurd (kept key held) gone

theorem EvictsOldest.congr {store : BoundedMediaStore D}
    {before before' after after' : PcmChunkKey D → Prop} (evicts : EvictsOldest store log published before after)
    (same : ∀ key, before key ↔ before' key) (same' : ∀ key, after key ↔ after' key) : EvictsOldest store log published before' after' := by
  obtain rfl : before = before' := funext fun key => propext (same key)
  obtain rfl : after = after' := funext fun key => propext (same' key)
  exact evicts

def Fits (store : BoundedMediaStore D) : Action D → Prop
  | .publishResident chunk => chunk.residentBytes ≤ store.memory.budgetBytes →
    store.memory.required chunk.key chunk.residentBytes < 0x10000000000000000
  | .publishDiskRecord record => record.encodedBytes ≤ store.diskTier.budgetBytes →
    store.diskTier.required record.key record.encodedBytes < 0x10000000000000000
  | .acquire key => store.pinCount key ≠ 0xffffffff
  | _ => True

instance (store : BoundedMediaStore D) : (action : Action D) → Decidable (store.Fits action)
  | .publishResident _ => inferInstanceAs (Decidable (_ → _))
  | .publishDiskRecord _ => inferInstanceAs (Decidable (_ → _))
  | .acquire _ => inferInstanceAs (Decidable (_ ≠ _))
  | .release _ | .touchDisk _ | .readSlice _ _ _ => inferInstanceAs (Decidable True)

structure Careful (store : BoundedMediaStore D) (action : Action D) : Prop where
  fits : store.Fits action
  memoryClock : store.memory.clock.val + (store.memoryTouches action).length < 0x10000000000000000
  diskClock : store.diskTier.clock.val + (store.diskTouches action).length < 0x10000000000000000

variable {budgets : CacheBudgets} {store : BoundedMediaStore D} {memoryLog diskLog : List (PcmChunkKey D)}

theorem admitted_evictsOldest (kept : Kept budgets store memoryLog diskLog) {after : PinnedLru (PcmChunkKey D)}
    (stamped : lru.Stamped log) {bytes : U64} {evicted : List (PcmChunkKey D)}
    (admitted : Admitted lru key bytes store.isPinned after evicted) :
    EvictsOldest store log (some key) (· ∈ lru.entries) (· ∈ after.entries) := by
  intro leaving held gone
  have left : leaving ≠ key ∧ leaving ∈ evicted := by
    change leaving ∉ after.entries at gone
    rw [ExtTreeMap.mem_iff_isSome_getElem?, admitted.lookup] at gone
    rw [ExtTreeMap.mem_iff_isSome_getElem?] at held
    split at gone
    · simp at gone
    · rename_i distinct
      split at gone
      · rename_i member
        exact ⟨Ne.symm distinct, member⟩
      · exact absurd held gone
  obtain ⟨-, unretained, -⟩ := admitted.unretained leaving left.2
  refine ⟨fun leased => ?_, fun staying before stays free published => ?_⟩
  · rw [(kept.isPinned_iff leaving).mpr leased] at unretained
    cases unretained
  · have apart : staying ≠ key := fun same => published (congrArg some same.symm)
    have remains : staying ∉ evicted := by
      intro member
      change staying ∈ after.entries at stays
      rw [ExtTreeMap.mem_iff_isSome_getElem?, admitted.lookup, if_neg (Ne.symm apart), if_pos member] at stays
      cases stays
    obtain ⟨entry, found⟩ := held_of_mem held
    obtain ⟨entry', found'⟩ := held_of_mem before
    exact stamped.lessRecent found found' (fun same => remains (same ▸ left.2))
      (admitted.oldest leaving left.2 staying remains apart (kept.unpinned free) _ _ found found')

theorem residents_mem
    (accounts : lru.Accounts budget store.residentSize log) (key : PcmChunkKey D) : key ∈ lru.entries ↔ key ∈ store.residents := by
  rw [accounts.mem_iff, residentSize, isSome_map, ExtTreeMap.mem_iff_isSome_getElem?]

theorem disk_mem
    (accounts : lru.Accounts budget store.diskSize log) (key : PcmChunkKey D) : key ∈ lru.entries ↔ key ∈ store.disk := by
  rw [accounts.mem_iff, diskSize, isSome_map, ExtTreeMap.mem_iff_isSome_getElem?]

/-- What a call keeps and what it lets go. -/
structure Sound (budgets : CacheBudgets) (store : BoundedMediaStore D) (memoryLog diskLog : List (PcmChunkKey D)) (action : Action D) : Prop where
  kept : Kept budgets (store.perform action) ((store.memoryTouches action).reverse ++ memoryLog) ((store.diskTouches action).reverse ++ diskLog)
  memoryEvictions : EvictsOldest store memoryLog action.publishedChunk (· ∈ store.residents) (· ∈ (store.perform action).residents)
  diskEvictions : EvictsOldest store diskLog action.publishedRecord (· ∈ store.disk) (· ∈ (store.perform action).disk)

section

variable (kept : Kept budgets store memoryLog diskLog)
include kept

theorem sound_of_unchanged (unchanged : store.perform action = store)
    (memory : store.memoryTouches action = []) (disk : store.diskTouches action = []) : Sound budgets store memoryLog diskLog action := by
  constructor
  · rw [unchanged, memory, disk]
    exact kept
  · rw [unchanged]
    exact evictsOldest_of_kept fun _ held => held
  · rw [unchanged]
    exact evictsOldest_of_kept fun _ held => held

theorem publishResident_sound (careful : Careful store (.publishResident chunk)) :
    Sound budgets store memoryLog diskLog (.publishResident chunk) := by
  cases admission : store.memory.admission chunk.key chunk.residentBytes store.isPinned with
  | error refusal =>
    have refused : store.publishResident chunk = (store, .error (refusal.intoTierError .memory)) := by rw [publishResident, admission]
    exact sound_of_unchanged kept (by rw [perform, refused]) (by rw [memoryTouches, refused]; rfl) rfl
  | ok result =>
    obtain ⟨memory, evicted⟩ := result
    have published : store.publishResident chunk = ({ store with
        memory
        residents := (evicted.foldl (fun residents key => residents.erase key) store.residents).insert chunk.key chunk }, .ok ()) := by
      rw [publishResident, admission]
    have touches : store.memoryTouches (.publishResident chunk) = [chunk.key] := by rw [memoryTouches, published]; rfl
    have room := careful.memoryClock
    rw [touches] at room
    have admitted := admission_ok kept.memory.balanced (careful.fits (admission_le admission)) admission
    have accounts := kept.memory.admitted admitted room
    have evicts := admitted_evictsOldest kept kept.memory.stamped admitted
    have sizes : (store.perform (.publishResident chunk)).residentSize = fun other =>
        if chunk.key = other then some chunk.residentBytes else if other ∈ evicted then none else store.residentSize other := by
      funext other
      rw [perform, published, residentSize, lookup_insert, lookup_foldl_erase, residentSize]
      split
      · rfl
      · split <;> rfl
    have after : (store.perform (.publishResident chunk)).memory = memory := by rw [perform, published]
    rw [← sizes, ← after] at accounts
    refine ⟨⟨?_, ?_, ?_, ?_⟩, ?_, ?_⟩
    · rw [touches]
      exact accounts
    · rw [perform, published]
      exact kept.disk
    · rw [perform, published]
      exact kept.pins
    · rw [perform, published]
      exact kept.numbered
    · rw [← after] at evicts
      exact evicts.congr (residents_mem kept.memory) (residents_mem accounts)
    · rw [perform, published]
      exact evictsOldest_of_kept fun _ held => held

theorem publishDiskRecord_sound
    (careful : Careful store (.publishDiskRecord record)) : Sound budgets store memoryLog diskLog (.publishDiskRecord record) := by
  by_cases empty : record.encodedBytes = 0
  · have refused : store.publishDiskRecord record = (store, .error .emptyDiskRecord) := by rw [publishDiskRecord, if_pos empty]
    exact sound_of_unchanged kept (by rw [perform, refused]) rfl (by rw [diskTouches, refused]; rfl)
  cases admission : store.diskTier.admission record.key record.encodedBytes store.isPinned with
  | error refusal =>
    have refused : store.publishDiskRecord record = (store, .error (refusal.intoTierError .disk)) := by
      rw [publishDiskRecord, if_neg empty, admission]
    exact sound_of_unchanged kept (by rw [perform, refused]) rfl (by rw [diskTouches, refused]; rfl)
  | ok result =>
    obtain ⟨diskTier, evicted⟩ := result
    have published : store.publishDiskRecord record = ({ store with
        diskTier
        disk := (evicted.foldl (fun disk key => disk.erase key) store.disk).insert record.key record }, .ok ()) := by
      rw [publishDiskRecord, if_neg empty, admission]
    have touches : store.diskTouches (.publishDiskRecord record) = [record.key] := by rw [diskTouches, published]; rfl
    have room := careful.diskClock
    rw [touches] at room
    have admitted := admission_ok kept.disk.balanced (careful.fits (admission_le admission)) admission
    have accounts := kept.disk.admitted admitted room
    have evicts := admitted_evictsOldest kept kept.disk.stamped admitted
    have sizes : (store.perform (.publishDiskRecord record)).diskSize = fun other =>
        if record.key = other then some record.encodedBytes else if other ∈ evicted then none else store.diskSize other := by
      funext other
      rw [perform, published, diskSize, lookup_insert, lookup_foldl_erase, diskSize]
      split
      · rfl
      · split <;> rfl
    have after : (store.perform (.publishDiskRecord record)).diskTier = diskTier := by rw [perform, published]
    rw [← sizes, ← after] at accounts
    refine ⟨⟨?_, ?_, ?_, ?_⟩, ?_, ?_⟩
    · rw [perform, published]
      exact kept.memory
    · rw [touches]
      exact accounts
    · rw [perform, published]
      exact kept.pins
    · rw [perform, published]
      exact kept.numbered
    · rw [perform, published]
      exact evictsOldest_of_kept fun _ held => held
    · rw [← after] at evicts
      exact evicts.congr (disk_mem kept.disk) (disk_mem accounts)

theorem sound_of_touches {keys keys' : List (PcmChunkKey D)}
    (performed : store.perform action = { store with
      memory := keys.foldl (fun memory key => (memory.touch key).1) store.memory
      diskTier := keys'.foldl (fun diskTier key => (diskTier.touch key).1) store.diskTier })
    (memory : store.memoryTouches action = keys) (disk : store.diskTouches action = keys') (careful : Careful store action) :
    Sound budgets store memoryLog diskLog action := by
  have room := careful.memoryClock
  have room' := careful.diskClock
  rw [memory] at room
  rw [disk] at room'
  constructor
  · rw [performed, memory, disk]
    exact ⟨kept.memory.touched room, kept.disk.touched room', kept.pins, kept.numbered⟩
  · rw [performed]
    exact evictsOldest_of_kept fun _ held => held
  · rw [performed]
    exact evictsOldest_of_kept fun _ held => held

theorem Kept.unnumbered : store.leases[store.nextLease]? = none := by
  cases held : store.leases[store.nextLease]? with
  | none => rfl
  | some key => exact absurd (kept.numbered _ _ held) (lt_irrefl _)

theorem acquire_sound (careful : Careful store (.acquire key)) :
    Sound budgets store memoryLog diskLog (.acquire key) := by
  cases held : store.residents[key]? with
  | none =>
    have refused : store.acquire key = (store, .error .chunkUnavailable) := by rw [acquire, held]
    have absent : key ∉ store.residents := by
      rw [ExtTreeMap.mem_iff_isSome_getElem?, held]
      simp
    exact sound_of_unchanged kept (by rw [perform, refused]) (by rw [memoryTouches, if_neg absent]) rfl
  | some chunk =>
    have present : key ∈ store.residents := by
      exact mem_of_held held
    have touches : store.memoryTouches (.acquire key) = [key] := by rw [memoryTouches, if_pos present]
    cases next : checkedSucc store.nextLease with
    | none =>
      have full : store.acquire key = ({ store with memory := (store.memory.touch key).1 }, .error .arithmeticOverflow) := by
        rw [acquire, held, next]
      have performed : store.perform (.acquire key) = { store with
          memory := [key].foldl (fun memory key => (memory.touch key).1) store.memory
          diskTier := [].foldl (fun diskTier key => (diskTier.touch key).1) store.diskTier } := by
        rw [perform, full]
        rfl
      exact sound_of_touches kept performed touches rfl careful
    | some nextLease =>
      have leased : store.acquire key = ({ store with
          memory := (store.memory.touch key).1
          nextLease
          leases := store.leases.insert store.nextLease key
          pinCounts := store.pinCounts.insert key (store.pinCount key + 1) }, .ok ⟨store.nextLease, key, chunk⟩) := by
        rw [acquire, held, next]
      have room := careful.memoryClock
      rw [touches] at room
      have later := checkedSucc_eq_some.mp next
      refine ⟨⟨?_, ?_, fun other => ?_, fun lease other found => ?_⟩, ?_, ?_⟩
      · rw [touches, perform, leased]
        exact kept.memory.touched room
      · rw [perform, leased]
        exact kept.disk
      · have count : (store.leases.insert store.nextLease key)[store.nextLease]? = some key := ExtTreeMap.getElem?_insert_self
        rw [perform, leased]
        change ((store.pinCounts.insert key (store.pinCount key + 1))[other]?.getD 0).val = Entries.count _ (store.leases.insert store.nextLease key)
        rw [lookup_insert, count_insert_new _ _ kept.unnumbered]
        have pinned := kept.pins other
        rw [leaseCount] at pinned
        split
        · rename_i same
          subst same
          have room : (store.pinCount key).val ≠ 0xffffffff := fun full => careful.fits (Fin.ext full)
          have small := (store.pinCount key).isLt
          rw [getD_some, Fin.val_add_one_of_lt' (by omega), pinned, if_pos (decide_eq_true rfl)]
        · rename_i distinct
          rw [if_neg (by simpa using distinct), Nat.add_zero, ← pinned]
          rfl
      · rw [perform, leased] at found ⊢
        change (store.leases.insert store.nextLease key)[lease]? = some other at found
        change lease < nextLease
        rw [lookup_insert] at found
        rw [Fin.lt_def, later]
        split at found
        · rename_i same
          rw [← same]
          exact Nat.lt_succ_self _
        · exact Nat.lt_succ_of_lt (kept.numbered lease other found)
      · rw [perform, leased]
        exact evictsOldest_of_kept fun _ held => held
      · rw [perform, leased]
        exact evictsOldest_of_kept fun _ held => held

theorem release_sound (lease : U64) : Sound budgets store memoryLog diskLog (.release lease) := by
  cases held : store.leases[lease]? with
  | none =>
    have refused : store.release lease = (store, .error (.error (.unknownLease lease))) := by rw [release, held]
    exact sound_of_unchanged kept (by rw [perform, refused]) rfl rfl
  | some key =>
    have pinned := kept.pins key
    have one := count_held (fun _ leased => decide (leased = key)) held
    rw [if_pos (decide_eq_true rfl)] at one
    rw [leaseCount, one, pinCount] at pinned
    cases found : store.pinCounts[key]? with
    | none =>
      rw [found, getD_none, Fin.val_zero] at pinned
      cases pinned
    | some count =>
      rw [found, getD_some] at pinned
      have fewer : (count - 1).val = Entries.count (fun _ leased => decide (leased = key)) (store.leases.erase lease) := by
        have le : (1 : U32) ≤ count := Fin.le_def.mpr (by rw [pinned]; exact Nat.succ_le_succ (Nat.zero_le _))
        rw [Fin.sub_val_of_le le, pinned]
        exact Nat.add_sub_cancel _ 1
      obtain ⟨pinCounts, released, counted⟩ : ∃ pinCounts, store.perform (.release lease) = { store with
          leases := store.leases.erase lease
          pinCounts } ∧ ∀ other, pinCounts[other]?.getD 0 = if key = other then count - 1 else store.pinCount other := by
        by_cases last : count - 1 = 0
        · refine ⟨store.pinCounts.erase key, by simp only [perform, release, held, found, if_pos last], fun other => ?_⟩
          rw [lookup_erase]
          split
          · rw [last, getD_none]
          · rfl
        · refine ⟨store.pinCounts.insert key (count - 1), by simp only [perform, release, held, found, if_neg last], fun other => ?_⟩
          rw [lookup_insert]
          split
          · rw [getD_some]
          · rfl
      refine ⟨⟨?_, ?_, fun other => ?_, fun other leased found => ?_⟩, ?_, ?_⟩
      · rw [released]
        exact kept.memory
      · rw [released]
        exact kept.disk
      · rw [released]
        change (pinCounts[other]?.getD 0).val = Entries.count _ (store.leases.erase lease)
        rw [counted]
        split
        · rename_i same
          rw [← same, fewer]
        · rename_i distinct
          have others := count_held (fun _ leased => decide (leased = other)) held
          rw [if_neg (by simpa using distinct)] at others
          rw [kept.pins other, leaseCount, others, Nat.add_zero]
      · rw [released] at found ⊢
        change (store.leases.erase lease)[other]? = some leased at found
        rw [lookup_erase] at found
        split at found
        · cases found
        · exact kept.numbered other leased found
      · rw [released]
        exact evictsOldest_of_kept fun _ held => held
      · rw [released]
        exact evictsOldest_of_kept fun _ held => held

theorem perform_sound (action : Action D) (careful : Careful store action) :
    Sound budgets store memoryLog diskLog action := by
  cases action with
  | publishResident chunk => exact publishResident_sound kept careful
  | publishDiskRecord record => exact publishDiskRecord_sound kept careful
  | acquire key => exact acquire_sound kept careful
  | release lease => exact release_sound kept lease
  | touchDisk key =>
    have performed : store.perform (.touchDisk key) = { store with
        memory := [].foldl (fun memory key => (memory.touch key).1) store.memory
        diskTier := [key].foldl (fun diskTier key => (diskTier.touch key).1) store.diskTier } := rfl
    exact sound_of_touches kept performed rfl rfl careful
  | readSlice slice relativeStart frameCount =>
    have performed : store.perform (.readSlice slice relativeStart frameCount) = { store with
        memory := (store.reads slice relativeStart frameCount).1.foldl (fun memory key => (memory.touch key).1) store.memory
        diskTier := [].foldl (fun diskTier key => (diskTier.touch key).1) store.diskTier } := rfl
    exact sound_of_touches kept performed rfl rfl careful

end

abbrev StoreEvent (D : Type) [LinearOrder D] := Event (BoundedMediaStore D) (Action D)

abbrev StoreRun (budgets : CacheBudgets) : List (StoreEvent D) → BoundedMediaStore D → Prop :=
  Run perform fun store => new budgets = .ok store

def memoryLogOf (events : List (StoreEvent D)) : List (PcmChunkKey D) :=
  (events.flatMap fun event => event.before.memoryTouches event.action).reverse

def diskLogOf (events : List (StoreEvent D)) : List (PcmChunkKey D) :=
  (events.flatMap fun event => event.before.diskTouches event.action).reverse

structure Books (budgets : CacheBudgets) (store : BoundedMediaStore D) : Prop where
  residentKeys : ∀ key, key ∈ store.residents ↔ key ∈ store.memory.entries
  diskKeys : ∀ key, key ∈ store.disk ↔ key ∈ store.diskTier.entries
  memoryBytes : store.memory.bytes.val = weigh (fun chunk => chunk.residentBytes.val) store.residents
  diskBytes : store.diskTier.bytes.val = weigh (fun record => record.encodedBytes.val) store.disk
  memoryBudget : store.memory.bytes ≤ budgets.memoryBytes
  diskBudget : store.diskTier.bytes ≤ budgets.diskBytes
  pins : ∀ key, (store.pinCount key).val = store.leaseCount key

/-- What the store promises over a run. -/
structure Keeps (budgets : CacheBudgets) (events : List (StoreEvent D)) (store : BoundedMediaStore D) : Prop where
  books : ∀ reached ∈ events.map Event.before ++ [store], Books budgets reached
  leased : ∀ event ∈ events, ∀ key, event.before.Leased key →
    (key ∈ event.before.residents → key ∈ (event.before.perform event.action).residents) ∧
      (key ∈ event.before.disk → key ∈ (event.before.perform event.action).disk)
  evictions : ∀ earlier event later, events = earlier ++ event :: later →
    EvictsOldest event.before (memoryLogOf earlier) event.action.publishedChunk
        (· ∈ event.before.residents) (· ∈ (event.before.perform event.action).residents) ∧
      EvictsOldest event.before (diskLogOf earlier) event.action.publishedRecord
        (· ∈ event.before.disk) (· ∈ (event.before.perform event.action).disk)
  refused : ∀ event ∈ events,
    (∀ chunk error, event.action = .publishResident chunk → (event.before.publishResident chunk).2 = .error error →
      event.before.perform event.action = event.before) ∧
    (∀ record error, event.action = .publishDiskRecord record → (event.before.publishDiskRecord record).2 = .error error →
      event.before.perform event.action = event.before)

theorem Kept.books (kept : Kept budgets store memoryLog diskLog) : Books budgets store := by
  refine ⟨fun key => (residents_mem kept.memory key).symm, fun key => (disk_mem kept.disk key).symm, ?_, ?_, ?_, ?_, kept.pins⟩
  · rw [kept.memory.balanced.sum]
    apply weigh_congr
    intro key
    have sizes := congrArg (Option.map Fin.val) (kept.memory.sizes key)
    rwa [residentSize, Option.map_map, Option.map_map] at sizes
  · rw [kept.disk.balanced.sum]
    apply weigh_congr
    intro key
    have sizes := congrArg (Option.map Fin.val) (kept.disk.sizes key)
    rwa [diskSize, Option.map_map, Option.map_map] at sizes
  · rw [← kept.memory.budget_eq]
    exact kept.memory.balanced.within
  · rw [← kept.disk.budget_eq]
    exact kept.disk.balanced.within

variable {events : List (StoreEvent D)}

theorem run_kept (run : StoreRun budgets events store) (careful : ∀ event ∈ events, Careful event.before event.action) :
    Kept budgets store (memoryLogOf events) (diskLogOf events) := by
  induction run with
  | start accepted => exact new_kept accepted
  | step run action ih =>
    have kept := ih fun event member => careful event (mem_append_left _ member)
    have sound := perform_sound kept action (careful _ (mem_append_right _ mem_cons_self))
    rw [memoryLogOf, diskLogOf, flatMap_append, flatMap_append, reverse_append, reverse_append,
      flatMap_singleton, flatMap_singleton]
    exact sound.kept

theorem event_sound (run : StoreRun budgets events store) (careful : ∀ event ∈ events, Careful event.before event.action)
    {earlier later : List (StoreEvent D)} {event : StoreEvent D} (split : events = earlier ++ event :: later) :
    Kept budgets event.before (memoryLogOf earlier) (diskLogOf earlier) ∧
      Sound budgets event.before (memoryLogOf earlier) (diskLogOf earlier) event.action := by
  have kept := run_kept (run.upto split) fun other member => careful other (split ▸ mem_append_left _ member)
  exact ⟨kept, perform_sound kept event.action (careful event (split ▸ mem_append_right _ mem_cons_self))⟩

theorem publishResident_refused (refused : (store.publishResident chunk).2 = .error error) :
    (store.publishResident chunk).1 = store := by
  unfold publishResident at refused ⊢
  split
  · rfl
  · rename_i admitted
    rw [admitted] at refused
    cases refused

theorem publishDiskRecord_refused
    (refused : (store.publishDiskRecord record).2 = .error error) : (store.publishDiskRecord record).1 = store := by
  unfold publishDiskRecord at refused ⊢
  split
  · rfl
  · rename_i filled
    rw [if_neg filled] at refused
    split
    · rfl
    · rename_i admitted
      rw [admitted] at refused
      cases refused

/-- Every run whose bytes, pins and clocks fit their integers keeps leased audio and balanced books. -/
theorem careful_run_keeps (run : StoreRun budgets events store) (careful : ∀ event ∈ events, Careful event.before event.action) :
    Keeps budgets events store := by
  refine ⟨?_, ?_, ?_, ?_⟩
  · intro reached member
    rcases List.mem_append.mp member with before | last
    · obtain ⟨event, taken, rfl⟩ := List.mem_map.mp before
      obtain ⟨earlier, later, split⟩ := List.append_of_mem taken
      exact (event_sound run careful split).1.books
    · rw [List.mem_singleton.mp last]
      exact (run_kept run careful).books
  · intro event taken key leased
    obtain ⟨earlier, later, split⟩ := List.append_of_mem taken
    have sound := (event_sound run careful split).2
    exact ⟨fun held => by_contra fun gone => (sound.memoryEvictions key held gone).1 leased,
      fun held => by_contra fun gone => (sound.diskEvictions key held gone).1 leased⟩
  · intro earlier event later split
    have sound := (event_sound run careful split).2
    exact ⟨sound.memoryEvictions, sound.diskEvictions⟩
  · intro event taken
    refine ⟨fun chunk error published refused => ?_, fun record error published refused => ?_⟩
    · rw [published]
      exact publishResident_refused refused
    · rw [published]
      exact publishDiskRecord_refused refused

section Example

def stereoKey (index : U64) : PcmChunkKey Bool := ⟨⟨false⟩, ⟨48000, 2, 4⟩, index⟩

/-- A chunk of four stereo frames, 32 bytes without waveform bins. -/
def stereoChunk (index : U64) : PcmChunk Bool :=
  ⟨stereoKey index, ⟨index * 4, index * 4 + 4⟩, List.replicate 8 0, ⟨stereoKey index, 2, []⟩⟩

def twoChunks : CacheBudgets := ⟨64, 20⟩

def twoChunkStore : BoundedMediaStore Bool := ⟨.new 64, .new 20, ∅, ∅, ∅, ∅, 1⟩

def leasedOldest : List (Action Bool) :=
  [.publishResident (stereoChunk 0), .publishResident (stereoChunk 1), .acquire (stereoKey 0), .publishResident (stereoChunk 2), .release 1]

theorem leasedOldest_keeps :
    Keeps twoChunks (trace perform twoChunkStore leasedOldest) (leasedOldest.foldl perform twoChunkStore) ∧
      (leasedOldest.foldl perform twoChunkStore).residents.keys = [stereoKey 0, stereoKey 2] := by
  have accepted : new twoChunks = .ok twoChunkStore := rfl
  refine ⟨careful_run_keeps (@Run.tracing _ _ _ (fun store => new twoChunks = .ok store) _ accepted leasedOldest) ?_, ?_⟩
  · intro event member
    simp only [leasedOldest, trace, List.mem_cons, List.not_mem_nil, or_false] at member
    rcases member with rfl | rfl | rfl | rfl | rfl <;> exact ⟨by decide, by decide, by decide⟩
  · decide

def wideRecord (index : U64) : DiskChunkRecord Bool := ⟨stereoKey index, 0xffffffffffffffff, "wide"⟩

def widest : CacheBudgets := ⟨1, 0xffffffffffffffff⟩

def widestStore : BoundedMediaStore Bool := ⟨.new 1, .new 0xffffffffffffffff, ∅, ∅, ∅, ∅, 1⟩

/-- Two records that fill the whole disk budget are accounted for as one. -/
theorem saturated_account : ¬∀ (events : List (StoreEvent Bool)) store, StoreRun widest events store → Keeps widest events store := by
  intro claimed
  have accepted : new widest = .ok widestStore := rfl
  have run := @Run.tracing _ _ perform (fun store => new widest = .ok store) _ accepted
    [.publishDiskRecord (wideRecord 0), .publishDiskRecord (wideRecord 1)]
  have books := (claimed _ _ run).books _ (List.mem_append_right _ List.mem_cons_self)
  exact absurd books.diskBytes (by decide)

end Example

end Audec.Media.BoundedMediaStore

import Audec.Lib.Runs
import Audec.Media.Lru

/-! The bounded media store: a resident tier and a disk tier of chunks, with leases that pin the chunks
    of both. -/

open Std (ExtTreeMap)
open Machine Checked Runs List Std.ExtTreeMap Option

namespace Audec.Media

section Keys

variable {D : Type} [LinearOrder D]

def PcmChunkKey.fields (key : PcmChunkKey D) : D ×ₗ U32 ×ₗ U16 ×ₗ U32 ×ₗ U64 :=
  toLex (key.pcm.digest, toLex (key.geometry.sampleRateHz, toLex (key.geometry.channels, toLex (key.geometry.framesPerChunk, key.index))))

theorem PcmChunkKey.fields_injective : Function.Injective (PcmChunkKey.fields (D := D)) := by
  rintro ⟨⟨digest⟩, ⟨rate, channels, width⟩, index⟩ ⟨⟨digest'⟩, ⟨rate', channels', width'⟩, index'⟩ same
  simp only [fields, EmbeddingLike.apply_eq_iff_eq, Prod.mk.injEq] at same
  obtain ⟨rfl, rfl, rfl, rfl, rfl⟩ := same
  rfl

instance PcmChunkKey.linearOrder : LinearOrder (PcmChunkKey D) := LinearOrder.lift' PcmChunkKey.fields PcmChunkKey.fields_injective

instance PcmChunkKey.transCmp : Std.TransCmp (compare : PcmChunkKey D → PcmChunkKey D → Ordering) := inferInstance

end Keys

def PcmChunkGeometry.chunkIndex (geometry : PcmChunkGeometry) (frame : U64) : Except (Stop StreamingMediaError) U64 :=
  if geometry.framesPerChunk = 0 then .error .panic else .ok (Fin.ofNat _ (frame.val / geometry.framesPerChunk.val))

def PcmChunkGeometry.chunkSpan (geometry : PcmChunkGeometry) (index totalFrames : U64) : Except StreamingMediaError FrameSpan :=
  if startFits : index.val * geometry.framesPerChunk.val < 0x10000000000000000 then
    let start : U64 := ⟨index.val * geometry.framesPerChunk.val, startFits⟩
    if totalFrames ≤ start then .error (.chunkOutsidePcm index totalFrames)
    else if stopFits : start.val + geometry.framesPerChunk.val < 0x10000000000000000 then
      let stop := min ⟨start.val + geometry.framesPerChunk.val, stopFits⟩ totalFrames
      if stop ≤ start then .error (.invalidFrameSpan start stop) else .ok ⟨start, stop⟩
    else .error .arithmeticOverflow
  else .error .arithmeticOverflow

def DecodedPcmDescriptor.chunkKey {D : Type} (source : DecodedPcmDescriptor D) (index : U64) : Except StreamingMediaError (PcmChunkKey D) := do
  let _ ← source.geometry.chunkSpan index source.frameCount
  pure ⟨source.id, source.geometry, index⟩

structure ChannelEnvelope where
  min : Float32
  max : Float32
  rms : Float32
  frames : U32

structure WaveformSummaryBin where
  source : FrameSpan
  channels : List ChannelEnvelope

structure WaveformChunkSideProduct (D : Type) where
  source : PcmChunkKey D
  baseBinFrames : U32
  bins : List WaveformSummaryBin

def waveformSummaryBinSize : Nat := 32

def channelEnvelopeSize : Nat := 16

def sampleSize : Nat := 4

def WaveformChunkSideProduct.estimatedBytes {D : Type} (waveform : WaveformChunkSideProduct D) : Nat :=
  (waveform.bins.map fun bin => waveformSummaryBinSize + bin.channels.length * channelEnvelopeSize).sum

structure PcmChunk (D : Type) where
  key : PcmChunkKey D
  span : FrameSpan
  interleaved : List Float32
  waveform : WaveformChunkSideProduct D

def PcmChunk.residentBytes {D : Type} (chunk : PcmChunk D) : U64 :=
  Fin.ofNat _ (chunk.interleaved.length * sampleSize + chunk.waveform.estimatedBytes)

structure CacheBudgets where
  memoryBytes : U64
  diskBytes : U64

def CacheBudgets.validate (budgets : CacheBudgets) : Except StreamingMediaError Unit :=
  ensure (¬(budgets.memoryBytes = 0 ∨ budgets.diskBytes = 0)) .zeroCacheBudget

structure DiskChunkRecord (D : Type) where
  key : PcmChunkKey D
  encodedBytes : U64
  cacheLocator : String

structure ChunkLease (D : Type) where
  id : U64
  key : PcmChunkKey D
  chunk : PcmChunk D

structure BoundedMediaStore (D : Type) [LinearOrder D] where
  memory : PinnedLru (PcmChunkKey D)
  diskTier : PinnedLru (PcmChunkKey D)
  residents : ExtTreeMap (PcmChunkKey D) (PcmChunk D)
  disk : ExtTreeMap (PcmChunkKey D) (DiskChunkRecord D)
  leases : ExtTreeMap U64 (PcmChunkKey D)
  pinCounts : ExtTreeMap (PcmChunkKey D) U32
  nextLease : U64

namespace BoundedMediaStore

variable {D : Type} [LinearOrder D]

def new (budgets : CacheBudgets) : Except StreamingMediaError (BoundedMediaStore D) := do
  budgets.validate
  pure ⟨.new budgets.memoryBytes, .new budgets.diskBytes, ∅, ∅, ∅, ∅, 1⟩

variable (store : BoundedMediaStore D)

def pinCount (key : PcmChunkKey D) : U32 := store.pinCounts[key]?.getD 0

def isPinned (key : PcmChunkKey D) : Bool := 0 < store.pinCount key

def publishResident (chunk : PcmChunk D) : BoundedMediaStore D × Except StreamingMediaError Unit :=
  match store.memory.admission chunk.key chunk.residentBytes store.isPinned with
  | .error refusal => (store, .error (refusal.intoTierError .memory))
  | .ok (memory, evicted) =>
    let residents := evicted.foldl (fun residents key => residents.erase key) store.residents
    ({ store with memory, residents := residents.insert chunk.key chunk }, .ok ())

def publishDiskRecord (record : DiskChunkRecord D) : BoundedMediaStore D × Except StreamingMediaError Unit :=
  if record.encodedBytes = 0 then (store, .error .emptyDiskRecord)
  else match store.diskTier.admission record.key record.encodedBytes store.isPinned with
    | .error refusal => (store, .error (refusal.intoTierError .disk))
    | .ok (diskTier, evicted) =>
      let disk := evicted.foldl (fun disk key => disk.erase key) store.disk
      ({ store with diskTier, disk := disk.insert record.key record }, .ok ())

def acquire (store : BoundedMediaStore D) (key : PcmChunkKey D) : BoundedMediaStore D × Except StreamingMediaError (ChunkLease D) :=
  match store.residents[key]? with
  | none => (store, .error .chunkUnavailable)
  | some chunk =>
    let touched := { store with memory := (store.memory.touch key).1 }
    match checkedSucc store.nextLease with
    | none => (touched, .error .arithmeticOverflow)
    | some nextLease =>
      ({ touched with
        nextLease
        leases := store.leases.insert store.nextLease key
        pinCounts := store.pinCounts.insert key (store.pinCount key + 1) }, .ok ⟨store.nextLease, key, chunk⟩)

def release (store : BoundedMediaStore D) (lease : U64) : BoundedMediaStore D × Except (Stop StreamingMediaError) Unit :=
  match store.leases[lease]? with
  | none => (store, .error (.error (.unknownLease lease)))
  | some key =>
    let removed := { store with leases := store.leases.erase lease }
    match store.pinCounts[key]? with
    | none => (removed, .error .panic)
    | some count =>
      if count - 1 = 0 then ({ removed with pinCounts := store.pinCounts.erase key }, .ok ())
      else ({ removed with pinCounts := store.pinCounts.insert key (count - 1) }, .ok ())

def touchDisk (store : BoundedMediaStore D) (key : PcmChunkKey D) : BoundedMediaStore D × Bool :=
  let touched := store.diskTier.touch key
  ({ store with diskTier := touched.1 }, touched.2)

/-- How a read ends; one that diverges keeps copying nothing. -/
inductive Reading where
  | returned (result : Except (Stop StreamingMediaError) (List Float32))
  | diverges

def copyFrom (residents : ExtTreeMap (PcmChunkKey D) (PcmChunk D)) (source : DecodedPcmDescriptor D) (stop cursor : U64) :
    Except (Stop StreamingMediaError) (PcmChunkKey D × List Float32 × U64) := do
  let index ← source.geometry.chunkIndex cursor
  let key ← lift (source.chunkKey index)
  match residents[key]? with
  | none => .error (.error (.missingChunk key.index))
  | some chunk =>
    let channels : U64 := Fin.ofNat _ source.geometry.channels.val
    let copyEnd := min stop chunk.span.stop
    let localStart := (cursor - chunk.span.start) * channels
    let localEnd := (copyEnd - chunk.span.start) * channels
    if localStart ≤ localEnd ∧ localEnd.val ≤ chunk.interleaved.length then
      pure (key, (chunk.interleaved.drop localStart.val).take (localEnd.val - localStart.val), copyEnd)
    else .error .panic

/-- The chunks a read touches in turn, and how it ends. The cursor takes fewer values than the fuel, so a
    read without fuel repeats itself. -/
def readFrom (residents : ExtTreeMap (PcmChunkKey D) (PcmChunk D)) (source : DecodedPcmDescriptor D) (stop : U64) :
    Nat → U64 → List Float32 → List (PcmChunkKey D) × Reading
  | 0, _, _ => ([], .diverges)
  | fuel + 1, cursor, output =>
    if stop ≤ cursor then ([], .returned (.ok output))
    else match copyFrom residents source stop cursor with
      | .error error => ([], .returned (.error error))
      | .ok (key, copied, copyEnd) =>
        let rest := readFrom residents source stop fuel copyEnd (output ++ copied)
        (key :: rest.1, rest.2)

/-- The most bytes that one allocation can hold. -/
def isizeMax : Nat := 0x7fffffffffffffff

def reads (store : BoundedMediaStore D) (slice : VirtualSliceRef D) (relativeStart frameCount : U64) : List (PcmChunkKey D) × Reading :=
  let length := slice.range.stop - slice.range.start
  if fits : relativeStart.val + frameCount.val < 0x10000000000000000 then
    let relativeEnd : U64 := ⟨relativeStart.val + frameCount.val, fits⟩
    if length < relativeEnd then ([], .returned (.error (.error (.sliceReadOutsideRange relativeEnd length))))
    else match interleavedSamples frameCount.val slice.source.geometry.channels.val with
      | .error error => ([], .returned (.error (.error error)))
      | .ok capacity =>
        -- reserving the output panics before a chunk is looked up
        if isizeMax < capacity * sampleSize then ([], .returned (.error .panic))
        else
          let cursor := slice.range.start + relativeStart
          readFrom store.residents slice.source (cursor + frameCount) 0x10000000000000000 cursor []
  else ([], .returned (.error (.error .arithmeticOverflow)))

/-- The samples come from the residents, and touching a chunk changes its recency only. -/
def readSlice (store : BoundedMediaStore D) (slice : VirtualSliceRef D) (relativeStart frameCount : U64) : BoundedMediaStore D × Reading :=
  let read := store.reads slice relativeStart frameCount
  ({ store with memory := read.1.foldl (fun memory key => (memory.touch key).1) store.memory }, read.2)

inductive Action (D : Type) where
  | publishResident (chunk : PcmChunk D)
  | publishDiskRecord (record : DiskChunkRecord D)
  | acquire (key : PcmChunkKey D)
  | release (lease : U64)
  | touchDisk (key : PcmChunkKey D)
  | readSlice (slice : VirtualSliceRef D) (relativeStart frameCount : U64)

def perform (store : BoundedMediaStore D) : Action D → BoundedMediaStore D
  | .publishResident chunk => (store.publishResident chunk).1
  | .publishDiskRecord record => (store.publishDiskRecord record).1
  | .acquire key => (store.acquire key).1
  | .release lease => (store.release lease).1
  | .touchDisk key => (store.touchDisk key).1
  | .readSlice slice relativeStart frameCount => (store.readSlice slice relativeStart frameCount).1

end BoundedMediaStore

end Audec.Media

/-! What every call on the media store keeps: the books of both tiers, the pins of every lease, and the
    recency of every entry. -/

open Machine Checked Runs Weights

namespace Audec.Media

namespace PinnedLru

variable {K : Type} [LinearOrder K]

structure Stamped (lru : PinnedLru K) (log : List K) : Prop where
  clock : lru.clock.val = log.length
  stamps : ∀ (key : K) (entry : LruEntry), lru.entries[key]? = some entry → key ∈ log ∧ entry.lastTouch.val + log.idxOf key = log.length

theorem new_stamped (budgetBytes : U64) : (new budgetBytes : PinnedLru K).Stamped [] := by
  refine ⟨rfl, fun key entry held => ?_⟩
  rw [new, getElem?_empty] at held
  cases held

variable {lru : PinnedLru K} {log : List K} {key : K}

theorem Stamped.tick_val (stamped : lru.Stamped log) (room : lru.clock.val + 1 < 0x10000000000000000) :
    lru.tick.clock.val = (key :: log).length := by
  rw [tick, saturatingAdd_val (by exact room), stamped.clock, length_cons]
  rfl

variable {entry : LruEntry} {other : K} {after : PinnedLru K} {bytes : U64} {evicted keys : List K}
  {retained : K → Bool}

theorem Stamped.behind (stamped : lru.Stamped log) (held : lru.entries[other]? = some entry)
    (distinct : key ≠ other) : other ∈ key :: log ∧ entry.lastTouch.val + (key :: log).idxOf other = (key :: log).length := by
  obtain ⟨member, stamp⟩ := stamped.stamps other entry held
  refine ⟨mem_cons_of_mem _ member, ?_⟩
  rw [idxOf_cons_ne _ distinct, length_cons]
  omega

theorem touch_stamped (stamped : lru.Stamped log) (room : lru.clock.val + 1 < 0x10000000000000000) :
    (lru.touch key).1.Stamped (key :: log) := by
  have clock : (lru.touch key).1.clock = lru.tick.clock := by
    unfold touch
    split <;> rfl
  refine ⟨by rw [clock, stamped.tick_val room], fun other entry held => ?_⟩
  rw [lookup_touch] at held
  split at held
  · rename_i same
    obtain ⟨previous, -, rfl⟩ := map_eq_some_iff.mp held
    subst same
    refine ⟨mem_cons_self, ?_⟩
    rw [idxOf_cons_self, Nat.add_zero]
    exact stamped.tick_val room
  · rename_i distinct
    exact stamped.behind held distinct

theorem Admitted.stamped
    (admitted : Admitted lru key bytes retained after evicted) (stamped : lru.Stamped log) (room : lru.clock.val + 1 < 0x10000000000000000) :
    after.Stamped (key :: log) := by
  refine ⟨by rw [admitted.clock, stamped.tick_val room], fun other entry held => ?_⟩
  rw [admitted.lookup] at held
  split at held
  · rename_i same
    cases held
    subst same
    refine ⟨mem_cons_self, ?_⟩
    rw [idxOf_cons_self, Nat.add_zero]
    exact stamped.tick_val room
  · rename_i distinct
    split at held
    · cases held
    · exact stamped.behind held distinct

def LessRecent (log : List K) (key other : K) : Prop := log.idxOf other < log.idxOf key

theorem Stamped.lessRecent (stamped : lru.Stamped log) {entry' : LruEntry} (held : lru.entries[key]? = some entry)
    (held' : lru.entries[other]? = some entry') (distinct : key ≠ other) (older : Older (key, entry) (other, entry')) :
    LessRecent log key other := by
  obtain ⟨member, stamp⟩ := stamped.stamps key entry held
  obtain ⟨member', stamp'⟩ := stamped.stamps other entry' held'
  have le : entry.lastTouch.val ≤ entry'.lastTouch.val := by
    rcases older with before | ⟨same, -⟩
    · exact le_of_lt before
    · exact le_of_eq (congrArg Fin.val same)
  have apart : log.idxOf key ≠ log.idxOf other := fun same => distinct (idxOf_inj member |>.mp same)
  unfold LessRecent
  omega

theorem foldl_touch (balanced : lru.Balanced) (stamped : lru.Stamped log)
    (room : lru.clock.val + keys.length < 0x10000000000000000) :
    (keys.foldl (fun lru key => (lru.touch key).1) lru).Balanced ∧
      (keys.foldl (fun lru key => (lru.touch key).1) lru).Stamped (keys.reverse ++ log) := by
  induction keys generalizing lru log with
  | nil => exact ⟨balanced, stamped⟩
  | cons key keys tail =>
    rw [length_cons] at room
    have touched := @touch_stamped _ _ lru log key stamped (by omega)
    rw [foldl_cons, reverse_cons, append_assoc, singleton_append]
    refine tail (touch_balanced balanced key) touched ?_
    rw [touched.clock, length_cons, ← stamped.clock]
    omega

section

variable (lru)
include lru

theorem sizes_touch (key other : K) :
    (lru.touch key).1.entries[other]?.map LruEntry.bytes = lru.entries[other]?.map LruEntry.bytes := by
  rw [lookup_touch]
  split
  · rw [Option.map_map]
    rfl
  · rfl

theorem sizes_foldl_touch (keys : List K) (other : K) :
    (keys.foldl (fun lru key => (lru.touch key).1) lru).entries[other]?.map LruEntry.bytes = lru.entries[other]?.map LruEntry.bytes := by
  induction keys generalizing lru with
  | nil => rfl
  | cons key keys tail => rw [foldl_cons, tail, sizes_touch]

theorem budget_touch (key : K) : (lru.touch key).1.budgetBytes = lru.budgetBytes := by
  unfold touch
  split <;> rfl

theorem budget_foldl_touch (keys : List K) :
    (keys.foldl (fun lru key => (lru.touch key).1) lru).budgetBytes = lru.budgetBytes := by
  induction keys generalizing lru with
  | nil => rfl
  | cons key keys tail => rw [foldl_cons, tail, budget_touch]

end

structure Accounts (lru : PinnedLru K) (budget : U64) (held : K → Option U64) (log : List K) : Prop where
  balanced : lru.Balanced
  budget_eq : lru.budgetBytes = budget
  sizes : ∀ key, lru.entries[key]?.map LruEntry.bytes = held key
  stamped : lru.Stamped log

variable {budget : U64} {held : K → Option U64}

theorem new_accounts (budget : U64) : (new budget : PinnedLru K).Accounts budget (fun _ => none) [] := by
  refine ⟨new_balanced budget, rfl, fun key => ?_, new_stamped budget⟩
  rw [new, getElem?_empty]
  rfl

section

variable (accounts : lru.Accounts budget held log)
include accounts

theorem Accounts.touched
    (room : lru.clock.val + keys.length < 0x10000000000000000) :
    (keys.foldl (fun lru key => (lru.touch key).1) lru).Accounts budget held (keys.reverse ++ log) := by
  obtain ⟨balanced, stamped⟩ := foldl_touch accounts.balanced accounts.stamped room
  refine ⟨balanced, (budget_foldl_touch lru keys).trans accounts.budget_eq, fun key => ?_, stamped⟩
  rw [sizes_foldl_touch, accounts.sizes]

theorem Accounts.admitted
    (admitted : Admitted lru key bytes retained after evicted) (room : lru.clock.val + 1 < 0x10000000000000000) :
    after.Accounts budget (fun other => if key = other then some bytes else if other ∈ evicted then none else held other) (key :: log) := by
  refine ⟨admitted.balanced, admitted.budget.trans accounts.budget_eq, fun other => ?_, admitted.stamped accounts.stamped room⟩
  rw [admitted.lookup]
  split
  · rfl
  · split
    · rfl
    · exact accounts.sizes other

theorem Accounts.mem_iff (key : K) : key ∈ lru.entries ↔ (held key).isSome = true := by
  rw [mem_iff_isSome_getElem?, ← accounts.sizes, isSome_map]

end

end PinnedLru

namespace BoundedMediaStore

open PinnedLru

variable {D : Type} [LinearOrder D]

section

variable (store : BoundedMediaStore D)

section

variable (key : PcmChunkKey D)

def residentSize : Option U64 := store.residents[key]?.map PcmChunk.residentBytes

def diskSize : Option U64 := store.disk[key]?.map DiskChunkRecord.encodedBytes

def leaseCount : Nat :=
  Entries.count (fun _ leased => decide (leased = key)) store.leases

def Leased : Prop := ∃ lease : U64, store.leases[lease]? = some key

end

end

structure Kept (budgets : CacheBudgets) (store : BoundedMediaStore D) (memoryLog diskLog : List (PcmChunkKey D)) : Prop where
  memory : store.memory.Accounts budgets.memoryBytes store.residentSize memoryLog
  disk : store.diskTier.Accounts budgets.diskBytes store.diskSize diskLog
  pins : ∀ key, (store.pinCount key).val = store.leaseCount key
  numbered : ∀ (lease : U64) (key : PcmChunkKey D), store.leases[lease]? = some key → lease < store.nextLease

variable {budgets : CacheBudgets} {store : BoundedMediaStore D} {memoryLog diskLog : List (PcmChunkKey D)}

theorem new_kept (accepted : new budgets = .ok store) : Kept budgets store [] [] := by
  simp only [new, bind_unit_ok] at accepted
  cases accepted.2
  refine ⟨?_, ?_, fun key => ?_, fun lease key held => ?_⟩
  · have empty := new_accounts (K := PcmChunkKey D) budgets.memoryBytes
    refine ⟨empty.balanced, rfl, fun key => ?_, empty.stamped⟩
    rw [empty.sizes, residentSize, getElem?_empty, map_none]
  · have empty := new_accounts (K := PcmChunkKey D) budgets.diskBytes
    refine ⟨empty.balanced, rfl, fun key => ?_, empty.stamped⟩
    rw [empty.sizes, diskSize, getElem?_empty, map_none]
  · rw [pinCount, getElem?_empty, leaseCount, Entries.count_empty]
    rfl
  · rw [getElem?_empty] at held
    cases held

theorem Kept.isPinned_iff (kept : Kept budgets store memoryLog diskLog) (key : PcmChunkKey D) : store.isPinned key = true ↔ store.Leased key := by
  rw [isPinned, decide_eq_true_eq, Fin.lt_def, kept.pins, leaseCount, Fin.val_zero, Entries.count, countP_pos_iff]
  constructor
  · rintro ⟨⟨lease, leased⟩, member, same⟩
    rw [decide_eq_true_eq] at same
    exact ⟨lease, same ▸ Entries.mem_toList.mp member⟩
  · rintro ⟨lease, held⟩
    exact ⟨(lease, key), Entries.mem_toList.mpr held, decide_eq_true rfl⟩

theorem Kept.unpinned (kept : Kept budgets store memoryLog diskLog) {key : PcmChunkKey D} (free : ¬store.Leased key) : store.isPinned key = false := by
  rw [← Bool.not_eq_true, kept.isPinned_iff]
  exact free

end BoundedMediaStore

end Audec.Media

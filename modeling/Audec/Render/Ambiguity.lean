import Audec.Render.TileCache
import Audec.Render.Chain

/-! Which tiles a restart cache serves, and when it flags exactly the requests with disagreeing publications. -/

open Machine Checked Runs List Function

namespace Audec.Render

open TileProductCache ReceiptStore RenderProductReceipt

variable {Pcm : Type} [DecidableEq Pcm]

variable {key : RenderProductKey} {spec : TileRenderSpec}

theorem TileRenderSpec.productKey_ok (done : spec.productKey = .ok key) :
    key = ⟨spec.plan, spec.scope, spec.core, .tile spec.grid spec.index, spec.boundaryRecipe⟩ := by
  unfold productKey RenderProductKey.new at done
  rw [bind_unit_ok, bind_unit_ok] at done
  exact (Except.ok.inj done.2.2).symm

theorem derivation_matches {other : TileRenderSpec} (done : spec.productKey = .ok key)
    (same : tileProductRequest spec = tileProductRequest other) : persistedDerivationMatches other key = true := by
  have parts := same
  simp only [tileProductRequest, TileProductRequest.mk.injEq] at parts
  obtain ⟨schema, snapshot, extent, engine, scope, frames, index, core, -, boundary, dependencies⟩ := parts
  have grid : spec.grid = other.grid := by
    cases first : spec.grid
    cases second : other.grid
    rw [first, second] at frames
    cases frames
    rfl
  rw [TileRenderSpec.productKey_ok done]
  simp only [persistedDerivationMatches, schema, snapshot, extent, engine, scope, index, core, boundary, dependencies, grid,
    decide_true, Bool.and_self]

namespace ReceiptStore

/-- Two publications under the request stored different samples. -/
def Disputed (store : ReceiptStore Pcm) (request : TileProductRequest) : Prop :=
  ∃ a ∈ store.receipts, ∃ b ∈ store.receipts, a.request = request ∧ b.request = request ∧ a.payload ≠ b.payload

structure Sound (store : ReceiptStore Pcm) : Prop where
  built : ∀ receipt ∈ store.receipts, ∃ spec : TileRenderSpec,
    spec.productKey = .ok receipt.producedBy ∧ tileProductRequest spec = receipt.request
  referenced : ∀ receipt ∈ store.receipts, (store.references receipt.request).isSome
  stored : ∀ request receipt, store.references request = some receipt → receipt ∈ store.receipts ∧ receipt.request = request

variable {store : ReceiptStore Pcm}

variable {receipt : RenderProductReceipt Pcm}

theorem Sound.isTile (sound : store.Sound) (inside : receipt ∈ store.receipts) :
    receipt.isTile = true := by
  obtain ⟨spec, done, -⟩ := sound.built receipt inside
  unfold RenderProductReceipt.isTile
  rw [TileRenderSpec.productKey_ok done]

theorem Sound.same_id (sound : store.Sound) {a b : RenderProductReceipt Pcm} (a' : a ∈ store.receipts) (b' : b ∈ store.receipts)
    (same : a.request = b.request) : a.id = b.id ↔ a.payload = b.payload := by
  obtain ⟨spec, done, request⟩ := sound.built a a'
  obtain ⟨other, done', request'⟩ := sound.built b b'
  have parts : tileProductRequest spec = tileProductRequest other := request.trans (same.trans request'.symm)
  simp only [tileProductRequest, TileProductRequest.mk.injEq] at parts
  obtain ⟨-, -, -, engine, -, -, -, core, -⟩ := parts
  unfold RenderProductReceipt.id
  rw [TileRenderSpec.productKey_ok done, TileRenderSpec.productKey_ok done']
  simp only [engine, core, Prod.mk.injEq, and_true]

theorem mem_putBytes {other : RenderProductReceipt Pcm} :
    other ∈ (store.putBytes receipt).receipts ↔ other ∈ store.receipts ∨ other = receipt := by
  unfold putBytes
  split
  next held =>
    constructor
    · exact .inl
    · rintro (inside | rfl)
      · exact inside
      · exact held
  next =>
    rw [mem_append, mem_singleton]

@[simp] theorem putBytes_references (store : ReceiptStore Pcm) (receipt : RenderProductReceipt Pcm) :
    (store.putBytes receipt).references = store.references := by
  unfold putBytes
  split <;> rfl

theorem Sound.rebuild (sound : store.Sound) : store.rebuildRenderRequestIndex = { store with marked := true } := by
  have still : store.receipts.foldl indexStored store = store := by
    refine List.foldlRecOn store.receipts _ (motive := fun indexed => indexed = store) rfl fun indexed same receipt inside => ?_
    obtain ⟨named, held⟩ := Option.isSome_iff_exists.mp (sound.referenced receipt inside)
    rw [same, indexStored, if_pos (sound.isTile inside), putReference, held]
  unfold rebuildRenderRequestIndex
  rw [still]

end ReceiptStore

namespace TileProductCache

structure Sound (store : ReceiptStore Pcm) (cache : TileProductCache Pcm) : Prop where
  entries : ∀ request receipt, cache.entries request = some receipt → receipt ∈ store.receipts ∧ receipt.request = request
  refused : cache.refused = ∅

variable {store : ReceiptStore Pcm} {cache : TileProductCache Pcm}

theorem Sound.mono (sound : cache.Sound store) {grown : ReceiptStore Pcm}
    (grows : ∀ receipt ∈ store.receipts, receipt ∈ grown.receipts) : cache.Sound grown :=
  ⟨fun request receipt held => (sound.entries request receipt held).imp_left (grows receipt), sound.refused⟩

theorem Sound.flag (sound : cache.Sound store) (receipt : RenderProductReceipt Pcm) : (cache.flag receipt).Sound store := by
  refine ⟨fun request other held => ?_, sound.refused⟩
  have held : update cache.entries receipt.request none request = some other := held
  rw [update_apply] at held
  split at held
  · cases held
  · exact sound.entries request other held

variable {receipt : RenderProductReceipt Pcm}

theorem Sound.adopt (sound : cache.Sound store) (inside : receipt ∈ store.receipts) :
    (cache.adopt receipt).Sound store := by
  unfold TileProductCache.adopt
  split
  · exact sound
  split
  · split
    · exact sound.flag receipt
    · exact sound
  · refine ⟨fun request other held => ?_, sound.refused⟩
    have held : update cache.entries receipt.request (some receipt) request = some other := held
    rw [update_apply] at held
    split at held
    next same =>
      cases held
      exact ⟨inside, same.symm⟩
    · exact sound.entries request other held

theorem mem_adopt (cache : TileProductCache Pcm) (receipt : RenderProductReceipt Pcm) (request : TileProductRequest) :
    request ∈ (cache.adopt receipt).ambiguous ↔ request ∈ cache.ambiguous ∨
      request = receipt.request ∧ ∃ existing, cache.entries receipt.request = some existing ∧ existing.id ≠ receipt.id := by
  unfold adopt
  split
  next known =>
    constructor
    · exact .inl
    · rintro (held | ⟨rfl, -⟩)
      · exact held
      · exact known
  next =>
  split
  next existing held =>
    simp only [held, Option.some.injEq, exists_eq_left']
    split
    next differs =>
      have flagged : (cache.flag receipt).ambiguous = insert receipt.request cache.ambiguous := rfl
      rw [flagged, Finset.mem_insert]
      simp only [ne_eq, differs, not_false_eq_true, and_true]
      exact or_comm
    next same =>
      simp only [same, and_false, or_false]
  next absent =>
    simp only [absent, reduceCtorEq, false_and, exists_false, and_false, or_false]

def Conflicts (store : ReceiptStore Pcm) (receipt : RenderProductReceipt Pcm) : Prop :=
  ∃ existing, store.references receipt.request = some existing ∧ existing ≠ receipt

theorem indexReceipt_conflict (conflict : Conflicts store receipt) :
    (cache.indexReceipt store receipt).2 = cache.flag receipt := by
  obtain ⟨existing, named, differs⟩ := conflict
  unfold indexReceipt putReference
  simp only [named, differs, if_false]

theorem indexReceipt_calm (calm : ¬ Conflicts store receipt) :
    (cache.indexReceipt store receipt).2 = cache := by
  unfold indexReceipt putReference
  cases named : store.references receipt.request with
  | none => rfl
  | some existing =>
    have same : existing = receipt := by
      by_contra differs
      exact calm ⟨existing, named, differs⟩
    simp only [same, if_true]

theorem flag_adopt (cache : TileProductCache Pcm) (receipt : RenderProductReceipt Pcm) :
    (cache.flag receipt).adopt receipt = cache.flag receipt := by
  have known : receipt.request ∈ (cache.flag receipt).ambiguous := Finset.mem_insert_self ..
  unfold adopt
  rw [if_pos known]

theorem indexReceipt_store (cache : TileProductCache Pcm) (sound : store.Sound)
    (built : ∃ spec : TileRenderSpec, spec.productKey = .ok receipt.producedBy ∧ tileProductRequest spec = receipt.request) :
    (cache.indexReceipt (store.putBytes receipt) receipt).1.Sound ∧
      (cache.indexReceipt (store.putBytes receipt) receipt).1.receipts = (store.putBytes receipt).receipts := by
  have references := store.putBytes_references receipt
  have kept : ∀ other ∈ (store.putBytes receipt).receipts, ∃ spec : TileRenderSpec,
      spec.productKey = .ok other.producedBy ∧ tileProductRequest spec = other.request := by
    intro other inside
    rcases mem_putBytes.mp inside with inside | rfl
    · exact sound.built other inside
    · exact built
  unfold indexReceipt putReference
  rw [references]
  cases held : store.references receipt.request with
  | none =>
    refine ⟨⟨kept, fun other inside => ?_, fun request other named => ?_⟩, rfl⟩
    · have named : (update store.references receipt.request (some receipt) other.request).isSome := by
        rw [update_apply]
        split
        · rfl
        next differs =>
          rcases mem_putBytes.mp inside with inside | rfl
          · exact sound.referenced other inside
          · exact absurd rfl differs
      exact named
    · have named : update store.references receipt.request (some receipt) request = some other := named
      rw [update_apply] at named
      split at named
      next same =>
        cases named
        exact ⟨mem_putBytes.mpr (.inr rfl), same.symm⟩
      · obtain ⟨inside, same⟩ := sound.stored request other named
        exact ⟨mem_putBytes.mpr (.inl inside), same⟩
  | some existing =>
    have whole : (store.putBytes receipt).Sound := by
      refine ⟨kept, fun other inside => ?_, fun request other named => ?_⟩
      · rw [references]
        rcases mem_putBytes.mp inside with inside | rfl
        · exact sound.referenced other inside
        · exact Option.isSome_iff_exists.mpr ⟨existing, held⟩
      · rw [references] at named
        obtain ⟨inside, same⟩ := sound.stored request other named
        exact ⟨mem_putBytes.mpr (.inl inside), same⟩
    dsimp only
    split
    · exact ⟨whole, rfl⟩
    · exact ⟨whole, rfl⟩

theorem adoptFromIndex_eq (sound : store.Sound) (cache : TileProductCache Pcm) (request : TileProductRequest) :
    cache.adoptFromIndex store request = (store, ((store.references request).map cache.adopt).getD cache) := by
  unfold adoptFromIndex
  cases named : store.references request with
  | none => rfl
  | some receipt =>
    obtain ⟨inside, same⟩ := sound.stored request receipt named
    have tile := sound.isTile inside
    simp only [inside, not_true_eq_false, if_false, same, ne_eq, tile, Bool.true_eq_false, or_self, Option.map_some,
      Option.getD_some]

def Answers (store : ReceiptStore Pcm) (spec : TileRenderSpec) (answer : Except TileProductCacheError (Option (TileProduct Pcm))) :
    Prop :=
  (answer = .ok none ∧ ∀ receipt ∈ store.receipts, receipt.request ≠ tileProductRequest spec) ∨
    (∃ error, spec.productKey = .error error ∧ answer = .error (.product error)) ∨
    ∃ receipt ∈ store.receipts, receipt.request = tileProductRequest spec ∧
      ∃ key, spec.productKey = .ok key ∧ answer = .ok (some ⟨receipt.payload, key⟩)

theorem restore_held (sound : store.Sound) (held : cache.Sound store)
    (entry : cache.entries (tileProductRequest spec) = some receipt) :
    Answers store spec (cache.restore store spec).1 ∧ (cache.restore store spec).2 = (store, cache) := by
  obtain ⟨inside, same⟩ := held.entries _ _ entry
  obtain ⟨origin, done, request⟩ := sound.built receipt inside
  have matching := derivation_matches done (request.trans same)
  unfold restore
  simp only [entry, matching, Bool.true_eq_false, if_false]
  cases spec' : spec.productKey with
  | error error => exact ⟨.inr (.inl ⟨error, spec', rfl⟩), rfl⟩
  | ok key => exact ⟨.inr (.inr ⟨receipt, inside, same, key, spec', rfl⟩), rfl⟩

theorem hydrate_spec (sound : store.Sound) (held : cache.Sound store) (spec : TileRenderSpec) :
    (tileProductRequest spec ∈ cache.ambiguous → (cache.hydrate store spec).1 = .ok none) ∧
      (tileProductRequest spec ∉ cache.ambiguous → Answers store spec (cache.hydrate store spec).1) ∧
      (cache.hydrate store spec).2.1 = store ∧ (cache.hydrate store spec).2.2.Sound store ∧
      (cache.hydrate store spec).2.2.ambiguous = cache.ambiguous := by
  unfold hydrate
  simp only [held.refused, Finset.notMem_empty, or_false]
  by_cases known : tileProductRequest spec ∈ cache.ambiguous
  · simp only [known, if_true, not_true_eq_false, false_implies, true_and, implies_true]
    exact ⟨held, trivial⟩
  simp only [known, if_false, false_implies, not_false_eq_true, true_implies, true_and]
  by_cases entered : (cache.entries (tileProductRequest spec)).isSome
  · obtain ⟨receipt, entry⟩ := Option.isSome_iff_exists.mp entered
    obtain ⟨answers, still⟩ := restore_held sound held entry
    simp only [entered, if_true]
    rw [still]
    exact ⟨answers, rfl, held, rfl⟩
  simp only [entered, Bool.false_eq_true, if_false, adoptFromIndex_eq sound]
  cases named : store.references (tileProductRequest spec) with
  | none =>
    have absent : cache.entries (tileProductRequest spec) = none := Option.not_isSome_iff_eq_none.mp entered
    have unstored : ∀ receipt ∈ store.receipts, receipt.request ≠ tileProductRequest spec := by
      intro receipt inside same
      have referenced := sound.referenced receipt inside
      rw [same, named] at referenced
      cases referenced
    simp only [Option.map_none, Option.getD_none, restore, absent]
    exact ⟨.inl ⟨rfl, unstored⟩, trivial, held, trivial⟩
  | some receipt =>
    obtain ⟨inside, same⟩ := sound.stored _ _ named
    have absent : cache.entries receipt.request = none := by
      rw [same]
      exact Option.not_isSome_iff_eq_none.mp entered
    have adopted : cache.adopt receipt = { cache with entries := update cache.entries receipt.request (some receipt) } := by
      unfold adopt
      rw [same] at absent ⊢
      simp only [known, if_false, absent]
    have entry : (cache.adopt receipt).entries (tileProductRequest spec) = some receipt := by
      rw [adopted, same]
      exact update_self ..
    obtain ⟨answers, still⟩ := restore_held sound (held.adopt inside) entry
    simp only [Option.map_some, Option.getD_some]
    rw [still]
    refine ⟨answers, rfl, held.adopt inside, ?_⟩
    rw [adopted]

variable {product : TileProduct Pcm}

theorem publish_refused (refused : spec.productKey ≠ .ok product.producedBy) :
    (cache.publish store spec product).2 = (store, cache) := by
  unfold publish
  cases done : spec.productKey with
  | error error => rfl
  | ok key =>
    have differs : product.producedBy ≠ key := fun same => refused (done.trans (congrArg Except.ok same.symm))
    simp only [ne_eq, differs, not_false_eq_true, if_true]

theorem publish_spec (sound : store.Sound) (held : cache.Sound store)
    (done : spec.productKey = .ok product.producedBy) :
    (cache.publish store spec product).2.1.Sound ∧
      (cache.publish store spec product).2.1.receipts = (store.putBytes (receiptFor spec product)).receipts ∧
      (cache.publish store spec product).2.2.Sound (cache.publish store spec product).2.1 ∧
      ∀ request, request ∈ (cache.publish store spec product).2.2.ambiguous ↔ request ∈ cache.ambiguous ∨
        request = tileProductRequest spec ∧
          ((∃ existing, store.references (tileProductRequest spec) = some existing ∧ existing ≠ receiptFor spec product) ∨
            ∃ existing, cache.entries (tileProductRequest spec) = some existing ∧ existing.payload ≠ product.pcm) := by
  have built : ∃ origin : TileRenderSpec, origin.productKey = .ok (receiptFor spec product).producedBy ∧
      tileProductRequest origin = (receiptFor spec product).request := ⟨spec, done, rfl⟩
  have cleared : ({ cache with refused := cache.refused.erase (receiptFor spec product).request } : TileProductCache Pcm) = cache := by
    rw [held.refused, Finset.erase_empty, ← held.refused]
  have published : (cache.publish store spec product).2 =
      ((cache.indexReceipt (store.putBytes (receiptFor spec product)) (receiptFor spec product)).1,
        (cache.indexReceipt (store.putBytes (receiptFor spec product)) (receiptFor spec product)).2.adopt (receiptFor spec product)) := by
    unfold publish
    simp only [done, ne_eq, not_true_eq_false, if_false, cleared]
  rw [published]
  obtain ⟨sound', receipts⟩ := indexReceipt_store cache sound built
  have inside : receiptFor spec product ∈
      (cache.indexReceipt (store.putBytes (receiptFor spec product)) (receiptFor spec product)).1.receipts := by
    rw [receipts]
    exact mem_putBytes.mpr (.inr rfl)
  have grows : ∀ receipt ∈ store.receipts, receipt ∈
      (cache.indexReceipt (store.putBytes (receiptFor spec product)) (receiptFor spec product)).1.receipts := by
    intro receipt member
    rw [receipts]
    exact mem_putBytes.mpr (.inl member)
  have held' := held.mono grows
  refine ⟨sound', receipts, ?_, fun request => ?_⟩
  · by_cases conflict : Conflicts (store.putBytes (receiptFor spec product)) (receiptFor spec product)
    · rw [indexReceipt_conflict conflict, flag_adopt]
      exact held'.flag _
    · rw [indexReceipt_calm conflict]
      exact held'.adopt inside
  · have same : Conflicts (store.putBytes (receiptFor spec product)) (receiptFor spec product) ↔
        ∃ existing, store.references (tileProductRequest spec) = some existing ∧ existing ≠ receiptFor spec product := by
      unfold Conflicts
      rw [putBytes_references]
      rfl
    rw [← same]
    by_cases conflict : Conflicts (store.putBytes (receiptFor spec product)) (receiptFor spec product)
    · have flagged : (cache.flag (receiptFor spec product)).ambiguous = insert (tileProductRequest spec) cache.ambiguous := rfl
      rw [indexReceipt_conflict conflict, flag_adopt, flagged, Finset.mem_insert]
      simp only [conflict, true_or, and_true]
      exact or_comm
    · rw [indexReceipt_calm conflict, mem_adopt]
      simp only [conflict, false_or]
      refine or_congr_right (and_congr_right fun _ => exists_congr fun existing => and_congr_right fun entered => not_congr ?_)
      obtain ⟨member, request'⟩ := held.entries _ _ entered
      exact sound'.same_id (grows existing member) inside request'

end TileProductCache

namespace CacheWorld

open ReceiptStore (Disputed)

variable {world : CacheWorld Pcm}

structure Sound (world : CacheWorld Pcm) : Prop where
  store : world.store.Sound
  caches : ∀ session cache, world.sessions session = some cache → cache.Sound world.store

structure Honest (world : CacheWorld Pcm) : Prop where
  /-- A request is flagged if and only if two publications under it stored different samples. -/
  flagged : ∀ session cache, world.sessions session = some cache → ∀ request,
    request ∈ cache.ambiguous ↔ Disputed world.store request
  /-- A served tile has the samples of a publication of the same persisted derivation. -/
  served : ∀ session cache, world.sessions session = some cache → ∀ spec product,
    (cache.hydrate world.store spec).1 = .ok (some product) → ∃ receipt ∈ world.store.receipts,
      receipt.request = tileProductRequest spec ∧ persistedDerivationMatches spec receipt.producedBy = true ∧
        product.pcm = receipt.payload
  /-- A published tile is served as long as all publications of its request agree. -/
  offered : ∀ session cache, world.sessions session = some cache → ∀ spec key, spec.productKey = .ok key →
    ∀ receipt ∈ world.store.receipts, receipt.request = tileProductRequest spec →
      ¬ Disputed world.store (tileProductRequest spec) →
        (cache.hydrate world.store spec).1 = .ok (some ⟨receipt.payload, key⟩)

/-- An opened session finds no disagreement. A publication repeats the receipt that its request has, or it disagrees
    with one where every other open session has flagged the request. -/
def Careful (world : CacheWorld Pcm) : CacheAction Pcm → Prop
  | .openCache _ => ∀ request, ¬ Disputed world.store request
  | .publish session spec product =>
    (world.sessions session).isSome → spec.productKey = .ok product.producedBy →
      (∀ receipt ∈ world.store.receipts, receipt.request = tileProductRequest spec → receipt = TileProductCache.receiptFor spec product) ∨
        ((∃ receipt ∈ world.store.receipts, receipt.request = tileProductRequest spec ∧ receipt.payload ≠ product.pcm) ∧
          ∀ other cache, other ≠ session → world.sessions other = some cache → tileProductRequest spec ∈ cache.ambiguous)
  | .hydrate _ _ | .rebuildIndex => True

variable {cache : TileProductCache Pcm} {session : Nat} {store : ReceiptStore Pcm}

variable {held : TileProductCache Pcm} {other : Nat}

theorem sessions_put
    (found : (world.put session store cache).sessions other = some held) :
    (other = session ∧ held = cache) ∨ (other ≠ session ∧ world.sessions other = some held) := by
  have found : update world.sessions session (some cache) other = some held := found
  rw [update_apply] at found
  split at found
  next same => exact .inl ⟨same, (Option.some.inj found).symm⟩
  next differs => exact .inr ⟨differs, found⟩

theorem sessions_put_self (world : CacheWorld Pcm) (session : Nat) (store : ReceiptStore Pcm) (cache : TileProductCache Pcm) :
    (world.put session store cache).sessions session = some cache :=
  update_self ..

theorem sessions_put_other (world : CacheWorld Pcm) (differs : other ≠ session) (store : ReceiptStore Pcm)
    (cache : TileProductCache Pcm) : (world.put session store cache).sessions other = world.sessions other :=
  update_of_ne differs ..

theorem Sound.put (sound : world.Sound)
    (store' : store.Sound) (cache' : cache.Sound store) (grows : ∀ receipt ∈ world.store.receipts, receipt ∈ store.receipts) :
    (world.put session store cache).Sound := by
  refine ⟨store', fun other held found => ?_⟩
  rcases sessions_put found with ⟨-, rfl⟩ | ⟨-, found⟩
  · exact cache'
  · exact (sound.caches other held found).mono grows

section

variable (found : world.sessions session = some cache)
include found

theorem perform_publish (spec : TileRenderSpec) (product : TileProduct Pcm) : world.perform (.publish session spec product) =
      world.put session (cache.publish world.store spec product).2.1 (cache.publish world.store spec product).2.2 := by
  simp only [perform, found]

theorem perform_hydrate (spec : TileRenderSpec) : world.perform (.hydrate session spec) =
      world.put session (cache.hydrate world.store spec).2.1 (cache.hydrate world.store spec).2.2 := by
  simp only [perform, found]

end

section

variable (closed : world.sessions session = none)
include closed

theorem perform_publish_closed (spec : TileRenderSpec)
    (product : TileProduct Pcm) : world.perform (.publish session spec product) = world := by
  simp only [perform, closed]

theorem perform_hydrate_closed (spec : TileRenderSpec) :
    world.perform (.hydrate session spec) = world := by
  simp only [perform, closed]

end

theorem Sound.perform (sound : world.Sound) (action : CacheAction Pcm) : (world.perform action).Sound := by
  cases action with
  | openCache session =>
    exact sound.put sound.store ⟨fun request receipt held => (by cases held), rfl⟩ fun _ inside => inside
  | publish session spec product =>
    cases found : world.sessions session with
    | none =>
      rw [perform_publish_closed found]
      exact sound
    | some cache =>
      have held := sound.caches session cache found
      rw [perform_publish found]
      by_cases done : spec.productKey = .ok product.producedBy
      · obtain ⟨store', receipts, cache', -⟩ := publish_spec sound.store held done
        refine sound.put store' cache' fun receipt inside => ?_
        rw [receipts]
        exact mem_putBytes.mpr (.inl inside)
      · rw [publish_refused done]
        exact sound.put sound.store held fun _ inside => inside
  | hydrate session spec =>
    cases found : world.sessions session with
    | none =>
      rw [perform_hydrate_closed found]
      exact sound
    | some cache =>
      obtain ⟨-, -, still, cache', -⟩ := hydrate_spec sound.store (sound.caches session cache found) spec
      rw [perform_hydrate found, still]
      exact sound.put sound.store cache' fun _ inside => inside
  | rebuildIndex =>
    have rebuilt := sound.store.rebuild
    unfold CacheWorld.perform
    rw [rebuilt]
    exact ⟨⟨sound.store.built, sound.store.referenced, sound.store.stored⟩,
      fun session cache found => ⟨(sound.caches session cache found).entries, (sound.caches session cache found).refused⟩⟩

theorem new_sound : (new : CacheWorld Pcm).Sound :=
  ⟨⟨fun _ inside => absurd inside not_mem_nil, fun _ inside => absurd inside not_mem_nil,
    fun _ _ named => by cases named⟩, fun _ _ found => by cases found⟩

def Flagged (world : CacheWorld Pcm) : Prop :=
  ∀ session cache, world.sessions session = some cache → ∀ request, request ∈ cache.ambiguous ↔ Disputed world.store request

theorem Sound.honest_iff (sound : world.Sound) : world.Honest ↔ world.Flagged := by
  refine ⟨Honest.flagged, fun flagged => ⟨flagged, ?_, ?_⟩⟩
  · intro session cache found spec product answer
    obtain ⟨silent, answers, -⟩ := hydrate_spec sound.store (sound.caches session cache found) spec
    by_cases known : tileProductRequest spec ∈ cache.ambiguous
    · rw [silent known] at answer
      cases answer
    · rcases answers known with ⟨none, -⟩ | ⟨error, -, failed⟩ | ⟨receipt, inside, same, key, -, served⟩
      · rw [none] at answer
        cases answer
      · rw [failed] at answer
        cases answer
      · rw [served] at answer
        cases answer
        obtain ⟨origin, done, request⟩ := sound.store.built receipt inside
        exact ⟨receipt, inside, same, derivation_matches done (request.trans same), rfl⟩
  · intro session cache found spec key done receipt inside same agreed
    obtain ⟨-, answers, -⟩ := hydrate_spec sound.store (sound.caches session cache found) spec
    have known : tileProductRequest spec ∉ cache.ambiguous := fun known => agreed ((flagged session cache found _).mp known)
    rcases answers known with ⟨-, absent⟩ | ⟨error, failed, -⟩ | ⟨other, inside', same', key', done', served⟩
    · exact absurd same (absent receipt inside)
    · rw [done] at failed
      cases failed
    · rw [done] at done'
      cases done'
      have alike : other.payload = receipt.payload := by
        by_contra differs
        exact agreed ⟨other, inside', receipt, inside, same', same, differs⟩
      rw [served, alike]

theorem disputed_grown {grown : ReceiptStore Pcm} {receipt : RenderProductReceipt Pcm}
    (grows : ∀ other, other ∈ grown.receipts ↔ other ∈ store.receipts ∨ other = receipt) (request : TileProductRequest) :
    Disputed grown request ↔ Disputed store request ∨ request = receipt.request ∧
      ∃ other ∈ store.receipts, other.request = receipt.request ∧ other.payload ≠ receipt.payload := by
  constructor
  · rintro ⟨a, a', b, b', same, same', differs⟩
    rcases (grows a).mp a' with a' | rfl <;> rcases (grows b).mp b' with b' | rfl
    · exact .inl ⟨a, a', b, b', same, same', differs⟩
    · exact .inr ⟨same'.symm, a, a', same.trans same'.symm, differs⟩
    · exact .inr ⟨same.symm, b, b', same'.trans same.symm, differs.symm⟩
    · exact absurd rfl differs
  · rintro (⟨a, a', b, b', parts⟩ | ⟨rfl, other, inside, same, differs⟩)
    · exact ⟨a, (grows a).mpr (.inl a'), b, (grows b).mpr (.inl b'), parts⟩
    · exact ⟨other, (grows other).mpr (.inl inside), receipt, (grows receipt).mpr (.inr rfl), same, rfl, differs⟩

def Uniform (store : ReceiptStore Pcm) : Prop :=
  ∀ a ∈ store.receipts, ∀ b ∈ store.receipts, a.request = b.request → ¬ Disputed store a.request → a = b

/-- What has held as long as the cache has kept its promise. -/
structure Settled (world : CacheWorld Pcm) : Prop where
  sound : world.Sound
  flagged : world.Flagged
  uniform : Uniform world.store

section Publication

variable {product : TileProduct Pcm}

section

variable (settled : world.Settled) (found : world.sessions session = some cache) (done : spec.productKey = .ok product.producedBy)
include settled found done

theorem Settled.flags {other : RenderProductReceipt Pcm} (inside : other ∈ world.store.receipts)
    (same : other.request = tileProductRequest spec) (differs : other ≠ receiptFor spec product) :
    tileProductRequest spec ∈ (cache.publish world.store spec product).2.2.ambiguous := by
  obtain ⟨-, -, -, flags⟩ := publish_spec settled.sound.store (settled.sound.caches _ _ found) done
  rw [flags]
  by_cases disputed : Disputed world.store (tileProductRequest spec)
  · exact .inl ((settled.flagged session cache found _).mpr disputed)
  · obtain ⟨existing, named⟩ := Option.isSome_iff_exists.mp (settled.sound.store.referenced other inside)
    obtain ⟨inside', same'⟩ := settled.sound.store.stored _ _ named
    rw [same] at named same'
    have one := settled.uniform existing inside' other inside (same'.trans same.symm) (same' ▸ disputed)
    exact .inr ⟨rfl, .inl ⟨existing, named, one ▸ differs⟩⟩

theorem Settled.publish_iff :
    (world.perform (.publish session spec product)).Flagged ↔ world.Careful (.publish session spec product) := by
  obtain ⟨-, receipts, -, flags⟩ := publish_spec settled.sound.store (settled.sound.caches _ _ found) done
  have grows : ∀ other, other ∈ (cache.publish world.store spec product).2.1.receipts ↔
      other ∈ world.store.receipts ∨ other = receiptFor spec product := by
    intro other
    rw [receipts]
    exact mem_putBytes
  have disputes := disputed_grown grows
  rw [perform_publish found]
  constructor
  · intro flagged _ _
    by_cases repeated : ∀ receipt ∈ world.store.receipts, receipt.request = tileProductRequest spec →
        receipt = receiptFor spec product
    · exact .inl repeated
    push Not at repeated
    obtain ⟨other, inside, same, differs⟩ := repeated
    have own := settled.flags found done inside same differs
    have disputed := (flagged session _ (sessions_put_self ..) _).mp own
    refine .inr ⟨?_, fun number held apart open' => ?_⟩
    · rcases (disputes _).mp disputed with before | ⟨-, disagrees⟩
      · obtain ⟨a, a', b, b', aSame, bSame, apart⟩ := before
        by_cases first : a.payload = product.pcm
        · exact ⟨b, b', bSame, fun second => apart (first.trans second.symm)⟩
        · exact ⟨a, a', aSame, first⟩
      · exact disagrees
    · exact (flagged number held ((sessions_put_other world apart ..).trans open') _).mpr disputed
  · intro careful number held open' request
    rcases careful (Option.isSome_iff_exists.mpr ⟨cache, found⟩) done with repeated | ⟨⟨other, inside, same, differs⟩, flagged⟩
    · have unchanged : Disputed (cache.publish world.store spec product).2.1 request ↔ Disputed world.store request := by
        rw [disputes]
        refine or_iff_left ?_
        rintro ⟨-, other, inside, same, differs⟩
        exact differs (congrArg payload (repeated other inside same))
      refine Iff.trans ?_ unchanged.symm
      rcases sessions_put open' with ⟨-, rfl⟩ | ⟨-, open'⟩
      · rw [flags, ← settled.flagged session cache found]
        refine or_iff_left ?_
        rintro ⟨-, ⟨existing, named, differs⟩ | ⟨existing, entered, differs⟩⟩
        · obtain ⟨inside, same⟩ := settled.sound.store.stored _ _ named
          exact differs (repeated existing inside same)
        · obtain ⟨inside, same⟩ := (settled.sound.caches _ _ found).entries _ _ entered
          exact differs (congrArg payload (repeated existing inside same))
      · exact settled.flagged number held open' request
    · have disputed : Disputed (cache.publish world.store spec product).2.1 request ↔
          Disputed world.store request ∨ request = tileProductRequest spec := by
        rw [disputes]
        exact or_congr_right (and_iff_left ⟨other, inside, same, differs⟩)
      refine Iff.trans ?_ disputed.symm
      rcases sessions_put open' with ⟨-, rfl⟩ | ⟨apart, open'⟩
      · constructor
        · intro known
          exact ((flags request).mp known).imp (settled.flagged session cache found request).mp And.left
        · rintro (before | rfl)
          · exact (flags request).mpr (.inl ((settled.flagged session cache found request).mpr before))
          · exact settled.flags found done inside same fun one => differs (congrArg payload one)
      · constructor
        · intro known
          exact .inl ((settled.flagged number held open' request).mp known)
        · rintro (before | rfl)
          · exact (settled.flagged number held open' request).mpr before
          · exact flagged number held apart open'

end

end Publication

theorem Flagged.put_same (found : world.sessions session = some cache)
    (same : held.ambiguous = cache.ambiguous) : (world.put session world.store held).Flagged ↔ world.Flagged := by
  constructor
  · intro flagged number other open' request
    by_cases apart : number = session
    · subst apart
      rw [found] at open'
      cases open'
      rw [← same]
      exact flagged number held (sessions_put_self ..) request
    · exact flagged number other ((sessions_put_other world apart ..).trans open') request
  · intro flagged number other open' request
    rcases sessions_put open' with ⟨-, rfl⟩ | ⟨-, open'⟩
    · rw [same]
      exact flagged session cache found request
    · exact flagged number other open' request

theorem Settled.perform_iff (settled : world.Settled) (action : CacheAction Pcm) :
    (world.perform action).Flagged ↔ world.Careful action := by
  cases action with
  | openCache session =>
    constructor
    · intro flagged request disputed
      have known := (flagged session .open (sessions_put_self ..) request).mpr disputed
      exact absurd known (Finset.notMem_empty request)
    · intro agreed number held open' request
      rcases sessions_put open' with ⟨-, rfl⟩ | ⟨-, open'⟩
      · exact iff_of_false (Finset.notMem_empty request) (agreed request)
      · exact settled.flagged number held open' request
  | publish session spec product =>
    cases found : world.sessions session with
    | none =>
      rw [perform_publish_closed found]
      refine iff_of_true settled.flagged fun opened => ?_
      rw [found] at opened
      cases opened
    | some cache =>
      by_cases done : spec.productKey = .ok product.producedBy
      · exact settled.publish_iff found done
      · rw [perform_publish found, publish_refused done, Flagged.put_same found rfl]
        exact iff_of_true settled.flagged fun _ accepted => absurd accepted done
  | hydrate session spec =>
    refine iff_of_true ?_ trivial
    cases found : world.sessions session with
    | none =>
      rw [perform_hydrate_closed found]
      exact settled.flagged
    | some cache =>
      obtain ⟨-, -, still, -, same⟩ := hydrate_spec settled.sound.store (settled.sound.caches session cache found) spec
      rw [perform_hydrate found, still, Flagged.put_same found same]
      exact settled.flagged
  | rebuildIndex =>
    refine iff_of_true ?_ trivial
    unfold perform
    rw [settled.sound.store.rebuild]
    exact settled.flagged

theorem Uniform.of_same {other : ReceiptStore Pcm} (uniform : Uniform store) (same : other.receipts = store.receipts) :
    Uniform other := by
  unfold Uniform Disputed at uniform ⊢
  rw [same]
  exact uniform

theorem Settled.perform (settled : world.Settled) {action : CacheAction Pcm} (flagged : (world.perform action).Flagged) :
    (world.perform action).Settled := by
  refine ⟨settled.sound.perform action, flagged, ?_⟩
  cases action with
  | openCache session => exact settled.uniform
  | publish session spec product =>
    cases found : world.sessions session with
    | none =>
      rw [perform_publish_closed found]
      exact settled.uniform
    | some cache =>
      by_cases done : spec.productKey = .ok product.producedBy
      · have careful := (settled.perform_iff _).mp flagged (Option.isSome_iff_exists.mpr ⟨cache, found⟩) done
        obtain ⟨-, receipts, -⟩ := publish_spec settled.sound.store (settled.sound.caches _ _ found) done
        have grows : ∀ other, other ∈ (cache.publish world.store spec product).2.1.receipts ↔
            other ∈ world.store.receipts ∨ other = receiptFor spec product := by
          intro other
          rw [receipts]
          exact mem_putBytes
        have repeats (agreed : ¬ Disputed (cache.publish world.store spec product).2.1 (tileProductRequest spec)) :
            ∀ receipt ∈ world.store.receipts, receipt.request = tileProductRequest spec →
              receipt = receiptFor spec product := by
          rcases careful with repeated | ⟨disagrees, -⟩
          · exact repeated
          · exact absurd ((disputed_grown grows _).mpr (.inr ⟨rfl, disagrees⟩)) agreed
        rw [perform_publish found]
        intro a a' b b' same agreed
        rcases (grows a).mp a' with a' | rfl <;> rcases (grows b).mp b' with b' | rfl
        · exact settled.uniform a a' b b' same fun before => agreed ((disputed_grown grows _).mpr (.inl before))
        · have home : a.request = tileProductRequest spec := same
          exact repeats (home ▸ agreed) a a' home
        · exact (repeats agreed b b' same.symm).symm
        · rfl
      · rw [perform_publish found, publish_refused done]
        exact settled.uniform
  | hydrate session spec =>
    cases found : world.sessions session with
    | none =>
      rw [perform_hydrate_closed found]
      exact settled.uniform
    | some cache =>
      obtain ⟨-, -, still, -⟩ := hydrate_spec settled.sound.store (settled.sound.caches session cache found) spec
      rw [perform_hydrate found, still]
      exact settled.uniform
  | rebuildIndex =>
    refine settled.uniform.of_same ?_
    unfold CacheWorld.perform
    rw [settled.sound.store.rebuild]

theorem new_settled : (new : CacheWorld Pcm).Settled :=
  ⟨new_sound, fun _ _ found => (by cases found), fun _ inside => absurd inside not_mem_nil⟩

theorem flags_exact : Exact (perform : CacheWorld Pcm → _) (· = new) Settled Honest Careful where
  base _ fresh := fresh ▸ new_settled
  step _ action settled := (settled.sound.perform action).honest_iff.trans (settled.perform_iff action)
  keep _ _ settled honest := settled.perform honest.flagged

section Example

theorem undisputed {store : ReceiptStore Pcm} {pcm : Pcm} (alike : ∀ receipt ∈ store.receipts, receipt.payload = pcm)
    (request : TileProductRequest) : ¬ Disputed store request := by
  rintro ⟨a, a', b, b', -, -, differs⟩
  exact differs ((alike a a').trans (alike b b').symm)

def firstKey (arrangement : U64) : RenderProductKey :=
  ⟨(tilePlan arrangement).id, .master, ⟨.saturate 0, .saturate 16⟩, .tile sixteen (.saturate 0), plainRecipe⟩

theorem firstKey_made (arrangement : U64) : (tileOf arrangement 0 0 16).productKey = .ok (firstKey arrangement) := by
  have inside : RenderSpan.containsSpan ⟨.saturate 0, .saturate 32⟩ ⟨.saturate 0, .saturate 16⟩ = true := by decide
  have whole : checkPartition ⟨.saturate 0, .saturate 32⟩ ⟨.saturate 0, .saturate 16⟩ (.tile sixteen (.saturate 0)) = .ok () := by
    decide
  unfold TileRenderSpec.productKey RenderProductKey.new
  exact bind_unit_ok.mpr ⟨ensure_ok.mpr inside, bind_unit_ok.mpr ⟨whole, rfl⟩⟩

def publishFirst (session : Nat) (arrangement : U64) : CacheAction Nat :=
  .publish session (tileOf arrangement 0 0 16) ⟨7, firstKey arrangement⟩

def republished : List (CacheAction Nat) :=
  [.openCache 0, publishFirst 0 0, .openCache 1, .hydrate 1 (tileOf 0 0 0 16), publishFirst 1 0, .rebuildIndex]

def twoRevisions : List (CacheAction Nat) := [.openCache 0, publishFirst 0 0, .openCache 1, publishFirst 1 1]

end Example

end CacheWorld

end Audec.Render

import Audec.Render.Tiles
import Audec.Lib.Runs

/-! The restart cache of rendered tiles: receipts in one content store, a request index over them, and the sessions that
    publish and adopt. A digest stands for what it is the digest of. -/

open Machine Checked Runs

namespace Audec.Render

structure TileProductRequest where
  schemaVersion : U16
  snapshot : ExactDigest
  compiledExtent : RenderSpan
  engine : EngineRecipeStamp
  scope : RenderScope
  tileFrames : U32
  index : I64
  core : RenderSpan
  context : RenderSpan
  boundaryRecipe : ExactDigest
  dependencies : List RenderDependencyStamp
  deriving DecidableEq

section

variable (spec : TileRenderSpec)

/-- Revision counters and the project namespace are left out. -/
def tileProductRequest : TileProductRequest where
  schemaVersion := spec.plan.schemaVersion
  snapshot := spec.plan.snapshot
  compiledExtent := spec.plan.compiledExtent
  engine := spec.plan.engine
  scope := spec.scope
  tileFrames := spec.grid.tileFrames
  index := spec.index
  core := spec.core
  context := spec.context
  boundaryRecipe := spec.boundaryRecipe
  dependencies := spec.plan.dependencies

def TileRenderSpec.productKey : Except RenderProductError RenderProductKey :=
  RenderProductKey.new spec.plan spec.scope spec.core (.tile spec.grid spec.index) spec.boundaryRecipe

def persistedDerivationMatches (key : RenderProductKey) : Bool :=
  key.plan.schemaVersion = spec.plan.schemaVersion && key.plan.snapshot = spec.plan.snapshot &&
    key.plan.compiledExtent = spec.plan.compiledExtent && key.plan.engine = spec.plan.engine &&
    key.plan.dependencies = spec.plan.dependencies && key.scope = spec.scope && key.core = spec.core &&
    key.boundaryRecipe = spec.boundaryRecipe && key.partition = .tile spec.grid spec.index

end

structure TileProduct (Pcm : Type) where
  pcm : Pcm
  producedBy : RenderProductKey

structure RenderProductReceipt (Pcm : Type) where
  payload : Pcm
  request : TileProductRequest
  producedBy : RenderProductKey
  deriving DecidableEq

def RenderProductReceipt.id {Pcm : Type} (receipt : RenderProductReceipt Pcm) : Pcm × RenderFormat × U64 :=
  (receipt.payload, receipt.producedBy.plan.engine.format, receipt.producedBy.core.len)

def RenderProductReceipt.isTile {Pcm : Type} (receipt : RenderProductReceipt Pcm) : Bool :=
  match receipt.producedBy.partition with
  | .tile _ _ => true
  | _ => false

inductive TileProductCacheError where
  | product (error : RenderProductError)
  | invalid (index : I64)

structure TileProductCacheDiagnostic (Pcm : Type) where
  code : String
  manifest : RenderProductReceipt Pcm

inductive ReferenceWrite (Pcm : Type) where
  | created
  | present (existing : RenderProductReceipt Pcm)

variable {Pcm : Type} [DecidableEq Pcm]

structure ReceiptStore (Pcm : Type) where
  receipts : List (RenderProductReceipt Pcm)
  references : TileProductRequest → Option (RenderProductReceipt Pcm)
  marked : Bool

namespace ReceiptStore

def empty : ReceiptStore Pcm := ⟨[], fun _ => none, false⟩

variable (store : ReceiptStore Pcm)

def putBytes (store : ReceiptStore Pcm) (receipt : RenderProductReceipt Pcm) : ReceiptStore Pcm :=
  if receipt ∈ store.receipts then store else { store with receipts := store.receipts ++ [receipt] }

def putReference (store : ReceiptStore Pcm) (name : TileProductRequest) (receipt : RenderProductReceipt Pcm) :
    ReferenceWrite Pcm × ReceiptStore Pcm :=
  match store.references name with
  | some existing => (.present existing, store)
  | none => (.created, { store with references := Function.update store.references name (some receipt) })

def removeReference (store : ReceiptStore Pcm) (name : TileProductRequest) : ReceiptStore Pcm :=
  { store with references := Function.update store.references name none }

def indexStored (store : ReceiptStore Pcm) (receipt : RenderProductReceipt Pcm) : ReceiptStore Pcm :=
  if receipt.isTile then (store.putReference receipt.request receipt).2 else store

def rebuildRenderRequestIndex (store : ReceiptStore Pcm) : ReceiptStore Pcm :=
  { store.receipts.foldl indexStored store with marked := true }

end ReceiptStore

structure TileProductCache (Pcm : Type) where
  entries : TileProductRequest → Option (RenderProductReceipt Pcm)
  ambiguous : Finset TileProductRequest
  refused : Finset TileProductRequest
  diagnostics : List (TileProductCacheDiagnostic Pcm)

namespace TileProductCache

def «open» : TileProductCache Pcm := ⟨fun _ => none, ∅, ∅, []⟩

variable (cache : TileProductCache Pcm)

def forget (cache : TileProductCache Pcm) (request : TileProductRequest) (code : String) (manifest : RenderProductReceipt Pcm) :
    TileProductCache Pcm :=
  { cache with entries := Function.update cache.entries request none,
               diagnostics := cache.diagnostics ++ [⟨code, manifest⟩] }

def refuse (cache : TileProductCache Pcm) (request : TileProductRequest) (code : String) (manifest : RenderProductReceipt Pcm) :
    TileProductCache Pcm :=
  { cache with refused := insert request cache.refused, diagnostics := cache.diagnostics ++ [⟨code, manifest⟩] }

def flag (cache : TileProductCache Pcm) (receipt : RenderProductReceipt Pcm) : TileProductCache Pcm :=
  { cache.forget receipt.request "ambiguous-render-request" receipt with
    ambiguous := insert receipt.request cache.ambiguous }

def adopt (cache : TileProductCache Pcm) (receipt : RenderProductReceipt Pcm) : TileProductCache Pcm :=
  if receipt.request ∈ cache.ambiguous then cache
  else
    match cache.entries receipt.request with
    | some existing => if existing.id ≠ receipt.id then cache.flag receipt else cache
    | none => { cache with entries := Function.update cache.entries receipt.request (some receipt) }

section

variable (store : ReceiptStore Pcm)

def indexReceipt (receipt : RenderProductReceipt Pcm) :
    ReceiptStore Pcm × TileProductCache Pcm :=
  match store.putReference receipt.request receipt with
  | (.created, written) => (written, cache)
  | (.present existing, written) => if existing = receipt then (written, cache) else (written, cache.flag receipt)

def adoptFromIndex (request : TileProductRequest) :
    ReceiptStore Pcm × TileProductCache Pcm :=
  match store.references request with
  | none => (store, cache)
  | some receipt =>
    if receipt ∉ store.receipts then
      (store.removeReference request, cache.refuse request "render-receipt-rejected" receipt)
    else if receipt.request ≠ request ∨ receipt.isTile = false then
      (store.removeReference request, cache.refuse request "render-index-disagrees" receipt)
    else (store, cache.adopt receipt)

def restore (spec : TileRenderSpec) :
    Except TileProductCacheError (Option (TileProduct Pcm)) × ReceiptStore Pcm × TileProductCache Pcm :=
  match cache.entries (tileProductRequest spec) with
  | none => (.ok none, store, cache)
  | some receipt =>
    if persistedDerivationMatches spec receipt.producedBy = false then
      (.ok none, store, cache.forget (tileProductRequest spec) "stale-render-receipt" receipt)
    else
      match spec.productKey with
      | .error error => (.error (.product error), store, cache)
      | .ok key => (.ok (some ⟨receipt.payload, key⟩), store, cache)

def hydrate (spec : TileRenderSpec) :
    Except TileProductCacheError (Option (TileProduct Pcm)) × ReceiptStore Pcm × TileProductCache Pcm :=
  let request := tileProductRequest spec
  if request ∈ cache.ambiguous ∨ request ∈ cache.refused then (.ok none, store, cache)
  else if (cache.entries request).isSome then cache.restore store spec
  else
    let adopted := cache.adoptFromIndex store request
    adopted.2.restore adopted.1 spec

end

def receiptFor (spec : TileRenderSpec) (product : TileProduct Pcm) : RenderProductReceipt Pcm :=
  ⟨product.pcm, tileProductRequest spec, product.producedBy⟩

def publish (cache : TileProductCache Pcm) (store : ReceiptStore Pcm) (spec : TileRenderSpec) (product : TileProduct Pcm) :
    Except TileProductCacheError Unit × ReceiptStore Pcm × TileProductCache Pcm :=
  match spec.productKey with
  | .error error => (.error (.product error), store, cache)
  | .ok key =>
    if product.producedBy ≠ key then (.error (.invalid spec.index), store, cache)
    else
      let receipt := receiptFor spec product
      let indexed := indexReceipt
        { cache with refused := cache.refused.erase receipt.request } (store.putBytes receipt) receipt
      (.ok (), indexed.1, indexed.2.adopt receipt)

end TileProductCache

structure CacheWorld (Pcm : Type) where
  store : ReceiptStore Pcm
  sessions : Nat → Option (TileProductCache Pcm)

inductive CacheAction (Pcm : Type) where
  | openCache (session : Nat)
  | publish (session : Nat) (spec : TileRenderSpec) (product : TileProduct Pcm)
  | hydrate (session : Nat) (spec : TileRenderSpec)
  | rebuildIndex

namespace CacheWorld

def new : CacheWorld Pcm := ⟨.empty, fun _ => none⟩

def put (world : CacheWorld Pcm) (session : Nat) (store : ReceiptStore Pcm) (cache : TileProductCache Pcm) : CacheWorld Pcm :=
  ⟨store, Function.update world.sessions session (some cache)⟩

def perform (world : CacheWorld Pcm) : CacheAction Pcm → CacheWorld Pcm
  | .openCache session => world.put session world.store .open
  | .publish session spec product =>
    match world.sessions session with
    | none => world
    | some cache =>
      let published := cache.publish world.store spec product
      world.put session published.2.1 published.2.2
  | .hydrate session spec =>
    match world.sessions session with
    | none => world
    | some cache =>
      let hydrated := cache.hydrate world.store spec
      world.put session hydrated.2.1 hydrated.2.2
  | .rebuildIndex => { world with store := world.store.rebuildRenderRequestIndex }

end CacheWorld

end Audec.Render

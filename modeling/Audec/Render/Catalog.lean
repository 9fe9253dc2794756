import Audec.Lib.Runs
import Audec.Media.Retention
import Audec.Render.Products

/-! Resident render products under one byte budget, shared with the callers that hold them. -/

open Machine Codes Entries Weights Runs
open Audec.Media (PinnedLru)
open Std (ExtTreeMap)

namespace Audec.Render

open Option

namespace RenderProductId

/-- Field by field, as the derived order compares. -/
def code (id : RenderProductId) : List Int :=
  id.pcm.bytes.toList.map (fun byte => (byte.toNat : Int)) ++ [(id.format.sampleRate.val : Int), id.format.channels.val, id.frames.val]

theorem code_injective : Function.Injective code := by
  rintro ⟨⟨bytes⟩, format, frames⟩ ⟨⟨bytes'⟩, format', frames'⟩ same
  obtain ⟨digests, rest⟩ := List.append_inj same (by simp)
  have bytesInjective : Function.Injective fun byte : UInt8 => (byte.toNat : Int) := fun _ _ same => UInt8.toNat_inj.mp (Int.ofNat.inj same)
  have pcm : bytes = bytes' := Vector.toList_inj.mp (List.map_injective_iff.mpr bytesInjective digests)
  obtain ⟨sampleRate, channels, rate, some⟩ := format
  obtain ⟨sampleRate', channels', rate', some'⟩ := format'
  simp only [List.cons.injEq, Nat.cast_inj, Fin.val_inj, and_true] at rest
  obtain ⟨rfl, rfl, rfl⟩ := rest
  rw [pcm]

instance linearOrder : LinearOrder RenderProductId := codedOrder code code_injective

instance transOrd : Std.TransOrd RenderProductId := inferInstance

instance lawfulEqOrd : Std.LawfulEqOrd RenderProductId := ⟨compare_eq_iff_eq.mp⟩

end RenderProductId

def RenderProduct.payloadBitsEqual (product other : RenderProduct) : Bool :=
  product.id = other.id && product.interleaved.length = other.interleaved.length &&
    (product.interleaved.zip other.interleaved).all fun samples => samples.1.toBits = samples.2.toBits

structure ProductHandle where
  wrapper : Nat
  allocation : Nat
  product : RenderProduct

structure RenderProductCatalog where
  products : ExtTreeMap RenderProductId ProductHandle
  residents : PinnedLru RenderProductId

structure RenderCatalogAccounting where
  residentBytes : U64
  budgetBytes : U64
  entries : Nat
  evictions : U64
  overBudget : Bool

namespace RenderProductCatalog

def new (budgetBytes : U64) : RenderProductCatalog := ⟨∅, .new budgetBytes⟩

def accounting (catalog : RenderProductCatalog) : RenderCatalogAccounting :=
  ⟨catalog.residents.bytes, catalog.residents.budgetBytes, catalog.products.size, catalog.residents.evictions, catalog.residents.overBudget⟩

section

variable (products : ExtTreeMap RenderProductId ProductHandle)

/-- The references to a product, those of the callers and those of the catalog. -/
def strongCount (held : List ProductHandle) (wrapper : Nat) : Nat :=
  held.countP (fun handle => handle.wrapper = wrapper) + count (fun _ handle => handle.wrapper = wrapper) products

def isLive (held : List ProductHandle) (id : RenderProductId) : Bool :=
  products[id]?.any fun handle => 1 < strongCount products held handle.wrapper

end

def residentBytes (product : RenderProduct) : U64 := Fin.ofNat _ (min (product.interleaved.length * 4) 0xffffffffffffffff)

def trimToBudget (catalog : RenderProductCatalog) (held : List ProductHandle) : RenderProductCatalog :=
  let (residents, evicted) := catalog.residents.trim (isLive catalog.products held)
  ⟨evicted.foldl (fun products id => products.erase id) catalog.products, residents⟩

def setBudget (catalog : RenderProductCatalog) (held : List ProductHandle) (budgetBytes : U64) : RenderProductCatalog :=
  trimToBudget { catalog with residents := catalog.residents.setBudget budgetBytes } held

def get (catalog : RenderProductCatalog) (id : RenderProductId) : RenderProductCatalog × Option ProductHandle :=
  match catalog.products[id]? with
  | none => (catalog, none)
  | some product => ({ catalog with residents := (catalog.residents.touch id).1 }, some product)

/-- Another derivation of resident samples is given them in a wrapper of its own. -/
def insert (catalog : RenderProductCatalog) (held : List ProductHandle) (address : Nat) (product : ProductHandle) :
    Except RenderProductError (RenderProductCatalog × ProductHandle) :=
  match catalog.products[product.product.id]? with
  | some existing =>
    if existing.product.payloadBitsEqual product.product = false then .error (.digestCollision product.product.id)
    else if existing.product.producedBy = product.product.producedBy then .ok (catalog, existing)
    else .ok ({ catalog with residents := (catalog.residents.touch product.product.id).1 },
      ⟨address, existing.allocation, ⟨product.product.id, product.product.producedBy, existing.product.interleaved⟩⟩)
  | none =>
    let products := catalog.products.insert product.product.id product
    let (residents, evicted) :=
      catalog.residents.forceAdmit product.product.id (residentBytes product.product) (isLive products (product :: held))
    .ok (⟨evicted.foldl (fun products id => products.erase id) products, residents⟩, product)

end RenderProductCatalog

structure Holding where
  handle : ProductHandle
  returned : Bool

structure CatalogUse where
  catalog : RenderProductCatalog
  holdings : List Holding
  fresh : Nat

inductive CatalogAction where
  | make (product : RenderProduct)
  | share (index : Nat) (id : RenderProductId) (producedBy : RenderProductKey)
  | clone (index : Nat)
  | drop (index : Nat)
  | get (id : RenderProductId)
  | insert (index : Nat)
  | setBudget (budgetBytes : U64)
  | trim

namespace CatalogUse

def held (shared : CatalogUse) : List ProductHandle := shared.holdings.map Holding.handle

/-- A caller's own handle. -/
def own (shared : CatalogUse) (allocation : Nat) (product : RenderProduct) : CatalogUse :=
  { shared with holdings := ⟨⟨shared.fresh, allocation, product⟩, false⟩ :: shared.holdings, fresh := shared.fresh + 1 }

def insert (shared : CatalogUse) (index : Nat) (holding : Holding) : CatalogUse :=
  match shared.catalog.insert ((shared.holdings.eraseIdx index).map Holding.handle) shared.fresh holding.handle with
  | .error _ => { shared with holdings := shared.holdings.eraseIdx index }
  | .ok (catalog, handle) => ⟨catalog, ⟨handle, true⟩ :: shared.holdings.eraseIdx index, shared.fresh + 1⟩

def perform (shared : CatalogUse) : CatalogAction → CatalogUse
  | .make product => shared.own shared.fresh product
  | .share index id producedBy =>
    shared.holdings[index]?.elim shared fun holding => shared.own holding.handle.allocation ⟨id, producedBy, holding.handle.product.interleaved⟩
  | .clone index => { shared with holdings := shared.holdings[index]?.toList ++ shared.holdings }
  | .drop index => { shared with holdings := shared.holdings.eraseIdx index }
  | .get id =>
    let (catalog, product) := shared.catalog.get id
    { shared with catalog, holdings := product.toList.map (⟨·, true⟩) ++ shared.holdings }
  | .insert index => shared.holdings[index]?.elim shared (shared.insert index)
  | .setBudget budgetBytes => { shared with catalog := shared.catalog.setBudget shared.held budgetBytes }
  | .trim => { shared with catalog := shared.catalog.trimToBudget shared.held }

/-- Some caller holds a reference to the product itself. -/
def live (shared : CatalogUse) (id : RenderProductId) : Bool := RenderProductCatalog.isLive shared.catalog.products shared.held id

def pass (shared : CatalogUse) : CatalogAction → Option (Nat × Nat)
  | .insert index => shared.holdings[index]?.bind fun holding =>
    if holding.handle.product.id ∈ shared.catalog.products then none
    else some (shared.catalog.residents.bytes.val + (RenderProductCatalog.residentBytes holding.handle.product).val,
      shared.catalog.residents.budgetBytes.val)
  | .setBudget budgetBytes => some (shared.catalog.residents.bytes.val, budgetBytes.val)
  | .trim => some (shared.catalog.residents.bytes.val, shared.catalog.residents.budgetBytes.val)
  | .make _ | .share _ _ _ | .clone _ | .drop _ | .get _ => none

def olderBytes (shared : CatalogUse) (id : RenderProductId) : Nat := shared.catalog.residents.olderBytes none shared.live id

section

variable (shared : CatalogUse)

def Heard (product : ProductHandle) : Prop :=
  ∃ holding ∈ shared.holdings, holding.returned = true ∧ holding.handle.allocation = product.allocation

/-- A product whose samples are held, but that is not itself, is reached by no pass. -/
def Spares (required budget : Nat) : Prop :=
  ∀ id product, shared.catalog.products[id]? = some product → shared.live id = false → shared.Heard product → required ≤ budget + shared.olderBytes id

def Countable (action : CatalogAction) : Prop :=
  ∀ required budget, shared.pass action = some (required, budget) → required < 0x10000000000000000

def Careful (action : CatalogAction) : Prop :=
  shared.Countable action ∧ ∀ required budget, shared.pass action = some (required, budget) → shared.Spares required budget

def holds (product : ProductHandle) : Bool := shared.held.any fun handle => handle.wrapper = product.wrapper

def heldBytes : Nat :=
  weigh (fun product => if shared.holds product then (RenderProductCatalog.residentBytes product.product).val else 0) shared.catalog.products

def keptBytes : Nat :=
  weigh (fun product => if shared.holds product then 0 else (RenderProductCatalog.residentBytes product.product).val) shared.catalog.products

end

end CatalogUse

structure Addressed (owners : List ProductHandle) (fresh : Nat) : Prop where
  same : ∀ a ∈ owners, ∀ b ∈ owners, a.wrapper = b.wrapper → a = b
  below : ∀ a ∈ owners, a.wrapper < fresh

namespace Addressed

variable {owners : List ProductHandle} {fresh : Nat}

theorem mono (addressed : Addressed owners fresh) {others : List ProductHandle} {later : Nat} (fewer : others ⊆ owners) (less : fresh ≤ later) :
    Addressed others later :=
  ⟨fun a inside b inside' => addressed.same a (fewer inside) b (fewer inside'), fun a inside => lt_of_lt_of_le (addressed.below a (fewer inside)) less⟩

theorem cons_fresh (addressed : Addressed owners fresh) (allocation : Nat) (product : RenderProduct) :
    Addressed (⟨fresh, allocation, product⟩ :: owners) (fresh + 1) := by
  constructor
  · intro a inside b inside' wrappers
    rcases List.mem_cons.mp inside with rfl | old <;> rcases List.mem_cons.mp inside' with rfl | old'
    · rfl
    · exact absurd (addressed.below b old') (by rw [← wrappers]; exact lt_irrefl _)
    · exact absurd (addressed.below a old) (by rw [wrappers]; exact lt_irrefl _)
    · exact addressed.same a old b old' wrappers
  · intro a inside
    rcases List.mem_cons.mp inside with rfl | old
    · exact Nat.lt_succ_self _
    · exact Nat.lt_succ_of_lt (addressed.below a old)

end Addressed

namespace RenderProductCatalog

variable {catalog : RenderProductCatalog}

structure Accounts (catalog : RenderProductCatalog) : Prop where
  named : ∀ (id : RenderProductId) handle, catalog.products[id]? = some handle → handle.product.id = id
  entries : ∀ id : RenderProductId, catalog.residents.entries[id]?.map Audec.Media.LruEntry.bytes =
    catalog.products[id]?.map fun handle => residentBytes handle.product
  summed : catalog.residents.Summed

variable {id : RenderProductId}

theorem Accounts.absent (accounts : catalog.Accounts) : catalog.residents.entries[id]? = none ↔ catalog.products[id]? = none := by
  have entries := accounts.entries id
  rw [← map_eq_none_iff, entries, map_eq_none_iff]

variable {handle : ProductHandle} {products : ExtTreeMap RenderProductId ProductHandle}
  {residents : PinnedLru RenderProductId} {live : RenderProductId → Bool} {evicted : List RenderProductId}

theorem Accounts.entry (accounts : catalog.Accounts) (held : catalog.products[id]? = some handle) :
    ∃ entry, catalog.residents.entries[id]? = some entry ∧ entry.bytes = residentBytes handle.product := by
  have entries := accounts.entries id
  rw [held, map_some, map_eq_some_iff] at entries
  exact entries

theorem isLive_iff {held : List ProductHandle}
    (named : ∀ (id : RenderProductId) handle, products[id]? = some handle → handle.product.id = id)
    (same : ∀ a ∈ values products, ∀ b ∈ values products, a.wrapper = b.wrapper → a = b) (there : products[id]? = some handle) :
    isLive products held id = true ↔ ∃ other ∈ held, other.wrapper = handle.wrapper := by
  have once : count (fun _ other => other.wrapper = handle.wrapper) (products.erase id) = 0 := by
    unfold count
    rw [List.countP_eq_zero]
    rintro ⟨id', other⟩ member passes
    have there' := mem_toList.mp member
    rw [lookup_erase] at there'
    split at there'
    · cases there'
    · rename_i distinct
      have alike := same other (mem_values.mpr ⟨id', there'⟩) handle (mem_values.mpr ⟨id, there⟩) (of_decide_eq_true passes)
      apply distinct
      rw [← named id handle there, ← named id' other there', alike]
  unfold isLive strongCount
  rw [there, any_some, decide_eq_true_eq, count_held _ there, once, if_pos (decide_eq_true rfl), Nat.zero_add, Nat.lt_add_left_iff_pos,
    List.countP_pos_iff]
  refine exists_congr fun other => and_congr_right fun _ => ?_
  exact decide_eq_true_iff

theorem touch_summed (summed : residents.Summed) (id : RenderProductId) : (residents.touch id).1.Summed := by
  have bytes : (residents.touch id).1.bytes = residents.bytes := by
    unfold PinnedLru.touch
    split <;> rfl
  unfold PinnedLru.Summed at summed ⊢
  rw [bytes, summed]
  refine weigh_congr fun other => ?_
  rw [PinnedLru.lookup_touch]
  split
  · rw [map_map]
    rfl
  · rfl

theorem touch_accounts (accounts : catalog.Accounts) (id : RenderProductId) :
    Accounts { catalog with residents := (catalog.residents.touch id).1 } := by
  refine ⟨accounts.named, fun other => ?_, touch_summed accounts.summed id⟩
  rw [← accounts.entries, PinnedLru.lookup_touch]
  split
  · rw [map_map]
    rfl
  · rfl

structure Swept (catalog : RenderProductCatalog) (live : RenderProductId → Bool) (required budget : Nat) (after : RenderProductCatalog) : Prop where
  accounts : after.Accounts
  kept : ∀ (id : RenderProductId) handle, after.products[id]? = some handle → catalog.products[id]? = some handle
  evicts : ∀ id : RenderProductId, id ∈ catalog.products →
    (id ∉ after.products ↔ live id = false ∧ budget + catalog.residents.olderBytes none live id < required)
  settled : after.residents.overBudget = true → ∀ id ∈ after.products, live id = true
  limit : after.residents.budgetBytes.val = budget

theorem mem_candidates_iff (accounts : catalog.Accounts) :
    (∃ entry, (id, entry) ∈ catalog.residents.candidates none live) ↔ id ∈ catalog.products ∧ live id = false := by
  constructor
  · rintro ⟨entry, member⟩
    obtain ⟨there, -, unheld⟩ := PinnedLru.mem_candidates.mp member
    refine ⟨?_, unheld⟩
    rw [ExtTreeMap.mem_iff_isSome_getElem?, isSome_iff_ne_none]
    intro absent
    rw [accounts.absent.mpr absent] at there
    cases there
  · rintro ⟨there, unheld⟩
    obtain ⟨handle, there⟩ := held_of_mem there
    obtain ⟨entry, there, -⟩ := accounts.entry there
    exact ⟨entry, PinnedLru.mem_candidates.mpr ⟨there, nofun, unheld⟩⟩

theorem not_mem_erased
    (there : id ∈ products) : id ∉ evicted.foldl (fun products id => products.erase id) products ↔ id ∈ evicted := by
  rw [ExtTreeMap.mem_iff_isSome_getElem?, lookup_foldl_erase]
  rw [ExtTreeMap.mem_iff_isSome_getElem?] at there
  split
  · rename_i leaves
    simp [leaves]
  · rename_i stays
    simp [stays, there]

theorem trimToBudget_swept (accounts : catalog.Accounts) (held : List ProductHandle) :
    Swept catalog (isLive catalog.products held) catalog.residents.bytes.val catalog.residents.budgetBytes.val (catalog.trimToBudget held) := by
  have passed := PinnedLru.trim_passed accounts.summed (isLive catalog.products held)
  unfold trimToBudget
  generalize catalog.residents.trim (isLive catalog.products held) = trimmed at passed ⊢
  obtain ⟨residents, evicted⟩ := trimmed
  obtain ⟨summed, budget, -, lookup, evicts, -, freed⟩ := passed
  dsimp only at *
  have found (id : RenderProductId) : (evicted.foldl (fun products id => products.erase id) catalog.products)[id]? =
      if id ∈ evicted then none else catalog.products[id]? := lookup_foldl_erase _ _ _
  refine ⟨⟨fun id handle there => ?_, fun id => ?_, summed⟩, fun id handle there => ?_, fun id there => ?_, fun exceeds id there => ?_, congrArg Fin.val budget⟩
  · rw [found] at there
    split at there
    · cases there
    · exact accounts.named id handle there
  · rw [lookup, found]
    split
    · rfl
    · exact accounts.entries id
  · rw [found] at there
    split at there
    · cases there
    · exact there
  · rw [not_mem_erased there, evicts, mem_candidates_iff accounts]
    exact ⟨fun both => ⟨both.1.2, both.2⟩, fun both => ⟨⟨there, both.1⟩, both.2⟩⟩
  · rw [ExtTreeMap.mem_iff_isSome_getElem?, found] at there
    split at there
    · cases there
    · rename_i stays
      rw [← ExtTreeMap.mem_iff_isSome_getElem?] at there
      rcases freed with enough | all
      · have above : residents.budgetBytes.val < residents.bytes.val := of_decide_eq_true exceeds
        rw [budget] at above
        omega
      · by_contra unheld
        obtain ⟨entry, candidate⟩ := (mem_candidates_iff accounts).mpr ⟨there, Bool.eq_false_iff.mpr unheld⟩
        exact stays (all id entry candidate)

/-- A product that was not there comes in, and what leaves makes room for it. -/
structure Admits (catalog : RenderProductCatalog) (live : RenderProductId → Bool) (product : ProductHandle) (after : RenderProductCatalog) : Prop where
  accounts : after.Accounts
  brought : after.products[product.product.id]? = some product
  kept : ∀ (id : RenderProductId) handle, product.product.id ≠ id → after.products[id]? = some handle → catalog.products[id]? = some handle
  evicts : ∀ id : RenderProductId, id ∈ catalog.products → (id ∉ after.products ↔ live id = false ∧
    catalog.residents.budgetBytes.val + catalog.residents.olderBytes none live id <
      catalog.residents.bytes.val + (residentBytes product.product).val)
  settled : after.residents.overBudget = true → ∀ id ∈ after.products, product.product.id ≠ id → live id = true
  limit : after.residents.budgetBytes = catalog.residents.budgetBytes

inductive Inserted (catalog : RenderProductCatalog) (held : List ProductHandle) (address : Nat) (product : ProductHandle) :
    Except RenderProductError (RenderProductCatalog × ProductHandle) → Prop where
  | collides (existing : ProductHandle) (there : catalog.products[product.product.id]? = some existing)
      (differs : existing.product.payloadBitsEqual product.product = false) :
      Inserted catalog held address product (.error (.digestCollision product.product.id))
  | resident (existing : ProductHandle) (there : catalog.products[product.product.id]? = some existing) :
      Inserted catalog held address product (.ok (catalog, existing))
  | derives (existing : ProductHandle) (there : catalog.products[product.product.id]? = some existing) (derived : RenderProduct) :
      Inserted catalog held address product
        (.ok ({ catalog with residents := (catalog.residents.touch product.product.id).1 }, ⟨address, existing.allocation, derived⟩))
  | admits (absent : catalog.products[product.product.id]? = none) (after : RenderProductCatalog)
      (admitted : Admits catalog (isLive (catalog.products.insert product.product.id product) (product :: held)) product after) :
      Inserted catalog held address product (.ok (after, product))

theorem forced_admits (accounts : catalog.Accounts) {product : ProductHandle}
    (absent : catalog.products[product.product.id]? = none)
    (forced : PinnedLru.Forced catalog.residents product.product.id (residentBytes product.product) live residents evicted) :
    Admits catalog live product
      ⟨evicted.foldl (fun products id => products.erase id) (catalog.products.insert product.product.id product), residents⟩ := by
  obtain ⟨summed, budget, lookup, evicts, freed⟩ := forced
  have stays : product.product.id ∉ evicted := by
    intro leaves
    have there := ((mem_candidates_iff accounts).mp ((evicts _).mp leaves).1).1
    rw [ExtTreeMap.mem_iff_isSome_getElem?, absent] at there
    cases there
  have found (id : RenderProductId) : (evicted.foldl (fun products id => products.erase id)
      (catalog.products.insert product.product.id product))[id]? =
        if product.product.id = id then some product else if id ∈ evicted then none else catalog.products[id]? := by
    rw [lookup_foldl_erase, lookup_insert]
    by_cases same : product.product.id = id
    · subst same
      rw [if_neg stays, if_pos rfl, if_pos rfl]
    · rw [if_neg same, if_neg same]
  have others (id : RenderProductId) (handle : ProductHandle) (distinct : product.product.id ≠ id) (there : (evicted.foldl
      (fun products id => products.erase id) (catalog.products.insert product.product.id product))[id]? = some handle) :
        id ∉ evicted ∧ catalog.products[id]? = some handle := by
    rw [found, if_neg distinct] at there
    split at there
    · cases there
    · rename_i stays
      exact ⟨stays, there⟩
  refine ⟨⟨fun id handle there => ?_, fun id => ?_, summed⟩, ?_, fun id handle distinct there => (others id handle distinct there).2,
    fun id there => ?_, fun exceeds id there distinct => ?_, budget⟩
  · by_cases same : product.product.id = id
    · rw [found, if_pos same] at there
      rw [← some.inj there, same]
    · exact accounts.named id handle (others id handle same there).2
  · rw [lookup, found]
    split
    · rfl
    · split
      · rfl
      · exact accounts.entries id
  · rw [found, if_pos rfl]
  · rw [not_mem_erased (ExtTreeMap.mem_insert.mpr (.inr there)), evicts, mem_candidates_iff accounts]
    exact ⟨fun both => ⟨both.1.2, both.2⟩, fun both => ⟨⟨there, both.1⟩, both.2⟩⟩
  · obtain ⟨handle, there⟩ := held_of_mem there
    obtain ⟨stays, there⟩ := others id handle distinct there
    rcases freed with enough | all
    · have above : residents.budgetBytes.val < residents.bytes.val := of_decide_eq_true exceeds
      rw [budget] at above
      omega
    · by_contra unheld
      have resident : id ∈ catalog.products := by
        exact mem_of_held there
      obtain ⟨entry, candidate⟩ := (mem_candidates_iff accounts).mpr ⟨resident, Bool.eq_false_iff.mpr unheld⟩
      exact stays (all id entry candidate)

theorem insert_inserted (accounts : catalog.Accounts) (held : List ProductHandle) (address : Nat) (product : ProductHandle)
    (fits : catalog.products[product.product.id]? = none →
      catalog.residents.bytes.val + (residentBytes product.product).val < 0x10000000000000000) :
    Inserted catalog held address product (catalog.insert held address product) := by
  unfold insert
  cases there : catalog.products[product.product.id]? with
  | some existing =>
    dsimp only
    split
    · rename_i differs
      exact .collides existing there differs
    · split
      · exact .resident existing there
      · exact .derives existing there _
  | none =>
    have forced := PinnedLru.forceAdmit_forced accounts.summed (accounts.absent.mpr there) (residentBytes product.product)
      (isLive (catalog.products.insert product.product.id product) (product :: held)) (fits there)
    have admitted := forced_admits accounts there forced
    dsimp only
    exact .admits there _ admitted

end RenderProductCatalog

namespace CatalogUse

variable {shared : CatalogUse}

def owners (shared : CatalogUse) : List ProductHandle := shared.held ++ values shared.catalog.products

structure Sound (shared : CatalogUse) : Prop where
  accounts : shared.catalog.Accounts
  addressed : Addressed shared.owners shared.fresh

variable {handle : ProductHandle}

theorem mem_owners : handle ∈ shared.owners ↔ handle ∈ shared.held ∨ ∃ id : RenderProductId, shared.catalog.products[id]? = some handle := by
  unfold owners
  rw [List.mem_append, mem_values]

theorem Sound.live_iff (sound : shared.Sound) {id : RenderProductId} (there : shared.catalog.products[id]? = some handle) :
    shared.live id = true ↔ ∃ other ∈ shared.held, other.wrapper = handle.wrapper :=
  RenderProductCatalog.isLive_iff sound.accounts.named
    (fun a inside b inside' => sound.addressed.same a (List.mem_append_right _ inside) b (List.mem_append_right _ inside')) there

def Evicts (shared : CatalogUse) (action : CatalogAction) (id : RenderProductId) : Prop :=
  ∃ required budget, shared.pass action = some (required, budget) ∧ shared.live id = false ∧ budget + shared.olderBytes id < required

structure Stepped (shared : CatalogUse) (action : CatalogAction) : Prop where
  sound : (shared.perform action).Sound
  evicts : ∀ id ∈ shared.catalog.products, id ∉ (shared.perform action).catalog.products ↔ shared.Evicts action id
  settled : shared.pass action ≠ none → (shared.perform action).catalog.accounting.overBudget = true →
    ∀ id ∈ (shared.perform action).catalog.products, (shared.perform action).live id = true

section Steps

variable {action : CatalogAction} {catalog after : RenderProductCatalog} {holdings : List Holding}

theorem quiet_stepped {fresh : Nat}
    (leads : shared.perform action = ⟨catalog, holdings, fresh⟩) (unpassed : shared.pass action = none) (accounts : catalog.Accounts)
    (products : catalog.products = shared.catalog.products)
    (addressed : Addressed (holdings.map Holding.handle ++ values shared.catalog.products) fresh) : Stepped shared action := by
  rw [← products] at addressed
  refine ⟨?_, fun id there => ⟨fun gone => ?_, ?_⟩, fun passed => absurd unpassed passed⟩
  · rw [leads]
    exact ⟨accounts, addressed⟩
  · rw [leads, products] at gone
    exact absurd there gone
  · rintro ⟨required, budget, passed, -⟩
    rw [unpassed] at passed
    cases passed

theorem Sound.own (sound : shared.Sound) (allocation : Nat) (product : RenderProduct) :
    Addressed ((shared.own allocation product).holdings.map Holding.handle ++ values shared.catalog.products) (shared.fresh + 1) :=
  sound.addressed.cons_fresh allocation product

theorem Sound.fewer (sound : shared.Sound) (fewer : ∀ holding ∈ holdings, holding.handle ∈ shared.owners) :
    Addressed (holdings.map Holding.handle ++ values shared.catalog.products) shared.fresh := by
  refine sound.addressed.mono (fun handle member => ?_) le_rfl
  rcases List.mem_append.mp member with inside | inside
  · obtain ⟨holding, there, rfl⟩ := List.mem_map.mp inside
    exact fewer holding there
  · exact List.mem_append_right _ inside

variable {holding : Holding} {index : Nat}

theorem holding_mem (inside : holding ∈ shared.holdings) : holding.handle ∈ shared.owners :=
  List.mem_append_left _ (List.mem_map_of_mem inside)

theorem Sound.swept (sound : shared.Sound) {required budget : Nat}
    (leads : shared.perform action = { shared with catalog := after }) (passed : shared.pass action = some (required, budget))
    (swept : RenderProductCatalog.Swept shared.catalog shared.live required budget after) : Stepped shared action := by
  have sound' : Sound { shared with catalog := after } := by
    refine ⟨swept.accounts, sound.addressed.mono (fun handle member => ?_) le_rfl⟩
    rcases mem_owners.mp member with inside | ⟨id, there⟩
    · exact mem_owners.mpr (.inl inside)
    · exact mem_owners.mpr (.inr ⟨id, swept.kept id handle there⟩)
  refine ⟨?_, fun id there => ?_, fun _ exceeds id there => ?_⟩
  · rw [leads]
    exact sound'
  · rw [leads, swept.evicts id there]
    constructor
    · exact fun gone => ⟨required, budget, passed, gone⟩
    · rintro ⟨required', budget', passed', gone⟩
      rw [passed] at passed'
      cases passed'
      exact gone
  · rw [leads] at exceeds there ⊢
    have held := swept.settled exceeds id there
    obtain ⟨handle, there⟩ := held_of_mem there
    rw [sound.live_iff (swept.kept id handle there)] at held
    exact (sound'.live_iff there).mpr held

theorem setBudget_accounts (accounts : catalog.Accounts) (budgetBytes : U64) :
    RenderProductCatalog.Accounts { catalog with residents := catalog.residents.setBudget budgetBytes } :=
  ⟨accounts.named, accounts.entries, accounts.summed⟩

theorem mem_moved (there : shared.holdings[index]? = some holding) {other : Holding} :
    other ∈ holding :: shared.holdings.eraseIdx index ↔ other ∈ shared.holdings := by
  obtain ⟨inside, rfl⟩ := List.getElem?_eq_some_iff.mp there
  exact (List.getElem_cons_eraseIdx_perm inside).mem_iff

theorem pass_insert (there : shared.holdings[index]? = some holding) :
    shared.pass (.insert index) = if holding.handle.product.id ∈ shared.catalog.products then none
      else some (shared.catalog.residents.bytes.val + (RenderProductCatalog.residentBytes holding.handle.product).val,
        shared.catalog.residents.budgetBytes.val) := by
  rw [pass, there]
  rfl

theorem Sound.admitted (sound : shared.Sound) (there : shared.holdings[index]? = some holding)
    (absent : holding.handle.product.id ∉ shared.catalog.products)
    (leads : shared.perform (.insert index) = ⟨after, ⟨holding.handle, true⟩ :: shared.holdings.eraseIdx index, shared.fresh + 1⟩)
    (admitted : RenderProductCatalog.Admits shared.catalog
      (RenderProductCatalog.isLive (shared.catalog.products.insert holding.handle.product.id holding.handle)
        (holding.handle :: (shared.holdings.eraseIdx index).map Holding.handle)) holding.handle after) : Stepped shared (.insert index) := by
  have passed := pass_insert there
  rw [if_neg absent] at passed
  have mine : holding.handle ∈ shared.owners := holding_mem (List.mem_of_getElem? there)
  have moved (handle : ProductHandle) :
      handle ∈ holding.handle :: (shared.holdings.eraseIdx index).map Holding.handle ↔ handle ∈ shared.held := by
    change handle ∈ (holding :: shared.holdings.eraseIdx index).map Holding.handle ↔ handle ∈ shared.holdings.map Holding.handle
    rw [List.mem_map, List.mem_map]
    exact exists_congr fun other => and_congr_left fun _ => mem_moved there
  have brought (id : RenderProductId) (handle : ProductHandle)
      (found : (shared.catalog.products.insert holding.handle.product.id holding.handle)[id]? = some handle) :
      holding.handle.product.id = id ∧ handle = holding.handle ∨ shared.catalog.products[id]? = some handle := by
    rw [lookup_insert] at found
    split at found
    · rename_i same
      exact .inl ⟨same, (some.inj found).symm⟩
    · exact .inr found
  have known (handle : ProductHandle) (member : handle ∈ values (shared.catalog.products.insert holding.handle.product.id holding.handle)) :
      handle ∈ shared.owners := by
    obtain ⟨id, found⟩ := mem_values.mp member
    rcases brought id handle found with ⟨-, rfl⟩ | old
    · exact mine
    · exact mem_owners.mpr (.inr ⟨id, old⟩)
  have named (id : RenderProductId) (handle : ProductHandle)
      (found : (shared.catalog.products.insert holding.handle.product.id holding.handle)[id]? = some handle) : handle.product.id = id := by
    rcases brought id handle found with ⟨same, rfl⟩ | old
    · exact same
    · exact sound.accounts.named id handle old
  have live (id : RenderProductId) (resident : id ∈ shared.catalog.products) :
      RenderProductCatalog.isLive (shared.catalog.products.insert holding.handle.product.id holding.handle)
        (holding.handle :: (shared.holdings.eraseIdx index).map Holding.handle) id = shared.live id := by
    obtain ⟨handle, old⟩ := held_of_mem resident
    have distinct : holding.handle.product.id ≠ id := by
      rintro rfl
      apply absent
      exact mem_of_held old
    have found : (shared.catalog.products.insert holding.handle.product.id holding.handle)[id]? = some handle := by
      rw [lookup_insert, if_neg distinct, old]
    rw [Bool.eq_iff_iff, sound.live_iff old, RenderProductCatalog.isLive_iff named
      (fun a inside b inside' => sound.addressed.same a (known a inside) b (known b inside')) found]
    exact exists_congr fun other => and_congr_left fun _ => moved other
  have older (id : RenderProductId) : shared.catalog.residents.olderBytes none
      (RenderProductCatalog.isLive (shared.catalog.products.insert holding.handle.product.id holding.handle)
        (holding.handle :: (shared.holdings.eraseIdx index).map Holding.handle)) id = shared.olderBytes id := by
    unfold olderBytes PinnedLru.olderBytes
    rw [PinnedLru.candidates_congr fun id' resident => live id' ?_]
    rw [ExtTreeMap.mem_iff_isSome_getElem?, isSome_iff_ne_none] at resident ⊢
    exact fun none => resident (sound.accounts.absent.mpr none)
  have sound' : Sound ⟨after, ⟨holding.handle, true⟩ :: shared.holdings.eraseIdx index, shared.fresh + 1⟩ := by
    refine ⟨admitted.accounts, sound.addressed.mono (fun handle member => ?_) (Nat.le_succ _)⟩
    rcases mem_owners.mp member with inside | ⟨id, found⟩
    · exact List.mem_append_left _ ((moved handle).mp inside)
    · by_cases same : holding.handle.product.id = id
      · subst same
        rw [admitted.brought] at found
        exact some.inj found ▸ mine
      · exact mem_owners.mpr (.inr ⟨id, admitted.kept id handle same found⟩)
  refine ⟨?_, fun id resident => ?_, fun _ exceeds id resident => ?_⟩
  · rw [leads]
    exact sound'
  · rw [leads, admitted.evicts id resident, live id resident, older]
    constructor
    · exact fun gone => ⟨_, _, passed, gone⟩
    · rintro ⟨required, budget, passed', gone⟩
      rw [passed] at passed'
      cases passed'
      exact gone
  · rw [leads] at exceeds resident ⊢
    obtain ⟨handle, found⟩ := held_of_mem resident
    refine (sound'.live_iff found).mpr ?_
    by_cases same : holding.handle.product.id = id
    · subst same
      rw [admitted.brought] at found
      exact ⟨holding.handle, List.mem_cons_self, congrArg _ (some.inj found)⟩
    · have old := admitted.kept id handle same found
      have resident : id ∈ shared.catalog.products := by
        exact mem_of_held old
      have inside : id ∈ after.products := by
        exact mem_of_held found
      have held := admitted.settled exceeds id inside same
      rw [live id resident, sound.live_iff old] at held
      obtain ⟨other, member, wrappers⟩ := held
      exact ⟨other, (moved other).mpr member, wrappers⟩

end Steps

theorem Sound.perform (sound : shared.Sound) (action : CatalogAction)
    (countable : shared.Countable action) : Stepped shared action := by
  cases action with
  | make product => exact quiet_stepped rfl rfl sound.accounts rfl (sound.own _ _)
  | share index id producedBy =>
    cases there : shared.holdings[index]? with
    | none => exact quiet_stepped (by rw [CatalogUse.perform, there, elim_none]) rfl sound.accounts rfl sound.addressed
    | some holding => exact quiet_stepped (by rw [CatalogUse.perform, there]; rfl) rfl sound.accounts rfl (sound.own _ _)
  | clone index =>
    refine quiet_stepped rfl rfl sound.accounts rfl (sound.fewer fun holding member => ?_)
    rcases List.mem_append.mp member with copied | old
    · exact holding_mem (List.mem_of_getElem? (mem_toList.mp copied))
    · exact holding_mem old
  | drop index => exact quiet_stepped rfl rfl sound.accounts rfl (sound.fewer fun _ member => holding_mem (List.mem_of_mem_eraseIdx member))
  | get id =>
    cases there : shared.catalog.products[id]? with
    | none =>
      have got : shared.catalog.get id = (shared.catalog, none) := by rw [RenderProductCatalog.get, there]
      exact quiet_stepped (by rw [CatalogUse.perform, got]; rfl) rfl sound.accounts rfl sound.addressed
    | some handle =>
      have got : shared.catalog.get id = ({ shared.catalog with residents := (shared.catalog.residents.touch id).1 }, some handle) := by
        rw [RenderProductCatalog.get, there]
      refine quiet_stepped (by rw [CatalogUse.perform, got]) rfl (RenderProductCatalog.touch_accounts sound.accounts id) rfl
        (sound.fewer fun holding member => ?_)
      rcases List.mem_cons.mp member with rfl | old
      · exact mem_owners.mpr (.inr ⟨id, there⟩)
      · exact holding_mem old
  | insert index =>
    cases there : shared.holdings[index]? with
    | none =>
      have unpassed : shared.pass (.insert index) = none := by
        rw [pass, there]
        rfl
      exact quiet_stepped (by rw [CatalogUse.perform, there]; rfl) unpassed sound.accounts rfl sound.addressed
    | some holding =>
      have passed := pass_insert there
      have leads : shared.perform (.insert index) = shared.insert index holding := by rw [CatalogUse.perform, there]; rfl
      have inserted := RenderProductCatalog.insert_inserted sound.accounts ((shared.holdings.eraseIdx index).map Holding.handle) shared.fresh
        holding.handle fun absent => by
          rw [if_neg (not_mem_of_absent absent)] at passed
          exact countable _ _ passed
      unfold CatalogUse.insert at leads
      generalize shared.catalog.insert ((shared.holdings.eraseIdx index).map Holding.handle) shared.fresh holding.handle = result at leads inserted
      have resident {existing : ProductHandle} (found : shared.catalog.products[holding.handle.product.id]? = some existing) :
          shared.pass (.insert index) = none := by
        rw [passed, if_pos (mem_of_held found)]
      have rest : Addressed ((shared.holdings.eraseIdx index).map Holding.handle ++ values shared.catalog.products) shared.fresh :=
        sound.fewer fun _ member => holding_mem (List.mem_of_mem_eraseIdx member)
      cases inserted with
      | collides existing found differs => exact quiet_stepped leads (resident found) sound.accounts rfl rest
      | resident existing found =>
        refine quiet_stepped leads (resident found) sound.accounts rfl ((sound.fewer fun other member => ?_).mono (List.Subset.refl _) (Nat.le_succ _))
        rcases List.mem_cons.mp member with rfl | old
        · exact mem_owners.mpr (.inr ⟨_, found⟩)
        · exact holding_mem (List.mem_of_mem_eraseIdx old)
      | derives existing found derived =>
        exact quiet_stepped leads (resident found) (RenderProductCatalog.touch_accounts sound.accounts _) rfl (rest.cons_fresh _ _)
      | admits absent after admitted =>
        exact sound.admitted there (not_mem_of_absent absent) leads admitted
  | setBudget budgetBytes =>
    have swept := RenderProductCatalog.trimToBudget_swept (setBudget_accounts sound.accounts budgetBytes) shared.held
    exact sound.swept rfl rfl ⟨swept.accounts, swept.kept, swept.evicts, swept.settled, swept.limit⟩
  | trim => exact sound.swept rfl rfl (RenderProductCatalog.trimToBudget_swept sound.accounts shared.held)

section Runs

def Opened (shared : CatalogUse) : Prop := ∃ budgetBytes, shared = ⟨.new budgetBytes, [], 0⟩

/-- What holds of a catalog after a run. -/
structure Retained (events : List (Event CatalogUse CatalogAction)) (state : CatalogUse) : Prop where
  entries : ∀ id : RenderProductId, state.catalog.residents.entries[id]?.map Audec.Media.LruEntry.bytes =
    state.catalog.products[id]?.map fun handle => RenderProductCatalog.residentBytes handle.product
  sum : state.catalog.residents.bytes.val = weigh (fun handle => (RenderProductCatalog.residentBytes handle.product).val) state.catalog.products
  refused : ∀ held address product error, state.catalog.insert held address product = .error error ↔ ∃ existing,
    state.catalog.products[product.product.id]? = some existing ∧ existing.product.payloadBitsEqual product.product = false ∧
      error = .digestCollision product.product.id
  kept : ∀ event ∈ events, ∀ (id : RenderProductId) product, event.before.catalog.products[id]? = some product → event.before.Heard product →
    id ∈ (event.before.perform event.action).catalog.products
  exceeds : state.catalog.accounting.overBudget = true ↔ state.catalog.residents.budgetBytes.val < state.heldBytes + state.keptBytes
  settled : ∀ event ∈ events, event.before.pass event.action ≠ none →
    ((event.before.perform event.action).catalog.accounting.overBudget = true ↔
      (event.before.perform event.action).catalog.residents.budgetBytes.val < (event.before.perform event.action).heldBytes)

theorem insert_refused {catalog : RenderProductCatalog} {held : List ProductHandle} {address : Nat} {product : ProductHandle}
    {error : RenderProductError} : catalog.insert held address product = .error error ↔ ∃ existing,
      catalog.products[product.product.id]? = some existing ∧ existing.product.payloadBitsEqual product.product = false ∧
        error = .digestCollision product.product.id := by
  unfold RenderProductCatalog.insert
  cases there : catalog.products[product.product.id]? with
  | none => simp
  | some existing =>
    dsimp only
    split
    · rename_i differs
      constructor
      · intro same
        exact ⟨existing, rfl, differs, (Except.error.inj same).symm⟩
      · rintro ⟨-, -, -, rfl⟩
        rfl
    · rename_i equal
      constructor
      · intro same
        split at same <;> cases same
      · rintro ⟨other, same, differs, -⟩
        cases same
        exact absurd differs equal

theorem Sound.sum (sound : shared.Sound) :
    shared.catalog.residents.bytes.val = weigh (fun handle => (RenderProductCatalog.residentBytes handle.product).val) shared.catalog.products := by
  rw [sound.accounts.summed]
  refine weigh_congr fun id => ?_
  have entries := congrArg (Option.map Fin.val) (sound.accounts.entries id)
  rw [Option.map_map, Option.map_map] at entries
  exact entries

theorem Sound.parts (sound : shared.Sound) : shared.catalog.residents.bytes.val = shared.heldBytes + shared.keptBytes := by
  rw [sound.sum, heldBytes, keptBytes, weigh_add]
  refine weigh_congr fun id => ?_
  congr 1
  funext handle
  split <;> omega

theorem Sound.all_held (sound : shared.Sound) (live : ∀ id ∈ shared.catalog.products, shared.live id = true) : shared.keptBytes = 0 := by
  have none : shared.keptBytes = weigh (fun _ : ProductHandle => 0) shared.catalog.products := by
    refine weigh_congr fun id => ?_
    cases there : shared.catalog.products[id]? with
    | none => rfl
    | some handle =>
      have held := live id (mem_of_held there)
      obtain ⟨other, member, wrappers⟩ := (sound.live_iff there).mp held
      have holds : shared.holds handle = true := List.any_eq_true.mpr ⟨other, member, decide_eq_true wrappers⟩
      rw [map_some, map_some, if_pos holds]
  rw [none, weigh]
  simp

theorem run_sound {events : List (Event CatalogUse CatalogAction)} {state : CatalogUse} (run : Run perform Opened events state)
    (countable : ∀ event ∈ events, event.before.Countable event.action) :
    state.Sound ∧ ∀ event ∈ events, Stepped event.before event.action := by
  induction run with
  | start opened =>
    obtain ⟨budgetBytes, rfl⟩ := opened
    refine ⟨⟨⟨fun id handle there => ?_, fun id => rfl, (weigh_empty _).symm⟩, ⟨fun a inside => ?_, fun a inside => ?_⟩⟩, fun event member => absurd member List.not_mem_nil⟩
    · cases there
    · cases inside
    · cases inside
  | @step events state run action ih =>
    obtain ⟨sound, before⟩ := ih fun event member => countable event (List.mem_append_left _ member)
    have stepped := sound.perform action (countable ⟨state, action⟩ (List.mem_append_right _ List.mem_cons_self))
    refine ⟨stepped.sound, fun event member => ?_⟩
    rcases List.mem_append.mp member with early | last
    · exact before event early
    · cases List.mem_singleton.mp last
      exact stepped

theorem Stepped.kept_iff {action : CatalogAction} (stepped : Stepped shared action) :
    (∀ (id : RenderProductId) product, shared.catalog.products[id]? = some product → shared.Heard product →
      id ∈ (shared.perform action).catalog.products) ↔
        ∀ required budget, shared.pass action = some (required, budget) → shared.Spares required budget := by
  constructor
  · intro kept required budget passed id product there unheld heard
    by_contra short
    have resident : id ∈ shared.catalog.products := mem_of_held there
    exact (stepped.evicts id resident).mpr ⟨required, budget, passed, unheld, not_le.mp short⟩ (kept id product there heard)
  · intro spares id product there heard
    by_contra gone
    have resident : id ∈ shared.catalog.products := mem_of_held there
    obtain ⟨required, budget, passed, unheld, short⟩ := (stepped.evicts id resident).mp gone
    exact absurd (spares required budget passed id product there unheld heard) (not_le.mpr short)

/-- Held audio is retained exactly where every product that is heard is spared, as long as the bytes can be counted. -/
theorem retained_iff_careful {events : List (Event CatalogUse CatalogAction)} {state : CatalogUse} (run : Run perform Opened events state) :
    (∀ event ∈ events, event.before.Countable event.action) ∧ Retained events state ↔ ∀ event ∈ events, event.before.Careful event.action := by
  constructor
  · rintro ⟨countable, retained⟩ event member
    have stepped := (run_sound run countable).2 event member
    exact ⟨countable event member, stepped.kept_iff.mp (retained.kept event member)⟩
  · intro careful
    have countable := fun event (member : event ∈ events) => (careful event member).1
    obtain ⟨sound, steps⟩ := run_sound run countable
    refine ⟨countable, sound.accounts.entries, sound.sum, fun _ _ _ _ => insert_refused, fun event member => ?_, ?_, fun event member passed => ?_⟩
    · exact (steps event member).kept_iff.mpr (careful event member).2
    · rw [← sound.parts]
      exact decide_eq_true_iff
    · have stepped := steps event member
      have parts := stepped.sound.parts
      constructor
      · intro exceeds
        have above : _ < _ := of_decide_eq_true exceeds
        rw [Fin.lt_def, parts, stepped.sound.all_held (stepped.settled passed exceeds)] at above
        exact above
      · intro above
        refine decide_eq_true ?_
        rw [Fin.lt_def, parts]
        exact Nat.lt_add_right _ above

end Runs

section Aliases

def tone (arrangement : U64) : RenderProduct :=
  ⟨⟨.zero, plainEngine.format, 1⟩, ⟨⟨1, 7, .zero, ⟨0, arrangement, 0, 0, 0, 0, 0, 0, 0⟩, ⟨.saturate 0, .saturate 64⟩, plainEngine, [],
    unstamped_sorted⟩, .master, ⟨.saturate 0, .saturate 1⟩, .wholeBounce, .zero⟩, [0, 0]⟩

theorem tones_equal : (tone 0).payloadBitsEqual (tone 1) = true := by
  simp [RenderProduct.payloadBitsEqual, tone]

/-- One product is rendered for two revisions, and the handle of the first is dropped. -/
def aliasing : List CatalogAction := [.make (tone 0), .insert 0, .make (tone 1), .insert 0, .drop 1]

def unshared : CatalogUse := (aliasing.take 3).foldl perform ⟨.new 10, [], 0⟩

/-- The second handle has the samples of the product, in a wrapper of its own. -/
def aliased : CatalogUse :=
  ⟨{ unshared.catalog with residents := (unshared.catalog.residents.touch (tone 1).id).1 }, [⟨⟨3, 0, tone 1⟩, true⟩], 4⟩

theorem derives_alias : unshared.perform (.insert 0) =
    ⟨aliased.catalog, ⟨⟨3, 0, tone 1⟩, true⟩ :: unshared.holdings.eraseIdx 0, 4⟩ := by
  have holding : unshared.holdings[0]? = some ⟨⟨2, 2, tone 1⟩, false⟩ := rfl
  have found : unshared.catalog.products[(tone 1).id]? = some ⟨0, 0, tone 0⟩ := rfl
  have other : (tone 0).producedBy ≠ (tone 1).producedBy := by decide
  have inserted : unshared.catalog.insert ((unshared.holdings.eraseIdx 0).map Holding.handle) unshared.fresh ⟨2, 2, tone 1⟩ =
      .ok (aliased.catalog, ⟨3, 0, tone 1⟩) := by
    unfold RenderProductCatalog.insert
    rw [found]
    dsimp only
    rw [tones_equal, if_neg (by decide), if_neg other]
    rfl
  rw [perform, holding, elim_some, insert, inserted]
  rfl

theorem aliasing_aliased : aliasing.foldl perform ⟨.new 10, [], 0⟩ = aliased := by
  change (unshared.perform (.insert 0)).perform (.drop 1) = aliased
  rw [derives_alias]
  rfl

theorem alias_heard : aliased.Heard ⟨0, 0, tone 0⟩ := ⟨_, List.mem_cons_self, rfl, rfl⟩

/-- The product leaves although a handle that was returned still has its samples. -/
theorem aliased_product_evicted : ∃ events state, Run perform Opened events state ∧ ¬ Retained events state := by
  have opened : Opened ⟨.new 10, [], 0⟩ := ⟨10, rfl⟩
  obtain ⟨events, run, -⟩ := Run.taking opened aliasing
  rw [aliasing_aliased] at run
  refine ⟨_, _, run.step (.setBudget 0), fun retained => ?_⟩
  have kept := retained.kept _ (List.mem_append_right _ List.mem_cons_self) (tone 0).id ⟨0, 0, tone 0⟩ rfl alias_heard
  exact absurd kept (by decide +kernel)

/-- A product whose own handle is held stays, whatever is asked for. -/
theorem held_tone_retained : (∀ event ∈ trace perform ⟨.new 10, [], 0⟩ [.make (tone 0), .insert 0, .setBudget 0], event.before.Countable event.action) ∧
    Retained (trace perform ⟨.new 10, [], 0⟩ [.make (tone 0), .insert 0, .setBudget 0])
      ([CatalogAction.make (tone 0), .insert 0, .setBudget 0].foldl perform ⟨.new 10, [], 0⟩) := by
  have opened : Opened ⟨.new 10, [], 0⟩ := ⟨10, rfl⟩
  refine (retained_iff_careful (Run.tracing opened _)).mpr fun event member => ?_
  rcases List.mem_cons.mp member with rfl | member
  · exact ⟨nofun, nofun⟩
  rcases List.mem_cons.mp member with rfl | member
  · have passed : pass (CatalogUse.perform ⟨.new 10, [], 0⟩ (.make (tone 0))) (.insert 0) = some (8, 10) := by decide +kernel
    refine ⟨fun required budget same => ?_, fun required budget same id product there => ?_⟩
    · cases passed.symm.trans same
      decide
    · cases there
  cases List.mem_singleton.mp member
  have passed : pass ((CatalogUse.perform ⟨.new 10, [], 0⟩ (.make (tone 0))).perform (.insert 0)) (.setBudget 0) = some (8, 0) := by decide +kernel
  refine ⟨fun required budget same => ?_, fun required budget same id product there unheld => ?_⟩
  · cases passed.symm.trans same
    decide
  · have one : (∅ : ExtTreeMap RenderProductId ProductHandle).insert (tone 0).id ⟨0, 0, tone 0⟩ =
        ((CatalogUse.perform ⟨.new 10, [], 0⟩ (.make (tone 0))).perform (.insert 0)).catalog.products := rfl
    have live : live ((CatalogUse.perform ⟨.new 10, [], 0⟩ (.make (tone 0))).perform (.insert 0)) (tone 0).id = true := by decide +kernel
    change (CatalogUse.catalog _).products[id]? = some product at there
    rw [← one, lookup_insert] at there
    split at there
    · rename_i same
      subst same
      exact absurd unheld (by rw [live]; exact Bool.noConfusion)
    · cases there

end Aliases

end CatalogUse

end Audec.Render

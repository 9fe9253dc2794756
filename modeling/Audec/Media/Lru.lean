import Audec.Media.Model

/-! Byte-budgeted accounting of the least recently used: which keys leave for an entry to fit. The
    caller keeps the values, and says which keys are retained. -/

open Std (ExtTreeMap)
open Machine Weights List Entries Prod

namespace Audec.Media

def saturatingAdd (a b : U64) : U64 :=
  if fits : a.val + b.val < 0x10000000000000000 then ⟨a.val + b.val, fits⟩ else 0xffffffffffffffff

def saturatingSub (a b : U64) : U64 := ⟨a.val - b.val, lt_of_le_of_lt (Nat.sub_le _ _) a.isLt⟩

theorem saturatingAdd_val {a b : U64} (fits : a.val + b.val < 0x10000000000000000) : (saturatingAdd a b).val = a.val + b.val := by
  rw [saturatingAdd, dif_pos fits]

theorem sub_val {a b : U64} (le : b.val ≤ a.val) : (a - b).val = a.val - b.val :=
  Fin.sub_val_of_le le

structure LruEntry where
  bytes : U64
  lastTouch : U64
  deriving DecidableEq

inductive LruAdmissionRefusal where
  | entryExceedsBudget (bytes budget : U64)
  | allCandidatesRetained

def LruAdmissionRefusal.intoTierError (tier : CacheTier) : LruAdmissionRefusal → StreamingMediaError
  | .entryExceedsBudget bytes budget => .entryExceedsBudget tier bytes budget
  | .allCandidatesRetained => .allEvictionCandidatesPinned tier

structure PinnedLru (K : Type) [LinearOrder K] where
  budgetBytes : U64
  entries : ExtTreeMap K LruEntry
  clock : U64
  bytes : U64
  evictions : U64

namespace PinnedLru

variable {K : Type} [LinearOrder K]

def new (budgetBytes : U64) : PinnedLru K := ⟨budgetBytes, ∅, 0, 0, 0⟩

def tick (lru : PinnedLru K) : PinnedLru K := { lru with clock := saturatingAdd lru.clock 1 }

/-- Mark an entry as most recently used. -/
def touch (lru : PinnedLru K) (key : K) : PinnedLru K × Bool :=
  match lru.entries[key]? with
  | some entry => ({ lru.tick with entries := lru.entries.insert key { entry with lastTouch := lru.tick.clock } }, true)
  | none => (lru.tick, false)

/-- The order in which candidates leave: oldest touch first, ties by key. -/
def Older (a b : K × LruEntry) : Prop := a.2.lastTouch < b.2.lastTouch ∨ a.2.lastTouch = b.2.lastTouch ∧ a.1 ≤ b.1

instance (a b : K × LruEntry) : Decidable (Older a b) := by unfold Older; infer_instance

def candidates (lru : PinnedLru K) (replacing : Option K) (retained : K → Bool) : List (K × LruEntry) :=
  (lru.entries.toList.filter fun entry => some entry.1 ≠ replacing ∧ retained entry.1 = false).insertionSort Older

def select (needFree : U64) : U64 → List (K × LruEntry) → List (K × LruEntry) × U64
  | selectedBytes, [] => ([], selectedBytes)
  | selectedBytes, candidate :: rest =>
    let selectedBytes := saturatingAdd selectedBytes candidate.2.bytes
    if needFree ≤ selectedBytes then ([candidate], selectedBytes)
    else
      let later := select needFree selectedBytes rest
      (candidate :: later.1, later.2)

def drop (lru : PinnedLru K) (leaving : K × LruEntry) : PinnedLru K :=
  { lru with
    entries := lru.entries.erase leaving.1
    bytes := lru.bytes - leaving.2.bytes
    evictions := saturatingAdd lru.evictions 1 }

def makeRoom (lru : PinnedLru K) (required : U64) (replacing : Option K) (retained : K → Bool) :
    Except LruAdmissionRefusal (PinnedLru K × List K) :=
  let needFree := saturatingSub required lru.budgetBytes
  if needFree = 0 then .ok (lru, [])
  else
    let selected := select needFree 0 (lru.candidates replacing retained)
    if selected.2 < needFree then .error .allCandidatesRetained
    else .ok (selected.1.foldl drop lru, selected.1.map Prod.fst)

def replacedBytes (lru : PinnedLru K) (key : K) : U64 := (lru.entries[key]?.map LruEntry.bytes).getD 0

def forget (lru : PinnedLru K) (key : K) : PinnedLru K :=
  match lru.entries[key]? with
  | some previous => { lru with entries := lru.entries.erase key, bytes := lru.bytes - previous.bytes }
  | none => lru

def record (lru : PinnedLru K) (key : K) (bytes : U64) : PinnedLru K :=
  { lru.tick with
    entries := lru.entries.insert key ⟨bytes, lru.tick.clock⟩
    bytes := saturatingAdd lru.bytes bytes }

def admission (lru : PinnedLru K) (key : K) (bytes : U64) (retained : K → Bool) : Except LruAdmissionRefusal (PinnedLru K × List K) :=
  if lru.budgetBytes < bytes then .error (.entryExceedsBudget bytes lru.budgetBytes)
  else do
    let required := saturatingAdd (saturatingSub lru.bytes (lru.replacedBytes key)) bytes
    let (lru, evicted) ← lru.makeRoom required (some key) retained
    pure ((lru.forget key).record key bytes, evicted)

/-- The account is the sum of its entries, within the budget or not. -/
def Summed (lru : PinnedLru K) : Prop := lru.bytes.val = weigh (fun entry => entry.bytes.val) lru.entries

structure Balanced (lru : PinnedLru K) : Prop where
  sum : lru.bytes.val = weigh (fun entry => entry.bytes.val) lru.entries
  within : lru.bytes ≤ lru.budgetBytes

theorem new_balanced (budgetBytes : U64) : (new budgetBytes : PinnedLru K).Balanced :=
  ⟨(weigh_empty _).symm, Fin.zero_le _⟩

theorem lookup_touch (lru : PinnedLru K) (key other : K) :
    (lru.touch key).1.entries[other]? =
      if key = other then lru.entries[other]?.map fun entry => { entry with lastTouch := lru.tick.clock } else lru.entries[other]? := by
  unfold touch
  split
  · rename_i entry held
    rw [lookup_insert]
    split
    · rename_i same
      rw [← same, held, Option.map_some]
    · rfl
  · rename_i absent
    split
    · rename_i same
      rw [← same, tick, absent, Option.map_none]
    · rfl

variable {lru : PinnedLru K} {entry : LruEntry} {key : K} {retained : K → Bool} {evicted : List K}

theorem touch_balanced (balanced : lru.Balanced) (key : K) : (lru.touch key).1.Balanced := by
  have same : weigh (fun entry => entry.bytes.val) (lru.touch key).1.entries = weigh (fun entry => entry.bytes.val) lru.entries := by
    apply weigh_congr
    intro other
    rw [lookup_touch]
    split
    · rw [Option.map_map]
      rfl
    · rfl
  have kept : (lru.touch key).1.bytes = lru.bytes ∧ (lru.touch key).1.budgetBytes = lru.budgetBytes := by
    unfold touch
    split <;> exact ⟨rfl, rfl⟩
  exact ⟨by rw [kept.1, same, balanced.sum], by rw [kept.1, kept.2]; exact balanced.within⟩

theorem select_prefix (needFree selectedBytes : U64) (candidates : List (K × LruEntry)) :
    ∃ rest, candidates = (select needFree selectedBytes candidates).1 ++ rest := by
  induction candidates generalizing selectedBytes with
  | nil => exact ⟨[], rfl⟩
  | cons candidate candidates tail =>
    unfold select
    dsimp only
    split
    · exact ⟨candidates, rfl⟩
    · obtain ⟨rest, same⟩ := tail (saturatingAdd selectedBytes candidate.2.bytes)
      exact ⟨rest, by rw [cons_append, ← same]⟩

theorem select_bytes {needFree selectedBytes : U64} {candidates : List (K × LruEntry)}
    (fits : selectedBytes.val + (candidates.map fun entry => entry.2.bytes.val).sum < 0x10000000000000000) :
    (select needFree selectedBytes candidates).2.val =
      selectedBytes.val + ((select needFree selectedBytes candidates).1.map fun entry => entry.2.bytes.val).sum := by
  induction candidates generalizing selectedBytes with
  | nil => rfl
  | cons candidate candidates tail =>
    rw [map_cons, sum_cons] at fits
    have added := @saturatingAdd_val selectedBytes candidate.2.bytes (by omega)
    unfold select
    dsimp only
    split
    · rw [added, map_singleton, sum_singleton]
    · rw [tail (by rw [added]; omega), added, map_cons, sum_cons, add_assoc]

variable {replacing : Option K} {leaving : List (K × LruEntry)} {after : PinnedLru K} {bytes : U64}

theorem mem_candidates :
    (key, entry) ∈ lru.candidates replacing retained ↔
      lru.entries[key]? = some entry ∧ some key ≠ replacing ∧ retained key = false := by
  rw [candidates, mem_insertionSort, mem_filter, mem_toList, decide_eq_true_eq]

theorem nodup_candidates (lru : PinnedLru K) (replacing : Option K) (retained : K → Bool) :
    ((lru.candidates replacing retained).map fst).Nodup := by
  have sorted := (perm_insertionSort Older
    (lru.entries.toList.filter fun entry => some entry.1 ≠ replacing ∧ retained entry.1 = false)).map fst
  refine sorted.nodup_iff.mpr ?_
  have keys : (lru.entries.toList.map fst).Nodup := by
    rw [ExtTreeMap.map_fst_toList_eq_keys]
    exact ExtTreeMap.nodup_keys
  exact keys.sublist (filter_sublist.map _)

theorem older_total (a b : K × LruEntry) : Older a b ∨ Older b a := by
  rcases lt_trichotomy a.2.lastTouch b.2.lastTouch with before | same | after
  · exact .inl (.inl before)
  · rcases le_total a.1 b.1 with le | le
    · exact .inl (.inr ⟨same, le⟩)
    · exact .inr (.inr ⟨same.symm, le⟩)
  · exact .inr (.inl after)

theorem older_trans {a b c : K × LruEntry} (first : Older a b) (second : Older b c) : Older a c := by
  rcases first with before | ⟨same, le⟩
  · rcases second with before' | ⟨same', -⟩
    · exact .inl (lt_trans before before')
    · exact .inl (same' ▸ before)
  · rcases second with before' | ⟨same', le'⟩
    · exact .inl (same ▸ before')
    · exact .inr ⟨same.trans same', le_trans le le'⟩

theorem candidates_ordered (lru : PinnedLru K) (replacing : Option K) (retained : K → Bool) :
    (lru.candidates replacing retained).Pairwise Older := by
  have total : Std.Total (Older (K := K)) := ⟨older_total⟩
  have transitive : IsTrans (K × LruEntry) Older := ⟨fun _ _ _ => older_trans⟩
  exact pairwise_insertionSort Older _

theorem candidates_bytes (lru : PinnedLru K) (replacing : Option K) (retained : K → Bool) :
    ((lru.candidates replacing retained).map fun entry => entry.2.bytes.val).sum ≤ weigh (fun entry => entry.bytes.val) lru.entries := by
  have sorted := (perm_insertionSort Older
    (lru.entries.toList.filter fun entry => some entry.1 ≠ replacing ∧ retained entry.1 = false)).map fun entry => entry.2.bytes.val
  rw [candidates, sorted.sum_eq]
  exact (filter_sublist.map _).sum_le_sum fun _ _ => Nat.zero_le _

theorem drop_bytes (summed : lru.Summed) (held : lru.entries[key]? = some entry) :
    (lru.drop (key, entry)).bytes.val = lru.bytes.val - entry.bytes.val ∧
      lru.bytes.val = entry.bytes.val + weigh (fun entry => entry.bytes.val) (lru.entries.erase key) := by
  unfold Summed at summed
  rw [weigh_held _ held] at summed
  exact ⟨sub_val (by change entry.bytes.val ≤ lru.bytes.val; omega), summed⟩

theorem drop_summed (summed : lru.Summed) (held : lru.entries[key]? = some entry) :
    (lru.drop (key, entry)).Summed := by
  obtain ⟨left, account⟩ := drop_bytes summed held
  unfold Summed
  rw [left, account, Nat.add_sub_cancel_left]
  rfl

theorem drop_balanced (balanced : lru.Balanced) (held : lru.entries[key]? = some entry) :
    (lru.drop (key, entry)).Balanced := by
  refine ⟨drop_summed balanced.sum held, ?_⟩
  have within : lru.bytes.val ≤ lru.budgetBytes.val := balanced.within
  rw [Fin.le_def, (drop_bytes balanced.sum held).1]
  exact le_trans (Nat.sub_le _ _) within

theorem foldl_drop_summed (distinct : (leaving.map fst).Nodup) (summed : lru.Summed)
    (held : ∀ entry ∈ leaving, lru.entries[entry.1]? = some entry.2) :
    (leaving.foldl drop lru).Summed ∧ (leaving.foldl drop lru).budgetBytes = lru.budgetBytes ∧ (leaving.foldl drop lru).clock = lru.clock ∧
      (leaving.foldl drop lru).entries = (leaving.map fst).foldl (fun map key => map.erase key) lru.entries := by
  induction leaving generalizing lru with
  | nil => exact ⟨summed, rfl, rfl, rfl⟩
  | cons entry leaving tail =>
    rw [map_cons, nodup_cons] at distinct
    have kept : ∀ other ∈ leaving, (lru.drop entry).entries[other.1]? = some other.2 := by
      intro other member
      change (lru.entries.erase entry.1)[other.1]? = _
      rw [lookup_erase, if_neg, held other (mem_cons_of_mem _ member)]
      intro same
      exact distinct.1 (same ▸ mem_map_of_mem member)
    exact tail distinct.2 (drop_summed summed (held entry mem_cons_self)) kept

theorem foldl_drop (distinct : (leaving.map fst).Nodup) (balanced : lru.Balanced)
    (held : ∀ entry ∈ leaving, lru.entries[entry.1]? = some entry.2) :
    (leaving.foldl drop lru).Balanced ∧ (leaving.foldl drop lru).budgetBytes = lru.budgetBytes ∧ (leaving.foldl drop lru).clock = lru.clock ∧
      (leaving.foldl drop lru).entries = (leaving.map fst).foldl (fun map key => map.erase key) lru.entries := by
  obtain ⟨summed, budget, clock, entries⟩ := foldl_drop_summed distinct balanced.sum held
  refine ⟨⟨summed, ?_⟩, budget, clock, entries⟩
  have account := weigh_foldl_erase (fun entry => entry.bytes.val) distinct held
  have before : lru.bytes.val = weigh (fun entry => entry.bytes.val) lru.entries := balanced.sum
  have within : lru.bytes.val ≤ lru.budgetBytes.val := balanced.within
  unfold Summed at summed
  rw [Fin.le_def, budget, summed, entries]
  omega

theorem makeRoom_ok {required : U64}
    (balanced : lru.Balanced) (made : lru.makeRoom required replacing retained = .ok (after, evicted)) :
    ∃ selected rest, lru.candidates replacing retained = selected ++ rest ∧ evicted = selected.map fst ∧
      after = selected.foldl drop lru ∧ required.val ≤ lru.budgetBytes.val + (selected.map fun entry => entry.2.bytes.val).sum := by
  unfold makeRoom at made
  dsimp only at made
  split at made
  · rename_i enough
    cases made
    have none : required.val - lru.budgetBytes.val = 0 := congrArg Fin.val enough
    exact ⟨[], _, rfl, rfl, rfl, by simp; omega⟩
  · split at made
    · cases made
    · rename_i sufficient
      cases made
      obtain ⟨rest, split⟩ := select_prefix (saturatingSub required lru.budgetBytes) 0 (lru.candidates replacing retained)
      have account := candidates_bytes lru replacing retained
      rw [← balanced.sum] at account
      have counted := @select_bytes _ _ (saturatingSub required lru.budgetBytes) 0 (lru.candidates replacing retained)
        (by rw [Fin.val_zero, Nat.zero_add]; exact lt_of_le_of_lt account lru.bytes.isLt)
      refine ⟨_, rest, split, rfl, rfl, ?_⟩
      rw [Fin.val_zero, Nat.zero_add] at counted
      have needed : required.val - lru.budgetBytes.val ≤ _ := Fin.le_def.mp (not_lt.mp sufficient)
      omega

theorem forget_balanced (balanced : lru.Balanced) (key : K) :
    (lru.forget key).Balanced ∧ (lru.forget key).budgetBytes = lru.budgetBytes ∧ (lru.forget key).clock = lru.clock ∧
      (lru.forget key).entries = lru.entries.erase key := by
  unfold forget
  split
  · rename_i previous held
    have dropped := drop_balanced balanced held
    exact ⟨⟨dropped.sum, dropped.within⟩, rfl, rfl, rfl⟩
  · rename_i absent
    exact ⟨balanced, rfl, rfl, (erase_absent absent).symm⟩

theorem replacedBytes_val (lru : PinnedLru K) (key : K) : (lru.replacedBytes key).val = weightAt (fun entry => entry.bytes.val) lru.entries key := by
  unfold replacedBytes weightAt
  cases lru.entries[key]? <;> rfl

/-- What the account needs once an entry is in. -/
def required (lru : PinnedLru K) (key : K) (bytes : U64) : Nat := lru.bytes.val - (lru.replacedBytes key).val + bytes.val

structure Admitted (lru : PinnedLru K) (key : K) (bytes : U64) (retained : K → Bool) (after : PinnedLru K) (evicted : List K) : Prop where
  balanced : after.Balanced
  budget : after.budgetBytes = lru.budgetBytes
  clock : after.clock = lru.tick.clock
  lookup : ∀ other, after.entries[other]? =
    if key = other then some ⟨bytes, lru.tick.clock⟩ else if other ∈ evicted then none else lru.entries[other]?
  unretained : ∀ other ∈ evicted, other ≠ key ∧ retained other = false ∧ other ∈ lru.entries
  oldest : ∀ leaving ∈ evicted, ∀ staying ∉ evicted, staying ≠ key → retained staying = false → ∀ entry entry',
    lru.entries[leaving]? = some entry → lru.entries[staying]? = some entry' → Older (leaving, entry) (staying, entry')

theorem admission_le
    (admitted : lru.admission key bytes retained = .ok (after, evicted)) : bytes ≤ lru.budgetBytes := by
  unfold admission at admitted
  split at admitted
  · cases admitted
  · rename_i within
    exact not_lt.mp within

theorem admission_ok (balanced : lru.Balanced)
    (fits : lru.required key bytes < 0x10000000000000000) (admitted : lru.admission key bytes retained = .ok (after, evicted)) :
    Admitted lru key bytes retained after evicted := by
  unfold admission at admitted
  split at admitted
  · cases admitted
  rw [Checked.bind_ok] at admitted
  obtain ⟨⟨roomy, left⟩, made, recorded⟩ := admitted
  obtain ⟨selected, rest, split, rfl, rfl, room⟩ := makeRoom_ok balanced made
  cases recorded
  have distinct : (selected.map fst).Nodup := by
    have all := nodup_candidates lru (some key) retained
    rw [split, map_append] at all
    exact (nodup_append.mp all).1
  have chosen : ∀ entry ∈ selected, lru.entries[entry.1]? = some entry.2 ∧ some entry.1 ≠ some key ∧ retained entry.1 = false :=
    fun entry member => mem_candidates.mp (split ▸ mem_append_left _ member)
  obtain ⟨balanced', budget, clock, entries⟩ := foldl_drop distinct balanced fun entry member => (chosen entry member).1
  obtain ⟨balanced'', budget', clock', entries'⟩ := forget_balanced balanced' key
  have kept : (selected.foldl drop lru).entries[key]? = lru.entries[key]? := by
    rw [entries, lookup_foldl_erase, if_neg]
    intro member
    obtain ⟨entry, inside, same⟩ := mem_map.mp member
    exact (chosen entry inside).2.1 (by rw [same])
  have account := weigh_foldl_erase (fun entry => entry.bytes.val) distinct fun entry member => (chosen entry member).1
  have replaced := replacedBytes_val lru key
  have account' := weigh_erase (fun entry => entry.bytes.val) (selected.foldl drop lru).entries key
  have same : weightAt (fun entry => entry.bytes.val) (selected.foldl drop lru).entries key = (lru.replacedBytes key).val := by
    rw [replaced, weightAt, kept, weightAt]
  rw [← entries, ← balanced.sum] at account
  have sub : (saturatingSub lru.bytes (lru.replacedBytes key)).val = lru.bytes.val - (lru.replacedBytes key).val := rfl
  rw [saturatingAdd_val (by rw [sub]; exact fits), sub] at room
  have left := balanced''.sum
  rw [entries'] at left
  have within : ((selected.foldl drop lru).forget key).bytes.val + bytes.val ≤ lru.budgetBytes.val := by omega
  have added : (saturatingAdd ((selected.foldl drop lru).forget key).bytes bytes).val = _ :=
    saturatingAdd_val (lt_of_le_of_lt within lru.budgetBytes.isLt)
  have ticked : ((selected.foldl drop lru).forget key).tick.clock = lru.tick.clock := by rw [tick, clock', clock, tick]
  refine ⟨⟨?_, ?_⟩, budget'.trans budget, ticked, ?_, ?_, ?_⟩
  · change (saturatingAdd _ bytes).val = weigh _ (((selected.foldl drop lru).forget key).entries.insert key _)
    rw [added, weigh_insert, entries', erase_absent ExtTreeMap.getElem?_erase_self, left, Nat.add_comm]
  · change (saturatingAdd _ bytes) ≤ ((selected.foldl drop lru).forget key).budgetBytes
    rw [Fin.le_def, added, budget', budget]
    exact within
  · intro other
    change (((selected.foldl drop lru).forget key).entries.insert key _)[other]? = _
    rw [lookup_insert, ticked]
    split
    · rfl
    · rename_i distinct
      rw [entries', lookup_erase, if_neg distinct, entries, lookup_foldl_erase]
  · intro other member
    obtain ⟨entry, inside, rfl⟩ := mem_map.mp member
    obtain ⟨held, distinct, unretained⟩ := chosen entry inside
    exact ⟨fun same => distinct (congrArg some same), unretained, mem_of_held held⟩
  · intro leaving member staying absent distinct unretained entry entry' held held'
    have ordered := candidates_ordered lru (some key) retained
    have candidate : (staying, entry') ∈ lru.candidates (some key) retained :=
      mem_candidates.mpr ⟨held', fun same => distinct (Option.some.inj same), unretained⟩
    rw [split] at ordered candidate
    rcases mem_append.mp candidate with early | late
    · exact absurd (mem_map_of_mem early) absent
    · obtain ⟨other, inside, rfl⟩ := mem_map.mp member
      have same := (chosen other inside).1
      rw [held] at same
      cases same
      exact (pairwise_append.mp ordered).2.2 _ inside _ late

end PinnedLru

end Audec.Media

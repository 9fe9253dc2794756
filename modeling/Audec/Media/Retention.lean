import Audec.Media.Lru

/-! Admissions that are never refused: what makes room for them leaves as far as it is not retained,
    and the account may go over its budget. -/

open Std (ExtTreeMap)
open Machine Weights List Entries

namespace Audec.Media.PinnedLru

variable {K : Type} [LinearOrder K]

section

variable (lru : PinnedLru K)

def setBudget (budgetBytes : U64) : PinnedLru K := { lru with budgetBytes }

def overBudget : Bool := lru.budgetBytes < lru.bytes

def evictUnretained (replacing : Option K) (retained : K → Bool) : PinnedLru K × List K :=
  let leaving := lru.entries.toList.filter fun entry => some entry.1 ≠ replacing ∧ retained entry.1 = false
  (leaving.foldl drop lru, leaving.map Prod.fst)

def makeRoomOrEvict (required : U64) (replacing : Option K) (retained : K → Bool) : PinnedLru K × List K :=
  match lru.makeRoom required replacing retained with
  | .ok made => made
  | .error _ => lru.evictUnretained replacing retained

/-- Admit an entry that must not be refused. -/
def forceAdmit (key : K) (bytes : U64) (retained : K → Bool) : PinnedLru K × List K :=
  let required := saturatingAdd (saturatingSub lru.bytes (lru.replacedBytes key)) bytes
  let (roomy, evicted) := lru.makeRoomOrEvict required (some key) retained
  ((roomy.forget key).record key bytes, evicted)

/-- Drop unretained entries until the accounted bytes fit the budget. -/
def trim (retained : K → Bool) : PinnedLru K × List K := lru.makeRoomOrEvict lru.bytes none retained

def olderBytes (replacing : Option K) (retained : K → Bool) (key : K) : Nat :=
  (((lru.candidates replacing retained).takeWhile fun entry => entry.1 ≠ key).map fun entry => entry.2.bytes.val).sum

end

structure Passed (lru : PinnedLru K) (required : Nat) (replacing : Option K) (retained : K → Bool) (after : PinnedLru K) (evicted : List K) :
    Prop where
  summed : after.Summed
  budget : after.budgetBytes = lru.budgetBytes
  clock : after.clock = lru.clock
  lookup : ∀ key, after.entries[key]? = if key ∈ evicted then none else lru.entries[key]?
  evicts : ∀ key, key ∈ evicted ↔ (∃ entry, (key, entry) ∈ lru.candidates replacing retained) ∧
    lru.budgetBytes.val + lru.olderBytes replacing retained key < required
  shrinks : after.bytes.val ≤ lru.bytes.val
  freed : required + after.bytes.val ≤ lru.budgetBytes.val + lru.bytes.val ∨
    ∀ key entry, (key, entry) ∈ lru.candidates replacing retained → key ∈ evicted

section Selecting

omit [LinearOrder K]

variable {needFree : U64} {candidates : List (K × LruEntry)}

theorem select_short {selectedBytes : U64} (short : (select needFree selectedBytes candidates).2 < needFree) :
    (select needFree selectedBytes candidates).1 = candidates := by
  induction candidates generalizing selectedBytes with
  | nil => rfl
  | cons candidate candidates ih =>
    unfold select at short ⊢
    dsimp only at short ⊢
    split at short
    · rename_i enough
      exact absurd short (not_lt.mpr enough)
    · rename_i more
      rw [if_neg more, ih short]

variable [DecidableEq K]

theorem mem_select {selectedBytes : U64} (distinct : (candidates.map Prod.fst).Nodup)
    (short : selectedBytes < needFree)
    (fits : selectedBytes.val + (candidates.map fun entry => entry.2.bytes.val).sum < 0x10000000000000000) (entry : K × LruEntry) :
    entry ∈ (select needFree selectedBytes candidates).1 ↔ entry ∈ candidates ∧
      selectedBytes.val + ((candidates.takeWhile fun other => other.1 ≠ entry.1).map fun other => other.2.bytes.val).sum < needFree.val := by
  induction candidates generalizing selectedBytes with
  | nil => simp [select]
  | cons candidate candidates ih =>
    rw [map_cons, nodup_cons] at distinct
    rw [map_cons, sum_cons] at fits
    have added := @saturatingAdd_val selectedBytes candidate.2.bytes (by omega)
    have first : selectedBytes.val + (((candidate :: candidates).takeWhile fun other => other.1 ≠ candidate.1).map
        fun other => other.2.bytes.val).sum < needFree.val := by
      rw [takeWhile_cons_of_neg (by simp)]
      exact short
    have later (other : K × LruEntry) (member : other ∈ candidates) : (candidate :: candidates).takeWhile (fun entry => entry.1 ≠ other.1) =
        candidate :: candidates.takeWhile fun entry => entry.1 ≠ other.1 := by
      rw [takeWhile_cons_of_pos]
      rw [decide_eq_true_eq]
      intro same
      exact distinct.1 (same ▸ mem_map_of_mem member)
    unfold select
    dsimp only
    split
    · rename_i enough
      rw [Fin.le_def, added] at enough
      rw [mem_singleton, mem_cons]
      constructor
      · rintro rfl
        exact ⟨.inl rfl, first⟩
      · rintro ⟨rfl | member, before⟩
        · rfl
        · rw [later entry member, map_cons, sum_cons] at before
          omega
    · rename_i more
      rw [mem_cons, ih distinct.2 (not_le.mp more) (by rw [added]; omega), mem_cons, added]
      constructor
      · rintro (rfl | ⟨member, before⟩)
        · exact ⟨.inl rfl, first⟩
        · refine ⟨.inr member, ?_⟩
          rw [later entry member, map_cons, sum_cons]
          omega
      · rintro ⟨rfl | member, before⟩
        · exact .inl rfl
        · rw [later entry member, map_cons, sum_cons] at before
          exact .inr ⟨member, by omega⟩

end Selecting

section Passing

variable {lru : PinnedLru K}

theorem foldl_drop_passed {leaving : List (K × LruEntry)} {required : Nat} {replacing : Option K} {retained : K → Bool}
    (summed : lru.Summed) (distinct : (leaving.map Prod.fst).Nodup)
    (chosen : ∀ entry, entry ∈ leaving ↔ entry ∈ lru.candidates replacing retained ∧
      lru.budgetBytes.val + lru.olderBytes replacing retained entry.1 < required)
    (enough : required ≤ lru.budgetBytes.val + (leaving.map fun entry => entry.2.bytes.val).sum ∨
      ∀ entry ∈ lru.candidates replacing retained, entry ∈ leaving) :
    Passed lru required replacing retained (leaving.foldl drop lru) (leaving.map Prod.fst) := by
  have held : ∀ entry ∈ leaving, lru.entries[entry.1]? = some entry.2 := fun entry member => (mem_candidates.mp ((chosen entry).mp member).1).1
  obtain ⟨after, budget, clock, entries⟩ := foldl_drop_summed distinct summed held
  have account := weigh_foldl_erase (fun entry => entry.bytes.val) distinct held
  rw [← entries, ← summed, ← after] at account
  refine ⟨after, budget, clock, fun key => ?_, fun key => ?_, by omega, ?_⟩
  · rw [entries, lookup_foldl_erase]
  · rw [mem_map]
    constructor
    · rintro ⟨entry, member, rfl⟩
      obtain ⟨candidate, older⟩ := (chosen entry).mp member
      exact ⟨⟨entry.2, candidate⟩, older⟩
    · rintro ⟨⟨entry, candidate⟩, older⟩
      exact ⟨(key, entry), (chosen (key, entry)).mpr ⟨candidate, older⟩, rfl⟩
  · rcases enough with enough | all
    · exact .inl (by omega)
    · exact .inr fun key entry candidate => mem_map_of_mem (all _ candidate)

theorem makeRoomOrEvict_passed (summed : lru.Summed) (required : U64) (replacing : Option K) (retained : K → Bool) :
    Passed lru required.val replacing retained (lru.makeRoomOrEvict required replacing retained).1
      (lru.makeRoomOrEvict required replacing retained).2 := by
  have account := candidates_bytes lru replacing retained
  rw [← summed] at account
  have fits : (0 : U64).val + ((lru.candidates replacing retained).map fun entry => entry.2.bytes.val).sum < 0x10000000000000000 := by
    rw [Fin.val_zero, Nat.zero_add]
    exact lt_of_le_of_lt account lru.bytes.isLt
  have distinct := nodup_candidates lru replacing retained
  have needed : (saturatingSub required lru.budgetBytes).val = required.val - lru.budgetBytes.val := rfl
  unfold makeRoomOrEvict makeRoom
  dsimp only
  by_cases enough : saturatingSub required lru.budgetBytes = 0
  · rw [if_pos enough]
    have none : required.val - lru.budgetBytes.val = 0 := congrArg Fin.val enough
    refine @foldl_drop_passed _ _ lru [] _ _ _ summed nodup_nil (fun entry => ⟨nofun, fun chosen => ?_⟩) (.inl ?_)
    · have before := chosen.2
      omega
    · rw [map_nil, sum_nil]
      omega
  · rw [if_neg enough]
    have short : (0 : U64) < saturatingSub required lru.budgetBytes := Fin.pos_iff_ne_zero.mpr enough
    have chosen := mem_select distinct short fits
    have counted := @select_bytes _ _ (saturatingSub required lru.budgetBytes) 0 (lru.candidates replacing retained) fits
    rw [Fin.val_zero, Nat.zero_add] at counted
    by_cases falls : (select (saturatingSub required lru.budgetBytes) 0 (lru.candidates replacing retained)).2 < saturatingSub required lru.budgetBytes
    · rw [if_pos falls]
      have all := select_short falls
      rw [all] at chosen
      have perm : (lru.entries.toList.filter fun entry => some entry.1 ≠ replacing ∧ retained entry.1 = false).Perm
          (lru.candidates replacing retained) := (perm_insertionSort Older _).symm
      refine foldl_drop_passed summed ((perm.map _).nodup_iff.mpr distinct) (fun entry => ?_) (.inr fun entry => perm.mem_iff.mpr)
      rw [perm.mem_iff]
      refine ⟨fun candidate => ⟨candidate, ?_⟩, And.left⟩
      have before := ((chosen entry).mp candidate).2
      rw [Fin.val_zero, Nat.zero_add, needed] at before
      unfold olderBytes
      omega
    · rw [if_neg falls]
      obtain ⟨rest, split⟩ := select_prefix (saturatingSub required lru.budgetBytes) 0 (lru.candidates replacing retained)
      refine foldl_drop_passed summed ?_ (fun entry => ?_) (.inl ?_)
      · rw [split, map_append] at distinct
        exact (nodup_append.mp distinct).1
      · rw [chosen entry, Fin.val_zero, Nat.zero_add, needed]
        unfold olderBytes
        refine and_congr_right fun _ => ?_
        omega
      · have freed : (saturatingSub required lru.budgetBytes).val ≤ _ := Fin.le_def.mp (not_lt.mp falls)
        rw [counted, needed] at freed
        omega

theorem trim_passed (summed : lru.Summed) (retained : K → Bool) :
    Passed lru lru.bytes.val none retained (lru.trim retained).1 (lru.trim retained).2 :=
  makeRoomOrEvict_passed summed lru.bytes none retained

/-- An entry that was not there before is in, and what left made room for it. -/
structure Forced (lru : PinnedLru K) (key : K) (bytes : U64) (retained : K → Bool) (after : PinnedLru K) (evicted : List K) : Prop where
  summed : after.Summed
  budget : after.budgetBytes = lru.budgetBytes
  lookup : ∀ other, after.entries[other]? =
    if key = other then some ⟨bytes, lru.tick.clock⟩ else if other ∈ evicted then none else lru.entries[other]?
  evicts : ∀ other, other ∈ evicted ↔ (∃ entry, (other, entry) ∈ lru.candidates none retained) ∧
    lru.budgetBytes.val + lru.olderBytes none retained other < lru.bytes.val + bytes.val
  freed : after.bytes.val ≤ lru.budgetBytes.val ∨ ∀ other entry, (other, entry) ∈ lru.candidates none retained → other ∈ evicted

theorem candidates_congr {replacing : Option K} {retained retained' : K → Bool} (same : ∀ key ∈ lru.entries, retained key = retained' key) :
    lru.candidates replacing retained = lru.candidates replacing retained' := by
  unfold candidates
  congr 1
  apply filter_congr
  rintro ⟨key, entry⟩ member
  have there : key ∈ lru.entries := by
    rw [ExtTreeMap.mem_iff_isSome_getElem?, mem_toList.mp member]
    rfl
  rw [same key there]

theorem candidates_absent {key : K} (absent : lru.entries[key]? = none) (retained : K → Bool) :
    lru.candidates (some key) retained = lru.candidates none retained := by
  unfold candidates
  congr 1
  apply filter_congr
  rintro ⟨other, entry⟩ member
  have held := mem_toList.mp member
  have distinct : some other ≠ some key := by
    intro same
    rw [Option.some.inj same, absent] at held
    cases held
  rw [decide_eq_decide]
  exact and_congr_left fun _ => ⟨fun _ => nofun, fun _ => distinct⟩

theorem forceAdmit_forced (summed : lru.Summed) {key : K} (absent : lru.entries[key]? = none) (bytes : U64) (retained : K → Bool)
    (fits : lru.bytes.val + bytes.val < 0x10000000000000000) :
    Forced lru key bytes retained (lru.forceAdmit key bytes retained).1 (lru.forceAdmit key bytes retained).2 := by
  have replaced : lru.replacedBytes key = 0 := by
    unfold replacedBytes
    rw [absent]
    rfl
  have required : saturatingAdd (saturatingSub lru.bytes (lru.replacedBytes key)) bytes = saturatingAdd lru.bytes bytes := by
    rw [replaced]
    rfl
  have passed := makeRoomOrEvict_passed summed (saturatingAdd lru.bytes bytes) (some key) retained
  rw [saturatingAdd_val fits] at passed
  unfold forceAdmit
  dsimp only
  rw [required]
  generalize lru.makeRoomOrEvict (saturatingAdd lru.bytes bytes) (some key) retained = made at passed ⊢
  obtain ⟨roomy, evicted⟩ := made
  obtain ⟨summed', budget, clock, lookup, evicts, shrinks, freed⟩ := passed
  have out : roomy.entries[key]? = none := by
    rw [lookup, absent, ite_self]
  have forgotten : roomy.forget key = roomy := by
    unfold forget
    rw [out]
  dsimp only at *
  rw [forgotten]
  have added : (saturatingAdd roomy.bytes bytes).val = roomy.bytes.val + bytes.val := saturatingAdd_val (by omega)
  have ticked : roomy.tick.clock = lru.tick.clock := by
    unfold tick
    rw [clock]
  refine ⟨?_, budget, fun other => ?_, fun other => ?_, ?_⟩
  · change (saturatingAdd roomy.bytes bytes).val = weigh _ (roomy.entries.insert key _)
    rw [added, weigh_insert, erase_absent out, summed', Nat.add_comm]
  · change (roomy.entries.insert key _)[other]? = _
    rw [lookup_insert, ticked, lookup]
  · rw [evicts]
    unfold olderBytes
    rw [candidates_absent absent]
  · change (saturatingAdd roomy.bytes bytes).val ≤ _ ∨ _
    rw [added]
    rw [candidates_absent absent] at freed
    rcases freed with enough | all
    · exact .inl (by omega)
    · exact .inr all

end Passing

end Audec.Media.PinnedLru

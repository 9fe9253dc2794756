import Mathlib

/-! Counting the entries of an ordered map that pass a test. -/

open Std (ExtTreeMap TransCmp LawfulEqCmp)

open Std.ExtTreeMap

namespace Entries

variable {κ ν μ : Type} {cmp : κ → κ → Ordering} [TransCmp cmp] [LawfulEqCmp cmp]

def count (test : κ → ν → Bool) (map : ExtTreeMap κ ν cmp) : Nat :=
  map.toList.countP fun entry => test entry.1 entry.2

def values (map : ExtTreeMap κ ν cmp) : List ν := map.toList.map Prod.snd

section Held

variable {map : ExtTreeMap κ ν cmp} {key : κ}

theorem mem_of_held {value : ν} (held : map[key]? = some value) : key ∈ map :=
  mem_iff_isSome_getElem?.mpr (held ▸ rfl)

theorem held_of_mem (inside : key ∈ map) : ∃ value, map[key]? = some value :=
  Option.isSome_iff_exists.mp (mem_iff_isSome_getElem?.mp inside)

theorem not_mem_of_absent (absent : map[key]? = none) : key ∉ map := by
  rw [mem_iff_isSome_getElem?, absent]
  exact Bool.false_ne_true

end Held

section Lookup

variable [DecidableEq κ]

theorem lookup_insert (map : ExtTreeMap κ ν cmp) (key other : κ) (value : ν) :
    (map.insert key value)[other]? = if key = other then some value else map[other]? := by
  rw [getElem?_insert]
  simp only [LawfulEqCmp.compare_eq_iff_eq]

theorem held_insert {map : ExtTreeMap κ ν cmp} {key other : κ} {value found : ν} :
    (map.insert key value)[other]? = some found ↔ (key = other ∧ value = found) ∨ (key ≠ other ∧ map[other]? = some found) := by
  rw [lookup_insert]
  split <;> simp_all

theorem lookup_erase (map : ExtTreeMap κ ν cmp) (key other : κ) :
    (map.erase key)[other]? = if key = other then none else map[other]? := by
  rw [getElem?_erase]
  simp only [LawfulEqCmp.compare_eq_iff_eq]

theorem lookup_foldl_erase (keys : List κ) (map : ExtTreeMap κ ν cmp) (key : κ) :
    (keys.foldl (fun map key => map.erase key) map)[key]? = if key ∈ keys then none else map[key]? := by
  induction keys generalizing map with
  | nil => simp
  | cons first keys ih =>
    rw [List.foldl_cons, ih, lookup_erase]
    by_cases later : key ∈ keys
    · simp [later]
    · by_cases same : first = key
      · simp [same]
      · simp [later, same, Ne.symm same]

theorem lookup_foldl_insert (value : κ → ν) (keys : List κ) (map : ExtTreeMap κ ν cmp) (key : κ) :
    (keys.foldl (fun map key => map.insert key (value key)) map)[key]? = if key ∈ keys then some (value key) else map[key]? := by
  induction keys generalizing map with
  | nil => simp
  | cons first keys ih =>
    rw [List.foldl_cons, ih, lookup_insert]
    by_cases later : key ∈ keys
    · simp [later]
    · by_cases same : first = key
      · simp [same]
      · simp [later, same, Ne.symm same]

section Writing

variable (write : ExtTreeMap κ ν cmp → κ → μ → ExtTreeMap κ ν cmp) (result : κ → μ → Option ν)
  (writes : ∀ map key value other, (write map key value)[other]? = if key = other then result key value else map[other]?)
include writes

theorem lookup_foldl_absent {entries : List (κ × μ)} (map : ExtTreeMap κ ν cmp) {key : κ} (absent : key ∉ entries.map Prod.fst) :
    (entries.foldl (fun map entry => write map entry.1 entry.2) map)[key]? = map[key]? := by
  induction entries generalizing map with
  | nil => rfl
  | cons entry entries ih =>
    rw [List.map_cons, List.mem_cons, not_or] at absent
    rw [List.foldl_cons, ih _ absent.2, writes, if_neg (Ne.symm absent.1)]

theorem lookup_foldl_present {entries : List (κ × μ)} (distinct : (entries.map Prod.fst).Nodup) (map : ExtTreeMap κ ν cmp) {key : κ} {value : μ}
    (present : (key, value) ∈ entries) :
    (entries.foldl (fun map entry => write map entry.1 entry.2) map)[key]? = result key value := by
  induction entries generalizing map with
  | nil => cases present
  | cons entry entries ih =>
    rw [List.map_cons, List.nodup_cons] at distinct
    rw [List.foldl_cons]
    rcases List.mem_cons.mp present with rfl | later
    · rw [lookup_foldl_absent write result writes _ distinct.1, writes, if_pos rfl]
    · exact ih distinct.2 _ later

theorem lookup_foldl_entries (entries : ExtTreeMap κ μ cmp) (map : ExtTreeMap κ ν cmp) (key : κ) :
    (entries.toList.foldl (fun map entry => write map entry.1 entry.2) map)[key]? = entries[key]?.elim map[key]? (result key) := by
  have distinct : (entries.toList.map Prod.fst).Nodup := by
    rw [map_fst_toList_eq_keys]
    exact nodup_keys
  cases held : entries[key]? with
  | none =>
    apply lookup_foldl_absent write result writes
    rw [map_fst_toList_eq_keys, mem_keys]
    rw [mem_iff_isSome_getElem?, held]
    exact Bool.false_ne_true
  | some value =>
    exact lookup_foldl_present write result writes distinct map (mem_toList_iff_getElem?_eq_some.mpr held)

end Writing

end Lookup

theorem nodup_toList (map : ExtTreeMap κ ν cmp) : map.toList.Nodup := by
  apply List.Nodup.of_map Prod.fst
  rw [map_fst_toList_eq_keys]
  exact nodup_keys

theorem mem_toList {map : ExtTreeMap κ ν cmp} {key : κ} {value : ν} :
    (key, value) ∈ map.toList ↔ map[key]? = some value :=
  mem_toList_iff_getElem?_eq_some

theorem mem_values {map : ExtTreeMap κ ν cmp} {value : ν} : value ∈ values map ↔ ∃ key : κ, map[key]? = some value := by
  unfold values
  rw [List.mem_map]
  constructor
  · rintro ⟨⟨key, value⟩, inside, rfl⟩
    exact ⟨key, mem_toList.mp inside⟩
  · rintro ⟨key, held⟩
    exact ⟨(key, value), mem_toList.mpr held, rfl⟩

theorem toList_perm {map : ExtTreeMap κ ν cmp} {key : κ} {value : ν} (held : map[key]? = some value) :
    map.toList.Perm ((key, value) :: (map.erase key).toList) := by
  have absent : (key, value) ∉ (map.erase key).toList := by
    rw [mem_toList, getElem?_erase_self]
    exact nofun
  refine (List.perm_ext_iff_of_nodup (nodup_toList map) (List.nodup_cons.mpr ⟨absent, nodup_toList _⟩)).mpr ?_
  rintro ⟨other, found⟩
  classical
  rw [List.mem_cons, Prod.mk.injEq, mem_toList, mem_toList, lookup_erase]
  by_cases same : key = other
  · subst same
    rw [if_pos rfl, held]
    simp [eq_comm]
  · rw [if_neg same]
    simp [Ne.symm same]

theorem filter_key [DecidableEq κ] (map : ExtTreeMap κ ν cmp) (key : κ) :
    (map.toList.filter fun entry => decide (entry.1 = key)).map Prod.snd = map[key]?.toList := by
  have others : ∀ map : ExtTreeMap κ ν cmp, map[key]? = none → (map.toList.filter fun entry => decide (entry.1 = key)) = [] := by
    intro map absent
    rw [List.filter_eq_nil_iff]
    rintro ⟨other, value⟩ inside
    rw [decide_eq_true_eq]
    rintro rfl
    rw [mem_toList, absent] at inside
    cases inside
  cases held : map[key]? with
  | none => rw [others map held, List.map_nil, Option.toList_none]
  | some value =>
    have perm := (toList_perm held).filter fun entry => decide (entry.1 = key)
    have alone := others (map.erase key) getElem?_erase_self
    rw [List.filter_cons_of_pos (by simp), alone] at perm
    rw [List.perm_singleton.mp perm, List.map_singleton, Option.toList_some]

theorem insert_perm (map : ExtTreeMap κ ν cmp) (key : κ) (value : ν) :
    (map.insert key value).toList.Perm ((key, value) :: (map.erase key).toList) := by
  have held : (map.insert key value)[key]? = some value := getElem?_insert_self
  have others : (map.insert key value).erase key = map.erase key := by
    apply ext_getElem?
    intro other
    rw [getElem?_erase, getElem?_erase, getElem?_insert]
    split <;> rfl
  have perm := toList_perm held
  rwa [others] at perm

theorem erase_absent {map : ExtTreeMap κ ν cmp} {key : κ} (absent : map[key]? = none) : map.erase key = map := by
  apply ext_getElem?
  intro other
  classical
  rw [lookup_erase]
  split
  · rename_i same
    rw [← same, absent]
  · rfl

section

variable (test : κ → ν → Bool)

theorem count_held {map : ExtTreeMap κ ν cmp} {key : κ} {value : ν}
    (held : map[key]? = some value) :
    count test map = count test (map.erase key) + if test key value = true then 1 else 0 := by
  unfold count
  rw [(toList_perm held).countP_eq, List.countP_cons]

theorem count_insert (map : ExtTreeMap κ ν cmp) (key : κ) (value : ν) :
    count test (map.insert key value) = count test (map.erase key) + if test key value = true then 1 else 0 := by
  unfold count
  rw [(insert_perm map key value).countP_eq, List.countP_cons]

theorem count_insert_new {map : ExtTreeMap κ ν cmp} {key : κ} (value : ν)
    (absent : map[key]? = none) :
    count test (map.insert key value) = count test map + if test key value = true then 1 else 0 := by
  rw [count_insert, erase_absent absent]

theorem count_replace {map : ExtTreeMap κ ν cmp} {key : κ} {old new : ν}
    (held : map[key]? = some old) (same : test key new = test key old) :
    count test (map.insert key new) = count test map := by
  rw [count_insert, count_held test held, same]

end

theorem count_le_of {test : κ → ν → Bool} {test' : κ → μ → Bool} {map : ExtTreeMap κ ν cmp} {map' : ExtTreeMap κ μ cmp}
    (below : ∀ key value, map[key]? = some value → test key value = true →
      ∃ value', map'[key]? = some value' ∧ test' key value' = true) : count test map ≤ count test' map' := by
  have length : ∀ {ρ : Type} (entries : List (κ × ρ)), entries.length = (entries.map Prod.fst).length :=
    fun entries => (List.length_map Prod.fst).symm
  unfold count
  rw [List.countP_eq_length_filter, List.countP_eq_length_filter, length, length]
  have keys : (map.toList.map Prod.fst).Nodup := by
    rw [map_fst_toList_eq_keys]
    exact nodup_keys
  apply List.Subperm.length_le
  apply List.subperm_of_subset (keys.sublist (List.filter_sublist.map _))
  intro _ inside
  obtain ⟨⟨key, value⟩, found, rfl⟩ := List.mem_map.mp inside
  obtain ⟨held, passes⟩ := List.mem_filter.mp found
  obtain ⟨value', held', passes'⟩ := below key value (mem_toList.mp held) passes
  exact List.mem_map.mpr ⟨(key, value'), List.mem_filter.mpr ⟨mem_toList.mpr held', passes'⟩, rfl⟩

theorem count_le_size (test : κ → ν → Bool) (map : ExtTreeMap κ ν cmp) : count test map ≤ map.size := by
  rw [← length_toList]
  exact List.countP_le_length

theorem count_empty (test : κ → ν → Bool) : count test (∅ : ExtTreeMap κ ν cmp) = 0 := by
  apply Nat.eq_zero_of_le_zero
  have bound := count_le_size test (∅ : ExtTreeMap κ ν cmp)
  rwa [size_empty] at bound

theorem count_add_count_not (test : κ → ν → Bool) (map : ExtTreeMap κ ν cmp) :
    count test map + count (fun key value => !test key value) map = map.size := by
  rw [← length_toList, List.length_eq_countP_add_countP fun entry => test entry.1 entry.2]
  simp only [count, Bool.not_eq_true, Bool.decide_eq_false]

theorem exists_key_of_size_le {κ ν : Type} [LinearOrder κ] {map other : ExtTreeMap κ ν} {key : κ} (size : map.size ≤ other.size)
    (inside : map[key]? ≠ none) (outside : other[key]? = none) : ∃ key' : κ, other[key']? ≠ none ∧ map[key']? = none := by
  by_contra lacking
  have every : ∀ key' : κ, other[key']? ≠ none → map[key']? ≠ none := fun key' held absent => lacking ⟨key', held, absent⟩
  have present (map : ExtTreeMap κ ν) (key : κ) : key ∈ map.keys ↔ map[key]? ≠ none := by
    rw [mem_keys, mem_iff_isSome_getElem?, Option.isSome_iff_ne_none]
  have sublist : other.keys.toFinset ⊂ map.keys.toFinset := by
    refine Finset.ssubset_iff_subset_ne.mpr ⟨fun key' member => ?_, fun same => ?_⟩
    · rw [List.mem_toFinset, present] at member ⊢
      exact every key' member
    · have member : key ∈ map.keys.toFinset := List.mem_toFinset.mpr ((present map key).mpr inside)
      rw [← same, List.mem_toFinset, present] at member
      exact member outside
  have fewer := Finset.card_lt_card sublist
  rw [List.toFinset_card_of_nodup nodup_keys, List.toFinset_card_of_nodup nodup_keys, length_keys,
    length_keys] at fewer
  omega

end Entries

/-! The sum of the weights of an ordered map's entries. -/

namespace Weights

variable {κ ν μ : Type} {cmp : κ → κ → Ordering} [TransCmp cmp] [LawfulEqCmp cmp]

section

variable (weight : ν → Nat)

def weigh (map : ExtTreeMap κ ν cmp) : Nat := (map.toList.map fun entry => weight entry.2).sum

theorem weigh_empty : weigh weight (∅ : ExtTreeMap κ ν cmp) = 0 := rfl

theorem weigh_held {map : ExtTreeMap κ ν cmp} {key : κ} {value : ν} (held : map[key]? = some value) :
    weigh weight map = weight value + weigh weight (map.erase key) := by
  unfold weigh
  rw [((Entries.toList_perm held).map _).sum_eq, List.map_cons, List.sum_cons]

section

variable (map : ExtTreeMap κ ν cmp)

theorem weigh_insert (key : κ) (value : ν) :
    weigh weight (map.insert key value) = weight value + weigh weight (map.erase key) := by
  unfold weigh
  rw [((Entries.insert_perm map key value).map _).sum_eq, List.map_cons, List.sum_cons]

def weightAt (key : κ) : Nat := (map[key]?.map weight).getD 0

theorem weigh_erase (key : κ) :
    weigh weight map = weightAt weight map key + weigh weight (map.erase key) := by
  unfold weightAt
  cases held : map[key]? with
  | none => rw [Entries.erase_absent held, Option.map_none, Option.getD_none, Nat.zero_add]
  | some value => rw [weigh_held weight held, Option.map_some, Option.getD_some]

end

theorem weigh_foldl_erase {leaving : List (κ × ν)} (distinct : (leaving.map Prod.fst).Nodup) {map : ExtTreeMap κ ν cmp}
    (held : ∀ entry ∈ leaving, map[entry.1]? = some entry.2) :
    weigh weight map = (leaving.map fun entry => weight entry.2).sum +
      weigh weight ((leaving.map Prod.fst).foldl (fun map key => map.erase key) map) := by
  induction leaving generalizing map with
  | nil => simp
  | cons entry leaving tail =>
    rw [List.map_cons, List.nodup_cons] at distinct
    have kept : ∀ other ∈ leaving, (map.erase entry.1)[other.1]? = some other.2 := by
      intro other member
      classical
      rw [Entries.lookup_erase, if_neg, held other (List.mem_cons_of_mem _ member)]
      intro same
      exact distinct.1 (same ▸ List.mem_map_of_mem member)
    rw [List.map_cons, List.map_cons, List.foldl_cons, List.sum_cons, weigh_held weight (held entry List.mem_cons_self),
      tail distinct.2 kept, add_assoc]

end

theorem weigh_congr {weight : ν → Nat} {weight' : μ → Nat} {map : ExtTreeMap κ ν cmp} {map' : ExtTreeMap κ μ cmp}
    (same : ∀ key : κ, map[key]?.map weight = map'[key]?.map weight') : weigh weight map = weigh weight' map' := by
  have mapped (map : ExtTreeMap κ ν cmp) (weight : ν → Nat) :
      weigh weight map = ((map.toList.map fun entry => (entry.1, weight entry.2)).map Prod.snd).sum := by
    rw [List.map_map]
    rfl
  have mapped' (map : ExtTreeMap κ μ cmp) (weight : μ → Nat) :
      weigh weight map = ((map.toList.map fun entry => (entry.1, weight entry.2)).map Prod.snd).sum := by
    rw [List.map_map]
    rfl
  rw [mapped, mapped']
  apply List.Perm.sum_eq
  apply List.Perm.map
  refine (List.perm_ext_iff_of_nodup ?_ ?_).mpr ?_
  · apply List.Nodup.of_map Prod.fst
    rw [List.map_map]
    exact (map_fst_toList_eq_keys (t := map)) ▸ nodup_keys
  · apply List.Nodup.of_map Prod.fst
    rw [List.map_map]
    exact (map_fst_toList_eq_keys (t := map')) ▸ nodup_keys
  · rintro ⟨key, total⟩
    have here := same key
    simp only [List.mem_map, Prod.exists, Entries.mem_toList, Prod.mk.injEq]
    constructor
    · rintro ⟨key, value, held, rfl, rfl⟩
      rw [held, Option.map_some, eq_comm, Option.map_eq_some_iff] at here
      obtain ⟨other, held', weighs⟩ := here
      exact ⟨key, other, held', rfl, weighs⟩
    · rintro ⟨key, value, held, rfl, rfl⟩
      rw [held, Option.map_some, Option.map_eq_some_iff] at here
      obtain ⟨other, held', weighs⟩ := here
      exact ⟨key, other, held', rfl, weighs⟩

theorem weigh_add (weight weight' : ν → Nat) (map : ExtTreeMap κ ν cmp) :
    weigh weight map + weigh weight' map = weigh (fun value => weight value + weight' value) map := by
  unfold weigh
  rw [← List.sum_map_add]

end Weights

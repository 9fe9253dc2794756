import Audec.Lib.Entries

/-! An ordered map used as a queue: entries come in after the last key and leave at the first. -/

open Std (ExtTreeMap TransCmp LawfulEqCmp)

open Entries List

namespace Queue

variable {κ ν : Type} {cmp : κ → κ → Ordering} [TransCmp cmp] [LawfulEqCmp cmp]

section Order

omit [LawfulEqCmp cmp]

theorem ordered_keys (map : ExtTreeMap κ ν cmp) : map.toList.Pairwise fun a b => cmp a.1 b.1 = .lt :=
  ExtTreeMap.ordered_keys_toList

theorem eq_of_perm {entries : List (κ × ν)} {map : ExtTreeMap κ ν cmp} (perm : map.toList.Perm entries)
    (ordered : entries.Pairwise fun a b => cmp a.1 b.1 = .lt) : map.toList = entries := by
  apply perm.eq_of_pairwise _ (ordered_keys map) ordered
  intro a b _ _ before after
  rw [Std.OrientedCmp.gt_iff_lt.mpr after] at before
  cases before

end Order

variable {key : κ} {map : ExtTreeMap κ ν cmp}

theorem toList_insert_last (value : ν)
    (last : ∀ entry ∈ map.toList, cmp entry.1 key = .lt) : (map.insert key value).toList = map.toList ++ [(key, value)] := by
  have absent : map[key]? = none := by
    cases held : map[key]? with
    | none => rfl
    | some other =>
      have before := last _ (mem_toList.mpr held)
      have same : cmp key key = .eq := Std.ReflCmp.compare_self
      rw [same] at before
      cases before
  apply eq_of_perm
  · have perm := insert_perm map key value
    rw [erase_absent absent] at perm
    exact perm.trans (perm_append_singleton _ _).symm
  · rw [pairwise_append]
    refine ⟨ordered_keys map, pairwise_singleton _ _, fun entry member other alone => ?_⟩
    cases mem_singleton.mp alone
    exact last entry member

theorem toList_erase_first {value : ν} {rest : List (κ × ν)}
    (first : map.toList = (key, value) :: rest) : (map.erase key).toList = rest := by
  have held : map[key]? = some value := mem_toList.mp (first ▸ mem_cons_self)
  apply eq_of_perm
  · have perm := toList_perm held
    rw [first] at perm
    exact perm.symm.cons_inv
  · have ordered := ordered_keys map
    rw [first] at ordered
    exact ordered.of_cons

end Queue

/-! Ordered maps collected from lists of entries. -/

namespace Collected

variable {κ ν : Type} {cmp : κ → κ → Ordering} [TransCmp cmp] [LawfulEqCmp cmp]

def collectInto (map : ExtTreeMap κ ν cmp) (entries : List (κ × ν)) : ExtTreeMap κ ν cmp :=
  entries.foldl (fun map entry => map.insert entry.1 entry.2) map

def collect (entries : List (κ × ν)) : ExtTreeMap κ ν cmp := collectInto ∅ entries

variable {entries : List (κ × ν)} {key : κ} {value : ν}

theorem lookup_collectInto (distinct : (entries.map Prod.fst).Nodup) {map : ExtTreeMap κ ν cmp}
    (fresh : ∀ entry ∈ entries, map[entry.1]? = none) :
    (collectInto map entries)[key]? = some value ↔ (key, value) ∈ entries ∨ map[key]? = some value := by
  induction entries generalizing map with
  | nil => simp [collectInto]
  | cons entry entries tail =>
    classical
    rw [map_cons, nodup_cons] at distinct
    have later : ∀ other ∈ entries, (map.insert entry.1 entry.2)[other.1]? = none := by
      intro other member
      rw [lookup_insert, if_neg, fresh other (mem_cons_of_mem _ member)]
      intro same
      exact distinct.1 (same ▸ mem_map_of_mem member)
    change (collectInto (map.insert entry.1 entry.2) entries)[key]? = _ ↔ _
    rw [tail distinct.2 later, lookup_insert, mem_cons, Prod.ext_iff]
    by_cases same : entry.1 = key
    · have absent : map[key]? = none := same ▸ fresh entry mem_cons_self
      rw [if_pos same, absent, Option.some.injEq]
      constructor
      · rintro (member | rfl)
        · exact .inl (.inr member)
        · exact .inl (.inl ⟨same.symm, rfl⟩)
      · rintro ((⟨-, rfl⟩ | member) | impossible)
        · exact .inr rfl
        · exact .inl member
        · cases impossible
    · rw [if_neg same]
      constructor
      · rintro (member | held)
        · exact .inl (.inr member)
        · exact .inr held
      · rintro ((⟨rfl, -⟩ | member) | held)
        · exact absurd rfl same
        · exact .inl member
        · exact .inr held

theorem lookup_collect (distinct : (entries.map Prod.fst).Nodup) :
    (collect entries : ExtTreeMap κ ν cmp)[key]? = some value ↔ (key, value) ∈ entries := by
  unfold collect
  rw [lookup_collectInto distinct fun _ _ => ExtTreeMap.getElem?_empty, ExtTreeMap.getElem?_empty]
  simp

theorem distinct_keys (map : ExtTreeMap κ ν cmp) : (map.toList.map Prod.fst).Nodup := by
  rw [ExtTreeMap.map_fst_toList_eq_keys]
  exact ExtTreeMap.nodup_keys

theorem collect_toList (map : ExtTreeMap κ ν cmp) : (collect map.toList : ExtTreeMap κ ν cmp) = map := by
  apply ExtTreeMap.ext_getElem?
  intro key
  apply Option.ext
  intro value
  rw [lookup_collect (distinct_keys map), mem_toList]

theorem toList_collect_perm (distinct : (entries.map Prod.fst).Nodup) :
    (collect entries : ExtTreeMap κ ν cmp).toList.Perm entries := by
  refine (perm_ext_iff_of_nodup (nodup_toList _) (Nodup.of_map _ distinct)).mpr ?_
  rintro ⟨key, value⟩
  rw [mem_toList, lookup_collect distinct]

theorem toList_collect (ordered : entries.Pairwise fun a b => cmp a.1 b.1 = .lt) :
    (collect entries : ExtTreeMap κ ν cmp).toList = entries := by
  have distinct : (entries.map Prod.fst).Nodup := by
    rw [List.Nodup, pairwise_map]
    refine ordered.imp fun {a b} before same => ?_
    have equal : cmp a.1 b.1 = .eq := same ▸ Std.ReflCmp.compare_self
    rw [equal] at before
    cases before
  exact Queue.eq_of_perm (toList_collect_perm distinct) ordered

end Collected

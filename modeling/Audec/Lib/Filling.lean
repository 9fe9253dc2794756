import Audec.Lib.Checked

/-! Maps that are filled item by item, and refuse a key the second time. -/

open Checked List Entries
open Std (ExtTreeMap)

namespace Filling

variable {α κ ε : Type} [LinearOrder κ]

def insertItems (key : α → κ) (map : ExtTreeMap κ α compare) (items : List α) : ExtTreeMap κ α compare :=
  items.foldl (fun map item => map.insert (key item) item) map

variable {key : α → κ}

variable {map : ExtTreeMap κ α compare} {items : List α}

theorem lookup_insertItems (distinct : (items.map key).Nodup) {found : κ} {item : α} :
    (insertItems key map items)[found]? = some item ↔
      (item ∈ items ∧ key item = found) ∨ (found ∉ items.map key ∧ map[found]? = some item) := by
  induction items generalizing map with
  | nil => simp [insertItems]
  | cons first items tail =>
    obtain ⟨absent, distinct⟩ := nodup_cons.mp distinct
    have step : insertItems key map (first :: items) = insertItems key (map.insert (key first) first) items := rfl
    rw [step, tail distinct, lookup_insert, mem_cons, map_cons, mem_cons]
    by_cases same : key first = found
    · subst same
      rw [if_pos rfl, Option.some.injEq]
      constructor
      · rintro (⟨inside, known⟩ | ⟨-, rfl⟩)
        · exact .inl ⟨.inr inside, known⟩
        · exact .inl ⟨.inl rfl, rfl⟩
      · rintro (⟨rfl | inside, known⟩ | ⟨other, -⟩)
        · exact .inr ⟨absent, rfl⟩
        · exact .inl ⟨inside, known⟩
        · exact absurd (.inl rfl) other
    · rw [if_neg same]
      constructor
      · rintro (⟨inside, known⟩ | ⟨other, held⟩)
        · exact .inl ⟨.inr inside, known⟩
        · exact .inr ⟨not_or.mpr ⟨Ne.symm same, other⟩, held⟩
      · rintro (⟨rfl | inside, known⟩ | ⟨other, held⟩)
        · exact absurd known same
        · exact .inl ⟨inside, known⟩
        · exact .inr ⟨(not_or.mp other).2, held⟩

theorem lookup_filled (distinct : (items.map key).Nodup) {found : κ} {item : α} :
    (insertItems key ∅ items)[found]? = some item ↔ item ∈ items ∧ key item = found := by
  rw [lookup_insertItems distinct, ExtTreeMap.getElem?_empty]
  simp

theorem insertItems_perm {items others : List α} (perm : items.Perm others) (distinct : (items.map key).Nodup) :
    insertItems key ∅ items = insertItems key ∅ others := by
  apply ExtTreeMap.ext_getElem?
  intro found
  ext item
  rw [lookup_filled distinct, lookup_filled ((perm.map _).nodup_iff.mp distinct), perm.mem_iff]

section

variable (keyed : ∀ (found : κ) (item : α), map[found]? = some item → key item = found)
include keyed

theorem keys_values :
    (Entries.values map).map key = map.keys := by
  rw [Entries.values, map_map, ← ExtTreeMap.map_fst_toList_eq_keys]
  apply map_congr_left
  rintro ⟨found, item⟩ inside
  exact keyed found item (mem_toList.mp inside)

theorem refill :
    insertItems key ∅ (Entries.values map) = map := by
  have distinct : ((Entries.values map).map key).Nodup := by
    rw [keys_values keyed]
    exact ExtTreeMap.nodup_keys
  apply ExtTreeMap.ext_getElem?
  intro found
  ext item
  rw [lookup_filled distinct, mem_values]
  constructor
  · rintro ⟨⟨other, held⟩, rfl⟩
    rw [keyed other item held]
    exact held
  · intro held
    exact ⟨⟨found, held⟩, keyed found item held⟩

end

theorem fill_ok {step : ExtTreeMap κ α compare → α → Except ε (ExtTreeMap κ α compare)} {check : α → Prop}
    (steps : ∀ map item after, step map item = .ok after ↔ check item ∧ key item ∉ map ∧ map.insert (key item) item = after)
{after : ExtTreeMap κ α compare} :
    items.foldlM step map = .ok after ↔
      (∀ item ∈ items, check item) ∧ (items.map key).Nodup ∧ (∀ item ∈ items, key item ∉ map) ∧ insertItems key map items = after := by
  induction items generalizing map with
  | nil => simp [insertItems, pure, Except.pure]
  | cons first items tail =>
    simp only [foldlM_cons, bind_ok, steps, tail]
    constructor
    · rintro ⟨_, ⟨passes, fresh, rfl⟩, all, distinct, others, rfl⟩
      refine ⟨?_, nodup_cons.mpr ⟨?_, distinct⟩, ?_, rfl⟩
      · exact forall_mem_cons.mpr ⟨passes, all⟩
      · intro again
        obtain ⟨other, inside, same⟩ := mem_map.mp again
        apply others other inside
        rw [ExtTreeMap.mem_insert]
        exact .inl (compare_eq_iff_eq.mpr same.symm)
      · intro other inside
        rcases mem_cons.mp inside with rfl | inside
        · exact fresh
        · exact fun held => others other inside (ExtTreeMap.mem_insert.mpr (.inr held))
    · rintro ⟨all, distinct, fresh, rfl⟩
      obtain ⟨passes, all⟩ := forall_mem_cons.mp all
      obtain ⟨alone, distinct⟩ := nodup_cons.mp distinct
      refine ⟨_, ⟨passes, fresh first mem_cons_self, rfl⟩, all, distinct, ?_, rfl⟩
      intro other inside held
      rcases ExtTreeMap.mem_insert.mp held with same | held
      · exact alone (mem_map.mpr ⟨other, inside, (compare_eq_iff_eq.mp same).symm⟩)
      · exact fresh other (mem_cons_of_mem _ inside) held

theorem foldlM_named {ε α κ : Type} {name : α → Except ε κ} {step : List κ → α → Except ε (List κ)} {holds : α → Prop}
    (step_ok : ∀ seen item after, step seen item = .ok after ↔ ∃ key, name item = .ok key ∧ key ∉ seen ∧ holds item ∧ after = key :: seen)
    {items : List α} {seen : List κ} : (∃ after, items.foldlM step seen = .ok after) ↔
      ∃ names, List.Forall₂ (fun item key => name item = .ok key) items names ∧ names.Nodup ∧ (∀ key ∈ names, key ∉ seen) ∧
        ∀ item ∈ items, holds item := by
  induction items generalizing seen with
  | nil =>
    refine ⟨fun _ => ⟨[], .nil, .nil, fun key inside => absurd inside not_mem_nil, fun item inside => absurd inside not_mem_nil⟩,
      fun _ => ⟨seen, rfl⟩⟩
  | cons item items tail =>
    constructor
    · rintro ⟨after, done⟩
      rw [foldlM_cons, bind_ok] at done
      obtain ⟨middle, first, rest⟩ := done
      obtain ⟨key, named, fresh, passes, rfl⟩ := (step_ok _ _ _).mp first
      obtain ⟨names, all, distinct, unseen, pass⟩ := tail.mp ⟨after, rest⟩
      refine ⟨key :: names, .cons named all, nodup_cons.mpr ⟨fun again => unseen key again mem_cons_self, distinct⟩, ?_,
        forall_mem_cons.mpr ⟨passes, pass⟩⟩
      exact forall_mem_cons.mpr ⟨fresh, fun other inside member => unseen other inside (mem_cons_of_mem _ member)⟩
    · rintro ⟨names, all, distinct, unseen, pass⟩
      cases all with
      | @cons _ key _ names named all =>
        obtain ⟨absent, distinct⟩ := nodup_cons.mp distinct
        obtain ⟨fresh, unseen⟩ := forall_mem_cons.mp unseen
        obtain ⟨passes, pass⟩ := forall_mem_cons.mp pass
        have later : ∀ other ∈ names, other ∉ key :: seen := by
          intro other inside member
          rcases mem_cons.mp member with rfl | member
          · exact absent inside
          · exact unseen other inside member
        obtain ⟨after, rest⟩ := tail.mpr ⟨names, all, distinct, later, pass⟩
        refine ⟨after, ?_⟩
        rw [foldlM_cons, bind_ok]
        exact ⟨key :: seen, (step_ok _ _ _).mpr ⟨key, named, fresh, passes, rfl⟩, rest⟩

end Filling

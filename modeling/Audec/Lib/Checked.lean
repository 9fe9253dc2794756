import Audec.Lib.Entries

/-! Sequences of checks that stop at the first error. -/

open List

namespace Checked

variable {ε α β : Type}

inductive Stop (ε : Type) where
  | error (error : ε)
  | panic

def ensure (condition : Prop) [Decidable condition] (error : ε) : Except ε Unit :=
  if condition then .ok () else .error error

variable {condition : Prop} {result : β} {items : List α}

@[simp] theorem ensure_ok [Decidable condition] {error : ε} :
    ensure condition error = .ok () ↔ condition := by
  unfold ensure
  split <;> simp_all

theorem ensure_congr {other : Prop} [Decidable condition] [Decidable other] (same : condition ↔ other)
    (error : ε) : ensure condition error = ensure other error := by
  unfold ensure
  by_cases holds : condition
  · rw [if_pos holds, if_pos (same.mp holds)]
  · rw [if_neg holds, if_neg fun kept => holds (same.mpr kept)]

theorem bind_ok {first : Except ε α} {next : α → Except ε β} :
    (first >>= next) = .ok result ↔ ∃ value, first = .ok value ∧ next value = .ok result := by
  cases first with
  | ok value => simp [bind, Except.bind]
  | error error => simp [bind, Except.bind]

@[simp] theorem bind_unit_ok {first : Except ε Unit} {next : Unit → Except ε β} :
    (first >>= next) = .ok result ↔ first = .ok () ∧ next () = .ok result := by
  rw [bind_ok]
  exact ⟨fun ⟨_, done, rest⟩ => ⟨done, rest⟩, fun ⟨done, rest⟩ => ⟨(), done, rest⟩⟩

@[simp] theorem forM_ok {check : α → Except ε Unit} :
    items.forM check = .ok () ↔ ∀ item ∈ items, check item = .ok () := by
  induction items with
  | nil => simp [List.forM, pure, Except.pure]
  | cons item items tail =>
    simp only [List.forM, bind_unit_ok, tail, mem_cons, forall_eq_or_imp]

theorem mapM_ok {step : α → Except ε β} {results : List β} :
    items.mapM step = .ok results ↔ List.Forall₂ (fun item result => step item = .ok result) items results := by
  induction items generalizing results with
  | nil =>
    rw [mapM_nil, forall₂_nil_left_iff]
    exact ⟨fun same => (Except.ok.inj same).symm, fun same => same ▸ rfl⟩
  | cons item items tail =>
    simp only [mapM_cons, bind_ok, tail, forall₂_cons_left_iff]
    constructor
    · rintro ⟨result, done, rest, all, same⟩
      exact ⟨result, rest, done, all, (Except.ok.inj same).symm⟩
    · rintro ⟨result, rest, done, all, rfl⟩
      exact ⟨result, done, rest, all, rfl⟩
/-- A computation that can only return errors, inside one that can also panic. -/
def lift (checks : Except ε α) : Except (Stop ε) α := checks.mapError Stop.error

@[simp] theorem lift_ok {checks : Except ε α} {result : α} : lift checks = .ok result ↔ checks = .ok result := by
  cases checks <;> simp [lift, Except.mapError]

end Checked

/-! What a loop that stops at its first error has done for each of its items. -/

open Entries
open Std (ExtTreeMap)

namespace Checked

variable {ε α β : Type} {items : List α} {step : α → Except ε β} {results : List β}

theorem mem_mapM (done : items.mapM step = .ok results) {result : β} (member : result ∈ results) :
    ∃ item ∈ items, step item = .ok result := by
  have all := mapM_ok.mp done
  clear done
  induction all with
  | nil => cases member
  | cons made all tail =>
    rcases mem_cons.mp member with rfl | later
    · exact ⟨_, mem_cons_self, made⟩
    · obtain ⟨item, inside, made⟩ := tail later
      exact ⟨item, mem_cons_of_mem _ inside, made⟩

variable {item : α} {first : β} {error : ε}

theorem mapM_mem (done : items.mapM step = .ok results) (member : item ∈ items) :
    ∃ result ∈ results, step item = .ok result := by
  have all := mapM_ok.mp done
  clear done
  induction all with
  | nil => cases member
  | cons made all tail =>
    rcases mem_cons.mp member with rfl | later
    · exact ⟨_, mem_cons_self, made⟩
    · obtain ⟨result, inside, made⟩ := tail later
      exact ⟨result, mem_cons_of_mem _ inside, made⟩

theorem exists_mapM {holds : α → β → Prop} (all : ∀ item ∈ items, ∃ result, step item = .ok result ∧ holds item result) :
    ∃ results, items.mapM step = .ok results ∧ List.Forall₂ holds items results := by
  induction items with
  | nil => exact ⟨[], rfl, .nil⟩
  | cons item items tail =>
    obtain ⟨here, later⟩ := forall_mem_cons.mp all
    obtain ⟨result, made, held⟩ := here
    obtain ⟨results, rest, others⟩ := tail later
    refine ⟨result :: results, ?_, .cons held others⟩
    rw [mapM_cons, made, rest]
    rfl

theorem foldlM_keeps {step : β → α → Except ε β} (holds : β → Prop) {last : β}
    (keeps : ∀ before item after, item ∈ items → holds before → step before item = .ok after → holds after)
    (begins : holds first) (done : items.foldlM step first = .ok last) : holds last := by
  induction items generalizing first with
  | nil =>
    cases done
    exact begins
  | cons item items tail =>
    rw [foldlM_cons, bind_ok] at done
    obtain ⟨middle, made, rest⟩ := done
    refine tail (fun before item after inside => keeps before item after (mem_cons_of_mem _ inside)) ?_ rest
    exact keeps first item middle mem_cons_self begins made

theorem foldlM_reaches {step : β → α → Except ε β} (holds : β → Prop) (member : item ∈ items)
    (keeps : ∀ before other after, holds before → step before other = .ok after → holds after)
    (brings : ∀ before after, step before item = .ok after → holds after) {last : β}
    (done : items.foldlM step first = .ok last) : holds last := by
  induction items generalizing first with
  | nil => cases member
  | cons head items tail =>
    rw [foldlM_cons, bind_ok] at done
    obtain ⟨middle, made, rest⟩ := done
    rcases mem_cons.mp member with rfl | later
    · exact foldlM_keeps holds (fun before other after _ => keeps before other after) (brings first middle made) rest
    · exact tail later rest

theorem bind_error {first : Except ε α} {next : α → Except ε β} :
    (first >>= next) = .error error ↔ first = .error error ∨ ∃ value, first = .ok value ∧ next value = .error error := by
  cases first with
  | error other => simp [bind, Except.bind]
  | ok value => simp [bind, Except.bind]

theorem ensure_error {condition : Prop} [Decidable condition] {stop : ε} :
    ensure condition error = .error stop ↔ ¬ condition ∧ error = stop := by
  unfold ensure
  split <;> simp [*]

theorem foldlM_error {step : β → α → Except ε β} (failed : items.foldlM step first = .error error) :
    ∃ before, ∃ item ∈ items, step before item = .error error := by
  induction items generalizing first with
  | nil => cases failed
  | cons item items tail =>
    rw [foldlM_cons] at failed
    cases made : step first item with
    | error other =>
      rw [made] at failed
      cases failed
      exact ⟨first, item, mem_cons_self, made⟩
    | ok middle =>
      rw [made] at failed
      obtain ⟨before, later, inside, stopped⟩ := tail failed
      exact ⟨before, later, mem_cons_of_mem _ inside, stopped⟩

theorem forM_entries_ok {κ ν : Type} [LinearOrder κ] {map : ExtTreeMap κ ν} {check : κ → ν → Except ε Unit} :
    (map.toList.forM fun entry => check entry.1 entry.2) = .ok () ↔
      ∀ (key : κ) (value : ν), map[key]? = some value → check key value = .ok () := by
  rw [forM_ok]
  constructor
  · intro all key value held
    exact all (key, value) (mem_toList.mpr held)
  · rintro all ⟨key, value⟩ inside
    exact all key value (mem_toList.mp inside)

end Checked

import Mathlib

/-! Keyed stores changed by guarded puts: each put names the value it expects to replace. Values are
    compared by a partial equivalence, as a language with floating-point fields compares them. -/

namespace GuardedStore

open List

variable {κ : Type} {ν : κ → Type}

structure Put (κ : Type) (ν : κ → Type) where
  key : κ
  before : ν key
  after : ν key

namespace Put

def inverse (put : Put κ ν) : Put κ ν := ⟨put.key, put.after, put.before⟩

@[simp] theorem inverse_key (put : Put κ ν) : put.inverse.key = put.key := rfl
@[simp] theorem inverse_inverse (put : Put κ ν) : put.inverse.inverse = put := rfl

end Put

def keys (puts : List (Put κ ν)) : List κ := puts.map Put.key

def undo (puts : List (Put κ ν)) : List (Put κ ν) := (puts.map Put.inverse).reverse

@[simp] theorem undo_nil : undo ([] : List (Put κ ν)) = [] := rfl

@[simp] theorem undo_append (first second : List (Put κ ν)) :
    undo (first ++ second) = undo second ++ undo first := by
  simp [undo]

@[simp] theorem undo_singleton (put : Put κ ν) : undo [put] = [put.inverse] := rfl

@[simp] theorem keys_append (first second : List (Put κ ν)) :
    keys (first ++ second) = keys first ++ keys second := by
  simp [keys]

theorem mem_keys_undo (puts : List (Put κ ν)) (key : κ) : key ∈ keys (undo puts) ↔ key ∈ keys puts := by
  simp [keys, undo]

section Writing

variable [DecidableEq κ]

def write (put : Put κ ν) (store : (key : κ) → ν key) : (key : κ) → ν key :=
  Function.update store put.key put.after

def writes (puts : List (Put κ ν)) (store : (key : κ) → ν key) : (key : κ) → ν key :=
  puts.foldl (fun store put => write put store) store

@[simp] theorem write_key (put : Put κ ν) (store : (key : κ) → ν key) :
    write put store put.key = put.after := by
  simp [write]

theorem write_inverse_key (put : Put κ ν) (store : (key : κ) → ν key) :
    write put.inverse store put.key = put.before := write_key put.inverse store

theorem write_other (put : Put κ ν) (store : (key : κ) → ν key) {key : κ} (other : key ≠ put.key) :
    write put store key = store key := by
  simp [write, other]

@[simp] theorem writes_nil (store : (key : κ) → ν key) : writes [] store = store := rfl

@[simp] theorem writes_cons (put : Put κ ν) (puts : List (Put κ ν)) (store : (key : κ) → ν key) :
    writes (put :: puts) store = writes puts (write put store) := rfl

theorem writes_append (first second : List (Put κ ν)) (store : (key : κ) → ν key) :
    writes (first ++ second) store = writes second (writes first store) := by
  simp [writes]

theorem writes_other (puts : List (Put κ ν)) (store : (key : κ) → ν key) {key : κ}
    (other : key ∉ keys puts) : writes puts store key = store key := by
  induction puts generalizing store with
  | nil => rfl
  | cons put puts tail =>
    simp only [keys, map_cons, mem_cons, not_or] at other
    rw [writes_cons, tail _ other.2, write_other _ _ other.1]

theorem writes_touched (puts : List (Put κ ν)) (store other : (key : κ) → ν key) {key : κ}
    (touched : key ∈ keys puts) : writes puts store key = writes puts other key := by
  induction puts using reverseRecOn with
  | nil => simp [keys] at touched
  | append_singleton puts put earlier =>
    simp only [writes_append, writes_cons, writes_nil]
    by_cases last : key = put.key
    · subst last
      simp
    · rw [write_other _ _ last, write_other _ _ last]
      simp only [keys, map_append, map_cons, map_nil, mem_append, mem_singleton,
        last, or_false] at touched
      exact earlier touched

theorem writes_distinct {puts : List (Put κ ν)} (distinct : (keys puts).Nodup) (store : (key : κ) → ν key) {put : Put κ ν}
    (member : put ∈ puts) : writes puts store put.key = put.after := by
  induction puts generalizing store with
  | nil => cases member
  | cons first puts tail =>
    obtain ⟨absent, distinct⟩ := nodup_cons.mp distinct
    rw [writes_cons]
    rcases mem_cons.mp member with rfl | later
    · exact (writes_other puts _ absent).trans (write_key put store)
    · exact tail distinct _ later

theorem writes_perm {puts others : List (Put κ ν)} (distinct : (keys puts).Nodup) (perm : puts.Perm others)
    (store : (key : κ) → ν key) : writes puts store = writes others store := by
  have distinct' : (keys others).Nodup := (perm.map Put.key).nodup_iff.mp distinct
  funext key
  by_cases touched : key ∈ keys puts
  · obtain ⟨put, member, rfl⟩ := mem_map.mp touched
    rw [writes_distinct distinct store member, writes_distinct distinct' store (perm.mem_iff.mp member)]
  · rw [writes_other _ _ touched, writes_other _ _ fun written => touched ((perm.map Put.key).mem_iff.mpr written)]

end Writing

section Guards

variable [DecidableEq κ] [∀ key, BEq (ν key)]

def Ready (put : Put κ ν) (store : (key : κ) → ν key) : Prop := (store put.key == put.before) = true

theorem ready_inverse (put : Put κ ν) (store : (key : κ) → ν key) :
    Ready put.inverse store ↔ (store put.key == put.after) = true := Iff.rfl

/-- Every put of the list finds the value it expects when its turn comes. -/
def Accepts : List (Put κ ν) → ((key : κ) → ν key) → Prop
  | [], _ => True
  | put :: puts, store => Ready put store ∧ Accepts puts (write put store)

theorem accepts_append (first second : List (Put κ ν)) (store : (key : κ) → ν key) :
    Accepts (first ++ second) store ↔ Accepts first store ∧ Accepts second (writes first store) := by
  induction first generalizing store with
  | nil => simp [Accepts]
  | cons put first tail => simp [Accepts, tail, and_assoc]

variable {puts : List (Put κ ν)} {store : (key : κ) → ν key}

theorem accepts_distinct (distinct : (keys puts).Nodup) :
    Accepts puts store ↔ ∀ put ∈ puts, Ready put store := by
  induction puts generalizing store with
  | nil => simp [Accepts]
  | cons first puts tail =>
    obtain ⟨absent, distinct⟩ := nodup_cons.mp distinct
    rw [Accepts, tail distinct, forall_mem_cons]
    refine and_congr_right fun _ => forall₂_congr fun put member => ?_
    have other : put.key ≠ first.key := by
      intro same
      exact absent (same ▸ mem_map_of_mem member)
    rw [Ready, Ready, write_other _ _ other]

variable [∀ key, PartialEquivBEq (ν key)]

theorem Accepts.congr {other : (key : κ) → ν key}
    (accepted : Accepts puts store)
    (alike : ∀ key ∈ keys puts, store key = other key ∨ (store key == other key) = true) :
    Accepts puts other := by
  induction puts generalizing store other with
  | nil => trivial
  | cons put puts tail =>
    obtain ⟨ready, rest⟩ := accepted
    constructor
    · rcases alike put.key (by simp [keys]) with same | same
      · rwa [Ready, ← same]
      · exact BEq.trans (BEq.symm same) ready
    · refine tail rest fun key member => ?_
      by_cases hit : key = put.key
      · subst hit
        left
        simp
      · rw [write_other _ _ hit, write_other _ _ hit]
        exact alike key (mem_cons_of_mem _ member)

theorem writes_alike {other : (key : κ) → ν key}
    (alike : ∀ key, (store key == other key) = true)
    (self : ∀ key, (writes puts other key == writes puts other key) = true) (key : κ) :
    (writes puts store key == writes puts other key) = true := by
  by_cases touched : key ∈ keys puts
  · rw [writes_touched puts store other touched]
    exact self key
  · rw [writes_other _ _ touched, writes_other _ _ touched]
    exact alike key

theorem accepts_undo_iff {later : (key : κ) → ν key}
    (accepted : Accepts puts store) :
    Accepts (undo puts) later ↔ ∀ key ∈ keys puts, (later key == writes puts store key) = true := by
  induction puts using reverseRecOn generalizing later with
  | nil => simp [keys, Accepts]
  | append_singleton puts put earlier =>
    rw [accepts_append] at accepted
    obtain ⟨accepted, ready, -⟩ := accepted
    simp only [undo_append, undo_singleton, singleton_append, Accepts, earlier accepted, writes_append,
      writes_cons, writes_nil, keys_append, mem_append]
    constructor
    · rintro ⟨held, rest⟩ key member
      by_cases last : key = put.key
      · subst last
        rwa [write_key, ← ready_inverse]
      · have before := rest key (by simpa [keys, last] using member)
        rw [write_other put _ last]
        rwa [write_other put.inverse _ last] at before
    · intro held
      have held_last := held put.key (Or.inr (by simp [keys]))
      rw [write_key, ← ready_inverse] at held_last
      refine ⟨held_last, fun key member => ?_⟩
      by_cases last : key = put.key
      · subst last
        rw [write_inverse_key]
        exact BEq.symm ready
      · have after := held key (Or.inl member)
        rw [write_other put _ last] at after
        rwa [write_other put.inverse _ last]

theorem writes_undo (later : (key : κ) → ν key)
    (accepted : Accepts puts store) {key : κ} (touched : key ∈ keys puts) :
    (writes (undo puts) later key == store key) = true := by
  induction puts using reverseRecOn generalizing later with
  | nil => simp [keys] at touched
  | append_singleton puts put earlier =>
    rw [accepts_append] at accepted
    obtain ⟨accepted, ready, -⟩ := accepted
    simp only [undo_append, undo_singleton, singleton_append, writes_cons]
    by_cases before : key ∈ keys puts
    · exact earlier _ accepted before
    · rw [keys_append, mem_append] at touched
      have last : key = put.key := by simpa [keys] using touched.resolve_left before
      subst last
      rw [Ready, writes_other _ _ before] at ready
      rw [writes_other _ _ (by rwa [mem_keys_undo]), write_inverse_key]
      exact BEq.symm ready

end Guards

end GuardedStore

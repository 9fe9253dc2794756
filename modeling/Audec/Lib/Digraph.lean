import Audec.Lib.Machine

/-! Directed graphs given by the neighbours of each key, and the heaviest chains that lead to a key. -/

open List

namespace Digraph

variable {κ : Type}

def Edge (neighbours : κ → List κ) (source target : κ) : Prop := target ∈ neighbours source

structure ClosedWalk (relation : κ → κ → Prop) (path : List κ) : Prop where
  walks : 2 ≤ path.length
  returns : path.head? = path.getLast?
  edges : path.IsChain relation

variable {relation : κ → κ → Prop}

theorem transGen_of_chain {first next : κ} {rest : List κ} (edges : (first :: next :: rest).IsChain relation) {last : κ}
    (ends : (next :: rest).getLast? = some last) : Relation.TransGen relation first last := by
  induction rest generalizing first next with
  | nil =>
    cases ends
    exact .single (isChain_cons_cons.mp edges).1
  | cons other rest later =>
    rw [isChain_cons_cons] at edges
    rw [getLast?_cons_cons] at ends
    exact .head edges.1 (later edges.2 ends)

theorem ClosedWalk.cycle {path : List κ} (closed : ClosedWalk relation path) : ∃ key, Relation.TransGen relation key key := by
  obtain ⟨walks, returns, edges⟩ := closed
  match path, walks with
  | first :: next :: rest, _ =>
    rw [head?_cons, getLast?_cons_cons] at returns
    exact ⟨first, transGen_of_chain edges returns.symm⟩

section Loads

def Loads (relation : κ → κ → Prop) (weight : κ → Nat) (key : κ) : Set Nat :=
  {load | ∃ chain : List κ, chain.IsChain relation ∧ chain.getLast? = some key ∧ (chain.map weight).sum = load}

variable {relation : κ → κ → Prop} {weight : κ → Nat}

variable {key : κ}

theorem mem_loads {load : Nat} :
    load ∈ Loads relation weight key ↔ load = weight key ∨ ∃ source, relation source key ∧ ∃ before ∈ Loads relation weight source, before + weight key = load := by
  constructor
  · rintro ⟨chain, linked, last, total⟩
    rcases eq_nil_or_concat' chain with rfl | ⟨rest, final, rfl⟩
    · cases last
    · rw [getLast?_concat, Option.some.injEq] at last
      subst last
      rw [map_append, sum_append, map_singleton, sum_singleton] at total
      rcases eq_nil_or_concat' rest with rfl | ⟨front, source, rfl⟩
      · left
        rw [← total]
        simp
      · right
        rw [isChain_append] at linked
        have edge := linked.2.2 source (by simp) final (by simp)
        exact ⟨source, edge, _, ⟨_, linked.1, by simp, rfl⟩, total⟩
  · rintro (rfl | ⟨source, edge, before, ⟨chain, linked, last, rfl⟩, rfl⟩)
    · exact ⟨[key], isChain_singleton _, rfl, by simp⟩
    · refine ⟨chain ++ [key], ?_, getLast?_concat, by simp⟩
      apply linked.append (isChain_singleton _)
      intro final held next single
      rw [last] at held
      cases held
      cases single
      exact edge

theorem wellFounded_of_acyclic [Finite κ] (acyclic : ∀ key, ¬ Relation.TransGen relation key key) : WellFounded relation := by
  have : Std.Irrefl (Relation.TransGen relation) := ⟨acyclic⟩
  exact Subrelation.wf Relation.TransGen.single (Finite.wellFounded_of_trans_of_irrefl (Relation.TransGen relation))

section

variable (descends : WellFounded relation)
include descends

theorem finite_loads [Finite κ] (key : κ) : (Loads relation weight key).Finite := by
  induction key using descends.induction with
  | _ key held =>
    have all : (⋃ source : {source // relation source key}, (fun before => before + weight key) '' Loads relation weight source.val).Finite :=
      Set.finite_iUnion fun source => (held source.val source.property).image _
    apply ((Set.finite_singleton (weight key)).union all).subset
    intro load member
    rcases mem_loads.mp member with rfl | ⟨source, edge, before, there, rfl⟩
    · exact .inl rfl
    · exact .inr (Set.mem_iUnion.mpr ⟨⟨source, edge⟩, before, there, rfl⟩)

theorem exists_greatest_load [Finite κ] (key : κ) : ∃ longest, IsGreatest (Loads relation weight key) longest := by
  have alone : weight key ∈ Loads relation weight key := mem_loads.mpr (.inl rfl)
  obtain ⟨longest, member, above⟩ := (finite_loads descends key).exists_maximalFor id _ ⟨_, alone⟩
  exact ⟨longest, member, fun load there => (le_total load longest).elim id fun less => above there less⟩

/-- Values that are computed from a key to the next, each the weight added to the largest one that
    comes in, are the heaviest chains, up to a common cap. -/
theorem greatest_load {cap : Nat} {nodes : Set κ} {input output : κ → Nat}
    (sources : ∀ key ∈ nodes, ∀ source, relation source key → source ∈ nodes)
    (above : ∀ key ∈ nodes, ∀ source, relation source key → output source ≤ input key)
    (attained : ∀ key ∈ nodes, input key = 0 ∨ ∃ source, relation source key ∧ output source = input key)
    (added : ∀ key ∈ nodes, output key = min cap (input key + weight key)) (node : key ∈ nodes) {longest : Nat}
    (greatest : IsGreatest (Loads relation weight key) longest) : output key = min cap longest := by
  have reached : ∀ key ∈ nodes, ∃ load ∈ Loads relation weight key, output key = min cap load := by
    intro key
    induction key using descends.induction with
    | _ key held =>
      intro node
      rcases attained key node with none' | ⟨source, edge, same⟩
      · refine ⟨weight key, mem_loads.mpr (.inl rfl), ?_⟩
        rw [added key node, none', Nat.zero_add]
      · obtain ⟨before, there, equal⟩ := held source edge (sources key node source edge)
        refine ⟨before + weight key, mem_loads.mpr (.inr ⟨source, edge, before, there, rfl⟩), ?_⟩
        rw [added key node, ← same, equal]
        omega
  have bounded : ∀ key ∈ nodes, ∀ load ∈ Loads relation weight key, min cap load ≤ output key := by
    intro key
    induction key using descends.induction with
    | _ key held =>
      intro node load member
      rw [added key node]
      rcases mem_loads.mp member with rfl | ⟨source, edge, before, there, rfl⟩
      · omega
      · have less := held source edge (sources key node source edge) before there
        have into := above key node source edge
        omega
  obtain ⟨load, member, same⟩ := reached key node
  have upper := bounded key node longest greatest.1
  have lower := greatest.2 member
  omega

end

end Loads

end Digraph

/-! Collecting what can be reached from a key, with the keys still to be looked at on a stack. -/

open Machine Digraph
open Std (ExtTreeSet)

namespace Worklist

variable {κ : Type} [LinearOrder κ]

/-- `visited` are the keys of this traversal; `collected` may hold keys of others. The last pending
    key is looked at first. -/
def collect (neighbours : κ → List κ) : Nat → List κ → ExtTreeSet κ → ExtTreeSet κ → Option (ExtTreeSet κ)
  | 0, pending, _, collected => if pending = [] then some collected else none
  | fuel + 1, pending, visited, collected =>
    match pending.getLast? with
    | none => some collected
    | some key =>
      if key ∈ visited then collect neighbours fuel pending.dropLast visited collected
      else collect neighbours fuel (pending.dropLast ++ neighbours key) (visited.insert key) (collected.insert key)

variable {neighbours : κ → List κ}

/-- What holds before each key is looked at: everything seen is reachable, and what is not yet seen
    can be reached through what is pending. -/
structure Valid (neighbours : κ → List κ) (root : κ) (pending : List κ) (visited : ExtTreeSet κ) : Prop where
  reached : ∀ key, key ∈ visited ∨ key ∈ pending → Relation.ReflTransGen (Edge neighbours) root key
  started : root ∈ visited ∨ root ∈ pending
  closed : ∀ key ∈ visited, ∀ neighbour ∈ neighbours key, neighbour ∈ visited ∨ neighbour ∈ pending

variable {rest : List κ} {root : κ} {visited : ExtTreeSet κ} {total : Nat}

theorem Valid.skip {key : κ} (valid : Valid neighbours root (rest ++ [key]) visited)
    (seen : key ∈ visited) : Valid neighbours root rest visited := by
  have still : ∀ other, other ∈ visited ∨ other ∈ rest ++ [key] → other ∈ visited ∨ other ∈ rest := by
    intro other held
    rw [mem_append, mem_singleton] at held
    rcases held with held | held | rfl
    · exact .inl held
    · exact .inr held
    · exact .inl seen
  constructor
  case reached =>
    intro other held
    apply valid.reached
    rw [mem_append]
    tauto
  case started => exact still _ valid.started
  case closed => exact fun other member neighbour near => still _ (valid.closed other member neighbour near)

theorem Valid.take {key : κ} (valid : Valid neighbours root (rest ++ [key]) visited) :
    Valid neighbours root (rest ++ neighbours key) (visited.insert key) := by
  have here : Relation.ReflTransGen (Edge neighbours) root key :=
    valid.reached key (.inr (mem_append_right _ (mem_singleton_self _)))
  have still : ∀ other, other ∈ visited ∨ other ∈ rest ++ [key] → other ∈ visited.insert key ∨ other ∈ rest ++ neighbours key := by
    intro other held
    rw [mem_append, mem_singleton] at held
    rw [ExtTreeSet.mem_insert, compare_eq_iff_eq, mem_append]
    tauto
  constructor
  case reached =>
    intro other held
    rw [ExtTreeSet.mem_insert, compare_eq_iff_eq, mem_append] at held
    rcases held with (rfl | held) | held | near
    · exact here
    · exact valid.reached other (.inl held)
    · exact valid.reached other (.inr (mem_append_left _ held))
    · exact here.tail near
  case started => exact still _ valid.started
  case closed =>
    intro other member neighbour near
    rw [ExtTreeSet.mem_insert, compare_eq_iff_eq] at member
    rcases member with rfl | member
    · exact .inr (mem_append_right _ near)
    · exact still _ (valid.closed other member neighbour near)

theorem Valid.visited_iff (valid : Valid neighbours root [] visited) (key : κ) :
    key ∈ visited ↔ Relation.ReflTransGen (Edge neighbours) root key := by
  constructor
  · exact fun seen => valid.reached key (.inl seen)
  · intro reached
    induction reached with
    | refl => exact valid.started.resolve_right not_mem_nil
    | tail _ edge held => exact (valid.closed _ held _ edge).resolve_right not_mem_nil

theorem sum_countP_le {α : Type} (under : α → κ) (items : List α) (keys : Finset κ) :
    (keys.sum fun key => items.countP fun item => under item = key) ≤ items.length := by
  induction items with
  | nil => simp
  | cons item items later =>
    simp only [countP_cons, Finset.sum_add_distrib, length_cons]
    have one : (keys.sum fun key => if under item = key then 1 else 0) ≤ 1 := by
      rw [Finset.sum_ite_eq]
      split <;> omega
    simp only [decide_eq_true_eq]
    omega

section

variable (bounded : ∀ keys : Finset κ, (keys.sum fun key => (neighbours key).length) ≤ total)
include bounded

theorem collect_valid
    {before : κ → Prop} {fuel : Nat} {pending : List κ} {collected : ExtTreeSet κ} {seen : Finset κ}
    (valid : Valid neighbours root pending visited) (same : ∀ key, key ∈ visited ↔ key ∈ seen)
    (held : ∀ key, key ∈ collected ↔ before key ∨ key ∈ visited)
    (enough : pending.length + total ≤ fuel + seen.sum fun key => (neighbours key).length) :
    ∃ result, collect neighbours fuel pending visited collected = some result ∧
      ∀ key, key ∈ result ↔ before key ∨ Relation.ReflTransGen (Edge neighbours) root key := by
  induction fuel generalizing pending visited collected seen with
  | zero =>
    have spent := bounded seen
    have none' : pending = [] := length_eq_zero_iff.mp (by omega)
    subst none'
    exact ⟨collected, by simp [collect], fun key => by rw [held, valid.visited_iff]⟩
  | succ fuel later =>
    rcases eq_nil_or_concat' pending with rfl | ⟨rest, key, rfl⟩
    · exact ⟨collected, by simp [collect], fun key => by rw [held, valid.visited_iff]⟩
    · rw [length_append, length_singleton] at enough
      by_cases again : key ∈ visited
      · obtain ⟨result, ends, all⟩ := later (valid.skip again) same held (by omega)
        refine ⟨result, ?_, all⟩
        simp [collect, again, ends]
      · have fresh : key ∉ seen := fun member => again ((same key).mpr member)
        have counted := Finset.sum_insert (f := fun key => (neighbours key).length) fresh
        have same' : ∀ other, other ∈ visited.insert key ↔ other ∈ insert key seen := by
          intro other
          rw [ExtTreeSet.mem_insert, compare_eq_iff_eq, Finset.mem_insert, same]
          tauto
        have held' : ∀ other, other ∈ collected.insert key ↔ before other ∨ other ∈ visited.insert key := by
          intro other
          simp only [ExtTreeSet.mem_insert, compare_eq_iff_eq, held]
          tauto
        have room : (rest ++ neighbours key).length + total ≤ fuel + (insert key seen).sum fun key => (neighbours key).length := by
          rw [length_append, counted]
          omega
        obtain ⟨result, ends, all⟩ := later valid.take same' held' room
        refine ⟨result, ?_, all⟩
        simp [collect, again, ends]

theorem collect_some (root : κ)
    (collected : ExtTreeSet κ) :
    ∃ result, collect neighbours (total + 1) [root] ∅ collected = some result ∧
      ∀ key, key ∈ result ↔ key ∈ collected ∨ Relation.ReflTransGen (Edge neighbours) root key := by
  have start : Valid neighbours root [root] ∅ := by
    constructor
    case reached =>
      intro key held
      rcases held with held | held
      · simp at held
      · rw [mem_singleton.mp held]
    case started => exact .inr (mem_singleton_self _)
    case closed => simp
  have none' : ∀ key, key ∈ (∅ : ExtTreeSet κ) ↔ key ∈ (∅ : Finset κ) := by simp
  apply collect_valid bounded start none'
  · simp
  · simp
    omega

end

end Worklist

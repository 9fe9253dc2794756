import Audec.Lib.Machine

/-! Topological ordering by repeatedly taking a node whose prerequisites have all been taken. -/

open Machine List
open Std (ExtTreeMap ExtTreeSet)

namespace Kahn

variable {κ : Type} [LinearOrder κ]

/-- How far an ordering has come: the degrees that remain, the nodes that may be taken, and those taken so far. -/
structure Progress (κ : Type) [LinearOrder κ] where
  indegree : ExtTreeMap κ Nat
  ready : ExtTreeSet κ
  ordered : List κ

namespace Progress

/-- One prerequisite of a node has been taken. -/
def release (progress : Progress κ) (target : κ) : Progress κ :=
  match progress.indegree[target]? with
  | none => progress
  | some degree =>
    { progress with
      indegree := progress.indegree.insert target (degree - 1)
      ready := if degree - 1 = 0 then progress.ready.insert target else progress.ready }

def take (downstream : κ → List κ) (progress : Progress κ) (key : κ) : Progress κ :=
  (downstream key).foldl release { progress with ready := progress.ready.erase key, ordered := progress.ordered ++ [key] }

def run (choose : ExtTreeSet κ → Option κ) (downstream : κ → List κ) : Nat → Progress κ → Progress κ
  | 0, progress => progress
  | fuel + 1, progress =>
    match choose progress.ready with
    | none => progress
    | some key => run choose downstream fuel (progress.take downstream key)

theorem release_ordered (progress : Progress κ) (target : κ) : (progress.release target).ordered = progress.ordered := by
  unfold release
  split <;> rfl

theorem release_indegree (progress : Progress κ) (target key : κ) :
    (progress.release target).indegree[key]? =
      if target = key then progress.indegree[key]?.map (· - 1) else progress.indegree[key]? := by
  unfold release
  split
  · rename_i absent
    split
    · rename_i same
      rw [← same, absent, Option.map_none]
    · rfl
  · rename_i degree present
    simp only [ExtTreeMap.getElem?_insert, compare_eq_iff_eq]
    split
    · rename_i same
      rw [← same, present, Option.map_some]
    · rfl

variable {key : κ} {progress : Progress κ} {targets : List κ}

theorem mem_release_ready {target : κ} :
    key ∈ (progress.release target).ready ↔
      key ∈ progress.ready ∨ (target = key ∧ ∃ degree, progress.indegree[key]? = some degree ∧ degree - 1 = 0) := by
  unfold release
  split
  · rename_i absent
    constructor
    · exact Or.inl
    · rintro (kept | ⟨rfl, degree, present, -⟩)
      · exact kept
      · rw [absent] at present
        cases present
  · rename_i degree present
    dsimp only
    split
    · rename_i last
      rw [ExtTreeSet.mem_insert, compare_eq_iff_eq]
      constructor
      · rintro (rfl | kept)
        · exact .inr ⟨rfl, degree, present, last⟩
        · exact .inl kept
      · rintro (kept | ⟨rfl, -⟩)
        · exact .inr kept
        · exact .inl rfl
    · rename_i more
      constructor
      · exact Or.inl
      · rintro (kept | ⟨rfl, other, present', last⟩)
        · exact kept
        · rw [present] at present'
          cases present'
          exact absurd last more

theorem releases_ordered (targets : List κ) (progress : Progress κ) : (targets.foldl release progress).ordered = progress.ordered := by
  induction targets generalizing progress with
  | nil => rfl
  | cons target targets tail => rw [foldl_cons, tail, release_ordered]

theorem releases_indegree (once : targets.Nodup) (progress : Progress κ) (key : κ) :
    (targets.foldl release progress).indegree[key]? =
      if key ∈ targets then progress.indegree[key]?.map (· - 1) else progress.indegree[key]? := by
  induction targets generalizing progress with
  | nil => simp
  | cons target targets tail =>
    obtain ⟨absent, once⟩ := nodup_cons.mp once
    rw [foldl_cons, tail once, release_indegree]
    by_cases same : target = key
    · subst same
      simp [absent]
    · simp [same, Ne.symm same]

theorem mem_releases_ready (once : targets.Nodup) :
    key ∈ (targets.foldl release progress).ready ↔
      key ∈ progress.ready ∨ (key ∈ targets ∧ ∃ degree, progress.indegree[key]? = some degree ∧ degree - 1 = 0) := by
  induction targets generalizing progress with
  | nil => simp
  | cons target targets tail =>
    obtain ⟨absent, once⟩ := nodup_cons.mp once
    rw [foldl_cons, tail once, mem_release_ready, release_indegree]
    by_cases same : target = key
    · subst same
      simp [absent]
    · simp [same, Ne.symm same]

end Progress

/-- What holds of every partial ordering of the nodes: prerequisites come first, and the degrees and the ready set count
    what is still missing. -/
structure Partial (nodes : Finset κ) (needs : κ → Finset κ) (progress : Progress κ) : Prop where
  once : progress.ordered.Nodup
  within : ∀ key ∈ progress.ordered, key ∈ nodes
  first : ∀ earlier key later, progress.ordered = earlier ++ key :: later → ∀ need ∈ needs key, need ∈ earlier
  degree : ∀ key, progress.indegree[key]? =
    if key ∈ nodes then some ((needs key).filter (· ∉ progress.ordered)).card else none
  ready : ∀ key, key ∈ progress.ready ↔ key ∈ nodes ∧ key ∉ progress.ordered ∧ ∀ need ∈ needs key, need ∈ progress.ordered

namespace Partial

variable {nodes : Finset κ} {needs : κ → Finset κ} {progress : Progress κ}

variable {key : κ}

theorem needs_ordered (valid : Partial nodes needs progress) {need : κ} (taken : key ∈ progress.ordered)
    (needed : need ∈ needs key) : need ∈ progress.ordered := by
  obtain ⟨earlier, later, split⟩ := append_of_mem taken
  rw [split]
  exact mem_append_left _ (valid.first earlier key later split need needed)

theorem remaining (needed : Finset κ) (ordered : List κ) (fresh : key ∉ ordered) :
    (needed.filter (· ∉ ordered ++ [key])).card =
      if key ∈ needed then (needed.filter (· ∉ ordered)).card - 1 else (needed.filter (· ∉ ordered)).card := by
  have same : needed.filter (· ∉ ordered ++ [key]) = (needed.filter (· ∉ ordered)).erase key := by
    ext other
    simp only [Finset.mem_filter, Finset.mem_erase, mem_append, mem_singleton, not_or]
    tauto
  rw [same]
  split
  · rename_i member
    exact Finset.card_erase_of_mem (Finset.mem_filter.mpr ⟨member, fresh⟩)
  · rename_i member
    rw [Finset.erase_eq_of_notMem]
    exact fun found => member (Finset.mem_filter.mp found).1

theorem released (needed : Finset κ) (ordered : List κ) (fresh : key ∉ ordered) (member : key ∈ needed) :
    (needed.filter (· ∉ ordered)).card - 1 = 0 ↔ ∀ need ∈ needed, need ∈ ordered ∨ need = key := by
  have counted := remaining needed ordered fresh
  rw [if_pos member] at counted
  rw [← counted, Finset.card_eq_zero, Finset.filter_eq_empty_iff]
  simp only [not_not, mem_append, mem_singleton]

section

variable (valid : Partial nodes needs progress)
include valid

theorem take {downstream : κ → List κ} (downstreamOnce : ∀ key, (downstream key).Nodup)
    (edges : ∀ key ∈ nodes, ∀ target ∈ nodes, target ∈ downstream key ↔ key ∈ needs target)
    (chosen : key ∈ progress.ready) : Partial nodes needs (progress.take downstream key) := by
  obtain ⟨node, fresh, complete⟩ := (valid.ready key).mp chosen
  have ordered : (progress.take downstream key).ordered = progress.ordered ++ [key] := Progress.releases_ordered _ _
  constructor
  · rw [ordered]
    exact nodup_append.mpr ⟨valid.once, nodup_singleton _, by
      rintro a taken b last rfl
      rw [mem_singleton] at last
      exact fresh (last ▸ taken)⟩
  · intro other member
    rw [ordered, mem_append, mem_singleton] at member
    rcases member with member | rfl
    · exact valid.within _ member
    · exact node
  · intro earlier other later split need needed
    rw [ordered] at split
    rcases eq_nil_or_concat later with rfl | ⟨init, last, rfl⟩
    · obtain ⟨rfl, same⟩ := append_inj' split rfl
      cases same
      exact complete need needed
    · rw [concat_eq_append, ← cons_append, ← append_assoc] at split
      exact valid.first earlier other init (append_inj' split rfl).1 need needed
  · intro other
    rw [ordered, remaining _ _ fresh, Progress.take, Progress.releases_indegree (downstreamOnce key), valid.degree]
    by_cases member : other ∈ nodes
    · simp only [edges key node other member, member, if_true]
      split <;> rfl
    · simp [member]
  · intro other
    rw [ordered, Progress.take, Progress.mem_releases_ready (downstreamOnce key), ExtTreeSet.mem_erase, valid.ready]
    simp only [ne_eq, compare_eq_iff_eq, mem_append, mem_singleton, not_or, valid.degree]
    constructor
    · rintro (⟨different, member, waiting, all⟩ | ⟨released', degree, counted, last⟩)
      · exact ⟨member, ⟨waiting, Ne.symm different⟩, fun need needed => .inl (all need needed)⟩
      · have member : other ∈ nodes := by
          by_contra absent
          rw [if_neg absent] at counted
          cases counted
        have needed := (edges key node other member).mp released'
        rw [if_pos member, Option.some.injEq] at counted
        rw [← counted, released _ _ fresh needed] at last
        refine ⟨member, ⟨?_, ?_⟩, last⟩
        · intro taken
          exact fresh (valid.needs_ordered taken needed)
        · rintro rfl
          exact fresh (complete _ needed)
    · rintro ⟨member, ⟨waiting, different⟩, all⟩
      by_cases needed : key ∈ needs other
      · refine .inr ⟨(edges key node other member).mpr needed, _, if_pos member, ?_⟩
        rw [released _ _ fresh needed]
        exact all
      · refine .inl ⟨Ne.symm different, member, waiting, fun need needed' => ?_⟩
        rcases all need needed' with taken | rfl
        · exact taken
        · exact absurd needed' needed

/-- An ordering as long as the graph is large has every node. -/
theorem mem_of_full (full : progress.ordered.length = nodes.card) (node : key ∈ nodes) :
    key ∈ progress.ordered := by
  have same : progress.ordered.toFinset = nodes := by
    apply Finset.eq_of_subset_of_card_le
    · exact fun key member => valid.within key (mem_toFinset.mp member)
    · rw [toFinset_card_of_nodup valid.once, full]
  rwa [← mem_toFinset, same]

theorem length_le : progress.ordered.length ≤ nodes.card := by
  rw [← toFinset_card_of_nodup valid.once]
  exact Finset.card_le_card fun key member => valid.within key (mem_toFinset.mp member)

/-- Without cycles some missing node is ready, so an ordering that cannot go on is complete. -/
theorem full_of_stuck (within : ∀ key ∈ nodes, needs key ⊆ nodes)
    (acyclic : ∀ key, ¬ Relation.TransGen (fun need key => need ∈ needs key) key key) (stuck : ∀ key, key ∉ progress.ready) :
    progress.ordered.length = nodes.card := by
  by_contra short
  have missing : ∃ key ∈ nodes, key ∉ progress.ordered := by
    by_contra all
    push Not at all
    have := Finset.card_le_card (s := nodes) (t := progress.ordered.toFinset) fun key node => mem_toFinset.mpr (all key node)
    rw [toFinset_card_of_nodup valid.once] at this
    exact short (le_antisymm valid.length_le this)
  let before (a b : nodes) : Prop := Relation.TransGen (fun need key => need ∈ needs key) a.val b.val
  have transitive : IsTrans nodes before := ⟨fun _ _ _ => Relation.TransGen.trans⟩
  have irreflexive : Std.Irrefl before := ⟨fun key => acyclic key.val⟩
  obtain ⟨key, node, absent⟩ := missing
  obtain ⟨least, fresh, first⟩ := (Finite.wellFounded_of_trans_of_irrefl before).has_min {key | key.val ∉ progress.ordered} ⟨⟨key, node⟩, absent⟩
  refine stuck least.val ((valid.ready least.val).mpr ⟨least.property, fresh, fun need needed => ?_⟩)
  by_contra waiting
  exact first ⟨need, within least.val least.property needed⟩ waiting (.single needed)

/-- A complete ordering shows that there is no cycle. -/
theorem acyclic_of_full (sourced : ∀ key, ∀ need ∈ needs key, key ∈ nodes)
    (full : progress.ordered.length = nodes.card) (key : κ) : ¬ Relation.TransGen (fun need key => need ∈ needs key) key key := by
  have earlier {need key : κ} (needed : need ∈ needs key) : progress.ordered.idxOf need < progress.ordered.idxOf key := by
    obtain ⟨before, after, split⟩ := append_of_mem (valid.mem_of_full full (sourced key need needed))
    have inside := valid.first before key after split need needed
    have once := valid.once
    rw [split, nodup_append] at once
    rw [split, idxOf_append_of_mem inside, idxOf_append_of_notMem fun again => once.2.2 _ again _ mem_cons_self rfl]
    have := idxOf_lt_length_of_mem inside
    omega
  have increasing {a b : κ} (path : Relation.TransGen (fun need key => need ∈ needs key) a b) :
      progress.ordered.idxOf a < progress.ordered.idxOf b := by
    induction path with
    | single needed => exact earlier needed
    | tail _ needed ih => exact ih.trans (earlier needed)
  exact fun cycle => lt_irrefl _ (increasing cycle)

end

variable {choose : ExtTreeSet κ → Option κ} {downstream : κ → List κ}

section

variable (member : ∀ ready key, choose ready = some key → key ∈ ready) (downstreamOnce : ∀ key, (downstream key).Nodup)
  (edges : ∀ key ∈ nodes, ∀ target ∈ nodes, target ∈ downstream key ↔ key ∈ needs target)
include member downstreamOnce edges

theorem run (fuel : Nat)
    (valid : Partial nodes needs progress) : Partial nodes needs (progress.run choose downstream fuel) := by
  induction fuel generalizing progress with
  | zero => exact valid
  | succ fuel more =>
    unfold Progress.run
    split
    · exact valid
    · rename_i key chosen
      exact more (valid.take downstreamOnce edges (member _ _ chosen))

/-- With fuel for every node, the run stops because no node is ready. -/
theorem run_stops {fuel : Nat}
    (valid : Partial nodes needs progress) (enough : nodes.card < fuel + progress.ordered.length) :
    choose (progress.run choose downstream fuel).ready = none := by
  induction fuel generalizing progress with
  | zero =>
    have := valid.length_le
    omega
  | succ fuel more =>
    unfold Progress.run
    split
    · assumption
    next key chosen =>
      apply more (valid.take downstreamOnce edges (member _ _ chosen))
      have longer : (progress.take downstream key).ordered = progress.ordered ++ [key] := Progress.releases_ordered _ _
      rw [longer, length_append, length_singleton]
      omega

/-- Each node was the choice among all that were ready when it was taken. -/
theorem run_chosen (fuel : Nat)
    (valid : Partial nodes needs progress) : ∃ more, (progress.run choose downstream fuel).ordered = progress.ordered ++ more ∧
      ∀ earlier key later, more = earlier ++ key :: later → ∃ ready, choose ready = some key ∧ ∀ other, other ∈ ready ↔
        other ∈ nodes ∧ other ∉ progress.ordered ++ earlier ∧ ∀ need ∈ needs other, need ∈ progress.ordered ++ earlier := by
  induction fuel generalizing progress with
  | zero => exact ⟨[], (append_nil _).symm, fun earlier key later impossible => by simp at impossible⟩
  | succ fuel ih =>
    unfold Progress.run
    split
    · exact ⟨[], (append_nil _).symm, fun earlier key later impossible => by simp at impossible⟩
    next first chosen =>
      obtain ⟨more, extended, trace⟩ := ih (valid.take downstreamOnce edges (member _ _ chosen))
      have ordered : (progress.take downstream first).ordered = progress.ordered ++ [first] := Progress.releases_ordered _ _
      rw [ordered, append_assoc, singleton_append] at extended
      refine ⟨first :: more, extended, fun earlier key later split => ?_⟩
      cases earlier with
      | nil =>
        cases split
        exact ⟨progress.ready, chosen, fun other => by rw [append_nil]; exact valid.ready other⟩
      | cons taken earlier =>
        cases split
        have := trace earlier key later rfl
        rwa [ordered, append_assoc, singleton_append] at this

end

end Partial

structure Start (nodes : Finset κ) (needs : κ → Finset κ) (progress : Progress κ) : Prop where
  ordered : progress.ordered = []
  degree : ∀ key, progress.indegree[key]? = if key ∈ nodes then some (needs key).card else none
  ready : ∀ key, key ∈ progress.ready ↔ progress.indegree[key]? = some 0

theorem Start.valid {nodes : Finset κ} {needs : κ → Finset κ} {progress : Progress κ} (start : Start nodes needs progress) :
    Partial nodes needs progress where
  once := by
    rw [start.ordered]
    exact nodup_nil
  within := by
    intro key member
    rw [start.ordered] at member
    cases member
  first := by
    intro earlier key later split
    rw [start.ordered] at split
    have impossible := congrArg List.length split
    simp at impossible
  degree := by
    intro key
    rw [start.degree, start.ordered]
    simp
  ready := by
    intro key
    rw [start.ready, start.degree, start.ordered]
    by_cases member : key ∈ nodes
    · simp [member, Finset.card_eq_zero, Finset.eq_empty_iff_forall_notMem]
    · simp [member]

end Kahn

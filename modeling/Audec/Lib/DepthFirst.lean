import Audec.Lib.Digraph

/-! Depth-first search for a cycle, with the keys that are being visited on a stack. -/

open Machine Digraph List
open Std (ExtTreeMap)

namespace DepthFirst

variable {κ : Type} [LinearOrder κ]

inductive Colour where
  | visiting
  | finished

structure Search (κ : Type) [LinearOrder κ] where
  states : ExtTreeMap κ Colour
  stack : List κ

/-- Why a search ends early: with a cycle, or because its fuel or its stack was not what it needs. -/
inductive Stop (κ : Type) where
  | cycle (path : List κ)
  | exhausted
  | offStack

def enter (search : Search κ) (key : κ) : Search κ :=
  ⟨search.states.insert key .visiting, search.stack ++ [key]⟩

def leave (search : Search κ) (key : κ) : Search κ :=
  ⟨search.states.insert key .finished, search.stack.dropLast⟩

def meet (search : Search κ) (key : κ) : Colour → Except (Stop κ) (Search κ)
  | .visiting =>
    match search.stack.findIdx? (· = key) with
    | some start => .error (.cycle (search.stack.drop start ++ [key]))
    | none => .error .offStack
  | .finished => .ok search

/-- `fuel` bounds the depth of the search. -/
def visit (neighbours : κ → List κ) : Nat → Search κ → κ → Except (Stop κ) (Search κ)
  | 0, _, _ => .error .exhausted
  | fuel + 1, search, key => do
    let visited ← (neighbours key).foldlM
      (fun search neighbour =>
        match search.states[neighbour]? with
        | none => visit neighbours fuel search neighbour
        | some colour => meet search neighbour colour)
      (enter search key)
    .ok (leave visited key)

def searchFrom (neighbours : κ → List κ) (fuel : Nat) (keys : List κ) : Except (Stop κ) (Search κ) :=
  keys.foldlM
    (fun search key =>
      match search.states[key]? with
      | none => visit neighbours fuel search key
      | some _ => .ok search)
    ⟨∅, []⟩

section Graph

variable (neighbours : κ → List κ)

structure Valid (search : Search κ) : Prop where
  once : search.stack.Nodup
  visiting : ∀ key, search.states[key]? = some .visiting ↔ key ∈ search.stack
  path : search.stack.IsChain (Edge neighbours)
  closed : ∀ key, search.states[key]? = some .finished → ∀ neighbour ∈ neighbours key, search.states[neighbour]? = some .finished
  acyclic : ∀ key, search.states[key]? = some .finished → ¬ Relation.TransGen (Edge neighbours) key key

def Ends (result : Except (Stop κ) (Search κ)) (good : Search κ → Prop) : Prop :=
  match result with
  | .ok search => good search
  | .error (.cycle path) => ClosedWalk (Edge neighbours) path
  | .error .exhausted => False
  | .error .offStack => False

end Graph

variable {neighbours : κ → List κ}

variable {result : Except (Stop κ) (Search κ)} {after : Search κ} {below : List κ} {fuel : Nat}

theorem Ends.bind {good good' : Search κ → Prop} {next : Search κ → Except (Stop κ) (Search κ)}
    (ends : Ends neighbours result good) (more : ∀ search, good search → Ends neighbours (next search) good') :
    Ends neighbours (result >>= next) good' := by
  cases result with
  | ok search => exact more search ends
  | error stop => cases stop <;> exact ends

theorem Ends.mono {good good' : Search κ → Prop} (ends : Ends neighbours result good)
    (weaker : ∀ search, good search → good' search) : Ends neighbours result good' := by
  cases result with
  | ok search => exact weaker search ends
  | error stop => cases stop <;> exact ends

structure Grown (search after : Search κ) : Prop where
  stack : after.stack = search.stack
  finished : ∀ key : κ, search.states[key]? = some .finished → after.states[key]? = some .finished
  seen : ∀ key : κ, after.states[key]? = none → search.states[key]? = none

theorem Grown.refl (search : Search κ) : Grown search search := ⟨rfl, fun _ => id, fun _ => id⟩

variable {search : Search κ} {key : κ} {nodes : Finset κ}

theorem Grown.trans {later : Search κ} (first : Grown search after) (second : Grown after later) : Grown search later :=
  ⟨second.stack.trans first.stack, fun key done => second.finished key (first.finished key done),
    fun key unseen => first.seen key (second.seen key unseen)⟩

def unseen (nodes : Finset κ) (search : Search κ) : Finset κ := nodes.filter fun key => search.states[key]? = none

theorem Grown.unseen_card (grown : Grown search after) (nodes : Finset κ) :
    (unseen nodes after).card ≤ (unseen nodes search).card := by
  apply Finset.card_le_card
  intro key member
  rw [unseen, Finset.mem_filter] at member ⊢
  exact ⟨member.1, grown.seen key member.2⟩

theorem enter_states (search : Search κ) (key other : κ) :
    (enter search key).states[other]? = if key = other then some .visiting else search.states[other]? := by
  simp only [enter, ExtTreeMap.getElem?_insert, compare_eq_iff_eq]

theorem leave_states (search : Search κ) (key other : κ) :
    (leave search key).states[other]? = if key = other then some .finished else search.states[other]? := by
  simp only [leave, ExtTreeMap.getElem?_insert, compare_eq_iff_eq]

theorem enter_unseen (inside : key ∈ nodes) (fresh : search.states[key]? = none) :
    (unseen nodes (enter search key)).card < (unseen nodes search).card := by
  apply Finset.card_lt_card
  rw [Finset.ssubset_iff_of_subset]
  · refine ⟨key, Finset.mem_filter.mpr ⟨inside, fresh⟩, ?_⟩
    intro member
    have absent := (Finset.mem_filter.mp member).2
    rw [enter_states, if_pos rfl] at absent
    cases absent
  · intro other member
    rw [unseen, Finset.mem_filter, enter_states] at member
    rw [unseen, Finset.mem_filter]
    obtain ⟨there, absent⟩ := member
    split at absent
    · cases absent
    · exact ⟨there, absent⟩

section

variable (valid : Valid neighbours search)
include valid

theorem Valid.enter (fresh : search.states[key]? = none)
    (linked : ∀ top ∈ search.stack.getLast?, key ∈ neighbours top) : Valid neighbours (enter search key) := by
  have off : key ∉ search.stack := by
    intro inside
    rw [(valid.visiting key).mpr inside] at fresh
    cases fresh
  constructor
  case once =>
    rw [DepthFirst.enter, nodup_append]
    refine ⟨valid.once, nodup_singleton _, ?_⟩
    intro other inside last single same
    rw [mem_singleton] at single
    rw [single] at same
    exact off (same ▸ inside)
  case visiting =>
    intro other
    rw [enter_states, DepthFirst.enter, mem_append, mem_singleton, ← valid.visiting]
    split
    · rename_i same
      simp [same]
    · rename_i different
      simp [Ne.symm different]
  case path =>
    apply valid.path.append (isChain_singleton _)
    intro top last other first
    cases first
    exact linked top last
  case closed =>
    intro other done neighbour near
    rw [enter_states] at done ⊢
    split at done
    · cases done
    · have held := valid.closed other done neighbour near
      rw [if_neg]
      · exact held
      · rintro rfl
        rw [held] at fresh
        cases fresh
  case acyclic =>
    intro other done
    rw [enter_states] at done
    split at done
    · cases done
    · exact valid.acyclic other done

theorem Valid.reaches {other : κ} (done : search.states[key]? = some .finished)
    (reached : Relation.ReflTransGen (Edge neighbours) key other) : search.states[other]? = some .finished := by
  induction reached with
  | refl => exact done
  | tail _ edge held => exact valid.closed _ held _ edge

theorem Valid.leave (top : search.stack = below ++ [key])
    (done : ∀ neighbour ∈ neighbours key, search.states[neighbour]? = some .finished) : Valid neighbours (leave search key) := by
  have here : search.states[key]? = some .visiting := (valid.visiting key).mpr (top ▸ mem_append_right _ (mem_singleton_self _))
  have once := valid.once
  rw [top, nodup_append] at once
  have apart : key ∉ below := fun inside => once.2.2 key inside key (mem_singleton_self _) rfl
  have stack : (DepthFirst.leave search key).stack = below := by
    rw [DepthFirst.leave, top, dropLast_concat]
  constructor
  case once =>
    rw [stack]
    exact once.1
  case visiting =>
    intro other
    rw [leave_states, stack]
    split
    · rename_i same
      rw [← same]
      simp [apart]
    · rename_i different
      rw [valid.visiting, top, mem_append, mem_singleton]
      simp [Ne.symm different]
  case path =>
    have path := valid.path
    rw [top] at path
    rw [stack]
    exact path.left_of_append
  case closed =>
    intro other finished neighbour near
    rw [leave_states] at finished ⊢
    split
    · rfl
    · split at finished
      · rename_i same
        exact done neighbour (same ▸ near)
      · exact valid.closed other finished neighbour near
  case acyclic =>
    intro other finished cycle
    rw [leave_states] at finished
    split at finished
    · rename_i same
      subst same
      -- a cycle through the key would go through a finished neighbour and come back to it
      obtain ⟨next, edge, back⟩ := Relation.TransGen.head'_iff.mp cycle
      have again := valid.reaches (done next edge) back
      rw [here] at again
      cases again
    · exact valid.acyclic other finished cycle

theorem meet_ends {neighbour : κ} (top : search.stack = below ++ [key])
    (near : neighbour ∈ neighbours key) {colour : Colour} (met : search.states[neighbour]? = some colour) :
    Ends neighbours (meet search neighbour colour) fun after => after = search ∧ search.states[neighbour]? = some .finished := by
  cases colour with
  | finished => exact ⟨rfl, met⟩
  | visiting =>
    have inside : neighbour ∈ search.stack := (valid.visiting neighbour).mp met
    unfold meet
    dsimp only
    split
    · rename_i start found
      obtain ⟨bound, same, _⟩ := findIdx?_eq_some_iff_getElem.mp found
      have first : search.stack[start] = neighbour := of_decide_eq_true same
      have last : (search.stack.drop start).getLast? = some key := by
        rw [getLast?_drop, if_neg (not_le.mpr bound), top, getLast?_concat]
      constructor
      case walks =>
        rw [length_append, length_drop, length_singleton]
        omega
      case returns =>
        rw [getLast?_concat, drop_eq_getElem_cons bound, first]
        rfl
      case edges =>
        apply (valid.path.drop start).append (isChain_singleton _)
        intro source held target single
        rw [last] at held
        cases held
        cases single
        exact near
    · rename_i missing
      have other := findIdx?_eq_none_iff.mp missing neighbour inside
      simp at other

end

section

variable (within : ∀ key ∈ nodes, ∀ neighbour ∈ neighbours key, neighbour ∈ nodes)
include within

theorem visit_ends
    (valid : Valid neighbours search) (inside : key ∈ nodes) (fresh : search.states[key]? = none)
    (linked : ∀ top ∈ search.stack.getLast?, key ∈ neighbours top) (enough : (unseen nodes search).card ≤ fuel) :
    Ends neighbours (visit neighbours fuel search key)
      fun after => Valid neighbours after ∧ Grown search after ∧ after.states[key]? = some .finished := by
  induction fuel generalizing search key with
  | zero =>
    have some' := enter_unseen inside fresh
    omega
  | succ fuel deeper =>
    have entered := valid.enter fresh linked
    have fewer := enter_unseen inside fresh
    -- each neighbour in turn is finished, and the stack is as it was
    have loop : ∀ (rest : List κ) (current : Search κ), (∀ neighbour ∈ rest, neighbour ∈ neighbours key) → Valid neighbours current →
        current.stack = search.stack ++ [key] → (unseen nodes current).card ≤ fuel →
        Ends neighbours
          (rest.foldlM
            (fun search neighbour =>
              match search.states[neighbour]? with
              | none => visit neighbours fuel search neighbour
              | some colour => meet search neighbour colour)
            current)
          fun after => Valid neighbours after ∧ Grown current after ∧ ∀ neighbour ∈ rest, after.states[neighbour]? = some .finished := by
      intro rest
      induction rest with
      | nil => exact fun current _ valid _ _ => ⟨valid, Grown.refl current, fun _ none => absurd none not_mem_nil⟩
      | cons neighbour rest later =>
        intro current near held top room
        have here : neighbour ∈ neighbours key := near neighbour mem_cons_self
        have step : Ends neighbours
            (match current.states[neighbour]? with
              | none => visit neighbours fuel current neighbour
              | some colour => meet current neighbour colour)
            fun after => Valid neighbours after ∧ Grown current after ∧ after.states[neighbour]? = some .finished := by
          split
          · rename_i absent
            apply deeper held (within key inside neighbour here) absent _ room
            intro last member
            rw [top, getLast?_concat] at member
            cases member
            exact here
          · rename_i colour met
            apply (meet_ends held top here met).mono
            rintro after ⟨rfl, done⟩
            exact ⟨held, Grown.refl _, done⟩
        rw [foldlM_cons]
        apply step.bind
        intro after ends
        obtain ⟨valid', grown, done⟩ := ends
        have more := later after (fun other member => near other (mem_cons_of_mem _ member)) valid' (grown.stack.trans top)
          (le_trans (grown.unseen_card nodes) room)
        apply more.mono
        intro last ends
        obtain ⟨valid'', grown', all⟩ := ends
        refine ⟨valid'', grown.trans grown', ?_⟩
        intro other member
        rcases mem_cons.mp member with rfl | member
        · exact grown'.finished _ done
        · exact all other member
    unfold visit
    apply (loop (neighbours key) (enter search key) (fun _ => id) entered rfl (by omega)).bind
    intro after ends
    obtain ⟨valid', grown, all⟩ := ends
    have top : after.stack = search.stack ++ [key] := grown.stack
    refine ⟨valid'.leave top all, ⟨?_, ?_, ?_⟩, ?_⟩
    · rw [leave, top, dropLast_concat]
    · intro other done
      rw [leave_states]
      split
      · rfl
      · rename_i different
        apply grown.finished
        rw [enter_states, if_neg different]
        exact done
    · intro other absent
      rw [leave_states] at absent
      split at absent
      · cases absent
      · rename_i different
        have before := grown.seen other absent
        rw [enter_states, if_neg different] at before
        exact before
    · rw [leave_states, if_pos rfl]

theorem searchFrom_ends {keys : List κ}
    (inside : ∀ key ∈ keys, key ∈ nodes) (enough : nodes.card ≤ fuel) :
    Ends neighbours (searchFrom neighbours fuel keys)
      fun after => Valid neighbours after ∧ ∀ key ∈ keys, after.states[key]? = some .finished := by
  have loop : ∀ (rest : List κ) (search : Search κ), (∀ key ∈ rest, key ∈ nodes) → Valid neighbours search → search.stack = [] →
      Ends neighbours
        (rest.foldlM
          (fun search key =>
            match search.states[key]? with
            | none => visit neighbours fuel search key
            | some _ => .ok search)
          search)
        fun after => Valid neighbours after ∧ Grown search after ∧ ∀ key ∈ rest, after.states[key]? = some .finished := by
    intro rest
    induction rest with
    | nil => exact fun search _ valid _ => ⟨valid, Grown.refl search, fun _ none => absurd none not_mem_nil⟩
    | cons key rest later =>
      intro search member valid empty
      have step : Ends neighbours
          (match search.states[key]? with
            | none => visit neighbours fuel search key
            | some _ => .ok search)
          fun after => Valid neighbours after ∧ Grown search after ∧ after.states[key]? = some .finished := by
        split
        · rename_i absent
          apply visit_ends within valid (member key mem_cons_self) absent
          · rw [empty]
            exact fun _ none => nomatch none
          · exact le_trans (Finset.card_filter_le _ _) enough
        · rename_i colour met
          cases colour with
          | finished => exact ⟨valid, Grown.refl search, met⟩
          | visiting =>
            have on := (valid.visiting key).mp met
            rw [empty] at on
            cases on
      rw [foldlM_cons]
      apply step.bind
      intro after ends
      obtain ⟨valid', grown, done⟩ := ends
      apply (later after (fun other there => member other (mem_cons_of_mem _ there)) valid' (grown.stack.trans empty)).mono
      intro last ends
      obtain ⟨valid'', grown', all⟩ := ends
      refine ⟨valid'', grown.trans grown', ?_⟩
      intro other there
      rcases mem_cons.mp there with rfl | there
      · exact grown'.finished _ done
      · exact all other there
  have start : Valid neighbours (⟨∅, []⟩ : Search κ) := by
    constructor <;> simp
  exact (loop keys _ inside start rfl).mono fun after ends => ⟨ends.1, ends.2.2⟩

end

end DepthFirst
